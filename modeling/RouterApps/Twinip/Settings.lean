/-
# Twinip.Settings -- the files that twin IP is configured with (twinip.c)

The MAC addresses of the twins and their WAN addresses are written to two files under `/proc`, as
texts with blanks between the entries.  Both writers take a text apart with `rstrtok`, which returns
NULL for a text without an entry, and neither of them looks at that.

A string is the list of its bytes before the NUL, and a pointer that may be NULL is an `Option`.  What
a writer must not do ends it with a `Fault`.  A pointer one behind NULL counts as NULL.

* The MAC addresses are read safely exactly if there is an entry, and every entry that is read has
  five hyphens (`MacTextRead`).
* The WAN addresses are read safely exactly if there are one or two entries, and each begins with a
  digit (`WanTextRead`).
-/
import RouterApps.CLib.Fields
import RouterApps.CLib.Text
import RouterApps.Twinip.Frames

namespace RouterApps.Twinip

open CLib List Option

/-! ## The tokenizer -/

def blank : UInt8 := 32

/-- `rstrtok(s, " ")`, with the value of `__rstrtok` before and after. -/
def rstrtok (s saved : Option (List UInt8)) : Option (List UInt8) × Option (List UInt8) :=
  match s.or saved with
  | none => (none, saved)
  | some sbegin =>
    let sbegin := sbegin.dropWhile (· == blank)
    if sbegin = [] then (none, none)
    else
      let send := sbegin.dropWhile (· != blank)
      (some (sbegin.takeWhile (· != blank)), if send = [] then none else some send.tail)

/-! ## The MAC addresses -/

/-- A use of NULL, a variable that was not set, a write behind the end of a table. -/
inductive Fault
  | nullPointer
  | unsetValue
  | tableIndex
deriving DecidableEq

/-- The tables that the files set. -/
structure Settings where
  cfg : Config
  skip : Skip

/-- Before anything is written. -/
def Settings.initial : Settings := ⟨fun _ => ⟨Vector.replicate 6 0, 0, 0⟩, fun _ => true⟩

/-- `simple_strtoul(start, NULL, 16)`. -/
def simpleStrtoul : List UInt8 → UInt32
  | 48 :: 120 :: rest => UInt32.ofNat (readDigits 16 0 rest).1
  | 48 :: 88 :: rest => UInt32.ofNat (readDigits 16 0 rest).1
  | start => UInt32.ofNat (readDigits 16 0 start).1

/-- The loop over the six numbers of an entry, from `start` on.  `deli + 1` is where it goes on. -/
def readMac : Nat → Option (List UInt8) → Except Fault (List UInt32)
  | 0, _ => .ok []
  | _ + 1, none => .error .nullPointer
  | n + 1, some start =>
    let deli := start.dropWhile (· != hyphen)
    match readMac n (if deli = [] then none else some deli.tail) with
    | .error fault => .error fault
    | .ok numbers => .ok (simpleStrtoul (start.takeWhile (· != hyphen)) :: numbers)

/-- `strlen("00-00-00-00-00-00")`. -/
def macLen : Nat := 17

/-- The loop over the entries, with the number of rows of `mac` that are left. -/
def readMacs : Nat → Option (List UInt8) → Option (List UInt8) → Except Fault (List (List UInt32))
  | 0, _, _ => .ok []
  | _ + 1, none, _ => .error .nullPointer
  | n + 1, some buf2, saved =>
    if buf2.length < macLen then .ok []
    else
      match readMac 6 (some buf2) with
      | .error fault => .error fault
      | .ok mac =>
        match rstrtok none saved with
        | (none, _) => .ok [mac]
        | (some next, saved) =>
          match readMacs n (some next) saved with
          | .error fault => .error fault
          | .ok macs => .ok (mac :: macs)

/-- `IPCLONE_WAN1_VIRTUAL_IP` and `IPCLONE_WAN2_VIRTUAL_IP`. -/
def ipcloneVirtualIp (w : Fin 2) : UInt32 := if w = 0 then 0xc0a8ff02 else 0xc0a8ff03

/-- The row of a twin, zeros if it was not read. -/
def macRow (macs : List (List UInt32)) (w : Fin 2) : List UInt32 := macs.getD w (List.replicate 6 0)

/-- The end of `proc_write_ipclone`. -/
def Settings.setMacs (settings : Settings) (macs : List (List UInt32)) : Settings where
  cfg := fun w =>
    { settings.cfg w with
      virtualIp := if (macRow macs w).all (· == 0) then 0 else ipcloneVirtualIp w
      mac := Vector.ofFn fun i => UInt8.ofNat ((macRow macs w).getD i 0).toNat }
  skip := fun w => (macRow macs w).all (· == 0) || settings.skip w

/-- The string in a buffer that a text was copied to, with a NUL behind it. -/
def bufString (text : List UInt8) : List UInt8 := text.takeWhile (· != 0)

def procWriteIpclone (settings : Settings) (text : List UInt8) : Except Fault Settings :=
  if text.length > 49 then .ok settings
  else
    let (buf2, saved) := rstrtok (some (bufString text)) none
    match readMacs 2 buf2 saved with
    | .error fault => .error fault
    | .ok macs => .ok (settings.setMacs macs)

/-! ## The WAN addresses -/

def isDigit (b : UInt8) : Bool := 48 ≤ b.toNat && b.toNat ≤ 57

/-- `str_to_u32`: the number, and the text behind it. -/
def strToU32 (pbuf : List UInt8) : UInt32 × List UInt8 :=
  let (value, rest) := readDigits 10 0 pbuf
  (UInt32.ofNat value, rest)

/-- `ipaddr = (ipaddr << 8) | tmp`. -/
def shiftIn (ipaddr : UInt32) : Option UInt32 → Except Fault UInt32
  | none => .error .unsetValue
  | some tmp => .ok ((ipaddr <<< 8) ||| tmp)

/-- The loop of `ipstr_to_u32`, and what follows it.  A round takes one byte at least. -/
def ipstrLoop : Nat → List UInt8 → UInt32 → Option UInt32 → Except Fault UInt32
  | rounds + 1, b :: rest, ipaddr, tmp =>
    if b = dot then
      match shiftIn ipaddr tmp with
      | .error fault => .error fault
      | .ok ipaddr => ipstrLoop rounds rest ipaddr tmp
    else if isDigit b then
      let (value, rest) := strToU32 (b :: rest)
      ipstrLoop rounds rest ipaddr (some value)
    else shiftIn ipaddr tmp
  | _, _, ipaddr, tmp => shiftIn ipaddr tmp

def ipstrToU32 (ipstr : List UInt8) : Except Fault UInt32 := ipstrLoop ipstr.length ipstr 0 none

/-- The loop of `proc_write_wanip`, with the number of cells of `ipclone_wanip` that are left. -/
def readWanips : Nat → Option (List UInt8) → Option (List UInt8) → Except Fault (List UInt32)
  | _, none, _ => .error .nullPointer
  | 0, some buf2, _ =>
    match ipstrToU32 buf2 with
    | .error fault => .error fault
    | .ok _ => .error .tableIndex
  | n + 1, some buf2, saved =>
    match ipstrToU32 buf2 with
    | .error fault => .error fault
    | .ok wanip =>
      match rstrtok none saved with
      | (none, _) => .ok [wanip]
      | (some next, saved) =>
        match readWanips n (some next) saved with
        | .error fault => .error fault
        | .ok wanips => .ok (wanip :: wanips)

def Settings.setWanips (settings : Settings) (wanips : List UInt32) : Settings :=
  { settings with cfg := fun w => { settings.cfg w with wanip := wanips.getD w (settings.cfg w).wanip } }

def procWriteWanip (settings : Settings) (text : List UInt8) : Except Fault Settings :=
  if text.length > 31 then .ok settings
  else
    let (buf2, saved) := rstrtok (some (bufString text)) none
    match readWanips 2 buf2 saved with
    | .error fault => .error fault
    | .ok wanips => .ok (settings.setWanips wanips)

/-! ## What the tokenizer returns -/

def wordsLeft (p : Option (List UInt8)) : List (List UInt8) := (p.map (wordList blank)).getD []

theorem rstrtok_spec (s saved : Option (List UInt8)) : (rstrtok s saved).1 = (wordsLeft (s.or saved)).head? ∧
      wordsLeft (rstrtok s saved).2 = (wordsLeft (s.or saved)).tail := by
  unfold rstrtok
  cases given : s.or saved with
  | none =>
    have unsaved : saved = none := (or_eq_none_iff.1 given).2
    subst unsaved
    exact ⟨rfl, rfl⟩
  | some text =>
    have skipped : wordsLeft (some text) = wordList blank (text.dropWhile (· == blank)) :=
      (wordList_dropWhile blank text).symm
    rw [skipped]
    dsimp only
    cases start : text.dropWhile (· == blank) with
    | nil => exact ⟨rfl, rfl⟩
    | cons b rest =>
      have other : b ≠ blank := by simpa using head_of_dropWhile start
      rw [if_neg (cons_ne_nil b rest), wordList_eq_cons other]
      refine ⟨rfl, ?_⟩
      split
      · rename_i ended
        rw [ended]
        rfl
      · rfl

/-! ## Texts that are read safely -/

variable (n : Nat) (buf2 : List UInt8) (saved : Option (List UInt8))

/-- The number of an entry's hyphens decides whether its six numbers are read. -/
theorem readMac_isOk_iff (start : List UInt8) :
    (∃ numbers, readMac (n + 1) (some start) = .ok numbers) ↔ n ≤ start.count hyphen := by
  induction n generalizing start with
  | zero =>
    refine iff_of_true ?_ (Nat.zero_le _)
    exact ⟨_, rfl⟩
  | succ n ih =>
    have parts := takeWhile_append_dropWhile (p := (· != hyphen)) (l := start)
    have before : (start.takeWhile (· != hyphen)).count hyphen = 0 :=
      count_eq_zero.2 fun inside => by simpa using mem_takeWhile_imp inside
    have all : start.count hyphen = (start.dropWhile (· != hyphen)).count hyphen := by
      rw [← parts, count_append, before, Nat.zero_add, parts]
    rw [readMac, all]
    cases left : start.dropWhile (· != hyphen) with
    | nil => simp [readMac]
    | cons d behind =>
      have ended : d = hyphen := by simpa using head_of_dropWhile left
      rw [if_neg (cons_ne_nil d behind), tail_cons, ended, count_cons_self, Nat.add_le_add_iff_right, ← ih behind]
      cases readMac (n + 1) (some behind) <;> simp

/-- After a call that found an entry, that entry and the ones behind it are those that were left. -/
theorem wordsLeft_eq_cons {s saved later : Option (List UInt8)} {entry : List UInt8}
    (found : rstrtok s saved = (some entry, later)) : wordsLeft (s.or saved) = entry :: wordsLeft later := by
  obtain ⟨first, others⟩ := rstrtok_spec s saved
  rw [found] at first others
  rw [others]
  exact eq_cons_of_mem_head? first.symm

theorem wordsLeft_eq_nil {s saved later : Option (List UInt8)} (ended : rstrtok s saved = (none, later)) :
    wordsLeft (s.or saved) = [] := by
  have first := (rstrtok_spec s saved).1
  rw [ended] at first
  exact head?_eq_none_iff.1 first.symm

theorem readMacs_isOk_iff : (∃ macs, readMacs n (some buf2) saved = .ok macs) ↔
      ∀ entry ∈ ((buf2 :: wordsLeft saved).take n).takeWhile (fun entry => decide (macLen ≤ entry.length)),
        5 ≤ entry.count hyphen := by
  induction n generalizing buf2 saved with
  | zero => simp [readMacs]
  | succ n ih =>
    rw [readMacs, take_succ_cons]
    by_cases short : buf2.length < macLen
    · rw [if_pos short, takeWhile_cons_of_neg (by simpa using short)]
      simp
    · rw [if_neg short, takeWhile_cons_of_pos (by simpa using short), forall_mem_cons, ← readMac_isOk_iff]
      cases read : readMac 6 (some buf2) with
      | error fault => simp
      | ok mac =>
        rcases next : rstrtok none saved with ⟨_ | entry, later⟩
        · simp [show wordsLeft saved = [] from wordsLeft_eq_nil next]
        · rw [show wordsLeft saved = entry :: wordsLeft later from wordsLeft_eq_cons next, ← ih entry later]
          dsimp only
          cases readMacs n (some entry) later <;> simp

/-- Once a number was read, the variable for it is set. -/
theorem ipstrLoop_isOk (rounds : Nat) (ipstr : List UInt8) (ipaddr tmp : UInt32) :
    ∃ address, ipstrLoop rounds ipstr ipaddr (some tmp) = .ok address := by
  induction rounds generalizing ipstr ipaddr tmp with
  | zero => exact ⟨_, rfl⟩
  | succ rounds ih =>
    cases ipstr with
    | nil => exact ⟨_, rfl⟩
    | cons b rest =>
      rw [ipstrLoop]
      split
      · exact ih _ _ _
      · split
        · exact ih _ _ _
        · exact ⟨_, rfl⟩

theorem ipstrToU32_isOk_iff (ipstr : List UInt8) :
    (∃ address, ipstrToU32 ipstr = .ok address) ↔ ipstr.head?.any isDigit = true := by
  cases ipstr with
  | nil => simp [ipstrToU32, ipstrLoop, shiftIn]
  | cons b rest =>
    rw [ipstrToU32, length_cons, ipstrLoop, head?_cons]
    by_cases point : b = dot
    · subst point
      simp [shiftIn, isDigit, dot]
    · rw [if_neg point]
      by_cases digit : isDigit b = true
      · rw [if_pos digit]
        exact iff_of_true (ipstrLoop_isOk _ _ _ _) digit
      · simp [shiftIn, digit]

theorem readWanips_isOk_iff : (∃ wanips, readWanips n (some buf2) saved = .ok wanips) ↔
      (buf2 :: wordsLeft saved).length ≤ n ∧ ∀ entry ∈ buf2 :: wordsLeft saved, entry.head?.any isDigit = true := by
  induction n generalizing buf2 saved with
  | zero =>
    rw [readWanips]
    cases ipstrToU32 buf2 <;> simp
  | succ n ih =>
    rw [readWanips, forall_mem_cons, ← ipstrToU32_isOk_iff, length_cons, Nat.add_le_add_iff_right]
    cases read : ipstrToU32 buf2 with
    | error fault => simp
    | ok wanip =>
      rcases next : rstrtok none saved with ⟨_ | entry, later⟩
      · simp [show wordsLeft saved = [] from wordsLeft_eq_nil next]
      · have readable : ∃ address, (Except.ok wanip : Except Fault UInt32) = .ok address := ⟨wanip, rfl⟩
        rw [show wordsLeft saved = entry :: wordsLeft later from wordsLeft_eq_cons next, and_iff_right readable,
          ← ih entry later]
        dsimp only
        cases readWanips n (some entry) later <;> simp

def MacTextRead (text : List UInt8) : Prop :=
  wordList blank text ≠ [] ∧
    ∀ entry ∈ ((wordList blank text).take 2).takeWhile (fun entry => decide (macLen ≤ entry.length)),
      5 ≤ entry.count hyphen

/-- There are one or two entries, and each begins with a digit. -/
def WanTextRead (text : List UInt8) : Prop :=
  wordList blank text ≠ [] ∧ (wordList blank text).length ≤ 2 ∧
    ∀ entry ∈ wordList blank text, entry.head?.any isDigit = true

/-- **Safe texts.**  The writers commit no fault exactly if the text is too long to be looked at, or
what stands before its first NUL is as `MacTextRead` and `WanTextRead` describe. -/
theorem settings_read_safely_iff (settings : Settings) (macs wanips : List UInt8) :
    ((∃ after, procWriteIpclone settings macs = .ok after) ↔ 49 < macs.length ∨ MacTextRead (bufString macs)) ∧
      ((∃ after, procWriteWanip settings wanips = .ok after) ↔
        31 < wanips.length ∨ WanTextRead (bufString wanips)) := by
  constructor
  · unfold procWriteIpclone MacTextRead
    by_cases long : macs.length > 49
    · simp [long]
    rw [if_neg long, or_iff_right long]
    rcases first : rstrtok (some (bufString macs)) none with ⟨_ | entry, saved⟩
    · simp [show wordList blank (bufString macs) = [] from wordsLeft_eq_nil first, readMacs]
    · rw [show wordList blank (bufString macs) = entry :: wordsLeft saved from wordsLeft_eq_cons first,
        ← readMacs_isOk_iff]
      dsimp only
      cases readMacs 2 (some entry) saved <;> simp
  · unfold procWriteWanip WanTextRead
    by_cases long : wanips.length > 31
    · simp [long]
    rw [if_neg long, or_iff_right long]
    rcases first : rstrtok (some (bufString wanips)) none with ⟨_ | entry, saved⟩
    · simp [show wordList blank (bufString wanips) = [] from wordsLeft_eq_nil first, readWanips]
    · rw [show wordList blank (bufString wanips) = entry :: wordsLeft saved from wordsLeft_eq_cons first,
        ← readWanips_isOk_iff]
      dsimp only
      cases readWanips 2 (some entry) saved <;> simp

/-- A text without an entry, in either file; an entry without hyphens; three addresses; a name. -/
theorem settings_faults : procWriteIpclone Settings.initial [] = .error .nullPointer ∧
      procWriteIpclone Settings.initial (List.replicate 17 48) = .error .nullPointer ∧
      procWriteWanip Settings.initial [blank, blank] = .error .nullPointer ∧
      procWriteWanip Settings.initial (ascii ['1', ' ', '2', ' ', '3']) = .error .tableIndex ∧
      procWriteWanip Settings.initial (ascii ['w', 'a', 'n', '1']) = .error .unsetValue := by
  refine ⟨?_, ?_, ?_, ?_, ?_⟩ <;> rfl

end RouterApps.Twinip
