/-
# Ispfake.Hook -- the path of a web request is replaced (nf_nat_ispfake.c, nf_conntrack_ispfake.c)

The hook looks at the payload of packets to port 80.  `find_pattern` searches the payload for the name
of a method and, behind it, for the end of the line; `help` copies the path between them into an array
on the stack and compares it with "/".

What is read of the payload is listed by index, and what is behind it is arbitrary.  The search for the
end of the line reads a byte before it compares the index, so that it stays in the payload exactly if
there is an end of the line (`seek_of_mem`, `seek_of_notMem`).  The copy is as long as the path, and so
are the writes of the text that replaces it; neither is compared with the array (`hook_safe_iff`).
-/
import RouterApps.CLib.Text

namespace RouterApps.Ispfake

open CLib List Option

def cr : UInt8 := 13

def nl : UInt8 := 10

def getText : List UInt8 := ascii ['G', 'E', 'T', ' ']

def postText : List UInt8 := ascii ['P', 'O', 'S', 'T', ' ']

/-- The payload of a packet, and what is in the memory behind it. -/
structure Payload where
  bytes : List UInt8
  behind : Nat → UInt8

/-- `data[i]` -/
def Payload.at (p : Payload) (i : Nat) : UInt8 := (p.bytes[i]?).getD (p.behind (i - p.bytes.length))

/-- `memcmp(data + i, pattern, plen) == 0` -/
def Payload.same (p : Payload) (i : Nat) (pattern : List UInt8) : Bool :=
  (range pattern.length).map (fun n => p.at (i + n)) = pattern

/-! ## `find_pattern` -/

/-- The automaton for two line ends in a row. -/
def lineState (state : Nat) (c : UInt8) : Nat :=
  if c = cr then if state % 2 = 0 then state + 1 else 0
  else if c = nl then if state % 2 ≠ 0 then state + 1 else 0
  else 0

/-- What `find_pattern` returns, and the indices it read. -/
structure Found where
  result : Int
  numoff : Nat
  numlen : Nat
  reads : List Nat

def Found.reading (f : Found) (indices : List Nat) : Found := { f with reads := indices ++ f.reads }

section

variable (p : Payload) (pattern : List UInt8) (term : UInt8)

/-- The inner loop, `left` turns before the one at which `j > dlen`. -/
def seek : Nat → Nat → Option Nat × List Nat
  | 0, j => (if p.at j = term then some j else none, [j])
  | left + 1, j =>
    if p.at j = term then (some j, [j])
    else
      let (found, reads) := seek left (j + 1)
      (found, j :: reads)

/-- What follows a match. -/
def terminated (numoff : Nat) : Found :=
  match seek p term (p.bytes.length + 1 - numoff) numoff with
  | (some j, reads) => ⟨1, numoff, j - numoff, reads⟩
  | (none, reads) => ⟨-1, numoff, 0, reads⟩

/-- The outer loop, with `left` turns to go. -/
def scan : Nat → Nat → Nat → Found
  | 0, _, _ => ⟨0, 0, 0, []⟩
  | left + 1, i, state =>
    let state := lineState state (p.at i)
    if 4 ≤ state then ⟨0, 0, 0, [i]⟩
    else if p.same i pattern then (terminated p term (i + pattern.length)).reading (i :: range' i pattern.length)
    else (scan left (i + 1) state).reading (i :: range' i pattern.length)

def findPattern : Found :=
  let dlen := p.bytes.length
  if dlen = 0 then ⟨0, 0, 0, []⟩
  else if dlen ≤ pattern.length then
    let short := p.bytes.map toLower = (pattern.take dlen).map toLower
    ⟨if short then -1 else 0, 0, 0, range dlen⟩
  else scan p pattern term (dlen - pattern.length + 1) 0 0

end

/-! ## `help` -/

/-- The indices that are read, how much is copied into `cur_url`, and the part of the payload that
is replaced. -/
structure Effects where
  reads : List Nat
  copied : Nat
  mangled : Option (Nat × Nat × CString)

def Effects.none : Effects := ⟨[], 0, Option.none⟩

/-- `sizeof(cur_url)` -/
def curUrlSize : Nat := 2048

/-- The length of " HTTP/x.x" -/
def versionLen : Nat := 9

/-- The end of `help`: the copy and the comparison. -/
def replace (p : Payload) (newPath : Block 32) (f : Found) (reads : List Nat) : Effects :=
  if f.result = 0 ∨ f.numlen ≤ versionLen then ⟨reads, 0, none⟩
  else
    let pathlen := f.numlen - versionLen
    let curUrl := CString.ofBuffer ((range pathlen).map fun n => p.at (f.numoff + n))
    ⟨reads, pathlen,
      if curUrl.bytes = ascii ['/'] then some (f.numoff, pathlen, newPath.string) else none⟩

def help (p : Payload) (newPath : Block 32) : Effects :=
  if !p.same 0 getText && !p.same 0 postText then ⟨range 4 ++ range 5, 0, .none⟩
  else
    let first := range 4 ++ if p.same 0 getText then [] else range 5
    let get := findPattern p getText cr
    if get.result ≠ 0 then replace p newPath get (first ++ get.reads)
    else
      let post := findPattern p postText cr
      replace p newPath post (first ++ get.reads ++ post.reads)

/-- `ispfake_help`: whether the helper is on, the address is one of the LAN and the hook is there. -/
def ispfakeHelp (on internal hooked : Bool) (p : Payload) (newPath : Block 32) : Effects :=
  if !on then .none
  else if p.bytes.length < 10 then .none
  else if !internal then .none
  else if hooked then help p newPath
  else .none

/-- `proc_write_path`; `none` if it writes past `new_path`. -/
def procWritePath (text : List UInt8) (newPath : Block 32) : Option (Block 32) := do
  let path ← newPath.memcpy 0 (ascii ['/', '?'])
  let path ← path.memcpy 2 text
  path.memcpy (text.length + 2) [0]

/-! ## Where the path begins -/

/-- There were two line ends in a row up to index `i`. -/
def headEnded (bytes : List UInt8) (i : Nat) : Bool := 4 ≤ (bytes.take (i + 1)).foldl lineState 0

def offsetIn (pattern bytes : List UInt8) (places : List Nat) : Option Nat :=
  (places.find? fun i => headEnded bytes i || pattern.isPrefixOf (bytes.drop i)).bind fun i =>
    if headEnded bytes i then none else some (i + pattern.length)

def offsetOf (pattern bytes : List UInt8) : Option Nat :=
  offsetIn pattern bytes (range (bytes.length - pattern.length + 1))

/-- Where the hook takes the path of a request to begin. -/
def requestOffset (bytes : List UInt8) : Option Nat :=
  if getText.isPrefixOf bytes || postText.isPrefixOf bytes then (offsetOf getText bytes).or (offsetOf postText bytes)
  else none

/-- The path of a request ends in the payload and fits the array. -/
def PathFits (bytes : List UInt8) : Prop :=
  ∀ offset, requestOffset bytes = some offset →
    ∃ k, (bytes.drop offset).findIdx? (· = cr) = some k ∧ k ≤ curUrlSize + versionLen

/-! ## The searches -/

section

variable {p : Payload} {pattern : List UInt8} {term : UInt8}

def Payload.Inside (p : Payload) (reads : List Nat) : Prop := ∀ r ∈ reads, r < p.bytes.length

theorem Payload.Inside.append {first second : List Nat} (inFirst : p.Inside first) (inSecond : p.Inside second) :
    p.Inside (first ++ second) :=
  forall_mem_append.2 ⟨inFirst, inSecond⟩

variable {i : Nat}

theorem Payload.at_of_lt (inside : i < p.bytes.length) : p.bytes[i]? = some (p.at i) := by
  rw [Payload.at, getElem?_eq_getElem inside, getD_some]

theorem Payload.drop_of_lt (inside : i < p.bytes.length) : p.bytes.drop i = p.at i :: p.bytes.drop (i + 1) := by
  rw [drop_eq_getElem_cons inside]
  congr 1
  exact some.inj ((getElem?_eq_getElem inside).symm.trans (Payload.at_of_lt inside))

theorem Payload.same_eq (inside : i + pattern.length ≤ p.bytes.length) :
    p.same i pattern = pattern.isPrefixOf (p.bytes.drop i) := by
  have read : (range pattern.length).map (fun n => p.at (i + n)) = (p.bytes.drop i).take pattern.length := by
    apply ext_getElem?
    intro n
    by_cases below : n < pattern.length
    · have here : i + n < p.bytes.length := by omega
      rw [getElem?_map, getElem?_range below, map_some, getElem?_take_of_lt below, getElem?_drop, Payload.at_of_lt here]
    · rw [getElem?_eq_none (by simpa using below), getElem?_eq_none]
      simp only [length_take]
      omega
  rw [Payload.same, read, Bool.eq_iff_iff, decide_eq_true_eq, isPrefixOf_iff_prefix, prefix_iff_eq_take, eq_comm]

theorem seek_of_mem (left j k : Nat) (turns : j + left = p.bytes.length + 1)
    (found : (p.bytes.drop j).findIdx? (· = term) = some k) :
    seek p term left j = (some (j + k), range' j (k + 1)) := by
  induction left generalizing j k with
  | zero =>
    rw [drop_of_length_le (by omega)] at found
    simp at found
  | succ left ih =>
    by_cases inside : j < p.bytes.length
    · rw [Payload.drop_of_lt inside, findIdx?_cons] at found
      unfold seek
      by_cases here : p.at j = term
      · simp only [here, decide_true, if_true, some.injEq] at found ⊢
        subst found
        rfl
      · simp only [here, decide_false, Bool.false_eq_true, if_false, map_eq_some_iff] at found
        obtain ⟨k', later, rfl⟩ := found
        rw [if_neg here, ih (j + 1) k' (by omega) later]
        simp only [range'_succ]
        congr 2
        omega
    · rw [drop_of_length_le (by omega)] at found
      simp at found

theorem seek_of_notMem (left j : Nat) (turns : j + left = p.bytes.length + 1) (start : j ≤ p.bytes.length)
    (absent : (p.bytes.drop j).findIdx? (· = term) = none) : p.bytes.length ∈ (seek p term left j).2 := by
  induction left generalizing j with
  | zero => omega
  | succ left ih =>
    unfold seek
    by_cases inside : j < p.bytes.length
    · rw [Payload.drop_of_lt inside, findIdx?_cons] at absent
      by_cases here : p.at j = term
      · simp [here] at absent
      · simp only [here, decide_false, Bool.false_eq_true, if_false, map_eq_none_iff] at absent
        rw [if_neg here]
        exact mem_cons_of_mem _ (ih (j + 1) (by omega) (by omega) absent)
    · obtain rfl : j = p.bytes.length := by omega
      split <;> simp

/-- The state before the byte at `i`. -/
def stateAt (bytes : List UInt8) (i : Nat) : Nat := (bytes.take i).foldl lineState 0

theorem stateAt_succ (inside : i < p.bytes.length) :
    stateAt p.bytes (i + 1) = lineState (stateAt p.bytes i) (p.at i) := by
  unfold stateAt
  rw [take_add_one, Payload.at_of_lt inside, foldl_append]
  rfl

theorem headEnded_eq (inside : i < p.bytes.length) :
    headEnded p.bytes i = decide (4 ≤ lineState (stateAt p.bytes i) (p.at i)) := by
  rw [← stateAt_succ inside]
  rfl

theorem offsetIn_cons (pattern bytes : List UInt8) (i : Nat) (places : List Nat) :
    offsetIn pattern bytes (i :: places) =
      if headEnded bytes i then none else if pattern.isPrefixOf (bytes.drop i) then some (i + pattern.length)
      else offsetIn pattern bytes places := by
  unfold offsetIn
  cases ended : headEnded bytes i with
  | true => simp [ended]
  | false =>
    cases here : pattern.isPrefixOf (bytes.drop i) with
    | true | false => simp [ended, here]

theorem scan_cases (left i : Nat) (turns : i + left + pattern.length = p.bytes.length + 1) (nonempty : pattern ≠ []) :
    (offsetIn pattern p.bytes (range' i left) = none ∧ (scan p pattern term left i (stateAt p.bytes i)).result = 0 ∧
      p.Inside (scan p pattern term left i (stateAt p.bytes i)).reads) ∨
    ∃ offset front, offsetIn pattern p.bytes (range' i left) = some offset ∧ offset ≤ p.bytes.length ∧
      p.Inside front ∧ scan p pattern term left i (stateAt p.bytes i) = (terminated p term offset).reading front := by
  have positive := length_pos_iff.2 nonempty
  induction left generalizing i with
  | zero =>
    refine .inl ⟨rfl, rfl, ?_⟩
    intro r inside
    cases inside
  | succ left ih =>
    have inside : i < p.bytes.length := by omega
    have front : p.Inside (i :: range' i pattern.length) := by
      refine forall_mem_cons.2 ⟨inside, fun r read => ?_⟩
      have := mem_range'_1.1 read
      omega
    -- the loop and `offsetIn` decide alike at `i`
    have sameHere : p.same i pattern = pattern.isPrefixOf (p.bytes.drop i) := Payload.same_eq (by omega)
    simp only [range'_succ, scan, offsetIn_cons, headEnded_eq inside, decide_eq_true_eq, sameHere]
    by_cases ended : 4 ≤ lineState (stateAt p.bytes i) (p.at i)
    · rw [if_pos ended, if_pos ended]
      exact .inl ⟨rfl, rfl, fun r read => mem_singleton.1 read ▸ inside⟩
    rw [if_neg ended, if_neg ended]
    by_cases here : pattern.isPrefixOf (p.bytes.drop i) = true
    · rw [if_pos here, if_pos here]
      exact .inr ⟨i + pattern.length, _, rfl, by omega, front, rfl⟩
    rw [if_neg here, if_neg here, ← stateAt_succ inside]
    rcases ih (i + 1) (by omega) with ⟨absent, zero, reads⟩ | ⟨offset, later, found, below, reads, same⟩
    · exact .inl ⟨absent, zero, front.append reads⟩
    · refine .inr ⟨offset, i :: range' i pattern.length ++ later, found, below, front.append reads, ?_⟩
      rw [same]
      simp [Found.reading]

variable (p pattern term) in
theorem findPattern_cases (long : pattern.length < p.bytes.length) (nonempty : pattern ≠ []) :
    (offsetOf pattern p.bytes = none ∧ (findPattern p pattern term).result = 0 ∧
      p.Inside (findPattern p pattern term).reads) ∨
    ∃ offset front, offsetOf pattern p.bytes = some offset ∧ offset ≤ p.bytes.length ∧ p.Inside front ∧
      findPattern p pattern term = (terminated p term offset).reading front := by
  have whole : findPattern p pattern term = scan p pattern term (p.bytes.length - pattern.length + 1) 0 0 := by
    simp only [findPattern]
    rw [if_neg (by omega), if_neg (by omega)]
  rw [whole, offsetOf, range_eq_range']
  exact scan_cases (p.bytes.length - pattern.length + 1) 0 (by omega) nonempty

end

/-! ## The hook -/

section

variable {p : Payload} {newPath : Block 32} (f : Found) (reads : List Nat)

theorem replace_reads : (replace p newPath f reads).reads = reads := by
  unfold replace
  split <;> rfl

theorem replace_copied : (replace p newPath f reads).copied = if f.result = 0 then 0 else f.numlen - versionLen := by
  unfold replace
  by_cases zero : f.result = 0
  · simp [zero]
  · by_cases short : f.numlen ≤ versionLen
    · simp [short]
    · simp [zero, short]

theorem terminated_result_ne_zero (term : UInt8) (offset : Nat) : (terminated p term offset).result ≠ 0 := by
  unfold terminated
  split <;> simp

variable {offset : Nat}

section

variable (below : offset ≤ p.bytes.length)

include below

theorem terminated_of_mem {k : Nat} (found : (p.bytes.drop offset).findIdx? (· = cr) = some k) :
    terminated p cr offset = ⟨1, offset, k, range' offset (k + 1)⟩ := by
  simp only [terminated, seek_of_mem (p.bytes.length + 1 - offset) offset k (by omega) found, Nat.add_sub_cancel_left]

theorem terminated_of_notMem
    (absent : (p.bytes.drop offset).findIdx? (· = cr) = none) : p.bytes.length ∈ (terminated p cr offset).reads := by
  have behind := seek_of_notMem (p.bytes.length + 1 - offset) offset (by omega) below absent
  unfold terminated
  split
  all_goals
    rename_i reads here
    rwa [here] at behind

/-- What follows a match is safe exactly if the line ends in the payload and the path fits the array. -/
theorem replace_safe_iff {front before : List Nat} (inFront : p.Inside front) (inBefore : p.Inside before) {f : Found}
    (is : f = (terminated p cr offset).reading front) : p.Inside (replace p newPath f (before ++ f.reads)).reads ∧
      (replace p newPath f (before ++ f.reads)).copied ≤ curUrlSize ↔
    ∃ k, (p.bytes.drop offset).findIdx? (· = cr) = some k ∧ k ≤ curUrlSize + versionLen := by
  rw [replace_reads, replace_copied, is]
  cases found : (p.bytes.drop offset).findIdx? (· = cr) with
  | none =>
    have behind := terminated_of_notMem below found
    constructor
    · rintro ⟨safe, -⟩
      have := safe p.bytes.length (mem_append_right _ (mem_append_right _ behind))
      omega
    · rintro ⟨k, impossible, -⟩
      cases impossible
  | some k =>
    have inLine : offset + k < p.bytes.length := by
      have := (findIdx?_eq_some_iff_getElem.1 found).1
      simp only [length_drop] at this
      omega
    have line : p.Inside (range' offset (k + 1)) := by
      intro r read
      have := mem_range'_1.1 read
      omega
    have copied : k - versionLen ≤ curUrlSize ↔ k ≤ curUrlSize + versionLen := by omega
    rw [terminated_of_mem below found]
    change p.Inside (before ++ (front ++ range' offset (k + 1))) ∧ k - versionLen ≤ curUrlSize ↔ _
    simp only [some.injEq, exists_eq_left', copied]
    exact and_iff_right (inBefore.append (inFront.append line))

end

/-- **One request**: the path ends in the payload and fits the array. -/
theorem help_safe_iff (long : 10 ≤ p.bytes.length) :
    p.Inside (help p newPath).reads ∧ (help p newPath).copied ≤ curUrlSize ↔ PathFits p.bytes := by
  have sizes : getText.length = 4 ∧ postText.length = 5 := by decide
  have upTo n (few : n ≤ 10) : p.Inside (range n) := by
    intro r read
    have := mem_range.1 read
    omega
  have isGet : p.same 0 getText = getText.isPrefixOf p.bytes := Payload.same_eq (by omega)
  have isPost : p.same 0 postText = postText.isPrefixOf p.bytes := Payload.same_eq (by omega)
  unfold help PathFits requestOffset
  rw [isGet, isPost, ← Bool.not_or]
  by_cases method : (getText.isPrefixOf p.bytes || postText.isPrefixOf p.bytes) = true
  · have first : p.Inside (range 4 ++ if getText.isPrefixOf p.bytes then [] else range 5) := by
      refine (upTo 4 (by omega)).append ?_
      split
      · intro r read
        cases read
      · exact upTo 5 (by omega)
    rw [if_neg (by rw [method]; decide), if_pos method]
    rcases findPattern_cases p getText cr (by omega) (by decide) with
      ⟨noGet, zero, reads⟩ | ⟨offset, front, some, below, inFront, is⟩
    · have both := first.append reads
      rw [noGet, none_or, if_neg (not_not.2 zero)]
      rcases findPattern_cases p postText cr (by omega) (by decide) with
        ⟨noPost, zero', reads'⟩ | ⟨offset, front, some, below, inFront, is⟩
      · rw [noPost, replace_reads, replace_copied, if_pos zero']
        simpa only [reduceCtorEq, false_imp_iff, implies_true, iff_true, Nat.zero_le, and_true] using both.append reads'
      · simp only [some, Option.some.injEq, forall_eq']
        exact replace_safe_iff below inFront both is
    · have nonzero : (findPattern p getText cr).result ≠ 0 := by
        rw [is]
        exact terminated_result_ne_zero cr offset
      simp only [some, some_or, Option.some.injEq, forall_eq', if_pos nonzero]
      exact replace_safe_iff below inFront first is
  · rw [if_pos (by rw [Bool.eq_false_iff.2 method]; rfl), if_neg method]
    have few := (upTo 4 (by omega)).append (upTo 5 (by omega))
    simpa only [reduceCtorEq, false_imp_iff, implies_true, iff_true, Nat.zero_le, and_true] using few

theorem offsetOf_get (rest : List UInt8) : offsetOf getText (getText ++ rest) = some 4 := by
  have first : headEnded (getText ++ rest) 0 = false := by
    simp [headEnded, getText, ascii, lineState, cr]
  have here : getText.isPrefixOf ((getText ++ rest).drop 0) = true := isPrefixOf_iff_prefix.2 (prefix_append _ _)
  rw [offsetOf, range_succ_eq_map, offsetIn_cons]
  rfl

/-- As much is copied as the request has between the name of the method and the version. -/
theorem help_copied_of_get {line rest : List UInt8} (request : p.bytes = getText ++ (line ++ cr :: rest))
    (oneLine : cr ∉ line) (long : 10 ≤ p.bytes.length) : (help p newPath).copied = line.length - versionLen := by
  have sizes : getText.length = 4 := by decide
  have isGet : p.same 0 getText = true := by
    rw [Payload.same_eq (by omega), request]
    exact isPrefixOf_iff_prefix.2 (prefix_append _ _)
  have ends : (p.bytes.drop 4).findIdx? (· = cr) = some line.length := by
    rw [request, drop_left' sizes, findIdx?_append, findIdx?_cons]
    have none : line.findIdx? (· = cr) = none := by
      refine findIdx?_eq_none_iff.2 fun b inside => decide_eq_false ?_
      rintro rfl
      exact oneLine inside
    simp [none]
  rcases findPattern_cases p getText cr (by omega) (by decide) with ⟨none, -, -⟩ | ⟨offset, front, hit, below, -, is⟩
  · rw [request, offsetOf_get] at none
    cases none
  · rw [request, offsetOf_get] at hit
    cases hit
    rw [terminated_of_mem below ends] at is
    have called : help p newPath = replace p newPath (findPattern p getText cr)
        (range 4 ++ [] ++ (findPattern p getText cr).reads) := by
      simp only [help, isGet, is]
      rfl
    rw [called, replace_copied, is]
    rfl

/-- The text and its terminator have 30 bytes of the array. -/
theorem procWritePath_isSome_iff (text : List UInt8) (path : Block 32) :
    (procWritePath text path).isSome = true ↔ text.length ≤ 29 := by
  obtain ⟨start, begun⟩ := isSome_iff_exists.1 ((path.isSome_memcpy 0 (ascii ['/', '?'])).2 (by decide))
  simp only [procWritePath, begun, bind_eq_bind, bind_some]
  cases written : start.memcpy 2 text with
  | none =>
    have outside := (start.isSome_memcpy 2 text).not.1 (by simp [written])
    simp only [bind_none, isSome_none, Bool.false_eq_true, false_iff]
    omega
  | some path =>
    rw [bind_some, Block.isSome_memcpy]
    simp only [length_singleton]
    omega

/-- **The hook is safe exactly if the path of every request that reaches it ends in the payload and
fits the array, and the text written to the proc file has at most 29 bytes.** -/
theorem hook_safe_iff (on internal hooked : Bool) (p : Payload) (text : List UInt8) (newPath : Block 32) :
    p.Inside (ispfakeHelp on internal hooked p newPath).reads ∧
      (ispfakeHelp on internal hooked p newPath).copied ≤ curUrlSize ∧
      (procWritePath text newPath).isSome = true ↔
    (on = true → internal = true → hooked = true → 10 ≤ p.bytes.length → PathFits p.bytes) ∧ text.length ≤ 29 := by
  rw [← and_assoc, procWritePath_isSome_iff]
  refine and_congr_left fun _ => ?_
  by_cases reached : on = true ∧ internal = true ∧ hooked = true ∧ 10 ≤ p.bytes.length
  · obtain ⟨rfl, rfl, rfl, long⟩ := reached
    have called : ispfakeHelp true true true p newPath = help p newPath := by
      simp only [ispfakeHelp, if_neg (Nat.not_lt.2 long)]
      rfl
    rw [called, help_safe_iff long]
    simp only [long, forall_const]
  · have accepted : ispfakeHelp on internal hooked p newPath = .none := by
      unfold ispfakeHelp
      repeat' split
      all_goals first | rfl | skip
      rename_i isOn isLong isInternal isHooked
      exact absurd ⟨by simpa using isOn, by simpa using isInternal, isHooked, by omega⟩ reached
    rw [accepted]
    refine iff_of_true ⟨?_, Nat.zero_le _⟩ fun isOn isInternal isHooked long =>
      absurd ⟨isOn, isInternal, isHooked, long⟩ reached
    intro r read
    cases read

end

/-- `new_path` after the module is loaded. -/
def newPathStart : Block 32 := ⟨ascii ['/', '?', 'i', 'n', 'd', 'e', 'x'] ++ replicate 25 0, by decide⟩

/-- A request that is cut behind its tenth byte. -/
def cutRequest : Payload := ⟨ascii ['G', 'E', 'T', ' ', '/', 'i', 'n', 'd', 'e', 'x'], fun _ => 0⟩

/-- A request for a path of `n` bytes. -/
def requestFor (n : Nat) : Payload :=
  ⟨getText ++ (replicate n 97 ++ ascii [' ', 'H', 'T', 'T', 'P', '/', '1', '.', '1'] ++ [cr, nl]), fun _ => 0⟩

theorem requestFor_length (n : Nat) : (requestFor n).bytes.length = n + 15 := by
  have sizes : getText.length = 4 ∧ (ascii [' ', 'H', 'T', 'T', 'P', '/', '1', '.', '1']).length = 9 := by decide
  simp only [requestFor, length_append, length_replicate, length_cons, length_nil]
  omega

theorem copied_requestFor (n : Nat) (newPath : Block 32) :
    (ispfakeHelp true true true (requestFor n) newPath).copied = n := by
  have size := requestFor_length n
  have called : ispfakeHelp true true true (requestFor n) newPath = help (requestFor n) newPath := by
    simp only [ispfakeHelp, size]
    rfl
  rw [called, help_copied_of_get rfl ?_ (by omega)]
  · simp [ascii, versionLen]
  · simp [ascii, cr]

theorem request_read_past_end : 10 ≤ cutRequest.bytes.length ∧
      cutRequest.bytes.length ∈ (ispfakeHelp true true true cutRequest newPathStart).reads ∧
      (requestFor 2049).bytes.length ≤ 65535 - 40 ∧
      (ispfakeHelp true true true (requestFor 2049) newPathStart).copied = 2049 ∧
      procWritePath (List.replicate 30 97) newPathStart = none := by
  refine ⟨by decide, by decide +kernel, ?_, copied_requestFor 2049 newPathStart, by decide +kernel⟩
  rw [requestFor_length]
  omega

end RouterApps.Ispfake
