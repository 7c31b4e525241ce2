/-
# Network.RtDb -- the static route table in the configuration store (network.c)

`write_rt_db` removes every setting under `rt_db+` and then sets one for each entry, with the
entry's type, target and netmask in the tag; `read_rt_db` asks for the settings by index.

Each of these calls rewrites the file and drops the entries whose tag starts a comment
(`GenConfig.Rewrite`), so the rest of the file is kept exactly when there are none
(`rt_db_round_trip_iff`).
-/
import RouterApps.CLib.Fields
import RouterApps.GenConfig.Settings

namespace RouterApps.Network

open CLib GenConfig List Option

/-! ## Data -/

/-- `rt_entry_t`, without the words nobody uses. -/
structure RtEntry where
  flag : UInt32
  type : CharArray 8
  target : CharArray 20
  netmask : CharArray 20
  gateway : CharArray 20
deriving DecidableEq

def removeScheduleFlag : UInt32 := 2

/-- `rt_entry->flag & REMOVE_SCHEDULE_FLAG`. -/
def RtEntry.removed (entry : RtEntry) : Bool := entry.flag &&& removeScheduleFlag != 0

def comma : UInt8 := 44

def underscore : UInt8 := 95

/-- `rt_db`. -/
def rtDbTag : CString := CString.ofBuffer (ascii ['r', 't', '_', 'd', 'b'])

/-- `rt_db+`. -/
def rtDbPlus : CString := CString.ofBuffer (ascii ['r', 't', '_', 'd', 'b', '+'])

/-- `0`, in the place of no netmask. -/
def noNetmask : CString := CString.ofBuffer (ascii ['0'])

/-! ## Writing -/

/-- `(strlen(netmask)) ? netmask : "0"`. -/
def RtEntry.netmaskText (entry : RtEntry) : CString :=
  if entry.netmask.toCString.bytes.length ≠ 0 then entry.netmask.toCString else noNetmask

/-- `snprintf(tag, 60, "rt_db+%s_%s_%s", ...)`. -/
def RtEntry.tag (entry : RtEntry) : CString :=
  (cutTo 60 (CString.ofBuffer (rtDbPlus.bytes ++ (joinFields underscore
    [entry.type.toCString, entry.target.toCString, entry.netmaskText]).bytes))).toCString

/-- `snprintf(value, 256, "%s,%s,%s,%s", ...)`. -/
def RtEntry.value (entry : RtEntry) : CString :=
  (cutTo 256 (joinFields comma
    [entry.type.toCString, entry.target.toCString, entry.netmaskText, entry.gateway.toCString])).toCString

/-- The body of the loop of `write_rt_db`. -/
def writeRtEntry (file : File) (entry : RtEntry) : Option File :=
  if entry.removed then some file
  else fileAfter (iconfigSetValueDirect entry.tag (some entry.value)) file

/-- The configuration file after `write_rt_db`. -/
def writeRtDb (rtDb : List RtEntry) (file : File) : Option File := do
  let file ← fileAfter (iconfigRemoveTagPrefix rtDbPlus) file
  rtDb.foldlM writeRtEntry file

/-! ## Reading -/

/-- `if (ptr) strcpy(dst, ptr)` after `memset`. -/
def copyToken (cap : Nat) (ptr : Option CString) : Option (CharArray cap) :=
  strcpy cap (ptr.getD CString.empty)

/-- The body of the loop of `read_rt_db`. -/
def parseRtEntry (value : CString) : Option RtEntry := do
  let (ptr, rest) := nextToken [comma] value
  let type ← copyToken 8 ptr
  let (ptr, rest) := nextToken [comma] rest
  let target ← copyToken 20 ptr
  let (ptr, rest) := nextToken [comma] rest
  let netmask ← copyToken 20 (if ptr = some noNetmask then none else ptr)
  let (ptr, _) := nextToken [comma] rest
  let gateway ← copyToken 20 ptr
  some ⟨0, type, target, netmask, gateway⟩

/-- The loop of `read_rt_db`, with the number of entries that are free. -/
def readRtLoop (file : File) : Nat → Nat → List RtEntry → Option (List RtEntry)
  | 0, _, rtDb => some rtDb
  | left + 1, n, rtDb => do
    let (ret, text) ← iconfigGetIndexValueDirect file rtDbTag n
    let value ← strcpy 256 text
    if ret = -1 then some rtDb
    else do
      let entry ← parseRtEntry value.toCString
      readRtLoop file left (n + 1) (rtDb ++ [entry])

/-- The entries that `read_rt_db` finds; `maxRtEntry` is the size of the table. -/
def readRtDb (maxRtEntry : Nat) (file : File) : Option (List RtEntry) := readRtLoop file maxRtEntry 0 []

/-! ## Entries that can be stored -/

/-- What tells the entries apart. -/
def RtEntry.key (entry : RtEntry) : CString × CString × CString :=
  (entry.type.toCString, entry.target.toCString, entry.netmask.toCString)

/-- The four fields that are stored. -/
def RtEntry.fields (entry : RtEntry) : CString × CString × CString × CString :=
  (entry.type.toCString, entry.target.toCString, entry.netmask.toCString, entry.gateway.toCString)

/-- Bytes with a meaning in a tag, in a value or in the file. -/
def special : List UInt8 := [comma, underscore, equals, carriageReturn, lf]

structure RtEntry.Clean (entry : RtEntry) : Prop where
  type : entry.type.toCString ≠ CString.empty
  target : entry.target.toCString ≠ CString.empty
  gateway : entry.gateway.toCString ≠ CString.empty
  netmask : entry.netmask.toCString ≠ noNetmask
  bytes : ∀ f ∈ [entry.type.toCString, entry.target.toCString, entry.netmask.toCString,
    entry.gateway.toCString], ∀ b ∈ f.bytes, b ∉ special

section

variable {entry : RtEntry}

theorem netmaskText_ne_empty (entry : RtEntry) : entry.netmaskText ≠ CString.empty := by
  unfold RtEntry.netmaskText
  split
  · rename_i given
    intro empty
    rw [empty] at given
    exact given rfl
  · decide

theorem netmaskText_length (entry : RtEntry) : entry.netmaskText.bytes.length < 20 := by
  unfold RtEntry.netmaskText
  split
  · exact entry.netmask.fits
  · decide

theorem RtEntry.Clean.netmaskText (clean : entry.Clean) : ∀ b ∈ entry.netmaskText.bytes, b ∉ special := by
  unfold RtEntry.netmaskText
  split
  · exact clean.bytes _ (by simp)
  · decide

/-- The three fields of the tag and the one more of the value have no special bytes. -/
theorem RtEntry.Clean.texts (clean : entry.Clean) :
    ∀ f ∈ [entry.type.toCString, entry.target.toCString, entry.netmaskText, entry.gateway.toCString],
      f ≠ CString.empty ∧ ∀ b ∈ f.bytes, b ∉ special := by
  intro f member
  simp only [mem_cons, not_mem_nil, or_false] at member
  rcases member with rfl | rfl | rfl | rfl
  · exact ⟨clean.type, clean.bytes _ (by simp)⟩
  · exact ⟨clean.target, clean.bytes _ (by simp)⟩
  · exact ⟨netmaskText_ne_empty entry, clean.netmaskText⟩
  · exact ⟨clean.gateway, clean.bytes _ (by simp)⟩

variable {other : RtEntry}

/-- `0` stands for no netmask, and for nothing else. -/
theorem netmaskText_injective (clean : entry.Clean) (clean' : other.Clean)
    (same : entry.netmaskText = other.netmaskText) : entry.netmask.toCString = other.netmask.toCString := by
  unfold RtEntry.netmaskText at same
  split at same <;> split at same
  · exact same
  · exact absurd same clean.netmask
  · exact absurd same.symm clean'.netmask
  · rename_i none none'
    have empty : ∀ s : CString, ¬ s.bytes.length ≠ 0 → s = CString.empty := by
      intro s short
      ext1
      exact length_eq_zero_iff.1 (not_not.1 short)
    rw [empty _ none, empty _ none']

/-! ### The tag and the value -/

theorem value_eq (entry : RtEntry) : entry.value = joinFields comma
      [entry.type.toCString, entry.target.toCString, entry.netmaskText, entry.gateway.toCString] := by
  apply cutTo_of_fits
  have long := joinFields_length (show comma ≠ 0 by decide)
    [entry.type.toCString, entry.target.toCString, entry.netmaskText, entry.gateway.toCString]
  have type := entry.type.fits
  have target := entry.target.fits
  have netmask := netmaskText_length entry
  have gateway := entry.gateway.fits
  simp only [map_cons, map_nil, sum_cons, sum_nil] at long
  omega

theorem tag_bytes (entry : RtEntry) : entry.tag.bytes = rtDbPlus.bytes ++ (joinFields underscore
      [entry.type.toCString, entry.target.toCString, entry.netmaskText]).bytes ∧
      entry.tag.bytes.length < 60 := by
  refine ⟨?_, (cutTo 60 _).fits⟩
  have whole : (CString.ofBuffer (rtDbPlus.bytes ++ (joinFields underscore
      [entry.type.toCString, entry.target.toCString, entry.netmaskText]).bytes)).bytes =
      rtDbPlus.bytes ++ (joinFields underscore
        [entry.type.toCString, entry.target.toCString, entry.netmaskText]).bytes := by
    apply CString.ofBuffer_of_nulFree
    rw [mem_append, not_or]
    exact ⟨rtDbPlus.nulFree, CString.nulFree _⟩
  rw [RtEntry.tag, cutTo_of_fits, whole]
  rw [whole]
  have long := joinFields_length (show underscore ≠ 0 by decide)
    [entry.type.toCString, entry.target.toCString, entry.netmaskText]
  have type := entry.type.fits
  have target := entry.target.fits
  have netmask := netmaskText_length entry
  simp only [map_cons, map_nil, sum_cons, sum_nil] at long
  have six : rtDbPlus.bytes.length = 6 := rfl
  rw [length_append]
  omega

/-- The tokens of fields that are neither empty nor broken by a separator are the fields. -/
theorem tokens_of_clean {sep : UInt8} (printable : sep ≠ 0) (isSpecial : sep ∈ special)
    {fields : List CString} (clean : ∀ f ∈ fields, f ≠ CString.empty ∧ ∀ b ∈ f.bytes, b ∉ special) :
    Tokens [sep] (joinFields sep fields) fields := by
  have unbroken : ∀ f ∈ fields, ∀ b ∈ f.bytes, b ∉ [sep] := by
    intro f inside b member delim
    exact (clean f inside).2 b member (mem_singleton.1 delim ▸ isSpecial)
  have tokens := tokens_joinFields printable (mem_singleton_self sep) unbroken
  rwa [filter_eq_self.2 fun f inside => by simpa using (clean f inside).1] at tokens

theorem tag_injective (clean : entry.Clean) (clean' : other.Clean)
    (same : entry.tag = other.tag) : entry.key = other.key := by
  have front : ∀ e : RtEntry, e.Clean → Tokens [underscore] (joinFields underscore
      [e.type.toCString, e.target.toCString, e.netmaskText])
      [e.type.toCString, e.target.toCString, e.netmaskText] := by
    intro e cleanE
    refine tokens_of_clean (by decide) (by decide) fun f inside => cleanE.texts f ?_
    simp only [mem_cons] at inside ⊢
    tauto
  have bytes := congrArg CString.bytes same
  rw [(tag_bytes entry).1, (tag_bytes other).1] at bytes
  have joined := CString.ext (append_cancel_left bytes)
  have tokens := (front entry clean).unique (joined ▸ front other clean')
  simp only [cons.injEq, and_true] at tokens
  obtain ⟨type, target, netmask⟩ := tokens
  rw [RtEntry.key, type, target, netmaskText_injective clean clean' netmask]
  rfl

theorem startsWith_tag (entry : RtEntry) : startsWith rtDbPlus entry.tag = true := by
  exact isPrefixOf_iff_prefix.2 (prefix_append _ _)

theorem baseTag_tag (entry : RtEntry) : baseTag entry.tag = rtDbTag := by
  ext1
  show entry.tag.bytes.takeWhile (· != plus) = rtDbTag.bytes
  rfl

theorem head_rtDbPlus (rest : List UInt8) : (rtDbPlus.bytes ++ rest).head? = some 114 := rfl

theorem key_tag (clean : entry.Clean) : Key entry.tag := by
  obtain ⟨bytes, short⟩ := tag_bytes entry
  have absent : ∀ b ∈ special, b ≠ underscore → b ∉ rtDbPlus.bytes → b ∉ entry.tag.bytes := by
    intro b isSpecial ne notPlus
    rw [bytes, mem_append, not_or]
    refine ⟨notPlus, notMem_joinFields (by decide) ne ?_⟩
    intro f inside member
    refine (clean.texts f ?_).2 b member isSpecial
    simp only [mem_cons] at inside ⊢
    tauto
  refine ⟨?_, ?_, ?_, ?_, ?_⟩
  · intro empty
    have first := head_rtDbPlus _ ▸ congrArg head? (bytes ▸ empty)
    cases first
  · exact absent equals (by decide) (by decide) (by decide)
  · exact absent lf (by decide) (by decide) (by decide)
  · rw [IsComment, bytes, head_rtDbPlus]
    decide
  · exact short.trans (by decide)

theorem cutLine_value (clean : entry.Clean) : cutLine entry.value = entry.value := by
  have absent : ∀ b ∈ special, b ≠ comma → b ∉ entry.value.bytes := by
    intro b isSpecial ne
    rw [value_eq]
    exact notMem_joinFields (by decide) ne fun f inside member => (clean.texts f inside).2 b member isSpecial
  exact cutLine_of_clean (absent carriageReturn (by decide) (by decide)) (absent lf (by decide) (by decide))

theorem value_length (entry : RtEntry) : entry.value.bytes.length < 256 := (cutTo 256 _).fits

theorem body_length_lt (entry : RtEntry) : (body (entry.tag, entry.value)).length ≤ bufferLen - 1 := by
  have tag := (tag_bytes entry).2
  have value := value_length entry
  rw [body_length]
  simp only [bufferLen]
  omega

/-- **An entry is read as it was written**, with no flags. -/
theorem parseRtEntry_value (clean : entry.Clean) : parseRtEntry entry.value = some { entry with flag := 0 } := by
  have tokens := tokens_of_clean (show comma ≠ 0 by decide) (by decide) clean.texts
  rw [← value_eq] at tokens
  obtain ⟨type, tokens⟩ := tokens.nextToken_eq
  obtain ⟨target, tokens⟩ := tokens.nextToken_eq
  obtain ⟨netmask, tokens⟩ := tokens.nextToken_eq
  obtain ⟨gateway, -⟩ := tokens.nextToken_eq
  have mask : (if some entry.netmaskText = some noNetmask then none else some entry.netmaskText).getD
      CString.empty = entry.netmask.toCString := by
    unfold RtEntry.netmaskText
    split
    · rw [if_neg (by simpa using clean.netmask)]
      rfl
    · rename_i none
      ext1
      exact (length_eq_zero_iff.1 (not_not.1 none)).symm
  simp only [head?_cons, tail_cons] at type target netmask gateway
  simp only [parseRtEntry, type, target, netmask, gateway, copyToken, mask, getD_some,
    strcpy_eq_some entry.type.fits, strcpy_eq_some entry.target.fits, strcpy_eq_some entry.netmask.fits,
    strcpy_eq_some entry.gateway.fits, bind_eq_bind, bind_some]

end

/-! ## The table -/

/-- The entry of the file that an entry of the table becomes. -/
def RtEntry.row (entry : RtEntry) : Entry := (entry.tag, entry.value)

def stored (rtDb : List RtEntry) : List RtEntry := rtDb.filter fun entry => !entry.removed

theorem writeRtEntry_entries {file : File} (readable : Readable file)
    (noComment : ∀ e ∈ entriesOf file, ¬ IsComment e.1) {entry : RtEntry} (clean : entry.Clean)
    (isStored : entry.removed = false) (fresh : ∀ e ∈ entriesOf file, e.1 ≠ entry.tag) :
    ∃ file', writeRtEntry file entry = some file' ∧ Readable file' ∧
      entriesOf file' = entriesOf file ++ [entry.row] := by
  have oneLine := body_length_lt entry
  rw [← cutLine_value clean] at oneLine
  have key := key_tag clean
  obtain ⟨file', set, entries, readable'⟩ :=
    setValue_entries readable key.fits (key.plain (lf_notMem_cutLine entry.value) oneLine)
  have absent : (entriesOf file).find? (fun e => decide (e.1 = entry.tag)) = none := by
    rw [find?_eq_none]
    intro e inside
    simpa using fresh e inside
  refine ⟨some file', ?_, readable', ?_⟩
  · rw [writeRtEntry, isStored, if_neg Bool.false_ne_true, fileAfter_written set]
  · rw [entries, cutLine_value clean, putFirst, if_pos absent]
    refine kept_of_plain fun e member => ?_
    rcases mem_append.1 member with inside | new
    · exact noComment e inside
    · rw [mem_singleton.1 new]
      exact (key_tag clean).noComment

variable {rtDb : List RtEntry}

theorem writeRtEntries_entries {file : File} (readable : Readable file)
    (noComment : ∀ e ∈ entriesOf file, ¬ IsComment e.1) (clean : ∀ entry ∈ rtDb, entry.Clean)
    (distinct : (rtDb.map RtEntry.key).Nodup) (fresh : ∀ entry ∈ rtDb, ∀ e ∈ entriesOf file, e.1 ≠ entry.tag) :
    ∃ file', rtDb.foldlM writeRtEntry file = some file' ∧ Readable file' ∧
      entriesOf file' = entriesOf file ++ (stored rtDb).map RtEntry.row := by
  induction rtDb generalizing file with
  | nil => exact ⟨file, rfl, readable, by simp [stored]⟩
  | cons entry rest ih =>
    obtain ⟨different, distinct⟩ := nodup_cons.1 distinct
    have cleanHead := clean entry mem_cons_self
    have cleanRest := fun e inside => clean e (mem_cons_of_mem _ inside)
    have freshRest := fun e inside => fresh e (mem_cons_of_mem _ inside)
    cases isRemoved : entry.removed with
    | true =>
      have skipped : writeRtEntry file entry = some file := by rw [writeRtEntry, if_pos isRemoved]
      have rows : stored (entry :: rest) = stored rest := by simp [stored, isRemoved]
      obtain ⟨file', written, readable', entries⟩ := ih readable noComment cleanRest distinct freshRest
      refine ⟨file', ?_, readable', rows ▸ entries⟩
      rw [foldlM_cons, skipped]
      exact written
    | false =>
      have rows : stored (entry :: rest) = entry :: stored rest := by simp [stored, isRemoved]
      obtain ⟨next, first, readable', entries⟩ := writeRtEntry_entries readable noComment cleanHead
        isRemoved (fresh entry mem_cons_self)
      have noComment' : ∀ e ∈ entriesOf next, ¬ IsComment e.1 := by
        intro e member
        rw [entries] at member
        rcases mem_append.1 member with inside | new
        · exact noComment e inside
        · rw [mem_singleton.1 new]
          exact (key_tag cleanHead).noComment
      -- A later entry with the tag just written would have the same key.
      have fresh' : ∀ other ∈ rest, ∀ e ∈ entriesOf next, e.1 ≠ other.tag := by
        intro other inside e member same
        rw [entries] at member
        rcases mem_append.1 member with old | new
        · exact freshRest other inside e old same
        · rw [mem_singleton.1 new] at same
          refine different (mem_map.2 ⟨other, inside, ?_⟩)
          exact (tag_injective cleanHead (cleanRest other inside) same).symm
      obtain ⟨file', written, readable'', entries'⟩ := ih readable' noComment' cleanRest distinct fresh'
      refine ⟨file', ?_, readable'', ?_⟩
      · rw [foldlM_cons, first]
        exact written
      · rw [entries', entries, rows]
        simp

/-- The entries of a file outside the route table. -/
def others (file : File) : List Entry := (entriesOf file).filter fun e => !startsWith rtDbPlus e.1

/-- **What `write_rt_db` leaves**: the other entries, without comments, and then the table. -/
theorem writeRtDb_entries {file : File} (readable : Readable file)
    (clean : ∀ entry ∈ rtDb, entry.Clean) (distinct : (rtDb.map RtEntry.key).Nodup) :
    ∃ file', writeRtDb rtDb file = some file' ∧ Readable file' ∧
      entriesOf file' = kept (others file) ++ (stored rtDb).map RtEntry.row := by
  obtain ⟨next, removed, entries, readable'⟩ := removeTagPrefix_entries readable rtDbPlus
  have noComment : ∀ e ∈ entriesOf (some next), ¬ IsComment e.1 := by
    intro e member
    rw [entries] at member
    exact (mem_kept.1 member).2
  have fresh : ∀ entry ∈ rtDb, ∀ e ∈ entriesOf (some next), e.1 ≠ entry.tag := by
    intro entry _ e member same
    rw [entries] at member
    have outside := (mem_filter.1 (mem_kept.1 member).1).2
    rw [same] at outside
    cases outside
  obtain ⟨file', written, readable'', entries'⟩ := writeRtEntries_entries readable' noComment clean distinct fresh
  refine ⟨file', ?_, readable'', by rw [entries', entries, others]⟩
  rw [writeRtDb, fileAfter_written removed]
  exact written

theorem startsWith_of_baseTag {tag : CString} (base : baseTag tag = rtDbTag) (other : tag ≠ rtDbTag) :
    startsWith rtDbPlus tag = true := by
  have front : tag.bytes.takeWhile (· != plus) = rtDbTag.bytes := congrArg CString.bytes base
  have whole := takeWhile_append_dropWhile (p := (· != plus)) (l := tag.bytes)
  rw [front] at whole
  cases back : tag.bytes.dropWhile (· != plus) with
  | nil =>
    rw [back] at whole
    exact absurd (CString.ext whole.symm) other
  | cons b bs =>
    have first : b = plus := by
      have := head_dropWhile_not (· != plus) (l := tag.bytes) (by rw [back]; simp)
      simpa [back] using this
    rw [back, first] at whole
    rw [startsWith, ← whole]
    exact isPrefixOf_iff_prefix.2 ⟨bs, rfl⟩

theorem indexed_table {file : File} (untagged : ∀ e ∈ entriesOf file, e.1 ≠ rtDbTag) (rtDb : List RtEntry) :
    indexed (baseTag rtDbTag) (kept (others file) ++ (stored rtDb).map RtEntry.row) =
      (stored rtDb).map RtEntry.row := by
  have base : baseTag rtDbTag = rtDbTag := by decide
  have outside : indexed rtDbTag (kept (others file)) = [] := by
    rw [indexed, filter_eq_nil_iff]
    intro e member
    obtain ⟨inside, notTable⟩ := mem_filter.1 (mem_kept.1 member).1
    intro based
    rw [startsWith_of_baseTag (by simpa using based) (untagged e inside)] at notTable
    cases notTable
  have table : indexed rtDbTag ((stored rtDb).map RtEntry.row) = (stored rtDb).map RtEntry.row := by
    rw [indexed, filter_eq_self]
    intro e member
    obtain ⟨entry, -, rfl⟩ := mem_map.1 member
    exact decide_eq_true (baseTag_tag entry)
  rw [indexed, filter_append]
  show indexed rtDbTag _ ++ indexed rtDbTag _ = _
  rw [outside, table, nil_append]

theorem readRtLoop_eq {file : File} (readable : Readable file) {table : List RtEntry}
    (clean : ∀ entry ∈ table, entry.Clean)
    (rows : indexed (baseTag rtDbTag) (entriesOf file) = table.map RtEntry.row) {left n : Nat}
    (room : table.length ≤ n + left) (rtDb : List RtEntry) :
    readRtLoop file left n rtDb = some (rtDb ++ (table.drop n).map fun e => { e with flag := 0 }) := by
  induction left generalizing n rtDb with
  | zero =>
    have past : table.length ≤ n := room
    rw [readRtLoop, drop_of_length_le past]
    simp
  | succ left ih =>
    have got := iconfigGetIndexValueDirect_eq readable (show rtDbTag.bytes.length < maxItemLen by decide) n
    rw [rows, getElem?_map] at got
    cases here : table[n]? with
    | none =>
      rw [here, map_none] at got
      have past : table.length ≤ n := getElem?_eq_none_iff.1 here
      simp only [readRtLoop, got, bind_eq_bind, bind_some]
      rw [strcpy_eq_some (show CString.empty.bytes.length < 256 by decide), drop_of_length_le past]
      simp
    | some entry =>
      rw [here] at got
      obtain ⟨inside, at_n⟩ := List.getElem?_eq_some_iff.1 here
      have cleanEntry := clean entry (at_n ▸ getElem_mem inside)
      simp only [map_some, RtEntry.row] at got
      simp only [readRtLoop, got, bind_eq_bind, bind_some,
        strcpy_eq_some (value_length entry), parseRtEntry_value cleanEntry]
      rw [ih (by omega), drop_eq_getElem_cons inside, at_n]
      simp

/-- **The table is read back**, from any readable file. -/
theorem readRtDb_writeRtDb {maxRtEntry : Nat} {file file' : File}
    (size : rtDb.length ≤ maxRtEntry) (untagged : ∀ e ∈ entriesOf file, e.1 ≠ rtDbTag)
    (clean : ∀ entry ∈ rtDb, entry.Clean) (readable' : Readable file')
    (entries : entriesOf file' = kept (others file) ++ (stored rtDb).map RtEntry.row) :
    readRtDb maxRtEntry file' = some ((stored rtDb).map fun e => { e with flag := 0 }) := by
  have rows := indexed_table untagged rtDb
  rw [← entries] at rows
  have cleanStored : ∀ entry ∈ stored rtDb, entry.Clean := by
    intro entry member
    exact clean entry (mem_filter.1 member).1
  have room : (stored rtDb).length ≤ 0 + maxRtEntry := by
    have := length_filter_le (fun entry : RtEntry => !entry.removed) rtDb
    rw [stored]
    omega
  rw [readRtDb, readRtLoop_eq readable' cleanStored rows room]
  simp

theorem others_writeRtDb {file file' : File}
    (entries : entriesOf file' = kept (others file) ++ (stored rtDb).map RtEntry.row) :
    others file' = kept (others file) := by
  have outside : (kept (others file)).filter (fun e => !startsWith rtDbPlus e.1) = kept (others file) := by
    rw [filter_eq_self]
    intro e member
    exact (mem_filter.1 (mem_kept.1 member).1).2
  have table : ((stored rtDb).map RtEntry.row).filter (fun e => !startsWith rtDbPlus e.1) = [] := by
    rw [filter_eq_nil_iff]
    intro e member
    obtain ⟨entry, -, rfl⟩ := mem_map.1 member
    simp [RtEntry.row, startsWith_tag]
  rw [others, entries, filter_append, outside, table, append_nil]

theorem kept_others_iff (file : File) : kept (others file) = others file ↔ ∀ e ∈ entriesOf file, ¬ IsComment e.1 := by
  constructor
  · intro same e inside comment
    have outside : startsWith rtDbPlus e.1 = false := by
      by_contra starts
      obtain ⟨rest, whole⟩ := isPrefixOf_iff_prefix.1 (Bool.not_eq_false _ ▸ starts)
      rw [IsComment, ← whole, head_rtDbPlus] at comment
      exact absurd comment (by decide)
    have member : e ∈ others file := mem_filter.2 ⟨inside, by rw [outside]; rfl⟩
    rw [← same] at member
    exact (mem_kept.1 member).2 comment
  · intro noComment
    exact kept_of_plain fun e member => noComment e (mem_filter.1 member).1

/-- **The route table round-trips** exactly when the tags of the file fit and none of them starts a
comment. -/
theorem rt_db_round_trip_iff (maxRtEntry : Nat) (file : File) (rtDb : List RtEntry)
    (size : rtDb.length ≤ maxRtEntry) (untagged : ∀ e ∈ entriesOf file, e.1 ≠ rtDbTag)
    (clean : ∀ entry ∈ rtDb, entry.Clean) (distinct : (rtDb.map RtEntry.key).Nodup) :
    (∃ file' read, writeRtDb rtDb file = some file' ∧ readRtDb maxRtEntry file' = some read ∧
        read.map RtEntry.fields = (stored rtDb).map RtEntry.fields ∧ others file' = others file) ↔
      Readable file ∧ ∀ e ∈ entriesOf file, ¬ IsComment e.1 := by
  constructor
  · rintro ⟨file', read, written, -, -, same⟩
    have readable : Readable file := by
      obtain ⟨next, removed, -⟩ := bind_eq_some_iff.1 written
      obtain ⟨result, removed, -⟩ := map_eq_some_iff.1 removed
      exact readable_of_removeTagPrefix removed
    obtain ⟨file'', written', -, entries⟩ := writeRtDb_entries readable clean distinct
    cases written.symm.trans written'
    exact ⟨readable, (kept_others_iff file).1 ((others_writeRtDb entries).symm.trans same)⟩
  · rintro ⟨readable, noComment⟩
    obtain ⟨file', written, readable', entries⟩ := writeRtDb_entries readable clean distinct
    refine ⟨file', _, written, readRtDb_writeRtDb size untagged clean readable' entries, ?_, ?_⟩
    · rw [List.map_map]
      rfl
    · rw [others_writeRtDb entries]
      exact (kept_others_iff file).2 noComment

namespace Sample

def field (cap : Nat) [NeZero cap] (chars : List Char) : CharArray cap :=
  cutTo cap (CString.ofBuffer (ascii chars))

def route (netmask : List Char) (flag : UInt32) : RtEntry where
  flag := flag
  type := field 8 ['n', 'e', 't']
  target := field 20 ['1', '0', '.', '0', '.', '0', '.', '0']
  netmask := field 20 netmask
  gateway := field 20 ['1', '.', '1', '.', '1', '.', '1']

/-- Two netmasks, none at all, and a route that is to be removed. -/
def routes : List RtEntry := [route ['8'] 0, route [] 4, route ['1', '6'] 0, route ['9'] 2]

def file : File := some (ascii ['a', '=', '1', '\n'])

/-- A line with `=` in front of its tag. -/
def hashFile : File := some (ascii ['=', '#', 'a', '=', '1', '\n'])

theorem routes_clean : ∀ entry ∈ routes, entry.Clean := by
  intro entry member
  simp only [routes, mem_cons, not_mem_nil, or_false] at member
  rcases member with rfl | rfl | rfl | rfl <;> exact ⟨by decide, by decide, by decide, by decide, by decide⟩

end Sample

theorem rt_db_round_trip_sample :
    ∃ file' read, writeRtDb Sample.routes Sample.file = some file' ∧ readRtDb 100 file' = some read ∧
      read.map RtEntry.fields = (stored Sample.routes).map RtEntry.fields ∧
      others file' = others Sample.file := by
  have untagged : ∀ e ∈ entriesOf Sample.file, e.1 ≠ rtDbTag := by decide
  have readable : Readable Sample.file ∧ ∀ e ∈ entriesOf Sample.file, ¬ IsComment e.1 := by decide
  exact (rt_db_round_trip_iff 100 Sample.file Sample.routes (by decide) untagged Sample.routes_clean
    (by decide)).2 readable

/-- The file has an entry `#a`; writing an empty table loses it. -/
theorem rt_db_write_loses_item :
    (∀ e ∈ entriesOf Sample.hashFile, e.1 ≠ rtDbTag) ∧ (others Sample.hashFile).length = 1 ∧
      (writeRtDb [] Sample.hashFile).map others = some [] := by
  decide

end RouterApps.Network
