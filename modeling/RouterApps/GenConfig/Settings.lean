/-
# GenConfig.Settings -- what calls on a file do to its entries

A file is `Readable` if its tags fit the tag array; a call on another file writes
past the array (`readable_of_read`).  On a readable file a setter for a
`Key` rewrites the first entry of the key or appends one, and drops the comments
(`setValue_entries`); the readers return the first entry (`iconfigGetValueDirect_eq`).
-/
import RouterApps.GenConfig.Direct
import RouterApps.GenConfig.Iconfig

namespace RouterApps.GenConfig

open CLib Theory.Table List Option

def entriesOf (file : File) : List Entry := parse (file.getD [])

theorem entriesOf_none : entriesOf none = [] := rfl

/-- Every tag of the file fits `tag[64]`. -/
def Readable (file : File) : Prop := ∀ e ∈ entriesOf file, e.1.bytes.length < maxItemLen

instance (file : File) : Decidable (Readable file) :=
  inferInstanceAs (Decidable (∀ e ∈ entriesOf file, e.1.bytes.length < maxItemLen))

variable {file : File} {entries : List Entry} {tag value : CString}

theorem readable_of_read {items : List Item} (read : genconfigReadFile file = some items) :
    Readable file ∧ items.map Item.entry = entriesOf file := by
  have short := short_of_additems read
  obtain ⟨items', read', entries⟩ := genconfigReadFile_eq_some short
  cases read.symm.trans read'
  exact ⟨short, entries⟩

def kept (entries : List Entry) : List Entry := entries.filter fun e => decide (¬ IsComment e.1)

theorem mem_kept {e : Entry} : e ∈ kept entries ↔ e ∈ entries ∧ ¬ IsComment e.1 := by
  rw [kept, mem_filter, decide_eq_true_iff]

theorem kept_cons (e : Entry) (rest : List Entry) :
    kept (e :: rest) = if IsComment e.1 then kept rest else e :: kept rest := by
  by_cases comment : IsComment e.1 <;> simp [kept, comment]

theorem kept_of_plain (noComment : ∀ e ∈ entries, ¬ IsComment e.1) : kept entries = entries :=
  filter_eq_self.2 fun e inside => by simpa using noComment e inside

theorem kept_kept (entries : List Entry) : kept (kept entries) = kept entries :=
  kept_of_plain fun _ member => (mem_kept.1 member).2

theorem filter_kept (p : Entry → Bool) (entries : List Entry) : (kept entries).filter p = kept (entries.filter p) := by
  simp only [kept, List.filter_filter, Bool.and_comm]

theorem lookup_kept (noComment : ¬ IsComment tag) (entries : List Entry) :
    lookup (kept entries) tag = lookup entries tag := by
  have same : (kept entries).find? (fun e => decide (e.1 = tag)) = entries.find? (fun e => decide (e.1 = tag)) := by
    rw [kept, find?_filter]
    congr 1
    funext e
    by_cases here : e.1 = tag
    · simp [here, noComment]
    · simp [here]
  rw [lookup, same, lookup]

/-! ## Writing -/

/-- A tag that can be written and read: not empty, no `=` and no line feed in it, no
comment, and it fits. -/
structure Key (tag : CString) : Prop where
  nonempty : tag.bytes ≠ []
  noEquals : equals ∉ tag.bytes
  noLf : lf ∉ tag.bytes
  noComment : ¬ IsComment tag
  fits : tag.bytes.length < maxItemLen

instance (tag : CString) : Decidable (Key tag) :=
  decidable_of_iff (tag.bytes ≠ [] ∧ equals ∉ tag.bytes ∧ lf ∉ tag.bytes ∧ ¬ IsComment tag ∧
      tag.bytes.length < maxItemLen)
    ⟨fun ⟨h₁, h₂, h₃, h₄, h₅⟩ => ⟨h₁, h₂, h₃, h₄, h₅⟩,
      fun key => ⟨key.nonempty, key.noEquals, key.noLf, key.noComment, key.fits⟩⟩

theorem Key.plain (key : Key tag) (noLf : lf ∉ value.bytes)
    (oneLine : (body (tag, value)).length ≤ bufferLen - 1) : Plain (tag, value) :=
  ⟨key.nonempty, key.noEquals, key.noLf, noLf, oneLine⟩

theorem entriesOf_write (plain : ∀ e ∈ entries, Plain e) :
    entriesOf (some (write entries)) = kept entries := parse_write_filter plain

theorem plain_of_readable (readable : Readable file) : ∀ e ∈ entriesOf file, Plain e :=
  fun e inside => plain_of_mem_parse inside (readable e inside)

theorem iconfigSetValueDirect_eq (tag : CString) (value : Option CString) (file : File) :
    iconfigSetValueDirect tag value file =
      (genconfigSetValueDirect file tag value).map fun written => (some written, 0) := by
  unfold iconfigSetValueDirect setDirect genconfigSetValueDirect
  cases genconfigReadFile file with
  | none => rfl
  | some items =>
    cases set : genconfigSetValue items tag value with
    | none | some result => simp [set]

section

variable (readable : Readable file)

include readable

/-- **Setting a value** on a readable file rewrites the first entry of the tag or appends one, and
drops the comments. -/
theorem setValue_entries (fits : tag.bytes.length < maxItemLen) (plain : Plain (tag, cutLine value)) :
    ∃ file', iconfigSetValueDirect tag (some value) file = some (some file', 0) ∧
      entriesOf (some file') = kept (putFirst tag (cutLine value) (entriesOf file)) ∧
      Readable (some file') := by
  have allPlain : ∀ e ∈ putFirst tag (cutLine value) (entriesOf file), Plain e := by
    intro e member
    rcases mem_putFirst member with inside | rfl
    · exact plain_of_readable readable e inside
    · exact plain
  have again := entriesOf_write allPlain
  refine ⟨write (putFirst tag (cutLine value) (entriesOf file)), ?_, again, ?_⟩
  · rw [iconfigSetValueDirect_eq, genconfigSetValueDirect_eq readable fits]
    rfl
  · intro e member
    rw [again] at member
    rcases mem_putFirst (mem_kept.1 member).1 with inside | rfl
    · exact readable e inside
    · exact fits

theorem setValue_lookup (key : Key tag)
    (value : CString) (oneLine : (body (tag, cutLine value)).length ≤ bufferLen - 1) :
    ∃ file', iconfigSetValueDirect tag (some value) file = some (some file', 0) ∧ Readable (some file') ∧
      lookup (entriesOf (some file')) tag = (1, cutLine value) ∧
      ∀ other, other ≠ tag → ¬ IsComment other →
        lookup (entriesOf (some file')) other = lookup (entriesOf file) other := by
  obtain ⟨file', set, entries, readable'⟩ :=
    setValue_entries readable key.fits (key.plain (lf_notMem_cutLine value) oneLine)
  refine ⟨file', set, readable', ?_, ?_⟩
  · rw [entries, lookup_kept key.noComment, lookup_putFirst_self]
  · intro other ne noComment
    rw [entries, lookup_kept noComment, lookup_putFirst_of_ne ne]

/-! ## Removing -/

/-- **Removing by the beginning of the tag.**  The entries with such a tag are gone, and
so are the comments. -/
theorem removeTagPrefix_entries (start : CString) : ∃ file', iconfigRemoveTagPrefix start file = some (some file', 0) ∧
      entriesOf (some file') = kept ((entriesOf file).filter fun e => !startsWith start e.1) ∧
      Readable (some file') := by
  obtain ⟨items, read, entries⟩ := genconfigReadFile_eq_some readable
  have left : (items.filter fun item => !startsWith start item.tag.toCString).map Item.entry =
      (entriesOf file).filter fun e => !startsWith start e.1 := by
    rw [entriesOf, ← entries, List.filter_map]
    rfl
  have plain : ∀ e ∈ (entriesOf file).filter fun e => !startsWith start e.1, Plain e := by
    intro e member
    exact plain_of_readable readable e (mem_filter.1 member).1
  have again := entriesOf_write plain
  refine ⟨write ((entriesOf file).filter fun e => !startsWith start e.1), ?_, again, ?_⟩
  · simp only [iconfigRemoveTagPrefix, read, bind_eq_bind, bind_some, genconfigWriteFile_eq, left]
  · intro e member
    rw [again] at member
    exact readable e (mem_filter.1 (mem_kept.1 member).1).1

/-- **Removing an item.**  The first entry with the tag is gone, and so are the comments. -/
theorem removeItem_entries (present : ∃ e ∈ entriesOf file, e.1 = tag) :
    ∃ file', genconfigRemoveItem tag file = some (some file', 1) ∧
      entriesOf (some file') = kept ((entriesOf file).eraseP fun e => decide (e.1 = tag)) ∧
      Readable (some file') := by
  obtain ⟨items, read, entries⟩ := genconfigReadFile_eq_some readable
  have left : (items.eraseP (hasTag tag)).map Item.entry = (entriesOf file).eraseP fun e => decide (e.1 = tag) := by
    rw [entriesOf, ← entries, eraseP_map]
    rfl
  obtain ⟨item, found⟩ : ∃ item, items.find? (hasTag tag) = some item := by
    rw [← isSome_iff_exists, find?_isSome]
    obtain ⟨e, inside, same⟩ := present
    rw [entriesOf, ← entries] at inside
    obtain ⟨item, itemIn, rfl⟩ := List.mem_map.1 inside
    exact ⟨item, itemIn, decide_eq_true same⟩
  have plain : ∀ e ∈ (entriesOf file).eraseP fun e => decide (e.1 = tag), Plain e := by
    intro e member
    exact plain_of_readable readable e (mem_of_mem_eraseP member)
  have again := entriesOf_write plain
  refine ⟨write ((entriesOf file).eraseP fun e => decide (e.1 = tag)), ?_, again, ?_⟩
  · simp only [genconfigRemoveItem, removeDirect, removeFirst, read, found, bind_eq_bind,
      bind_some, genconfigWriteFile_eq, left]
  · intro e member
    rw [again] at member
    exact readable e (mem_of_mem_eraseP (mem_kept.1 member).1)

end

variable {result : Option (List UInt8) × Int}

theorem readable_of_removeTagPrefix {start : CString} (removed : iconfigRemoveTagPrefix start file = some result) :
    Readable file := by
  obtain ⟨items, read, -⟩ := bind_eq_some_iff.1 removed
  exact (readable_of_read read).1

theorem readable_of_setValue {value : Option CString} (set : iconfigSetValueDirect tag value file = some result) :
    Readable file := by
  obtain ⟨items, read, -⟩ := bind_eq_some_iff.1 set
  exact (readable_of_read read).1

/-! ## Reading -/

/-- The return value of the `iconfig_` readers. -/
def returned (found : Int × CString) : Int × CString :=
  if found.1 = 0 then (-1, found.2) else (0, found.2)

theorem iconfigGetValueDirect_eq (readable : Readable file) (tag : CString) :
    iconfigGetValueDirect file tag = some (returned (lookup (entriesOf file) tag)) := by
  obtain ⟨items, read, entries⟩ := genconfigReadFile_eq_some readable
  simp only [iconfigGetValueDirect, read, bind_eq_bind, bind_some, genconfigGetValue_eq, entries]
  rfl

theorem iconfigGetValueDirect_found (readable : Readable file) (found : lookup (entriesOf file) tag = (1, value)) :
    iconfigGetValueDirect file tag = some (0, value) := by
  rw [iconfigGetValueDirect_eq readable, found]
  rfl

theorem iconfigGetValueDirect_missing (readable : Readable file) (missing : lookup (entriesOf file) tag = (0, value)) :
    iconfigGetValueDirect file tag = some (-1, value) := by
  rw [iconfigGetValueDirect_eq readable, missing]
  rfl

theorem readable_of_getValue {result : Int × CString}
    (got : iconfigGetValueDirect file tag = some result) : Readable file := by
  obtain ⟨items, read, -⟩ := bind_eq_some_iff.1 got
  exact (readable_of_read read).1

/-- The entries with a tag, up to its `+`. -/
def indexed (tag : CString) (entries : List Entry) : List Entry :=
  entries.filter fun e => decide (baseTag e.1 = tag)

theorem getIndexLoop_eq (tag : CString) {idx i : Int} (ahead : i ≤ idx) (items : List Item) :
    getIndexLoop tag idx i items = ((indexed tag (items.map Item.entry))[(idx - i).toNat]?).map Prod.snd := by
  induction items generalizing i with
  | nil => rfl
  | cons item rest ih =>
    by_cases here : baseTag item.tag.toCString = tag
    · have first : indexed tag ((item :: rest).map Item.entry) = item.entry :: indexed tag (rest.map Item.entry) := by
        simp [indexed, Item.entry, here]
      rw [getIndexLoop, if_pos here, first]
      by_cases reached : i = idx
      · subst reached
        simp [Item.entry]
      · have more : ¬ i + 1 > idx := by omega
        have position : (idx - i).toNat = (idx - (i + 1)).toNat + 1 := by omega
        rw [if_neg reached, if_neg more, ih (by omega), position, getElem?_cons_succ]
    · have skipped : indexed tag ((item :: rest).map Item.entry) = indexed tag (rest.map Item.entry) := by
        simp [indexed, Item.entry, here]
      rw [getIndexLoop, if_neg here, skipped, ih ahead]

/-- **Reading by index.**  Index `n` is the `n`-th entry with the tag. -/
theorem iconfigGetIndexValueDirect_eq (readable : Readable file) (fits : tag.bytes.length < maxItemLen) (n : Nat) :
    iconfigGetIndexValueDirect file tag n =
      some (match (indexed (baseTag tag) (entriesOf file))[n]? with
        | some e => (0, e.2)
        | none => (-1, CString.empty)) := by
  obtain ⟨items, read, entries⟩ := genconfigReadFile_eq_some readable
  have loop := getIndexLoop_eq (baseTag tag) (Int.natCast_nonneg n) items
  rw [entries, Int.sub_zero, Int.toNat_natCast] at loop
  simp only [iconfigGetIndexValueDirect, genconfigGetIndexValue, read, strcpy_eq_some fits, loop,
    bind_eq_bind, bind_some, entriesOf]
  rcases (indexed (baseTag tag) (parse (file.getD [])))[n]? with _ | e <;> rfl

end RouterApps.GenConfig
