/-
# GenConfig.Injection -- what a stored value can do to other tags

What a setter changes is decided when the file is read again: the line it wrote may be read as several
entries, because the value has a line feed in it (`genconfig_set_index_value` does not cut it, as
`genconfig_set_value` does), because the line is longer than the read buffer, or because the tag is
empty.  And an entry whose tag starts with `#` is a comment once it is written.
-/
import RouterApps.GenConfig.Entries

namespace RouterApps.GenConfig

open CLib Theory.Table List Option CString

/-! ## The values of a tag -/

def valuesOf (tag : CString) (entries : List Entry) : List CString :=
  (entries.filter fun e => decide (e.1 = tag)).map (·.2)

variable {e : Entry}

section

variable {tag : CString}

@[simp] theorem valuesOf_append (es es' : List Entry) :
    valuesOf tag (es ++ es') = valuesOf tag es ++ valuesOf tag es' := by
  simp [valuesOf]

theorem valuesOf_cons_of_ne (ne : e.1 ≠ tag) (es : List Entry) : valuesOf tag (e :: es) = valuesOf tag es := by
  simp [valuesOf, ne]

theorem valuesOf_ne_nil {es : List Entry} (member : e ∈ es) : valuesOf e.1 es ≠ [] := by
  intro empty
  have filtered := map_eq_nil_iff.1 empty
  have : e ∈ es.filter (fun e' => decide (e'.1 = e.1)) := mem_filter.2 ⟨member, by simp⟩
  rw [filtered] at this
  cases this

theorem exists_of_valuesOf_ne_nil {es : List Entry} (values : valuesOf tag es ≠ []) : ∃ e ∈ es, e.1 = tag := by
  obtain ⟨v, inside⟩ := exists_mem_of_ne_nil _ values
  obtain ⟨e, filtered, -⟩ := List.mem_map.1 inside
  obtain ⟨member, same⟩ := mem_filter.1 filtered
  exact ⟨e, member, by simpa using same⟩

end

/-! ## The call and the re-read file -/

namespace Setter

variable {op : Setter}

/-- Read the file, call the setter, write the file. -/
def direct (op : Setter) (file : Option (List UInt8)) : Option (List UInt8) := do
  let items ← genconfigReadFile file
  let items ← op.apply items
  some (genconfigWriteFile items)

/-- The call is defined, its file can be read again, and every tag but the written one
has the values it had. -/
def Framed (op : Setter) (file : Option (List UInt8)) : Prop :=
  ∃ items file' items', genconfigReadFile file = some items ∧ op.direct file = some file' ∧
    genconfigReadFile (some file') = some items' ∧
    ∀ tag, tag ≠ op.target (items.map Item.entry) →
      valuesOf tag (items'.map Item.entry) = valuesOf tag (items.map Item.entry)

def written (op : Setter) (entries : List Entry) : Entry := (op.plan entries).2.1

/-- The entries that are written to the file. -/
def stored (op : Setter) (entries : List Entry) : List Entry :=
  (op.plan entries).1 ++ (op.plan entries).2.1 :: (op.plan entries).2.2

/-- The entries around the written one are those of the store, but for an old entry
with the written tag. -/
theorem plan_spec (op : Setter) (entries : List Entry) :
    entries = (op.plan entries).1 ++ (op.plan entries).2.2 ∧ op.target entries = op.newTag ∨
      ∃ old, entries = (op.plan entries).1 ++ (op.target entries, old) :: (op.plan entries).2.2 := by
  unfold target plan
  cases picked : op.pick Prod.fst entries with
  | none => exact .inl ⟨(append_nil entries).symm, rfl⟩
  | some split =>
    obtain ⟨before, old, after⟩ := split
    obtain ⟨n, -, found⟩ := bind_eq_some_iff.1 picked
    exact .inr ⟨old.2, (splitNth_eq_some found).1⟩

variable {entries : List Entry} {contents : List UInt8} {file : Option (List UInt8)} {tag : CString}

theorem valuesOf_plan (ne : tag ≠ op.target entries) : valuesOf tag entries =
      valuesOf tag (op.plan entries).1 ++ valuesOf tag (op.plan entries).2.2 := by
  rcases op.plan_spec entries with ⟨whole, -⟩ | ⟨old, whole⟩
  · conv_lhs => rw [whole]
    exact valuesOf_append _ _
  · have skip := valuesOf_cons_of_ne (e := (op.target entries, old)) ne.symm (op.plan entries).2.2
    conv_lhs => rw [whole]
    rw [valuesOf_append, skip]

theorem plan_subset (member : e ∈ (op.plan entries).1 ∨ e ∈ (op.plan entries).2.2) : e ∈ entries := by
  rcases op.plan_spec entries with ⟨whole, -⟩ | ⟨old, whole⟩
  · rw [whole]
    exact mem_append.2 member
  · rw [whole]
    rcases member with before | after
    · exact mem_append_left _ before
    · exact mem_append_right _ (mem_cons_of_mem _ after)

theorem target_length (short : ∀ e ∈ entries, e.1.bytes.length < maxItemLen) (fits : op.tag.bytes.length < maxItemLen) :
    (op.target entries).bytes.length < maxItemLen := by
  rcases op.plan_spec entries with ⟨-, new⟩ | ⟨old, whole⟩
  · rw [new]
    exact op.newTag_length.trans_lt fits
  · have inside : (op.target entries, old) ∈ (op.plan entries).1 ++ (op.target entries, old) :: (op.plan entries).2.2 :=
      mem_append_right _ mem_cons_self
    rw [← whole] at inside
    exact short (op.target entries, old) inside

theorem valuesOf_reread (entries : List Entry)
    (read : ∀ e ∈ entries, e ∈ parse contents ∧ e.1.bytes.length < maxItemLen) (tag : CString) :
    valuesOf tag (parse (write entries)) = if IsComment tag then [] else valuesOf tag entries := by
  rw [parse_write_filter fun e inside => plain_of_mem_parse (read e inside).1 (read e inside).2]
  unfold valuesOf
  rw [List.filter_filter]
  by_cases comment : IsComment tag
  · rw [if_pos comment, filter_eq_nil_iff.2, map_nil]
    rintro e - both
    simp only [Bool.and_eq_true, decide_eq_true_eq] at both
    exact both.2 (both.1 ▸ comment)
  · rw [if_neg comment]
    congr 1
    apply filter_congr
    intro e inside
    by_cases same : e.1 = tag
    · simp [same, comment]
    · simp [same]

theorem parse_stored : parse (write (op.stored entries)) =
      parse (write (op.plan entries).1) ++ parse (line (op.written entries).1 (op.written entries).2) ++
        parse (write (op.plan entries).2.2) := by
  simp only [stored, parse_write, flatMap_append, append_assoc]
  rfl

/-- The written line adds no values to the tag, or, for a tag that is lost as a comment, the ones
that are lost. -/
theorem valuesOf_stored_iff (short : ∀ e ∈ parse contents, e.1.bytes.length < maxItemLen)
    (ne : tag ≠ op.target (parse contents)) :
    valuesOf tag (parse (write (op.stored (parse contents)))) = valuesOf tag (parse contents) ↔
      valuesOf tag (parse (line (op.written (parse contents)).1 (op.written (parse contents)).2)) =
        if IsComment tag then valuesOf tag (parse contents) else [] := by
  have before := valuesOf_reread (op.plan (parse contents)).1
    (fun e inside => ⟨plan_subset (.inl inside), short e (plan_subset (.inl inside))⟩) tag
  have after := valuesOf_reread (op.plan (parse contents)).2.2
    (fun e inside => ⟨plan_subset (.inr inside), short e (plan_subset (.inr inside))⟩) tag
  rw [parse_stored, valuesOf_append, valuesOf_append, before, after]
  by_cases comment : IsComment tag
  · simp [comment]
  · simp only [comment, if_false]
    rw [valuesOf_plan ne]
    constructor
    · intro same
      have := congrArg List.length same
      simp only [length_append] at this
      exact eq_nil_of_length_eq_zero (by omega)
    · intro added
      rw [added, append_nil]

theorem direct_eq {items : List Item} (read : genconfigReadFile file = some items)
    (entries : items.map Item.entry = parse (file.getD [])) (fits : op.tag.bytes.length < maxItemLen) :
    op.direct file = some (write (op.stored (parse (file.getD [])))) := by
  obtain ⟨items', called, entries'⟩ := op.apply_spec fits items
  rw [entries] at entries'
  simp only [direct, read, called, bind_eq_bind, bind_some, genconfigWriteFile_eq, entries']
  rfl

theorem short_stored (short : ∀ e ∈ parse contents, e.1.bytes.length < maxItemLen)
    (fits : op.tag.bytes.length < maxItemLen) (kept : ∀ tag, tag ≠ op.target (parse contents) →
      valuesOf tag (parse (write (op.stored (parse contents)))) = valuesOf tag (parse contents)) :
    ∀ e ∈ parse (write (op.stored (parse contents))), e.1.bytes.length < maxItemLen := by
  intro e member
  by_cases written : e.1 = op.target (parse contents)
  · rw [written]
    exact target_length short fits
  · have values : valuesOf e.1 (parse contents) ≠ [] := by
      rw [← kept e.1 written]
      exact valuesOf_ne_nil member
    obtain ⟨old, inside, same⟩ := exists_of_valuesOf_ne_nil values
    rw [← same]
    exact short old inside

/-- Apart from the values that are lost as comments, the written line gives values of the written
tag only. -/
def Contained (op : Setter) (entries : List Entry) : Prop :=
  ∀ tag, tag ≠ op.target entries →
    valuesOf tag (parse (line (op.written entries).1 (op.written entries).2)) =
      if IsComment tag then valuesOf tag entries else []

theorem framed_of_contained (short : ∀ e ∈ parse (file.getD []), e.1.bytes.length < maxItemLen)
    (fits : op.tag.bytes.length < maxItemLen) (contained : op.Contained (parse (file.getD []))) : op.Framed file := by
  obtain ⟨items, read, entries⟩ := genconfigReadFile_eq_some short
  have kept := fun tag ne => (valuesOf_stored_iff short ne).2 (contained tag ne)
  have short' : ∀ e ∈ parse ((some (write (op.stored (parse (file.getD []))))).getD []),
      e.1.bytes.length < maxItemLen := short_stored short fits kept
  obtain ⟨items', again, entries'⟩ := genconfigReadFile_eq_some short'
  refine ⟨items, _, items', read, direct_eq read entries fits, again, fun tag ne => ?_⟩
  rw [entries] at ne
  rw [entries, entries']
  exact kept tag ne

theorem contained_of_framed (framed : op.Framed file) : (∀ e ∈ parse (file.getD []), e.1.bytes.length < maxItemLen) ∧
      op.tag.bytes.length < maxItemLen ∧ op.Contained (parse (file.getD [])) := by
  obtain ⟨items, file', items', read, stored, again, kept⟩ := framed
  have short := short_of_additems read
  obtain ⟨items₁, read₁, entries⟩ := genconfigReadFile_eq_some short
  cases read.symm.trans read₁
  have fits : op.tag.bytes.length < maxItemLen := by
    by_contra long
    simp [direct, op.apply_eq_none long] at stored
  cases stored.symm.trans (direct_eq read entries fits)
  obtain ⟨items₂, read₂, entries'⟩ := genconfigReadFile_eq_some (short_of_additems again)
  cases again.symm.trans read₂
  refine ⟨short, fits, fun tag ne => (valuesOf_stored_iff short ne).1 ?_⟩
  have same := kept tag (by rwa [entries])
  rwa [entries, entries', getD_some] at same

end Setter

end RouterApps.GenConfig
