/-
# GenConfig.Bulk -- removing all items of a base (genconfig_api.c)

`genconfig_remove_index_allitem` removes the items of a base at once, `genconfig_remove_index_item` with
index 0, called until it returns 0, one by one.

* The first compares the tags with its argument as it is, the second cuts the argument at the `+`.
* The first writes the file in any case, the second only if it removes something; and items whose tag
  looks like a comment do not survive the writing.
* So the items of a base that starts with `#` are gone after one call of the second.

`bulk_removal_iff` says exactly when they have the same effect and count.
-/
import RouterApps.GenConfig.Indexed

namespace RouterApps.GenConfig

open CLib Theory.Table List Option

/-! ## The loop -/

/-- One turn of the loop of `genconfig_remove_index_allitem`. -/
def removeMatch (tag : CString) (items : List Item) : Option (List Item) :=
  match items.find? (ofBase tag) with
  | none => none
  | some _ => some (items.eraseP (ofBase tag))

def removeAllLoop (tag : CString) : Nat → Nat → List Item → Nat × List Item
  | 0, rmcount, items => (rmcount, items)
  | fuel + 1, rmcount, items =>
    match removeMatch tag items with
    | some items => removeAllLoop tag fuel (rmcount + 1) items
    | none => (rmcount, items)

/-- Remove the items of a base; `tag` is compared as it is. -/
def genconfigRemoveIndexAllitem (tag : CString) : Section := fun file => do
  let items ← genconfigReadFile file
  let (rmcount, items) := removeAllLoop tag items.length 0 items
  some (some (genconfigWriteFile items), rmcount)

variable (tag : CString)

theorem removeAllLoop_eq {fuel : Nat} (rmcount : Nat) {items : List Item}
    (enough : (items.filter (ofBase tag)).length ≤ fuel) : removeAllLoop tag fuel rmcount items =
      (rmcount + (items.filter (ofBase tag)).length, items.filter fun item => !ofBase tag item) := by
  have unmatched : ∀ items : List Item, (∀ item ∈ items, ofBase tag item = false) →
      items.filter (ofBase tag) = [] ∧ (items.filter fun item => !ofBase tag item) = items := by
    intro items none
    constructor
    · exact filter_eq_nil_iff.2 fun item inside => by simp [none item inside]
    · exact filter_eq_self.2 fun item inside => by simp [none item inside]
  induction fuel generalizing rmcount items with
  | zero =>
    have none := length_eq_zero_iff.1 (Nat.le_zero.1 enough)
    have all := unmatched items fun item inside => by simpa using filter_eq_nil_iff.1 none item inside
    rw [all.1, all.2]
    rfl
  | succ fuel ih =>
    simp only [removeAllLoop, removeMatch]
    cases found : items.find? (ofBase tag) with
    | none =>
      have all := unmatched items fun item inside => by simpa using find?_eq_none.1 found item inside
      rw [all.1, all.2]
      rfl
    | some item =>
      obtain ⟨first, before, after, -, match', whole, erased⟩ :=
        exists_of_eraseP (mem_of_find?_eq_some found) (find?_some found)
      have count : (items.filter (ofBase tag)).length = ((before ++ after).filter (ofBase tag)).length + 1 := by
        rw [whole, filter_append, filter_append, filter_cons_of_pos match', length_append, length_append, length_cons]
        omega
      have rest : (items.filter fun item => !ofBase tag item) = (before ++ after).filter fun item => !ofBase tag item := by
        rw [whole, filter_append, filter_append, filter_cons_of_neg (by simp [match'])]
      simp only [erased]
      rw [ih (rmcount + 1) (by omega), rest]
      simp only [Prod.mk.injEq, and_true]
      omega

def others (base : CString) (entries : List Entry) : List Entry := entries.filter fun e => !entryOf base e

variable {file : File} {itag : CString}

/-- **Bulk removal.**  The entries that match are gone, and so are the comments. -/
theorem removeIndexAllitem_entries (readable : Readable file) (tag : CString) :
    ∃ written, genconfigRemoveIndexAllitem tag file =
        some (some written, (((entriesOf file).filter (entryOf tag)).length : Int)) ∧
      entriesOf (some written) = kept (others tag (entriesOf file)) := by
  obtain ⟨items, read, entries⟩ := genconfigReadFile_eq_some readable
  have loop := removeAllLoop_eq tag 0 (length_filter_le (ofBase tag) items)
  have left : (items.filter fun item => !ofBase tag item).map Item.entry = others tag (entriesOf file) := by
    rw [others, entriesOf, ← entries, List.filter_map]
    rfl
  have count : (items.filter (ofBase tag)).length = ((entriesOf file).filter (entryOf tag)).length := by
    rw [entriesOf, ← entries, List.filter_map, length_map]
    rfl
  have plain : ∀ e ∈ others tag (entriesOf file), Plain e :=
    fun e inside => plain_of_readable readable e (mem_filter.1 inside).1
  refine ⟨write (others tag (entriesOf file)), ?_, entriesOf_write plain⟩
  simp only [genconfigRemoveIndexAllitem, read, loop, bind_eq_bind, bind_some, genconfigWriteFile_eq, left,
    count, Nat.zero_add]

/-! ## One by one -/

/-- `genconfig_remove_index_item(f, 0, itag)` returns 1 for `n` times before it returns 0. -/
inductive Repeats (itag : CString) : File → Nat → File → Prop where
  | done {file : File} {written : Option (List UInt8)} (ended : genconfigRemoveIndexItem 0 itag file = some (written, 0)) :
      Repeats itag file 0 file
  | more {file file' : File} {written : List UInt8} {n : Nat}
      (removed : genconfigRemoveIndexItem 0 itag file = some (some written, 1))
      (rest : Repeats itag (some written) n file') : Repeats itag file (n + 1) file'

theorem Repeats.unique {f₁ f₂ : File} {n₁ n₂ : Nat} (first : Repeats itag file n₁ f₁)
    (second : Repeats itag file n₂ f₂) : n₁ = n₂ ∧ f₁ = f₂ := by
  induction first generalizing n₂ with
  | done ended =>
    cases second with
    | done => exact ⟨rfl, rfl⟩
    | more removed => cases ended.symm.trans removed
  | more removed rest ih =>
    cases second with
    | done ended => cases ended.symm.trans removed
    | more removed' rest' =>
      cases removed.symm.trans removed'
      obtain ⟨rfl, rfl⟩ := ih rest'
      exact ⟨rfl, rfl⟩

theorem isComment_baseTag : IsComment (baseTag tag) ↔ IsComment tag := by
  show (tag.bytes.takeWhile (· != plus)).head? = some hash ↔ tag.bytes.head? = some hash
  cases tag.bytes with
  | nil => rfl
  | cons b rest =>
    by_cases isPlus : b = plus
    · subst isPlus
      constructor
      · intro none
        cases none
      · intro same
        cases same
    · rw [takeWhile_cons_of_pos (by simpa using isPlus)]
      rfl

variable {rest : List Entry} {entries : List Entry}

section

variable {base : CString}

theorem indexed_kept (base : CString) (entries : List Entry) :
    indexed base (kept entries) = if IsComment base then [] else indexed base entries := by
  have commute : indexed base (kept entries) = kept (indexed base entries) := filter_kept _ entries
  have same : ∀ e ∈ indexed base entries, (IsComment e.1 ↔ IsComment base) := by
    intro e inside
    have belongs : baseTag e.1 = base := by simpa using (mem_filter.1 inside).2
    rw [← belongs, isComment_baseTag]
  rw [commute]
  split
  · rename_i comment
    exact filter_eq_nil_iff.2 fun e inside => by simpa using (same e inside).2 comment
  · rename_i noComment
    exact kept_of_plain fun e inside comment => noComment ((same e inside).1 comment)

theorem others_kept (base : CString) (entries : List Entry) : others base (kept entries) = kept (others base entries) :=
  filter_kept _ entries

/-- Without entries of the base, or if they are comments, they need not be taken out. -/
theorem kept_others_of_indexed (gone : indexed base (kept entries) = []) : kept (others base entries) = kept entries := by
  rw [← others_kept]
  refine filter_eq_self.2 fun e inside => ?_
  have apart := filter_eq_nil_iff.1 gone e inside
  simpa [entryOf] using apart

theorem others_without {idx : Int} (erased : without base idx entries = some rest) :
    others base rest = others base entries := by
  obtain ⟨-, before, old, after, split, rfl⟩ := split_of_without erased
  obtain ⟨rfl, belongs⟩ := splitNth_eq_some split
  rw [others, others, filter_append, filter_append, filter_cons_of_neg (by simp [belongs])]

theorem without_zero_eq_none : without base 0 entries = none ↔ indexed base entries = [] := by
  rw [without, if_pos (Int.le_refl 0), map_eq_none_iff]
  show splitNth (entryOf base) 0 entries = none ↔ _
  rw [splitNth_eq_none, Nat.le_zero, length_eq_zero_iff]
  rfl

theorem indexed_length_without (erased : without base 0 entries = some rest) :
    (indexed base entries).length = (indexed base rest).length + 1 := by
  obtain ⟨-, before, old, after, split, rfl⟩ := split_of_without erased
  obtain ⟨rfl, belongs⟩ := splitNth_eq_some split
  show ((before ++ old :: after).filter (entryOf base)).length = ((before ++ after).filter (entryOf base)).length + 1
  rw [filter_append, filter_append, filter_cons_of_pos belongs, length_append, length_append, length_cons]
  omega

end

/-- How often the first item can be removed. -/
def removals (base : CString) (entries : List Entry) : Nat :=
  if IsComment base then min 1 (indexed base entries).length else (indexed base entries).length

/-- What the calls leave. -/
def afterRemovals (base : CString) (entries : List Entry) : List Entry :=
  if indexed base entries = [] then entries else kept (others base entries)

theorem repeats_step (readable : Readable file) (fits : itag.bytes.length < maxItemLen)
    (erased : without (baseTag itag) 0 (entriesOf file) = some rest) :
    ∃ written, genconfigRemoveIndexItem 0 itag file = some (some written, 1) ∧
      entriesOf (some written) = kept rest ∧ Readable (some written) := by
  have called := removeIndexItem_entries readable fits 0
  rw [erased] at called
  exact called

theorem repeats_end (readable : Readable file) (fits : itag.bytes.length < maxItemLen)
    (gone : indexed (baseTag itag) (entriesOf file) = []) : Repeats itag file 0 file := by
  have called := removeIndexItem_entries readable fits 0
  rw [without_zero_eq_none.2 gone] at called
  exact .done called

/-- **One by one.**  The calls end, and what they leave. -/
theorem repeats_spec (readable : Readable file) (fits : itag.bytes.length < maxItemLen) :
    ∃ file', Repeats itag file (removals (baseTag itag) (entriesOf file)) file' ∧
      entriesOf file' = afterRemovals (baseTag itag) (entriesOf file) := by
  induction count : (indexed (baseTag itag) (entriesOf file)).length generalizing file with
  | zero =>
    have gone := length_eq_zero_iff.1 count
    refine ⟨file, ?_, by rw [afterRemovals, if_pos gone]⟩
    have never : removals (baseTag itag) (entriesOf file) = 0 := by simp [removals, gone]
    rw [never]
    exact repeats_end readable fits gone
  | succ k ih =>
    have some' : indexed (baseTag itag) (entriesOf file) ≠ [] := by
      intro gone
      rw [gone] at count
      cases count
    obtain ⟨rest, erased⟩ := ne_none_iff_exists'.1 (mt without_zero_eq_none.1 some')
    obtain ⟨written, removed, entries, readable'⟩ := repeats_step readable fits erased
    have lengths := indexed_length_without erased
    have left := others_without erased
    rw [afterRemovals, if_neg some', ← left]
    have again := indexed_kept (baseTag itag) rest
    by_cases comment : IsComment (baseTag itag)
    · -- the other entries of the base are not written
      rw [if_pos comment] at again
      have once : removals (baseTag itag) (entriesOf file) = 0 + 1 := by
        rw [removals, if_pos comment]
        omega
      rw [once, kept_others_of_indexed again]
      exact ⟨_, .more removed (repeats_end readable' fits (by rw [entries, again])), entries⟩
    · rw [if_neg comment] at again
      obtain ⟨file', repeats, final⟩ := ih readable' (by rw [entries, again]; omega)
      have number : removals (baseTag itag) (entriesOf file) = removals (baseTag itag) (entriesOf (some written)) + 1 := by
        rw [removals, removals, if_neg comment, if_neg comment, entries, again, lengths]
      rw [number]
      refine ⟨file', .more removed repeats, final.trans ?_⟩
      rw [entries, afterRemovals]
      split
      · rename_i gone
        exact (kept_others_of_indexed gone).symm
      · rw [others_kept, kept_kept]

/-! ## Comparing the two -/

section

theorem kept_eq_self_iff : kept entries = entries ↔ ∀ e ∈ entries, ¬ IsComment e.1 := by
  rw [kept]
  simp

theorem others_of_unmatched {tag : CString} (unmatched : entries.filter (entryOf tag) = []) : others tag entries = entries :=
  filter_eq_self.2 fun e inside => by simpa using filter_eq_nil_iff.1 unmatched e inside

theorem unmatched_of_plus (hasPlus : plus ∈ itag.bytes) : entries.filter (entryOf itag) = [] := by
  refine filter_eq_nil_iff.2 fun e _ same => ?_
  have same : baseTag e.1 = itag := by simpa [entryOf] using same
  rw [← same] at hasPlus
  have cut := mem_takeWhile_imp hasPlus
  simp at cut

theorem baseTag_of_no_plus (noPlus : plus ∉ itag.bytes) : baseTag itag = itag :=
  CString.ext (takeWhile_ne_eq_self_iff.2 noPlus)

variable {base : CString}

theorem removals_eq_zero_iff : removals base entries = 0 ↔ indexed base entries = [] := by
  rw [← length_eq_zero_iff, removals]
  split <;> omega

theorem removals_eq_length_iff :
    removals base entries = (indexed base entries).length ↔ (IsComment base → (indexed base entries).length ≤ 1) := by
  unfold removals
  split
  · rename_i comment
    rw [imp_iff_right comment]
    omega
  · rename_i noComment
    exact iff_of_true rfl fun comment => absurd comment noComment

theorem agree_iff : (removals (baseTag itag) entries = (entries.filter (entryOf itag)).length ∧
        kept (others itag entries) = afterRemovals (baseTag itag) entries) ↔
      (plus ∉ itag.bytes ∨ indexed (baseTag itag) entries = []) ∧
        (indexed (baseTag itag) entries = [] → ∀ e ∈ entries, ¬ IsComment e.1) ∧
        (IsComment (baseTag itag) → (indexed (baseTag itag) entries).length ≤ 1) := by
  by_cases hasPlus : plus ∈ itag.bytes
  · rw [unmatched_of_plus hasPlus, others_of_unmatched (unmatched_of_plus hasPlus), length_nil, removals_eq_zero_iff]
    by_cases gone : indexed (baseTag itag) entries = []
    · simp [afterRemovals, gone, kept_eq_self_iff]
    · simp [gone, hasPlus]
  · rw [baseTag_of_no_plus hasPlus]
    have same : entries.filter (entryOf itag) = indexed itag entries := rfl
    rw [same, removals_eq_length_iff]
    by_cases gone : indexed itag entries = []
    · rw [others_of_unmatched gone]
      simp [afterRemovals, gone, kept_eq_self_iff]
    · simp [afterRemovals, gone, hasPlus]

end

/-- **Bulk removal equals repeated removal** exactly if the file can be read and the argument has no
`+` or the base no items; if the base has no items, no tag looks like a comment; and if the base
itself does, it has one item at most. -/
theorem bulk_removal_iff (file : File) (itag : CString) (fits : itag.bytes.length < maxItemLen) :
    (∃ (n : Nat) (file' : File) (written : List UInt8), Repeats itag file n file' ∧
        genconfigRemoveIndexAllitem itag file = some (some written, (n : Int)) ∧
        entriesOf (some written) = entriesOf file') ↔
      Readable file ∧
        (plus ∉ itag.bytes ∨ indexed (baseTag itag) (entriesOf file) = []) ∧
        (indexed (baseTag itag) (entriesOf file) = [] → ∀ e ∈ entriesOf file, ¬ IsComment e.1) ∧
        (IsComment (baseTag itag) → (indexed (baseTag itag) (entriesOf file)).length ≤ 1) := by
  by_cases readable : Readable file
  · obtain ⟨file₁, repeats₁, left₁⟩ := repeats_spec readable fits
    obtain ⟨written₁, removed₁, all₁⟩ := removeIndexAllitem_entries readable itag
    rw [and_iff_right readable, ← agree_iff, ← left₁, ← all₁]
    constructor
    · rintro ⟨n, file', written, repeats, removed, same⟩
      obtain ⟨rfl, rfl⟩ := repeats.unique repeats₁
      rw [removed₁] at removed
      simp only [Option.some.injEq, Prod.mk.injEq] at removed
      obtain ⟨rfl, count⟩ := removed
      exact ⟨by omega, same⟩
    · rintro ⟨count, same⟩
      exact ⟨_, file₁, written₁, repeats₁, by rw [removed₁, count], same⟩
  · refine iff_of_false ?_ fun conditions => readable conditions.1
    rintro ⟨n, file', written, -, removed, -⟩
    obtain ⟨items, read, -⟩ := bind_eq_some_iff.1 removed
    exact readable (readable_of_read read).1

open Sample

/-- The items of `a` are removed at once as they are one by one. -/
theorem bulk_removal_of_base :
    ∃ (n : Nat) (file' : File) (written : List UInt8), Repeats (text ['a']) (some twoBases) n file' ∧
      genconfigRemoveIndexAllitem (text ['a']) (some twoBases) = some (some written, (n : Int)) ∧
      entriesOf (some written) = entriesOf file' :=
  (bulk_removal_iff (some twoBases) (text ['a']) (by decide)).2
    ⟨by decide +kernel, .inl (by decide), by decide +kernel, by decide⟩

/-- With the argument `a+x` nothing is removed at once; one by one there is something to remove. -/
theorem bulk_removal_misses_suffix :
    (genconfigRemoveIndexAllitem (text ['a', '+', 'x']) (some twoBases)).map (·.2) = some 0 ∧
      (genconfigRemoveIndexItem 0 (text ['a', '+', 'x']) (some twoBases)).map (·.2) = some 1 := by
  decide +kernel

end RouterApps.GenConfig
