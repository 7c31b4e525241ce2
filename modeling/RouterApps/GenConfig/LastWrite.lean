/-
# GenConfig.LastWrite -- the value that was written last

In memory an item keeps its value in its array or, if it is too long, in a string of its own, which the
readers prefer.  `genconfig_set_value` and `genconfig_set_index_value` free the string when they write
to the array; `genconfig_set_intvalue` does not, so its number is not seen by any reader.

`Setter.assign` is what a call is for.  A run of calls is `AlwaysCurrent` if after each of them the
readers show, and `genconfig_write_file` writes, the entries that the assignments give.
-/
import RouterApps.GenConfig.Entries

namespace RouterApps.GenConfig

open CLib Theory.Table List CString

/-! ## Assignments -/

namespace Setter

def meant : Setter → CString
  | .value _ text => cutLine text
  | .intvalue _ n => (decimal n).toCString
  | .index _ _ text => text

/-- The entry the call picks gets the value, or a new entry does. -/
def assign (op : Setter) (entries : List Entry) : List Entry :=
  match op.pick Prod.fst entries with
  | some (before, old, after) => before ++ (old.1, op.meant) :: after
  | none => entries ++ [(op.newTag, op.meant)]

/-- A number is not written to an entry whose value is too long for the array. -/
def Shows (op : Setter) (entries : List Entry) : Prop :=
  match op with
  | .intvalue tag _ =>
    ∀ e, entries.find? (fun e => decide (e.1 = tag)) = some e → e.2.bytes.length < maxValueLen
  | _ => True

end Setter

/-- The readers show the entries, and the writer writes them. -/
structure Current (items : List Item) (entries : List Entry) : Prop where
  value : ∀ tag, genconfigGetValue items tag = lookup entries tag
  pvalue : ∀ tag, genconfigGetPvalue items tag = (entries.find? fun e => decide (e.1 = tag)).map (·.2)
  file : genconfigWriteFile items = write entries

/-- At every point the store shows for every tag what was last assigned to the first entry with the
tag. -/
def AlwaysCurrent : List Setter → List Item → List Entry → Prop
  | [], items, entries => Current items entries
  | op :: ops, items, entries =>
    Current items entries ∧ ∃ items', op.apply items = some items' ∧ AlwaysCurrent ops items' (op.assign entries)

/-- Every call has a tag that fits, and no number goes to an entry with a long value. -/
def AllShow : List Setter → List Entry → Prop
  | [], _ => True
  | op :: ops, entries =>
    (op.tag.bytes.length < maxItemLen ∧ op.Shows entries) ∧ AllShow ops (op.assign entries)

/-! ## One call -/

theorem current_entries (items : List Item) : Current items (items.map Item.entry) where
  value := genconfigGetValue_eq items
  pvalue tag := by
    have found : (items.map Item.entry).find? (fun e => decide (e.1 = tag)) =
        (items.find? (hasTag tag)).map Item.entry := find?_map
    rw [found, Option.map_map]
    rfl
  file := genconfigWriteFile_eq items

namespace Setter

theorem pick_intvalue (tag : CString) (n : Int32) (entries : List Entry) :
    (Setter.intvalue tag n).pick Prod.fst entries =
      splitNth (fun e : Entry => decide (e.1 = tag)) 0 entries := rfl

variable {op : Setter}

/-- What is stored is what is meant, unless a number meets a long value. -/
theorem newText_eq_meant {entries before after : List Entry} {old : Entry}
    (shows : op.Shows entries) (picked : op.pick Prod.fst entries = some (before, old, after)) :
    op.newText (some old.2) = op.meant := by
  cases op with
  | value | index => rfl
  | intvalue tag n =>
    have first : entries.find? (fun e => decide (e.1 = tag)) = some old := find?_of_splitNth picked
    exact if_pos (shows old first)

/-- A call that shows does to the entries what it is for. -/
theorem apply_assign {items : List Item} (short : op.tag.bytes.length < maxItemLen)
    (shows : op.Shows (items.map Item.entry)) : ∃ items', op.apply items = some items' ∧
      items'.map Item.entry = op.assign (items.map Item.entry) := by
  obtain ⟨items', called, entries⟩ := op.apply_spec short items
  refine ⟨items', called, entries.trans ?_⟩
  unfold plan assign
  cases picked : op.pick Prod.fst (items.map Item.entry) with
  | none =>
    cases op with
    | value | intvalue | index => rfl
  | some split =>
    obtain ⟨before, old, after⟩ := split
    simp only [newText_eq_meant shows picked]

/-- A number that goes to an entry with a long value is not seen. -/
theorem shows_of_current {items items' : List Item}
    (short : op.tag.bytes.length < maxItemLen) (called : op.apply items = some items')
    (current : Current items' (op.assign (items.map Item.entry))) : op.Shows (items.map Item.entry) := by
  cases op with
  | value | index => trivial
  | intvalue tag n =>
    intro e found
    by_contra long
    obtain ⟨items₁, called₁, entries⟩ := (Setter.intvalue tag n).apply_spec short items
    cases called.symm.trans called₁
    have same : e.1 = tag := by simpa using find?_some found
    -- the call leaves the entries as they are, because it leaves the long value
    obtain ⟨⟨before, old, after⟩, split, rfl⟩ := Option.map_eq_some_iff.1 (find?_eq_splitNth _ ▸ found)
    have kept : items'.map Item.entry = items.map Item.entry := by
      rw [entries, plan, pick_intvalue, split, (splitNth_eq_some split).1]
      simp only [newText, if_neg long]
    have shown := current.value tag
    rw [genconfigGetValue_eq, kept, assign, pick_intvalue, split] at shown
    have assigned : before ++ (old.1, (decimal n).toCString) :: after =
        updateFirst (fun e : Entry => decide (e.1 = tag)) (fun e => (e.1, (decimal n).toCString))
          (items.map Item.entry) :=
      (updateFirst_of_splitNth (f := fun e : Entry => (e.1, (decimal n).toCString)) split).symm
    have written : lookup (before ++ (old.1, (decimal n).toCString) :: after) tag = (1, (decimal n).toCString) := by
      rw [lookup, assigned, find?_updateFirst found (by simpa using same)]
    have read : lookup (items.map Item.entry) tag = (1, old.2) := by rw [lookup, found]
    have texts : old.2 = (decimal n).toCString := congrArg Prod.snd (read.symm.trans (shown.trans written))
    exact long (texts ▸ (decimal n).fits)

end Setter

/-! ## A run of calls -/

/-- **The last write wins** at every point of every sequence of calls exactly if the tags of the
calls are shorter than 64 bytes and no `genconfig_set_intvalue` meets a first item whose value is
longer than the array of the item. -/
theorem last_write_wins_iff (items : List Item) (ops : List Setter) :
    AlwaysCurrent ops items (items.map Item.entry) ↔ AllShow ops (items.map Item.entry) := by
  induction ops generalizing items with
  | nil => exact ⟨fun _ => trivial, fun _ => current_entries items⟩
  | cons op ops ih =>
    constructor
    · rintro ⟨-, items', called, rest⟩
      have short : op.tag.bytes.length < maxItemLen := by
        by_contra long
        rw [op.apply_eq_none long] at called
        cases called
      have current : Current items' (op.assign (items.map Item.entry)) := by
        cases ops with
        | nil => exact rest
        | cons => exact rest.1
      have shows := Setter.shows_of_current short called current
      obtain ⟨items₁, called₁, entries⟩ := Setter.apply_assign short shows
      cases called.symm.trans called₁
      rw [← entries] at rest
      refine ⟨⟨short, shows⟩, ?_⟩
      rw [← entries]
      exact (ih items').1 rest
    · rintro ⟨⟨short, shows⟩, rest⟩
      obtain ⟨items', called, entries⟩ := Setter.apply_assign short shows
      refine ⟨current_entries items, items', called, ?_⟩
      rw [← entries] at rest ⊢
      exact (ih items').2 rest

/-- An item with the tag `a` and a value of 180 bytes. -/
def Sample.longItem : Item :=
  Item.put ⟨⟨ofBuffer (ascii ['a']), by decide⟩, ⟨empty, empty_lt_maxValueLen⟩, none, no_longValue⟩
    (ofBuffer (List.replicate 180 120))

/-- A value of 180 bytes, then the number 5: both readers return the old value. -/
theorem intvalue_not_seen :
    ∃ items', (Setter.intvalue (CString.ofBuffer (ascii ['a'])) 5).apply [Sample.longItem] = some items' ∧
      genconfigGetValue items' (CString.ofBuffer (ascii ['a'])) = (1, CString.ofBuffer (List.replicate 180 120)) ∧
      genconfigGetPvalue items' (CString.ofBuffer (ascii ['a'])) = some (CString.ofBuffer (List.replicate 180 120)) ∧
      ¬ AlwaysCurrent [Setter.intvalue (CString.ofBuffer (ascii ['a'])) 5] [Sample.longItem]
        ([Sample.longItem].map Item.entry) := by
  have called : (Setter.intvalue (CString.ofBuffer (ascii ['a'])) 5).apply [Sample.longItem] =
      some [{ Sample.longItem with value := decimal 5 }] := by decide +kernel
  refine ⟨_, called, by decide +kernel, by decide +kernel, ?_⟩
  rintro ⟨-, items', called', current⟩
  cases called.symm.trans called'
  exact absurd (current.value (CString.ofBuffer (ascii ['a']))) (by decide +kernel)

end RouterApps.GenConfig
