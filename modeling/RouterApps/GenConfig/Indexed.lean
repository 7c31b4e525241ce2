/-
# GenConfig.Indexed -- the values of a tag as a list (genconfig_api.c)

An item belongs to the text of its tag before the first `+`.  The indexed functions see the items of
such a base as a list, in the order of the file, each with its own loop over all items.

On the items in memory the functions are operations on the list of values (`reads_iff`, `sets_iff`).
The removal writes the file again; items whose tag starts with `#`, which a line such as `=#a=1` gives,
come back as comments, and so are lost (`indexed_api_is_list_iff`, `removal_drops_hash_item`).
-/
import RouterApps.GenConfig.Settings

namespace RouterApps.GenConfig

open CLib Theory.Table List Option

/-! ## The other readers -/

/-- What `memset` leaves of an item. -/
def Item.zero : Item := ⟨⟨CString.empty, empty_lt_maxItemLen⟩, ⟨CString.empty, empty_lt_maxValueLen⟩, none, no_longValue⟩

/-- The loop of `genconfig_get_index_info`: `if (i++ >= idx)` ends it. -/
def getInfoLoop (tag : CString) (idx : Int) : Int → List Item → Option Item
  | _, [] => none
  | i, item :: rest =>
    if baseTag item.tag.toCString = tag then
      if i ≥ idx then some item else getInfoLoop tag idx (i + 1) rest
    else getInfoLoop tag idx i rest

/-- The return value, and what `*info` holds after the call. -/
def genconfigGetIndexInfo (items : List Item) (itag : CString) (idx : Int) (info : Item) : Option (Int × Item) :=
  if idx < 0 then some (0, info)
  else do
    let itag ← strcpy maxItemLen itag
    match getInfoLoop (baseTag itag.toCString) idx 0 items with
    | some item => some (1, item)
    | none => some (0, Item.zero)

/-- NULL when there is no such item; the loop is that of `genconfig_get_index_value`. -/
def genconfigGetIndexPvalue (items : List Item) (itag : CString) (idx : Int) : Option (Option CString) := do
  let itag ← strcpy maxItemLen itag
  some (getIndexLoop (baseTag itag.toCString) idx 0 items)

/-! ## The list of a base -/

def ofBase (base : CString) (item : Item) : Bool := baseTag item.tag.toCString = base

def values (base : CString) (entries : List Entry) : List CString := (indexed base entries).map Prod.snd

def entriesIn (items : List Item) : List Entry := items.map Item.entry

/-- Position `idx` of a list, for any integer. -/
def elementAt (l : List CString) (idx : Int) : Option CString := if 0 ≤ idx then l[idx.toNat]? else none

variable {idx : Int} {file : File} (l : List CString) (tag : CString)

theorem elementAt_of_neg (negative : idx < 0) : elementAt l idx = none :=
  if_neg (Int.not_le.2 negative)

theorem elementAt_of_nonneg (inside : 0 ≤ idx) : elementAt l idx = l[idx.toNat]? :=
  if_pos inside

section

variable (base : CString)

include base

theorem indexed_append (front back : List Entry) :
    indexed base (front ++ back) = indexed base front ++ indexed base back := filter_append _ _

theorem indexed_entriesIn (items : List Item) :
    indexed base (entriesIn items) = entriesIn (items.filter (ofBase base)) := by
  rw [indexed, entriesIn, List.filter_map]
  rfl

theorem values_entriesIn (items : List Item) :
    values base (entriesIn items) = (items.filter (ofBase base)).map Item.text := by
  rw [values, indexed_entriesIn, entriesIn, List.map_map]
  rfl

theorem values_append (front back : List Entry) :
    values base (front ++ back) = values base front ++ values base back := by
  rw [values, indexed_append, map_append, values, values]

theorem values_single (e : Entry) : values base [e] = if baseTag e.1 = base then [e.2] else [] := by
  by_cases same : baseTag e.1 = base <;> simp [values, indexed, same]

end

/-! ## Reading -/

variable {e : Entry} {itag : CString} (base : CString)

section

variable {items : List Item}

theorem getIndexLoop_of_lt {i : Int} (past : idx < i) (items : List Item) :
    getIndexLoop tag idx i items = none := by
  induction items with
  | nil => rfl
  | cons item rest ih =>
    rw [getIndexLoop]
    split
    · rw [if_neg (by omega), if_pos (by omega)]
    · exact ih

theorem getIndexLoop_zero (idx : Int) (items : List Item) :
    getIndexLoop base idx 0 items = elementAt (values base (entriesIn items)) idx := by
  by_cases negative : idx < 0
  · rw [elementAt_of_neg _ negative, getIndexLoop_of_lt base negative]
  · have inside : 0 ≤ idx := Int.not_lt.1 negative
    rw [elementAt_of_nonneg _ inside, getIndexLoop_eq base inside, values, getElem?_map, Int.sub_zero]
    rfl

theorem getInfoLoop_eq {i : Int} (ahead : i ≤ idx) (items : List Item) :
    getInfoLoop base idx i items = (items.filter (ofBase base))[(idx - i).toNat]? := by
  induction items generalizing i with
  | nil => rfl
  | cons item rest ih =>
    rw [getInfoLoop]
    by_cases here : baseTag item.tag.toCString = base
    · rw [if_pos here, filter_cons_of_pos (by simpa [ofBase] using here)]
      by_cases reached : i ≥ idx
      · have first : (idx - i).toNat = 0 := by omega
        rw [if_pos reached, first]
        rfl
      · have position : (idx - i).toNat = (idx - (i + 1)).toNat + 1 := by omega
        rw [if_neg reached, ih (by omega), position, getElem?_cons_succ]
    · rw [if_neg here, filter_cons_of_neg (by simpa [ofBase] using here), ih ahead]

/-- The three readers find this, or nothing. -/
structure Reads (items : List Item) (itag : CString) (idx : Int) (found : Option CString) : Prop where
  value : genconfigGetIndexValue items itag idx =
    some (match found with
      | some v => (1, v)
      | none => (0, CString.empty))
  pvalue : genconfigGetIndexPvalue items itag idx = some found
  info : ∀ info, ∃ item, genconfigGetIndexInfo items itag idx info = some (if found.isSome then 1 else 0, item) ∧
    ∀ v ∈ found, item.text = v

/-- **The readers** return the element at the index, if the tag fits. -/
theorem reads_iff (items : List Item) (itag : CString) (idx : Int) :
    Reads items itag idx (elementAt (values (baseTag itag) (entriesIn items)) idx) ↔
      itag.bytes.length < maxItemLen := by
  constructor
  · intro reads
    by_contra long
    have read := reads.pvalue
    rw [genconfigGetIndexPvalue, strcpy_eq_none long] at read
    cases read
  · intro fits
    have loop := getIndexLoop_zero (baseTag itag) idx items
    refine ⟨?_, ?_, fun info => ?_⟩
    · simp only [genconfigGetIndexValue, strcpy_eq_some fits, loop, bind_eq_bind, bind_some]
      rcases elementAt (values (baseTag itag) (entriesIn items)) idx with _ | v <;> rfl
    · simp only [genconfigGetIndexPvalue, strcpy_eq_some fits, loop, bind_eq_bind, bind_some]
    · unfold genconfigGetIndexInfo
      by_cases negative : idx < 0
      · rw [if_pos negative, elementAt_of_neg _ negative]
        exact ⟨info, rfl, by simp⟩
      · have inside : 0 ≤ idx := Int.not_lt.1 negative
        have counted := getInfoLoop_eq (baseTag itag) inside items
        rw [Int.sub_zero] at counted
        rw [if_neg negative, elementAt_of_nonneg _ inside, values_entriesIn, getElem?_map]
        simp only [strcpy_eq_some fits, bind_eq_bind, bind_some, counted]
        rcases (items.filter (ofBase (baseTag itag)))[idx.toNat]? with _ | item
        · exact ⟨Item.zero, rfl, by simp⟩
        · exact ⟨item, rfl, by simp⟩

end

/-! ## One entry of the list -/

def entryOf (base : CString) (e : Entry) : Bool := baseTag e.1 = base

theorem baseTag_baseTag : baseTag (baseTag tag) = baseTag tag := by
  refine CString.ext (takeWhile_eq_self_iff.2 fun b inside => ?_)
  exact mem_takeWhile_imp (p := (· != plus)) inside

theorem values_cons_of_eq {base : CString} (same : baseTag e.1 = base) (rest : List Entry) :
    values base (e :: rest) = e.2 :: values base rest := by
  rw [← singleton_append, values_append, values_single, if_pos same]
  rfl

theorem values_cons_of_ne {base : CString} (other : baseTag e.1 ≠ base) (rest : List Entry) :
    values base (e :: rest) = values base rest := by
  rw [← singleton_append, values_append, values_single, if_neg other]
  rfl

theorem values_length (entries : List Entry) :
    (values base entries).length = (entries.filter (entryOf base)).length := by
  rw [values, length_map]
  rfl

section

variable {base : CString} {n : Nat} {entries before after : List Entry} {old : Entry}

variable (split : splitNth (entryOf base) n entries = some (before, old, after))

include split

theorem entryOf_of_split : baseTag old.1 = base := by
  simpa [entryOf] using (splitNth_eq_some split).2

theorem values_of_split :
    values base entries = values base before ++ old.2 :: values base after ∧ (values base before).length = n := by
  refine ⟨?_, by rw [values_length, length_filter_of_splitNth split]⟩
  rw [(splitNth_eq_some split).1, values_append, values_cons_of_eq (entryOf_of_split split)]

theorem values_other_of_split {other : CString}
    (ne : other ≠ base) : values other entries = values other before ++ values other after := by
  have same := entryOf_of_split split
  rw [(splitNth_eq_some split).1, values_append, values_cons_of_ne fun e => ne (e.symm.trans same)]

end

/-! ## Setting -/

/-- The setter replaces the element at the index, or appends one. -/
def Sets (items : List Item) (itag : CString) (n : Nat) (v : CString) : Prop :=
  ∃ ret items', genconfigSetIndexValue items itag n (some v) = some (ret, items') ∧
    values (baseTag itag) (entriesIn items') =
      (if n < (values (baseTag itag) (entriesIn items)).length then (values (baseTag itag) (entriesIn items)).set n v
        else values (baseTag itag) (entriesIn items) ++ [v]) ∧
    ∀ other, other ≠ baseTag itag → values other (entriesIn items') = values other (entriesIn items)

theorem setIndexValue_entries (items : List Item) (fits : itag.bytes.length < maxItemLen) (n : Nat) (v : CString) :
    ∃ ret items', genconfigSetIndexValue items itag n (some v) = some (ret, items') ∧
      entriesIn items' =
        match splitNth (entryOf (baseTag itag)) n (entriesIn items) with
        | some (before, old, after) => before ++ (old.1, v) :: after
        | none => entriesIn items ++ [(baseTag itag, v)] := by
  obtain ⟨items', applied, planned⟩ := (Setter.index itag n v).apply_spec fits items
  obtain ⟨⟨ret, result⟩, set, rfl⟩ := map_eq_some_iff.1 applied
  refine ⟨ret, result, set, planned.trans ?_⟩
  have picked : (Setter.index itag n v).pick Prod.fst (items.map Item.entry) =
      splitNth (entryOf (baseTag itag)) n (entriesIn items) := by
    have position : (Setter.index itag n v).position = some n := by
      simp [Setter.position]
    rfl
  rw [Setter.plan, picked]
  rcases splitNth (entryOf (baseTag itag)) n (entriesIn items) with _ | ⟨before, old, after⟩ <;> rfl

/-- **The setter** does so, if the tag fits. -/
theorem sets_iff (items : List Item) (itag : CString) (n : Nat) (v : CString) :
    Sets items itag n v ↔ itag.bytes.length < maxItemLen := by
  constructor
  · rintro ⟨ret, items', set, -⟩
    by_contra long
    simp [genconfigSetIndexValue, strcpy_eq_none long] at set
  · intro fits
    obtain ⟨ret, items', set, entries⟩ := setIndexValue_entries items fits n v
    refine ⟨ret, items', set, ?_⟩
    rw [entries]
    cases split : splitNth (entryOf (baseTag itag)) n (entriesIn items) with
    | some found =>
      obtain ⟨before, old, after⟩ := found
      obtain ⟨whole, count⟩ := values_of_split split
      have member := entryOf_of_split split
      have same : baseTag ((old.1, v)).1 = baseTag itag := member
      constructor
      · have short : n < (values (baseTag itag) (entriesIn items)).length := by
          rw [whole, length_append, length_cons]
          omega
        rw [if_pos short, whole, values_append, values_cons_of_eq same, set_append_right _ _ (by omega), count,
          Nat.sub_self]
        rfl
      · intro other ne
        rw [values_other_of_split split ne, values_append, values_cons_of_ne fun e => ne (e.symm.trans same)]
    | none =>
      have all := splitNth_eq_none.1 split
      rw [← values_length] at all
      constructor
      · rw [if_neg (Nat.not_lt.2 all), values_append, values_single, if_pos (baseTag_baseTag itag)]
      · intro other ne
        have apart : baseTag (baseTag itag) ≠ other := by
          rw [baseTag_baseTag]
          exact ne.symm
        rw [values_append, values_single, if_neg apart, append_nil]

/-! ## Removing -/

theorem removeIndexLoop_eq (idx i : Int) (items : List Item) : removeIndexLoop base idx i items =
      if i ≤ idx then
        (splitNth (ofBase base) (idx - i).toNat items).map fun (before, _, after) => before ++ after else none := by
  induction items generalizing i with
  | nil => simp [removeIndexLoop, splitNth]
  | cons item rest ih =>
    simp only [removeIndexLoop, splitNth, ofBase]
    by_cases same : baseTag item.tag.toCString = base
    · simp only [same, decide_true, if_true]
      by_cases here : i = idx
      · subst here
        simp
      · rw [if_neg here, ih]
        by_cases past : i ≤ idx
        · have position : (idx - i).toNat = (idx - (i + 1)).toNat + 1 := by omega
          rw [if_pos (by omega), if_pos past, position]
          simp only [Option.map_map]
          rfl
        · rw [if_neg (by omega), if_neg past]
          rfl
    · simp only [same, decide_false, if_false, Bool.false_eq_true]
      rw [ih]
      split
      · simp only [Option.map_map]
        rfl
      · rfl

def without (base : CString) (idx : Int) (entries : List Entry) : Option (List Entry) :=
  if 0 ≤ idx then (splitNth (entryOf base) idx.toNat entries).map fun (before, _, after) => before ++ after
  else none

/-- A list without position `idx`, for any integer. -/
def eraseAt (l : List CString) (idx : Int) : List CString := if 0 ≤ idx then l.eraseIdx idx.toNat else l

theorem removeIndexLoop_entries (idx : Int) (items : List Item) :
    (removeIndexLoop base idx 0 items).map entriesIn = without base idx (entriesIn items) := by
  have mapped : splitNth (entryOf base) idx.toNat (entriesIn items) = (splitNth (ofBase base) idx.toNat items).map
      fun (before, item, after) => (before.map Item.entry, item.entry, after.map Item.entry) :=
    splitNth_map (fun _ => rfl) idx.toNat items
  rw [removeIndexLoop_eq, Int.sub_zero, without]
  split
  · rw [mapped]
    simp only [Option.map_map]
    congr 1
    funext found
    exact map_append
  · rfl

section

variable {base : CString} {idx : Int} {entries rest : List Entry}

section

variable (erased : without base idx entries = some rest)

include erased

theorem split_of_without :
    0 ≤ idx ∧ ∃ before old after, splitNth (entryOf base) idx.toNat entries = some (before, old, after) ∧
      rest = before ++ after := by
  unfold without at erased
  split at erased
  · rename_i inside
    obtain ⟨⟨before, old, after⟩, split, rfl⟩ := map_eq_some_iff.1 erased
    exact ⟨inside, before, old, after, split, rfl⟩
  · cases erased

theorem mem_of_without (inside : e ∈ rest) : e ∈ entries := by
  obtain ⟨-, before, old, after, split, rfl⟩ := split_of_without erased
  rw [(splitNth_eq_some split).1]
  rcases mem_append.1 inside with front | back
  · exact mem_append_left _ front
  · exact mem_append_right _ (mem_cons_of_mem _ back)

theorem values_without : values base rest = eraseAt (values base entries) idx ∧
      ∀ other, other ≠ base → values other rest = values other entries := by
  obtain ⟨inside, before, old, after, split, rfl⟩ := split_of_without erased
  obtain ⟨whole, count⟩ := values_of_split split
  constructor
  · rw [eraseAt, if_pos inside, whole, eraseIdx_append_of_length_le (by omega), count, Nat.sub_self, values_append]
    rfl
  · intro other ne
    rw [values_other_of_split split ne, values_append]

end

theorem eraseAt_of_without (outside : without base idx entries = none) :
    eraseAt (values base entries) idx = values base entries := by
  unfold eraseAt
  split
  · rename_i inside
    rw [without, if_pos inside, map_eq_none_iff, splitNth_eq_none, ← values_length] at outside
    exact eraseIdx_of_length_le outside
  · rfl

/-- The lists of all bases survive writing and reading exactly if there is no comment. -/
theorem values_kept_iff : (∀ base, values base (kept entries) = values base entries) ↔
    ∀ e ∈ entries, ¬ IsComment e.1 := by
  constructor
  · intro same e inside
    have commute : indexed (baseTag e.1) (kept entries) = kept (indexed (baseTag e.1) entries) := filter_kept _ entries
    have count := congrArg List.length (same (baseTag e.1))
    rw [values, values, length_map, length_map, commute, kept, length_filter_eq_length_iff] at count
    have belongs : e ∈ indexed (baseTag e.1) entries := mem_filter.2 ⟨inside, by simp⟩
    simpa using count e belongs
  · intro noComment base
    rw [kept_of_plain noComment]

end

/-- **Removing by index** writes the file without the entry and without the comments. -/
theorem removeIndexItem_entries (readable : Readable file) (fits : itag.bytes.length < maxItemLen) (idx : Int) :
    match without (baseTag itag) idx (entriesOf file) with
    | some rest => ∃ file', genconfigRemoveIndexItem idx itag file = some (some file', 1) ∧
        entriesOf (some file') = kept rest ∧ Readable (some file')
    | none => genconfigRemoveIndexItem idx itag file = some (none, 0) := by
  obtain ⟨items, read, entries⟩ := genconfigReadFile_eq_some readable
  have loop := removeIndexLoop_entries (baseTag itag) idx items
  rw [show entriesIn items = entriesOf file from entries] at loop
  cases removed : removeIndexLoop (baseTag itag) idx 0 items with
  | none =>
    rw [← loop]
    simp only [genconfigRemoveIndexItem, removeDirect, read, strcpy_eq_some fits, removed, bind_eq_bind,
      bind_some, map_some, map_none]
  | some left =>
    rw [removed] at loop
    have inFile : ∀ e ∈ entriesIn left, e ∈ entriesOf file := fun e inside => mem_of_without loop.symm inside
    have again := entriesOf_write fun e inside => plain_of_readable readable e (inFile e inside)
    have written : genconfigRemoveIndexItem idx itag file = some (some (write (entriesIn left)), 1) := by
      simp only [genconfigRemoveIndexItem, removeDirect, read, strcpy_eq_some fits, removed, bind_eq_bind,
        bind_some, map_some, genconfigWriteFile_eq, entriesIn]
    rw [← loop]
    refine ⟨write (entriesIn left), written, again, ?_⟩
    intro e inside
    rw [again] at inside
    exact readable e (inFile e (mem_kept.1 inside).1)

theorem removeIndexItem_eq_none (long : ¬ itag.bytes.length < maxItemLen) (idx : Int) (file : File) :
    genconfigRemoveIndexItem idx itag file = none := by
  simp only [genconfigRemoveIndexItem, removeDirect, strcpy_eq_none long]
  cases genconfigReadFile file <;> rfl

/-- The removal takes the position out of the list and leaves the other bases alone. -/
def Removes (file : File) (itag : CString) (idx : Int) : Prop :=
  ∃ file', fileAfter (genconfigRemoveIndexItem idx itag) file = some file' ∧
    values (baseTag itag) (entriesOf file') = eraseAt (values (baseTag itag) (entriesOf file)) idx ∧
    ∀ other, other ≠ baseTag itag → values other (entriesOf file') = values other (entriesOf file)

/-- **The removal** does so if the tag fits and none of the entries that stay looks like a comment. -/
theorem removes_iff (readable : Readable file) (itag : CString) (idx : Int) :
    Removes file itag idx ↔ itag.bytes.length < maxItemLen ∧
      ∀ rest, without (baseTag itag) idx (entriesOf file) = some rest → ∀ e ∈ rest, ¬ IsComment e.1 := by
  by_cases fits : itag.bytes.length < maxItemLen
  · have called := removeIndexItem_entries readable fits idx
    rw [and_iff_right fits]
    cases erased : without (baseTag itag) idx (entriesOf file) with
    | none =>
      rw [erased] at called
      refine iff_of_true ⟨file, by rw [fileAfter, called]; rfl, (eraseAt_of_without erased).symm, fun _ _ => rfl⟩ ?_
      intro rest found
      cases found
    | some rest =>
      rw [erased] at called
      obtain ⟨file', removed, entries, -⟩ := called
      obtain ⟨own, others⟩ := values_without erased
      simp only [Removes, fileAfter_written removed, Option.some.injEq, exists_eq_left', entries, forall_eq']
      rw [← values_kept_iff]
      constructor
      · rintro ⟨first, second⟩ base
        by_cases same : base = baseTag itag
        · rw [same, first, own]
        · rw [second base same, others base same]
      · intro all
        refine ⟨(all _).trans own, fun other ne => (all other).trans (others other ne)⟩
  · refine iff_of_false ?_ fun conditions => fits conditions.1
    rintro ⟨file', removed, -⟩
    rw [fileAfter, removeIndexItem_eq_none fits] at removed
    cases removed

/-- **The indexed functions are operations on a list.**  The readers and the setter are, exactly if
the tag fits its array; the removal is, exactly if in addition no entry that stays looks like a
comment. -/
theorem indexed_api_is_list_iff (items : List Item) (file : File) (readable : Readable file) (itag : CString) (idx : Int) :
    (Reads items itag idx (elementAt (values (baseTag itag) (entriesIn items)) idx) ↔ itag.bytes.length < maxItemLen) ∧
    (∀ n v, Sets items itag n v ↔ itag.bytes.length < maxItemLen) ∧
    (Removes file itag idx ↔ itag.bytes.length < maxItemLen ∧
      ∀ rest, without (baseTag itag) idx (entriesOf file) = some rest → ∀ e ∈ rest, ¬ IsComment e.1) :=
  ⟨reads_iff items itag idx, sets_iff items itag, removes_iff readable itag idx⟩

namespace Sample

def twoBases : List UInt8 :=
  ascii ['a', '=', '1', '\n', 'b', '+', 'k', '=', '2', '\n', 'a', '+', 'x', '=', '3', '\n']

/-- The second line gives an item with the tag `#x`. -/
def hashItem : List UInt8 := ascii ['a', '=', '1', '\n', '=', '#', 'x', '=', '2', '\n']

end Sample

open Sample

/-- The second item of `a` is removed. -/
theorem second_item_removed :
    Readable (some twoBases) ∧ Removes (some twoBases) (text ['a']) 1 := by
  have readable : Readable (some twoBases) := by decide +kernel
  refine ⟨readable, (indexed_api_is_list_iff [] (some twoBases) readable (text ['a']) 1).2.2.2
    ⟨by decide, ?_⟩⟩
  have left : without (baseTag (text ['a'])) 1 (entriesOf (some twoBases)) =
      some [(text ['a'], text ['1']), (text ['b', '+', 'k'], text ['2'])] := by
    decide +kernel
  rintro rest ⟨⟩
  decide

/-- Removing the item of `a` also removes the item of `#x`. -/
theorem removal_drops_hash_item : Readable (some hashItem) ∧
      values (text ['#', 'x']) (entriesOf (some hashItem)) = [text ['2']] ∧
      (fileAfter (genconfigRemoveIndexItem 0 (text ['a'])) (some hashItem)).map
        (fun file' => values (text ['#', 'x']) (entriesOf file')) = some [] := by
  decide +kernel

end RouterApps.GenConfig
