/-
# GenConfig.Direct -- a value stored in a file is there when it is read again

`genconfig_set_value_direct` reads the file, changes one entry and writes the file again.  If the tags
of the file fit and none of them looks like a comment, the file reads back as the entries that were
written (`parse_write_of_plain`).  The value read is then the value written, up to its first CR or LF,
and every other tag has the value it had.
-/
import RouterApps.GenConfig.Entries

namespace RouterApps.GenConfig

open CLib Theory.Table List Option

theorem parse_write_of_plain {entries : List Entry}
    (plain : ∀ e ∈ entries, Plain e ∧ ¬ IsComment e.1) : parse (write entries) = entries := by
  rw [parse_write_filter fun e inside => (plain e inside).1]
  exact filter_eq_self.2 fun e inside => by simpa using (plain e inside).2

section

variable {tag text : CString}

/-- The entries after `genconfig_set_value`. -/
def putFirst (tag text : CString) (entries : List Entry) : List Entry :=
  if entries.find? (fun e => decide (e.1 = tag)) = none then entries ++ [(tag, text)]
  else updateFirst (fun e => decide (e.1 = tag)) (fun e => (e.1, text)) entries

theorem plan_value (tag text : CString) (entries : List Entry) :
    ((Setter.value tag text).plan entries).1 ++ ((Setter.value tag text).plan entries).2.1 ::
      ((Setter.value tag text).plan entries).2.2 = putFirst tag (cutLine text) entries := by
  have picked : (Setter.value tag text).pick Prod.fst entries =
      splitNth (fun e : Entry => decide (e.1 = tag)) 0 entries := rfl
  unfold Setter.plan putFirst
  rw [picked]
  cases found : splitNth (fun e : Entry => decide (e.1 = tag)) 0 entries with
  | none =>
    rw [if_pos (find?_eq_none_of_splitNth.1 found)]
    rfl
  | some split =>
    obtain ⟨before, old, after⟩ := split
    have present : ¬ entries.find? (fun e => decide (e.1 = tag)) = none := by
      intro absent
      rw [find?_eq_none_of_splitNth.2 absent] at found
      cases found
    rw [if_neg present, updateFirst_of_splitNth found]
    rfl

theorem mem_putFirst {entries : List Entry} {e : Entry} (member : e ∈ putFirst tag text entries) :
    e ∈ entries ∨ e = (tag, text) := by
  unfold putFirst at member
  split at member
  · simpa using member
  · rcases mem_updateFirst member with inside | ⟨old, found, rfl⟩
    · exact .inl inside
    · have same : old.1 = tag := by simpa using find?_some found
      exact .inr (by rw [same])

theorem lookup_putFirst_self (entries : List Entry) : lookup (putFirst tag text entries) tag = (1, text) := by
  unfold lookup putFirst
  by_cases absent : entries.find? (fun e => decide (e.1 = tag)) = none
  · rw [if_pos absent, find?_append, absent]
    simp
  · obtain ⟨old, found⟩ := ne_none_iff_exists'.1 absent
    have same : old.1 = tag := by simpa using find?_some found
    rw [if_neg absent, find?_updateFirst found (by simpa using same)]

theorem lookup_putFirst_of_ne {other : CString} (ne : other ≠ tag) (entries : List Entry) :
    lookup (putFirst tag text entries) other = lookup entries other := by
  unfold lookup putFirst
  by_cases absent : entries.find? (fun e => decide (e.1 = tag)) = none
  · rw [if_pos absent, find?_append]
    have last : [(tag, text)].find? (fun e => decide (e.1 = other)) = none := by
      simpa using ne.symm
    rw [last, or_none]
  · have disjoint : ∀ e : Entry, decide (e.1 = tag) = true → decide (e.1 = other) = false := by
      intro e same
      have same : e.1 = tag := by simpa using same
      rw [same]
      simpa using ne.symm
    have kept : (updateFirst (fun e : Entry => decide (e.1 = tag)) (fun e => (e.1, text)) entries).find?
        (fun e => decide (e.1 = other)) = entries.find? (fun e => decide (e.1 = other)) :=
      find?_updateFirst_of_disjoint (f := fun e : Entry => (e.1, text))
        (fun e same => ⟨disjoint e same, disjoint e same⟩) entries
    rw [if_neg absent, kept]

end

variable (value : CString)

theorem lf_notMem_cutLine : lf ∉ (cutLine value).bytes := by
  intro inside
  have := mem_takeWhile_imp inside
  simp at this

theorem carriageReturn_notMem_cutLine : carriageReturn ∉ (cutLine value).bytes := by
  intro inside
  have := mem_takeWhile_imp (takeWhile_subset _ inside)
  simp at this

theorem cutLine_of_clean {value : CString} (noCr : carriageReturn ∉ value.bytes)
    (noLf : lf ∉ value.bytes) : cutLine value = value := by
  have all : ∀ {s : CString} {b : UInt8}, b ∉ s.bytes → s.cutAt b = s := fun absent =>
    CString.ext (takeWhile_ne_eq_self_iff.2 absent)
  rw [cutLine, all noCr, all noLf]

theorem genconfigGetValueDirect_eq {file : Option (List UInt8)}
    (short : ∀ e ∈ parse (file.getD []), e.1.bytes.length < maxItemLen) (tag : CString) :
    genconfigGetValueDirect file tag = some (lookup (parse (file.getD [])) tag) := by
  obtain ⟨items, read, entries⟩ := genconfigReadFile_eq_some short
  simp only [genconfigGetValueDirect, read, bind_eq_bind, bind_some, genconfigGetValue_eq, entries]

theorem genconfigSetValueDirect_eq {file : Option (List UInt8)}
    (short : ∀ e ∈ parse (file.getD []), e.1.bytes.length < maxItemLen) {tag : CString}
    (fits : tag.bytes.length < maxItemLen) (value : CString) : genconfigSetValueDirect file tag (some value) =
      some (write (putFirst tag (cutLine value) (parse (file.getD [])))) := by
  obtain ⟨items, read, entries⟩ := genconfigReadFile_eq_some short
  obtain ⟨items', called, entries'⟩ := (Setter.value tag value).apply_spec fits items
  obtain ⟨⟨status, result⟩, set, rfl⟩ := map_eq_some_iff.1 called
  rw [entries, plan_value] at entries'
  simp only [genconfigSetValueDirect, read, set, bind_eq_bind, bind_some, genconfigWriteFile_eq, entries']

theorem exists_parse_setValueDirect {file : Option (List UInt8)}
    (readable : ∀ e ∈ parse (file.getD []), e.1.bytes.length < maxItemLen ∧ ¬ IsComment e.1)
    {tag value : CString} (fits : tag.bytes.length < maxItemLen) (plain : Plain (tag, cutLine value))
    (noComment : ¬ IsComment tag) : ∃ file', genconfigSetValueDirect file tag (some value) = some file' ∧
      parse file' = putFirst tag (cutLine value) (parse (file.getD [])) ∧
      ∀ e ∈ parse ((some file').getD []), e.1.bytes.length < maxItemLen := by
  -- the new entry is plain as well
  have each : ∀ e ∈ putFirst tag (cutLine value) (parse (file.getD [])),
      (Plain e ∧ ¬ IsComment e.1) ∧ e.1.bytes.length < maxItemLen := by
    intro e member
    rcases mem_putFirst member with inside | rfl
    · obtain ⟨tagFits, kept⟩ := readable e inside
      exact ⟨⟨plain_of_mem_parse inside tagFits, kept⟩, tagFits⟩
    · exact ⟨⟨plain, noComment⟩, fits⟩
  have again := parse_write_of_plain fun e member => (each e member).1
  refine ⟨_, genconfigSetValueDirect_eq (fun e inside => (readable e inside).1) fits value, again, fun e member => ?_⟩
  rw [getD_some, again] at member
  exact (each e member).2

/-- **Persistence and frame.**  The value is there when the file is read again, up to its first CR
or LF, and every other tag reads as before. -/
theorem set_value_direct_get_value_direct (file : Option (List UInt8))
    (readable : ∀ e ∈ parse (file.getD []), e.1.bytes.length < maxItemLen ∧ ¬ IsComment e.1)
    (tag value : CString) (nonempty : tag.bytes ≠ []) (fits : tag.bytes.length < maxItemLen)
    (noEquals : equals ∉ tag.bytes) (noLf : lf ∉ tag.bytes) (noComment : ¬ IsComment tag)
    (oneLine : (body (tag, cutLine value)).length ≤ bufferLen - 1) :
    ∃ file', genconfigSetValueDirect file tag (some value) = some file' ∧
      genconfigGetValueDirect (some file') tag = some (1, cutLine value) ∧
      ∀ other, other ≠ tag → genconfigGetValueDirect (some file') other = genconfigGetValueDirect file other := by
  obtain ⟨file', set, again, short⟩ :=
    exists_parse_setValueDirect readable fits ⟨nonempty, noEquals, noLf, lf_notMem_cutLine value, oneLine⟩ noComment
  refine ⟨file', set, ?_, ?_⟩
  · rw [genconfigGetValueDirect_eq short, getD_some, again, lookup_putFirst_self]
  · intro other ne
    rw [genconfigGetValueDirect_eq short, genconfigGetValueDirect_eq fun e inside => (readable e inside).1,
      getD_some, again, lookup_putFirst_of_ne ne]

namespace Sample

/-- ASCII text without a NUL as a string. -/
def text (chars : List Char) : CString := CString.ofBuffer (ascii chars)

/-- A comment, a tag given twice, a tag without a value and a line that does not end. -/
def file : List UInt8 :=
  ascii ['#', 'c', '=', '1', '\n', 'a', '=', 'x', '=', 'y', '\n', '=', 'b', '\n', 'a', '=', 'z']

end Sample

open Sample

example : parse file =
    [(text ['a'], text ['x', '=', 'y']), (text ['b'], CString.empty), (text ['a'], text ['z'])] := by
  decide +kernel

/-- The first `a` gets a value with a line break in it. -/
theorem set_value_direct_get_value_direct_sample :
    ∃ file', genconfigSetValueDirect (some file) (text ['a'])
        (some (text ['1', '\r', '\n', '2'])) = some file' ∧
      genconfigGetValueDirect (some file') (text ['a']) = some (1, text ['1']) ∧
      ∀ other, other ≠ text ['a'] →
        genconfigGetValueDirect (some file') other = genconfigGetValueDirect (some file) other :=
  set_value_direct_get_value_direct (some file) (by decide +kernel) (text ['a'])
    (text ['1', '\r', '\n', '2']) (by decide) (by decide) (by decide) (by decide) (by decide)
    (by decide)

end RouterApps.GenConfig
