/-
# GenConfig.Rewrite -- reading a file and writing it back

What this round loses is lost by every change of a setting.  The items read from a file are plain and
come back, with one exception: a line that starts with `=` can give a tag that starts with `#`
(`strtok` skips the `=`, the test for comments does not), and once it is written that item is a
comment line.
-/
import RouterApps.GenConfig.Entries

namespace RouterApps.GenConfig

open CLib List

theorem genconfigReadFile_writeFile {file : Option (List UInt8)} {items : List Item}
    (read : genconfigReadFile file = some items) : genconfigReadFile (some (genconfigWriteFile items)) =
      additems ((parse (file.getD [])).filter fun e => decide (¬ IsComment e.1)) := by
  have short := short_of_additems read
  obtain ⟨items', read', entries⟩ := genconfigReadFile_eq_some short
  cases read.symm.trans read'
  have again : parse (write (parse (file.getD []))) = (parse (file.getD [])).filter fun e => decide (¬ IsComment e.1) :=
    parse_write_filter fun e inside => plain_of_mem_parse inside (short e inside)
  rw [genconfigWriteFile_eq, entries, genconfigReadFile, Option.getD_some, again]

/-- **When rewriting a file loses nothing.**  Its tags are shorter than 64 bytes and none of them
starts with `#`. -/
theorem rewrite_keeps_items_iff (file : Option (List UInt8)) : (∃ items, genconfigReadFile file = some items ∧
        genconfigReadFile (some (genconfigWriteFile items)) = some items) ↔
      ∀ e ∈ parse (file.getD []), e.1.bytes.length < maxItemLen ∧ ¬ IsComment e.1 := by
  constructor
  · rintro ⟨items, read, again⟩ e inside
    have short := short_of_additems read
    refine ⟨short e inside, ?_⟩
    obtain ⟨items', read', entries⟩ := genconfigReadFile_eq_some short
    cases read.symm.trans read'
    -- the second list has the entries that are no comments, and it is the first list
    rw [genconfigReadFile_writeFile read] at again
    obtain ⟨items', read', filtered⟩ := additems_eq_some (short_of_additems again)
    cases again.symm.trans read'
    rw [entries] at filtered
    simpa using filter_eq_self.1 filtered.symm e inside
  · intro readable
    obtain ⟨items, read, -⟩ := genconfigReadFile_eq_some fun e inside => (readable e inside).1
    refine ⟨items, read, ?_⟩
    have kept : (parse (file.getD [])).filter (fun e => decide (¬ IsComment e.1)) = parse (file.getD []) :=
      filter_eq_self.2 fun e inside => by simpa using (readable e inside).2
    rw [genconfigReadFile_writeFile read, kept]
    exact read

/-- The file `=#a=1` has one item, with tag `#a`; written, it is the line `#a=1`, which
is read as a comment. -/
theorem rewrite_loses_item : ∃ items, genconfigReadFile (some (ascii ['=', '#', 'a', '=', '1', '\n'])) = some items ∧
      items.map Item.entry = [(CString.ofBuffer (ascii ['#', 'a']), CString.ofBuffer (ascii ['1']))] ∧
      genconfigWriteFile items = ascii ['#', 'a', '=', '1', '\n'] ∧
      genconfigReadFile (some (genconfigWriteFile items)) = some [] := by
  refine ⟨_, rfl, ?_, ?_, ?_⟩ <;> decide +kernel

end RouterApps.GenConfig
