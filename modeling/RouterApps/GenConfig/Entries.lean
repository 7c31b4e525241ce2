/-
# GenConfig.Entries -- a configuration as a list of entries

What a configuration file means is the list of its entries, tag and value, in order.

* Reading gives the items whose entries are `parse` of the file, if every tag fits
  (`genconfigReadFile_eq_some`).
* Each setter rewrites one entry or appends one (`Setter.plan`, `Setter.apply_spec`).
* Lines are read independently of each other (`parse_write`), and a line made of an entry that was
  read gives the entry back (`parse_line`), unless its tag starts with `#`: then it is a comment.
-/
import RouterApps.GenConfig.Store

namespace RouterApps.GenConfig

open CLib Theory.Table List Option

/-- A tag and its value. -/
abbrev Entry := CString × CString

/-! ## What is read -/

/-- The bytes of an entry's line, without the line feed. -/
def body (e : Entry) : List UInt8 := e.1.bytes ++ equals :: e.2.bytes

def IsComment (tag : CString) : Prop := tag.bytes.head? = some hash

instance (tag : CString) : Decidable (IsComment tag) :=
  inferInstanceAs (Decidable (tag.bytes.head? = some hash))

/-- The tag is not empty and has no `=`, neither part has a line feed, and the line fits the read
buffer. -/
structure Plain (e : Entry) : Prop where
  tag : e.1.bytes ≠ []
  noEquals : equals ∉ e.1.bytes
  noLf : lf ∉ e.1.bytes
  value : lf ∉ e.2.bytes
  fits : (body e).length ≤ bufferLen - 1

theorem body_length (e : Entry) : (body e).length = e.1.bytes.length + 1 + e.2.bytes.length := by
  simp only [body, length_append, length_cons]
  omega

theorem ofBuffer_length (buffer : List UInt8) : (CString.ofBuffer buffer).bytes.length ≤ buffer.length :=
  (takeWhile_sublist _).length_le

variable {e : Entry} {rest : List UInt8} {entries : List Entry}

theorem plain_of_parseLine {buffer : List UInt8} (found : parseLine buffer = some e)
    (short : buffer.length ≤ bufferLen - 1) (tag : e.1.bytes.length < maxItemLen) : Plain e := by
  have size := ofBuffer_length buffer
  unfold parseLine at found
  split at found
  · cases found
  split at found
  · cases found
  · rename_i token rest first
    obtain ⟨nonempty, clean, -, -, room⟩ := CString.strtok_eq_some first
    have noEquals : equals ∉ token.bytes := fun inside => clean _ inside (by decide)
    have noLf : lf ∉ token.bytes := fun inside => clean _ inside (by decide)
    split at found
    · rename_i value _ second
      cases found
      obtain ⟨filled, plain, -, within, -⟩ := CString.strtok_eq_some second
      refine ⟨nonempty, noEquals, noLf, fun inside => plain _ inside (by simp), ?_⟩
      have used := length_pos_iff.2 filled
      rcases room with none | room
      · rw [none, length_nil] at within
        omega
      · rw [body_length]
        simp only [] at *
        omega
    · cases found
      refine ⟨nonempty, noEquals, noLf, not_mem_nil, ?_⟩
      rw [body_length]
      simp only [CString.empty, length_nil, bufferLen, maxItemLen] at *
      omega

theorem plain_of_mem_parse {contents : List UInt8} (member : e ∈ parse contents)
    (tag : e.1.bytes.length < maxItemLen) : Plain e := by
  obtain ⟨piece, inside, found⟩ := mem_filterMap.1 member
  exact plain_of_parseLine found (length_le_of_mem_fgetsAll inside) tag

/-! ## What is read back -/

theorem strtok_body (plain : Plain e) (nulFree : (0 : UInt8) ∉ rest) :
    ∃ s, (CString.ofBuffer (body e ++ rest)).strtok [equals, lf] = some (e.1, s) ∧ s.bytes = e.2.bytes ++ rest := by
  have tail : 0 ∉ e.2.bytes ++ rest := by
    rw [mem_append, not_or]
    exact ⟨e.2.nulFree, nulFree⟩
  have whole : body e ++ rest = e.1.bytes ++ equals :: (e.2.bytes ++ rest) := by simp [body]
  have string : (CString.ofBuffer (body e ++ rest)).bytes = e.1.bytes ++ equals :: (e.2.bytes ++ rest) := by
    rw [whole]
    apply CString.ofBuffer_of_nulFree
    rw [mem_append, mem_cons, not_or, not_or]
    exact ⟨e.1.nulFree, by decide, tail⟩
  have clean : ∀ b ∈ e.1.bytes, b ∉ [equals, lf] := by
    intro b inside delim
    rcases mem_cons.1 delim with rfl | delim
    · exact plain.noEquals inside
    · exact plain.noLf (mem_singleton.1 delim ▸ inside)
  exact ⟨⟨e.2.bytes ++ rest, tail⟩, CString.strtok_append plain.tag clean mem_cons_self string, rfl⟩

theorem strtok_value {value s : CString} (noLf : lf ∉ value.bytes)
    (ending : rest = [] ∨ rest = [lf]) (whole : s.bytes = value.bytes ++ rest) :
    ((s.strtok [lf]).map (·.1)).getD CString.empty = value := by
  have text : ∀ b ∈ value.bytes, b ∉ [lf] := by
    intro b inside delim
    exact noLf (mem_singleton.1 delim ▸ inside)
  by_cases empty : value.bytes = []
  · have absent : s.strtok [lf] = none := by
      refine CString.strtok_eq_none fun b inside => ?_
      rw [whole, empty] at inside
      rcases ending with rfl | rfl
      · cases inside
      · exact inside
    rw [absent]
    exact (CString.ext empty).symm
  · have found : s.strtok [lf] = some (value, CString.empty) := by
      rcases ending with rfl | rfl
      · rw [CString.ext (whole.trans (append_nil _))]
        exact CString.strtok_self empty text
      · exact CString.strtok_append empty text mem_cons_self whole
    rw [found]
    rfl

theorem parseLine_body (plain : Plain e) (ending : rest = [] ∨ rest = [lf]) :
    parseLine (body e ++ rest) = if IsComment e.1 then none else some e := by
  have nulFree : 0 ∉ rest := by rcases ending with rfl | rfl <;> decide
  have head : (body e ++ rest).head? = e.1.bytes.head? := by
    obtain ⟨b, bs, cons⟩ := exists_cons_of_ne_nil plain.tag
    simp [body, cons]
  obtain ⟨s, first, whole⟩ := strtok_body plain nulFree
  have second := strtok_value plain.value ending whole
  unfold parseLine
  rw [head]
  by_cases comment : IsComment e.1
  · rw [if_pos comment]
    exact if_pos comment
  · have kept : ¬ e.1.bytes.head? = some hash := comment
    rw [if_neg comment, if_neg kept, first]
    simp only []
    cases found : s.strtok [lf] with
    | none | some token =>
      rw [found] at second
      exact congrArg (fun value => some (e.1, value)) second

theorem parse_line (plain : Plain e) : parse (line e.1 e.2) = if IsComment e.1 then [] else [e] := by
  have noLf : lf ∉ body e := by
    simp only [body, mem_append, mem_cons, not_or]
    exact ⟨plain.noLf, by decide, plain.value⟩
  have whole : line e.1 e.2 = body e ++ [lf] := by simp [line, body]
  have blank : parseLine [lf] = none := by decide
  unfold parse
  rw [whole, fgetsAll_line (by decide) noLf plain.fits]
  by_cases comment : IsComment e.1
  · split
    · simp [parseLine_body plain (.inr rfl), comment]
    · have := parseLine_body plain (.inl rfl)
      rw [append_nil, if_pos comment] at this
      simp [this, blank]
  · split
    · simp [parseLine_body plain (.inr rfl), comment]
    · have := parseLine_body plain (.inl rfl)
      rw [append_nil, if_neg comment] at this
      simp [this, blank]

theorem parse_append (a b : List UInt8) : parse (a ++ lf :: b) = parse (a ++ [lf]) ++ parse b := by
  unfold parse
  rw [fgetsAll_append (by decide), filterMap_append]

theorem parse_line_append (e : Entry) (rest : List UInt8) :
    parse (line e.1 e.2 ++ rest) = parse (line e.1 e.2) ++ parse rest := by
  have whole : line e.1 e.2 = body e ++ [lf] := by simp [line, body]
  rw [whole, append_assoc]
  exact parse_append (body e) rest

theorem parseLine_head {b : UInt8} {bs : List UInt8} (found : parseLine (b :: bs) = some e)
    (text : b ∉ [0, equals, lf]) : e.1.bytes.head? = some b := by
  simp only [mem_cons, not_or] at text
  have whole : (CString.ofBuffer (b :: bs)).bytes = b :: bs.takeWhile (· != 0) := by
    simp only [CString.ofBuffer]
    rw [takeWhile_cons_of_pos (by simpa using text.1)]
  have clean : b ∉ [equals, lf] := by simpa using text.2
  unfold parseLine at found
  split at found
  · cases found
  split at found
  · cases found
  · rename_i tag rest token
    have head := CString.strtok_head whole clean token
    split at found
    all_goals
      cases found
      exact head

/-- The file with these entries. -/
def write (entries : List Entry) : List UInt8 := (entries.map fun e => line e.1 e.2).flatten

theorem parse_write (entries : List Entry) : parse (write entries) = entries.flatMap fun e => parse (line e.1 e.2) := by
  induction entries with
  | nil => rfl
  | cons e rest ih =>
    rw [flatMap_cons, ← ih]
    exact parse_line_append e (write rest)

theorem parse_write_filter (plain : ∀ e ∈ entries, Plain e) :
    parse (write entries) = entries.filter fun e => decide (¬ IsComment e.1) := by
  rw [parse_write]
  induction entries with
  | nil => rfl
  | cons e rest ih =>
    have ih := ih fun e inside => plain e (mem_cons_of_mem _ inside)
    rw [flatMap_cons, parse_line (plain e mem_cons_self), ih]
    by_cases comment : IsComment e.1
    · rw [if_pos comment, nil_append, filter_cons_of_neg (by simpa using comment)]
    · rw [if_neg comment, singleton_append, filter_cons_of_pos (by simpa using comment)]

/-! ## Items and entries -/

def Item.entry (item : Item) : Entry := (item.tag.toCString, item.text)

theorem Item.put_entry (item : Item) (value : CString) : (item.put value).entry = (item.tag.toCString, value) := by
  unfold Item.put
  split <;> rfl

/-- A number goes to the array, and shows only if there is no separate string. -/
theorem Item.putInt_entry (item : Item) (value : CharArray maxValueLen) :
    ({ item with value := value } : Item).entry = (item.tag.toCString,
      if item.text.bytes.length < maxValueLen then value.toCString else item.text) := by
  obtain ⟨tag, old, longValue, long⟩ := item
  cases longValue with
  | none =>
    have fits : (Item.text ⟨tag, old, none, long⟩).bytes.length < maxValueLen := old.fits
    rw [if_pos fits]
    rfl
  | some v =>
    have tooLong : ¬ (Item.text ⟨tag, old, some v, long⟩).bytes.length < maxValueLen := Nat.not_lt.2 (long v rfl)
    rw [if_neg tooLong]
    rfl

theorem additemLl_eq_some {tag : CString} (short : tag.bytes.length < maxItemLen) (value : CString) :
    ∃ item, additemLl tag value = some item ∧ item.entry = (tag, value) := by
  refine ⟨_, by rw [additemLl, strcpy_eq_some short]; rfl, ?_⟩
  exact Item.put_entry _ value

theorem additemLl_eq_none {tag : CString} (long : ¬ tag.bytes.length < maxItemLen)
    (value : CString) : additemLl tag value = none := by
  rw [additemLl, strcpy_eq_none long]
  rfl

theorem additems_eq_some (short : ∀ e ∈ entries, e.1.bytes.length < maxItemLen) :
    ∃ items, additems entries = some items ∧ items.map Item.entry = entries := by
  induction entries with
  | nil => exact ⟨[], rfl, rfl⟩
  | cons e rest ih =>
    obtain ⟨item, added, entry⟩ := additemLl_eq_some (short e mem_cons_self) e.2
    obtain ⟨items, all, entries⟩ := ih fun e inside => short e (mem_cons_of_mem _ inside)
    refine ⟨item :: items, ?_, ?_⟩
    · simp only [additems, added, all]
      rfl
    · rw [map_cons, entry, entries]

theorem short_of_additems {items : List Item}
    (read : additems entries = some items) : ∀ e ∈ entries, e.1.bytes.length < maxItemLen := by
  induction entries generalizing items with
  | nil => simp
  | cons e rest ih =>
    simp only [additems, bind_eq_bind, bind_eq_some_iff] at read
    obtain ⟨item, added, items', all, -⟩ := read
    intro e' member
    rcases mem_cons.1 member with rfl | inside
    · by_contra long
      rw [additemLl_eq_none long] at added
      cases added
    · exact ih all e' inside

theorem genconfigReadFile_eq_some {file : Option (List UInt8)}
    (short : ∀ e ∈ parse (file.getD []), e.1.bytes.length < maxItemLen) :
    ∃ items, genconfigReadFile file = some items ∧ items.map Item.entry = parse (file.getD []) :=
  additems_eq_some short

variable (items : List Item)

theorem genconfigWriteFile_eq : genconfigWriteFile items = write (items.map Item.entry) := by
  unfold genconfigWriteFile write
  rw [List.map_map]
  rfl

/-- The first value of a tag. -/
def lookup (entries : List Entry) (tag : CString) : Int × CString :=
  match entries.find? fun e => decide (e.1 = tag) with
  | some e => (1, e.2)
  | none => (0, CString.empty)

theorem genconfigGetValue_eq (tag : CString) : genconfigGetValue items tag = lookup (items.map Item.entry) tag := by
  have found : (items.map Item.entry).find? (fun e => decide (e.1 = tag)) =
      (items.find? (hasTag tag)).map Item.entry := find?_map
  unfold genconfigGetValue lookup
  rw [found]
  cases items.find? (hasTag tag) <;> rfl

/-! ## The setters -/

inductive Setter where
  | value (tag value : CString)
  | intvalue (tag : CString) (value : Int32)
  | index (tag : CString) (idx : Int) (value : CString)

namespace Setter

/-- The tag the caller names. -/
def tag : Setter → CString
  | .value tag _ => tag
  | .intvalue tag _ => tag
  | .index tag _ _ => tag

/-- The call. -/
def apply (op : Setter) (items : List Item) : Option (List Item) :=
  match op with
  | .value tag text => (genconfigSetValue items tag (some text)).map (·.2)
  | .intvalue tag n => (genconfigSetIntvalue items tag n).map (·.2)
  | .index tag idx text => (genconfigSetIndexValue items tag idx (some text)).map (·.2)

/-- The tag of an entry that the call appends. -/
def newTag : Setter → CString
  | .value tag _ => tag
  | .intvalue tag _ => tag
  | .index tag _ _ => baseTag tag

/-- The tags the call looks for. -/
def fits (op : Setter) (tag' : CString) : Bool :=
  match op with
  | .value tag _ => tag' = tag
  | .intvalue tag _ => tag' = tag
  | .index tag _ _ => baseTag tag' = baseTag tag

/-- How many of them it passes over. -/
def position : Setter → Option Nat
  | .value _ _ => some 0
  | .intvalue _ _ => some 0
  | .index _ idx _ => if 0 ≤ idx then some idx.toNat else none

/-- The one it rewrites, with what is before and after it. -/
def pick {α : Type} (op : Setter) (tagOf : α → CString) (l : List α) :
    Option (List α × α × List α) :=
  op.position.bind fun n => splitNth (fun a => op.fits (tagOf a)) n l

def rewrite (op : Setter) (item : Item) : Item :=
  match op with
  | .value _ text => item.put (cutLine text)
  | .intvalue _ n => { item with value := decimal n }
  | .index _ _ text => item.put text

/-- The value of the entry that is written; `old` is the value it had. -/
def newText (op : Setter) (old : Option CString) : CString :=
  match op with
  | .value _ text => cutLine text
  | .intvalue _ n =>
    match old with
    | some text => if text.bytes.length < maxValueLen then (decimal n).toCString else text
    | none => (decimal n).toCString
  | .index _ _ text => text

/-- The entries after the call: those before the written one, the written one, those
after it. -/
def plan (op : Setter) (entries : List Entry) : List Entry × Entry × List Entry :=
  match op.pick Prod.fst entries with
  | some (before, old, after) => (before, (old.1, op.newText (some old.2)), after)
  | none => (entries, (op.newTag, op.newText none), [])

/-- The tag that is written. -/
def target (op : Setter) (entries : List Entry) : CString := (op.plan entries).2.1.1

variable (op : Setter)

theorem newTag_length : op.newTag.bytes.length ≤ op.tag.bytes.length := by
  cases op with
  | value | intvalue => exact le_rfl
  | index tag idx text => exact (takeWhile_sublist _).length_le

theorem rewrite_entry (item : Item) : (op.rewrite item).entry = (item.tag.toCString, op.newText (some item.text)) := by
  cases op with
  | value tag text => exact item.put_entry (cutLine text)
  | intvalue tag n => exact item.putInt_entry (decimal n)
  | index tag idx text => exact item.put_entry text

theorem setIndexLoop_eq (tag value : CString) (idx i : Int) (items : List Item) : setIndexLoop tag idx value i items =
      if i ≤ idx then
        (splitNth (fun item => decide (baseTag item.tag.toCString = tag)) (idx - i).toNat items).map
          fun (before, item, after) => before ++ item.put value :: after else none := by
  induction items generalizing i with
  | nil => simp [setIndexLoop, splitNth]
  | cons item rest ih =>
    simp only [setIndexLoop, splitNth]
    by_cases same : baseTag item.tag.toCString = tag
    · simp only [same, decide_true, if_true]
      by_cases here : i = idx
      · subst here
        simp
      · rw [if_neg here]
        by_cases past : i + 1 > idx
        · rw [if_pos past, if_neg (by omega)]
        · rw [if_neg past, ih, if_pos (by omega), if_pos (by omega)]
          obtain ⟨n, hn⟩ : ∃ n, (idx - i).toNat = n + 1 := ⟨(idx - (i + 1)).toNat, by omega⟩
          have hn' : (idx - (i + 1)).toNat = n := by omega
          rw [hn, hn']
          simp only [Option.map_map]
          rfl
    · simp only [same, decide_false, if_false, Bool.false_eq_true]
      rw [ih]
      split
      · simp only [Option.map_map]
        rfl
      · rfl

theorem setFirst_eq (tag text : CString) (f : Item → Item) : (setFirst items tag text f).map (·.2) =
      match splitNth (fun item : Item => decide (item.tag.toCString = tag)) 0 items with
      | some (before, item, after) => some (before ++ f item :: after)
      | none => (additemLl tag text).map fun item => items ++ [item] := by
  unfold setFirst
  cases found : splitNth (hasTag tag) 0 items with
  | none =>
    rw [find?_eq_none_of_splitNth.1 found]
    have absent : splitNth (fun item : Item => decide (item.tag.toCString = tag)) 0 items = none := found
    rw [absent]
    simp only [Option.map_map]
    rfl
  | some split =>
    obtain ⟨before, item, after⟩ := split
    have here : splitNth (fun item : Item => decide (item.tag.toCString = tag)) 0 items =
      some (before, item, after) := found
    have present : items.find? (hasTag tag) ≠ none := by
      intro absent
      rw [find?_eq_none_of_splitNth.2 absent] at found
      cases found
    obtain ⟨first, first_eq⟩ := ne_none_iff_exists'.1 present
    rw [first_eq, here, updateFirst_of_splitNth found]
    rfl

theorem apply_eq (short : op.tag.bytes.length < maxItemLen) (items : List Item) : op.apply items =
      match op.pick (fun item : Item => item.tag.toCString) items with
      | some (before, item, after) => some (before ++ op.rewrite item :: after)
      | none => (additemLl op.newTag (op.newText none)).map fun item => items ++ [item] := by
  cases op with
  | value tag text => exact setFirst_eq items tag (cutLine text) (·.put (cutLine text))
  | intvalue tag n =>
    exact setFirst_eq items tag (decimal n).toCString fun item => { item with value := decimal n }
  | index tag idx text =>
    have fits : tag.bytes.length < maxItemLen := short
    have loop := setIndexLoop_eq (baseTag tag) text idx 0 items
    rw [Int.sub_zero] at loop
    simp only [apply, genconfigSetIndexValue, strcpy_eq_some fits, pick, position, Setter.fits,
      bind_eq_bind, bind_some, loop]
    by_cases inRange : 0 ≤ idx
    · simp only [inRange, if_true, bind_some]
      cases splitNth (fun item : Item => decide (baseTag item.tag.toCString = baseTag tag)) idx.toNat items with
      | some split => rfl
      | none =>
        simp only [map_none, Option.map_map]
        rfl
    · simp only [inRange, if_false, Option.map_map]
      rfl

/-- **The setters on entries.**  A setter whose tag fits does to the entries of the
store what its plan says. -/
theorem apply_spec (short : op.tag.bytes.length < maxItemLen) (items : List Item) :
    ∃ items', op.apply items = some items' ∧
      items'.map Item.entry = (op.plan (items.map Item.entry)).1 ++
        (op.plan (items.map Item.entry)).2.1 :: (op.plan (items.map Item.entry)).2.2 := by
  have entries : op.pick Prod.fst (items.map Item.entry) =
      (op.pick (fun item : Item => item.tag.toCString) items).map
        fun (before, item, after) => (before.map Item.entry, item.entry, after.map Item.entry) := by
    unfold pick
    cases op.position with
    | none => rfl
    | some n => exact splitNth_map (fun _ => rfl) n items
  rw [apply_eq op short, plan, entries]
  cases op.pick (fun item : Item => item.tag.toCString) items with
  | some split =>
    obtain ⟨before, item, after⟩ := split
    refine ⟨_, rfl, ?_⟩
    simp only [map_append, map_cons, rewrite_entry]
    rfl
  | none =>
    obtain ⟨item, added, entry⟩ := additemLl_eq_some (op.newTag_length.trans_lt short) (op.newText none)
    exact ⟨items ++ [item], by simp only [added]; rfl, by simp [entry]⟩

theorem apply_eq_none (long : ¬ op.tag.bytes.length < maxItemLen) (items : List Item) : op.apply items = none := by
  have absent : ∀ (tag text) f, ¬ tag.bytes.length < maxItemLen → (setFirst items tag text f).map (·.2) = none := by
    intro tag text f long
    have unmatched : items.find? (hasTag tag) = none := by
      refine find?_eq_none.2 fun item _ same => long ?_
      have same : item.tag.toCString = tag := by simpa [hasTag] using same
      exact same ▸ item.tag.fits
    rw [setFirst, unmatched, additemLl_eq_none long]
    rfl
  cases op with
  | value tag text | intvalue tag n => exact absent tag _ _ long
  | index tag idx text =>
    have long : ¬ tag.bytes.length < maxItemLen := long
    simp [apply, genconfigSetIndexValue, strcpy_eq_none long]

end Setter

end RouterApps.GenConfig
