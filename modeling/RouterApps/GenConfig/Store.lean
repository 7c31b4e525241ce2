/-
# GenConfig.Store -- the configuration store (genconfig_api.c)

A configuration file is text, one `tag=value` a line.  Every operation reads the whole file into a list
of items, works on the list and writes it back.  The reader splits the file with `fgets` into pieces of
at most 4095 bytes, skips those that start with `#`, and takes a piece apart with `strtok`.  A value
that does not fit the array of its item is kept in a separate string.

A function that would write past `tag[64]` returns `none`.  A file is `none` when it cannot be opened.
-/
import RouterApps.Theory.Table
import RouterApps.CLib.Stream
import RouterApps.CLib.Text

namespace RouterApps.GenConfig

open CLib Theory.Table CString

/-! ## Items -/

/-- `GENCONFIG_MAX_ITEM_LEN`. -/
def maxItemLen : Nat := 64

/-- `GENCONFIG_MAX_VALUE_LEN`. -/
def maxValueLen : Nat := 256 - maxItemLen - 12

/-- The size of the read buffer. -/
def bufferLen : Nat := 4096

def equals : UInt8 := 61

def hash : UInt8 := 35

def plus : UInt8 := 43

def carriageReturn : UInt8 := 13

/-- `genconfig_item_t`.  A separate string is used only for a value that the array
cannot hold. -/
structure Item where
  tag : CharArray maxItemLen
  value : CharArray maxValueLen
  longValue : Option CString
  long : ∀ v ∈ longValue, maxValueLen ≤ v.bytes.length
deriving DecidableEq

theorem empty_lt_maxItemLen : empty.bytes.length < maxItemLen := by decide

theorem empty_lt_maxValueLen : empty.bytes.length < maxValueLen := by decide

theorem no_longValue : ∀ v ∈ (none : Option CString), maxValueLen ≤ v.bytes.length := by simp

/-- The value of an item, wherever it is kept. -/
def Item.text (item : Item) : CString := item.longValue.getD item.value.toCString

def Item.put (item : Item) (value : CString) : Item :=
  if fits : value.bytes.length < maxValueLen then
    ⟨item.tag, ⟨value, fits⟩, none, no_longValue⟩
  else ⟨item.tag, item.value, some value, by simpa using fits⟩

/-- The new item of `additem_ll`; a NULL value is the empty string. -/
def additemLl (tag value : CString) : Option Item :=
  (strcpy maxItemLen tag).map fun tag =>
    Item.put ⟨tag, ⟨empty, empty_lt_maxValueLen⟩, none, no_longValue⟩ value

/-! ## Files -/

/-- What the body of the reading loop finds in the buffer: a tag and a value. -/
def parseLine (buffer : List UInt8) : Option (CString × CString) :=
  if buffer.head? = some hash then none
  else
    match (ofBuffer buffer).strtok [equals, lf] with
    | none => none
    | some (tag, rest) =>
      match rest.strtok [lf] with
      | some (value, _) => some (tag, value)
      | none => some (tag, empty)

/-- The tags and values of a file, in order. -/
def parse (contents : List UInt8) : List (CString × CString) :=
  (fgetsAll bufferLen contents).filterMap parseLine

def additems : List (CString × CString) → Option (List Item)
  | [] => some []
  | (tag, value) :: entries => do
    let item ← additemLl tag value
    let items ← additems entries
    some (item :: items)

def genconfigReadFile (file : Option (List UInt8)) : Option (List Item) :=
  additems (parse (file.getD []))

/-- One `fprintf` of `genconfig_write_file`. -/
def line (tag text : CString) : List UInt8 := tag.bytes ++ equals :: (text.bytes ++ [lf])

def genconfigWriteFile (items : List Item) : List UInt8 :=
  (items.map fun item => line item.tag.toCString item.text).flatten

/-! ## Reading and changing values -/

/-- `!strcmp(citem->tag, tag)`. -/
def hasTag (tag : CString) (item : Item) : Bool := item.tag.toCString = tag

def genconfigGetValue (items : List Item) (tag : CString) : Int × CString :=
  match items.find? (hasTag tag) with
  | some item => (1, item.text)
  | none => (0, empty)

def genconfigGetPvalue (items : List Item) (tag : CString) : Option CString :=
  (items.find? (hasTag tag)).map Item.text

/-- A string up to its first CR or LF. -/
def cutLine (value : CString) : CString := (value.cutAt carriageReturn).cutAt lf

/-- The loop of the setters: rewrite the first item with the tag, or append one. -/
def setFirst (items : List Item) (tag text : CString) (rewrite : Item → Item) : Option (Int × List Item) :=
  match items.find? (hasTag tag) with
  | some _ => some (1, updateFirst (hasTag tag) rewrite items)
  | none => (additemLl tag text).map fun item => (0, items ++ [item])

def genconfigSetValue (items : List Item) (tag : CString) (value : Option CString) : Option (Int × List Item) :=
  match value with
  | none => some (-1, items)
  | some value => setFirst items tag (cutLine value) (·.put (cutLine value))

section

variable (value : Int32)

theorem zero_notMem_natAbs : 0 ∉ digits 10 value.toInt.natAbs := zero_notMem_digits 10 value.toInt.natAbs

theorem zero_notMem_minus : 0 ∉ 45 :: digits 10 value.toInt.natAbs := by simpa using zero_notMem_natAbs value

theorem minus_fits : (45 :: digits 10 value.toInt.natAbs).length < maxValueLen := by
  have := digits_length 10 value.toInt.natAbs
  simp only [List.length_cons, maxValueLen, maxItemLen]
  omega

theorem natAbs_fits : (digits 10 value.toInt.natAbs).length < maxValueLen := Nat.lt_of_succ_lt (minus_fits value)

/-- `sprintf(..., "%d", value)`: a 32-bit number has at most ten digits. -/
def decimal : CharArray maxValueLen :=
  let body := digits 10 value.toInt.natAbs
  if value.toInt < 0 then ⟨⟨45 :: body, zero_notMem_minus value⟩, minus_fits value⟩
  else ⟨⟨body, zero_notMem_natAbs value⟩, natAbs_fits value⟩

end

/-- An item that has a separate string keeps it: the number goes to the array. -/
def genconfigSetIntvalue (items : List Item) (tag : CString) (value : Int32) : Option (Int × List Item) :=
  setFirst items tag (decimal value).toCString fun item => { item with value := decimal value }

/-- The tag up to its first `+`. -/
def baseTag (tag : CString) : CString := tag.cutAt plus

/-- The loop of `genconfig_set_index_value`; `none` when it ends without a match. -/
def setIndexLoop (tag : CString) (idx : Int) (value : CString) : Int → List Item → Option (List Item)
  | _, [] => none
  | i, item :: rest =>
    if baseTag item.tag.toCString = tag then
      if i = idx then some (item.put value :: rest)
      else if i + 1 > idx then none
      else (setIndexLoop tag idx value (i + 1) rest).map (item :: ·)
    else (setIndexLoop tag idx value i rest).map (item :: ·)

def genconfigSetIndexValue (items : List Item) (itag : CString) (idx : Int)
    (value : Option CString) : Option (Int × List Item) :=
  match value with
  | none => some (-1, items)
  | some value => do
    let itag ← strcpy maxItemLen itag
    let tag := baseTag itag.toCString
    match setIndexLoop tag idx value 0 items with
    | some items => some (1, items)
    | none => (additemLl tag value).map fun item => (0, items ++ [item])

/-! ## Directly on a file -/

/-- The file after `genconfig_set_value_direct`. -/
def genconfigSetValueDirect (file : Option (List UInt8)) (tag : CString) (value : Option CString) :
    Option (List UInt8) := do
  let items ← genconfigReadFile file
  let (_, items) ← genconfigSetValue items tag value
  some (genconfigWriteFile items)

def genconfigGetValueDirect (file : Option (List UInt8)) (tag : CString) : Option (Int × CString) := do
  let items ← genconfigReadFile file
  some (genconfigGetValue items tag)

end RouterApps.GenConfig
