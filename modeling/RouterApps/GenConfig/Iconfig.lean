/-
# GenConfig.Iconfig -- calls on a configuration file (genconfig_api.c, cconfig_api.c)

Every call takes the lock of its file, reads the file, and unlocks after it has
written the file or found nothing to write.  `Section` is what happens in between, as
a function of the file: the file that is written, if any, and the return value;
`none` is the write past a tag array.  The `iconfig_` functions are the `genconfig_`
ones on the integrated configuration file, so the file stays a parameter.
-/
import RouterApps.GenConfig.Store

namespace RouterApps.GenConfig

open CLib Theory.Table

/-- A configuration file; `none` when it cannot be opened for reading. -/
abbrev File := Option (List UInt8)

/-- What a call does while it holds the lock. -/
abbrev Section := File → Option (Option (List UInt8) × Int)

def fileAfter (call : Section) (file : File) : Option File :=
  (call file).map fun (written, _) => (written.map some).getD file

theorem fileAfter_written {call : Section} {file : File} {written : List UInt8} {ret : Int}
    (called : call file = some (some written, ret)) : fileAfter call file = some (some written) := by
  rw [fileAfter, called]
  rfl

/-! ## Setting values -/

/-- Read the file, change the items, write the file; the setter's own return value is
dropped. -/
def setDirect (set : List Item → Option (Int × List Item)) : Section := fun file => do
  let items ← genconfigReadFile file
  let (_, items) ← set items
  some (some (genconfigWriteFile items), 0)

def iconfigSetValueDirect (tag : CString) (value : Option CString) : Section :=
  setDirect fun items => genconfigSetValue items tag value

def iconfigSetIndexValueDirect (tag : CString) (idx : Int) (value : Option CString) : Section :=
  setDirect fun items => genconfigSetIndexValue items tag idx value

/-! ## Reading values -/

/-- The return value and what is copied to `value`. -/
def iconfigGetValueDirect (file : File) (tag : CString) : Option (Int × CString) := do
  let items ← genconfigReadFile file
  let (found, value) := genconfigGetValue items tag
  some (if found = 0 then (-1, value) else (0, value))

/-- The loop of `genconfig_get_index_value`. -/
def getIndexLoop (tag : CString) (idx : Int) : Int → List Item → Option CString
  | _, [] => none
  | i, item :: rest =>
    if baseTag item.tag.toCString = tag then
      if i = idx then some item.text
      else if i + 1 > idx then none
      else getIndexLoop tag idx (i + 1) rest
    else getIndexLoop tag idx i rest

def genconfigGetIndexValue (items : List Item) (itag : CString) (idx : Int) :
    Option (Int × CString) := do
  let itag ← strcpy maxItemLen itag
  match getIndexLoop (baseTag itag.toCString) idx 0 items with
  | some value => some (1, value)
  | none => some (0, CString.empty)

def iconfigGetIndexValueDirect (file : File) (tag : CString) (idx : Int) :
    Option (Int × CString) := do
  let items ← genconfigReadFile file
  let (found, value) ← genconfigGetIndexValue items tag idx
  some (if found = 0 then (-1, value) else (0, value))

/-! ## Removing items -/

/-- Take one item out of the list and write the file, or leave the file alone if there
is no such item. -/
def removeDirect (remove : List Item → Option (Option (List Item))) : Section := fun file => do
  let items ← genconfigReadFile file
  match ← remove items with
  | none => some (none, 0)
  | some items => some (some (genconfigWriteFile items), 1)

def removeFirst (tag : CString) (items : List Item) : Option (List Item) :=
  match items.find? (hasTag tag) with
  | none => none
  | some _ => some (items.eraseP (hasTag tag))

def genconfigRemoveItem (tag : CString) : Section := removeDirect fun items => some (removeFirst tag items)

def iconfigMakeDefault (tag : CString) : Section := removeDirect fun items => some (removeFirst tag items)

/-- The loop of `genconfig_remove_index_item`. -/
def removeIndexLoop (tag : CString) (idx : Int) : Int → List Item → Option (List Item)
  | _, [] => none
  | i, item :: rest =>
    if baseTag item.tag.toCString = tag then
      if i = idx then some rest
      else (removeIndexLoop tag idx (i + 1) rest).map (item :: ·)
    else (removeIndexLoop tag idx i rest).map (item :: ·)

def genconfigRemoveIndexItem (idx : Int) (itag : CString) : Section :=
  removeDirect fun items => (strcpy maxItemLen itag).map fun itag =>
    removeIndexLoop (baseTag itag.toCString) idx 0 items

/-- `!strncmp(citem->tag, tag_prefix, strlen(tag_prefix))`. -/
def startsWith (start : CString) (tag : CString) : Bool := start.bytes.isPrefixOf tag.bytes

def iconfigRemoveTagPrefix (start : CString) : Section := fun file => do
  let items ← genconfigReadFile file
  some (some (genconfigWriteFile (items.filter fun item => !startsWith start item.tag.toCString)), 0)

end RouterApps.GenConfig
