/-
# Pforward.Rules -- port-forward rules, one file a chain (pforward.c)

The rules of a chain are the items of a configuration file of its own.  A rule is
stored under its name, and its value repeats the name and holds the other fields with
colons between them.  `create_pforward` looks for the name first, `remove_pforward`
takes the item out and then deletes a file that has become empty.

Every string is cut to the size of its array when it is stored, but the name is not
cut when it is looked up.  The list that `remove_pforward` reads last is never
initialised: reading an item into it is defined only if the head happens to be NULL
(`headNull`).  The `iptables` commands are left out.
-/
import RouterApps.CLib.Fields
import RouterApps.GenConfig.Iconfig

namespace RouterApps.Pforward

open CLib GenConfig

/-! ## Rules -/

/-- `pforward_t`; its flag only matters in a list that is written (`setPforwardList`). -/
structure PforwardT where
  name : CharArray 32
  chain : CharArray 32
  protocol : CharArray 8
  eport : Int32
  ipaddr : CharArray 16
  iport : Int32
deriving DecidableEq

def colon : UInt8 := 58

/-- `none` where the source returns 0. -/
def parsePforward (value : CString) : Option PforwardT := do
  let (name, rest) ← value.strtok [colon]
  let (chain, rest) ← rest.strtok [colon]
  let (protocol, rest) ← rest.strtok [colon]
  let (eport, rest) ← rest.strtok [colon, lf]
  let (ipaddr, rest) ← rest.strtok [colon]
  let (iport, _) ← rest.strtok [colon, lf]
  some
    { name := cutTo 32 name, chain := cutTo 32 chain, protocol := cutTo 8 protocol, eport := atoi eport,
      ipaddr := cutTo 16 ipaddr, iport := atoi iport }

/-- The six fields as text. -/
def PforwardT.texts (pforward : PforwardT) : List CString :=
  [pforward.name.toCString, pforward.chain.toCString, pforward.protocol.toCString,
    formatInt pforward.eport, pforward.ipaddr.toCString, formatInt pforward.iport]

/-- `snprintf(value, 512, "%s:%s:%s:%d:%s:%d", ...)`. -/
def makePforwardValue (pforward : PforwardT) : CString :=
  (cutTo 512 (joinFields colon pforward.texts)).toCString

/-! ## One rule -/

/-- What `set_pforward` does while it holds the lock. -/
def setPforward (name : CString) (pforward : PforwardT) : Section :=
  let pforward := { pforward with name := cutTo 32 name }
  setDirect fun items => genconfigSetValue items pforward.name.toCString (some (makePforwardValue pforward))

/-- The return value, and the rule if it is 1. -/
def getPforward (name : CString) (file : File) : Option (Int × Option PforwardT) := do
  let items ← genconfigReadFile file
  let (ret, text) := genconfigGetValue items name
  let value ← strcpy 512 text
  if ret ≠ 0 then
    match parsePforward value.toCString with
    | some pforward => some (1, some pforward)
    | none => some (0, none)
  else some (ret, none)

/-- The rule that `create_pforward` fills in. -/
def newPforward (chain name protocol : CString) (eport : Int32) (ipaddr : CString) (iport : Int32) : PforwardT where
  name := cutTo 32 name
  chain := cutTo 32 chain
  protocol := cutTo 8 protocol
  eport := eport
  ipaddr := cutTo 16 ipaddr
  iport := iport

/-- The return value and the file. -/
def createPforward (chain name protocol : CString) (eport : Int32) (ipaddr : CString) (iport : Int32)
    (file : File) : Option (Int × File) := do
  let (ret, _) ← getPforward name file
  if ret ≠ 0 then some (-1, file)
  else do
    let file ← fileAfter (setPforward name (newPforward chain name protocol eport ipaddr iport)) file
    some (1, file)

/-- The end of `remove_pforward`: is the file to be deleted?  One that cannot be opened is not
counted as empty. -/
def isEmptied (headNull : Bool) (file : File) : Option Bool :=
  match file with
  | none => some false
  | some contents =>
    if parse contents = [] then some true
    else if headNull then (genconfigReadFile file).map fun _ => false
    else none

/-- The return value and the file. -/
def removePforward (headNull : Bool) (name : CString) (file : File) : Option (Int × File) := do
  let (ret, _) ← getPforward name file
  if ret ≤ 0 then some (-1, file)
  else do
    let file ← fileAfter (genconfigRemoveItem name) file
    let emptied ← isEmptied headNull file
    some (1, if emptied then none else file)

/-! ## All rules -/

/-- What the loop of `get_pforward_list` makes of a line: the rule behind the first `=`. -/
def parseRuleLine (buffer : List UInt8) : Option PforwardT :=
  match (CString.ofBuffer buffer).bytes.dropWhile (· != equals) with
  | [] => none
  | _ :: value => parsePforward (CString.ofBuffer value)

/-- The list that is built; each rule is put in front of the ones before. -/
def rulesOf (contents : List UInt8) : List PforwardT :=
  ((fgetsAll 512 contents).filterMap parseRuleLine).reverse

/-- A file that cannot be opened gives an empty list. -/
def getPforwardList (file : File) : List PforwardT :=
  match file with
  | none => []
  | some contents => rulesOf contents

/-- `PFORWARD_REMOVE_FLAG`. -/
def removeFlag : UInt32 := 1

/-- The file that `set_pforward_list` writes for a list of rules with their flags. -/
def setPforwardList (list : List (PforwardT × UInt32)) : List UInt8 :=
  ((list.filter fun (_, flag) => flag &&& removeFlag = 0).map fun (pforward, _) =>
    line pforward.name.toCString (makePforwardValue pforward)).flatten

end RouterApps.Pforward
