/-
# Udhcpd.Options -- the options of the configuration file (files.c, options.c)

`read_opt` takes the value of an `option` line apart: the name of an option, then one value, or
several for an option that may be a list.  Each value that can be read is attached to the options
that the server has so far, which are sorted by their code.  A second value for an option that is
no list is ignored (`findOption_readOpt`), so the first one that is accepted counts.
-/
import RouterApps.Theory.Table
import RouterApps.CLib.Stream
import RouterApps.CLib.Text

namespace RouterApps.Udhcpd

open CLib Theory.Table Option CString

/-! ## The table of options -/

/-- The types that `TYPE_MASK` selects. -/
inductive OptionType where
  | ip | ipPair | string | boolean | u8 | u16 | s16 | u32 | s32
deriving DecidableEq

/-- `struct dhcp_option`; `list` is the flag `OPTION_LIST`. -/
structure DhcpOption where
  name : CString
  type : OptionType
  list : Bool
  code : UInt8
deriving DecidableEq

private def optionOf (name : List Char) (type : OptionType) (list : Bool) (code : UInt8) : DhcpOption :=
  ⟨ofBuffer (ascii name), type, list, code⟩

def dhcpLeaseTime : UInt8 := 0x33

def leaseOption : DhcpOption := optionOf ['l', 'e', 'a', 's', 'e'] .u32 false dhcpLeaseTime

def options : List DhcpOption :=
  [optionOf ['s', 'u', 'b', 'n', 'e', 't'] .ip false 0x01,
    optionOf ['t', 'i', 'm', 'e', 'z', 'o', 'n', 'e'] .s32 false 0x02,
    optionOf ['r', 'o', 'u', 't', 'e', 'r'] .ip true 0x03,
    optionOf ['t', 'i', 'm', 'e', 's', 'v', 'r'] .ip true 0x04,
    optionOf ['n', 'a', 'm', 'e', 's', 'v', 'r'] .ip true 0x05,
    optionOf ['d', 'n', 's'] .ip true 0x06,
    optionOf ['l', 'o', 'g', 's', 'v', 'r'] .ip true 0x07,
    optionOf ['c', 'o', 'o', 'k', 'i', 'e', 's', 'v', 'r'] .ip true 0x08,
    optionOf ['l', 'p', 'r', 's', 'v', 'r'] .ip true 0x09,
    optionOf ['h', 'o', 's', 't', 'n', 'a', 'm', 'e'] .string false 0x0c,
    optionOf ['b', 'o', 'o', 't', 's', 'i', 'z', 'e'] .u16 false 0x0d,
    optionOf ['d', 'o', 'm', 'a', 'i', 'n'] .string false 0x0f,
    optionOf ['s', 'w', 'a', 'p', 's', 'v', 'r'] .ip false 0x10,
    optionOf ['r', 'o', 'o', 't', 'p', 'a', 't', 'h'] .string false 0x11,
    optionOf ['i', 'p', 't', 't', 'l'] .u8 false 0x17,
    optionOf ['m', 't', 'u'] .u16 false 0x1a,
    optionOf ['b', 'r', 'o', 'a', 'd', 'c', 'a', 's', 't'] .ip false 0x1c,
    optionOf ['d', 'i', 's', 'c', 'o', 'v', 'e', 'r', 'y'] .u8 false 0x1f,
    optionOf ['n', 't', 'p', 's', 'r', 'v'] .ip true 0x2a,
    optionOf ['w', 'i', 'n', 's'] .ip true 0x2c,
    optionOf ['r', 'e', 'q', 'u', 'e', 's', 't', 'i', 'p'] .ip false 0x32,
    leaseOption,
    optionOf ['d', 'h', 'c', 'p', 't', 'y', 'p', 'e'] .u8 false 0x35,
    optionOf ['s', 'e', 'r', 'v', 'e', 'r', 'i', 'd'] .ip false 0x36,
    optionOf ['m', 'e', 's', 's', 'a', 'g', 'e'] .string false 0x38,
    optionOf ['t', 'f', 't', 'p'] .string false 0x42,
    optionOf ['b', 'o', 'o', 't', 'f', 'i', 'l', 'e'] .string false 0x43]

/-- The loop over the table keeps the last option of that name. -/
def optionNamed (opt : CString) : Option DhcpOption := (options.filter (·.name = opt)).getLast?

/-! ## The options that are set -/

/-- `struct option_set`: the code, and the data behind the length byte. -/
structure OptionSet where
  code : UInt8
  data : List UInt8
deriving DecidableEq

/-- Find option `code` in the list. -/
def findOption (code : UInt8) : List OptionSet → Option OptionSet
  | [] => none
  | o :: rest => if o.code < code then findOption code rest else if o.code = code then some o else none

/-- The new option goes before the first one whose code is not less. -/
def insertOption (new : OptionSet) : List OptionSet → List OptionSet
  | [] => [new]
  | o :: rest => if o.code < new.code then o :: insertOption new rest else new :: o :: rest

def attachOption (option : DhcpOption) (buffer : List UInt8) (optList : List OptionSet) : List OptionSet :=
  match findOption option.code optList with
  | some existing =>
    if option.list ∧ existing.data.length + buffer.length ≤ 255 then
      updateFirst (fun o => o.code = option.code) (fun o => { o with data := o.data ++ buffer }) optList
    else optList
  | none => insertOption ⟨option.code, buffer⟩ optList

/-! ## Reading the values -/

/-- An address, or a name that `gethostbyname` resolves. -/
def readIp (resolve : CString → Option UInt32) (line : CString) : Option UInt32 :=
  match inetAton line with
  | some addr => some addr
  | none => resolve line

def readYn (line : CString) : Option Bool :=
  if sameLetters (ofBuffer (ascii ['y', 'e', 's'])) line then some true
  else if sameLetters (ofBuffer (ascii ['n', 'o'])) line then some false
  else none

/-- The value of a number, if it takes up the text. -/
def whole {α : Type} (read : α × List UInt8) : Option α := if read.2 = [] then some read.1 else none

/-- A 16-bit number in network order. -/
def netShort (n : UInt32) : List UInt8 := [UInt8.ofNat (n.toNat / 256), UInt8.ofNat n.toNat]

/-- `", \t"`. -/
def valueDelims : List UInt8 := [44, 32, 9]

/-- The `switch` on the type of the option: the bytes of the value, and the line behind it. -/
def readValue (resolve : CString → Option UInt32) (type : OptionType) (val rest : CString) :
    Option (List UInt8) × CString :=
  match type with
  | .ip => ((readIp resolve val).map leBytes, rest)
  | .ipPair =>
    match rest.strtok (valueDelims ++ [47, 45]) with
    | some (second, rest) =>
      ((readIp resolve val).bind fun a => (readIp resolve second).map fun b => leBytes a ++ leBytes b, rest)
    | none => (none, empty)
  | .string => (if val.bytes = [] then none else some (val.bytes.take 254), rest)
  | .boolean => ((readYn val).map fun b => [if b then 1 else 0], rest)
  | .u8 => ((whole (strtoul val)).map fun n => [UInt8.ofNat n.toNat], rest)
  | .u16 => ((whole (strtoul val)).map netShort, rest)
  | .s16 => ((whole (strtol val)).map fun n => netShort n.toUInt32, rest)
  | .u32 => ((whole (strtoul val)).map fun n => leBytes (htonl n), rest)
  | .s32 => ((whole (strtol val)).map fun n => leBytes (htonl n.toUInt32), rest)

/-- The loop over the values, each of which takes at least one byte of the line. -/
def readValues (resolve : CString → Option UInt32) (option : DhcpOption) :
    Nat → Bool → CString → List OptionSet → Bool × List OptionSet
  | 0, retval, _, optList => (retval, optList)
  | fuel + 1, retval, line, optList =>
    match line.strtok valueDelims with
    | none => (retval, optList)
    | some (val, rest) =>
      match readValue resolve option.type val rest with
      | (some buffer, rest) =>
        let optList := attachOption option buffer optList
        if option.list then readValues resolve option fuel true rest optList else (true, optList)
      | (none, _) => (false, optList)

def readOpt (resolve : CString → Option UInt32) (line : CString) (optList : List OptionSet) : Bool × List OptionSet :=
  match line.strtok [32, 9, 61] with
  | none => (false, optList)
  | some (opt, rest) =>
    match optionNamed opt with
    | none => (false, optList)
    | some option => readValues resolve option (rest.bytes.length + 1) false rest optList

/-! ## What a line does to an option -/

section

variable {code : UInt8} {optList : List OptionSet}

theorem findOption_insertOption_of_ne {new : OptionSet} (other : new.code ≠ code) :
    findOption code (insertOption new optList) = findOption code optList := by
  induction optList with
  | nil => simp [insertOption, findOption, other]
  | cons o rest ih =>
    simp only [insertOption]
    split
    · simp only [findOption, ih]
    · rename_i notLess
      simp only [findOption]
      by_cases less : new.code < code
      · rw [if_pos less]
      · -- both the new option and the one behind it have a greater code
        have greater : ¬ o.code < code := fun lt => less (UInt8.lt_of_le_of_lt (UInt8.not_lt.1 notLess) lt)
        have apart : o.code ≠ code := by
          rintro rfl
          exact other (UInt8.le_antisymm (UInt8.not_lt.1 notLess) (UInt8.not_lt.1 less))
        rw [if_neg less, if_neg other, if_neg greater, if_neg apart]

theorem findOption_insertOption (buffer : List UInt8) (absent : findOption code optList = none) :
    findOption code (insertOption ⟨code, buffer⟩ optList) = some ⟨code, buffer⟩ := by
  induction optList with
  | nil => simp [insertOption, findOption]
  | cons o rest ih =>
    simp only [insertOption]
    split
    · rename_i less
      rw [findOption, if_pos less] at absent ⊢
      exact ih absent
    · simp [findOption]

theorem findOption_updateFirst {other : UInt8} (ne : other ≠ code) {f : OptionSet → OptionSet}
    (same : ∀ o, (f o).code = o.code) :
    findOption code (updateFirst (fun o => o.code = other) f optList) = findOption code optList := by
  induction optList with
  | nil => rfl
  | cons o rest ih =>
    simp only [updateFirst]
    split
    · rename_i hit
      have apart : o.code ≠ code := fun e => ne ((of_decide_eq_true hit).symm.trans e)
      simp only [findOption, same, if_neg apart]
    · simp only [findOption, ih]

variable {option : DhcpOption}

theorem findOption_attachOption_of_ne (other : option.code ≠ code) (buffer : List UInt8) :
    findOption code (attachOption option buffer optList) = findOption code optList := by
  unfold attachOption
  split
  · split
    · exact findOption_updateFirst other fun _ => rfl
    · rfl
  · exact findOption_insertOption_of_ne other

theorem findOption_attachOption (single : option.list = false) (buffer : List UInt8) :
    findOption option.code (attachOption option buffer optList) =
      (findOption option.code optList).or (some ⟨option.code, buffer⟩) := by
  unfold attachOption
  split
  · rename_i existing found
    rw [if_neg (by simp [single]), found]
    rfl
  · rename_i absent
    rw [findOption_insertOption buffer absent, absent]
    rfl

theorem findOption_readValues_of_ne (other : option.code ≠ code)
    (resolve : CString → Option UInt32) (fuel : Nat) (retval : Bool) (line : CString) :
    findOption code (readValues resolve option fuel retval line optList).2 = findOption code optList := by
  induction fuel generalizing retval line optList with
  | zero => rfl
  | succ fuel ih =>
    simp only [readValues]
    split
    · rfl
    · split
      · rename_i buffer rest _
        have attached : findOption code (attachOption option buffer optList) = findOption code optList :=
          findOption_attachOption_of_ne other buffer
        split
        · exact (ih true rest).trans attached
        · exact attached
      · rfl

theorem readValues_single (single : option.list = false) (resolve : CString → Option UInt32)
    (fuel : Nat) (line : CString) :
    (readValues resolve option (fuel + 1) false line optList).2 =
      match (line.strtok valueDelims).bind fun found => (readValue resolve option.type found.1 found.2).1 with
      | some buffer => attachOption option buffer optList
      | none => optList := by
  simp only [readValues]
  split
  · rename_i ended
    rw [ended]
    rfl
  · rename_i val rest found
    rw [found, bind_some]
    rcases readValue resolve option.type val rest with ⟨_ | buffer, rest⟩
    · rfl
    · simp only [single]
      rfl

end

theorem optionNamed_eq_some {opt : CString} {option : DhcpOption} (named : optionNamed opt = some option) :
    option ∈ options ∧ option.name = opt := by
  have inside := List.mem_of_getLast? named
  simpa using inside

theorem eq_leaseOption : ∀ option ∈ options, option.code = dhcpLeaseTime → option = leaseOption := by decide

/-- The lease time that a line sets, if it is accepted. -/
def leaseValue (line : CString) : Option UInt32 :=
  (line.strtok [32, 9, 61]).bind fun named =>
    if named.1 = leaseOption.name then (named.2.strtok valueDelims).bind fun found => whole (strtoul found.1)
    else none

/-- The lease time after a line is the one before it, or else the one that the line sets. -/
theorem findOption_readOpt (resolve : CString → Option UInt32) (line : CString) (optList : List OptionSet) :
    findOption dhcpLeaseTime (readOpt resolve line optList).2 =
      (findOption dhcpLeaseTime optList).or
        ((leaseValue line).map fun value => ⟨dhcpLeaseTime, leBytes (htonl value)⟩) := by
  unfold readOpt leaseValue
  split
  · rename_i ended
    simp [ended]
  · rename_i opt rest found
    rw [found, bind_some]
    split
    · rename_i unknown
      have other : opt ≠ leaseOption.name := by
        rintro rfl
        revert unknown
        decide
      simp [other]
    · rename_i option named
      obtain ⟨inside, rfl⟩ := optionNamed_eq_some named
      by_cases code : option.code = dhcpLeaseTime
      · obtain rfl := eq_leaseOption option inside code
        rw [readValues_single rfl]
        rcases rest.strtok valueDelims with _ | ⟨val, rest⟩
        · simp
        · simp only [bind_some]
          show findOption dhcpLeaseTime (match (whole (strtoul val)).map fun n => leBytes (htonl n) with
            | some buffer => attachOption leaseOption buffer optList
            | none => optList) = _
          rcases whole (strtoul val) with _ | value
          · simp
          · have single : leaseOption.list = false := rfl
            exact findOption_attachOption single _
      · have other : option.name ≠ leaseOption.name := by
          intro same
          rw [same] at named
          exact code (congrArg DhcpOption.code (Option.some.inj ((show optionNamed leaseOption.name = some leaseOption by
            decide).symm.trans named))).symm
        rw [findOption_readValues_of_ne code, if_neg other]
        simp

end RouterApps.Udhcpd
