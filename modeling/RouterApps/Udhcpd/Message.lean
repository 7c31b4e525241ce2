/-
# Udhcpd.Message -- the options of a message (options.c, packet.h)

`get_option` walks through the option field of a message, and then, if an overload option
says so, through the `file` and `sname` fields.  It checks that the data of an option is
inside its field, but it reads a length byte or the value of an overload option without
that check, so what it sees can lie behind the field and even behind the message.  An
`Image` is therefore the memory from the message on, of which the message is the first 548
bytes.

The walk ends: each turn gets further in a field or goes on to the next one
(`getOptionFrom_of_enough`).
-/
import RouterApps.Udhcpd.Server

namespace RouterApps.Udhcpd

open CLib

/-- The bytes at and behind a `struct dhcpMessage`. -/
abbrev Image := Nat → UInt8

/-- The bytes of a part of the message. -/
def Image.bytes (image : Image) (offset length : Nat) : List UInt8 := (List.range length).map fun k => image (offset + k)

variable (image : Image)

@[simp] theorem Image.bytes_length (offset length : Nat) : (image.bytes offset length).length = length := by
  simp [Image.bytes]

/-! ## get_option -/

/-- The fields that can hold options: `OPTION_FIELD`, `FILE_FIELD`, `SNAME_FIELD`. -/
inductive Area where
  | options
  | file
  | sname
deriving DecidableEq

/-- Where the field is in the message. -/
def Area.base : Area → Nat
  | .options => 240
  | .file => 108
  | .sname => 44

def Area.length : Area → Nat
  | .options => 308
  | .file => 128
  | .sname => 64

def dhcpPadding : UInt8 := 0x00

def dhcpOptionOver : UInt8 := 0x34

def dhcpEnd : UInt8 := 0xFF

/-- The field that follows at the end of one, if the overload option `over` says so. -/
def Area.next (overload : UInt8) : Area → Option Area
  | .options => if overload &&& 1 ≠ 0 then some .file else none
  | .file => if overload &&& 2 ≠ 0 then some .sname else none
  | .sname => none

/-- The loop of `get_option` at position `i` of a field: the offset of the data in the message and
its length. -/
def getOptionFrom (image : Image) (code : UInt8) : Nat → Area → Nat → UInt8 → Option (Nat × Nat)
  | 0, _, _, _ => none
  | fuel + 1, area, i, overload =>
    let optionptr (k : Nat) : UInt8 := image (area.base + k)
    if i ≥ area.length then none
    else if optionptr i = code then
      if i + 1 + (optionptr (i + 1)).toNat ≥ area.length then none
      else some (area.base + i + 2, (optionptr (i + 1)).toNat)
    else if optionptr i = dhcpPadding then getOptionFrom image code fuel area (i + 1) overload
    else if optionptr i = dhcpOptionOver then
      if i + 1 + (optionptr (i + 1)).toNat ≥ area.length then none
      -- the length that is added is that of the field's first option
      else getOptionFrom image code fuel area (i + (optionptr 1).toNat + 2) (optionptr (i + 3))
    else if optionptr i = dhcpEnd then
      match area.next overload with
      | some area => getOptionFrom image code fuel area 0 overload
      | none => none
    else getOptionFrom image code fuel area (i + (optionptr (i + 1)).toNat + 2) overload

/-- A bound on the turns that are left. -/
def Area.turns : Area → Nat → Nat
  | .options, i => (308 - i) + 1 + (128 + 1) + (64 + 1)
  | .file, i => (128 - i) + 1 + (64 + 1)
  | .sname, i => (64 - i) + 1

def getOption (image : Image) (code : UInt8) : Option (Nat × Nat) :=
  getOptionFrom image code (Area.turns .options 0) .options 0 0

variable {area : Area}

theorem Area.turns_lt {i j : Nat} (inside : i < area.length) (further : i < j) :
    area.turns j < area.turns i := by
  cases area <;> simp only [Area.turns, Area.length] at inside ⊢ <;> omega

theorem Area.turns_next {area' : Area} {overload : UInt8} (follows : area.next overload = some area') (i : Nat) :
    area'.turns 0 < area.turns i := by
  cases area with
  | options | file =>
    simp only [Area.next] at follows
    split at follows
    · obtain rfl := Option.some.inj follows
      simp only [Area.turns]
      omega
    · cases follows
  | sname => cases follows

theorem getOptionFrom_of_enough (code : UInt8) {fuel fuel' : Nat} {i : Nat} (overload : UInt8)
    (enough : area.turns i ≤ fuel) (enough' : area.turns i ≤ fuel') :
    getOptionFrom image code fuel area i overload = getOptionFrom image code fuel' area i overload := by
  induction fuel generalizing fuel' area i overload with
  | zero => cases area <;> simp [Area.turns] at enough
  | succ fuel ih =>
    cases fuel' with
    | zero => cases area <;> simp [Area.turns] at enough'
    | succ fuel' =>
      simp only [getOptionFrom]
      by_cases past : i ≥ area.length
      · rw [if_pos past, if_pos past]
      · have further j (lt : i < j) o :
            getOptionFrom image code fuel area j o = getOptionFrom image code fuel' area j o := by
          have := Area.turns_lt (Nat.lt_of_not_le past) lt
          exact ih o (by omega) (by omega)
        have onward : (match area.next overload with
            | some area => getOptionFrom image code fuel area 0 overload
            | none => none) = match area.next overload with
            | some area => getOptionFrom image code fuel' area 0 overload
            | none => none := by
          cases follows : area.next overload with
          | none => rfl
          | some area' =>
            have := Area.turns_next follows i
            exact ih overload (by omega) (by omega)
        rw [further (i + 1) (by omega), further (i + (image (area.base + 1)).toNat + 2) (by omega),
          further (i + (image (area.base + (i + 1))).toNat + 2) (by omega), onward]

/-- The first four bytes of an option's data, as a word; the length is not looked at. -/
def Image.optionWord (image : Image) (code : UInt8) : Option UInt32 :=
  (getOption image code).map fun found => leWord (image.bytes found.1 4)

/-- The message as the handlers read it. -/
def Packet.ofImage (image : Image) : Packet where
  chaddr := ⟨image.bytes 28 16, Image.bytes_length _ _ _⟩
  ciaddr := leWord (image.bytes 12 4)
  state := (getOption image 0x35).map fun found => image found.1
  requested := image.optionWord 0x32
  serverId := image.optionWord 0x36
  leaseTime := image.optionWord 0x33
  hostName := ((getOption image 0x0c).map fun found => image.bytes found.1 found.2).getD []

end RouterApps.Udhcpd
