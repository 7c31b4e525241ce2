/-
# CLib.Memory -- strings, fixed arrays and words as C keeps them

* `CString` is the content of a NUL-terminated string: a byte list without NUL.
* `CharArray cap` is a `char[cap]` that holds a terminated string, so its content
  is shorter than `cap`.  `strcpy` into it has a result only when the source
  fits; `none` is the overflow, about which nothing is assumed.
* `Block n` is a block of `n` bytes, compared and cleared as a whole, or an array with
  any content, into which strings are copied.
* `leBytes`/`leWord` are the memory image of a 32-bit word on a little-endian
  machine, and `ntohl`/`htonl` reverse it.
-/
import Mathlib

namespace RouterApps.CLib

open List

/-! ## Strings -/

variable {bytes : List UInt8} (x : UInt32) (rest : List UInt8) {b : UInt8}

theorem takeWhile_ne_eq_self_iff : bytes.takeWhile (· != b) = bytes ↔ b ∉ bytes := by
  rw [takeWhile_eq_self_iff]
  constructor
  · intro all inside
    simpa using all b inside
  · intro absent c inside
    have other : c ≠ b := fun same => absent (same ▸ inside)
    simpa using other

/-- The bytes of a NUL-terminated string, without the terminator. -/
@[ext] structure CString where
  bytes : List UInt8
  nulFree : (0 : UInt8) ∉ bytes
deriving DecidableEq

namespace CString

def empty : CString := ⟨[], by simp⟩

/-- The string that starts at the front of a buffer. -/
def ofBuffer (buffer : List UInt8) : CString :=
  ⟨buffer.takeWhile (· != 0), fun member => by simpa using mem_takeWhile_imp member⟩

theorem ofBuffer_of_nulFree {buffer : List UInt8} (nulFree : (0 : UInt8) ∉ buffer) : (ofBuffer buffer).bytes = buffer :=
  takeWhile_ne_eq_self_iff.2 nulFree

theorem length_le_ofBuffer_append_iff {buffer behind : List UInt8} :
    buffer.length ≤ (ofBuffer (buffer ++ behind)).bytes.length ↔ (0 : UInt8) ∉ buffer := by
  have atMost := ( takeWhile_prefix (fun b : UInt8 => b != 0) (l := buffer)).length_le
  simp only [ofBuffer, takeWhile_append]
  split
  · rename_i whole
    have nulFree := takeWhile_ne_eq_self_iff.1 (( takeWhile_prefix _).eq_of_length whole)
    refine iff_of_true ?_ nulFree
    rw [length_append]
    exact Nat.le_add_right _ _
  · rename_i cut
    refine iff_of_false (by omega) fun nulFree => cut ?_
    rw [takeWhile_ne_eq_self_iff.2 nulFree]

theorem ofBuffer_append_nul (s : CString) (rest : List UInt8) : ofBuffer (s.bytes ++ 0 :: rest) = s := by
  ext1
  have all := takeWhile_eq_self_iff.1 (takeWhile_ne_eq_self_iff.2 s.nulFree)
  simp only [ofBuffer]
  rw [takeWhile_append_of_pos all]
  simp

end CString

def ascii (text : List Char) : List UInt8 := text.map fun c => UInt8.ofNat c.toNat

/-! ## Deciding

Bytes are finitely many, but a statement about the bytes of a text is decided on the text. -/

instance (priority := high) decidableForallMemBytes (p : UInt8 → Prop) [DecidablePred p] (bytes : List UInt8) :
    Decidable (∀ b ∈ bytes, p b) := decidableBAll p bytes

instance (priority := high) decidableForallMemByte (p : UInt8 → Prop) [DecidablePred p] (byte : Option UInt8) :
    Decidable (∀ b ∈ byte, p b) := Option.decidableForallMem byte

/-! ## Arrays -/

/-- A `char[cap]` that holds a terminated string. -/
@[ext] structure CharArray (cap : Nat) extends CString where
  fits : bytes.length < cap
deriving DecidableEq

/-- `strcpy` into a `char[cap]`; `none` when it writes past the array. -/
def strcpy (cap : Nat) (src : CString) : Option (CharArray cap) :=
  if fits : src.bytes.length < cap then some ⟨src, fits⟩ else none

variable {cap : Nat} {src : CString}

theorem strcpy_eq_some (fits : src.bytes.length < cap) : strcpy cap src = some ⟨src, fits⟩ := dif_pos fits

theorem strcpy_eq_none (overflow : ¬ src.bytes.length < cap) : strcpy cap src = none := dif_neg overflow

instance neZero_eight : NeZero 8 := ⟨by decide⟩

instance neZero_sixteen : NeZero 16 := ⟨by decide⟩

instance neZero_thirtyTwo : NeZero 32 := ⟨by decide⟩

/-- What `snprintf` and a bounded copy leave in an array: as much of the string as fits. -/
def cutTo (cap : Nat) [NeZero cap] (src : CString) : CharArray cap :=
  ⟨⟨src.bytes.take (cap - 1), fun zero => src.nulFree (mem_of_mem_take zero)⟩, by
    have := Nat.pos_of_neZero cap
    simp only [length_take]
    omega⟩

theorem cutTo_of_fits [NeZero cap] (fits : src.bytes.length < cap) : (cutTo cap src).toCString = src := by
  ext1
  exact take_of_length_le (Nat.le_sub_one_of_lt fits)

theorem cutTo_self [NeZero cap] (s : CharArray cap) : cutTo cap s.toCString = s :=
  CharArray.ext (congrArg CString.bytes (cutTo_of_fits s.fits))

theorem mem_of_mem_cutTo [NeZero cap] (member : b ∈ (cutTo cap src).bytes) : b ∈ src.bytes := mem_of_mem_take member

/-- A block of `n` bytes. -/
structure Block (n : Nat) where
  bytes : List UInt8
  size : bytes.length = n
deriving DecidableEq

/-- The block `memset` clears to. -/
def Block.zero (n : Nat) : Block n := ⟨replicate n 0, length_replicate⟩

instance (n : Nat) : Inhabited (Block n) := ⟨Block.zero n⟩

section

variable {n : Nat}

/-- The string at the front of a `char` array; all of the array if it has no NUL. -/
def Block.string (b : Block n) : CString := CString.ofBuffer b.bytes

/-- `strcpy` into an array with the given content: what lies behind the terminator
stays as it is. -/
def Block.strcpy (dst : Block n) (src : CString) : Option (Block n) :=
  if fits : src.bytes.length < n then
    some ⟨src.bytes ++ 0 :: dst.bytes.drop (src.bytes.length + 1), by
      have := dst.size
      simp only [length_append, length_cons, length_drop]
      omega⟩
  else none

variable (dst : Block n)

theorem Block.strcpy_eq_some {src : CString} (fits : src.bytes.length < n) :
    ∃ b, dst.strcpy src = some b ∧ b.string = src :=
  ⟨_, dif_pos fits, CString.ofBuffer_append_nul src _⟩

theorem Block.string_of_strcpy {dst b : Block n} {src : CString} (copied : dst.strcpy src = some b) :
    b.string = src := by
  unfold Block.strcpy at copied
  split at copied
  · cases copied
    exact CString.ofBuffer_append_nul src _
  · cases copied

/-- `memcpy` to a place in an array; `none` when it writes past the array. -/
def Block.memcpy (dst : Block n) (start : Nat) (src : List UInt8) : Option (Block n) :=
  if fits : start + src.length ≤ n then
    some ⟨dst.bytes.take start ++ src ++ dst.bytes.drop (start + src.length), by
      have := dst.size
      simp only [length_append, length_take, length_drop]
      omega⟩
  else none

theorem Block.isSome_memcpy (start : Nat) (src : List UInt8) :
    (dst.memcpy start src).isSome = true ↔ start + src.length ≤ n := by
  unfold Block.memcpy
  split <;> simp [*]

end

/-! ## Words -/

/-- The four bytes of a word in memory, least significant first. -/
def leBytes (x : UInt32) : List UInt8 :=
  [UInt8.ofNat x.toNat, UInt8.ofNat (x.toNat / 256), UInt8.ofNat (x.toNat / 65536), UInt8.ofNat (x.toNat / 16777216)]

/-- The word whose memory image is the given four bytes. -/
def leWord : List UInt8 → UInt32
  | [a, b, c, d] =>
    UInt32.ofNat (a.toNat + b.toNat * 256 + c.toNat * 65536 + d.toNat * 16777216)
  | _ => 0

@[simp] theorem leBytes_length : (leBytes x).length = 4 := rfl

theorem take_leBytes_append : (leBytes x ++ rest).take 4 = leBytes x := take_left' (leBytes_length x)

theorem drop_leBytes_append : (leBytes x ++ rest).drop 4 = rest := drop_left' (leBytes_length x)

@[simp] theorem leWord_leBytes : leWord (leBytes x) = x := by
  apply UInt32.toNat_inj.1
  have := x.toNat_lt
  simp only [leWord, leBytes, UInt32.toNat_ofNat', UInt8.toNat_ofNat']
  omega

theorem leBytes_leWord (four : bytes.length = 4) : leBytes (leWord bytes) = bytes := by
  match bytes, four with
  | [a, b, c, d], _ =>
    have := a.toNat_lt
    have := b.toNat_lt
    have := c.toNat_lt
    have := d.toNat_lt
    simp only [leBytes, leWord, cons.injEq, and_true, ← UInt8.toNat_inj, UInt8.toNat_ofNat', UInt32.toNat_ofNat']
    omega

/-- Network to host order on a little-endian machine: the bytes, reversed. -/
def ntohl (x : UInt32) : UInt32 := leWord (leBytes x).reverse

/-- Host to network order is the same exchange. -/
def htonl (x : UInt32) : UInt32 := ntohl x

@[simp] theorem ntohl_ntohl : ntohl (ntohl x) = x := by
  simp only [ntohl]
  rw [leBytes_leWord (by simp), reverse_reverse, leWord_leBytes]

@[simp] theorem ntohl_htonl : ntohl (htonl x) = x := ntohl_ntohl x

end RouterApps.CLib
