/-
# Userland.Base64 -- encoding, and decoding into a buffer of limited size (userland_lib.c)

`Base64encode` writes four letters for three bytes and pads the last group with `=`.  `Base64decode`
counts the letters before the padding, decodes groups of four while the buffer has room for another
three bytes and the NUL, and decodes the last group as far as there is room.

Of an encoded text, this gives the bytes that fit and one NUL, for every size of the buffer
(`base64decode_base64encode`).
-/
import RouterApps.CLib.Memory

namespace RouterApps.Userland

open CLib List Option

/-! ## `Base64encode` -/

def basis64 : List UInt8 :=
  ascii ['A', 'B', 'C', 'D', 'E', 'F', 'G', 'H', 'I', 'J', 'K', 'L', 'M', 'N', 'O', 'P',
    'Q', 'R', 'S', 'T', 'U', 'V', 'W', 'X', 'Y', 'Z', 'a', 'b', 'c', 'd', 'e', 'f',
    'g', 'h', 'i', 'j', 'k', 'l', 'm', 'n', 'o', 'p', 'q', 'r', 's', 't', 'u', 'v',
    'w', 'x', 'y', 'z', '0', '1', '2', '3', '4', '5', '6', '7', '8', '9', '+', '/']

def letter (i : UInt8) : UInt8 := basis64.getD i.toNat 0

/-- `'='` -/
def pad : UInt8 := 61

def encodeGroups : List UInt8 → List UInt8
  | a :: b :: c :: rest =>
    letter ((a >>> 2) &&& 0x3f) :: letter (((a &&& 0x3) <<< 4) ||| ((b &&& 0xf0) >>> 4)) ::
      letter (((b &&& 0xf) <<< 2) ||| ((c &&& 0xc0) >>> 6)) :: letter (c &&& 0x3f) :: encodeGroups rest
  | [a, b] =>
    [letter ((a >>> 2) &&& 0x3f), letter (((a &&& 0x3) <<< 4) ||| ((b &&& 0xf0) >>> 4)),
      letter ((b &&& 0xf) <<< 2), pad]
  | [a] => [letter ((a >>> 2) &&& 0x3f), letter ((a &&& 0x3) <<< 4), pad, pad]
  | [] => []

/-- `none` when the length, which is returned as an `int`, is none. -/
def base64encode (string : List UInt8) : Option (List UInt8) :=
  let encoded := encodeGroups string ++ [0]
  if encoded.length < 2 ^ 31 then some encoded else none

/-! ## `Base64decode` -/

def pr2six : List UInt8 :=
  [64, 64, 64, 64, 64, 64, 64, 64, 64, 64, 64, 64, 64, 64, 64, 64,
    64, 64, 64, 64, 64, 64, 64, 64, 64, 64, 64, 64, 64, 64, 64, 64,
    64, 64, 64, 64, 64, 64, 64, 64, 64, 64, 64, 62, 64, 64, 64, 63,
    52, 53, 54, 55, 56, 57, 58, 59, 60, 61, 64, 64, 64, 64, 64, 64,
    64, 0, 1, 2, 3, 4, 5, 6, 7, 8, 9, 10, 11, 12, 13, 14,
    15, 16, 17, 18, 19, 20, 21, 22, 23, 24, 25, 64, 64, 64, 64, 64,
    64, 26, 27, 28, 29, 30, 31, 32, 33, 34, 35, 36, 37, 38, 39, 40,
    41, 42, 43, 44, 45, 46, 47, 48, 49, 50, 51, 64, 64, 64, 64, 64] ++ List.replicate 128 64

def six (b : UInt8) : UInt8 := pr2six.getD b.toNat 64

/-- `bufin[i]`, looked up; `none` outside the text. -/
def sixAt (bufin : List UInt8) (i : Nat) : Option UInt8 := bufin[i]?.map six

/-- The letters that `while (pr2six[*(bufin++)] <= 63)` passes. -/
def letterCount : List UInt8 → Option Nat
  | [] => none
  | b :: rest => if six b ≤ 63 then (letterCount rest).map (· + 1) else some 0

/-- The three bytes of a group, from the values of two neighbouring letters. -/
def byteOne (p q : UInt8) : UInt8 := (p <<< 2) ||| (q >>> 4)

def byteTwo (p q : UInt8) : UInt8 := (p <<< 4) ||| (q >>> 2)

def byteThree (p q : UInt8) : UInt8 := (p <<< 6) ||| q

/-- A value as an `int`. -/
def asInt (x : Int) : Int := x.bmod (2 ^ 32)

/-- Where the loop of `Base64decode` is. -/
structure Decoder where
  bufin : List UInt8
  cnt : Nat
  nprbytes : Int
  /-- What was written, from the front of the buffer on. -/
  written : List UInt8

/-- `while (cnt + 3 < length && nprbytes > 4)` -/
def decodeLoop (length : Nat) : List UInt8 → Nat → Int → List UInt8 → Option Decoder
  | a :: b :: c :: d :: rest, cnt, nprbytes, written =>
    if (cnt + 3) % 2 ^ 32 < length ∧ 4 < nprbytes then
      decodeLoop length rest ((cnt + 3) % 2 ^ 32) (nprbytes - 4)
        (written ++ [byteOne (six a) (six b), byteTwo (six b) (six c), byteThree (six c) (six d)])
    else some ⟨a :: b :: c :: d :: rest, cnt, nprbytes, written⟩
  | bufin, cnt, nprbytes, written =>
    if (cnt + 3) % 2 ^ 32 < length ∧ 4 < nprbytes then none else some ⟨bufin, cnt, nprbytes, written⟩

/-- `if (cnt + 3 >= length && nprbytes > length - cnt) nprbytes = length - cnt`, compared without sign. -/
def limited (length cnt : Nat) (nprbytes : Int) : Int :=
  let room := ((length : Int) - cnt) % 2 ^ 32
  if length ≤ (cnt + 3) % 2 ^ 32 ∧ room < nprbytes % 2 ^ 32 then asInt room else nprbytes

/-- One of the bytes of the last group, if there are letters for it. -/
def decodeByte (bufin : List UInt8) (byte : UInt8 → UInt8 → UInt8) (i : Nat) (nprbytes : Int) (written : List UInt8) :
    Option (List UInt8) :=
  if i + 1 < nprbytes then do some (written ++ [byte (← sixAt bufin i) (← sixAt bufin (i + 1))]) else some written

/-- The last group and the NUL. -/
def decodeLast (bufin : List UInt8) (nprbytes : Int) (written : List UInt8) : Option (List UInt8) := do
  let written ← decodeByte bufin byteOne 0 nprbytes written
  let written ← decodeByte bufin byteTwo 1 nprbytes written
  let written ← decodeByte bufin byteThree 2 nprbytes written
  some (written ++ [0])

/-- What is written to `bufplain`, and the value returned.  For an `int`, `& 3` is the remainder
modulo 4. -/
def base64decode (length : UInt32) (bufcoded : List UInt8) : Option (List UInt8 × Int) := do
  let nprbytes := asInt (← letterCount bufcoded)
  let nbytesdecoded := (asInt (nprbytes + 3)).tdiv 4 * 3
  let decoder ← decodeLoop length.toNat bufcoded 0 nprbytes []
  let nprbytes := limited length.toNat decoder.cnt decoder.nprbytes
  let written ← decodeLast decoder.bufin nprbytes decoder.written
  some (written, nbytesdecoded - (4 - nprbytes) % 4)

/-! ## One group -/

section

/-- The values of the four letters of a group. -/
def sixOne (a : UInt8) : UInt8 := (a >>> 2) &&& 0x3f

def sixTwo (a b : UInt8) : UInt8 := ((a &&& 0x3) <<< 4) ||| ((b &&& 0xf0) >>> 4)

def sixThree (b c : UInt8) : UInt8 := ((b &&& 0xf) <<< 2) ||| ((c &&& 0xc0) >>> 6)

def sixFour (c : UInt8) : UInt8 := c &&& 0x3f

variable (a b c : UInt8)

theorem byteOne_six : byteOne (sixOne a) (sixTwo a b) = a := by
  apply UInt8.toBitVec_inj.1
  simp only [byteOne, sixOne, sixTwo]
  ext i inside
  interval_cases i <;> simp

theorem byteTwo_six : byteTwo (sixTwo a b) (sixThree b c) = b := by
  apply UInt8.toBitVec_inj.1
  simp only [byteTwo, sixTwo, sixThree]
  ext i inside
  interval_cases i <;> simp

theorem byteThree_six : byteThree (sixThree b c) (sixFour c) = c := by
  apply UInt8.toBitVec_inj.1
  simp only [byteThree, sixThree, sixFour]
  ext i inside
  interval_cases i <;> simp

theorem six_letter_and (s : UInt8) : six (letter (s &&& 0x3f)) = s &&& 0x3f := by
  have all : ∀ i : Nat, i < 64 → six (letter (UInt8.ofNat i)) = UInt8.ofNat i := by decide
  have small : (s &&& 0x3f).toNat < 64 := by
    exact Nat.lt_of_le_of_lt Nat.and_le_right (by decide)
  have same := all _ small
  rwa [UInt8.ofNat_toNat] at same

theorem sixTwo_and : sixTwo a b &&& 0x3f = sixTwo a b := by
  apply UInt8.toBitVec_inj.1
  simp only [sixTwo]
  ext i inside
  interval_cases i <;> simp

theorem sixThree_and : sixThree b c &&& 0x3f = sixThree b c := by
  apply UInt8.toBitVec_inj.1
  simp only [sixThree]
  ext i inside
  interval_cases i <;> simp

@[simp] theorem six_letter_one : six (letter (sixOne a)) = sixOne a := six_letter_and (a >>> 2)

@[simp] theorem six_letter_two : six (letter (sixTwo a b)) = sixTwo a b := by
  rw [← sixTwo_and]
  exact six_letter_and _

@[simp] theorem six_letter_three : six (letter (sixThree b c)) = sixThree b c := by
  rw [← sixThree_and]
  exact six_letter_and _

@[simp] theorem six_letter_four : six (letter (sixFour c)) = sixFour c := six_letter_and c

theorem six_le_of_and {s : UInt8} (masked : s &&& 0x3f = s) : six (letter s) ≤ 63 := by
  rw [← masked, six_letter_and, UInt8.le_iff_toNat_le]
  exact Nat.and_le_right

theorem encodeGroups_three (rest : List UInt8) : encodeGroups (a :: b :: c :: rest) =
      letter (sixOne a) :: letter (sixTwo a b) :: letter (sixThree b c) :: letter (sixFour c) :: encodeGroups rest := rfl

theorem encodeGroups_two :
    encodeGroups [a, b] = [letter (sixOne a), letter (sixTwo a b), letter (sixThree b 0), pad] := by
  simp [encodeGroups, sixOne, sixTwo, sixThree]

theorem encodeGroups_one : encodeGroups [a] = [letter (sixOne a), letter (sixTwo a 0), pad, pad] := by
  simp [encodeGroups, sixOne, sixTwo]

end

/-! ## The letters of a text -/

/-- The number of letters before the padding. -/
def letters (length : Nat) : Nat := length + (length + 2) / 3

theorem letters_add_three (length : Nat) : letters (length + 3) = letters length + 4 := by
  rw [letters, letters]
  omega

variable (x : List UInt8)

theorem encodeGroups_length : (encodeGroups x).length = (x.length + 2) / 3 * 4 := by
  induction x using encodeGroups.induct with
  | case1 a b c rest ih =>
    rw [encodeGroups_three]
    simp only [length_cons]
    omega
  | case2 a b | case3 a => simp [encodeGroups]
  | case4 => rfl

theorem letterCount_encodeGroups : letterCount (encodeGroups x ++ [0]) = some (letters x.length) := by
  have one : ∀ a, six (letter (sixOne a)) ≤ 63 := fun a => six_le_of_and (by simp [sixOne, UInt8.and_assoc])
  have four : ∀ c, six (letter (sixFour c)) ≤ 63 := fun c => six_le_of_and (by simp [sixFour, UInt8.and_assoc])
  have two : ∀ a b, six (letter (sixTwo a b)) ≤ 63 := fun a b => six_le_of_and (sixTwo_and a b)
  have three : ∀ b c, six (letter (sixThree b c)) ≤ 63 := fun b c => six_le_of_and (sixThree_and b c)
  have padding : ¬ six pad ≤ 63 := by decide
  induction x using encodeGroups.induct with
  | case1 a b c rest ih =>
    rw [encodeGroups_three]
    simp only [cons_append, letterCount, if_pos (one a), if_pos (two a b), if_pos (three b c), if_pos (four c), ih,
      length_cons, letters_add_three, map_some]
  | case2 a b =>
    rw [encodeGroups_two]
    simp only [cons_append, letterCount, if_pos (one a), if_pos (two a b), if_pos (three b 0), if_neg padding]
    simp [letters]
  | case3 a =>
    rw [encodeGroups_one]
    simp only [cons_append, letterCount, if_pos (one a), if_pos (two a 0), if_neg padding]
    simp [letters]
  | case4 => rfl

variable {x : List UInt8}

theorem decodeLast_encodeGroups {k : Nat} (few : k ≤ 4) (inside : k ≤ letters x.length) (written : List UInt8) :
    decodeLast (encodeGroups x ++ [0]) k written = some (written ++ (x.take (k - 1) ++ [0])) := by
  match x with
  | a :: b :: c :: rest =>
    rw [encodeGroups_three]
    interval_cases k <;>
      simp [decodeLast, decodeByte, sixAt, byteOne_six, byteTwo_six, byteThree_six]
  | [a, b] =>
    have atMost : k ≤ 3 := by simpa [letters] using inside
    rw [encodeGroups_two]
    interval_cases k <;> simp [decodeLast, decodeByte, sixAt, byteOne_six, byteTwo_six]
  | [a] =>
    have atMost : k ≤ 2 := by simpa [letters] using inside
    rw [encodeGroups_one]
    interval_cases k <;> simp [decodeLast, decodeByte, sixAt, byteOne_six]
  | [] =>
    have none_ : k ≤ 0 := inside
    interval_cases k
    simp [decodeLast, decodeByte]

/-! ## The loop -/

section

variable {length cnt : Nat} (inside : cnt < length) (word : length < 2 ^ 32)

include inside word

/-- The count of letters is lowered to the room that is left, if that is less than a group. -/
theorem limited_eq {left : Nat} (small : left < 2 ^ 31) (wrap : cnt + 3 < 2 ^ 32) :
    limited length cnt left = if length ≤ cnt + 3 then (min left (length - cnt) : Nat) else left := by
  have room : ((length : Int) - cnt) % 2 ^ 32 = (length - cnt : Nat) := by omega
  have letters_ : (left : Int) % 2 ^ 32 = left := by omega
  rw [limited, room, letters_, Nat.mod_eq_of_lt wrap]
  by_cases last : length ≤ cnt + 3
  · rw [if_pos last]
    by_cases less : ((length - cnt : Nat) : Int) < left
    · rw [if_pos ⟨last, less⟩, asInt, Int.bmod_eq_of_le (by omega) (by omega)]
      rw [Nat.min_eq_right (by omega)]
    · rw [if_neg fun both => less both.2, Nat.min_eq_left (by omega)]
  · rw [if_neg fun both => last both.1, if_neg last]

/-- The bytes of `x` that fit.  If all of them do, the count of letters was not lowered. -/
theorem decodeLast_limited (small : cnt + letters x.length + 3 < 2 ^ 31)
    (stops : length ≤ cnt + 3 ∨ letters x.length ≤ 4) (written : List UInt8) :
    decodeLast (encodeGroups x ++ [0]) (limited length cnt (letters x.length)) written =
        some (written ++ (x.take (length - 1 - cnt) ++ [0])) ∧
      (cnt + x.length < length → limited length cnt (letters x.length) = letters x.length) := by
  rw [limited_eq inside word (by omega) (by omega)]
  by_cases last : length ≤ cnt + 3
  · rw [if_pos last]
    constructor
    · rw [decodeLast_encodeGroups (by omega) (Nat.min_le_left _ _)]
      rcases Nat.le_total (letters x.length) (length - cnt) with all | some_
      · rw [letters] at *
        rw [take_of_length_le (by omega), take_of_length_le (by omega)]
      · rw [Nat.min_eq_right some_, Nat.sub_right_comm]
    · intro fits
      rw [letters] at *
      rw [Nat.min_eq_left (by omega)]
  · have few : letters x.length ≤ 4 := stops.resolve_left last
    rw [if_neg last, decodeLast_encodeGroups few le_rfl]
    rw [letters] at *
    rw [take_of_length_le (by omega), take_of_length_le (by omega)]
    exact ⟨rfl, fun _ => rfl⟩

/-- The bytes of `x` that fit.  If all of them do, the letters of the last group are left. -/
theorem decodeLoop_encodeGroups (small : cnt + letters x.length + 3 < 2 ^ 31) (written : List UInt8) :
    ∃ decoder, decodeLoop length (encodeGroups x ++ [0]) cnt (letters x.length) written = some decoder ∧
      decodeLast decoder.bufin (limited length decoder.cnt decoder.nprbytes) decoder.written =
        some (written ++ (x.take (length - 1 - cnt) ++ [0])) ∧
      (cnt + x.length < length → limited length decoder.cnt decoder.nprbytes % 4 = letters x.length % 4) := by
  have wrap : (cnt + 3) % 2 ^ 32 = cnt + 3 := Nat.mod_eq_of_lt (by omega)
  induction x using encodeGroups.induct generalizing cnt written with
  | case1 a b c rest ih =>
    by_cases more : cnt + 3 < length ∧ 0 < rest.length
    · -- another group is left, and there is room for this one
      have grown : letters (a :: b :: c :: rest).length = letters rest.length + 4 := letters_add_three _
      have left : (4 : Int) < letters rest.length + 4 := by
        rw [letters]
        omega
      obtain ⟨decoder, loop, bytes, last⟩ := ih more.1 (by rw [grown] at small; omega) (written ++ [a, b, c])
        (Nat.mod_eq_of_lt (by omega))
      refine ⟨decoder, ?_, ?_, fun fits => ?_⟩
      · rw [encodeGroups_three, grown]
        simp only [cons_append, decodeLoop, wrap, Nat.cast_add, Nat.cast_ofNat]
        rw [if_pos ⟨more.1, left⟩]
        simpa [byteOne_six, byteTwo_six, byteThree_six] using loop
      · rw [bytes, show length - 1 - cnt = length - 1 - (cnt + 3) + 3 by omega]
        simp
      · rw [last (by simp at fits; omega)]
        omega
    · obtain ⟨bytes, last⟩ := decodeLast_limited inside word small
        (by
          rw [letters, length_cons, length_cons, length_cons]
          omega) written
      refine ⟨⟨_, cnt, letters (a :: b :: c :: rest).length, written⟩, ?_, bytes, fun fits => by rw [last fits]⟩
      rw [encodeGroups_three]
      simp only [cons_append, decodeLoop]
      rw [if_neg]
      rintro ⟨room, left⟩
      rw [letters, length_cons, length_cons, length_cons] at left
      omega
  | case2 a b =>
    obtain ⟨bytes, last⟩ := decodeLast_limited inside word small (.inr (by simp [letters])) written
    refine ⟨⟨_, cnt, letters [a, b].length, written⟩, ?_, bytes, fun fits => by rw [last fits]⟩
    simp [encodeGroups_two, decodeLoop, letters]
  | case3 a =>
    obtain ⟨bytes, last⟩ := decodeLast_limited inside word small (.inr (by simp [letters])) written
    refine ⟨⟨_, cnt, letters [a].length, written⟩, ?_, bytes, fun fits => by rw [last fits]⟩
    simp [encodeGroups_one, decodeLoop, letters]
  | case4 =>
    obtain ⟨bytes, last⟩ := decodeLast_limited inside word small (.inr (by simp [letters])) written
    refine ⟨⟨_, cnt, letters ([]).length, written⟩, ?_, bytes, fun fits => by rw [last fits]⟩
    simp [encodeGroups, decodeLoop, letters]

end

/-- The bytes that fit and one NUL are written to the front of the buffer.  If there is room for
all, their number is returned. -/
theorem base64decode_base64encode (x : List UInt8) (n : UInt32) (room : 1 ≤ n.toNat) {coded : List UInt8}
    (encoded : base64encode x = some coded) :
    ∃ ret, base64decode n coded = some (x.take (n.toNat - 1) ++ [0], ret) ∧ (x.length < n.toNat → ret = x.length) := by
  have small : (x.length + 2) / 3 * 4 + 1 < 2 ^ 31 ∧ coded = encodeGroups x ++ [0] := by
    simp only [base64encode, length_append, encodeGroups_length] at encoded
    split at encoded
    · exact ⟨‹_›, (Option.some.inj encoded).symm⟩
    · cases encoded
  obtain ⟨small, rfl⟩ := small
  have count : letters x.length ≤ (x.length + 2) / 3 * 4 := by
    rw [letters]
    omega
  obtain ⟨decoder, loop, bytes, last⟩ :=
    decodeLoop_encodeGroups (show 0 < n.toNat by omega) n.toNat_lt (x := x) (by omega) []
  have int : asInt (letters x.length) = letters x.length := by
    rw [asInt, Int.bmod_eq_of_le (by omega) (by omega)]
  have intThree : asInt ((letters x.length) + 3) = letters x.length + 3 := by
    rw [asInt, Int.bmod_eq_of_le (by omega) (by omega)]
  refine ⟨((letters x.length : Int) + 3).tdiv 4 * 3 - (4 - limited n.toNat decoder.cnt decoder.nprbytes) % 4, ?_,
    fun fits => ?_⟩
  · simp only [base64decode, letterCount_encodeGroups, bind_eq_bind, bind_some, int, intThree, loop, bytes,
      nil_append, Nat.sub_zero]
  · have kept := last (by omega)
    rw [Int.tdiv_eq_ediv_of_nonneg (by omega)]
    have groups : letters x.length = 4 * (x.length / 3) + (x.length % 3 + (x.length % 3 + 2) / 3) := by
      rw [letters]
      omega
    omega

/-- Three bytes and a buffer for three: two of them and the NUL. -/
theorem base64decode_base64encode_short : base64encode [77, 97, 110] = some (ascii ['T', 'W', 'F', 'u'] ++ [0]) ∧
      ∃ ret, base64decode 3 (ascii ['T', 'W', 'F', 'u'] ++ [0]) = some ([77, 97, 0], ret) ∧ (3 < 3 → ret = 3) :=
  ⟨by decide, base64decode_base64encode [77, 97, 110] 3 (by decide) (by decide)⟩

end RouterApps.Userland
