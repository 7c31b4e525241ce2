/-
# Iuxpc.Address -- addresses and masks in the forms (common.js)

An address is typed into four fields, one for each octet.  `CheckIP` and `CheckMask` return the first field that is
wrong, or 0.  What they let through is a text of digits in every field (`checkIP_eq_none_iff`,
`checkMask_eq_none_iff`), with leading zeros and of any length.

The functions that compute with the fields read them in different ways: `GetNetworkAddress` with `parseInt`,
`GetLocalBroadcastAddress` by applying the operators to the texts, `GetIP` with `Number`.  On texts of digits they all
return the dotted quad that is meant.
-/
import RouterApps.JsLib.Text
import RouterApps.Theory.Octets

namespace RouterApps.Iuxpc

open JsLib Theory.Subnet List Option Number

/-- The value of the first element with a name; `none` if there is no such element. -/
abbrev Document := Text → Option Text

/-! ## Ranges -/

/-- `isInteger` -/
def isInteger (s : Text) : Bool := s.all Char.isDigit

/-- What `checkRange` and `checkOptionalRange` have in common. -/
def outsideRange (addr srange erange : Number) : Bool :=
  if addr.eq (.finite 0) then addr.lt srange || erange.lt addr
  else addr.falsy || addr.lt srange || erange.lt addr

/-- `checkRange`; `true` is the 1 of a refusal. -/
def checkRange (address : Text) (srange erange : Number) : Bool :=
  if isInteger address = false then true else outsideRange (parseInt address) srange erange

/-- `checkOptionalRange`: an empty text passes, and the text need not be digits. -/
def checkOptionalRange (address : Text) (srange erange : Number) : Bool :=
  if address = [] then false else outsideRange (parseInt address) srange erange

theorem isInteger_iff {s : Text} : isInteger s ↔ ∀ c ∈ s, c.isDigit := all_eq_true

theorem outsideRange_ofNat {n low high : ℕ} (small : low ≤ 2 ^ 53) (exact : high < 2 ^ 53) :
    outsideRange (.ofNat n) (.finite low) (.finite high) = false ↔ low ≤ n ∧ n ≤ high := by
  have zero : ofNat n = .finite 0 ↔ n = 0 := by exact ofNat_eq_iff (by norm_num)
  have less : (ofNat n).lt (.finite low) = decide (n < low) := by
    rw [Bool.eq_iff_iff, ofNat_lt_iff small, decide_eq_true_iff]
  have greater : (finite high).lt (.ofNat n) = decide (high < n) := by
    rw [Bool.eq_iff_iff, lt_ofNat_iff exact, decide_eq_true_iff]
  rw [outsideRange, less, greater]
  by_cases none : n = 0
  · simp [eq, zero.2 none]
  · simp [falsy, ofNat_ne_nan, zero, none]

variable {t : Text}

/-- What `checkRange` lets through: the digits of a number in the range. -/
theorem checkRange_eq_false_iff {l h : ℕ} (small : l ≤ 2 ^ 53) (exact : h < 2 ^ 53) :
    checkRange t (.finite l) (.finite h) = false ↔ ∃ n, Denotes t n ∧ l ≤ n ∧ n ≤ h := by
  by_cases digits : ∀ c ∈ t, c.isDigit
  · have integer : isInteger t = true := isInteger_iff.2 digits
    rw [checkRange, if_neg (by simp [integer])]
    by_cases empty : t = []
    · subst empty
      have refused : outsideRange (parseInt []) (.finite l) (.finite h) = true := rfl
      rw [refused]
      simp only [Bool.true_eq_false, false_iff, not_exists, not_and]
      exact fun n denotes => absurd rfl denotes.nonempty
    · have denotes : Denotes t (Nat.ofDigitChars 10 t 0) := ⟨empty, digits, rfl⟩
      rw [denotes.parseInt, outsideRange_ofNat small exact]
      constructor
      · exact fun inside => ⟨_, denotes, inside⟩
      · rintro ⟨n, other, inside⟩
        rwa [denotes.unique other]
  · have integer : isInteger t = false := Bool.eq_false_iff.2 fun all => digits (isInteger_iff.1 all)
    rw [checkRange, if_pos integer]
    simp only [Bool.true_eq_false, false_iff, not_exists, not_and]
    exact fun n denotes => absurd denotes.digits digits

/-! ## The functions of common.js -/

/-- The loop of `CheckIP` and `CheckOptionalIP`; it stops at a missing field. -/
def checkFields (range : Text → Number → Number → Bool) (doc : Document) (name : Text) : List ℕ → Option Text
  | [] => none
  | i :: rest =>
    match doc (name ++ natText i) with
    | none => none
    | some value =>
      if i = 1 && range value (.finite 1) (.finite 255) then some (name ++ natText i)
      else if range value (.finite 0) (.finite 255) then some (name ++ natText i)
      else checkFields range doc name rest

/-- `CheckIP`: the field that is refused. -/
def checkIP (doc : Document) (name : Text) : Option Text := checkFields checkRange doc name [1, 2, 3, 4]

/-- `CheckOptionalIP` -/
def checkOptionalIP (doc : Document) (name : Text) : Option Text := checkFields checkOptionalRange doc name [1, 2, 3, 4]

/-- `maskvalue` -/
def maskvalue : List ℕ := [255, 254, 252, 248, 240, 224, 192, 128, 0]

/-- `value == number` for a text. -/
def textEq (value : Text) (number : ℕ) : Bool := (toNumber value).eq (.finite number)

/-- One turn of the loop of `CheckMask` returns the field. -/
def refusesField (i : ℕ) (value : Text) : Bool :=
  (i = 1 && checkRange value (.finite 1) (.finite 255)) || checkRange value (.finite 0) (.finite 255) ||
    !maskvalue.any (textEq value)

/-- The tests behind the loop. -/
def refusesMask (sm0 sm1 sm2 sm3 : Text) : Bool :=
  (!textEq sm0 255 && (!textEq sm1 0 || !textEq sm2 0 || !textEq sm3 0)) ||
    (!textEq sm1 255 && (!textEq sm2 0 || !textEq sm3 0)) || (!textEq sm2 255 && !textEq sm3 0)

/-- The loop of `CheckMask`, with the values that it has seen.  A missing field is no refusal. -/
def checkMaskFrom (doc : Document) (name : Text) : List ℕ → List Text → Option Text
  | i :: rest, sm =>
    match doc (name ++ natText i) with
    | none => none
    | some value =>
      if refusesField i value then some (name ++ natText i) else checkMaskFrom doc name rest (sm ++ [value])
  | [], [sm0, sm1, sm2, sm3] => if refusesMask sm0 sm1 sm2 sm3 then some (name ++ natText 4) else none
  | [], _ => none

/-- `CheckMask`: the field that is refused. -/
def checkMask (doc : Document) (name : Text) : Option Text := checkMaskFrom doc name [1, 2, 3, 4] []

/-- Four texts with points between them. -/
def joined (part : Fin 4 → Text) : Text := ['.'].intercalate [part 0, part 1, part 2, part 3]

/-- All four, if each of them is there. -/
def allFour {α : Type} (part : Fin 4 → Option α) : Option (Fin 4 → α) := do
  let first ← part 0
  let second ← part 1
  let third ← part 2
  let fourth ← part 3
  return ![first, second, third, fourth]

/-- The field of an octet. -/
def field (doc : Document) (name : Text) (i : Fin 4) : Option Text := doc (name ++ natText (i.val + 1))

/-- `GetNetworkAddress`; `none` is the 0 it returns when a field is missing. -/
def getNetworkAddress (doc : Document) (ip mask : Text) : Option Text :=
  (allFour fun i => do
    let ip ← field doc ip i
    let mask ← field doc mask i
    return intText ((parseInt ip).toInt32 &&& (parseInt mask).toInt32).toInt).map joined

/-- `GetLocalBroadcastAddress`; `none` if a field is missing, which throws. -/
def getLocalBroadcastAddress (doc : Document) (ip sm : Text) : Option Text :=
  (allFour fun i => do
    let ip ← field doc ip i
    let sm ← field doc sm i
    let nw := (toNumber sm).toInt32 &&& (toNumber ip).toInt32
    return intText (nw ^^^ (~~~(toNumber sm).toInt32 &&& 255)).toInt).map joined

/-- `GetIP`; `none` if a field is missing, or holds a number that is not an integer below `2 ^ 53`. -/
def getIP (doc : Document) (ip : Text) : Option Text := (allFour fun i => (field doc ip i).bind (numText ∘ toNumber)).map joined

/-- `parseInt(text.split('.')[i])` -/
def part (text : Text) (i : ℕ) : Number := parseInt ((text.splitOn '.').getD i [])

/-- `CheckSameSubnet` -/
def checkSameSubnet (subnet1 subnet2 : Text) : Bool :=
  substr subnet1 0 3 = substr subnet2 0 3 && substr subnet1 4 3 = substr subnet2 4 3 &&
    substr subnet1 8 3 = substr subnet2 8 3 && substr subnet1 12 3 = substr subnet2 12 3

/-! ## What they mean -/

/-- The four fields exist, with these texts. -/
def Fields (doc : Document) (name : Text) (text : Fin 4 → Text) : Prop := ∀ i, field doc name i = some (text i)

/-- The texts are digits of the octets of `a`. -/
def DenotesAddress (text : Fin 4 → Text) (a : UInt32) : Prop := ∀ i, Denotes (text i) (octet i a)

/-- The canonical dotted quad. -/
def dotted (a : UInt32) : Text := joined fun i => natText (octet i a)

variable (i : Fin 4)

section

variable {doc : Document} {name : Text} {text : Fin 4 → Text}

theorem Fields.all (fields : Fields doc name text) :
    doc (name ++ natText 1) = some (text 0) ∧ doc (name ++ natText 2) = some (text 1) ∧
      doc (name ++ natText 3) = some (text 2) ∧ doc (name ++ natText 4) = some (text 3) :=
  ⟨fields 0, fields 1, fields 2, fields 3⟩

theorem checkFields_eq_none_iff {range : Text → Number → Number → Bool} (fields : Fields doc name text) :
    checkFields range doc name [1, 2, 3, 4] = none ↔
      range (text 0) (.finite 1) (.finite 255) = false ∧ ∀ i, range (text i) (.finite 0) (.finite 255) = false := by
  obtain ⟨first, second, third, fourth⟩ := fields.all
  simp only [checkFields, first, second, third, Fin.forall_fin_succ]
  split_ifs <;> simp_all

theorem checkRange_zero : checkRange t (.finite 0) (.finite 255) = false ↔ ∃ n, Denotes t n ∧ n < 256 := by
  have range := checkRange_eq_false_iff (t := t) (l := 0) (h := 255) (by norm_num) (by norm_num)
  simpa [Nat.lt_succ_iff] using range

theorem checkRange_one : checkRange t (.finite 1) (.finite 255) = false ↔ ∃ n, Denotes t n ∧ n ≠ 0 ∧ n < 256 := by
  have range := checkRange_eq_false_iff (t := t) (l := 1) (h := 255) (by norm_num) (by norm_num)
  simpa [Nat.lt_succ_iff, Nat.one_le_iff_ne_zero] using range

theorem checkIP_eq_none_iff (fields : Fields doc name text) :
    checkIP doc name = none ↔ ∃ a, octet 0 a ≠ 0 ∧ DenotesAddress text a := by
  rw [checkIP, checkFields_eq_none_iff fields]
  constructor
  · rintro ⟨first, all⟩
    obtain ⟨n, denotes, nonzero, -⟩ := checkRange_one.1 first
    choose o denoted small using fun i => checkRange_zero.1 (all i)
    refine ⟨ofOctets o, ?_, fun i => ?_⟩
    · rwa [octet_ofOctets small, ← denotes.unique (denoted 0)]
    · rw [octet_ofOctets small]
      exact denoted i
  · rintro ⟨a, nonzero, denotes⟩
    exact ⟨checkRange_one.2 ⟨_, denotes 0, nonzero, octet_lt 0 a⟩, fun i => checkRange_zero.2 ⟨_, denotes i, octet_lt i a⟩⟩

/-- A field that the loop of `CheckMask` lets through. -/
def MaskField (i : Fin 4) (t : Text) (n : ℕ) : Prop := Denotes t n ∧ n ∈ maskOctets ∧ (i = 0 → n ≠ 0)

theorem textEq_iff {n k : ℕ} (denotes : Denotes t n) (small : k < 2 ^ 53) : textEq t k = true ↔ n = k := by
  simp [textEq, denotes.toNumber, eq, ofNat_ne_nan, ofNat_eq_iff small]

theorem refusesField_eq_false_iff (t : Text) : refusesField (i.val + 1) t = false ↔ ∃ n, MaskField i t n := by
  have first : i.val + 1 = 1 ↔ i = 0 := ⟨fun one => Fin.ext (by simpa using one), fun zero => by rw [zero]; rfl⟩
  have bytes : ∀ value ∈ maskOctets, value < 256 := by decide
  simp only [refusesField, first, Bool.or_eq_false_iff, Bool.and_eq_false_iff, decide_eq_false_iff_not, Bool.not_eq_false',
    List.any_eq_true, checkRange_zero, checkRange_one]
  constructor
  · rintro ⟨⟨positive, n, denotes, -⟩, value, member, equal⟩
    obtain rfl := (textEq_iff denotes ((bytes value member).trans (by norm_num))).1 equal
    refine ⟨n, denotes, member, fun zero => ?_⟩
    obtain ⟨k, denotes', nonzero, -⟩ := positive.resolve_left (not_not_intro zero)
    rwa [denotes.unique denotes']
  · rintro ⟨n, denotes, member, nonzero⟩
    have byte := bytes n member
    refine ⟨⟨?_, n, denotes, byte⟩, n, member, (textEq_iff denotes (by omega)).2 rfl⟩
    by_cases zero : i = 0
    · exact .inr ⟨n, denotes, nonzero zero, byte⟩
    · exact .inl zero

theorem refusesMask_eq_false_iff {o : Fin 4 → ℕ} (denotes : ∀ i, Denotes (text i) (o i)) :
    refusesMask (text 0) (text 1) (text 2) (text 3) = false ↔ Contiguous o := by
  have full : ∀ i, textEq (text i) 255 = true ↔ o i = 255 := fun i => textEq_iff (denotes i) (by norm_num)
  have none : ∀ i, textEq (text i) 0 = true ↔ o i = 0 := fun i => textEq_iff (denotes i) (by norm_num)
  simp only [refusesMask, Bool.or_eq_false_iff, Bool.and_eq_false_iff, Bool.not_eq_false', full, none, Contiguous, and_assoc]

theorem checkMask_eq_none_iff (fields : Fields doc name text) :
    checkMask doc name = none ↔ ∃ p, 1 ≤ p ∧ p ≤ 32 ∧ DenotesAddress text (maskOf p) := by
  obtain ⟨first, second, third, fourth⟩ := fields.all
  have turns : checkMask doc name = none ↔ (∀ i : Fin 4, refusesField (i.val + 1) (text i) = false) ∧
      refusesMask (text 0) (text 1) (text 2) (text 3) = false := by
    simp only [checkMask, checkMaskFrom, first, second, third, fourth, Fin.forall_fin_succ, nil_append, cons_append]
    split_ifs <;> simp_all
  simp only [turns, refusesField_eq_false_iff]
  constructor
  · rintro ⟨all, chain⟩
    choose o good using all
    rw [refusesMask_eq_false_iff fun i => (good i).1] at chain
    obtain ⟨p, positive, short, same⟩ := exists_maskOf_iff.2 ⟨(good 0).2.2 rfl, fun i => (good i).2.1, chain⟩
    exact ⟨p, positive, short, fun i => by rw [same]; exact (good i).1⟩
  · rintro ⟨p, positive, short, denotes⟩
    obtain ⟨nonzero, values, contiguous⟩ := exists_maskOf_iff.1 ⟨p, positive, short, fun _ => rfl⟩
    exact ⟨fun i => ⟨_, denotes i, values i, fun zero => by rwa [zero]⟩, (refusesMask_eq_false_iff denotes).2 contiguous⟩

end

section

variable {doc : Document} {ip mask : Text} {s t : Fin 4 → Text} {a m : UInt32}

theorem allFour_eq {α : Type} {part : Fin 4 → Option α} {v : Fin 4 → α} (all : ∀ i, part i = some (v i)) : allFour part = some v := by
  have four : ![v 0, v 1, v 2, v 3] = v := by
    funext i
    fin_cases i <;> rfl
  simp [allFour, all, four]

theorem toInt32_octet {text : Text} {i : Fin 4} (denotes : Denotes text (octet i a)) :
    (parseInt text).toInt32 = BitVec.ofNat 32 (octet i a) ∧ (toNumber text).toInt32 = BitVec.ofNat 32 (octet i a) := by
  have small : octet i a < 2 ^ 53 := (octet_lt i a).trans (by norm_num)
  rw [denotes.parseInt, denotes.toNumber, toInt32_ofNat small]
  exact ⟨rfl, rfl⟩

theorem intText_octet (a : UInt32) : intText (BitVec.ofNat 32 (octet i a)).toInt = natText (octet i a) := by
  rw [toInt_ofNat ((octet_lt i a).trans (by norm_num)), intText_natCast]

section

variable (ipFields : Fields doc ip t) (maskFields : Fields doc mask s) (address : DenotesAddress t a)
  (masks : DenotesAddress s m)

include ipFields maskFields address masks

theorem getNetworkAddress_eq : getNetworkAddress doc ip mask = some (dotted (a &&& m)) := by
  rw [getNetworkAddress, allFour_eq fun i => ?_]
  · rfl
  · simp only [ipFields i, maskFields i, (toInt32_octet (address i)).1, (toInt32_octet (masks i)).1, bind_eq_bind,
      bind_some, Option.pure_def]
    rw [← BitVec.ofNat_and, ← octet_and, intText_octet]

theorem getLocalBroadcastAddress_eq : getLocalBroadcastAddress doc ip mask = some (dotted (broadcast m a)) := by
  rw [getLocalBroadcastAddress, allFour_eq fun i => ?_]
  · rfl
  · simp only [ipFields i, maskFields i, (toInt32_octet (address i)).2, (toInt32_octet (masks i)).2, bind_eq_bind,
      bind_some, Option.pure_def]
    rw [← BitVec.ofNat_and, not_ofNat_and_byte (octet_lt i m), ← BitVec.ofNat_xor, Nat.and_comm,
      and_xor_complement (octet_lt i m), ← octet_broadcast, intText_octet]

end

theorem getIP_eq (fields : Fields doc ip t) (address : DenotesAddress t a) : getIP doc ip = some (dotted a) := by
  rw [getIP, allFour_eq fun i => ?_]
  · rfl
  · rw [fields i, bind_some, Function.comp, (address i).toNumber, numText_ofNat ((octet_lt i a).trans (by norm_num))]

theorem splitOn_joined (plain : ∀ i, '.' ∉ t i) : (joined t).splitOn '.' = [t 0, t 1, t 2, t 3] := by
  rw [joined, splitOn_intercalate]
  · simp [plain]
  · simp

theorem joined_injective (plain : ∀ i, '.' ∉ t i) (same : joined s = joined t) : s = t := by
  have points := congrArg (count '.') same
  simp only [joined, intercalate, intersperse, flatten_cons, count_append,
    count_eq_zero_of_not_mem (plain _)] at points
  have others : ∀ i, '.' ∉ s i := fun i => count_eq_zero.1 (by fin_cases i <;> simp <;> omega)
  have parts := congrArg (splitOn '.') same
  simp only [splitOn_joined plain, splitOn_joined others, cons.injEq, and_true] at parts
  funext i
  fin_cases i
  · exact parts.1
  · exact parts.2.1
  · exact parts.2.2.1
  · exact parts.2.2.2

theorem DenotesAddress.plain (address : DenotesAddress t a) (i : Fin 4) : '.' ∉ t i := fun point =>
  absurd ((address i).digits '.' point) (by decide)

theorem part_joined (address : DenotesAddress t a) (i : Fin 4) : part (joined t) i = .ofNat (octet i a) := by
  rw [part, splitOn_joined address.plain, ← (address i).parseInt]
  fin_cases i <;> rfl

theorem denotes_natText_octet (a : UInt32) : DenotesAddress (fun i => natText (octet i a)) a := fun _ => denotes_natText _

variable {b : UInt32}

theorem dotted_injective (same : dotted a = dotted b) : a = b := by
  have texts := joined_injective (denotes_natText_octet b).plain same
  exact ext_octet fun i => (denotes_natText _).unique (congrFun texts i ▸ denotes_natText _)

theorem masked_eq_iff : (∀ i, BitVec.ofNat 32 (octet i a) &&& BitVec.ofNat 32 (octet i m) =
        BitVec.ofNat 32 (octet i b) &&& BitVec.ofNat 32 (octet i m)) ↔ b &&& m = a &&& m := by
  simp only [← BitVec.ofNat_and, ← octet_and]
  constructor
  · intro same
    refine ext_octet fun i => ?_
    have := congrArg BitVec.toNat (same i)
    have := octet_lt i (a &&& m)
    have := octet_lt i (b &&& m)
    simp only [BitVec.toNat_ofNat] at *
    omega
  · intro same i
    rw [same]

end

/-- `CheckMask` accepts the masks of prefix length 1 to 32, and with an address that `CheckIP`
accepts the network and its last address are computed. -/
theorem mask_and_arithmetic_agree {doc : Document} {mask : Text} {s : Fin 4 → Text} (maskFields : Fields doc mask s) :
    (checkMask doc mask = none ↔ ∃ p, 1 ≤ p ∧ p ≤ 32 ∧ DenotesAddress s (maskOf p)) ∧
      ∀ ip t, Fields doc ip t → checkMask doc mask = none → checkIP doc ip = none →
        ∃ a m, DenotesAddress t a ∧ DenotesAddress s m ∧ getNetworkAddress doc ip mask = some (dotted (a &&& m)) ∧
          getLocalBroadcastAddress doc ip mask = some (dotted ((a &&& m) ||| ~~~m)) ∧
          a &&& m ≤ a ∧ a ≤ (a &&& m) ||| ~~~m := by
  refine ⟨checkMask_eq_none_iff maskFields, fun ip t ipFields maskAccepted ipAccepted => ?_⟩
  obtain ⟨p, -, -, masks⟩ := (checkMask_eq_none_iff maskFields).1 maskAccepted
  obtain ⟨a, -, address⟩ := (checkIP_eq_none_iff ipFields).1 ipAccepted
  exact ⟨a, maskOf p, address, masks, getNetworkAddress_eq ipFields maskFields address masks,
    getLocalBroadcastAddress_eq ipFields maskFields address masks, and_le, le_broadcast⟩

/-- Fields with the octets of addresses. -/
def sampleDoc (shown : List (Text × UInt32)) : Document := fun name => do
  let last ← name.getLast?
  let a ← shown.lookup name.dropLast
  return natText (octet (Fin.ofNat 4 (last.toNat - 49)) a)

theorem fields_sampleDoc {shown : List (Text × UInt32)} {name : Text} {a : UInt32} (found : shown.lookup name = some a) :
    Fields (sampleDoc shown) name (fun i => natText (octet i a)) := by
  have digit : ∀ i : Fin 4, natText (i + 1) = [Char.ofNat (i + 49)] := by decide
  intro i
  rw [field, sampleDoc, digit, getLast?_concat, dropLast_concat, found]
  fin_cases i <;> rfl

/-- 192.168.0.10 with a mask of 20 bits. -/
theorem mask_and_arithmetic_agree_sample :
    checkMask (sampleDoc [(['i', 'p'], 0xc0a8000a), (['s', 'm'], maskOf 20)]) ['s', 'm'] = none ∧
      ∃ a m, getNetworkAddress (sampleDoc [(['i', 'p'], 0xc0a8000a), (['s', 'm'], maskOf 20)]) ['i', 'p'] ['s', 'm'] =
        some (dotted (a &&& m)) := by
  have agree := mask_and_arithmetic_agree (fields_sampleDoc
    (rfl : List.lookup ['s', 'm'] [(['i', 'p'], 0xc0a8000a), (['s', 'm'], maskOf 20)] = some (maskOf 20)))
  have mask := agree.1.2 ⟨20, by decide, by decide, denotes_natText_octet _⟩
  have ip := fields_sampleDoc
    (rfl : List.lookup ['i', 'p'] [(['i', 'p'], 0xc0a8000a), (['s', 'm'], maskOf 20)] = some 0xc0a8000a)
  obtain ⟨a, m, -, -, network, -⟩ :=
    agree.2 _ _ ip mask ((checkIP_eq_none_iff ip).2 ⟨0xc0a8000a, by decide, denotes_natText_octet _⟩)
  exact ⟨mask, a, m, network⟩

end RouterApps.Iuxpc
