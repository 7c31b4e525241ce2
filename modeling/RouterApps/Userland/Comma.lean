/-
# Userland.Comma -- numbers printed with commas (userland_lib.c, itoa_with_comma)

Each turn looks for the largest power of 1000 that is not above the value that is left, prints the
quotient and goes on with the remainder.  The number of turns is fixed before.

* A group that is 0 has no power of its own: the next group that is not 0 is printed in its place, and
  the missing turns print `000` at the end.
* The search multiplies in 64 bits.  From `10 ^ 21 % 2 ^ 64` on it goes on with powers that have wrapped
  around, and stops at a wrong one or divides by 0 (`powerLoop_wrapped`).

So the text is right exactly if the magnitude is below that number and there is nothing but zeros below a
group that is 0 (`itoa_with_comma_faithful_iff`).
-/
import RouterApps.CLib.Printf

namespace RouterApps.Userland

open CLib Theory.Radix List Option

/-! ## The source -/

def comma : UInt8 := 44

/-- `while(value / (j * 1000) > 0) j *= 1000`; `none` is a division by 0.  `1000 ^ 22` is 0 in 64
bits, so 22 turns are enough. -/
def powerLoop (value : Nat) : Nat → Nat → Option Nat
  | 0, _ => none
  | turns + 1, j =>
    let next := j * 1000 % 2 ^ 64
    if next = 0 then none
    else if 0 < value / next then powerLoop value turns next
    else some j

/-- The loop `while((j /= 1000) > 0) ++length`.  A value of 64 bits is below `1000 ^ 7`. -/
def lengthLoop : Nat → Nat → Nat
  | 0, _ => 0
  | turns + 1, j => if 0 < j / 1000 then lengthLoop turns (j / 1000) + 1 else 0

/-- `strlen(buffer) > 0 && strcmp(buffer, "-")` -/
def started (buffer : List UInt8) : Bool := buffer ≠ [] && buffer ≠ [hyphen]

/-- `"%03llu"` behind another group, `"%llu"` otherwise. -/
def groupText (buffer : List UInt8) (n : Nat) : List UInt8 :=
  if started buffer then zeroPadded 3 (digits 20 n) else digits 20 n

/-- `snprintf(tmp, 16, ...)` and `strcat(buffer, tmp)`; `none` when it writes past `buffer[32]`. -/
def strcatTmp (buffer text : List UInt8) : Option (List UInt8) :=
  let tmp := text.take 15
  if buffer.length + tmp.length < 32 then some (buffer ++ tmp) else none

def itoaLoop : Nat → Nat → List UInt8 → Option (List UInt8)
  | 0, value, buffer => strcatTmp buffer (groupText buffer (value % 1000))
  | length + 1, value, buffer => do
    let j ← powerLoop value 22 1
    let buffer ← strcatTmp buffer (groupText buffer (value / j) ++ [comma])
    itoaLoop length (value % j) buffer

/-- The value that is printed, and whether a minus stands before it. -/
def magnitude (value : UInt64) (isUnsigned : Bool) : Nat × Bool :=
  if !isUnsigned && 2 ^ 63 ≤ value.toNat then (2 ^ 64 - value.toNat, true) else (value.toNat, false)

def signText (negative : Bool) : List UInt8 := if negative then [hyphen] else []

def itoaWithComma (value : UInt64) (isUnsigned : Bool) : Option (List UInt8) :=
  let (value, negative) := magnitude value isUnsigned
  itoaLoop (lengthLoop 7 value) value (signText negative)

/-! ## What is expected -/

def decimalText (value : UInt64) (isUnsigned : Bool) : List UInt8 :=
  let (value, negative) := magnitude value isUnsigned
  signText negative ++ digits 20 value

def IsDigit (b : UInt8) : Prop := 48 ≤ b.toNat ∧ b.toNat ≤ 57

/-- Behind the sign, commas exactly between groups of three digits counted from the right. -/
def CommasInPlace (out : List UInt8) : Prop :=
  ∃ negative first rest, Cut 3 first rest ∧ (∀ b ∈ first, IsDigit b) ∧ (∀ group ∈ rest, ∀ b ∈ group, IsDigit b) ∧
    out = signText negative ++ joined comma first rest

/-- Without the commas it is the decimal representation, and the commas are in their places. -/
def Faithful (text out : List UInt8) : Prop := out.filter (· != comma) = text ∧ CommasInPlace out

def groupsText : List Nat → List UInt8
  | [] => []
  | first :: rest => joined comma (digits 20 first) (rest.map threeDigits)

/-! ## The faithful text -/

variable {text buffer : List UInt8} {value : Nat}

theorem comma_notMem_of_digits (only : ∀ b ∈ text, IsDigit b) : comma ∉ text := by
  intro member
  have := only comma member
  simp [IsDigit, comma] at this

theorem exists_digits_cons (n : Nat) : ∃ d ds, digits 20 n = d :: ds ∧ IsDigit d := by
  obtain ⟨d, ds, whole⟩ := exists_cons_of_ne_nil (digits_ne_nil 19 n)
  exact ⟨d, ds, whole, digits_range 20 n d (whole ▸ mem_cons_self)⟩

theorem signText_append_inj {negative negative' : Bool} {text' : List UInt8} {d d' : UInt8} {ds ds' : List UInt8}
    (starts : text = d :: ds) (digit : IsDigit d) (starts' : text' = d' :: ds') (digit' : IsDigit d')
    (same : signText negative ++ text = signText negative' ++ text') : negative = negative' ∧ text = text' := by
  have noMinus : ¬ IsDigit hyphen := by simp [IsDigit, hyphen]
  subst starts starts'
  cases negative <;> cases negative' <;> simp only [signText, if_true, Bool.false_eq_true, if_false, nil_append,
    singleton_append, cons.injEq] at same
  · exact ⟨rfl, by rw [same.1, same.2]⟩
  · exact absurd (same.1 ▸ digit) noMinus
  · exact absurd (same.1 ▸ digit') noMinus
  · exact ⟨rfl, by rw [same.2.1, same.2.2]⟩

section

variable {n m : Nat} (top : 1000 ^ n ≤ m ∨ n = 0) (small : m < 1000 ^ (n + 1)) (word : m < 2 ^ 64)

include small

theorem cut_places : Cut 3 (digits 20 (m / 1000 ^ n)) ((places 1000 n (m % 1000 ^ n)).map threeDigits) where
  nonempty := digits_ne_nil 19 _
  atMost := by
    have place : m / 1000 ^ n < 10 ^ (2 + 1) := by
      rw [Nat.div_lt_iff_lt_mul (Nat.pow_pos (by decide)), Nat.mul_comm]
      exact small
    exact digits_length_of_lt place
  whole := by
    intro group member
    obtain ⟨place, -, rfl⟩ := mem_map.1 member
    exact threeDigits_length place

include top word

theorem digits_eq_groups :
    digits 20 m = digits 20 (m / 1000 ^ n) ++ ((places 1000 n (m % 1000 ^ n)).map threeDigits).flatten := by
  have power : 0 < 1000 ^ n := Nat.pow_pos (by decide)
  rw [← flatMap_def]
  rcases top with top | rfl
  · have highest : 0 < m / 1000 ^ n := Nat.div_pos top power
    have whole : m / 1000 ^ n * 1000 ^ n + m % 1000 ^ n = m := by
      rw [Nat.mul_comm]
      exact Nat.div_add_mod m _
    rw [← digits_places 17 highest (by omega) (Nat.mod_lt m power), whole]
  · simp [places]

theorem faithful_iff (negative : Bool) (out : List UInt8) :
    Faithful (signText negative ++ digits 20 m) out ↔ out = signText negative ++ groupsText (places 1000 (n + 1) m) := by
  have clean : ∀ place ∈ places 1000 n (m % 1000 ^ n), ∀ b ∈ threeDigits place, IsDigit b := fun place member =>
    threeDigits_range (lt_of_mem_places (by decide) (Nat.mod_lt m (Nat.pow_pos (by decide))) place member)
  have groupsClean : ∀ group ∈ (places 1000 n (m % 1000 ^ n)).map threeDigits, ∀ b ∈ group, IsDigit b := by
    intro group member
    obtain ⟨place, inside, rfl⟩ := mem_map.1 member
    exact clean place inside
  have bare : ∀ negative : Bool, (signText negative).filter (· != comma) = signText negative := by decide
  rw [places, groupsText]
  constructor
  · rintro ⟨removed, minus, first, rest, cut, digits_, digitsRest, rfl⟩
    rw [filter_append, bare, filter_joined (comma_notMem_of_digits digits_)
      fun group member => comma_notMem_of_digits (digitsRest group member)] at removed
    obtain ⟨d, ds, starts⟩ := exists_cons_of_ne_nil cut.nonempty
    obtain ⟨d', ds', starts', digit'⟩ := exists_digits_cons m
    obtain ⟨rfl, same⟩ := signText_append_inj (by rw [starts]; rfl) (digits_ d (starts ▸ mem_cons_self)) starts' digit'
      removed
    rw [digits_eq_groups top small word] at same
    obtain ⟨rfl, rfl⟩ := cut.unique (cut_places small) same
    rfl
  · rintro rfl
    refine ⟨?_, negative, _, _, cut_places small, digits_range 20 _, groupsClean, rfl⟩
    rw [filter_append, bare, filter_joined (comma_notMem_of_digits (digits_range 20 _))
      fun group member => comma_notMem_of_digits (groupsClean group member), ← digits_eq_groups top small word]

end

/-! ## The search for the power -/

def power (k : Nat) : Nat := 1000 ^ k % 2 ^ 64

theorem power_succ (k : Nat) : power k * 1000 % 2 ^ 64 = power (k + 1) :=
  (Nat.mod_mul_mod (1000 ^ k) 1000 (2 ^ 64)).trans (congrArg (· % 2 ^ 64) (Nat.pow_succ 1000 k).symm)

theorem powerLoop_advance {k d : Nat} (turns : Nat) (passed : ∀ i, k < i → i ≤ k + d → 0 < power i ∧ power i ≤ value) :
    powerLoop value (turns + d) (power k) = powerLoop value turns (power (k + d)) := by
  induction d generalizing k with
  | zero => rfl
  | succ d ih =>
    obtain ⟨positive, below⟩ := passed (k + 1) (by omega) (by omega)
    rw [← Nat.add_assoc, powerLoop, power_succ]
    rw [if_neg (by omega), if_pos (Nat.div_pos below positive), ih fun i low high => passed i (by omega) (by omega)]
    rw [Nat.add_right_comm k 1 d, Nat.add_assoc]

theorem powerLoop_stop {k turns : Nat} (above : value < power (k + 1)) :
    powerLoop value (turns + 1) (power k) = some (power k) := by
  rw [powerLoop, power_succ]
  rw [if_neg (by omega), if_neg (by rw [Nat.div_eq_of_lt above]; omega)]

/-- Below `10 ^ 21 % 2 ^ 64` it finds the right power. -/
theorem powerLoop_eq (small : value < power 7) : powerLoop value 22 1 = some (1000 ^ Nat.log 1000 value) := by
  have few : Nat.log 1000 value < 7 := Nat.log_lt_of_lt_pow' (by decide) (small.trans (by decide))
  have exact : ∀ k, k < 7 → power k = 1000 ^ k := by decide
  have passed : ∀ i, 0 < i → i ≤ 0 + Nat.log 1000 value → 0 < power i ∧ power i ≤ value := by
    intro i first below
    rw [Nat.zero_add] at below
    rw [exact i (by omega)]
    have some_ : value ≠ 0 := by
      rintro rfl
      rw [Nat.log_zero_right] at below
      omega
    exact ⟨Nat.pow_pos (by decide), Nat.pow_le_of_le_log some_ below⟩
  have above : value < power (Nat.log 1000 value + 1) := by
    rcases Nat.lt_or_ge (Nat.log 1000 value + 1) 7 with inside | last
    · rw [exact _ inside]
      exact Nat.lt_pow_succ_log_self (by decide) value
    · rw [show Nat.log 1000 value + 1 = 7 by omega]
      exact small
  obtain ⟨turns, rest⟩ : ∃ turns, 22 = turns + 1 + Nat.log 1000 value := ⟨21 - Nat.log 1000 value, by omega⟩
  rw [show 1 = power 0 from rfl, rest, powerLoop_advance _ passed, Nat.zero_add, powerLoop_stop above, exact _ few]

/-- From there on it divides by 0, or stops at a power that gives a wrong first group. -/
theorem powerLoop_wrapped (large : power 7 ≤ value) (word : value < 2 ^ 64) : powerLoop value 22 1 = none ∨
      ∃ j, powerLoop value 22 1 = some j ∧ value / j ≠ value / 1000 ^ 6 ∧ value / j < 10 ^ 14 := by
  have one : 1 = power 0 := rfl
  rcases Nat.lt_or_ge value (power 9) with low | high
  · -- power 8 is below power 7, power 9 is not
    have passed : ∀ i, i ≤ 8 → 0 < power i ∧ power i ≤ power 7 := by decide
    refine .inr ⟨power 8, ?_, ?_⟩
    · rw [one, powerLoop_advance (d := 8) 14 fun i _ last =>
        ⟨(passed i (by omega)).1, (passed i (by omega)).2.trans large⟩]
      exact powerLoop_stop low
    · simp only [power, Nat.reducePow, Nat.reduceMod] at *
      omega
  · rcases Nat.lt_or_ge value (power 12) with low | high'
    · have passed : ∀ i, i ≤ 11 → 0 < power i ∧ power i ≤ power 9 := by decide
      refine .inr ⟨power 11, ?_, ?_⟩
      · rw [one, powerLoop_advance (d := 11) 11 fun i _ last =>
          ⟨(passed i (by omega)).1, (passed i (by omega)).2.trans high⟩]
        exact powerLoop_stop low
      · simp only [power, Nat.reducePow, Nat.reduceMod] at *
        omega
    · -- no later power is above power 12, and the last one is 0
      have passed : ∀ i, i ≤ 21 → 0 < power i ∧ power i ≤ power 12 := by decide
      refine .inl ?_
      rw [one, powerLoop_advance (d := 21) 1 fun i _ last =>
        ⟨(passed i (by omega)).1, (passed i (by omega)).2.trans high'⟩]
      rfl

/-! ## The loop over the groups -/

theorem lengthLoop_eq {turns j : Nat} (small : j < 1000 ^ (turns + 1)) : lengthLoop turns j = Nat.log 1000 j := by
  induction turns generalizing j with
  | zero => exact (Nat.log_of_lt small).symm
  | succ turns ih =>
    rw [lengthLoop]
    split
    · have enough : 1 ≤ Nat.log 1000 j := Nat.log_pos (by decide) (by omega)
      rw [ih (by rw [Nat.pow_succ] at small; omega), Nat.log_div_base]
      omega
    · exact (Nat.log_of_lt (by omega)).symm

theorem started_append {d : UInt8} (digit : IsDigit d) (ds : List UInt8)
    (sign : ∃ negative, buffer = signText negative) : started (buffer ++ d :: ds) = true := by
  obtain ⟨negative, rfl⟩ := sign
  have noMinus : d ≠ hyphen := by
    rintro rfl
    simp [IsDigit, hyphen] at digit
  cases negative <;> simp [started, signText, noMinus]

theorem started_of_started (begun : started buffer = true) (text : List UInt8) : started (buffer ++ text) = true := by
  simp only [started, Bool.and_eq_true, decide_eq_true_eq] at begun ⊢
  refine ⟨by simp [begun.1], fun single => ?_⟩
  rcases append_eq_singleton_iff.1 single with ⟨empty, -⟩ | ⟨minus, -⟩
  · exact begun.1 empty
  · exact begun.2 minus

theorem strcatTmp_eq (short : text.length ≤ 15) (room : buffer.length + text.length < 32) :
    strcatTmp buffer text = some (buffer ++ text) := by
  simp [strcatTmp, take_of_length_le short, room]

variable {n : Nat}

theorem itoaLoop_started (begun : started buffer = true) (small : value < power 7)
    (room : buffer.length + 4 * n + 3 < 32) : ∃ first rest, strides 1000 n value = first :: rest ∧
      itoaLoop n value buffer = some (buffer ++ joined comma (threeDigits first) (rest.map threeDigits)) := by
  induction n generalizing value buffer with
  | zero =>
    refine ⟨value % 1000, [], rfl, ?_⟩
    rw [itoaLoop, groupText, if_pos begun, zeroPadded_digits (by decide) (Nat.mod_lt value (by decide))]
    rw [strcatTmp_eq (by simp) room]
    simp [joined]
  | succ n ih =>
    have group : value / 1000 ^ Nat.log 1000 value < 1000 := lt_of_mem_strides (n := n + 1) (by decide) _ mem_cons_self
    have smaller : value % 1000 ^ Nat.log 1000 value < power 7 := (Nat.mod_le _ _).trans_lt small
    obtain ⟨first, rest, printed, loop⟩ :=
      ih (started_of_started begun (threeDigits (value / 1000 ^ Nat.log 1000 value) ++ [comma])) smaller
        (by simp; omega)
    refine ⟨_, _, by rw [strides, printed], ?_⟩
    simp only [itoaLoop, powerLoop_eq small, bind_eq_bind, bind_some]
    rw [groupText, if_pos begun, zeroPadded_digits (by decide) group,
      strcatTmp_eq (by simp) (by simp; omega), bind_some, loop]
    simp [joined]

section

variable (negative : Bool)

/-- Below `10 ^ 21 % 2 ^ 64` the strides are printed. -/
theorem itoaLoop_eq (small : value < power 7) : itoaLoop (Nat.log 1000 value) value (signText negative) =
      some (signText negative ++ groupsText (strides 1000 (Nat.log 1000 value) value)) := by
  have few : Nat.log 1000 value < 7 := Nat.log_lt_of_lt_pow' (by decide) (small.trans (by decide))
  have sign : (signText negative).length ≤ 1 := by cases negative <;> decide
  have unstarted : started (signText negative) = false := by cases negative <;> rfl
  generalize Nat.log 1000 value = n at few ⊢
  cases n with
  | zero =>
    have short : (digits 20 (value % 1000)).length ≤ 3 := digits_length_of_lt (Nat.mod_lt value (by decide))
    rw [itoaLoop, groupText, unstarted, if_neg (by decide), strcatTmp_eq (by omega) (by omega)]
    simp [strides, groupsText, joined]
  | succ n =>
    have group : value / 1000 ^ Nat.log 1000 value < 1000 := lt_of_mem_strides (n := n + 1) (by decide) _ mem_cons_self
    have short : (digits 20 (value / 1000 ^ Nat.log 1000 value)).length ≤ 3 := digits_length_of_lt group
    obtain ⟨d, ds, starts, digit⟩ := exists_digits_cons (value / 1000 ^ Nat.log 1000 value)
    have begun : started (signText negative ++ (digits 20 (value / 1000 ^ Nat.log 1000 value) ++ [comma])) = true := by
      rw [starts]
      exact started_append digit _ ⟨negative, rfl⟩
    obtain ⟨first, rest, printed, loop⟩ :=
      itoaLoop_started (n := n) begun ((Nat.mod_le _ _).trans_lt small) (by simp; omega)
    simp only [itoaLoop, powerLoop_eq small, bind_eq_bind, bind_some]
    rw [groupText, unstarted, if_neg (by decide), strcatTmp_eq (by simp; omega) (by simp; omega), bind_some, loop,
      strides, printed]
    simp [groupsText, joined]

theorem prefix_of_itoaLoop {buffer out : List UInt8} (printed : itoaLoop n value buffer = some out) :
    buffer <+: out := by
  have appended : ∀ {buffer text out : List UInt8}, strcatTmp buffer text = some out → buffer <+: out := by
    intro buffer text out copied
    rw [strcatTmp] at copied
    split at copied
    · cases copied
      exact prefix_append _ _
    · cases copied
  induction n generalizing value buffer with
  | zero => exact appended printed
  | succ n ih =>
    simp only [itoaLoop, bind_eq_bind, bind_eq_some_iff] at printed
    obtain ⟨j, -, next, copied, rest⟩ := printed
    exact (appended copied).trans (ih rest)

theorem groupsText_inj {m : Nat} {rest rest' : List Nat} (small : n < 1000) (small' : m < 1000)
    (lengths : rest.length = rest'.length) (each : ∀ group ∈ rest, group < 1000) (each' : ∀ group ∈ rest', group < 1000)
    (same : groupsText (n :: rest) = groupsText (m :: rest')) : n :: rest = m :: rest' := by
  have cut : ∀ {n : Nat} {rest : List Nat}, n < 1000 → Cut 3 (digits 20 n) (rest.map threeDigits) := by
    intro n rest small
    refine ⟨digits_ne_nil 19 n, digits_length_of_lt small, fun group member => ?_⟩
    obtain ⟨place, -, rfl⟩ := mem_map.1 member
    exact threeDigits_length place
  have clean : ∀ {rest : List Nat}, (∀ group ∈ rest, group < 1000) → ∀ group ∈ rest.map threeDigits, comma ∉ group := by
    intro rest each group member
    obtain ⟨place, inside, rfl⟩ := mem_map.1 member
    exact comma_notMem_of_digits (threeDigits_range (each place inside))
  have removed := congrArg (filter (· != comma)) same
  rw [groupsText, groupsText, filter_joined (comma_notMem_of_digits (digits_range 20 n)) (clean each),
    filter_joined (comma_notMem_of_digits (digits_range 20 m)) (clean each')] at removed
  obtain ⟨first, others⟩ := (cut small).unique (cut small') removed
  rw [digits_injective (small.trans (by decide)) (small'.trans (by decide)) first]
  congr 1
  refine ext_getElem lengths fun i inside inside' => ?_
  have group := congrArg (·[i]?) others
  simp only [getElem?_map, getElem?_eq_getElem inside, getElem?_eq_getElem inside', map_some,
    some.injEq] at group
  exact threeDigits_injective (each _ (getElem_mem _)) (each' _ (getElem_mem _)) group

theorem itoaLoop_ne_of_wrapped {out : List UInt8} (large : power 7 ≤ value) (word : value < 2 ^ 64)
    (printed : itoaLoop 6 value (signText negative) = some out) :
    out ≠ signText negative ++ groupsText (places 1000 7 value) := by
  have unstarted : started (signText negative) = false := by cases negative <;> rfl
  have sign : (signText negative).length ≤ 1 := by cases negative <;> decide
  rw [itoaLoop] at printed
  simp only [bind_eq_bind, bind_eq_some_iff] at printed
  obtain ⟨j, found, buffer, copied, rest⟩ := printed
  rcases powerLoop_wrapped large word with none_ | ⟨j', found', wrong, short⟩
  · rw [none_] at found
    cases found
  · obtain rfl : j' = j := some.inj (found'.symm.trans found)
    have length : (digits 20 (value / j')).length ≤ 14 := digits_length_of_lt short
    rw [groupText, unstarted, if_neg (by decide), strcatTmp_eq (by simp; omega) (by simp; omega),
      some.injEq] at copied
    obtain ⟨tail, rfl⟩ : buffer <+: out := prefix_of_itoaLoop rest
    rw [← copied]
    -- both texts up to the first comma
    intro same
    rw [append_assoc, append_right_inj, places, groupsText, joined] at same
    have upTo : ∀ n tail, (digits 20 n ++ comma :: tail).takeWhile (· != comma) = digits 20 n := by
      intro n tail
      rw [takeWhile_append_of_pos]
      · simp
      · intro b member
        simpa using fun equal : b = comma => comma_notMem_of_digits (digits_range 20 n) (equal ▸ member)
    have heads := congrArg (takeWhile (· != comma)) same
    rw [places, map_cons, flatMap_cons, append_assoc, singleton_append, cons_append, upTo, upTo] at heads
    refine wrong (digits_injective (short.trans (by decide)) ?_ heads)
    exact (Nat.div_le_self _ _).trans_lt (word.trans (by decide))

end

theorem magnitude_lt (value : UInt64) (isUnsigned : Bool) : (magnitude value isUnsigned).1 < 2 ^ 64 := by
  have := value.toNat_lt
  rw [magnitude]
  split
  · simp only [Bool.and_eq_true, decide_eq_true_eq] at *
    omega
  · exact this

theorem pow_le_iff_le_log {i m : Nat} (first : 1 ≤ i) : 1000 ^ i ≤ m ↔ i ≤ Nat.log 1000 m := by
  rcases Nat.eq_zero_or_pos m with rfl | positive
  · rw [Nat.log_zero_right]
    exact iff_of_false (by simp) (by omega)
  · exact (Nat.le_log_iff_pow_le (by decide) (by omega)).symm

theorem itoa_with_comma_faithful_iff (value : UInt64) (isUnsigned : Bool) :
    (∃ out, itoaWithComma value isUnsigned = some out ∧ Faithful (decimalText value isUnsigned) out) ↔
      (magnitude value isUnsigned).1 < 10 ^ 21 % 2 ^ 64 ∧
        ∀ i, 1 ≤ i → 1000 ^ i ≤ (magnitude value isUnsigned).1 →
          (magnitude value isUnsigned).1 / 1000 ^ i % 1000 = 0 → (magnitude value isUnsigned).1 % 1000 ^ i = 0 := by
  have word := magnitude_lt value isUnsigned
  simp only [itoaWithComma, decimalText]
  generalize (magnitude value isUnsigned).2 = negative
  generalize (magnitude value isUnsigned).1 = m at word ⊢
  have bound : (10 ^ 21 % 2 ^ 64) = power 7 := by decide
  have small : m < 1000 ^ (Nat.log 1000 m + 1) := Nat.lt_pow_succ_log_self (by decide) m
  have top : 1000 ^ Nat.log 1000 m ≤ m ∨ Nat.log 1000 m = 0 := by
    rcases Nat.eq_zero_or_pos m with rfl | positive
    · exact .inr (Nat.log_zero_right 1000)
    · exact .inl (Nat.pow_log_le_self 1000 (by omega))
  rw [lengthLoop_eq (word.trans (by decide)), bound]
  simp only [faithful_iff top small word]
  rcases Nat.lt_or_ge m (power 7) with inside | wrapped
  · have zeros : (∀ i, 1 ≤ i → 1000 ^ i ≤ m → m / 1000 ^ i % 1000 = 0 → m % 1000 ^ i = 0) ↔
        NoInnerZero 1000 (Nat.log 1000 m) m :=
      forall_congr' fun i => forall_congr' fun first => by rw [pow_le_iff_le_log first]
    rw [itoaLoop_eq negative inside, zeros, ← strides_eq_places_iff (by decide) small]
    simp only [Option.some.injEq, exists_eq_left', inside, true_and, append_right_inj]
    constructor
    · intro same
      have shape := strides_length 1000 (Nat.log 1000 m) m
      have each := lt_of_mem_strides (b := 1000) (by decide) (n := Nat.log 1000 m) (v := m)
      have each' := lt_of_mem_places (by decide) small
      have shape' := places_length 1000 (Nat.log 1000 m + 1) m
      generalize strides 1000 (Nat.log 1000 m) m = printed at *
      generalize places 1000 (Nat.log 1000 m + 1) m = expected at *
      obtain ⟨p, printed, rfl⟩ := exists_cons_of_length_eq_add_one shape
      obtain ⟨e, expected, rfl⟩ := exists_cons_of_length_eq_add_one shape'
      exact groupsText_inj (each p mem_cons_self) (each' e mem_cons_self) (by simp at shape shape'; omega)
        (fun group member => each group (mem_cons_of_mem _ member))
        (fun group member => each' group (mem_cons_of_mem _ member)) same
    · exact congrArg groupsText
  · have six : Nat.log 1000 m = 6 :=
      (Nat.log_eq_iff (.inl (by decide))).2 ⟨le_trans (by decide) wrapped, word.trans (by decide)⟩
    rw [six]
    refine iff_of_false ?_ fun both => by omega
    rintro ⟨out, printed, rfl⟩
    exact itoaLoop_ne_of_wrapped negative wrapped word printed rfl

/-- 1000005 is printed as 1,005,000, and the largest number not at all. -/
theorem zero_group_lost : itoaWithComma 1000005 true = some (ascii ['1', ',', '0', '0', '5', ',', '0', '0', '0']) ∧
      ¬ Faithful (decimalText 1000005 true) (ascii ['1', ',', '0', '0', '5', ',', '0', '0', '0']) ∧
      itoaWithComma 18446744073709551615 true = none := by
  refine ⟨by decide +kernel, fun faithful => absurd faithful.1 (by decide +kernel), by decide +kernel⟩

end RouterApps.Userland
