/-
# Userland.Scan -- loops that only the data stops (str_api.c, userland_lib.c, iproute_api.c)

* `trim_crcf` goes back over the line ends of a string.  It does not look where the string starts, so a string of nothing
  but line ends is left at the front (`trim_crcf_safe_iff`).
* `get_netmask_bit_count` and `iproute_set_default_gw` shift a bit to the right as long as the mask has it.  For the mask
  of all ones they shift by 32, which is undefined: the second loop tests its count one too late
  (`netmask_bits_defined_iff`).
-/
import RouterApps.GenConfig.Store

namespace RouterApps.Userland

open CLib GenConfig List Option CString

/-! ## Trailing line ends -/

def isLineEnd (b : UInt8) : Bool := b = lf || b = carriageReturn

/-- The loop of `trim_crcf`, with `len`; `none` if it reads `str[-1]`. -/
def trimLoop (bytes : List UInt8) : ℕ → Option ℕ
  | 0 => none
  | len + 1 => if bytes[len]?.any isLineEnd then trimLoop bytes len else some (len + 1)

/-- `trim_crcf`: the terminator is written at `len`. -/
def trimCrcf (str : CString) : Option CString :=
  if str.bytes.length = 0 then some str
  else (trimLoop str.bytes str.bytes.length).map fun len => ofBuffer ((str.bytes ++ [0]).set len 0)

/-- No line end at the end. -/
def Clean (bytes : List UInt8) : Prop := ∀ b ∈ bytes.getLast?, isLineEnd b = false

/-- The longest clean part at the front. -/
structure Trims (bytes trimmed : List UInt8) : Prop where
  front : trimmed <+: bytes
  clean : Clean trimmed
  longest : ∀ t, t <+: bytes → Clean t → t <+: trimmed

variable (bytes : List UInt8)

theorem trims_rdropWhile : Trims bytes (bytes.rdropWhile isLineEnd) := by
  induction bytes using List.reverseRecOn with
  | nil => exact ⟨prefix_rfl, by simp [Clean], fun _ front _ => front⟩
  | append_singleton bytes b ih =>
    rw [rdropWhile_concat]
    split
    · rename_i lineEnd
      refine ⟨ih.front.trans (prefix_append _ _), ih.clean, fun t front clean => ?_⟩
      rcases prefix_concat_iff.1 front with rfl | front
      · exact absurd (clean b (by simp)) (by simp [lineEnd])
      · exact ih.longest t front clean
    · exact ⟨prefix_rfl, by simp_all [Clean], fun _ front _ => front⟩

variable {len : ℕ}

/-- The loop stops behind the last byte that is not a line end. -/
theorem trimLoop_eq (inside : len ≤ bytes.length) : trimLoop bytes len =
      if (bytes.take len).all isLineEnd then none else some ((bytes.take len).rdropWhile isLineEnd).length := by
  induction len with
  | zero => rfl
  | succ len ih =>
    rw [trimLoop, take_add_one, getElem?_eq_getElem inside, ih (Nat.le_of_succ_le inside), toList_some,
      rdropWhile_concat, all_append]
    cases lineEnd : isLineEnd bytes[len] with
    | true => simp [lineEnd]
    | false => simp [lineEnd, inside]

/-- Writing the terminator inside a string cuts it. -/
theorem ofBuffer_set (str : CString) (inside : len ≤ str.bytes.length) :
    (ofBuffer ((str.bytes ++ [0]).set len 0)).bytes = str.bytes.take len := by
  rw [set_eq_take_append_cons_drop, if_pos (by simp; omega), take_append_of_le_length inside]
  exact congrArg bytes
    (ofBuffer_append_nul ⟨str.bytes.take len, fun zero => str.nulFree (mem_of_mem_take zero)⟩ _)

/-- **Trimming.**  No byte outside the string is read or written, and the longest front without a line end at its end is
left, exactly if the string is empty or has a byte that is not a line end. -/
theorem trim_crcf_safe_iff (str : CString) : (∃ trimmed, trimCrcf str = some trimmed ∧ Trims str.bytes trimmed.bytes) ↔
      str.bytes = [] ∨ ∃ b ∈ str.bytes, isLineEnd b = false := by
  by_cases empty : str.bytes = []
  · refine iff_of_true ⟨str, by simp [trimCrcf, empty], ?_⟩ (.inl empty)
    simpa [empty] using trims_rdropWhile []
  have trims := trims_rdropWhile str.bytes
  rw [trimCrcf, if_neg (mt length_eq_zero_iff.1 empty), trimLoop_eq _ le_rfl, take_length]
  by_cases all : str.bytes.all isLineEnd
  · refine iff_of_false (by simp [all]) ?_
    simpa [empty] using all
  · refine iff_of_true ⟨_, by rw [if_neg all, map_some], ?_⟩ (by simpa [empty] using all)
    rwa [ofBuffer_set str trims.front.length_le, ← prefix_iff_eq_take.1 trims.front]

/-- The string of one line feed. -/
theorem line_feed_alone_read_outside : trimCrcf ⟨[lf], by decide⟩ = none := by decide

/-! ## Leading ones -/

/-- `while ((netbit >> subnet) & ntohl(mask)) subnet++;`, with `subnet`, and with a test at the end of the body.  `none`
is a shift by 32 or more. -/
def subnetLoop (breaks : ℕ → Bool) (mask : UInt32) (subnet : ℕ) : Option ℕ :=
  if subnet < 32 then
    if (0x80000000 >>> UInt32.ofNat subnet) &&& ntohl mask ≠ 0 then
      if breaks (subnet + 1) then some (subnet + 1) else subnetLoop breaks mask (subnet + 1)
    else some subnet
  else none
termination_by 32 - subnet

/-- `get_netmask_bit_count`, for the mask that `inet_addr` returns. -/
def getNetmaskBitCount (mask : UInt32) : Option ℕ := subnetLoop (fun _ => false) mask 0

/-- A command that `iproute_set_default_gw` runs. -/
inductive Command
  | deleteGateway
  | addPppGateway
  | addSubnet (net : UInt32) (subnet : ℕ)
  | addGateway
  deriving DecidableEq

/-- `iproute_set_default_gw` with a gateway, for the addresses that `inet_addr` returns. -/
def iprouteSetDefaultGw (ppp : Bool) (ip mask gateway : UInt32) : Option (List Command) :=
  if ppp then some [.deleteGateway, .addPppGateway]
  else if ip = 0xffffffff ∨ gateway = 0xffffffff then some [.deleteGateway]
  else if ip &&& mask ≠ gateway &&& mask then
    (subnetLoop (fun subnet => 32 < subnet) mask 0).map fun subnet =>
      [.deleteGateway, .addSubnet (gateway &&& mask) subnet, .addGateway]
  else some [.deleteGateway, .addGateway]

/-- The word has `n` ones at its front, and no more. -/
structure LeadingOnes (word : UInt32) (n : ℕ) : Prop where
  le : n ≤ 32
  ones : ∀ i < n, word.toBitVec.getMsbD i
  stops : word.toBitVec.getMsbD n = false

theorem netbit_iff {k : ℕ} (inside : k < 32) (word : UInt32) :
    (0x80000000 >>> UInt32.ofNat k) &&& word ≠ 0 ↔ word.toBitVec.getMsbD k := by
  have bit : (0x80000000 >>> UInt32.ofNat k).toNat = 2 ^ (31 - k) := by
    rw [UInt32.toNat_shiftRight, UInt32.toNat_ofNat', Nat.mod_mod_of_dvd _ (by decide), Nat.mod_eq_of_lt inside,
      Nat.shiftRight_eq_div_pow]
    exact @Nat.pow_div 2 31 k (by omega) (by decide)
  have top : word.toBitVec.getMsbD k = word.toNat.testBit (31 - k) := by
    rw [BitVec.getMsbD_eq_getLsbD, decide_eq_true inside]
    rfl
  rw [Ne, ← UInt32.toNat_inj, UInt32.toNat_and, bit, Nat.and_comm, Nat.and_two_pow, top]
  cases word.toNat.testBit (31 - k) <;> simp

theorem all_ones_iff (mask : UInt32) : mask = 0xffffffff ↔ ∀ k < 32, (ntohl mask).toBitVec.getMsbD k := by
  refine ⟨fun same => by subst same; decide, fun ones => ?_⟩
  have same : ntohl mask = 0xffffffff := UInt32.toBitVec_inj.1 <| BitVec.eq_of_getMsbD_eq fun k inside =>
    (ones k inside).trans ((by decide : ∀ k < 32, (0xffffffff : UInt32).toBitVec.getMsbD k) k inside).symm
  rw [← ntohl_ntohl mask, same]
  rfl

section

variable {breaks : ℕ → Bool} {mask : UInt32} (late : ∀ n ≤ 32, breaks n = false)

include late

/-- The loop passes the ones. -/
theorem subnetLoop_eq {n : ℕ} (ones : ∀ i < n, (ntohl mask).toBitVec.getMsbD i) (inside : n ≤ 32) :
    subnetLoop breaks mask 0 = subnetLoop breaks mask n := by
  induction n with
  | zero => rfl
  | succ n ih =>
    have one := (netbit_iff inside _).2 (ones n (Nat.lt_succ_self n))
    rw [ih (fun i less => ones i (Nat.lt_succ_of_lt less)) (Nat.le_of_succ_le inside), subnetLoop,
      if_pos (Nat.lt_of_succ_le inside), if_pos one, late _ inside]
    rfl

theorem subnetLoop_eq_none (ones : mask = 0xffffffff) : subnetLoop breaks mask 0 = none := by
  rw [subnetLoop_eq late ((all_ones_iff mask).1 ones) le_rfl, subnetLoop, if_neg (by decide)]

theorem subnetLoop_iff : (∃ n, subnetLoop breaks mask 0 = some n ∧ LeadingOnes (ntohl mask) n) ↔ mask ≠ 0xffffffff := by
  by_cases ones : mask = 0xffffffff
  · exact iff_of_false (by simp [subnetLoop_eq_none late ones]) (not_not.2 ones)
  · refine iff_of_true ?_ ones
    rw [all_ones_iff] at ones
    push Not at ones
    obtain ⟨inside, zero⟩ := Nat.find_spec ones
    have before : ∀ i < Nat.find ones, (ntohl mask).toBitVec.getMsbD i := fun i less =>
      of_not_not fun clear => Nat.find_min ones less ⟨less.trans inside, clear⟩
    refine ⟨Nat.find ones, ?_, inside.le, before, by simpa using zero⟩
    rw [subnetLoop_eq late before inside.le, subnetLoop, if_pos inside, if_neg fun one => zero ((netbit_iff inside _).1 one)]

end

/-- **Prefix lengths.**  The loops of both functions shift by less than 32 and return the number of leading ones, exactly
if the mask is not all ones. -/
theorem netmask_bits_defined_iff (mask : UInt32) :
    ((∃ n, getNetmaskBitCount mask = some n ∧ LeadingOnes (ntohl mask) n) ∧
        ∃ n, subnetLoop (fun subnet => 32 < subnet) mask 0 = some n ∧ LeadingOnes (ntohl mask) n) ↔
      mask ≠ 0xffffffff := by
  rw [getNetmaskBitCount, subnetLoop_iff fun _ _ => rfl, subnetLoop_iff fun n small => by simpa using small, and_self]

/-- A host route, and a gateway that is another host. -/
theorem all_ones_shifted_out :
    getNetmaskBitCount 0xffffffff = none ∧ iprouteSetDefaultGw false 0x0100000a 0xffffffff 0x0200000a = none := by
  refine ⟨subnetLoop_eq_none (fun _ _ => rfl) rfl, ?_⟩
  rw [iprouteSetDefaultGw, if_neg (by decide), if_neg (by decide),
    subnetLoop_eq_none (fun n small => by simpa using small) rfl]
  rfl

end RouterApps.Userland
