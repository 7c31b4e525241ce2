/-
# Salsa2.PortState -- the spanning tree state of a port in the switch (mv_salsa2_api.c)

The driver reaches the registers of the switch through a few registers of the management bus.
It polls the status register until the switch is ready, gives the address of the register in two
halves, and reads or writes the value in two halves.  Any access may fail, and the status may
never show that the switch is ready; the driver then gives up and returns 0.

* `readReg_spec`: a read that goes through returns what the register holds, and no read changes
  a register of the switch;
* `writeReg_spec`: a write changes its register, or none if it gives up;
* whether either gives up depends on the bus alone (`readReg_shadow`, `writeReg_shadow`);
* `keeps_other_ports_iff`: `mv_salsa2_set_stp_port_state` changes two bits of a register that it
  reads first, and takes 0 for what it could not read.

The switch keeps the halves of an address and of a value, writes the register when the low half of
the value arrives, and returns the register at the read address.  An access that fails does nothing.
-/
import RouterApps.Theory.Attempt

namespace RouterApps.Salsa2.PortState

open Theory Theory.Attempt Function

/-! ## The bus -/

/-- `SALSA2_SMI_READ_WRITE_STATUS_REG` and the other registers of the bus, by their numbers. -/
inductive BusReg where
  | writeAddressMsb
  | writeAddressLsb
  | writeDataMsb
  | writeDataLsb
  | readAddressMsb
  | readAddressLsb
  | readDataMsb
  | readDataLsb
  | status
deriving DecidableEq

/-- One access fails, or goes through while the status register shows the given value. -/
inductive Access where
  | fails
  | through (status : BitVec 32)
deriving DecidableEq

/-- The registers of the switch, those of the bus, and how many accesses there were. -/
structure Device where
  registers : BitVec 32 → BitVec 32
  latch : BusReg → BitVec 32
  accesses : Nat

/-- `((msb & 0xffff) << 16) | (lsb & 0xffff)` -/
def join (msb lsb : BitVec 32) : BitVec 32 := (msb &&& 0xffff#32) <<< 16 ||| (lsb &&& 0xffff#32)

/-- `(x >> 16) & 0xffff` -/
def msbOf (x : BitVec 32) : BitVec 32 := x >>> 16 &&& 0xffff#32

/-- `x & 0xffff` -/
def lsbOf (x : BitVec 32) : BitVec 32 := x &&& 0xffff#32

/-- The register of the switch that the read address names. -/
def Device.addressed (d : Device) : BitVec 32 :=
  d.registers (join (d.latch .readAddressMsb) (d.latch .readAddressLsb))

/-- What a read of the bus returns while the status is `status`. -/
def Device.shown (d : Device) (status : BitVec 32) : BusReg → BitVec 32
  | .status => status
  | .readDataMsb => msbOf d.addressed
  | .readDataLsb => lsbOf d.addressed
  | reg => d.latch reg

/-- The switch takes a value that is written to a register of the bus. -/
def Device.take (d : Device) (reg : BusReg) (data : BitVec 32) : Device :=
  { d with
    latch := update d.latch reg data
    registers :=
      if reg = .writeDataLsb then
        update d.registers (join (d.latch .writeAddressMsb) (d.latch .writeAddressLsb))
          (join (d.latch .writeDataMsb) data)
      else d.registers }

def Device.accessed (d : Device) : Device := { d with accesses := d.accesses + 1 }

section

variable (outcome : Nat → Access)

/-- `mv_eth_read_mii` -/
def readMii (reg : BusReg) : Attempt Device (BitVec 32) := fun d =>
  match outcome d.accesses with
  | .fails => (none, d.accessed)
  | .through status => (some (d.shown status reg), d.accessed)

/-- `mv_eth_write_mii` -/
def writeMii (reg : BusReg) (data : BitVec 32) : Attempt Device Unit := fun d =>
  match outcome d.accesses with
  | .fails => (none, d.accessed)
  | .through _ => (some (), (d.take reg data).accessed)

def smiTimeoutCounter : Nat := 1000 * 10

def smiReadReadyBit : Nat := 0

def smiWriteDoneBit : Nat := 1

/-- The loop that polls the status.  `left` turns may still find the bit; the turn after them reads
once more and gives up. -/
def poll (bit : Nat) : Nat → Attempt Device Nat
  | 0 => do
    let _ ← readMii outcome .status
    fail
  | left + 1 => do
    let regVal ← readMii outcome .status
    if regVal.getLsbD bit then pure left else poll bit left

/-- `mv_salsa2_read_reg`; a failure is the return value 0.  The counter of the turns is not set back
between the two loops. -/
def readReg (switchReg : BitVec 32) : Attempt Device (BitVec 32) := do
  let left ← poll outcome smiReadReadyBit (smiTimeoutCounter + 1)
  writeMii outcome .readAddressMsb (msbOf switchReg)
  writeMii outcome .readAddressLsb (lsbOf switchReg)
  let _ ← poll outcome smiReadReadyBit left
  let msb ← readMii outcome .readDataMsb
  let lsb ← readMii outcome .readDataLsb
  pure (join msb lsb)

/-- `mv_salsa2_write_reg` -/
def writeReg (switchReg switchVal : BitVec 32) : Attempt Device Unit := do
  let _ ← poll outcome smiWriteDoneBit (smiTimeoutCounter + 1)
  writeMii outcome .writeAddressMsb (msbOf switchReg)
  writeMii outcome .writeAddressLsb (lsbOf switchReg)
  writeMii outcome .writeDataMsb (msbOf switchVal)
  writeMii outcome .writeDataLsb (lsbOf switchVal)

/-! ## The state of a port -/

def stpStateGroupEntryBase : BitVec 32 := 0x0a006000#32

/-- The register with the state of a port. -/
def stpReg (stpidx : BitVec 32) (port : Nat) : BitVec 32 :=
  let reg := stpStateGroupEntryBase + stpStateGroupEntryBase * stpidx
  if 16 ≤ port then reg + 0x4#32 else reg

/-- The number of a port within its register. -/
def portInReg (port : Nat) : Nat := if 16 ≤ port then port - 16 else port

/-- The state as the switch numbers it: it has no state of its own for a blocked port. -/
def salsa2State (state : BitVec 32) : BitVec 32 := if state = 4#32 then 1#32 else state

def withState (value : BitVec 32) (port : Nat) (state : BitVec 32) : BitVec 32 :=
  (value &&& ~~~(0x3#32 <<< (portInReg port * 2))) ||| (salsa2State state <<< (portInReg port * 2))

/-- The value that `mv_salsa2_set_stp_port_state` works on, and the state of the bus then. -/
def readState (stpidx : BitVec 32) (port : Nat) (d : Device) : Option (BitVec 32) × Device :=
  readReg outcome (stpReg stpidx port) d

/-- Its write; neither result is looked at. -/
def writeState (stpidx : BitVec 32) (port : Nat) (state : BitVec 32) (d : Device) : Option Unit × Device :=
  let read := readState outcome stpidx port d
  writeReg outcome (stpReg stpidx port) (withState (read.1.getD 0) port state) read.2

/-- `mv_salsa2_set_stp_port_state` -/
def setStpPortState (stpidx : BitVec 32) (port : Nat) (state : BitVec 32) (d : Device) : Device :=
  (writeState outcome stpidx port state d).2

end

def Device.stateBits (d : Device) (stpidx : BitVec 32) (port : Nat) : BitVec 2 :=
  (d.registers (stpReg stpidx port)).extractLsb' (portInReg port * 2) 2

/-- What the shifted state puts into the bits of another port; nothing for a state of two bits. -/
def spill (port : Nat) (state : BitVec 32) (other : Nat) : BitVec 2 :=
  (salsa2State state <<< (portInReg port * 2)).extractLsb' (portInReg other * 2) 2

/-! ## What the operations of the bus do -/

theorem join_halves (x : BitVec 32) : join (msbOf x) (lsbOf x) = x := by
  have mask i : (0xffff#32).getLsbD i = decide (i < 16) := by
    rw [BitVec.getLsbD, show (0xffff#32).toNat = 2 ^ 16 - 1 from rfl, Nat.testBit_two_pow_sub_one]
  apply BitVec.eq_of_getLsbD_eq
  intro i inside
  simp only [join, msbOf, lsbOf, BitVec.getLsbD_or, BitVec.getLsbD_and, BitVec.getLsbD_shiftLeft, mask]
  by_cases low : i < 16
  · simp [low]
  · simp [low, inside, show i - 16 < 16 by omega, show 16 + (i - 16) = i by omega]

variable {outcome : Nat → Access} {pre failed : Device → Prop}

theorem readMii_spec {reg : BusReg} {post : BitVec 32 → Device → Prop}
    (value : ∀ d status, pre d → post (d.shown status reg) d.accessed) (lost : ∀ d, pre d → failed d.accessed) :
    Triple pre (readMii outcome reg) post failed := by
  intro d holds
  unfold readMii
  cases outcome d.accesses with
  | fails => exact lost d holds
  | through status => exact value d status holds

theorem writeMii_spec {reg : BusReg} {data : BitVec 32} {post : Unit → Device → Prop}
    (taken : ∀ d, pre d → post () (d.take reg data).accessed) (lost : ∀ d, pre d → failed d.accessed) :
    Triple pre (writeMii outcome reg data) post failed := by
  intro d holds
  unfold writeMii
  cases outcome d.accesses with
  | fails => exact lost d holds
  | through _ => exact taken d holds

theorem poll_spec (stable : ∀ d, pre d → pre d.accessed) (lost : ∀ d, pre d → failed d) (bit left : Nat) :
    Triple pre (poll outcome bit left) (fun _ => pre) failed := by
  have read : Triple pre (readMii outcome .status) (fun _ => pre) failed :=
    readMii_spec (fun d _ holds => stable d holds) (fun d holds => lost _ (stable d holds))
  induction left with
  | zero => exact read.bind fun _ => .fail lost
  | succ left ih =>
    refine read.bind fun regVal => ?_
    split
    · exact .pure fun _ holds => holds
    · exact ih

/-- The registers of the switch and those of the bus. -/
def Device.Has (registers : BitVec 32 → BitVec 32) (latch : BusReg → BitVec 32) (d : Device) : Prop :=
  d.registers = registers ∧ d.latch = latch

section

variable {registers : BitVec 32 → BitVec 32} {latch : BusReg → BitVec 32} {reg : BusReg}

theorem poll_has (bit left : Nat) :
    Triple (Device.Has registers latch) (poll outcome bit left) (fun _ => Device.Has registers latch)
      (fun d => d.registers = registers) :=
  poll_spec (fun _ known => known) (fun _ known => known.1) bit left

theorem latch_has (quiet : reg ≠ .writeDataLsb) (data : BitVec 32) :
    Triple (Device.Has registers latch) (writeMii outcome reg data)
      (fun _ => Device.Has registers (update latch reg data)) (fun d => d.registers = registers) := by
  refine writeMii_spec ?_ fun _ known => known.1
  rintro d ⟨rfl, rfl⟩
  exact ⟨if_neg quiet, rfl⟩

theorem shown_has (fixed : reg ≠ .status) : Triple (Device.Has registers latch) (readMii outcome reg)
      (fun value d => value = Device.shown ⟨registers, latch, 0⟩ 0 reg ∧ d.Has registers latch)
      (fun d => d.registers = registers) := by
  refine readMii_spec ?_ fun _ known => known.1
  rintro d status ⟨rfl, rfl⟩
  refine ⟨?_, rfl, rfl⟩
  cases reg <;> first | rfl | exact absurd rfl fixed

end

/-- **A read that goes through returns what the register holds; no read changes a register.** -/
theorem readReg_spec (outcome : Nat → Access) (registers : BitVec 32 → BitVec 32) (switchReg : BitVec 32) :
    Triple (fun d => d.registers = registers) (readReg outcome switchReg)
      (fun value d => value = registers switchReg ∧ d.registers = registers) (fun d => d.registers = registers) := by
  have known latch : Triple (Device.Has registers latch) (readReg outcome switchReg)
      (fun value d => value = registers switchReg ∧ d.registers = registers) (fun d => d.registers = registers) := by
    refine (poll_has _ _).bind fun left => ?_
    refine (latch_has (by decide) _).bind fun _ => (latch_has (by decide) _).bind fun _ => ?_
    refine (poll_has _ _).bind fun _ => (shown_has (by decide)).bind fun msb => .assuming fun high => ?_
    refine (shown_has (by decide)).bind fun lsb => .assuming fun low => .pure fun d holds => ⟨?_, holds.1⟩
    simp [high, low, Device.shown, Device.addressed, join_halves]
  exact fun d same => known d.latch d ⟨same, rfl⟩

/-- **A write that goes through changes its register; one that gives up changes none.** -/
theorem writeReg_spec (outcome : Nat → Access) (registers : BitVec 32 → BitVec 32) (switchReg switchVal : BitVec 32) :
    Triple (fun d => d.registers = registers) (writeReg outcome switchReg switchVal)
      (fun _ d => d.registers = update registers switchReg switchVal) (fun d => d.registers = registers) := by
  have known latch : Triple (Device.Has registers latch) (writeReg outcome switchReg switchVal)
      (fun _ d => d.registers = update registers switchReg switchVal) (fun d => d.registers = registers) := by
    refine (poll_has _ _).bind fun _ => (latch_has (by decide) _).bind fun _ => (latch_has (by decide) _).bind fun _ => ?_
    refine (latch_has (by decide) _).bind fun _ => writeMii_spec ?_ fun _ holds => holds.1
    rintro d ⟨same, latched⟩
    simp [Device.take, Device.accessed, same, latched, join_halves]
  exact fun d same => known d.latch d ⟨same, rfl⟩

/-! ## Which accesses go through

Whether a read or a write gives up depends on what comes of the accesses and not on the switch. -/

section

variable (outcome : Nat → Access)

def nextAccess : Attempt Nat (BitVec 32) := fun n =>
  match outcome n with
  | .fails => (none, n + 1)
  | .through status => (some status, n + 1)

/-- The accesses of `poll`. -/
def pollAccesses (bit : Nat) : Nat → Attempt Nat Nat
  | 0 => do
    let _ ← nextAccess outcome
    fail
  | left + 1 => do
    let status ← nextAccess outcome
    if status.getLsbD bit then pure left else pollAccesses bit left

def readAccesses : Attempt Nat Unit := do
  let left ← pollAccesses outcome smiReadReadyBit (smiTimeoutCounter + 1)
  let _ ← nextAccess outcome
  let _ ← nextAccess outcome
  let _ ← pollAccesses outcome smiReadReadyBit left
  let _ ← nextAccess outcome
  let _ ← nextAccess outcome
  pure ()

/-- The accesses of `mv_salsa2_write_reg`. -/
def writeAccesses : Attempt Nat (BitVec 32) := do
  let _ ← pollAccesses outcome smiWriteDoneBit (smiTimeoutCounter + 1)
  let _ ← nextAccess outcome
  let _ ← nextAccess outcome
  let _ ← nextAccess outcome
  nextAccess outcome

/-- The read of a call with `n` accesses before it goes through. -/
def readGoes (n : Nat) : Bool := (readAccesses outcome n).1.isSome

def writeGoes (n : Nat) : Bool := (writeAccesses outcome (readAccesses outcome n).2).1.isSome

end

section

variable (outcome) (reg : BusReg)

theorem readMii_shadow :
    Shadow Device.accesses (fun value status => reg = .status → value = status) (readMii outcome reg)
      (nextAccess outcome) := by
  intro d
  unfold readMii nextAccess
  cases outcome d.accesses with
  | fails => exact ⟨rfl, .none⟩
  | through status =>
    refine ⟨rfl, .some ?_⟩
    rintro rfl
    rfl

theorem writeMii_shadow (data : BitVec 32) :
    Shadow Device.accesses (fun _ _ => True) (writeMii outcome reg data) (nextAccess outcome) := by
  intro d
  unfold writeMii nextAccess
  cases outcome d.accesses with
  | fails => exact ⟨rfl, .none⟩
  | through status => exact ⟨rfl, .some trivial⟩

theorem poll_shadow (bit left : Nat) :
    Shadow Device.accesses Eq (poll outcome bit left) (pollAccesses outcome bit left) := by
  induction left with
  | zero => exact (readMii_shadow outcome .status).bind fun _ _ _ => .fail
  | succ left ih =>
    refine (readMii_shadow outcome .status).bind fun value status same => ?_
    obtain rfl := same rfl
    split
    · exact .pure rfl
    · exact ih

theorem readReg_shadow (switchReg : BitVec 32) :
    Shadow Device.accesses (fun _ _ => True) (readReg outcome switchReg) (readAccesses outcome) := by
  refine (poll_shadow outcome _ _).bind fun left _ same => ?_
  subst same
  refine (writeMii_shadow outcome _ _).bind fun _ _ _ => (writeMii_shadow outcome _ _).bind fun _ _ _ => ?_
  refine (poll_shadow outcome _ _).bind fun _ _ _ => (readMii_shadow outcome _).bind fun msb _ _ => ?_
  refine (readMii_shadow outcome _).bind fun lsb _ _ => ?_
  exact .pure trivial

theorem writeReg_shadow (switchReg switchVal : BitVec 32) :
    Shadow Device.accesses (fun _ _ => True) (writeReg outcome switchReg switchVal) (writeAccesses outcome) := by
  refine (poll_shadow outcome _ _).bind fun _ _ _ => (writeMii_shadow outcome _ _).bind fun _ _ _ => ?_
  refine (writeMii_shadow outcome _ _).bind fun _ _ _ => (writeMii_shadow outcome _ _).bind fun _ _ _ => ?_
  exact writeMii_shadow outcome _ _

variable (stpidx : BitVec 32)

theorem isSome_readState (port : Nat) (d : Device) :
    (readState outcome stpidx port d).1.isSome = readGoes outcome d.accesses :=
  (readReg_shadow outcome (stpReg stpidx port)).isSome_eq d

theorem isSome_writeState (port : Nat) (state : BitVec 32) (d : Device) :
    (writeState outcome stpidx port state d).1.isSome = writeGoes outcome d.accesses := by
  have after : (readAccesses outcome d.accesses).2 = (readState outcome stpidx port d).2.accesses :=
    (readReg_shadow outcome (stpReg stpidx port) d).1
  rw [writeGoes, after]
  exact (writeReg_shadow outcome (stpReg stpidx port) _).isSome_eq _

end

/-! ## The other ports -/

/-- Two ports have their bits in one register. -/
def SameReg (port other : Nat) : Prop := 16 ≤ other ↔ 16 ≤ port

instance (port other : Nat) : Decidable (SameReg port other) := inferInstanceAs (Decidable (_ ↔ _))

variable {port other : Nat}

theorem SameReg.stpReg_eq (same : SameReg port other) (stpidx : BitVec 32) :
    stpReg stpidx other = stpReg stpidx port := by
  simp only [stpReg, if_congr same rfl rfl]

theorem stpReg_ne (differ : ¬SameReg port other) (stpidx : BitVec 32) : stpReg stpidx other ≠ stpReg stpidx port := by
  simp only [stpReg]
  by_cases high : 16 ≤ other
  · have low : ¬16 ≤ port := fun high' => differ ⟨fun _ => high', fun _ => high⟩
    simp [high, low]
  · have high' : 16 ≤ port := by
      by_contra low
      exact differ ⟨fun h => absurd h high, fun h => absurd h low⟩
    simp [high, high']

theorem SameReg.apart (same : SameReg port other) (distinct : other ≠ port) : portInReg other ≠ portInReg port := by
  unfold SameReg at same
  simp only [portInReg, if_congr same rfl rfl]
  split <;> omega

theorem getLsbD_shift_of_ne (small : BitVec 32) (two : small.toNat < 2 ^ 2) {a b i : Nat} (apart : b ≠ a)
    (inside : i < 2) : (small <<< (a * 2)).getLsbD (b * 2 + i) = false := by
  by_cases below : b * 2 + i < a * 2
  · simp [below]
  · have high : small.getLsbD (b * 2 + i - a * 2) = false :=
      Nat.testBit_lt_two_pow (Nat.lt_of_lt_of_le two (Nat.pow_le_pow_right (by decide) (by omega)))
    simp [high]

/-- In the bits of another port, the new value has the bits of the old and the spill. -/
theorem extract_withState (same : SameReg port other) (distinct : other ≠ port) (value state : BitVec 32) :
    (withState value port state).extractLsb' (portInReg other * 2) 2 =
      value.extractLsb' (portInReg other * 2) 2 ||| spill port state other := by
  apply BitVec.eq_of_getLsbD_eq
  intro i inside
  have kept := getLsbD_shift_of_ne 0x3#32 (by decide) (same.apart distinct) inside
  have bits : (value &&& ~~~(0x3#32 <<< (portInReg port * 2))).getLsbD (portInReg other * 2 + i) =
      value.getLsbD (portInReg other * 2 + i) := by
    rw [BitVec.getLsbD_and, BitVec.getLsbD_not, kept]
    by_cases high : portInReg other * 2 + i < 32
    · simp [high]
    · simp [BitVec.getLsbD_of_ge value _ (Nat.le_of_not_lt high)]
  simp only [withState, spill, BitVec.getLsbD_extractLsb', BitVec.getLsbD_or, bits, inside, decide_true, Bool.true_and]

/-- **The bits of another port after the call.** -/
theorem stateBits_setStpPortState (distinct : other ≠ port) (stpidx state : BitVec 32) (d : Device) :
    (setStpPortState outcome stpidx port state d).stateBits stpidx other =
      if SameReg port other ∧ writeGoes outcome d.accesses then
        (if readGoes outcome d.accesses then d.stateBits stpidx other else 0#2) ||| spill port state other
      else d.stateBits stpidx other := by
  have read := (readReg_spec outcome d.registers (stpReg stpidx port)).cases (Eq.refl d.registers)
  have regs : (readState outcome stpidx port d).2.registers = d.registers := by
    rcases read with ⟨_, -, -, same⟩ | ⟨-, same⟩ <;> exact same
  have value : (readState outcome stpidx port d).1.getD 0 =
      if readGoes outcome d.accesses then d.registers (stpReg stpidx port) else 0 := by
    rw [← isSome_readState outcome stpidx port d]
    rcases read with ⟨_, through, rfl, -⟩ | ⟨gaveUp, -⟩
    · simp [readState, through]
    · simp [readState, gaveUp]
  have wrote := (writeReg_spec outcome d.registers (stpReg stpidx port)
    (withState ((readState outcome stpidx port d).1.getD 0) port state)).cases regs
  change (∃ _, (writeState outcome stpidx port state d).1 = _ ∧ (setStpPortState outcome stpidx port state d).registers = _) ∨
    ((writeState outcome stpidx port state d).1 = _ ∧ (setStpPortState outcome stpidx port state d).registers = _) at wrote
  rw [← isSome_writeState outcome stpidx port state d]
  rcases wrote with ⟨_, through, changed⟩ | ⟨gaveUp, kept⟩
  · rw [through, Device.stateBits, changed]
    by_cases same : SameReg port other
    · rw [if_pos ⟨same, rfl⟩, same.stpReg_eq, update_self, extract_withState same distinct, value,
        Device.stateBits, same.stpReg_eq]
      split <;> simp
    · rw [if_neg fun both => same both.1, update_of_ne (stpReg_ne same stpidx), Device.stateBits]
  · simp [gaveUp, Device.stateBits, kept]

/-- The write gives up or is to the other register, or what was read for the port, with the spill of
the state, is what it has. -/
theorem keeps_port_iff (outcome : Nat → Access) (distinct : other ≠ port) (stpidx state : BitVec 32) (d : Device) :
    (setStpPortState outcome stpidx port state d).stateBits stpidx other = d.stateBits stpidx other ↔
      writeGoes outcome d.accesses = false ∨ (SameReg port other →
        (if readGoes outcome d.accesses then d.stateBits stpidx other else 0#2) ||| spill port state other =
          d.stateBits stpidx other) := by
  rw [stateBits_setStpPortState distinct]
  cases goes : writeGoes outcome d.accesses with
  | false => simp
  | true =>
    by_cases same : SameReg port other <;> simp

/-- **The other ports keep their bits exactly if the write gives up, or if what was read for them,
with the spill of the state, is what they have.** -/
theorem keeps_other_ports_iff (outcome : Nat → Access) (stpidx : BitVec 32) (port : Nat) (state : BitVec 32)
    (d : Device) : (∀ other < 32, other ≠ port →
        (setStpPortState outcome stpidx port state d).stateBits stpidx other = d.stateBits stpidx other) ↔
      writeGoes outcome d.accesses = false ∨
      ∀ other < 32, other ≠ port → SameReg port other →
        (if readGoes outcome d.accesses then d.stateBits stpidx other else 0#2) ||| spill port state other =
          d.stateBits stpidx other := by
  rw [forall₃_congr fun other _ distinct => keeps_port_iff outcome distinct stpidx state d]
  cases writeGoes outcome d.accesses with
  | false | true => simp

/-- Every port is forwarding; the first access of the bus fails, and the switch is ready in all
others. -/
def forwarding : Device := ⟨fun _ => 0xffffffff#32, fun _ => 0, 0⟩

def firstFails (n : Nat) : Access := if n = 0 then .fails else .through 0x3#32

/-- Port 0 is set to forwarding, which it is; port 1 loses its state. -/
theorem neighbour_loses_state :
    forwarding.stateBits 0 1 = 3#2 ∧ (setStpPortState firstFails 0 0 3#32 forwarding).stateBits 0 1 = 0#2 := by
  decide +kernel

end RouterApps.Salsa2.PortState
