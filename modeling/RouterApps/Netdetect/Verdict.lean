/-
# Netdetect.Verdict -- detection without blocking

With both drop flags off the target should only watch.  It does so as long as the
table has a slot for every packet (`packets_continue_iff`).  A packet of a new key
that meets a full table is answered with 0, which netfilter reads as `NF_DROP`
(`full_table_drops`).
-/
import RouterApps.Netdetect.History

namespace RouterApps.Netdetect

open Inet Theory Theory.Table List Option Detector

variable {lan : Lan} {d d' : Detector} {p : Packet}

/-! ## One packet -/

theorem verdict_of_off (burstOff : d.burstDropFlag = false) (virusOff : d.virusDropFlag = false)
    (srcip : UInt32) (ndh : Slot) : d.verdict srcip ndh = some xtContinue := by
  simp [verdict, virusDropOnly, burstOff, virusOff]

theorem countHost_isSome_iff (seconds : UInt32) (ndh : Slot) :
    (d.countHost lan p.saddr seconds ndh).isSome ↔ p.InTable lan := by
  have inside : lastByte p.saddr < d.ipHistory.length ↔ lastByte p.saddr ≠ 255 := by
    have := lastByte_lt p.saddr
    rw [d.ipHistoryLength, maxIpHistory]
    omega
  unfold countHost Packet.InTable
  split
  · rename_i internal
    simp [internal, ← inside]
  · rename_i external
    simp [external]

/-- **One packet.**  The target continues exactly when it does not count the packet, or has a slot
for it. -/
theorem target_continues_iff (burstOff : d.burstDropFlag = false) (virusOff : d.virusDropFlag = false) :
    (∃ d', target lan d p = some (xtContinue, d')) ↔ (p.counted = true → p.HasRoom d ∧ p.InTable lan) := by
  by_cases counted : p.counted = true
  · rcases takes_or_full p d.history with ⟨before, slot, after, takes⟩ | full
    · have room : p.HasRoom d := by
        refine ⟨slot, by simp [takes.split], ?_⟩
        exact takes.chosen.imp And.left fun free => free.2.1
      have off : (d.entered p before.length slot).verdict p.saddr (p.counting slot) = some xtContinue :=
        verdict_of_off (d := d.entered p before.length slot) burstOff virusOff _ _
      rw [target_of_takes counted takes, off]
      simp only [counted, room]
      rw [← countHost_isSome_iff (d := d.entered p before.length slot) p.seconds (p.counting slot)]
      simp [isSome_iff_exists]
    · have noRoom : ¬p.HasRoom d := fun ⟨slot, member, either⟩ =>
        either.elim (full slot member).1 (full slot member).2
      rw [target_of_full counted full]
      simp [counted, noRoom, nfDrop, xtContinue]
  · simp [target, counted]

/-! ## Every run -/

theorem step_flags {event : Event} (ran : d.step lan event = some d') :
    d'.burstDropFlag = d.burstDropFlag ∧ d'.virusDropFlag = d.virusDropFlag := by
  cases event with
  | packet p =>
    obtain ⟨⟨rc, _⟩, entered, rfl⟩ := map_eq_some_iff.1 ran
    exact ⟨(target_flags entered).burstDrop, (target_flags entered).virusDrop⟩
  | tick | clearAll =>
    obtain rfl := Option.some.inj ran
    exact ⟨rfl, rfl⟩

theorem run_off {start : Detector} {events : List Event} (burstOff : start.burstDropFlag = false)
    (virusOff : start.virusDropFlag = false) (ran : replay (step lan) events start = some d) :
    d.burstDropFlag = false ∧ d.virusDropFlag = false := by
  refine (run_of_replay ran).invariant (I := fun d => d.burstDropFlag = false ∧ d.virusDropFlag = false)
    (fun s event s' off moved => ?_) ⟨burstOff, virusOff⟩
  obtain ⟨burst, virus⟩ := step_flags moved
  exact ⟨burst.trans off.1, virus.trans off.2⟩

/-- **Detection without blocking.**  With both drop flags off, the target continues for every packet
of a run exactly if every packet that it counts finds a slot of its key or a free one. -/
theorem packets_continue_iff (lan : Lan) (start : Detector) (events : List Event)
    (burstOff : start.burstDropFlag = false) (virusOff : start.virusDropFlag = false) :
    (∀ before p after d, events = before ++ .packet p :: after →
      replay (Detector.step lan) before start = some d →
      ∃ d', target lan d p = some (xtContinue, d')) ↔
    ∀ before p after d, events = before ++ .packet p :: after →
      replay (Detector.step lan) before start = some d →
      p.counted = true → p.HasRoom d ∧ p.InTable lan := by
  refine forall_congr' fun before => forall_congr' fun p => forall_congr' fun after =>
    forall_congr' fun d => forall_congr' fun _ => forall_congr' fun ran => ?_
  obtain ⟨burst, virus⟩ := run_off burstOff virusOff ran
  exact target_continues_iff burst virus

/-- A packet of a fresh detector continues. -/
theorem first_packet_continues :
    ∃ d', target ⟨[], false⟩ (Detector.init false false) ⟨0x08080808, ipprotoTcp, 80, 0, 100, 0⟩ =
      some (xtContinue, d') := by
  refine (packets_continue_iff ⟨[], false⟩ (Detector.init false false) [.packet _] rfl rfl).2 ?_ [] _ [] _ rfl rfl
  rintro before p after d split ran -
  cases before with
  | nil =>
    obtain rfl := Option.some.inj ran
    exact ⟨⟨Slot.zero, mem_replicate.2 ⟨by decide, rfl⟩, .inr rfl⟩, fun internal => by cases internal⟩
  | cons _ rest => simp at split

/-! ## A full table -/

section

/-- No interface has an address. -/
def noLan : Lan := ⟨[], false⟩

variable {slot : Slot}

theorem target_outside {before after : List Slot} (burstOff : d.burstDropFlag = false)
    (virusOff : d.virusDropFlag = false) (counted : p.counted = true) (takes : p.Takes d.history before slot after) :
    target noLan d p = some (xtContinue, d.entered p before.length slot) := by
  have off : (d.entered p before.length slot).verdict p.saddr (p.counting slot) = some xtContinue :=
    verdict_of_off (d := d.entered p before.length slot) burstOff virusOff _ _
  rw [target_of_takes counted takes, off]
  rfl

def Packet.outside (port : Nat) : Packet := ⟨0x08080808, ipprotoTcp, port.toUInt16, 0, 100, 0⟩

theorem outside_counted (port : Nat) : (Packet.outside port).counted = true := rfl

/-- The first `n` ports, one packet each. -/
def portScan (n : Nat) : List Event := (range n).map fun port => .packet (.outside port)

theorem portScan_succ (n : Nat) : portScan (n + 1) = portScan n ++ [.packet (.outside n)] := by
  simp [portScan, range_succ]

/-- A part of the table that the scan has filled. -/
def Scanned (n : Nat) (slots : List Slot) : Prop :=
  slots.length = n ∧ ∀ slot ∈ slots, slot.ipaddr = 0x08080808 ∧ slot.port.toNat < n

theorem Scanned.key_ne {n : Nat} {slots : List Slot} (scanned : Scanned n slots) (small : n < 65536)
    (member : slot ∈ slots) : slot.key ≠ (Packet.outside n).key := by
  intro same
  have port : slot.port = n.toUInt16 := congrArg (fun key => key.2.2) same
  have bound := (scanned.2 slot member).2
  rw [port, UInt16.toNat_ofNat_of_lt' small] at bound
  omega

theorem replay_portScan {n : Nat} (fits : n ≤ maxHistory) :
    ∃ d slots, replay (step noLan) (portScan n) (init false false) = some d ∧
      d.burstDropFlag = false ∧ d.virusDropFlag = false ∧
      d.history = replicate (maxHistory - n) Slot.zero ++ slots ∧ Scanned n slots := by
  induction n with
  | zero => exact ⟨_, [], rfl, rfl, rfl, by simp [init], rfl, by simp⟩
  | succ n ih =>
    obtain ⟨d, slots, ran, burst, virus, history, scanned⟩ := ih (by omega)
    have small : n < 65536 := Nat.lt_of_succ_le (fits.trans (by decide))
    have room : maxHistory - n = (maxHistory - (n + 1)) + 1 := by omega
    have split : d.history = replicate (maxHistory - (n + 1)) Slot.zero ++ Slot.zero :: slots := by
      rw [history, room, replicate_succ', append_assoc]
      rfl
    have takes : (Packet.outside n).Takes d.history
        (replicate (maxHistory - (n + 1)) Slot.zero) Slot.zero slots := by
      refine ⟨split, .inr ⟨fun other member => ?_, rfl, fun other member zero => ?_⟩⟩
      · rw [history] at member
        rcases mem_append.1 member with free | taken
        · obtain rfl := eq_of_mem_replicate free
          intro same
          exact absurd (congrArg Prod.fst same) (show 0 ≠ 0x08080808 by decide)
        · exact scanned.key_ne small taken
      · exact absurd ((scanned.2 other member).1.symm.trans zero) (by decide)
    have entered : target noLan d (.outside n) =
        some (xtContinue, d.entered (.outside n) (maxHistory - (n + 1)) Slot.zero) := by
      rw [target_outside burst virus (outside_counted n) takes, length_replicate]
    refine ⟨d.entered (.outside n) (maxHistory - (n + 1)) Slot.zero,
      (Packet.outside n).counting Slot.zero :: slots, ?_, burst, virus, ?_, ?_⟩
    · rw [portScan_succ, replay_append, ran]
      simp only [bind_some, replay, step, entered, map_some]
    · have written := entered_history takes
      rwa [length_replicate] at written
    · refine ⟨by simp [scanned.1], fun slot member => ?_⟩
      rcases mem_cons.1 member with rfl | older
      · refine ⟨rfl, ?_⟩
        show (n.toUInt16).toNat < n + 1
        rw [UInt16.toNat_ofNat_of_lt' small]
        omega
      · obtain ⟨address, port⟩ := scanned.2 slot older
        exact ⟨address, by omega⟩

/-- A scan of 1000 ports from outside fills the table, and the next packet is dropped. -/
theorem full_table_drops : ∃ d d', replay (Detector.step noLan) (portScan 1000) (Detector.init false false) = some d ∧
      target noLan d (.outside 1000) = some (nfDrop, d') ∧ nfDrop ≠ xtContinue := by
  obtain ⟨d, slots, ran, -, -, history, scanned⟩ := replay_portScan (n := 1000) (by decide)
  have full : ∀ slot ∈ d.history, slot.key ≠ (Packet.outside 1000).key ∧ slot.ipaddr ≠ 0 := by
    intro slot member
    have taken : slot ∈ slots := by simpa [history, maxHistory] using member
    refine ⟨scanned.key_ne (by decide) taken, ?_⟩
    rw [(scanned.2 slot taken).1]
    decide
  exact ⟨d, _, ran, target_of_full (outside_counted 1000) full, by decide⟩

end

end RouterApps.Netdetect
