/-
# Netdetect.Bounds -- the table of hosts and the page of history

Two sizes are never checked.  The second table has 255 slots and is indexed by the last
byte of the source address, which can be 255 (`host_255_leaves_table`).  A read of `history`
prints one line of 45 to 58 bytes for every slot of either table that ever had an event, up
to 1255 lines, into a page of 4096.
-/
import RouterApps.Netdetect.Proc
import RouterApps.Netdetect.Verdict

namespace RouterApps.Netdetect

open CLib Inet Theory Theory.Table List Detector

variable {lan : Lan} {d d' : Detector} {p : Packet}

/-! ## The second table -/

/-- Does the verdict on a packet that was counted in `ndh` read the second table? -/
def Detector.readsHost (d : Detector) (ndh : Slot) : Bool :=
  if d.burstDropFlag then ndh.pcount < d.limitBurst
  else d.virusDropFlag && !(virusDropOnly d.virusDropFlag ndh.proto ndh.port && ndh.pcount ≥ d.limitBurst)

/-- Is the second table read or written for the packet? -/
def Packet.usesHost (lan : Lan) (d : Detector) (p : Packet) : Bool :=
  p.counted &&
    match searchNetDetectHistory d.history p.saddr p.protocol p.destPort with
    | none => false
    | some (idx, slot) =>
      (d.entered p idx slot).readsHost (p.counting slot) || checkInternalSubnet lan p.saddr

variable (srcip : UInt32)

theorem hostOverLimit_isSome_iff : (d.hostOverLimit srcip).isSome ↔ lastByte srcip ≠ 255 := by
  have := lastByte_lt srcip
  have inside : (d.hostOverLimit srcip).isSome ↔ lastByte srcip < maxIpHistory := by
    simp [hostOverLimit, d.ipHistoryLength]
  rw [inside, maxIpHistory]
  omega

theorem verdict_isSome_iff (ndh : Slot) :
    (d.verdict srcip ndh).isSome ↔ (d.readsHost ndh = true → lastByte srcip ≠ 255) := by
  rw [← hostOverLimit_isSome_iff]
  unfold verdict readsHost
  generalize d.hostOverLimit srcip = host
  cases d.burstDropFlag with
  | true =>
    by_cases reached : ndh.pcount ≥ d.limitBurst
    · simp [reached]
    · cases host with
      | none => simp
      | some reachedTwice => cases reachedTwice <;> simp [reached]
  | false =>
    -- a packet on the port of a virus is dropped without the second table
    generalize (virusDropOnly d.virusDropFlag ndh.proto ndh.port && decide (ndh.pcount ≥ d.limitBurst)) = dropped
    cases dropped with
    | true => simp
    | false =>
      cases host with
      | none | some reachedTwice => cases d.virusDropFlag <;> simp

theorem target_isSome_iff : (target lan d p).isSome ↔ (p.usesHost lan d = true → lastByte p.saddr ≠ 255) := by
  by_cases counted : p.counted = true
  · rcases takes_or_full p d.history with ⟨before, slot, after, takes⟩ | full
    · rw [target_of_takes counted takes, Packet.usesHost, search_of_takes takes]
      have host : ((d.entered p before.length slot).countHost lan p.saddr p.seconds (p.counting slot)).isSome ↔
          p.InTable lan := countHost_isSome_iff p.seconds (p.counting slot)
      simp only [counted, Bool.true_and, Bool.or_eq_true, or_imp, ← verdict_isSome_iff]
      rw [← Packet.InTable, ← host]
      cases (d.entered p before.length slot).verdict p.saddr (p.counting slot) <;> simp
    · rw [target_of_full counted full, Packet.usesHost, search_of_full full]
      simp
  · simp [target, counted, Packet.usesHost]

/-! ## The text of history -/

/-- The number of bytes of the line of a slot that had an event. -/
def Slot.lineWidth (slot : Slot) : Nat :=
  33 + max 2 (digits 10 slot.proto.toNat).length + max 5 (formatInt slot.pcount.toInt32).bytes.length +
    max 5 (formatInt slot.ecount.toInt32).bytes.length

def Detector.eventSlots (d : Detector) : List Slot := d.slots.filter fun slot => slot.ecount ≠ 0

theorem line_length (slot : Slot) : slot.line.length = if slot.ecount = 0 then 0 else slot.lineWidth := by
  have port : (digits 10 slot.port.toNat).length ≤ 5 := digits_length_of_lt (by have := slot.port.toNat_lt; omega)
  have flag : (digits 10 slot.flag.toNat).length ≤ 3 := digits_length_of_lt (by have := slot.flag.toNat_lt; omega)
  unfold Slot.line Slot.lineWidth
  split
  · rfl
  · simp only [length_append, padded_length, lowerHex_length, ascii, length_map, length_cons, length_nil]
    omega

theorem historyText_length (d : Detector) : d.historyText.length = (d.eventSlots.map Slot.lineWidth).sum := by
  have silent : ∀ slot : Slot, decide (slot.ecount ≠ 0) = false → slot.line = [] := by
    intro slot none
    rw [← length_eq_zero_iff, line_length, if_pos (by simpa using none)]
  rw [historyText, ← flatMap_append, ← slots, ← flatMap_filter_of_silent silent, length_flatMap]
  refine congrArg List.sum (map_congr_left fun slot member => ?_)
  have event : slot.ecount ≠ 0 := by simpa using (mem_filter.1 member).2
  rw [line_length, if_neg event]

/-! ## Every run -/

/-- Over a run the processing of every packet is defined, and every text of `history` fits the page.
-/
structure MemorySafe (lan : Lan) (start : Detector) (inputs : List Input) : Prop where
  indices : ∀ before p after d, inputs = before ++ .event (.packet p) :: after →
    replay (input lan) before start = some d → (target lan d p).isSome
  pages : ∀ before offset length after d, inputs = before ++ .readHistory offset length :: after →
    replay (input lan) before start = some d → FitsPage d.historyText

/-- **Memory safety.**  No packet that uses the second table comes from an address that ends in 255,
and at every read of `history` the lines have at most 4095 bytes together. -/
theorem memory_safe_iff (lan : Lan) (start : Detector) (inputs : List Input) : MemorySafe lan start inputs ↔
      (∀ before p after d, inputs = before ++ .event (.packet p) :: after →
        replay (Detector.input lan) before start = some d → p.usesHost lan d = true → lastByte p.saddr ≠ 255) ∧
      ∀ before offset length after d, inputs = before ++ .readHistory offset length :: after →
        replay (Detector.input lan) before start = some d → (d.eventSlots.map Slot.lineWidth).sum ≤ 4095 := by
  have fits (d : Detector) : FitsPage d.historyText ↔ (d.eventSlots.map Slot.lineWidth).sum ≤ 4095 := by
    rw [FitsPage, historyText_length, pageSize, Nat.add_one_le_iff, Nat.lt_succ_iff]
  constructor
  · intro safe
    exact ⟨fun before p after d split ran => target_isSome_iff.1 (safe.indices before p after d split ran),
      fun before offset length after d split ran => (fits d).1 (safe.pages before offset length after d split ran)⟩
  · rintro ⟨inside, short⟩
    exact ⟨fun before p after d split ran => target_isSome_iff.2 (inside before p after d split ran),
      fun before offset length after d split ran => (fits d).2 (short before offset length after d split ran)⟩

def wideLan : Lan := ⟨[⟨0x0100a8c0, 0x0000ffff⟩], false⟩

/-- A first packet from 192.168.1.255, a host of that LAN, is counted behind the end of the table. -/
theorem host_255_leaves_table :
    ¬MemorySafe wideLan (Detector.init false false) [.event (.packet ⟨0xff01a8c0, ipprotoTcp, 80, 0, 100, 0⟩)] := by
  intro safe
  have inside := safe.indices [] _ [] _ rfl rfl
  revert inside
  decide +kernel

end RouterApps.Netdetect
