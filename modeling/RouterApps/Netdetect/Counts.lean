/-
# Netdetect.Counts -- what the counters of the history table hold

While the table never fills up, no key has two slots, and the slot of a key is created by its first
packet and freed by the timer only.  Its `pcount` should be the number of packets of the key since
the last tick (`CountsExactly`).

A free slot is known by its address 0 alone.  A packet with source 0 is counted in a free slot and
leaves it free, so the count stays behind for the key that takes the slot next
(`zero_source_miscounts`).
-/
import RouterApps.Netdetect.Verdict

namespace RouterApps.Netdetect

open Inet Theory Theory.Table List Option Detector

variable {lan : Lan} {d d' : Detector} {p : Packet}

/-! ## The number of packets since the last tick -/

def Event.tally (key : Key) (n : Nat) : Event → Nat
  | .packet p => if p.counted = true ∧ p.key = key then n + 1 else n
  | .tick => 0
  | .clearAll => n

/-- The packets of a key that were processed after the last tick. -/
def sinceTick (key : Key) (events : List Event) : Nat := events.foldl (Event.tally key) 0

theorem sinceTick_snoc (key : Key) (events : List Event) (event : Event) :
    sinceTick key (events ++ [event]) = event.tally key (sinceTick key events) := by
  simp [sinceTick]

/-! ## What is claimed of a table -/

/-- Every key has at most one slot, and that slot holds the number of its packets since the
last tick. -/
structure CountsExactly (events : List Event) (d : Detector) : Prop where
  oneSlot : ∀ (i j : Nat) (a b : Slot), d.history[i]? = some a → d.history[j]? = some b →
    a.key = b.key → a.ipaddr ≠ 0 → i = j
  count : ∀ slot ∈ d.history, slot.ipaddr ≠ 0 → slot.pcount.toNat = sinceTick slot.key events

/-- In every state of the run some slot is free. -/
def NeverFull (lan : Lan) (start : Detector) (events : List Event) : Prop :=
  ∀ before after d, events = before ++ after → replay (step lan) before start = some d →
    ∃ slot ∈ d.history, slot.ipaddr = 0

/-- No counter is at the end of its range, and, if the key is new, the count in the last free slot
is 0. -/
structure Packet.FindsCount (p : Packet) (d : Detector) : Prop where
  inRange : ∀ slot ∈ d.history, slot.key = p.key → slot.pcount ≠ 0xFFFFFFFF
  fresh : (∀ slot ∈ d.history, slot.key ≠ p.key) → ∀ before slot after,
    d.history = before ++ slot :: after → slot.ipaddr = 0 → (∀ other ∈ after, other.ipaddr ≠ 0) →
    slot.pcount = 0

/-! ## Slots and their owners -/

def Slot.owner (slot : Slot) : Option Key := if slot.ipaddr = 0 then none else some slot.key

variable {slot : Slot} {events : List Event}

theorem Slot.owner_eq_some {key : Key} : slot.owner = some key ↔ slot.ipaddr ≠ 0 ∧ slot.key = key := by
  unfold Slot.owner
  split <;> simp_all

theorem Slot.owner_eq_none : slot.owner = none ↔ slot.ipaddr = 0 := by
  unfold Slot.owner
  split <;> simp_all

theorem counting_pcount (p : Packet) (slot : Slot) : (p.counting slot).pcount = slot.pcount + 1 := by
  unfold Packet.counting Slot.hit
  split <;> rfl

/-- Whichever way the slot was chosen, it belongs to the packet's key afterwards. -/
theorem Packet.Takes.key {history before after : List Slot}
    (takes : p.Takes history before slot after) : (p.counting slot).key = p.key := by
  unfold Packet.counting Slot.hit
  split
  · rfl
  · rename_i used
    rcases takes.chosen with ⟨own, -⟩ | ⟨-, free, -⟩
    · exact own
    · exact absurd free used

/-- The other slots of the table do not have the packet's key. -/
theorem Packet.Takes.others {history before after : List Slot}
    (takes : p.Takes history before slot after) (distinct : Distinct Slot.owner none history)
    (nonzero : p.saddr ≠ 0) : ∀ other ∈ before ++ after, other.key ≠ p.key := by
  intro other member same
  obtain ⟨rfl, chosen⟩ := takes
  rcases chosen with ⟨own, earlier⟩ | ⟨absent, -, -⟩
  · rcases mem_append.1 member with inBefore | inAfter
    · exact earlier other inBefore same
    · have apart := (pairwise_cons.1 (pairwise_append.1 distinct).2.1).1 other inAfter
      have address : slot.ipaddr = p.saddr := congrArg Prod.fst own
      have address' : other.ipaddr = p.saddr := congrArg Prod.fst same
      have free := Slot.owner_eq_none.1 (apart (by simp [Slot.owner, address, address', own, same]))
      exact nonzero (address.symm.trans free)
  · refine absent other ?_ same
    rcases mem_append.1 member with inBefore | inAfter
    · exact mem_append_left _ inBefore
    · exact mem_append_right _ (mem_cons_of_mem _ inAfter)

theorem Slot.aged_cases (limit : UInt32) (slot : Slot) : (slot.ipaddr = 0 ∧ slot.aged limit = slot) ∨
    ((slot.aged limit).key = slot.key ∧ (slot.aged limit).pcount = 0) ∨ slot.aged limit = Slot.zero := by
  unfold Slot.aged Slot.check
  split
  · rename_i free
    exact .inl ⟨free, rfl⟩
  · split
    · exact .inr (.inl ⟨rfl, rfl⟩)
    · split
      · exact .inr (.inl ⟨rfl, rfl⟩)
      · exact .inr (.inr rfl)

theorem netDetectChecker_history (d : Detector) :
    (netDetectChecker d).history = d.history.map (Slot.aged d.limitBurst) := checkSlots_fst _ _ _

/-! ## What holds whatever the counters hold -/

/-- Keys are distinct, and a key with a packet since the last tick is in the table. -/
structure Tracked (events : List Event) (d : Detector) : Prop where
  distinct : Distinct Slot.owner none d.history
  present : ∀ key : Key, key.1 ≠ 0 → sinceTick key events ≠ 0 → ∃ slot ∈ d.history, slot.key = key

theorem tracked_init (burst virus : Bool) : Tracked [] (init burst virus) :=
  ⟨distinct_replicate _ rfl, fun _ _ counted => absurd rfl counted⟩

variable {event : Event}

section

variable (tracked : Tracked events d)

include tracked

theorem Tracked.oneSlot (i j : Nat) (a b : Slot)
    (ha : d.history[i]? = some a) (hb : d.history[j]? = some b) (same : a.key = b.key) (used : a.ipaddr ≠ 0) :
    i = j := by
  have used' : b.ipaddr ≠ 0 := by
    have address : a.ipaddr = b.ipaddr := congrArg Prod.fst same
    rwa [← address]
  refine tracked.distinct.index_eq ha hb ?_ (fun free => used (Slot.owner_eq_none.1 free))
  rw [Slot.owner_eq_some.2 ⟨used, rfl⟩, Slot.owner_eq_some.2 ⟨used', same.symm⟩]

theorem Tracked.enter {before after : List Slot}
    (takes : p.Takes d.history before slot after)
    (entered : d'.history = before ++ p.counting slot :: after) : Tracked (events ++ [.packet p]) d' := by
  constructor
  · rw [entered]
    refine Distinct.replace (takes.split ▸ tracked.distinct) fun other member same => ?_
    by_cases zero : p.saddr = 0
    · exact Slot.owner_eq_none.2 ((congrArg Prod.fst takes.key).trans zero)
    · by_contra used
      obtain ⟨key, owner⟩ := ne_none_iff_exists'.1 used
      obtain ⟨-, own⟩ := Slot.owner_eq_some.1 owner
      obtain ⟨-, other_own⟩ := Slot.owner_eq_some.1 (same.trans owner)
      exact takes.others tracked.distinct zero other member (other_own.trans (own.symm.trans takes.key))
  · intro key nonzero counted
    rw [entered]
    by_cases own : p.key = key
    · exact ⟨_, mem_append_right _ mem_cons_self, takes.key.trans own⟩
    · rw [sinceTick_snoc, Event.tally, if_neg fun both => own both.2] at counted
      obtain ⟨found, member, isKey⟩ := tracked.present key nonzero counted
      rw [takes.split] at member
      rcases mem_append.1 member with inBefore | atSlot
      · exact ⟨found, mem_append_left _ inBefore, isKey⟩
      · rcases mem_cons.1 atSlot with rfl | inAfter
        · -- the slot taken was not this key's: it had the packet's key, or was free
          rcases takes.chosen with ⟨same, -⟩ | ⟨-, free, -⟩
          · exact absurd (same.symm.trans isKey) own
          · exact absurd (by rw [← isKey]; exact free) nonzero
        · exact ⟨found, mem_append_right _ (mem_cons_of_mem _ inAfter), isKey⟩

theorem Tracked.tick : Tracked (events ++ [.tick]) (netDetectChecker d) := by
  constructor
  · rw [netDetectChecker_history]
    refine tracked.distinct.map fun slot => ?_
    rcases slot.aged_cases d.limitBurst with ⟨-, same⟩ | ⟨key, -⟩ | cleared
    · exact .inl (congrArg _ same)
    · have address : (slot.aged d.limitBurst).ipaddr = slot.ipaddr := congrArg Prod.fst key
      exact .inl (by simp [Slot.owner, key, address])
    · exact .inr (by rw [cleared]; rfl)
  · intro key _ counted
    exact absurd (by rw [sinceTick_snoc]; rfl) counted

/-- A step in a table that is not full. -/
theorem Tracked.step (room : ∃ slot ∈ d.history, slot.ipaddr = 0) (kind : event ≠ .clearAll)
    (ran : d.step lan event = some d') : Tracked (events ++ [event]) d' := by
  cases event with
  | clearAll => exact absurd rfl kind
  | tick =>
    obtain rfl := some.inj ran
    exact tracked.tick
  | packet p =>
    obtain ⟨⟨rc, _⟩, entered, rfl⟩ := map_eq_some_iff.1 ran
    rcases target_cases entered with ⟨skipped, rfl⟩ | ⟨-, full, -⟩ | ⟨-, _, _, _, takes, history, -⟩
    · refine ⟨tracked.distinct, fun key nonzero counted => tracked.present key nonzero ?_⟩
      simpa [sinceTick_snoc, Event.tally, skipped] using counted
    · obtain ⟨slot, member, free⟩ := room
      exact absurd free (full slot member).2
    · exact tracked.enter takes history

end

/-! ## Exact counts -/

theorem toNat_succ_iff (x : UInt32) : (x + 1).toNat = x.toNat + 1 ↔ x ≠ 0xFFFFFFFF := by
  have bound := x.toNat_lt
  rw [UInt32.toNat_add, ← UInt32.toNat_inj.ne]
  simp only [UInt32.reduceToNat]
  omega

theorem sinceTick_own (events : List Event) (counted : p.counted = true) :
    sinceTick p.key (events ++ [.packet p]) = sinceTick p.key events + 1 := by
  simp [sinceTick_snoc, Event.tally, counted]

theorem sinceTick_other (events : List Event) {key : Key} (other : p.key ≠ key) :
    sinceTick key (events ++ [.packet p]) = sinceTick key events := by
  simp [sinceTick_snoc, Event.tally, other]

theorem Tracked.sinceTick_eq_zero (tracked : Tracked events d) {key : Key}
    (nonzero : key.1 ≠ 0) (absent : ∀ slot ∈ d.history, slot.key ≠ key) : sinceTick key events = 0 := by
  by_contra counted
  obtain ⟨slot, member, same⟩ := tracked.present key nonzero counted
  exact absent slot member same

section

variable {before after : List Slot} (tracked : Tracked events d)
  (exact_ : ∀ slot ∈ d.history, slot.ipaddr ≠ 0 → slot.pcount.toNat = sinceTick slot.key events)
  (takes : p.Takes d.history before slot after) (counted : p.counted = true)

include tracked exact_ takes counted

/-- The count in the slot of a packet is right after it exactly if the packet finds a right count. -/
theorem counting_exact_iff (nonzero : p.saddr ≠ 0) :
    (p.counting slot).pcount.toNat = sinceTick p.key (events ++ [.packet p]) ↔ p.FindsCount d := by
  rw [counting_pcount, sinceTick_own events counted]
  have member : slot ∈ d.history := by
    rw [takes.split]
    exact mem_append_right _ mem_cons_self
  rcases takes.chosen with ⟨own, -⟩ | ⟨absent, free, behind⟩
  · have used : slot.ipaddr ≠ 0 := by
      have address : slot.ipaddr = p.saddr := congrArg Prod.fst own
      rwa [address]
    rw [← own, ← exact_ slot member used, toNat_succ_iff]
    constructor
    · refine fun inRange => ⟨fun other inTable same => ?_, fun absent => absurd own (absent slot member)⟩
      have owner : ∀ s : Slot, s.key = p.key → s.owner = some p.key := fun s isKey =>
        Slot.owner_eq_some.2 ⟨by rw [show s.ipaddr = p.saddr from congrArg Prod.fst isKey]; exact nonzero, isKey⟩
      rw [tracked.distinct.eq_of_mem inTable member ((owner other same).trans (owner slot own).symm)
        (by rw [owner other same]; simp)]
      exact inRange
    · exact fun finds => finds.inRange slot member own
  · rw [tracked.sinceTick_eq_zero nonzero absent]
    constructor
    · refine fun one => ⟨fun other inTable same => absurd same (absent other inTable), fun _ => ?_⟩
      intro before' slot' after' split' free' behind'
      have last : some (before'.length, slot') = some (before.length, slot) :=
        (search_of_takes ⟨split', .inr ⟨absent, free', behind'⟩⟩).symm.trans (search_of_takes takes)
      obtain ⟨-, rfl⟩ := Prod.mk.inj (some.inj last)
      have bound := slot'.pcount.toNat_lt
      rw [UInt32.toNat_add] at one
      simp only [UInt32.toNat_one] at one
      apply UInt32.toNat_inj.1
      simp only [UInt32.toNat_zero]
      omega
    · intro finds
      rw [finds.fresh absent before slot after takes.split free behind]
      rfl

theorem count_enter (finds : p.saddr ≠ 0 → p.FindsCount d) :
    ∀ slot' ∈ before ++ p.counting slot :: after, slot'.ipaddr ≠ 0 →
      slot'.pcount.toNat = sinceTick slot'.key (events ++ [.packet p]) := by
  have kept : ∀ other ∈ before ++ after, other.ipaddr ≠ 0 →
      other.pcount.toNat = sinceTick other.key (events ++ [.packet p]) := by
    intro other member used
    have different : p.key ≠ other.key := by
      intro same
      by_cases zero : p.saddr = 0
      · exact used ((congrArg Prod.fst same).symm.trans zero)
      · exact takes.others tracked.distinct zero other member same.symm
    rw [sinceTick_other events different]
    refine exact_ other ?_ used
    rw [takes.split]
    rcases mem_append.1 member with inBefore | inAfter
    · exact mem_append_left _ inBefore
    · exact mem_append_right _ (mem_cons_of_mem _ inAfter)
  intro slot' member used
  rcases mem_append.1 member with inBefore | atSlot
  · exact kept slot' (mem_append_left _ inBefore) used
  · rcases mem_cons.1 atSlot with rfl | inAfter
    · have nonzero : p.saddr ≠ 0 := fun zero => used ((congrArg Prod.fst takes.key).trans zero)
      rw [takes.key]
      exact (counting_exact_iff tracked exact_ takes counted nonzero).2 (finds nonzero)
    · exact kept slot' (mem_append_right _ inAfter) used

end

theorem count_tick (events : List Event) (d : Detector) : ∀ slot ∈ (netDetectChecker d).history, slot.ipaddr ≠ 0 →
      slot.pcount.toNat = sinceTick slot.key (events ++ [.tick]) := by
  intro aged member used
  rw [netDetectChecker_history] at member
  obtain ⟨slot, -, rfl⟩ := mem_map.1 member
  rw [sinceTick_snoc]
  rcases slot.aged_cases d.limitBurst with ⟨free, same⟩ | ⟨-, zero⟩ | cleared
  · exact absurd (by rw [same]; exact free) used
  · rw [zero]
    rfl
  · rw [cleared]
    rfl

section

variable {burst virus : Bool}

theorem tracked_run (kinds : ∀ event ∈ events, event ≠ .clearAll)
    (room : NeverFull lan (init burst virus) events) (before after : List Event) (d : Detector)
    (split : events = before ++ after)
    (ran : replay (step lan) before (init burst virus) = some d) : Tracked before d := by
  refine replay_invariant (tracked_init burst virus) ?_ before after d split ran
  intro before event after s s' split ran tracked moved
  exact tracked.step (room before (event :: after) s split ran) (kinds event (by simp [split])) moved

/-- **Exact counts.**  In every run from the empty table that never fills it, each key has one slot
at most, with the number of its packets since the last tick, exactly if every counted packet with a
source other than 0 finds its count. -/
theorem counts_exactly_iff (lan : Lan) (burst virus : Bool) (events : List Event) (final : Detector)
    (kinds : ∀ event ∈ events, event ≠ .clearAll)
    (ran : replay (Detector.step lan) events (Detector.init burst virus) = some final)
    (room : NeverFull lan (Detector.init burst virus) events) : (∀ before after d, events = before ++ after →
      replay (Detector.step lan) before (Detector.init burst virus) = some d → CountsExactly before d) ↔
    ∀ before p after d, events = before ++ .packet p :: after →
      replay (Detector.step lan) before (Detector.init burst virus) = some d →
      p.counted = true → p.saddr ≠ 0 → p.FindsCount d := by
  constructor
  · intro exact_ before p after d split here counted nonzero
    have split' : events = (before ++ [.packet p]) ++ after := by rw [split]; simp
    obtain ⟨d', there⟩ := exists_replay_of_append (split' ▸ ran)
    have moved := there
    rw [replay_snoc, here] at moved
    obtain ⟨⟨rc, _⟩, entered, rfl⟩ := map_eq_some_iff.1 moved
    have tracked := tracked_run kinds room before (.packet p :: after) d split here
    rcases target_cases entered with ⟨skipped, -⟩ | ⟨-, full, -⟩ | ⟨-, earlier, slot, behind, takes, history, -⟩
    · simp [counted] at skipped
    · obtain ⟨slot, member, free⟩ := room before _ d split here
      exact absurd free (full slot member).2
    · refine (counting_exact_iff tracked (exact_ before _ d split here).count takes counted nonzero).1 ?_
      have after_ := (exact_ _ _ _ split' there).count (p.counting slot)
      rw [history] at after_
      have address : (p.counting slot).ipaddr = p.saddr := congrArg Prod.fst takes.key
      rw [← takes.key]
      exact after_ (mem_append_right _ mem_cons_self) (by rw [address]; exact nonzero)
  · intro finds before after d split here
    have tracked := tracked_run kinds room before after d split here
    refine ⟨tracked.oneSlot, ?_⟩
    refine replay_invariant (I := fun before d => ∀ slot ∈ d.history, slot.ipaddr ≠ 0 →
      slot.pcount.toNat = sinceTick slot.key before) ?_ ?_ before after d split here
    · intro slot member used
      obtain rfl := eq_of_mem_replicate member
      exact absurd rfl used
    · intro before event after s s' split ran exact_ moved
      cases event with
      | clearAll => exact absurd rfl (kinds .clearAll (by simp [split]))
      | tick =>
        obtain rfl := Option.some.inj moved
        exact count_tick before s
      | packet p =>
        obtain ⟨⟨rc, _⟩, entered, rfl⟩ := map_eq_some_iff.1 moved
        rcases target_cases entered with ⟨skipped, rfl⟩ | ⟨-, full, -⟩ | ⟨counted, _, _, _, takes, history, -⟩
        · simpa [sinceTick_snoc, Event.tally, skipped] using exact_
        · obtain ⟨slot, member, free⟩ := room before _ s split ran
          exact absurd free (full slot member).2
        · rw [history]
          exact count_enter (tracked_run kinds room before _ s split ran) exact_ takes counted
            (finds before p after s split ran counted)

end

/-! ## A source of 0 -/

theorem neverFull_nil {start : Detector} (free : ∃ slot ∈ start.history, slot.ipaddr = 0) : NeverFull lan start [] := by
  intro before after d split ran
  obtain ⟨rfl, -⟩ := append_eq_nil_iff.1 split.symm
  obtain rfl := some.inj ran
  exact free

theorem neverFull_cons {start next : Detector} {rest : List Event}
    (free : ∃ slot ∈ start.history, slot.ipaddr = 0) (moved : start.step lan event = some next)
    (room : NeverFull lan next rest) : NeverFull lan start (event :: rest) := by
  intro before after d split ran
  cases before with
  | nil =>
    obtain rfl := some.inj ran
    exact free
  | cons first before =>
    obtain ⟨rfl, behind⟩ := cons.inj split
    rw [replay, moved] at ran
    exact room before after d behind ran

theorem takes_last {n : Nat} (free : slot.ipaddr = 0) (other : p.key ≠ Slot.zero.key)
    (other' : p.key ≠ slot.key) : p.Takes (replicate n Slot.zero ++ [slot]) (replicate n Slot.zero) slot [] := by
  refine ⟨rfl, .inr ⟨fun found member => ?_, free, by simp⟩⟩
  rcases mem_append.1 member with cleared | atEnd
  · rw [eq_of_mem_replicate cleared]
    exact other.symm
  · rw [mem_singleton.1 atEnd]
    exact other'.symm

theorem free_slot {n : Nat} (slot : Slot) : ∃ found ∈ replicate (n + 1) Slot.zero ++ [slot], found.ipaddr = 0 :=
  ⟨Slot.zero, by simp, rfl⟩

theorem init_history (burst virus : Bool) : (init burst virus).history = replicate 999 Slot.zero ++ [Slot.zero] :=
  replicate_succ'

theorem step_last (burstOff : d.burstDropFlag = false) (virusOff : d.virusDropFlag = false)
    (counted : p.counted = true) (history : d.history = replicate 999 Slot.zero ++ [slot])
    (free : slot.ipaddr = 0) (other : p.key ≠ Slot.zero.key) (other' : p.key ≠ slot.key) :
    ∃ d', d.step noLan (.packet p) = some d' ∧ d'.history = replicate 999 Slot.zero ++ [p.counting slot] ∧
      d'.burstDropFlag = false ∧ d'.virusDropFlag = false := by
  have takes := takes_last (n := 999) free other other'
  rw [← history] at takes
  refine ⟨d.entered p (replicate 999 Slot.zero).length slot, ?_, entered_history takes, burstOff, virusOff⟩
  simp only [step, target_outside burstOff virusOff counted takes, map_some]

def zeroSource : Packet := ⟨0, ipprotoTcp, 80, 0, 100, 0⟩

def newSource : Packet := ⟨0x0a000001, ipprotoTcp, 80, 0, 100, 0⟩

/-- After one packet with source 0, the first packet of a key is counted as the second. -/
theorem zero_source_miscounts :
    ∃ d, replay (Detector.step noLan) [.packet zeroSource, .packet newSource] (Detector.init false false) = some d ∧
      NeverFull noLan (Detector.init false false) [.packet zeroSource, .packet newSource] ∧
      sinceTick newSource.key [.packet zeroSource, .packet newSource] = 1 ∧
      ∃ slot ∈ d.history, slot.key = newSource.key ∧ slot.pcount = 2 := by
  obtain ⟨d, first, history, burst, virus⟩ := step_last (p := zeroSource)
    rfl rfl rfl (init_history _ _) rfl (by decide) (by decide)
  obtain ⟨d', second, history', -, -⟩ := step_last (p := newSource) burst virus rfl history rfl (by decide) (by decide)
  refine ⟨d', ?_, ?_, by decide, newSource.counting (zeroSource.counting Slot.zero), ?_, by decide, by decide⟩
  · simp only [replay, first, second, bind_some]
  · refine neverFull_cons (by rw [init_history]; exact free_slot _) first
      (neverFull_cons (by rw [history]; exact free_slot _) second (neverFull_nil ?_))
    rw [history']
    exact free_slot _
  · rw [history']
    exact mem_append_right _ (mem_singleton.2 rfl)

/-- Without one, it is counted as the first. -/
theorem new_source_counts : ∃ d, replay (Detector.step noLan) [.packet newSource] (Detector.init false false) = some d ∧
      CountsExactly [.packet newSource] d := by
  obtain ⟨d, first, history, -, -⟩ := step_last (p := newSource)
    rfl rfl rfl (init_history _ _) rfl (by decide) (by decide)
  have ran : replay (Detector.step noLan) [.packet newSource] (Detector.init false false) = some d := by
    simp only [replay, first, bind_some]
  have room : NeverFull noLan (Detector.init false false) [.packet newSource] := by
    refine neverFull_cons (by rw [init_history]; exact free_slot _) first (neverFull_nil ?_)
    rw [history]
    exact free_slot _
  refine ⟨d, ran, (counts_exactly_iff noLan false false _ d (by simp) ran room).2 ?_ _ [] d rfl ran⟩
  intro before p after s split here _ _
  cases before with
  | cons _ rest => simp at split
  | nil =>
    obtain rfl := Option.some.inj here
    obtain ⟨⟨⟩, -⟩ := List.cons.inj split
    refine ⟨fun slot member _ => ?_, fun _ earlier slot behind split _ _ => ?_⟩
    · rw [eq_of_mem_replicate member]
      decide
    · have member : slot ∈ (Detector.init false false).history := by rw [split]; simp
      rw [eq_of_mem_replicate member]
      rfl

end RouterApps.Netdetect
