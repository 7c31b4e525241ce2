/-
# Igmpproxy.Sweep -- which silent members the sweep finds

The sweep of a group walks along the members of the entry that was made for this group, looks for
members with `has_report` 0, and for each of them calls `remove_member` with the group and the host.
So what it does differs from what it is for:

* an entry that another group of the same MAC address made is not swept, and not reported as empty;
* a member of another group whose time is over takes the host's membership of this group with it;
* with a signed `char`, a member that was missed when `has_report` was 0 is silent for good;
* the walk reads a freed member where the last member of the list removes itself, and where the
  next member, whose address was saved, is the one removed;
* the entry counts as empty only without members of any group.

`sweep_exact_iff` says that nothing else goes wrong.
-/
import RouterApps.Igmpproxy.Members

namespace RouterApps.Igmpproxy

open CLib Theory List Option Cursor
open Theory.Table
open Theory.Cursor (Fault)

/-! ## What the sweep is for -/

/-- `has_report` is at most 0. -/
def Board.silent (b : Board) (m : Member) : Bool := b.charValue m.hasReport ≤ 0

/-- The members of an entry that a sweep of the group has to keep. -/
def remaining (b : Board) (g : UInt32) (e : Entry) : List Member :=
  e.members.filter fun m => !(decide (e.mac = macBits g) && decide (m.a0 = lostMapping g) && b.silent m)

/-- The bits that make up the address of an entry. -/
def Entry.address (e : Entry) : UInt8 × UInt8 × UInt8 × UInt8 := (e.a0, e.a1, e.a2, e.a3)

/-- The sweep reads no freed member, removes exactly the silent members of the group, and returns 1
exactly if none is left in its entry. -/
def SweepsExactly (b : Board) (mc : UInt32) (groups : List Entry) : Prop :=
  ∃ ended groups', sweapNoReportMembers b mc groups = .ok (ended, groups') ∧
    groups'.map (fun e => (e.address, e.members)) = groups.map (fun e => (e.address, remaining b (ntohl mc) e)) ∧
    (ended = true ↔ ∃ e, findEntry (ntohl mc) groups' = some e ∧ ∀ m ∈ e.members, m.a0 ≠ lostMapping (ntohl mc))

/-! ## When it does so -/

/-- It is a member of the group, and its host has a membership in front with `has_report` 0. -/
def removedBefore (a0 : UInt8) (before : List Member) (m : Member) : Bool :=
  decide (m.a0 = a0) && before.any fun w => decide (w.hasReport = 0) && decide (w.ipAddr = m.ipAddr)

/-- The conditions on an entry that was made for the group and has members. -/
structure SweptEntry (b : Board) (a0 : UInt8) (members : List Member) : Prop where
  /-- Some member of the group stays. -/
  stays : ∃ m ∈ members, m.a0 = a0 ∧ b.silent m = false
  /-- The silent members of the group are those of hosts with a membership at 0. -/
  hosts : ∀ m ∈ members, m.a0 = a0 → (b.silent m = true ↔ ∃ w ∈ members, w.hasReport = 0 ∧ w.ipAddr = m.ipAddr)
  /-- A member of the group at 0 is followed by some other one when it is reached. -/
  followed : ∀ before y after, members = before ++ y :: after → y.hasReport = 0 → y.a0 = a0 →
    removedBefore a0 before y = false → ∃ z ∈ after, removedBefore a0 before z = false
  /-- A member of another group at 0 is not followed by the host's membership of the group. -/
  apart : ∀ before y after, members = before ++ y :: after → y.hasReport = 0 → y.a0 ≠ a0 →
    ∀ z, after.find? (fun z => !removedBefore a0 before z) = some z → z.key ≠ (y.ipAddr, a0)

/-- The conditions on the entry of a group. -/
def Entry.Sweepable (b : Board) (a0 : UInt8) (e : Entry) : Prop :=
  if e.a0 = a0 then e.members = [] ∨ SweptEntry b a0 e.members
  else (∃ m ∈ e.members, m.a0 = a0) ∧ ∀ m ∈ e.members, m.a0 = a0 → b.silent m = false

/-! ## The walk -/

def noReport (m : Member) : Bool := m.hasReport = 0

/-- The member that is removed for this one. -/
def sweptKey (a0 : UInt8) (m : Member) : UInt32 × UInt8 := (m.ipAddr, a0)

def Entry.withMembers (b : Board) (e : Entry) (members : List Member) : Entry :=
  updateGroupPortMap b { e with members := members }

variable {b : Board} {before after : List Entry}

section

variable {mip : UInt32} {e : Entry}

theorem removeMember_at (earlier : ∀ e' ∈ before, e'.mac ≠ macBits mip) (own : e.mac = macBits mip) (uip : UInt32)
    (members : List Member) : removeMember b mip uip (before ++ e.withMembers b members :: after) =
      before ++ e.withMembers b (unlink Member.key members (uip, lostMapping mip)) :: after := by
  have owned : (e.withMembers b members).mac = macBits mip := own
  unfold removeMember
  rw [updateFirst_at (fun e' inside => decide_eq_false (earlier e' inside)) (decide_eq_true owned)]
  unfold removeFrom
  split
  · rename_i none
    obtain rfl : members = [] := none
    rfl
  · rfl

variable (members : List Member) (k : UInt32 × UInt8)

theorem readMember_at :
    readMember (before ++ e.withMembers b members :: after) before.length k = read Member.key members k := by
  simp [readMember, Entry.withMembers, updateGroupPortMap]

theorem nextMember_at :
    nextMember (before ++ e.withMembers b members :: after) before.length k = next Member.key members k := by
  simp [nextMember, Entry.withMembers, updateGroupPortMap]

variable (after) in
theorem sweapMembers_at (earlier : ∀ e' ∈ before, e'.mac ≠ macBits mip) (own : e.mac = macBits mip) (fuel : Nat)
    (member : Option (UInt32 × UInt8)) (members : List Member) :
    sweapMembers b mip before.length fuel member (before ++ e.withMembers b members :: after) =
      (sweep Member.key noReport (sweptKey (lostMapping mip)) fuel member members).map fun members =>
        before ++ e.withMembers b members :: after := by
  induction fuel generalizing member members with
  | zero => cases member <;> rfl
  | succ fuel ih =>
    cases member with
    | none => rfl
    | some k =>
      rw [sweapMembers, sweep, readMember_at]
      cases found : read Member.key members k with
      | none => rfl
      | some m =>
        simp only [noReport, decide_eq_true_eq, nextMember_at, removeMember_at earlier own, readMember_at, sweptKey]
        by_cases timedOut : m.hasReport = 0
        · simp only [timedOut, if_true]
          cases next Member.key members k with
          | some saved => exact ih (some saved) _
          | none =>
            cases read Member.key (unlink Member.key members (m.ipAddr, lostMapping mip)) k with
            | none => rfl
            | some _ => exact ih _ _
        · simp only [timedOut, if_false]
          exact ih _ _

end

/-- A member that is removed for some member would be removed for itself. -/
theorem sweptKey_own (a0 : UInt8) (m w : Member) (same : m.key = sweptKey a0 w) : sweptKey a0 m = m.key := by
  have lost : m.a0 = a0 := (Prod.ext_iff.1 same).2
  unfold sweptKey Member.key
  rw [lost]

/-! ## The entries -/

variable {groups : List Entry} {mc : UInt32}

section

def Entry.craft (e : Entry) : UInt32 := craftMip e.a0 e.a1 e.a2 e.a3

theorem sweapEntries_skip (left : Nat) (front skipped rest : List Entry) (others : ∀ e ∈ skipped, mc ≠ e.craft) :
    sweapEntries b mc (skipped.length + left) front.length (front ++ (skipped ++ rest)) =
      sweapEntries b mc left (front.length + skipped.length) (front ++ (skipped ++ rest)) := by
  induction skipped generalizing front with
  | nil => simp
  | cons e skipped ih =>
    obtain ⟨other, others⟩ := forall_mem_cons.1 others
    have later := ih (front ++ [e]) others
    have here : (front ++ (e :: skipped ++ rest))[front.length]? = some e := by simp
    rw [length_cons, Nat.add_right_comm, sweapEntries, here]
    simp only [show craftMip e.a0 e.a1 e.a2 e.a3 = e.craft from rfl, other, if_false]
    simp only [length_append, length_singleton, append_assoc, singleton_append] at later
    rw [cons_append, later]
    congr 1
    omega

theorem sweap_of_others (others : ∀ e ∈ groups, mc ≠ e.craft) :
    sweapNoReportMembers b mc groups = .ok (false, groups) := by
  have passed := sweapEntries_skip (b := b) 0 [] groups [] others
  simpa [sweapNoReportMembers, sweapEntries] using passed

theorem sweap_of_own {before after : List Entry} {e : Entry} (sound : SoundGroups b (before ++ e :: after))
    (others : ∀ e' ∈ before ++ after, mc ≠ e'.craft) (own : mc = e.craft)
    (mac : e.mac = macBits (ntohl mc)) :
    sweapNoReportMembers b mc (before ++ e :: after) =
      if trapped Member.key noReport (sweptKey (lostMapping (ntohl mc))) [] e.members then .error .freed
      else
        let kept := present Member.key noReport (sweptKey (lostMapping (ntohl mc))) e.members e.members
        .ok (decide (kept = []), before ++ e.withMembers b kept :: after) := by
  have holds := sound.entries e (by simp)
  have same : e.withMembers b e.members = e := by
    unfold Entry.withMembers updateGroupPortMap
    rw [← holds.mapped]
  have earlier : ∀ e' ∈ before, e'.mac ≠ macBits (ntohl mc) := by
    have apart := sound.apart
    rw [map_append] at apart
    intro e' inside shared
    refine disjoint_of_nodup_append apart (mem_map_of_mem inside) ?_
    rw [shared, ← mac]
    exact mem_cons_self
  have passed := sweapEntries_skip (b := b) (after.length + 1) [] before (e :: after)
    fun e' inside => others e' (mem_append_left _ inside)
  have walked := sweapMembers_at (b := b) after earlier mac e.members.length (e.members.head?.map Member.key) e.members
  rw [same, sweep_eq holds.apart (sweptKey_own _) (le_refl _)] at walked
  have start : sweapNoReportMembers b mc (before ++ e :: after) =
      sweapEntries b mc (after.length + 1) before.length (before ++ e :: after) := by
    simpa [sweapNoReportMembers] using passed
  have here : (before ++ e :: after)[before.length]? = some e := by simp
  rw [start, sweapEntries, here]
  simp only [show craftMip e.a0 e.a1 e.a2 e.a3 = e.craft from rfl, ← own, if_true, walked]
  split
  · rfl
  · generalize present Member.key noReport _ e.members e.members = kept
    have there : (before ++ e.withMembers b kept :: after)[before.length]? = some (e.withMembers b kept) := by simp
    have rest := sweapEntries_skip (b := b) 0 (before ++ [e.withMembers b kept]) after []
      fun e' inside => others e' (mem_append_right _ inside)
    simp only [length_append, length_singleton, append_assoc, singleton_append, append_nil, Nat.add_zero] at rest
    simp only [Except.map, bind, Except.bind, there, map_some, some.injEq]
    by_cases none : kept = []
    · subst none
      rfl
    · have stays : (e.withMembers b kept).members ≠ [] := none
      rw [if_neg stays, rest, sweapEntries, decide_eq_false none]

end

/-! ## The members that the walk leaves -/

section

variable {a0 : UInt8} {members : List Member}

theorem gone_eq_removedBefore (a0 : UInt8) (before : List Member) (z : Member) :
    gone Member.key noReport (sweptKey a0) before z = removedBefore a0 before z := by
  unfold gone removedBefore
  by_cases lost : z.a0 = a0
  · simp [lost, noReport, sweptKey, Member.key]
  · have other : ¬a0 = z.a0 := fun same => lost same.symm
    simp [lost, sweptKey, Member.key, other]

theorem present_eq_filter (a0 : UInt8) (before l : List Member) :
    present Member.key noReport (sweptKey a0) before l = l.filter fun z => !removedBefore a0 before z := by
  unfold present
  simp only [gone_eq_removedBefore]

theorem removedBefore_of_other {before : List Member} {z : Member} (other : z.a0 ≠ a0) :
    removedBefore a0 before z = false := by
  simp [removedBefore, other]

/-- The walk reads no freed member exactly under the two conditions on what follows. -/
theorem trapped_eq_false_iff : trapped Member.key noReport (sweptKey a0) [] members = false ↔
    (∀ before y after, members = before ++ y :: after → y.hasReport = 0 → y.a0 = a0 →
      removedBefore a0 before y = false → ∃ z ∈ after, removedBefore a0 before z = false) ∧
    (∀ before y after, members = before ++ y :: after → y.hasReport = 0 → y.a0 ≠ a0 →
      ∀ z, after.find? (fun z => !removedBefore a0 before z) = some z → z.key ≠ (y.ipAddr, a0)) := by
  have own : ∀ y : Member, y.key = sweptKey a0 y ↔ y.a0 = a0 := by
    intro y
    simp [Member.key, sweptKey]
  have here : ∀ before y after, trapAt Member.key noReport (sweptKey a0) before y after = true ↔
      removedBefore a0 before y = false ∧ y.hasReport = 0 ∧
        ((y.a0 = a0 ∧ ∀ z ∈ after, removedBefore a0 before z = true) ∨
          (y.a0 ≠ a0 ∧ ∃ z, after.find? (fun z => !removedBefore a0 before z) = some z ∧ z.key = (y.ipAddr, a0))) := by
    intro before y after
    unfold trapAt
    rw [gone_eq_removedBefore, present_eq_filter]
    by_cases lost : y.a0 = a0
    · simp [(own y).2 lost, lost, noReport, and_assoc]
    · rw [if_neg (mt (own y).1 lost)]
      simp [lost, noReport, and_assoc, sweptKey]
  rw [← Bool.not_eq_true, trapped_iff]
  simp only [nil_append, here]
  constructor
  · intro safe
    refine ⟨fun before y after split timedOut lost linked => ?_, fun before y after split timedOut other z first same => ?_⟩
    · by_contra gone
      refine safe ⟨before, y, after, split, linked, timedOut, .inl ⟨lost, fun z inside => ?_⟩⟩
      by_contra stays
      exact gone ⟨z, inside, Bool.eq_false_iff.2 stays⟩
    · exact safe ⟨before, y, after, split, removedBefore_of_other other, timedOut, .inr ⟨other, z, first, same⟩⟩
  · rintro ⟨followed, apart⟩ ⟨before, y, after, split, linked, timedOut, ⟨lost, gone⟩ | ⟨other, z, first, same⟩⟩
    · obtain ⟨z, inside, stays⟩ := followed before y after split timedOut lost linked
      rw [gone z inside] at stays
      cases stays
    · exact apart before y after split timedOut other z first same

/-- The walk removes the silent members of the group exactly under the condition on their hosts. -/
theorem kept_eq_iff : members.filter (fun z => !removedBefore a0 members z) =
      members.filter (fun m => !(decide (m.a0 = a0) && b.silent m)) ↔
    ∀ m ∈ members, m.a0 = a0 → (b.silent m = true ↔ ∃ w ∈ members, w.hasReport = 0 ∧ w.ipAddr = m.ipAddr) := by
  rw [filter_eq_filter_iff]
  refine forall₂_congr fun m _ => ?_
  by_cases lost : m.a0 = a0
  · have hosts : removedBefore a0 members m = true ↔ ∃ w ∈ members, w.hasReport = 0 ∧ w.ipAddr = m.ipAddr := by
      simp [removedBefore, lost]
    simp only [lost, Bool.not_inj_iff, forall_const, ← hosts]
    rw [Bool.eq_iff_iff]
    exact Iff.comm
  · simp [removedBefore, lost]

/-- No freed member is read, the right members are kept, and the entry is empty exactly if no member
of the group is left. -/
theorem sweptEntry_iff (apart : (members.map Member.key).Nodup) (kept : List Member)
    (left : kept = members.filter fun z => !removedBefore a0 members z) :
    (trapped Member.key noReport (sweptKey a0) [] members = false ∧
      kept = members.filter (fun m => !(decide (m.a0 = a0) && b.silent m)) ∧
      (kept = [] ↔ ∀ m ∈ kept, m.a0 ≠ a0)) ↔ members = [] ∨ SweptEntry b a0 members := by
  constructor
  · rintro ⟨safe, exact', empty⟩
    by_cases start : members = []
    · exact .inl start
    · have stays : kept ≠ [] := by
        rw [left, ← present_eq_filter]
        exact present_ne_nil apart (sweptKey_own a0) start safe
      obtain ⟨followed, foreign⟩ := trapped_eq_false_iff.1 safe
      refine .inr ⟨?_, kept_eq_iff.1 (left.symm.trans exact'), followed, foreign⟩
      by_contra none
      refine stays (empty.2 fun m inside lost => none ⟨m, ?_⟩)
      rw [exact'] at inside
      obtain ⟨listed, keeps⟩ := mem_filter.1 inside
      exact ⟨listed, lost, by simpa [lost] using keeps⟩
  · rintro (rfl | swept)
    · rw [left]
      exact ⟨rfl, rfl, by simp⟩
    · have exact' := left.trans (kept_eq_iff.2 swept.hosts)
      refine ⟨trapped_eq_false_iff.2 ⟨swept.followed, swept.apart⟩, exact', ?_⟩
      obtain ⟨m, listed, lost, loud⟩ := swept.stays
      have inside : m ∈ kept := by
        rw [exact']
        exact mem_filter.2 ⟨listed, by simp [loud]⟩
      refine iff_of_false (ne_nil_of_mem inside) fun none => ?_
      exact none m inside lost

end

/-! ## The list of groups -/

section

variable {g : UInt32} {e e' : Entry}

theorem remaining_of_other (other : e.mac ≠ macBits g) : remaining b g e = e.members := by
  simp [remaining, other]

theorem remaining_of_own (own : e.mac = macBits g) :
    remaining b g e = e.members.filter fun m => !(decide (m.a0 = lostMapping g) && b.silent m) := by
  simp [remaining, own]

theorem exactly_iff (others : ∀ e' ∈ before ++ after, e'.mac ≠ macBits g) (address : e'.address = e.address) :
    (before ++ e' :: after).map (fun e => (e.address, e.members)) =
      (before ++ e :: after).map (fun e => (e.address, remaining b g e)) ↔ e'.members = remaining b g e := by
  have rest : ∀ l : List Entry, (∀ e' ∈ l, e'.mac ≠ macBits g) →
      l.map (fun e => (e.address, remaining b g e)) = l.map (fun e => (e.address, e.members)) := by
    intro l apart
    refine map_congr_left fun e' inside => ?_
    rw [remaining_of_other (apart e' inside)]
  rw [map_append, map_append, map_cons, map_cons, rest before fun e' inside => others e' (mem_append_left _ inside),
    rest after fun e' inside => others e' (mem_append_right _ inside)]
  simp [address]

theorem findEntry_at (earlier : ∀ e' ∈ before, e'.mac ≠ macBits g) (own : e.mac = macBits g) :
    findEntry g (before ++ e :: after) = some e := by
  unfold findEntry
  rw [find?_append, find?_eq_none.2 (by simpa using earlier)]
  simp [own]

theorem split_of_findEntry (apart : (groups.map Entry.mac).Nodup)
    (found : findEntry g groups = some e) : ∃ before after, groups = before ++ e :: after ∧
      e.mac = macBits g ∧ ∀ e' ∈ before ++ after, e'.mac ≠ macBits g := by
  obtain ⟨own, before, after, rfl, -⟩ := find?_eq_some_iff_append.1 found
  have own : e.mac = macBits g := by simpa using own
  refine ⟨before, after, rfl, own, fun e' inside shared => ?_⟩
  rw [map_append, map_cons, nodup_middle, ← map_append, own, ← shared] at apart
  exact (nodup_cons.1 apart).1 (mem_map_of_mem inside)

theorem sweepsExactly_of_own (sound : SoundGroups b (before ++ e :: after))
    (foreign : ∀ e' ∈ before ++ after, mc ≠ e'.craft) (own : mc = e.craft)
    (others : ∀ e' ∈ before ++ after, e'.mac ≠ macBits (ntohl mc)) (mac : e.mac = macBits (ntohl mc)) :
    SweepsExactly b mc (before ++ e :: after) ↔ e.members = [] ∨ SweptEntry b (lostMapping (ntohl mc)) e.members := by
  have earlier : ∀ e' ∈ before, e'.mac ≠ macBits (ntohl mc) :=
    fun e' inside => others e' (mem_append_left _ inside)
  have result := sweap_of_own sound foreign own mac
  rw [present_eq_filter] at result
  generalize left : (e.members.filter fun z => !removedBefore (lostMapping (ntohl mc)) e.members z) = kept at result
  rw [← sweptEntry_iff (sound.entries e (by simp)).apart kept left.symm]
  have found : findEntry (ntohl mc) (before ++ e.withMembers b kept :: after) = some (e.withMembers b kept) :=
    findEntry_at earlier mac
  have kept' : (e.withMembers b kept).members = kept := rfl
  have address : (e.withMembers b kept).address = e.address := rfl
  unfold SweepsExactly
  rw [result]
  cases trapped Member.key noReport (sweptKey (lostMapping (ntohl mc))) [] e.members with
  | true => simp
  | false =>
    rw [← remaining_of_own mac]
    constructor
    · rintro ⟨ended, groups', same, exact', ending⟩
      obtain ⟨rfl, rfl⟩ := Prod.ext_iff.1 (Except.ok.inj same)
      refine ⟨rfl, (exactly_iff others address).1 exact', ?_⟩
      simpa [found, kept'] using ending
    · rintro ⟨-, exact', empty⟩
      refine ⟨decide (kept = []), _, rfl, (exactly_iff others address).2 exact', ?_⟩
      simpa [found, kept'] using empty

theorem sweepsExactly_of_foreign (foreign : ∀ e' ∈ before ++ e :: after, mc ≠ e'.craft)
    (others : ∀ e' ∈ before ++ after, e'.mac ≠ macBits (ntohl mc)) (mac : e.mac = macBits (ntohl mc)) :
    SweepsExactly b mc (before ++ e :: after) ↔
      (∃ m ∈ e.members, m.a0 = lostMapping (ntohl mc)) ∧
        ∀ m ∈ e.members, m.a0 = lostMapping (ntohl mc) → b.silent m = false := by
  have found : findEntry (ntohl mc) (before ++ e :: after) = some e :=
    findEntry_at (fun e' inside => others e' (mem_append_left _ inside)) mac
  have unswept : e.members = remaining b (ntohl mc) e ↔
      ∀ m ∈ e.members, m.a0 = lostMapping (ntohl mc) → b.silent m = false := by
    rw [remaining_of_own mac, eq_comm, filter_eq_self]
    refine forall₂_congr fun m _ => ?_
    by_cases lost : m.a0 = lostMapping (ntohl mc) <;> simp [lost]
  unfold SweepsExactly
  rw [sweap_of_others foreign]
  constructor
  · rintro ⟨ended, groups', same, exact', ending⟩
    obtain ⟨rfl, rfl⟩ := Prod.ext_iff.1 (Except.ok.inj same)
    refine ⟨?_, unswept.1 ((exactly_iff others rfl).1 exact')⟩
    by_contra none
    have ended := ending.2 ⟨e, found, fun m inside lost => none ⟨m, inside, lost⟩⟩
    cases ended
  · rintro ⟨⟨m, inside, lost⟩, loud⟩
    refine ⟨false, _, rfl, (exactly_iff others rfl).2 (unswept.2 loud), ?_⟩
    refine iff_of_false (by decide) ?_
    rintro ⟨e', again, none⟩
    obtain rfl := some.inj (found.symm.trans again)
    exact none m inside lost

end

/-- **The sweep of a group is exact, on every list that the other functions leave, exactly if it
gets the entry of the group right.** -/
theorem sweep_exact_iff (b : Board) (ops : List Op) (mc : UInt32) (multicast : inMulticast (ntohl mc) = true) :
    SweepsExactly b mc (reached b ops) ↔
      ∀ e, findEntry (ntohl mc) (reached b ops) = some e → e.Sweepable b (lostMapping (ntohl mc)) := by
  have sound := reached_sound b ops
  generalize reached b ops = groups at sound ⊢
  have made : ∀ e ∈ groups, (mc = e.craft ↔ e.a0 = lostMapping (ntohl mc) ∧ e.mac = macBits (ntohl mc)) := by
    intro e inside
    have holds := sound.entries e inside
    exact craftMip_eq_iff holds.lost holds.mac multicast
  cases found : findEntry (ntohl mc) groups with
  | none =>
    have others : ∀ e ∈ groups, e.mac ≠ macBits (ntohl mc) := by simpa using find?_eq_none.1 found
    simp only [reduceCtorEq, IsEmpty.forall_iff, implies_true, iff_true]
    refine ⟨false, groups, sweap_of_others fun e inside own => ?_, ?_, by simp [found]⟩
    · exact others e inside ((made e inside).1 own).2
    · refine map_congr_left fun e inside => ?_
      rw [remaining_of_other (others e inside)]
  | some e =>
    obtain ⟨before, after, rfl, mac, others⟩ := split_of_findEntry sound.apart found
    have member : e ∈ before ++ e :: after := by simp
    have apart : ∀ e' ∈ before ++ after, mc ≠ e'.craft := by
      intro e' inside own
      refine others e' inside ((made e' ?_).1 own).2
      simp only [mem_append] at inside ⊢
      tauto
    simp only [Option.some.injEq, forall_eq']
    unfold Entry.Sweepable
    by_cases lost : e.a0 = lostMapping (ntohl mc)
    · rw [if_pos lost]
      exact sweepsExactly_of_own sound apart ((made e member).2 ⟨lost, mac⟩) others mac
    · rw [if_neg lost]
      refine sweepsExactly_of_foreign (fun e' inside own => ?_) others mac
      rcases mem_append.1 inside with front | back
      · exact apart e' (mem_append_left _ front) own
      · rcases mem_cons.1 back with rfl | back
        · exact lost ((made e' member).1 own).1
        · exact apart e' (mem_append_right _ back) own

/-! ## Lists that the sweep gets right and wrong -/

namespace Sample

def board : Board := ⟨true, 0x5e, none⟩

/-- 225.2.3.4 and 226.2.3.4, which share a MAC address. -/
def first : UInt32 := 0xE1020304

def second : UInt32 := 0xE2020304

def tenQueries : List Op := replicate 10 .querySpecificMembers

/-- Two hosts join, and after ten queries the first of them reports again. -/
def oneSilent : List Op :=
  [.insertMulticastIp first 1 1, .insertMulticastIp first 2 2] ++ tenQueries ++ [.insertMulticastIp first 1 1]

/-- The only member does not report. -/
def lastSilent : List Op := .insertMulticastIp first 1 1 :: tenQueries

/-- Host 1 joins both groups and reports again for the first only, as does host 3. -/
def otherSilent : List Op :=
  [.insertMulticastIp first 3 3, .insertMulticastIp second 1 1, .insertMulticastIp first 1 1] ++ tenQueries ++
    [.insertMulticastIp first 1 1, .insertMulticastIp first 3 3]

/-- The entry was made for the second group, and the member of the first does not report. -/
def madeForOther : List Op :=
  [.insertMulticastIp second 2 2, .insertMulticastIp first 1 1] ++ tenQueries ++ [.insertMulticastIp second 2 2]

/-- What a sweep of the first group returns, and the members it leaves. -/
def swept (ops : List Op) : Except Fault (Bool × List (List (UInt32 × UInt8))) :=
  (sweapNoReportMembers board (htonl first) (reached board ops)).map fun (ended, groups) =>
    (ended, groups.map fun e => e.members.map Member.key)

theorem keys_of_sweepsExactly {ops : List Op} {ended : Bool} {keys : List (List (UInt32 × UInt8))}
    (ran : swept ops = .ok (ended, keys)) (exact' : SweepsExactly board (htonl first) (reached board ops)) :
    keys = (reached board ops).map fun e => (remaining board (ntohl (htonl first)) e).map Member.key := by
  obtain ⟨ended', groups', ran', same, -⟩ := exact'
  rw [swept, ran'] at ran
  obtain ⟨-, rfl⟩ := Prod.ext_iff.1 (Except.ok.inj ran)
  have keys := congrArg (map fun pair => pair.2.map Member.key) same
  rw [List.map_map, List.map_map] at keys
  exact keys

end Sample

open Sample

theorem sweep_of_one_silent : inMulticast (ntohl (htonl first)) = true ∧
    SweepsExactly board (htonl first) (reached board oneSilent) ∧
    ∃ e, findEntry (ntohl (htonl first)) (reached board oneSilent) = some e ∧
      e.Sweepable board (lostMapping (ntohl (htonl first))) := by
  have multicast : inMulticast (ntohl (htonl first)) = true := by decide
  have exact' : SweepsExactly board (htonl first) (reached board oneSilent) := by
    refine ⟨false, [⟨2, 2, 3, 4, 0x2, [⟨1, 2, 1, 10⟩]⟩], rfl, by decide +kernel, iff_of_false (by decide) ?_⟩
    rintro ⟨e, found, none⟩
    have only : findEntry (ntohl (htonl first)) [⟨2, 2, 3, 4, 0x2, [⟨1, 2, 1, 10⟩]⟩] =
        some ⟨2, 2, 3, 4, 0x2, [⟨1, 2, 1, 10⟩]⟩ := by decide +kernel
    obtain rfl := Option.some.inj (only.symm.trans found)
    exact none ⟨1, 2, 1, 10⟩ (by simp) (by decide +kernel)
  have there : (findEntry (ntohl (htonl first)) (reached board oneSilent)).isSome = true := by
    decide +kernel
  obtain ⟨e, found⟩ := isSome_iff_exists.1 there
  exact ⟨multicast, exact', e, found, (sweep_exact_iff _ _ _ multicast).1 exact' e found⟩

/-- The only member of a group is read after it was freed; a member that has just reported is
removed for the silence of its host in another group; a silent member stays in an entry made for
another group. -/
theorem sweep_not_exact : ¬SweepsExactly board (htonl first) (reached board lastSilent) ∧
    swept lastSilent = .error .freed ∧
    ¬SweepsExactly board (htonl first) (reached board otherSilent) ∧
    swept otherSilent = .ok (false, [[(1, 4), (3, 2)]]) ∧
    ¬SweepsExactly board (htonl first) (reached board madeForOther) ∧
    swept madeForOther = .ok (false, [[(1, 2), (2, 4)]]) := by
  refine ⟨?_, rfl, ?_, rfl, ?_, rfl⟩
  · rintro ⟨ended, groups, ran, -⟩
    have fails : sweapNoReportMembers board (htonl first) (reached board lastSilent) =
        .error .freed := rfl
    cases ran
  all_goals
    intro exact'
    have keys := keys_of_sweepsExactly (rfl) exact'
    revert keys
    decide +kernel

end RouterApps.Igmpproxy
