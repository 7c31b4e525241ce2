/-
# Igmpproxy.Rules -- the forwarding rules of the multicast proxy are not leaked

The chain should hold at most one rule for each group, and none for a group outside the table
(`Moment.kept_iff`).  Each change of the table or of the chain keeps this, but for two that take
the state of a route for the state of the chain:

* `insertRoute` joins whatever is not `ROUTESTATE_JOINED`, so that a report during the last
  member check puts in a second rule;
* `removeRoute` takes it that with fast leave a route in the last member check has been left,
  which is not so if members were there when the leave message came.
-/
import RouterApps.Igmpproxy.Routes
import RouterApps.Theory.Run

namespace RouterApps.Igmpproxy

open Theory List

/-! ## The property and the invariant -/

/-- At most one rule for each group, and none for a group that is not in the table. -/
def Moment.Kept (m : Moment) : Prop := ∀ g, m.rules.count g ≤ 1 ∧ (g ∉ m.groups → m.rules.count g = 0)

theorem Moment.kept_iff (m : Moment) : m.Kept ↔ m.rules.Nodup ∧ ∀ g ∈ m.rules, g ∈ m.groups := by
  constructor
  · intro kept
    refine ⟨nodup_iff_count_le_one.2 fun g => (kept g).1, fun g ruled => ?_⟩
    by_contra outside
    exact count_eq_zero.1 ((kept g).2 outside) ruled
  · rintro ⟨nodup, listed⟩ g
    exact ⟨nodup_iff_count_le_one.1 nodup g, fun outside => count_eq_zero.2 fun ruled => outside (listed g ruled)⟩

/-- What holds between two calls. -/
structure Sound (p : Proxy) : Prop where
  nodup : p.rules.Nodup
  listed : ∀ g ∈ p.rules, g ∈ p.routes.map Route.group
  settled : ∀ r ∈ p.routes, r.upstrState = .notJoined → r.group ∉ p.rules
  past : ∀ m ∈ p.moments, m.Kept

theorem initRouteTable_sound : Sound initRouteTable where
  nodup := nodup_nil
  listed := by simp [initRouteTable]
  settled := by simp [initRouteTable]
  past := by simp [initRouteTable, Moment.Kept]

variable {p : Proxy}

theorem past_note (nodup : p.rules.Nodup) (listed : ∀ g ∈ p.rules, g ∈ p.routes.map Route.group)
    (past : ∀ m ∈ p.moments, m.Kept) : ∀ m ∈ p.note.moments, m.Kept := by
  intro m noted
  obtain before | now := mem_append.1 noted
  · exact past m before
  · obtain rfl := mem_singleton.1 now
    exact (Moment.kept_iff _).2 ⟨nodup, listed⟩

variable {group : UInt32}

theorem mem_of_findRoute {r : Route} (found : findRoute p group = some r) : r ∈ p.routes ∧ r.group = group :=
  ⟨mem_of_find?_eq_some found, by simpa using find?_some found⟩

theorem not_mem_of_findRoute (absent : findRoute p group = none) : group ∉ p.routes.map Route.group := by
  intro listed
  obtain ⟨r, inTable, own⟩ := mem_map.1 listed
  exact absurd own (by simpa using find?_eq_none.1 absent r inTable)

theorem store_groups (p : Proxy) (route : Route) : (p.store route).routes.map Route.group = p.routes.map Route.group :=
  map_group_replace p.routes route

theorem mem_store {route r : Route} (inTable : r ∈ (p.store route).routes) :
    r = route ∨ r ∈ p.routes ∧ r.group ≠ route.group := by
  obtain ⟨old, there, rfl⟩ := mem_map.1 inTable
  split
  · exact .inl rfl
  · rename_i other
    exact .inr ⟨there, other⟩

/-! ## The changes -/

section

variable {route : Route}

section

variable (sound : Sound p)

include sound

theorem Sound.store (clean : route.upstrState = .notJoined → route.group ∉ p.rules) : Sound (p.store route) where
  nodup := sound.nodup
  listed g ruled := by
    rw [store_groups]
    exact sound.listed g ruled
  settled r inTable apart := by
    obtain rfl | ⟨there, -⟩ := mem_store inTable
    · exact clean apart
    · exact sound.settled r there apart
  past := sound.past

theorem Sound.restore {croute : Route} (inTable : croute ∈ p.routes)
    (sameGroup : route.group = croute.group) (sameState : route.upstrState = croute.upstrState) :
    Sound (p.store route) := by
  refine sound.store fun apart => ?_
  rw [sameGroup]
  exact sound.settled croute inTable (sameState.symm.trans apart)

theorem Sound.call (call : Call) : Sound (p.call call) :=
  ⟨sound.nodup, sound.listed, sound.settled, sound.past⟩

theorem Sound.kernel (route : Route) (activate : Bool) : Sound (internUpdateKernelRoute p route activate) := by
  unfold internUpdateKernelRoute
  split <;> exact sound.call _

theorem Sound.link (absent : findRoute p route.group = none) : Sound (p.link route absent) := by
  have unruled : route.group ∉ p.rules := fun ruled => not_mem_of_findRoute absent (sound.listed _ ruled)
  have listed : ∀ g ∈ p.rules, g ∈ (p.link route absent).routes.map Route.group := by
    intro g ruled
    obtain ⟨r, there, own⟩ := mem_map.1 (sound.listed g ruled)
    exact mem_map.2 ⟨r, (mem_orderedInsert _).2 (.inr there), own⟩
  refine ⟨sound.nodup, listed, ?_, past_note sound.nodup listed sound.past⟩
  intro r inTable apart
  obtain rfl | there := (mem_orderedInsert _).1 inTable
  · exact unruled
  · exact sound.settled r there apart

theorem Sound.unlink (unruled : group ∉ p.rules) : Sound (p.unlink group) := by
  have listed : ∀ g ∈ p.rules, g ∈ (p.unlink group).routes.map Route.group := by
    intro g ruled
    obtain ⟨r, there, rfl⟩ := mem_map.1 (sound.listed g ruled)
    have other : r.group ≠ group := fun own => unruled (own ▸ ruled)
    exact mem_map.2 ⟨r, mem_filter.2 ⟨there, by simpa using other⟩, rfl⟩
  refine ⟨sound.nodup, listed, ?_, past_note sound.nodup listed sound.past⟩
  intro r inTable apart
  exact sound.settled r (mem_filter.1 inTable).1 apart

theorem Sound.iptablesDelete (group : UInt32) : Sound (p.iptablesDelete group) := by
  have nodup := sound.nodup.erase group
  have listed : ∀ g ∈ p.rules.erase group, g ∈ p.routes.map Route.group :=
    fun g ruled => sound.listed g (mem_of_mem_erase ruled)
  refine ⟨nodup, listed, ?_, past_note nodup listed sound.past⟩
  intro r inTable apart ruled
  exact sound.settled r inTable apart (mem_of_mem_erase ruled)

theorem Sound.join (inTable : route.group ∈ p.routes.map Route.group)
    (unruled : route.group ∉ p.rules) : Sound (p.send route true) := by
  unfold Proxy.send sendJoinLeaveUpstream
  simp only [if_true]
  split
  · have nodup := nodup_cons.2 ⟨unruled, sound.nodup⟩
    have listed : ∀ g ∈ route.group :: p.rules, g ∈ p.routes.map Route.group := by
      intro g ruled
      obtain rfl | ruled := mem_cons.1 ruled
      · exact inTable
      · exact sound.listed g ruled
    refine ⟨nodup, fun g ruled => ?_, ?_, past_note nodup listed sound.past⟩
    · rw [store_groups]
      exact listed g ruled
    · intro r there apart ruled
      obtain rfl | ⟨there, other⟩ := mem_store there
      · exact absurd apart (by simp)
      · obtain own | ruled := mem_cons.1 ruled
        · exact other own
        · exact sound.settled r there apart ruled
  · exact sound.store fun _ => unruled

end

theorem leave_rules (inTable : route ∈ p.routes) (sound : Sound p) :
    (∀ g ∈ (p.send route false).rules, g ∈ p.rules) ∧ route.group ∉ (p.send route false).rules := by
  unfold Proxy.send sendJoinLeaveUpstream
  simp only [Bool.false_eq_true, if_false]
  split
  · exact ⟨fun g ruled => mem_of_mem_erase ruled, sound.nodup.not_mem_erase⟩
  · rename_i apart
    exact ⟨fun g ruled => ruled, sound.settled route inTable (by simpa using apart)⟩

/-- Leaving a group of the table. -/
theorem Sound.leave (sound : Sound p) (inTable : route ∈ p.routes) : Sound (p.send route false) := by
  have unruled := (leave_rules inTable sound).2
  unfold Proxy.send sendJoinLeaveUpstream at unruled ⊢
  simp only [Bool.false_eq_true, if_false] at unruled ⊢
  split
  · rename_i joined
    rw [if_pos joined] at unruled
    exact ((sound.call _).iptablesDelete _).store fun _ => unruled
  · rename_i apart
    rw [if_neg apart] at unruled
    exact sound.store fun _ => unruled

end

/-! ## The functions -/

section

variable {conf : Config}

theorem kernel_routes (p : Proxy) (route : Route) (activate : Bool) :
    (internUpdateKernelRoute p route activate).routes = p.routes := by
  unfold internUpdateKernelRoute
  split <;> rfl

variable {croute : Route}

theorem mem_kernel (inTable : croute ∈ p.routes) (route : Route) (activate : Bool) :
    croute ∈ (internUpdateKernelRoute p route activate).routes := by
  rw [kernel_routes]
  exact inTable

theorem sendJoinLeaveUpstream_table (p : Proxy) (route : Route) (join : Bool) :
    (sendJoinLeaveUpstream p route join).1.routes = p.routes ∧
      (sendJoinLeaveUpstream p route join).2.group = route.group := by
  unfold sendJoinLeaveUpstream
  split
  all_goals
    split <;> exact ⟨rfl, rfl⟩

theorem send_groups (p : Proxy) (route : Route) (join : Bool) :
    (p.send route join).routes.map Route.group = p.routes.map Route.group := by
  unfold Proxy.send
  rw [store_groups, (sendJoinLeaveUpstream_table p route join).1]

theorem send_others (p : Proxy) (route : Route) (join : Bool) :
    ((p.send route join).routes.filter fun r => r.group ≠ route.group) =
      p.routes.filter fun r => r.group ≠ route.group := by
  obtain ⟨sameRoutes, sameGroup⟩ := sendJoinLeaveUpstream_table p route join
  unfold Proxy.send Proxy.store
  dsimp only
  rw [sameRoutes, sameGroup]
  induction p.routes with
  | nil => rfl
  | cons r rest ih =>
    by_cases own : r.group = route.group
    · simpa [own, sameGroup] using ih
    · simpa [own] using ih

theorem kernel_rules (p : Proxy) (route : Route) (activate : Bool) :
    (internUpdateKernelRoute p route activate).rules = p.rules := by
  unfold internUpdateKernelRoute
  split <;> rfl

theorem insertRoute_sound {ifx : Int} (sound : Sound p)
    (fine : accepts group ifx → ∀ r, findRoute p group = some r → r.upstrState = .checkLastMember →
      group ∉ p.rules) : Sound (insertRoute conf p group ifx) := by
  unfold insertRoute
  split
  · exact sound
  · rename_i accepted
    split
    · rename_i absent
      have linked : Sound (p.link (newRoute conf group ifx) absent) := sound.link absent
      have inTable : group ∈ (p.link (newRoute conf group ifx) absent).routes.map Route.group :=
        mem_map.2 ⟨newRoute conf group ifx, (mem_orderedInsert _).2 (.inl rfl), rfl⟩
      have unruled : group ∉ p.rules := fun ruled => not_mem_of_findRoute absent (sound.listed _ ruled)
      dsimp only
      split
      · refine (linked.kernel _ _).join ?_ ?_
        · exact inTable
        · exact unruled
      · exact linked.join inTable unruled
    · rename_i croute found
      obtain ⟨there, own⟩ := mem_of_findRoute found
      subst own
      dsimp only
      generalize updated : (if ifx ≥ 0 then
        { croute with vifBits := bitSet croute.vifBits ifx, ageVifBits := bitSet croute.ageVifBits ifx }
        else croute) = route
      have sameGroup : route.group = croute.group := by rw [← updated]; split <;> rfl
      have sameState : route.upstrState = croute.upstrState := by rw [← updated]; split <;> rfl
      have stored : Sound (p.store route) := sound.restore there sameGroup sameState
      generalize reloaded : (if ifx ≥ 0 ∧ route.originAddr ≠ 0 then internUpdateKernelRoute (p.store route) route true
        else p.store route) = q
      have soundNow : Sound q := by
        rw [← reloaded]
        split
        · exact stored.kernel _ _
        · exact stored
      have sameGroups : q.routes.map Route.group = p.routes.map Route.group := by
        rw [← reloaded]
        split
        · rw [kernel_routes, store_groups]
        · rw [store_groups]
      have sameRules : q.rules = p.rules := by
        rw [← reloaded]
        split <;> rfl
      split
      · rename_i unjoined
        refine soundNow.join ?_ ?_
        · rw [sameGroups, sameGroup]
          exact mem_map.2 ⟨croute, there, rfl⟩
        · rw [sameRules, sameGroup]
          -- the only state left beside the two that are settled is the last member check
          cases state : croute.upstrState with
          | notJoined => exact sound.settled croute there state
          | joined => exact absurd (sameState.trans state) unjoined
          | checkLastMember => exact fine (by simpa using accepted) croute found state
      · exact soundNow

theorem activateRoute_sound {originAddr : UInt32} (sound : Sound p) :
    Sound (activateRoute conf p group originAddr).1 := by
  unfold activateRoute
  have inserted : Sound (if (findRoute p group).isNone then insertRoute conf p group (-1) else p) := by
    split
    · rename_i absent
      refine insertRoute_sound sound fun _ r found => ?_
      rw [found] at absent
      exact absurd absent (by simp)
    · exact sound
  revert inserted
  generalize (if (findRoute p group).isNone then insertRoute conf p group (-1) else p) = q
  intro inserted
  dsimp only
  split
  · exact inserted
  · rename_i croute found
    obtain ⟨there, -⟩ := mem_of_findRoute found
    generalize updated : (if originAddr > 0 then { croute with originAddr := originAddr } else croute) = route
    have stored : Sound (q.store route) := by
      refine inserted.restore there ?_ ?_
      all_goals rw [← updated]; split <;> rfl
    split
    · exact stored.kernel route true
    · exact stored

theorem setRouteLastMemberMode_sound {allMemberLeaved : Bool} (sound : Sound p) :
    Sound (setRouteLastMemberMode conf p group allMemberLeaved) := by
  unfold setRouteLastMemberMode
  split
  · exact sound
  · rename_i croute found
    by_cases fast : croute.upstrState = .joined ∧ conf.fastUpstreamLeave ∧ allMemberLeaved
    · have left : sendJoinLeaveUpstream p croute false =
          ((p.call (.leaveMcGroup croute.group)).iptablesDelete croute.group, { croute with upstrState := .notJoined }) := by
        simp [sendJoinLeaveUpstream, fast.1]
      rw [if_pos fast, left]
      exact ((sound.call _).iptablesDelete _).store fun apart => absurd apart (by simp)
    · rw [if_neg fast]
      exact sound.store fun apart => absurd apart (by simp)

theorem removeRoute_rules (sound : Sound p) (inTable : croute ∈ p.routes) :
    ∀ g ∈ (removeRoute conf p croute).rules, g ∈ p.rules := by
  have unlinked : Sound (internUpdateKernelRoute p croute false) := sound.kernel _ _
  have there := mem_kernel inTable croute false
  intro g ruled
  unfold removeRoute at ruled
  dsimp only [Proxy.unlink] at ruled
  split at ruled
  · have before := (leave_rules there unlinked).1 g ruled
    rwa [kernel_rules] at before
  · rwa [kernel_rules] at ruled

theorem removeRoute_routes (conf : Config) (p : Proxy) (croute : Route) :
    (removeRoute conf p croute).routes = p.routes.filter fun r => r.group ≠ croute.group := by
  unfold removeRoute
  dsimp only [Proxy.unlink, Proxy.note]
  split
  · rw [send_others, kernel_routes]
  · rw [kernel_routes]

theorem removeRoute_sound (sound : Sound p) (inTable : croute ∈ p.routes)
    (fine : conf.fastUpstreamLeave → croute.upstrState = .checkLastMember → croute.group ∉ p.rules) :
    Sound (removeRoute conf p croute) := by
  have unlinked : Sound (internUpdateKernelRoute p croute false) := sound.kernel _ _
  have there := mem_kernel inTable croute false
  unfold removeRoute
  split
  · exact (unlinked.leave there).unlink (leave_rules there unlinked).2
  · rename_i silent
    refine unlinked.unlink ?_
    cases state : croute.upstrState with
    | notJoined => exact sound.settled croute inTable state
    | joined => exact absurd (.inl state) silent
    | checkLastMember =>
      refine fine ?_ state
      by_contra slow
      exact silent (.inr ⟨state, by simpa using slow⟩)

theorem aged_same (conf : Config) (croute : Route) :
    (aged conf croute).group = croute.group ∧ (aged conf croute).upstrState = croute.upstrState := by
  unfold aged
  dsimp only
  split
  · split
    all_goals exact ⟨rfl, rfl⟩
  · split
    · split
      all_goals exact ⟨rfl, rfl⟩
    · exact ⟨rfl, rfl⟩

theorem internAgeRoute_sound (sound : Sound p) (inTable : croute ∈ p.routes)
    (fine : conf.fastUpstreamLeave → croute.upstrState = .checkLastMember → dies conf croute → croute.group ∉ p.rules) :
    Sound (internAgeRoute conf p croute).1 := by
  obtain ⟨sameGroup, sameState⟩ := aged_same conf croute
  unfold internAgeRoute
  dsimp only
  split
  · rename_i dying
    have stored := sound.restore inTable sameGroup sameState
    refine removeRoute_sound (stored.call _) ?_ ?_
    · exact mem_map.2 ⟨croute, inTable, by simp [sameGroup]⟩
    · intro fast checked
      rw [sameGroup]
      exact fine fast (sameState.symm.trans checked) dying
  · split
    · have renewed : Sound (p.store
          { aged conf croute with ageValue := (aged conf croute).ageActivity, ageActivity := 0, ageVifBits := 0 }) :=
        sound.restore inTable sameGroup sameState
      exact renewed.kernel (aged conf croute) true
    · exact sound.restore inTable sameGroup sameState

theorem lastMemberGroupAge_sound (sound : Sound p)
    (fine : conf.fastUpstreamLeave → ∀ r, findRoute p group = some r → r.upstrState = .checkLastMember →
      dies conf r → group ∉ p.rules) : Sound (lastMemberGroupAge conf p group).1 := by
  unfold lastMemberGroupAge
  split
  · exact sound
  · rename_i croute found
    obtain ⟨inTable, own⟩ := mem_of_findRoute found
    split
    · refine internAgeRoute_sound sound inTable fun fast checked dying => ?_
      rw [own]
      exact fine fast croute found checked dying
    · exact sound

/-! ## The loops -/

theorem forEachRoute_invariant {body : Proxy → Route → Proxy} (I : Proxy → Prop)
    (visit : ∀ p r, I p → r ∈ p.routes → I (body p r)) (groups : List UInt32) (p : Proxy) (start : I p) :
    I (forEachRoute body groups p) := by
  induction groups generalizing p with
  | nil => exact start
  | cons group rest ih =>
    unfold forEachRoute
    split
    · exact ih p start
    · rename_i croute found
      exact ih _ (visit p croute start (mem_of_findRoute found).1)

theorem collectLine_sound (sound : Sound p) (line : CacheLine) : Sound (collectLine conf p line) := by
  unfold collectLine
  split
  · split
    · exact sound
    · rename_i group origin _ _ _
      have collected : Sound (if conf.wanIndex.isSome then internUpdateKernelRoute p
          ⟨group, origin, conf.wanIndex.getD 0, .joined, 0, 0, 0⟩ false else p) := by
        split
        · exact sound.kernel _ _
        · exact sound
      exact (collected.call _).iptablesDelete _
  · exact sound

/-- The routes that the sweep ends may be removed. -/
def Sweepable (conf : Config) (p : Proxy) (sweap : UInt32 → Bool) : Prop :=
  conf.fastUpstreamLeave → ∀ r ∈ p.routes, r.upstrState = .checkLastMember → sweap r.group → r.group ∉ p.rules

theorem ageActiveRoutes_sound {sweap : UInt32 → Bool} {cache : List CacheLine} (sound : Sound p)
    (fine : Sweepable conf p sweap) : Sound (ageActiveRoutes conf p sweap cache) := by
  unfold ageActiveRoutes
  -- removing one route leaves the others and their rules, so that they stay sweepable
  have swept : Sound (forEachRoute (fun p croute => if sweap croute.group then removeRoute conf p croute else p)
      (p.routes.map Route.group) p) := by
    refine (forEachRoute_invariant (fun q => Sound q ∧ Sweepable conf q sweap) ?_ _ p ⟨sound, fine⟩).1
    rintro q r ⟨soundNow, fineNow⟩ inTable
    split
    · rename_i ends
      refine ⟨removeRoute_sound soundNow inTable fun fast checked => fineNow fast r inTable checked ends, ?_⟩
      intro fast other there checked endsToo ruled
      rw [removeRoute_routes] at there
      exact fineNow fast other (mem_filter.1 there).1 checked endsToo (removeRoute_rules soundNow inTable _ ruled)
    · exact ⟨soundNow, fineNow⟩
  revert swept
  generalize forEachRoute (fun p croute => if sweap croute.group then removeRoute conf p croute else p)
    (p.routes.map Route.group) p = q
  intro swept
  have older : Sound (forEachRoute (fun p croute =>
      if croute.upstrState ≠ .checkLastMember then (internAgeRoute conf p croute).1 else p)
      (q.routes.map Route.group) q) := by
    refine forEachRoute_invariant Sound ?_ _ q swept
    intro q r soundNow inTable
    split
    · rename_i unchecked
      exact internAgeRoute_sound soundNow inTable fun _ checked => absurd checked unchecked
    · exact soundNow
  exact cache.foldlRecOn (collectLine conf) older fun q soundNow line _ => collectLine_sound soundNow line

/-- The loop of `clearAllRoutes` leaves no rule of the groups that it passes. -/
theorem leaveAll_rules (groups : List UInt32) (sound : Sound p) :
    let p' := forEachRoute (fun p croute => (internUpdateKernelRoute p croute false).send croute false) groups p
    Sound p' ∧ p'.routes.map Route.group = p.routes.map Route.group ∧ (∀ g ∈ p'.rules, g ∈ p.rules) ∧
      ∀ g ∈ groups, g ∉ p'.rules := by
  induction groups generalizing p with
  | nil => exact ⟨sound, rfl, fun g ruled => ruled, by simp⟩
  | cons group rest ih =>
    unfold forEachRoute
    split
    · rename_i absent
      obtain ⟨soundAfter, sameGroups, fewer, gone⟩ := ih sound
      refine ⟨soundAfter, sameGroups, fewer, fun g listed => ?_⟩
      obtain rfl | later := mem_cons.1 listed
      · exact fun ruled => not_mem_of_findRoute absent (sound.listed _ (fewer _ ruled))
      · exact gone g later
    · rename_i croute found
      obtain ⟨inTable, own⟩ := mem_of_findRoute found
      have unlinked : Sound (internUpdateKernelRoute p croute false) := sound.kernel _ _
      have there := mem_kernel inTable croute false
      obtain ⟨fewerNow, goneNow⟩ := leave_rules there unlinked
      obtain ⟨soundAfter, sameGroups, fewer, gone⟩ := ih (unlinked.leave there)
      refine ⟨soundAfter, ?_, fun g ruled => ?_, fun g listed => ?_⟩
      · rw [sameGroups, send_groups, kernel_routes]
      · have before := fewerNow g (fewer g ruled)
        rwa [kernel_rules] at before
      · obtain rfl | later := mem_cons.1 listed
        · rw [← own]
          exact fun ruled => goneNow (fewer _ ruled)
        · exact gone g later

theorem clearAllRoutes_sound (sound : Sound p) : Sound (clearAllRoutes p) := by
  obtain ⟨soundAfter, sameGroups, -, gone⟩ := leaveAll_rules (p.routes.map Route.group) sound
  unfold clearAllRoutes
  revert soundAfter sameGroups gone
  generalize forEachRoute (fun p croute => (internUpdateKernelRoute p croute false).send croute false)
    (p.routes.map Route.group) p = q
  intro soundAfter sameGroups gone
  have listed : ∀ g ∈ q.rules, g ∈ ([]).map Route.group := by
    intro g ruled
    have inTable := soundAfter.listed g ruled
    rw [sameGroups] at inTable
    exact absurd ruled (gone g inTable)
  exact ⟨soundAfter.nodup, listed, by simp [Proxy.clear, Proxy.note], past_note soundAfter.nodup listed soundAfter.past⟩

end

/-! ## Runs -/

/-- The step takes no route in the last member check, whose rule is still there, for one that has
been left. -/
def Fine (conf : Config) (p : Proxy) : Step → Prop
  | .insertRoute group ifx =>
    accepts group ifx → ∀ r ∈ findRoute p group, r.upstrState = .checkLastMember → group ∉ p.rules
  | .lastMemberGroupAge group =>
    conf.fastUpstreamLeave → ∀ r ∈ findRoute p group, r.upstrState = .checkLastMember → dies conf r → group ∉ p.rules
  | .ageActiveRoutes sweap _ => Sweepable conf p sweap
  | .activateRoute _ _ => True
  | .setRouteLastMemberMode _ _ => True
  | .clearAllRoutes => True

instance (conf : Config) (p : Proxy) (step : Step) : Decidable (Fine conf p step) :=
  match step with
  | .insertRoute group ifx => inferInstanceAs (Decidable (accepts group ifx → ∀ r ∈ findRoute p group, _ → _))
  | .lastMemberGroupAge group =>
    inferInstanceAs (Decidable (conf.fastUpstreamLeave → ∀ r ∈ findRoute p group, _ → _ → _))
  | .ageActiveRoutes sweap _ =>
    inferInstanceAs (Decidable (conf.fastUpstreamLeave → ∀ r ∈ p.routes, _ → sweap r.group → _))
  | .activateRoute _ _ => .isTrue trivial
  | .setRouteLastMemberMode _ _ => .isTrue trivial
  | .clearAllRoutes => .isTrue trivial

theorem perform_sound {conf : Config} {step : Step} (sound : Sound p) (fine : Fine conf p step) :
    Sound (perform conf p step) := by
  cases step with
  | insertRoute group ifx => exact insertRoute_sound sound fine
  | activateRoute group originAddr => exact activateRoute_sound sound
  | setRouteLastMemberMode group allMemberLeaved => exact setRouteLastMemberMode_sound sound
  | lastMemberGroupAge group => exact lastMemberGroupAge_sound sound fine
  | ageActiveRoutes sweap cache => exact ageActiveRoutes_sound sound fine
  | clearAllRoutes => exact clearAllRoutes_sound sound

/-- **Rules are not leaked** in a run that takes no route for left while its rule is there, at any
moment, also within a call. -/
theorem rules_not_leaked (conf : Config) {steps : List Step} {p : Proxy}
    (run : Run (fun p step p' => perform conf p step = p' ∧ Fine conf p step) initRouteTable steps p) :
    p.now.Kept ∧ ∀ m ∈ p.moments, m.Kept := by
  have sound : Sound p := by
    refine run.invariant ?_ initRouteTable_sound
    rintro s step s' soundNow ⟨rfl, fine⟩
    exact perform_sound soundNow fine
  exact ⟨(Moment.kept_iff _).2 ⟨sound.nodup, sound.listed⟩, sound.past⟩

def sampleGroup : UInt32 := 0x010100E0

def slowLeave : Config := ⟨2, 1, false, none⟩

def fastLeave : Config := ⟨2, 1, true, none⟩

/-- A report, a leave message, the sweep that ends the group, and a new report. -/
def leftAndBack : List Step :=
  [.insertRoute sampleGroup 1, .setRouteLastMemberMode sampleGroup true, .ageActiveRoutes (fun _ => true) [],
    .insertRoute sampleGroup 1]

theorem leftAndBack_kept : (leftAndBack.foldl (perform slowLeave) initRouteTable).rules = [sampleGroup] ∧
      (leftAndBack.foldl (perform slowLeave) initRouteTable).now.Kept := by
  refine ⟨by decide +kernel, (rules_not_leaked slowLeave (run_of_allMeet ?_)).1⟩
  decide +kernel

/-- Without fast leave, a report during the last member check puts in a second rule; with it, a
group whose members did not all leave keeps its rule. -/
theorem check_leaks_rules : (∃ steps p, Run (fun p step p' => perform slowLeave p step = p') initRouteTable steps p ∧
      sampleGroup ∈ p.now.groups ∧ p.now.rules.count sampleGroup = 2 ∧ ¬ p.now.Kept) ∧
    ∃ steps p, Run (fun p step p' => perform fastLeave p step = p') initRouteTable steps p ∧
      sampleGroup ∉ p.now.groups ∧ p.now.rules.count sampleGroup = 1 ∧ ¬ p.now.Kept := by
  constructor
  · refine ⟨[.insertRoute sampleGroup 1, .setRouteLastMemberMode sampleGroup false, .insertRoute sampleGroup 1], _,
      run_foldl _ _ _, by decide +kernel, by decide +kernel, fun kept => ?_⟩
    exact absurd (kept sampleGroup).1 (by decide +kernel)
  · refine ⟨[.insertRoute sampleGroup 1, .setRouteLastMemberMode sampleGroup false,
      .ageActiveRoutes (fun _ => true) []], _, run_foldl _ _ _, by decide +kernel, by decide +kernel, fun kept => ?_⟩
    exact absurd ((kept sampleGroup).2 (by decide +kernel)) (by decide +kernel)

end RouterApps.Igmpproxy
