/-
# Twinip.Replies -- when the answers to a twin get its WAN address back

Whether a frame to a twin is translated depends on `ipclone_skip` alone, and that follows the
frames of the twin: one that comes from an address of the LAN says that the twin "still uses a
private ip", and one from elsewhere that it does not.  So the flag is what the last of these
frames said (`skip_after`), and answers are translated until the twin is heard with an address
of the LAN again.
-/
import RouterApps.Twinip.Checksums

namespace RouterApps.Twinip

open CLib List

/-! ## Runs -/

/-- A frame that a device receives, or that leaves through one. -/
inductive Event
  | rx (devIp : UInt32) (isLocal : Bool) (skb : Skb)
  | tx (isLocal : Bool) (skb : Skb)

def step (cfg : Config) (skip : Skip) : Event → Skip
  | .rx devIp isLocal skb => (twinipRx cfg devIp isLocal skip skb).1
  | .tx _ _ => skip

/-- What an ARP request of the twin `id` says: `some true` for an address of the LAN, `some false`
for one that is replaced. -/
def heardInArp (cfg : Config) (id : Fin 2) (devIp : UInt32) (mem : Mem) : Option Bool :=
  let source := read32 mem arSource
  if mem arOp ≠ arpopRequest then none
  else if sameNet devIp source then some true
  else if source = 0 then none
  else if source ≠ read32 mem arTarget ∧ source ≠ htonl (cfg id).virtualIp then some false
  else none

/-- What a frame of the twin says. -/
def heardInFrame (cfg : Config) (id : Fin 2) (devIp : UInt32) (skb : Skb) : Option Bool :=
  if htons skb.hProto = ethPIp then some (sameNet devIp (read32 skb.mem saddr) || read32 skb.mem saddr = 0)
  else if htons skb.hProto = ethPArp then heardInArp cfg id devIp skb.mem
  else none

def heard (cfg : Config) (id : Fin 2) : Event → Option Bool
  | .tx _ _ => none
  | .rx devIp isLocal skb =>
    if active cfg ∧ isLocal ∧ clonedId cfg skb.hSource = some id then heardInFrame cfg id devIp skb else none

/-- What the twin said last. -/
def lastHeard (cfg : Config) (id : Fin 2) (events : List Event) : Option Bool :=
  events.foldl (fun last event => (heard cfg id event).or last) none

/-- The flags after something was heard from a twin. -/
def Skip.hear (skip : Skip) (id : Fin 2) : Option Bool → Skip
  | none => skip
  | some inLan => Function.update skip id inLan

theorem Skip.hear_apply (skip : Skip) (id : Fin 2) (said : Option Bool) : skip.hear id said id = said.getD (skip id) := by
  cases said with
  | none => rfl
  | some inLan => exact Function.update_self ..

variable {id : Fin 2} {cfg : Config}

theorem Skip.hear_other (skip : Skip) {other : Fin 2} (apart : id ≠ other) (said : Option Bool) :
    skip.hear other said id = skip id := by
  cases said with
  | none => rfl
  | some inLan => exact Function.update_of_ne apart ..

section

variable (cfg) (devIp : UInt32)

theorem arpFromClone_skip (skip : Skip) (mem : Mem) (id : Fin 2) :
    (arpFromClone cfg devIp skip mem id).1 = skip.hear id (heardInArp cfg id devIp mem) := by
  unfold arpFromClone heardInArp
  by_cases request : mem arOp = arpopRequest
  · rw [if_pos request, if_neg (not_not.2 request)]
    split
    · rfl
    · split
      · rfl
      · split
        · rfl
        · split <;> rfl
  · rw [if_neg request]
    split <;> rfl

theorem ipcloneFromLanToWan_skip (skip : Skip) (skb : Skb) (twin : clonedId cfg skb.hSource = some id) :
    (ipcloneFromLanToWan cfg devIp skip skb).1 = skip.hear id (heardInFrame cfg id devIp skb) := by
  unfold ipcloneFromLanToWan heardInFrame
  rw [twin]
  dsimp only
  split
  · by_cases inside : sameNet devIp (read32 skb.mem saddr) ∨ read32 skb.mem saddr = 0
    · have inLan : (sameNet devIp (read32 skb.mem saddr) || decide (read32 skb.mem saddr = 0)) = true := by
        simpa using inside
      rw [if_pos inside, inLan]
      rfl
    · have outside : (sameNet devIp (read32 skb.mem saddr) || decide (read32 skb.mem saddr = 0)) = false := by
        simpa using inside
      rw [if_neg inside, outside]
      rfl
  · split
    · exact arpFromClone_skip cfg devIp skip skb.mem id
    · rfl

/-- One frame: the flag of a twin is what the frame says, or stays. -/
theorem step_skip (id : Fin 2) (skip : Skip) (event : Event) :
    step cfg skip event id = (heard cfg id event).getD (skip id) := by
  cases event with
  | tx isLocal skb => rfl
  | rx devIp isLocal skb =>
    unfold step heard twinipRx
    dsimp only
    by_cases on : active cfg ∧ isLocal
    · rw [if_pos on]
      cases found : clonedId cfg skb.hSource with
      | none =>
        rw [if_neg (by simp)]
        unfold ipcloneFromLanToWan
        rw [found]
        rfl
      | some other =>
        rw [ipcloneFromLanToWan_skip cfg devIp skip skb found]
        by_cases same : other = id
        · subst same
          rw [if_pos ⟨on.1, on.2, rfl⟩]
          exact skip.hear_apply other _
        · rw [if_neg (fun both => same (Option.some.inj both.2.2))]
          exact skip.hear_other (fun equal => same equal.symm) _
    · rw [if_neg on, if_neg (fun both => on ⟨both.1, both.2.1⟩)]
      rfl

theorem lastHeard_append (id : Fin 2) (events : List Event) (event : Event) :
    lastHeard cfg id (events ++ [event]) = (heard cfg id event).or (lastHeard cfg id events) := by
  unfold lastHeard
  rw [foldl_append]
  rfl

/-- **A run.**  The flag of a twin is what it said last, or what it was. -/
theorem skip_after (id : Fin 2) (skip : Skip) (events : List Event) :
    events.foldl (step cfg) skip id = (lastHeard cfg id events).getD (skip id) := by
  induction events using List.reverseRecOn with
  | nil => rfl
  | append_singleton events event ih =>
    rw [foldl_append, lastHeard_append]
    show step cfg (events.foldl (step cfg) skip) event id = _
    rw [step_skip, ih]
    cases heard cfg id event with
    | none | some inLan => rfl

end

/-! ## Replies -/

theorem clonedId_mac (distinct : (cfg 0).mac ≠ (cfg 1).mac) (id : Fin 2) : clonedId cfg (cfg id).mac = some id := by
  unfold clonedId
  match id with
  | 0 => rw [if_neg distinct, if_pos rfl]
  | 1 => rw [if_pos rfl]

theorem active_of_virtualIp (given : (cfg id).virtualIp ≠ 0) : active cfg = true := by
  unfold active
  match id, given with
  | 0, given | 1, given => simp [given]

theorem Rewritten.read32_eq {a : Nat} {new : UInt32} {mem after : Mem} (rewritten : Rewritten a new mem after) :
    read32 after a = new := by
  have bounded := new.toNat_lt
  have first : (after a).toNat = new.toNat % 65536 := rewritten.first
  have second : (after (a + 1)).toNat = new.toNat / 65536 := rewritten.second
  unfold read32
  rw [first, second, Nat.mod_add_div]
  exact UInt32.ofNat_toNat

theorem rewriteDestination_daddr {skb : Skb} (header : 5 ≤ ihl skb.mem) (new : UInt32) :
    read32 (rewriteDestination skb new).mem daddr = new := by
  unfold rewriteDestination
  dsimp only
  split
  · exact (replaceEmbedded_spec new header).1.read32_eq
  · exact (replaceTransport_rewritten new _ (.inr rfl) header).read32_eq

/-- After a packet whose source was rewritten, the flag is what the twin said since. -/
theorem skip_since_rewritten (given : (cfg id).virtualIp ≠ 0) (skip : Skip)
    (before between : List Event) {devIp : UInt32} {sent : Skb} (rewritten : SourceRewritten cfg devIp sent id)
    (sentIp : htons sent.hProto = ethPIp) :
    (before ++ .rx devIp true sent :: between).foldl (step cfg) skip id = (lastHeard cfg id between).getD false := by
  obtain ⟨twin, outside⟩ := rewritten
  have saidOutside : heard cfg id (.rx devIp true sent) = some false := by
    unfold heard heardInFrame
    dsimp only
    rw [if_pos ⟨active_of_virtualIp given, rfl, twin⟩, if_pos sentIp]
    simpa using outside
  rw [foldl_append, foldl_cons, skip_after, step_skip, saidOutside]
  rfl

/-- **A packet to a twin gets the WAN address back** unless the twin was last heard with an address
of the LAN. -/
theorem reply_follows_last_heard (cfg : Config) (distinct : (cfg 0).mac ≠ (cfg 1).mac) {id : Fin 2}
    (given : (cfg id).virtualIp ≠ 0) (skip : Skip) (before between : List Event) {devIp : UInt32} {sent reply : Skb}
    (rewritten : SourceRewritten cfg devIp sent id) (sentIp : htons sent.hProto = ethPIp)
    (toTwin : reply.hDest = (cfg id).mac) (replyIp : htons reply.hProto = ethPIp) (header : 5 ≤ ihl reply.mem) :
    read32 (twinipTx cfg true ((before ++ .rx devIp true sent :: between).foldl (step cfg) skip) reply).mem daddr =
      if lastHeard cfg id between = some true then read32 reply.mem daddr else htonl (cfg id).wanip := by
  have flag := skip_since_rewritten given skip before between rewritten sentIp
  have twin : clonedId cfg reply.hDest = some id := by
    rw [toTwin]
    exact clonedId_mac distinct id
  unfold twinipTx ipcloneFromWanToLan
  rw [if_pos ⟨active_of_virtualIp given, rfl⟩, if_pos replyIp, twin]
  dsimp only
  rw [flag]
  by_cases inLan : lastHeard cfg id between = some true
  · rw [if_pos inLan, if_pos (.inl (by rw [inLan]; rfl))]
  · have translated : ¬ ((lastHeard cfg id between).getD false = true ∨ (cfg id).virtualIp = 0) := by
      rintro (heardInLan | unset)
      · cases said : lastHeard cfg id between with
        | none =>
          rw [said] at heardInLan
          exact absurd heardInLan (by decide)
        | some last =>
          rw [said] at heardInLan
          exact inLan (said.trans (congrArg some heardInLan))
      · exact given unset
    rw [if_neg inLan, if_neg translated]
    exact rewriteDestination_daddr header _

/-- UDP from 192.168.0.10 to 192.168.0.1. -/
def lanPacket : List UInt16 :=
  [0x0045, 0x1c00, 0x0200, 0x0000, 0x1140, 0x73f9, 0xa8c0, 0x0a00, 0xa8c0, 0x0100, 0xe914, 0x3500, 0x0800, 0x6469]

theorem reply_after_other_frames : read32 (toTwin icmpPacket).mem daddr = htonl (sampleConfig 0).virtualIp ∧
      read32 (twinipTx sampleConfig true
        (([Event.rx sampleDevIp true (fromTwin lanPacket)] ++ Event.rx sampleDevIp true (fromTwin tcpPacket) ::
          [Event.tx true (toTwin icmpPacket), .rx sampleDevIp true (fromTwin udpPacket)]).foldl
            (step sampleConfig) fun _ => true) (toTwin icmpPacket)).mem daddr = htonl (sampleConfig 0).wanip := by
  refine ⟨by decide +kernel, ?_⟩
  rw [reply_follows_last_heard sampleConfig (by decide) (by decide) _ _ _ ⟨(by decide), (by decide +kernel)⟩ (by decide)
    rfl (by decide) (by decide)]
  exact if_neg (by decide +kernel)

/-- After a packet from an address of the LAN, the answer keeps the virtual address. -/
theorem reply_after_lan_packet : (sampleConfig 0).mac ≠ (sampleConfig 1).mac ∧
      read32 (fromTwin tcpPacket).mem saddr = htonl (sampleConfig 0).wanip ∧
      read32 (twinipRx sampleConfig sampleDevIp true (fun _ => true) (fromTwin tcpPacket)).2.mem saddr =
        htonl (sampleConfig 0).virtualIp ∧
      read32 (toTwin icmpPacket).mem daddr = htonl (sampleConfig 0).virtualIp ∧
      read32 (twinipTx sampleConfig true
        ([Event.rx sampleDevIp true (fromTwin tcpPacket), .rx sampleDevIp true (fromTwin lanPacket)].foldl
          (step sampleConfig) fun _ => true) (toTwin icmpPacket)).mem daddr ≠ htonl (sampleConfig 0).wanip := by
  refine ⟨by decide, by decide +kernel, by decide +kernel, by decide +kernel, by decide +kernel⟩

end RouterApps.Twinip
