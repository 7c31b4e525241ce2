/-
# Dhcpc.Collision -- offers that collide with the LAN (dhcpc.c)

Before it takes an offer, the client compares the network of the offered address with that of the LAN,
and refuses if they are the same (`check_private_ip`).  Otherwise it looks for a /24 for the router's
own service: it counts the third byte of the one in use down until it is none of the networks it knows.

`check_same_network2` masks each address with its own mask.  Networks of different lengths that overlap
are the same for it only if they begin at the same address, so an offer from a network around the LAN,
or inside of it, is mostly not refused (`collision_not_refused`).

The loop ends, as of four candidates one is free (`exists_free_candidate`).
`wan_collision_refused_iff` says which offers are handled rightly.
-/
import RouterApps.Dhcpc.Renumber

namespace RouterApps.Dhcpc

open CLib Theory.Subnet List Option

/-! ## Data -/

/-- What is read of an offer.  Addresses are in network order, `subnet` is the option for the mask. -/
structure Offer where
  yiaddr : UInt32
  siaddr : UInt32
  giaddr : UInt32
  subnet : Option UInt32

/-- What the calls out of the client answer.  `serviceNetwork` is `none` if the client is built without
that step; `changeLocalIp` says that it is built with `USE_CHANGE_LOCAL_IP_BY_WAN_SUBNET`. -/
structure Env where
  lanip : UInt32
  lanPrefix : Nat
  lanShort : lanPrefix ≤ 32
  helpers : List CString
  blockPrivateIp : Bool
  serviceNetwork : Option CString
  changeLocalIp : Bool
  getSubnetRange : CString → CString → CString × CString

/-- What a call returns, and what it changes: the router, whether it is restarted, `srv_net` after
the loop, and what is stored of it. -/
structure Result where
  ret : Int32
  router : Router
  reboot : Bool
  srvNet : Option CString
  stored : Option CString
deriving DecidableEq

/-! ## The comparison -/

/-- `makeip`: there is a blank behind the address. -/
def makeip (ip : UInt32) : CString :=
  ⟨dotted (leBytes ip) ++ [32], by simpa using zero_notMem_dotted (leBytes ip)⟩

variable (ip : UInt32)

theorem inetAddr_makeip : inetAddr (makeip ip) = ip := by
  rw [inetAddr, inetAton_of_dotted rfl (.inr ⟨[], rfl⟩), getD_some]

def checkSameNetwork2 (ip1str ip1mask ip2str ip2mask : CString) : Bool :=
  htonl (inetAddr ip1str) &&& htonl (inetAddr ip1mask) = htonl (inetAddr ip2str) &&& htonl (inetAddr ip2mask)

/-- `"255.255.255.0"`. -/
def srvMask : CString := addressText 0xffffff00

def isPrivateIp (ip : UInt32) : Bool :=
  ip &&& 0xff000000 = 0x0a000000 || ip &&& 0xfff00000 = 0xac100000 || ip &&& 0xffff0000 = 0xc0a80000

/-! ## The network for the service -/

def countDown (ip : UInt32) : UInt32 :=
  leWord ((leBytes ip).modify 2 fun byte => if byte ≠ 0 then byte - 1 else 255)

/-- One of the three comparisons of the loop holds. -/
def srvBlocked (wanip wanmask serverIp relayIp srvNet : CString) : Bool :=
  checkSameNetwork2 srvNet srvMask wanip wanmask || checkSameNetwork2 srvNet srvMask serverIp srvMask ||
    checkSameNetwork2 srvNet srvMask relayIp srvMask

/-- The loop, with a bound for its rounds: `srv_net` when it is left. -/
def srvLoop (blocked : CString → Bool) : Nat → CString → Option CString
  | 0, _ => none
  | rounds + 1, srvNet =>
    if blocked srvNet then srvLoop blocked rounds (makeip (countDown (inetAddr srvNet))) else some srvNet

/-- `strcat(srv_net, ".0")`. -/
def withHost (network : CString) : CString := ⟨network.bytes ++ ascii ['.', '0'], by
  simpa using ⟨network.nulFree, by decide⟩⟩

/-- `*strrchr(s, '.') = 0`, if there is a dot. -/
def cutAtLastDot (s : CString) : Option CString :=
  if dot ∈ s.bytes then
    some ⟨(s.bytes.reverse.dropWhile (· != dot)).tail.reverse, fun zero => s.nulFree (by
      have inside := mem_of_mem_tail (mem_reverse.1 zero)
      exact mem_reverse.1 (dropWhile_subset _ inside))⟩
  else none

/-! ## The check -/

def inHelperNetwork (env : Env) (wanip wanmask : CString) : Bool :=
  env.helpers.any fun helper => checkSameNetwork2 helper srvMask wanip wanmask

/-- The offer is in the network of the LAN: the LAN may be renumbered, and the router restarted then. -/
def lanCollision (env : Env) (router : Router) : Result :=
  if env.changeLocalIp then
    let changed := changeLanIpConfigByWanSubnet .little env.getSubnetRange (addressText env.lanip)
      (addressText (maskOf env.lanPrefix)) router
    ⟨1, changed.2, decide (changed.1 ≠ -1), none, none⟩
  else ⟨1, router, false, none, none⟩

/-- The last part of `check_private_ip`, if it is built in. -/
def serviceStep (rounds : Nat) (env : Env) (blocked : CString → Bool) (router : Router) : Option Result :=
  match env.serviceNetwork with
  | none => some ⟨0, router, false, none, none⟩
  | some network =>
    (srvLoop blocked rounds (withHost network)).map fun srvNet =>
      ⟨0, router, false, some srvNet, cutAtLastDot srvNet⟩

/-- `check_private_ip` for an offer with a mask. -/
def checkOffer (rounds : Nat) (env : Env) (offer : Offer) (wanip wanmask : CString) (router : Router) : Option Result :=
  if checkSameNetwork2 (addressText env.lanip) (addressText (maskOf env.lanPrefix)) wanip wanmask then
    some (lanCollision env router)
  else if inHelperNetwork env wanip wanmask then some ⟨1, router, false, none, none⟩
  else if env.blockPrivateIp && isPrivateIp (htonl offer.yiaddr) then some ⟨1, router, false, none, none⟩
  else serviceStep rounds env (srvBlocked wanip wanmask (makeip offer.siaddr) (makeip offer.giaddr)) router

/-- `check_private_ip`, with a bound for the rounds of its loop. -/
def checkPrivateIp (rounds : Nat) (env : Env) (offer : Offer) (router : Router) : Option Result :=
  match offer.subnet with
  | none => some ⟨0, router, false, none, none⟩
  | some subnet => checkOffer rounds env offer (makeip offer.yiaddr) (makeip subnet) router

/-! ## Texts and addresses -/

def host (text : CString) : UInt32 := htonl (inetAddr text)

theorem host_addressText (a : UInt32) : host (addressText a) = a := by
  rw [host, addressText, inetAddr_inetNtoa]
  exact ntohl_ntohl a

theorem host_makeip : host (makeip ip) = htonl ip := by
  rw [host, inetAddr_makeip]

theorem host_srvMask : host srvMask = maskOf 24 := by
  decide

theorem host_wanmask (w : Nat) : host (makeip (htonl (maskOf w))) = maskOf w := by
  rw [host_makeip]
  exact ntohl_ntohl _

theorem checkSameNetwork2_eq (ip1str ip1mask ip2str ip2mask : CString) :
    checkSameNetwork2 ip1str ip1mask ip2str ip2mask =
      decide (host ip1str &&& host ip1mask = host ip2str &&& host ip2mask) := rfl

/-! ## The loop for the service network -/

section

/-- What `srv_net` holds after some rounds. -/
def candidate (srvNet : CString) : Nat → CString
  | 0 => srvNet
  | i + 1 => makeip (countDown (inetAddr (candidate srvNet i)))

def FirstFree (blocked : CString → Bool) (srvNet : CString) (i : Nat) : Prop :=
  blocked (candidate srvNet i) = false ∧ ∀ j < i, blocked (candidate srvNet j) = true

theorem candidate_succ (srvNet : CString) (i : Nat) :
    candidate srvNet (i + 1) = candidate (makeip (countDown (inetAddr srvNet))) i := by
  induction i with
  | zero => rfl
  | succ i ih => rw [candidate, ih, candidate]

variable {blocked : CString → Bool} {srvNet : CString}

theorem srvLoop_of_firstFree {i rounds : Nat}
    (first : FirstFree blocked srvNet i) (enough : i < rounds) :
    srvLoop blocked rounds srvNet = some (candidate srvNet i) := by
  obtain ⟨free, earlier⟩ := first
  induction i generalizing srvNet rounds with
  | zero =>
    obtain ⟨rounds, rfl⟩ := Nat.exists_eq_succ_of_ne_zero (Nat.ne_of_gt enough)
    rw [srvLoop, if_neg (by simpa [candidate] using free)]
    rfl
  | succ i ih =>
    obtain ⟨rounds, rfl⟩ := Nat.exists_eq_succ_of_ne_zero (Nat.ne_of_gt (Nat.zero_lt_of_lt enough))
    have here : blocked srvNet = true := earlier 0 (Nat.succ_pos i)
    rw [srvLoop, if_pos here, candidate_succ]
    refine ih (Nat.lt_of_succ_lt_succ enough) ?_ ?_
    · rwa [← candidate_succ]
    · intro j less
      rw [← candidate_succ]
      exact earlier (j + 1) (Nat.succ_lt_succ less)

theorem FirstFree.unique {i j : Nat} (first : FirstFree blocked srvNet i)
    (other : FirstFree blocked srvNet j) : i = j := by
  rcases Nat.lt_trichotomy i j with less | same | more
  · exact absurd (other.2 i less) (by simp [first.1])
  · exact same
  · exact absurd (first.2 j more) (by simp [other.1])

theorem toNat_htonl_leWord (a b c d : UInt8) :
    (htonl (leWord [a, b, c, d])).toNat = a.toNat * 16777216 + (b.toNat * 65536 + (c.toNat * 256 + d.toNat)) := by
  have := a.toNat_lt
  have := b.toNat_lt
  have := c.toNat_lt
  have := d.toNat_lt
  rw [← htonl_bytes, htonl, htonl, ntohl_ntohl, UInt32.toNat_ofNat']
  omega

theorem toNat_host_countDown (text : CString) : (host (makeip (countDown (inetAddr text)))).toNat / 256 =
      if (host text).toNat / 256 % 256 = 0 then (host text).toNat / 256 + 255 else (host text).toNat / 256 - 1 := by
  rw [host_makeip, host]
  generalize inetAddr text = x
  obtain ⟨a, b, c, d, rfl⟩ : ∃ a b c d, x = leWord [a, b, c, d] := ⟨_, _, _, _, (leWord_leBytes x).symm⟩
  have counted : countDown (leWord [a, b, c, d]) = leWord [a, b, if c ≠ 0 then c - 1 else 255, d] := by
    unfold countDown
    rw [leBytes_leWord rfl]
    rfl
  have byteA := a.toNat_lt
  have byteB := b.toNat_lt
  have byteC := c.toNat_lt
  have byteD := d.toNat_lt
  rw [counted, toNat_htonl_leWord, toNat_htonl_leWord]
  have third : (a.toNat * 16777216 + (b.toNat * 65536 + (c.toNat * 256 + d.toNat))) / 256 % 256 = c.toNat := by omega
  rw [third]
  by_cases zero : c = 0
  · subst zero
    simp only [UInt8.toNat_zero, if_true]
    show (a.toNat * 16777216 + (b.toNat * 65536 + (255 * 256 + d.toNat))) / 256 = _
    omega
  · have positive : c.toNat ≠ 0 := fun same => zero (UInt8.toNat_inj.1 same)
    have one : 1 ≤ c := by
      exact Nat.one_le_iff_ne_zero.2 positive
    rw [if_pos zero, if_neg positive, UInt8.toNat_sub_of_le _ _ one, UInt8.toNat_one]
    omega

/-- The third byte of the candidates goes down, and the others stay. -/
theorem toNat_host_candidate (srvNet : CString) {i : Nat} (bounded : i < 256) :
    (host (candidate srvNet i)).toNat / 256 =
      (host srvNet).toNat / 65536 * 256 + ((host srvNet).toNat / 256 % 256 + 256 - i) % 256 := by
  induction i with
  | zero =>
    rw [candidate]
    omega
  | succ i ih =>
    rw [candidate, toNat_host_countDown]
    split <;> omega

theorem candidates_differ (srvNet : CString) {i j : Nat} (boundedI : i < 256) (boundedJ : j < 256)
    (same : net 24 (host (candidate srvNet i)) = net 24 (host (candidate srvNet j))) : i = j := by
  have number : ∀ a, (net 24 a).toNat = a.toNat / 256 * 256 := toNat_net (by decide)
  have numbers := congrArg UInt32.toNat same
  rw [number, number, toNat_host_candidate srvNet boundedI, toNat_host_candidate srvNet boundedJ] at numbers
  omega

/-- The loop compares a candidate with three networks, so one of the first four is free. -/
theorem exists_free_candidate (srvNet : CString) (x y z : UInt32) :
    ∃ i < 4, net 24 (host (candidate srvNet i)) ∉ ({x, y, z} : Finset UInt32) := by
  by_contra none
  have all : ∀ i ∈ Finset.range 4, net 24 (host (candidate srvNet i)) ∈ ({x, y, z} : Finset UInt32) := by
    intro i inside
    by_contra free
    exact none ⟨i, Finset.mem_range.1 inside, free⟩
  have few := Finset.card_le_card_of_injOn (fun i => net 24 (host (candidate srvNet i))) all (by
    intro i insideI j insideJ same
    have boundI : i < 4 := by simpa using insideI
    have boundJ : j < 4 := by simpa using insideJ
    exact candidates_differ srvNet (by omega) (by omega) same)
  have three : ({x, y, z} : Finset UInt32).card ≤ 3 := Finset.card_le_three
  rw [Finset.card_range] at few
  omega

end

/-! ## Which offers are refused -/

/-- The offered address, in host order. -/
def Offer.wan (offer : Offer) : UInt32 := htonl offer.yiaddr

/-- The offer is in a helper network, or its address is private and those are refused. -/
def RefusedOtherwise (env : Env) (offer : Offer) (w : Nat) : Prop :=
  (∃ helper ∈ env.helpers, net 24 (host helper) = net w offer.wan) ∨
    (env.blockPrivateIp = true ∧ isPrivateIp offer.wan = true)

/-- The offer is refused: its network has the number of the LAN, or for another reason. -/
def Refused (env : Env) (offer : Offer) (w : Nat) : Prop :=
  net env.lanPrefix env.lanip = net w offer.wan ∨ RefusedOtherwise env offer w

/-- The networks that a candidate is compared with. -/
def Offer.taken (offer : Offer) (w : Nat) : Finset UInt32 :=
  {net w offer.wan, net 24 (htonl offer.siaddr), net 24 (htonl offer.giaddr)}

/-- The candidate's network is one of these. -/
def Offer.takes (offer : Offer) (w : Nat) (srvNet : CString) : Bool := decide (net 24 (host srvNet) ∈ offer.taken w)

section

variable {env : Env} {offer : Offer} {w : Nat}

theorem exists_firstFree (offer : Offer) (w : Nat) (srvNet : CString) :
    ∃ i < 4, FirstFree (offer.takes w) srvNet i := by
  obtain ⟨i, small, notTaken⟩ := exists_free_candidate srvNet (net w offer.wan) (net 24 (htonl offer.siaddr))
    (net 24 (htonl offer.giaddr))
  have free := decide_eq_false notTaken
  have some_ : ∃ i, offer.takes w (candidate srvNet i) = false := ⟨i, free⟩
  refine ⟨Nat.find some_, Nat.lt_of_le_of_lt (Nat.find_min' some_ free) small, Nat.find_spec some_, ?_⟩
  intro j less
  simpa using Nat.find_min some_ less

theorem srvBlocked_eq (srvNet : CString) :
    srvBlocked (makeip offer.yiaddr) (makeip (htonl (maskOf w))) (makeip offer.siaddr) (makeip offer.giaddr) srvNet =
      offer.takes w srvNet := by
  simp only [srvBlocked, checkSameNetwork2_eq, host_makeip, host_srvMask]
  rw [show htonl (htonl (maskOf w)) = maskOf w from ntohl_ntohl _]
  simp [Offer.takes, Offer.taken, net, Offer.wan, Bool.or_assoc]

theorem checkSameNetwork2_lan :
    checkSameNetwork2 (addressText env.lanip) (addressText (maskOf env.lanPrefix)) (makeip offer.yiaddr)
      (makeip (htonl (maskOf w))) = decide (net env.lanPrefix env.lanip = net w offer.wan) := by
  rw [checkSameNetwork2_eq, host_addressText, host_addressText, host_makeip, host_wanmask]
  rfl

theorem inHelperNetwork_iff : inHelperNetwork env (makeip offer.yiaddr) (makeip (htonl (maskOf w))) = true ↔
      ∃ helper ∈ env.helpers, net 24 (host helper) = net w offer.wan := by
  simp only [inHelperNetwork, List.any_eq_true, checkSameNetwork2_eq, host_makeip, decide_eq_true_eq]
  rw [show htonl (htonl (maskOf w)) = maskOf w from ntohl_ntohl _]
  rfl

theorem lanCollision_ret (env : Env) (router : Router) : (lanCollision env router).ret = 1 := by
  unfold lanCollision
  split <;> rfl

section

variable (given : offer.subnet = some (htonl (maskOf w)))

include given

theorem checkPrivateIp_of_mask (rounds : Nat) (router : Router) : checkPrivateIp rounds env offer router =
      checkOffer rounds env offer (makeip offer.yiaddr) (makeip (htonl (maskOf w))) router := by
  rw [checkPrivateIp, given]

theorem checkPrivateIp_of_refused (refused : Refused env offer w)
    (router : Router) : ∃ result, (∀ rounds, checkPrivateIp rounds env offer router = some result) ∧ result.ret = 1 := by
  by_cases same : net env.lanPrefix env.lanip = net w offer.wan
  · refine ⟨lanCollision env router, fun rounds => ?_, lanCollision_ret env router⟩
    rw [checkPrivateIp_of_mask given, checkOffer, checkSameNetwork2_lan, if_pos (decide_eq_true same)]
  · refine ⟨⟨1, router, false, none, none⟩, fun rounds => ?_, rfl⟩
    rw [checkPrivateIp_of_mask given, checkOffer, checkSameNetwork2_lan, if_neg (by simpa using same)]
    rcases refused.resolve_left same with helper | ⟨blocks, isPrivate⟩
    · rw [if_pos (inHelperNetwork_iff.2 helper)]
    · have both : (env.blockPrivateIp && isPrivateIp (htonl offer.yiaddr)) = true :=
        Bool.and_eq_true_iff.2 ⟨blocks, isPrivate⟩
      rw [if_pos both, ite_self]

theorem checkPrivateIp_of_taken (taken : ¬ Refused env offer w) (rounds : Nat) (router : Router) :
    checkPrivateIp rounds env offer router = serviceStep rounds env (offer.takes w) router := by
  obtain ⟨apart, others⟩ := not_or.1 taken
  obtain ⟨noHelper, notPrivate⟩ := not_or.1 others
  have blocked : srvBlocked (makeip offer.yiaddr) (makeip (htonl (maskOf w))) (makeip offer.siaddr)
      (makeip offer.giaddr) = offer.takes w := funext srvBlocked_eq
  have allowed : ¬ (env.blockPrivateIp && isPrivateIp (htonl offer.yiaddr)) = true := fun both =>
    notPrivate (Bool.and_eq_true_iff.1 both)
  rw [checkPrivateIp_of_mask given, checkOffer, checkSameNetwork2_lan, if_neg (by simpa using apart),
    if_neg (fun inside => noHelper (inHelperNetwork_iff.1 inside)), if_neg allowed, blocked]

end

/-- The step returns after four rounds at most, with the first candidate that is free. -/
theorem serviceStep_spec (env : Env) (offer : Offer) (w : Nat) (router : Router) :
    ∃ result, (∀ rounds, 4 ≤ rounds → serviceStep rounds env (offer.takes w) router = some result) ∧ result.ret = 0 ∧
      ∀ srvNet, result.srvNet = some srvNet ↔ ∃ network, env.serviceNetwork = some network ∧
        ∃ i, FirstFree (offer.takes w) (withHost network) i ∧ candidate (withHost network) i = srvNet := by
  cases service : env.serviceNetwork with
  | none =>
    refine ⟨⟨0, router, false, none, none⟩, fun rounds _ => ?_, rfl, fun srvNet => by simp⟩
    rw [serviceStep, service]
  | some network =>
    obtain ⟨i, small, first⟩ := exists_firstFree offer w (withHost network)
    refine ⟨⟨0, router, false, some (candidate (withHost network) i), cutAtLastDot (candidate (withHost network) i)⟩,
      fun rounds enough => ?_, rfl, fun srvNet => ⟨fun chosen => ?_, ?_⟩⟩
    · rw [serviceStep, service]
      dsimp only
      rw [srvLoop_of_firstFree first (by omega), map_some]
    · exact ⟨network, rfl, i, first, some.inj chosen⟩
    · rintro ⟨_, given, j, other, rfl⟩
      obtain rfl := some.inj given
      rw [first.unique other]

end

/-- The offer is refused if its network overlaps with the LAN, and if it is taken, the network for
the service does not overlap with it. -/
structure Handled (env : Env) (offer : Offer) (w : Nat) (result : Result) : Prop where
  refused : Share env.lanPrefix env.lanip w offer.wan → result.ret = 1
  apart : result.ret = 0 → ∀ srvNet, result.srvNet = some srvNet → ¬ Share 24 (host srvNet) w offer.wan

/-- An offer whose network overlaps with the LAN is refused; and the first candidate whose number is
not taken does not overlap with the WAN. -/
structure NumbersTell (env : Env) (offer : Offer) (w : Nat) : Prop where
  lan : Share env.lanPrefix env.lanip w offer.wan → Refused env offer w
  service : ¬ Refused env offer w → ∀ network, env.serviceNetwork = some network →
    ∀ i, FirstFree (offer.takes w) (withHost network) i → ¬ Share 24 (host (candidate (withHost network) i)) w offer.wan

/-- **Offers that collide.**  `check_private_ip` returns after four rounds at most; and the offer is
handled rightly exactly if the numbers of the networks tell. -/
theorem wan_collision_refused_iff (env : Env) (offer : Offer) (w : Nat) (given : offer.subnet = some (htonl (maskOf w)))
    (router : Router) : ∃ result, (∀ rounds, 4 ≤ rounds → checkPrivateIp rounds env offer router = some result) ∧
      (Handled env offer w result ↔ NumbersTell env offer w) := by
  by_cases refused : Refused env offer w
  · obtain ⟨result, returns, one⟩ := checkPrivateIp_of_refused given refused router
    refine ⟨result, fun rounds _ => returns rounds, iff_of_true ⟨fun _ => one, fun zero => ?_⟩ ⟨fun _ => refused, ?_⟩⟩
    · rw [one] at zero
      exact absurd zero (by decide)
    · exact fun taken => absurd refused taken
  · obtain ⟨result, returns, zero, chosen⟩ := serviceStep_spec env offer w router
    refine ⟨result, fun rounds enough => ?_, ?_⟩
    · rw [checkPrivateIp_of_taken given refused, returns rounds enough]
    have notOne : result.ret ≠ 1 := by
      rw [zero]
      decide
    constructor
    · rintro ⟨one, apart⟩
      refine ⟨fun shared => absurd (one shared) notOne, fun _ network service i first => ?_⟩
      exact apart zero _ ((chosen _).2 ⟨network, service, i, first, rfl⟩)
    · rintro ⟨tells, apart⟩
      refine ⟨fun shared => absurd (tells shared) refused, fun _ srvNet stored => ?_⟩
      obtain ⟨network, service, i, first, rfl⟩ := (chosen srvNet).1 stored
      exact apart refused network service i first

/-- A LAN of prefix length 24, and the network 10.25.115 for the service. -/
def sampleEnv (lanip : UInt32) : Env where
  lanip := lanip
  lanPrefix := 24
  lanShort := by decide
  helpers := []
  blockPrivateIp := false
  serviceNetwork := some (CString.ofBuffer (ascii ['1', '0', '.', '2', '5', '.', '1', '1', '5']))
  changeLocalIp := false
  getSubnetRange := fun sip eip => (sip, eip)

/-- An offer of the address, by a server in another network. -/
def sampleOffer (wan : UInt32) (w : Nat) : Offer := ⟨htonl wan, htonl 0xc6336401, 0, some (htonl (maskOf w))⟩

/-- A network of the same length as the LAN: 192.168.1.50/24 is refused. -/
theorem same_network_refused : ∃ result,
      (∀ rounds, 4 ≤ rounds →
        checkPrivateIp rounds (sampleEnv 0xc0a80101) (sampleOffer 0xc0a80132 24) sampleRouter = some result) ∧
      Handled (sampleEnv 0xc0a80101) (sampleOffer 0xc0a80132 24) 24 result := by
  obtain ⟨result, returns, handled⟩ :=
    wan_collision_refused_iff (sampleEnv 0xc0a80101) (sampleOffer 0xc0a80132 24) 24 rfl sampleRouter
  have refused : Refused (sampleEnv 0xc0a80101) (sampleOffer 0xc0a80132 24) 24 := .inl (by decide)
  exact ⟨result, returns, handled.2 ⟨fun _ => refused, fun taken => absurd refused taken⟩⟩

/-- 10.0.0.5/8 is taken by a router whose LAN is 10.25.1.1/24, and the network for the service stays
10.25.115.0. -/
theorem collision_not_refused : ∃ srvNet stored,
      checkPrivateIp 4 (sampleEnv 0x0a190101) (sampleOffer 0x0a000005 8) sampleRouter =
        some ⟨0, sampleRouter, false, some srvNet, stored⟩ ∧
      Share 24 0x0a190101 8 0x0a000005 ∧ Share 24 (host srvNet) 8 0x0a000005 := by
  refine ⟨withHost (CString.ofBuffer (ascii ['1', '0', '.', '2', '5', '.', '1', '1', '5'])),
    some (CString.ofBuffer (ascii ['1', '0', '.', '2', '5', '.', '1', '1', '5'])), by decide +kernel,
    ⟨0x0a190101, by decide, by decide⟩, ⟨0x0a197300, ?_, by decide⟩⟩
  decide +kernel

end RouterApps.Dhcpc
