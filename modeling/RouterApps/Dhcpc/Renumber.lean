/-
# Dhcpc.Renumber -- moving the LAN out of the way of the WAN (dhcpc.c)

When the network of the WAN is that of the LAN, the client gives the LAN the network before its own: it
shifts the host part out of the address, takes 1 away, and shifts back.  How far, it finds out by
looking for the lowest bit of the mask.

All of this is done on what `inet_addr` returns, a word in network order.  On a little-endian machine
the lowest byte of the mask is its first, 255 for any prefix length from 8 on, and the function gives
up at once (`lan_renumbered_iff_big_endian`).
-/
import RouterApps.CLib.Text
import RouterApps.Theory.Subnet

namespace RouterApps.Dhcpc

open CLib Theory.Subnet

/-! ## The machine -/

/-- The order of the bytes of a word. -/
inductive Endian
  | little
  | big
deriving DecidableEq

/-- The word a machine loads from the bytes from which a little-endian one loads `x`. -/
def Endian.word (e : Endian) (x : UInt32) : UInt32 :=
  match e with
  | .little => x
  | .big => ntohl x

def Endian.inetAddr (e : Endian) (cp : CString) : UInt32 := e.word (CLib.inetAddr cp)

def Endian.inetNtoa (e : Endian) (address : UInt32) : CharArray 16 := CLib.inetNtoa (e.word address)

/-! ## Renumbering -/

/-- The address and the mask of the LAN; the gateway and the range of the DHCP server; and whether
its leases were dropped. -/
structure Router where
  lanip : CString
  lanmask : CString
  gw : CString
  sip : CString
  eip : CString
  flushed : Bool
deriving DecidableEq

/-- The loop over the bits of the mask, with the number of bits that are left. -/
def maskShiftFrom (iLanmask : UInt32) : Nat → Nat → Nat
  | 0, maskShift => maskShift
  | left + 1, maskShift =>
    if iLanmask &&& (1 <<< UInt32.ofNat maskShift) ≠ 0 then maskShift
    else maskShiftFrom iLanmask left (maskShift + 1)

/-- `getSubnetRange` is the library's, the first and the last address for hosts. -/
def changeLanIpConfigByWanSubnet (e : Endian) (getSubnetRange : CString → CString → CString × CString)
    (lanip lanmask : CString) (router : Router) : Int32 × Router :=
  let iLanip := e.inetAddr lanip
  let iLanmask := e.inetAddr lanmask
  let maskShift := maskShiftFrom iLanmask 32 0
  if maskShift ≥ 32 then (-1, router)
  else if maskShift = 0 then (-1, router)
  else
    let iNetaddr := iLanip &&& iLanmask
    let iNetaddr := iNetaddr >>> UInt32.ofNat maskShift
    let iNetaddr := iNetaddr - 1
    let iNetaddr := iNetaddr <<< UInt32.ofNat maskShift
    let newLanip := (e.inetNtoa (iNetaddr + 1)).toCString
    let range := getSubnetRange newLanip lanmask
    (0, ⟨newLanip, lanmask, newLanip, range.1, range.2, true⟩)

def addressText (a : UInt32) : CString := (CLib.inetNtoa (htonl a)).toCString

/-- The first host of the network of the same size before the one of `a`. -/
def firstHostBefore (p : Nat) (a : UInt32) : UInt32 := net p a - UInt32.ofNat (2 ^ (32 - p)) + 1

/-! ## Either order -/

theorem little_inetAddr (a : UInt32) : Endian.little.inetAddr (addressText a) = htonl a := inetAddr_inetNtoa (htonl a)

theorem big_inetAddr (a : UInt32) : Endian.big.inetAddr (addressText a) = a := by
  show ntohl (CLib.inetAddr (addressText a)) = a
  rw [addressText, inetAddr_inetNtoa, ntohl_htonl]

variable {p : Nat} (getSubnetRange : CString → CString → CString × CString)

/-- The lowest byte of a mask in network order is its first one. -/
theorem maskShift_little (low : 8 ≤ p) (high : p ≤ 32) : maskShiftFrom (htonl (maskOf p)) 32 0 = 0 := by
  have all : ∀ p < 33, 8 ≤ p → maskShiftFrom (htonl (maskOf p)) 32 0 = 0 := by decide +kernel
  exact all p (by omega) low

theorem maskShift_big (low : 1 ≤ p) (high : p ≤ 32) : maskShiftFrom (maskOf p) 32 0 = 32 - p := by
  have all : ∀ p < 33, 1 ≤ p → maskShiftFrom (maskOf p) 32 0 = 32 - p := by decide +kernel
  exact all p (by omega) low

/-- Shifting out the host part, taking 1 away and shifting back gives the network before. -/
theorem shift_back (low : 1 ≤ p) (high : p ≤ 32) {a : UInt32} (numbered : net p a ≠ 0) :
    (((net p a) >>> UInt32.ofNat (32 - p)) - 1) <<< UInt32.ofNat (32 - p) = net p a - UInt32.ofNat (2 ^ (32 - p)) := by
  have rounded := toNat_net high a
  have bounded := (net p a).toNat_lt
  have size : 2 ^ (32 - p) < 2 ^ 32 := Nat.pow_lt_pow_right (by decide) (by omega)
  have shift : (UInt32.ofNat (32 - p)).toNat % 32 = 32 - p := by
    rw [UInt32.toNat_ofNat']
    omega
  have positive : a.toNat / 2 ^ (32 - p) ≠ 0 := by
    intro zero
    rw [zero, Nat.zero_mul] at rounded
    exact numbered (UInt32.toNat_inj.1 rounded)
  generalize a.toNat / 2 ^ (32 - p) = number at rounded positive
  have back : ((net p a) >>> UInt32.ofNat (32 - p)).toNat = number := by
    rw [UInt32.toNat_shiftRight, shift, Nat.shiftRight_eq_div_pow, rounded, Nat.mul_div_cancel _ (Nat.two_pow_pos _)]
  have one : 1 ≤ (net p a) >>> UInt32.ofNat (32 - p) := by
    rw [UInt32.le_iff_toNat_le, back]
    exact Nat.one_le_iff_ne_zero.2 positive
  have whole : (number - 1) * 2 ^ (32 - p) + 2 ^ (32 - p) = number * 2 ^ (32 - p) := by
    rw [← Nat.succ_mul, Nat.succ_eq_add_one, Nat.sub_add_cancel (Nat.one_le_iff_ne_zero.2 positive)]
  have smaller : UInt32.ofNat (2 ^ (32 - p)) ≤ net p a := by
    rw [UInt32.le_iff_toNat_le, UInt32.toNat_ofNat', Nat.mod_eq_of_lt size]
    omega
  apply UInt32.toNat_inj.1
  rw [UInt32.toNat_shiftLeft, shift, UInt32.toNat_sub_of_le _ _ one, back, Nat.shiftLeft_eq,
    UInt32.toNat_sub_of_le _ _ smaller, UInt32.toNat_ofNat', Nat.mod_eq_of_lt size, rounded, Nat.mod_eq_of_lt]
  · exact Nat.eq_sub_of_add_eq whole
  · exact Nat.lt_of_le_of_lt (Nat.le.intro whole) (rounded ▸ bounded)

/-- The word that the new address of the LAN is printed from. -/
def newWord (iLanip iLanmask : UInt32) (maskShift : Nat) : UInt32 :=
  (((iLanip &&& iLanmask) >>> UInt32.ofNat maskShift - 1) <<< UInt32.ofNat maskShift) + 1

variable (router : Router)

theorem changeLan_of_shift {e : Endian} {lanip lanmask : CString} {maskShift : Nat}
    (found : maskShiftFrom (e.inetAddr lanmask) 32 0 = maskShift) (small : maskShift < 32) (positive : maskShift ≠ 0) :
    (changeLanIpConfigByWanSubnet e getSubnetRange lanip lanmask router).1 = 0 ∧
      (changeLanIpConfigByWanSubnet e getSubnetRange lanip lanmask router).2.lanip =
        (e.inetNtoa (newWord (e.inetAddr lanip) (e.inetAddr lanmask) maskShift)).toCString := by
  unfold changeLanIpConfigByWanSubnet newWord
  simp only [found, if_neg (Nat.not_le.2 small), if_neg positive, and_self]

theorem little_gives_up (low : 8 ≤ p) (high : p ≤ 32) (lan : UInt32) :
    changeLanIpConfigByWanSubnet .little getSubnetRange (addressText lan) (addressText (maskOf p)) router =
      (-1, router) := by
  unfold changeLanIpConfigByWanSubnet
  dsimp only
  rw [little_inetAddr (maskOf p), maskShift_little low high]
  rfl

/-- **Renumbering.**  For prefix lengths from 8 to 30, and a network that is not number 0, the LAN
gets the first host of the network before its own exactly if the machine is big-endian. -/
theorem lan_renumbered_iff_big_endian (e : Endian) (getSubnetRange : CString → CString → CString × CString)
    (router : Router) (p : Nat) (low : 8 ≤ p) (high : p ≤ 30) (lan : UInt32) (numbered : net p lan ≠ 0) :
    ((changeLanIpConfigByWanSubnet e getSubnetRange (addressText lan) (addressText (maskOf p)) router).1 = 0 ∧
      (changeLanIpConfigByWanSubnet e getSubnetRange (addressText lan) (addressText (maskOf p)) router).2.lanip =
        addressText (firstHostBefore p lan)) ↔ e = .big := by
  cases e with
  | little =>
    rw [little_gives_up getSubnetRange router low (by omega) lan]
    exact iff_of_false (fun both => absurd both.1 (show (-1) ≠ 0 by decide)) (by decide)
  | big =>
    refine iff_of_true ?_ rfl
    have shift : maskShiftFrom (Endian.big.inetAddr (addressText (maskOf p))) 32 0 = 32 - p := by
      rw [big_inetAddr]
      exact maskShift_big (by omega) (by omega)
    have moved : newWord lan (maskOf p) (32 - p) = firstHostBefore p lan := by
      have back := shift_back (by omega) (by omega) numbered
      unfold net at back
      unfold newWord firstHostBefore net
      rw [back]
    obtain ⟨done, new⟩ := changeLan_of_shift getSubnetRange router shift (by omega) (by omega)
    refine ⟨done, new.trans ?_⟩
    rw [big_inetAddr, big_inetAddr, moved]
    rfl

/-- A LAN at 192.168.1.1, whose DHCP server gives away two addresses. -/
def sampleRouter : Router where
  lanip := addressText 0xc0a80101
  lanmask := addressText (maskOf 24)
  gw := addressText 0xc0a80101
  sip := addressText 0xc0a80102
  eip := addressText 0xc0a80103
  flushed := false

/-- On a big-endian machine the LAN moves to 192.168.0.1. -/
theorem lan_renumbered_big :
    (changeLanIpConfigByWanSubnet .big (fun sip eip => (sip, eip)) (addressText 0xc0a80101) (addressText (maskOf 24))
        sampleRouter).1 = 0 ∧
      (changeLanIpConfigByWanSubnet .big (fun sip eip => (sip, eip)) (addressText 0xc0a80101) (addressText (maskOf 24))
        sampleRouter).2.lanip = addressText (firstHostBefore 24 0xc0a80101) :=
  (lan_renumbered_iff_big_endian .big (fun sip eip => (sip, eip)) sampleRouter 24 (by decide) (by decide) 0xc0a80101
    (by decide)).2 rfl

/-- On a little-endian machine the function returns -1 and the LAN stays at 192.168.1.1. -/
theorem lan_not_renumbered_little : 8 ≤ 24 ∧ 24 ≤ 30 ∧ net 24 0xc0a80101 ≠ 0 ∧
      changeLanIpConfigByWanSubnet .little (fun sip eip => (sip, eip)) (addressText 0xc0a80101)
        (addressText (maskOf 24)) sampleRouter = (-1, sampleRouter) := by
  refine ⟨by decide, by decide, by decide, by decide +kernel⟩

end RouterApps.Dhcpc
