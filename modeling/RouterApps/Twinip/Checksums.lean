/-
# Twinip.Checksums -- what rewriting does to the checksums of a packet

The new checksums balance the new address (`Rewriting.headerCorrect`, `Rewriting.sum_modEq`), also in
an ICMP message, where the checksum of the embedded header and its source address move the sum
by opposite amounts.  Three kinds of packets are damaged nevertheless:

* a UDP checksum may come out as 0, which says that there is none;
* `frag_off & 0xff` is the low byte of an offset of 13 bits, so that the data of a later
  fragment at a multiple of 256 units is taken for a UDP or TCP header; for ICMP the offset is
  not looked at;
* an ICMP message may end within the checksum and the address of the embedded header.

What is counted of a word by a message of `n` bytes is `part n k`.
-/
import RouterApps.Twinip.Frames

namespace RouterApps.Twinip

open CLib Inet Theory Function

/-! ## Valid packets -/

def words (mem : Mem) (k : Nat) : Nat := (mem k).toNat

/-- The words behind the header. -/
def segment (mem : Mem) (k : Nat) : Nat := words mem (payload mem k)

/-- The bytes behind the header. -/
def payloadLen (mem : Mem) : Nat := totLen mem - 4 * ihl mem

/-- A word in network order, as it is loaded. -/
def swapped (x : Nat) : Nat := x % 256 * 256 + x / 256

/-- The sum of the pseudo-header of TCP and UDP. -/
def pseudoHeader (mem : Mem) (len proto : Nat) : Nat :=
  words mem 6 + words mem 7 + words mem 8 + words mem 9 + swapped len + swapped proto

def HeaderCorrect (mem : Mem) : Prop := Verifies (span (words mem) (4 * ihl mem))

def TcpCorrect (mem : Mem) : Prop :=
  Verifies (pseudoHeader mem (payloadLen mem) 6 + span (segment mem) (payloadLen mem))

def udpLen (mem : Mem) : Nat := (htons (mem (payload mem 2))).toNat

def UdpCorrect (mem : Mem) : Prop :=
  8 ≤ udpLen mem ∧ udpLen mem ≤ payloadLen mem ∧
    Verifies (pseudoHeader mem (udpLen mem) 17 + span (segment mem) (udpLen mem))

/-- The packet holds a UDP checksum, and it is not left out. -/
def UdpPresent (mem : Mem) : Prop := 8 ≤ payloadLen mem ∧ segment mem 3 ≠ 0

def IcmpCorrect (mem : Mem) : Prop := Verifies (span (segment mem) (payloadLen mem))

/-- A checksum that the packet holds is correct. -/
def TransportCorrect (mem : Mem) : Prop :=
  (protocol mem = 6 → 18 ≤ payloadLen mem → TcpCorrect mem) ∧
  (protocol mem = 1 → 4 ≤ payloadLen mem → IcmpCorrect mem) ∧
  (protocol mem = 17 → UdpPresent mem → UdpCorrect mem)

/-- Offset 0, and no fragment follows. -/
def Unfragmented (mem : Mem) : Prop := fragOff mem % 16384 = 0

def LaterFragment (mem : Mem) : Prop := fragOff mem % 8192 ≠ 0

def Correct (mem : Mem) : Prop := HeaderCorrect mem ∧ (Unfragmented mem → TransportCorrect mem)

section

variable (mem : Mem)

instance : Decidable (HeaderCorrect mem) := inferInstanceAs (Decidable (Verifies _))

instance : Decidable (TcpCorrect mem) := inferInstanceAs (Decidable (Verifies _))

instance : Decidable (IcmpCorrect mem) := inferInstanceAs (Decidable (Verifies _))

instance : Decidable (UdpCorrect mem) := inferInstanceAs (Decidable (_ ∧ _ ∧ Verifies _))

instance : Decidable (UdpPresent mem) := inferInstanceAs (Decidable (_ ∧ _))

instance : Decidable (TransportCorrect mem) :=
  inferInstanceAs (Decidable ((_ → _ → TcpCorrect mem) ∧ (_ → _ → IcmpCorrect mem) ∧ (_ → UdpPresent mem → UdpCorrect mem)))

instance : Decidable (Unfragmented mem) := inferInstanceAs (Decidable (_ = _))

instance : Decidable (LaterFragment mem) := inferInstanceAs (Decidable (_ ≠ _))

instance : Decidable (Correct mem) := inferInstanceAs (Decidable (_ ∧ (_ → _)))

end

def byteAt (mem : Mem) (b : Nat) : Nat := if b % 2 = 0 then words mem (b / 2) % 256 else words mem (b / 2) / 256

/-- Correct checksums stay correct and present, and the data of a later fragment stays. -/
def PreservesValidity (before after : Mem) : Prop :=
  (Correct before → Correct after ∧
    (Unfragmented before → protocol before = 17 → UdpPresent before → UdpPresent after)) ∧
  (LaterFragment before → ∀ b, 4 * ihl before ≤ b → b < totLen before → byteAt after b = byteAt before b)

/-! ## The new header -/

theorem words_update (mem : Mem) (k : Nat) (v : UInt16) : words (update mem k v) = update (words mem) k v.toNat := by
  funext i
  unfold words
  by_cases own : i = k
  · rw [own, update_self, update_self]
  · rw [update_of_ne own, update_of_ne own]

theorem words_write32 (mem : Mem) (k : Nat) (v : UInt32) : words (write32 mem k v) =
      update (update (words mem) k (v.toNat % 65536)) (k + 1) (v.toNat / 65536) := by
  have bounded := v.toNat_lt
  unfold write32
  rw [words_update, words_update, UInt16.toNat_ofNat', UInt16.toNat_ofNat']
  rw [Nat.mod_eq_of_lt (by omega), Nat.mod_eq_of_lt (by omega : v.toNat / 65536 < 2 ^ 16)]

theorem half_read32 (mem : Mem) (k : Nat) : half (read32 mem k).toNat = words mem k + words mem (k + 1) := by
  have low := (mem k).toNat_lt
  have high := (mem (k + 1)).toNat_lt
  unfold read32 half words
  rw [UInt32.toNat_ofNat']
  omega

/-- `after` has another address at word `a`, and the checksum of the header makes up for it. -/
structure Rewritten (a : Nat) (new : UInt32) (mem after : Mem) : Prop where
  others : ∀ k, k < 2 * ihl mem → k ≠ 5 → k ≠ a → k ≠ a + 1 → after k = mem k
  check : words after 5 = exchanged (words mem 5) (read32 mem a).toNat new.toNat
  first : words after a = new.toNat % 65536
  second : words after (a + 1) = new.toNat / 65536

/-- The address is one of the two of a whole header. -/
structure Rewriting (a : Nat) (new : UInt32) (mem after : Mem) : Prop extends Rewritten a new mem after where
  address : a = 6 ∨ a = 8
  header : 5 ≤ ihl mem

/-- The word `j` behind the header makes up for the address. -/
def Exchanges (a : Nat) (new : UInt32) (mem after : Mem) (j : Nat) : Prop :=
  segment after = update (segment mem) j (exchanged (segment mem j) (read32 mem a).toNat new.toNat)

theorem Exchanges.eq {a : Nat} {new : UInt32} {mem after : Mem} {j : Nat} (changed : Exchanges a new mem after j) :
    segment after = update (segment mem) j (exchanged (segment mem j) (read32 mem a).toNat new.toNat) := changed

variable {new : UInt32} {mem after : Mem} {a : Nat}

namespace Rewriting

variable (rewritten : Rewriting a new mem after)

include rewritten

theorem word_eq {k : Nat} (inside : k < 10) (check : k ≠ 5) (first : k ≠ a) (second : k ≠ a + 1) : after k = mem k :=
  rewritten.others k (by have := rewritten.header; omega) check first second

theorem front_eq {k : Nat} (inside : k < 5) : after k = mem k := by
  have := rewritten.address
  exact rewritten.word_eq (by omega) (by omega) (by omega) (by omega)

theorem ihl_eq : ihl after = ihl mem := by rw [ihl, rewritten.front_eq (by omega), ihl]

theorem totLen_eq : totLen after = totLen mem := by rw [totLen, rewritten.front_eq (by omega), totLen]

theorem fragOff_eq : fragOff after = fragOff mem := by rw [fragOff, rewritten.front_eq (by omega), fragOff]

theorem protocol_eq : protocol after = protocol mem := by rw [protocol, rewritten.front_eq (by omega), protocol]

theorem payloadLen_eq : payloadLen after = payloadLen mem := by
  unfold payloadLen
  rw [rewritten.totLen_eq, rewritten.ihl_eq]

theorem payload_eq (j : Nat) : payload after j = payload mem j := by
  unfold payload
  rw [rewritten.ihl_eq]

theorem segment_apply (k : Nat) : segment after k = words after (2 * ihl mem + k) := by
  unfold segment payload
  rw [rewritten.ihl_eq]

theorem half_new : half new.toNat = words after a + words after (a + 1) := by
  rw [rewritten.first, rewritten.second]
  rfl

/-- **The header stays correct.** -/
theorem headerCorrect (correct : HeaderCorrect mem) : HeaderCorrect after := by
  obtain ⟨address, header⟩ := And.intro rewritten.address rewritten.header
  have sameWords : ∀ k, 2 * k < 4 * ihl mem → words after k =
      update (update (update (words mem) 5 (words after 5)) a (words after a)) (a + 1) (words after (a + 1)) k := by
    intro k inside
    by_cases second : k = a + 1
    · rw [second, update_self]
    rw [update_of_ne second]
    by_cases first : k = a
    · rw [first, update_self]
    rw [update_of_ne first]
    by_cases check : k = 5
    · rw [check, update_self]
    rw [update_of_ne check]
    exact congrArg UInt16.toNat (rewritten.others k (by omega) check first second)
  have moved := span_update₃ (words mem) (4 * ihl mem) (words after 5) (words after a) (words after (a + 1))
    (by omega : a ≠ 5) (by omega : a + 1 ≠ 5) (by omega)
  simp only [part_full (by omega : 2 * 5 + 2 ≤ 4 * ihl mem), part_full (by omega : 2 * a + 2 ≤ 4 * ihl mem),
    part_full (by omega : 2 * (a + 1) + 2 ≤ 4 * ihl mem)] at moved
  have balance := exchanged_balance (words mem 5) (read32 mem a).toNat new.toNat_lt
  rw [← rewritten.check, rewritten.half_new, half_read32] at balance
  unfold HeaderCorrect
  rw [rewritten.ihl_eq]
  refine correct.of_modEq ?_ ?_
  · have counted := part_le_span (words after) (4 * ihl mem) 0
    have sameFirst : words after 0 = words mem 0 := congrArg UInt16.toNat (rewritten.front_eq (by omega))
    rw [part_full (by omega)] at counted
    have nibble : ihl mem ≤ words mem 0 := Nat.mod_le _ _
    omega
  · rw [span_congr sameWords]
    unfold Nat.ModEq at balance ⊢
    omega

theorem pseudoHeader_balance (len proto : Nat) :
    pseudoHeader after len proto + half (read32 mem a).toNat = pseudoHeader mem len proto + half new.toNat := by
  have same : ∀ k, k < 10 → k ≠ 5 → k ≠ a → k ≠ a + 1 → words after k = words mem k :=
    fun k inside check first second => congrArg UInt16.toNat (rewritten.word_eq inside check first second)
  rw [half_read32, rewritten.half_new]
  unfold pseudoHeader
  obtain rfl | rfl := rewritten.address
  · rw [same 8 (by omega) (by omega) (by omega) (by omega), same 9 (by omega) (by omega) (by omega) (by omega)]
    simp only [Nat.reduceAdd]
    omega
  · rw [same 6 (by omega) (by omega) (by omega) (by omega), same 7 (by omega) (by omega) (by omega) (by omega)]
    simp only [Nat.reduceAdd]
    omega

/-- **The transport checksum balances the pseudo-header.** -/
theorem sum_modEq {len proto j : Nat} (inside : 2 * j + 2 ≤ len) (changed : Exchanges a new mem after j) :
    pseudoHeader after len proto + span (segment after) len ≡
      pseudoHeader mem len proto + span (segment mem) len [MOD 65535] := by
  have pseudo := rewritten.pseudoHeader_balance len proto
  have balance := exchanged_balance (segment mem j) (read32 mem a).toNat new.toNat_lt
  have moved := span_update (segment mem) len j (exchanged (segment mem j) (read32 mem a).toNat new.toNat)
  rw [part_full inside, part_full inside, ← changed.eq] at moved
  unfold Nat.ModEq at balance ⊢
  omega

theorem bytes_iff : (∀ b, 4 * ihl mem ≤ b → b < totLen mem → byteAt after b = byteAt mem b) ↔
      ∀ k, part (payloadLen mem) k (segment after k) = part (payloadLen mem) k (segment mem k) := by
  constructor
  · intro same k
    have low := same (4 * ihl mem + 2 * k)
    have high := same (4 * ihl mem + 2 * k + 1)
    unfold byteAt at low high
    rw [if_pos (by omega), if_pos (by omega), (by omega : (4 * ihl mem + 2 * k) / 2 = 2 * ihl mem + k)] at low
    rw [if_neg (by omega), if_neg (by omega), (by omega : (4 * ihl mem + 2 * k + 1) / 2 = 2 * ihl mem + k)] at high
    rw [rewritten.segment_apply]
    show part _ k (words after (2 * ihl mem + k)) = part _ k (words mem (2 * ihl mem + k))
    unfold part payloadLen
    split
    · have := low (by omega) (by omega)
      have := high (by omega) (by omega)
      omega
    · split
      · exact low (by omega) (by omega)
      · rfl
  · intro same b behind inside
    have here := same ((b - 4 * ihl mem) / 2)
    rw [rewritten.segment_apply] at here
    change part _ _ (words after _) = part _ _ (words mem (2 * ihl mem + _)) at here
    rw [(by omega : 2 * ihl mem + (b - 4 * ihl mem) / 2 = b / 2)] at here
    unfold part payloadLen at here
    unfold byteAt
    split at here
    · rw [here]
    · rw [if_pos (by omega), if_pos (by omega)] at here
      rw [if_pos (by omega), if_pos (by omega), here]

theorem preserves_iff : PreservesValidity mem after ↔ (Correct mem → Unfragmented mem →
        (protocol mem = 6 → 18 ≤ payloadLen mem →
          Verifies (pseudoHeader after (payloadLen mem) 6 + span (segment after) (payloadLen mem))) ∧
        (protocol mem = 1 → 4 ≤ payloadLen mem → Verifies (span (segment after) (payloadLen mem))) ∧
        (protocol mem = 17 → (UdpPresent after → UdpCorrect after) ∧ (UdpPresent mem → UdpPresent after))) ∧
      (LaterFragment mem → ∀ k, part (payloadLen mem) k (segment after k) = part (payloadLen mem) k (segment mem k)) := by
  have sameLen := rewritten.payloadLen_eq
  have sameProtocol := rewritten.protocol_eq
  have sameOffset := rewritten.fragOff_eq
  unfold PreservesValidity
  rw [rewritten.bytes_iff]
  refine and_congr ?_ Iff.rfl
  constructor
  · intro preserved correct unfragmented
    obtain ⟨⟨-, transport⟩, present⟩ := preserved correct
    obtain ⟨tcp, icmp, udp⟩ := transport (by rw [Unfragmented, sameOffset]; exact unfragmented)
    rw [TcpCorrect, sameProtocol, sameLen] at tcp
    rw [IcmpCorrect, sameProtocol, sameLen] at icmp
    rw [sameProtocol] at udp
    exact ⟨tcp, icmp, fun isUdp => ⟨udp isUdp, present unfragmented isUdp⟩⟩
  · intro asked correct
    refine ⟨⟨rewritten.headerCorrect correct.1, fun unfragmented => ?_⟩, ?_⟩
    · rw [Unfragmented, sameOffset] at unfragmented
      obtain ⟨tcp, icmp, udp⟩ := asked correct unfragmented
      refine ⟨?_, ?_, ?_⟩
      · rw [TcpCorrect, sameProtocol, sameLen]
        exact tcp
      · rw [IcmpCorrect, sameProtocol, sameLen]
        exact icmp
      · rw [sameProtocol]
        exact fun isUdp => (udp isUdp).1
    · exact fun unfragmented isUdp => ((asked correct unfragmented).2.2 isUdp).2

end Rewriting

/-! ## The new payload -/

variable {skb : Skb}

section

variable {mem : Mem}

theorem replaceAddress_rewritten (address : a = 6 ∨ a = 8) (header : 5 ≤ ihl mem) :
    Rewriting a new mem (replaceAddress mem a new) := by
  refine ⟨⟨?_, ?_, ?_, ?_⟩, address, header⟩
  · intro k _ check first second
    unfold replaceAddress write32
    rw [update_of_ne second, update_of_ne first, update_of_ne check]
  · unfold replaceAddress
    rw [words_write32, update_of_ne (by omega), update_of_ne (by omega), words_update, csumReplace4_toNat]
    rfl
  · unfold replaceAddress
    rw [words_write32, update_of_ne (by omega), update_self]
  · unfold replaceAddress
    rw [words_write32, update_self]

theorem replaceAddress_behind (address : a = 6 ∨ a = 8) {k : Nat} (behind : 10 ≤ k) :
    replaceAddress mem a new k = mem k := by
  unfold replaceAddress write32
  rw [update_of_ne (by omega), update_of_ne (by omega), update_of_ne (by omega)]

theorem replaceAddress_segment (address : a = 6 ∨ a = 8) (header : 5 ≤ ihl mem) :
    segment (replaceAddress mem a new) = segment mem := by
  funext k
  unfold segment payload words
  rw [(replaceAddress_rewritten address header).ihl_eq, replaceAddress_behind address (by omega)]

/-- A write behind the header. -/
theorem Rewriting.write {after : Mem} (rewritten : Rewriting a new mem after) (j : Nat) (v : UInt16) :
    Rewriting a new mem (update after (payload mem j) v) ∧
      segment (update after (payload mem j) v) = update (segment after) j v.toNat := by
  obtain ⟨address, header⟩ := And.intro rewritten.address rewritten.header
  have outside : ∀ k, k < 2 * ihl mem → update after (payload mem j) v k = after k := by
    intro k inside
    exact update_of_ne (by unfold payload; omega) _ _
  have inHeader : ∀ k, k < 2 * ihl mem → words (update after (payload mem j) v) k = words after k :=
    fun k inside => congrArg UInt16.toNat (outside k inside)
  have written : Rewriting a new mem (update after (payload mem j) v) := by
    refine ⟨⟨fun k inside check first second => ?_, ?_, ?_, ?_⟩, address, header⟩
    · rw [outside k inside, rewritten.others k inside check first second]
    · rw [inHeader 5 (by omega), rewritten.check]
    · rw [inHeader a (by omega), rewritten.first]
    · rw [inHeader (a + 1) (by omega), rewritten.second]
  refine ⟨written, ?_⟩
  funext k
  rw [written.segment_apply, words_update]
  unfold payload
  by_cases own : k = j
  · rw [own, update_self, update_self]
  · rw [update_of_ne (by omega), update_of_ne own, rewritten.segment_apply]

theorem replaceTransport_rewritten (new old : UInt32) (address : a = 6 ∨ a = 8) (header : 5 ≤ ihl skb.mem) :
    Rewriting a new skb.mem (replaceTransport { skb with mem := replaceAddress skb.mem a new } old new).mem := by
  have rewritten : Rewriting a new skb.mem (replaceAddress skb.mem a new) := replaceAddress_rewritten address header
  have written : ∀ j, Rewriting a new skb.mem (inetProtoCsumReplace4 { skb with mem := replaceAddress skb.mem a new }
      (payload skb.mem j) old new).mem := by
    intro j
    unfold inetProtoCsumReplace4
    split <;> exact (rewritten.write j _).1
  unfold replaceTransport
  rw [rewritten.payload_eq, rewritten.payload_eq]
  split
  · split
    · exact written 3
    · exact rewritten
  · split
    · exact written 8
    · exact rewritten

/-- What `replaceTransport` does to the payload. -/
def newSegment (mem : Mem) (old new : Nat) : Nat → Nat :=
  if protocol mem = 17 ∧ fragOff mem % 256 = 0 then
    if segment mem 3 ≠ 0 then update (segment mem) 3 (exchanged (segment mem 3) old new) else segment mem
  else if protocol mem = 6 ∧ fragOff mem % 256 = 0 then
    update (segment mem) 8 (exchanged (segment mem 8) old new)
  else segment mem

theorem replaceTransport_segment (new : UInt32) (full : skb.ipSummed ≠ .checksumPartial)
    (address : a = 6 ∨ a = 8) (header : 5 ≤ ihl skb.mem) :
    segment (replaceTransport { skb with mem := replaceAddress skb.mem a new } (read32 skb.mem a) new).mem =
      newSegment skb.mem (read32 skb.mem a).toNat new.toNat := by
  have rewritten : Rewriting a new skb.mem (replaceAddress skb.mem a new) := replaceAddress_rewritten address header
  have sameSegment : segment (replaceAddress skb.mem a new) = segment skb.mem := replaceAddress_segment address header
  have sameWord : ∀ j, words (replaceAddress skb.mem a new) (payload skb.mem j) = segment skb.mem j := by
    intro j
    rw [← sameSegment, ← rewritten.payload_eq]
    rfl
  -- a checksum behind the header is replaced in both protocols in the same way
  have replaced : ∀ j, segment (inetProtoCsumReplace4 { skb with mem := replaceAddress skb.mem a new }
        (payload skb.mem j) (read32 skb.mem a) new).mem =
      update (segment skb.mem) j (exchanged (segment skb.mem j) (read32 skb.mem a).toNat new.toNat) := by
    intro j
    unfold inetProtoCsumReplace4
    rw [if_pos full]
    rw [(rewritten.write j _).2, sameSegment, csumReplace4_toNat, ← sameWord j]
    rfl
  have present : replaceAddress skb.mem a new (payload skb.mem 3) ≠ 0 ↔ segment skb.mem 3 ≠ 0 := by
    rw [← sameWord 3]
    rw [Ne, ← UInt16.toNat_inj]
    rfl
  unfold replaceTransport newSegment
  rw [rewritten.protocol_eq, rewritten.fragOff_eq, rewritten.payload_eq, rewritten.payload_eq]
  split
  · by_cases there : segment skb.mem 3 ≠ 0
    · rw [if_pos (present.2 there), if_pos there]
      exact replaced 3
    · rw [if_neg (fun other => there (present.1 other)), if_neg there]
      exact sameSegment
  · split
    · exact replaced 8
    · exact sameSegment

end

/-! ## UDP and TCP -/

/-- The checksum of a UDP packet does not come out as 0. -/
def KeepsUdp (mem : Mem) (old new : Nat) : Prop :=
  Correct mem → Unfragmented mem → protocol mem = 17 → UdpPresent mem → exchanged (segment mem 3) old new ≠ 0

/-- What is counted of the word that is taken for the checksum of a later fragment stays. -/
def KeepsFragment (mem : Mem) (old new : Nat) : Prop :=
  LaterFragment mem → fragOff mem % 256 = 0 →
    (protocol mem = 17 → segment mem 3 ≠ 0 →
      part (payloadLen mem) 3 (exchanged (segment mem 3) old new) = part (payloadLen mem) 3 (segment mem 3)) ∧
    (protocol mem = 6 →
      part (payloadLen mem) 8 (exchanged (segment mem 8) old new) = part (payloadLen mem) 8 (segment mem 8))

/-- Neither of the two damages the packet. -/
def KeepsTransport (a : Nat) (new : UInt32) (mem : Mem) : Prop :=
  KeepsUdp mem (read32 mem a).toNat new.toNat ∧ KeepsFragment mem (read32 mem a).toNat new.toNat

theorem part_update_iff (w : Nat → Nat) (n j v : Nat) :
    (∀ k, part n k (update w j v k) = part n k (w k)) ↔ part n j v = part n j (w j) := by
  constructor
  · intro same
    have here := same j
    rwa [update_self] at here
  · intro same k
    by_cases own : k = j
    · rw [own, update_self, same]
    · rw [update_of_ne own]

theorem udpLen_congr {mem after : Mem} (same : segment after 2 = segment mem 2) : udpLen after = udpLen mem := by
  have sameWord := UInt16.toNat_inj.1 same
  unfold udpLen
  rw [sameWord]

theorem Unfragmented.low {mem : Mem} (unfragmented : Unfragmented mem) : fragOff mem % 256 = 0 := by
  unfold Unfragmented at unfragmented
  omega

section

variable (rewritten : Rewriting a new mem after)

include rewritten

theorem tcp_stays (changed : Exchanges a new mem after 8) (long : 18 ≤ payloadLen mem) (correct : TcpCorrect mem) :
    Verifies (pseudoHeader after (payloadLen mem) 6 + span (segment after) (payloadLen mem)) := by
  refine correct.of_modEq ?_ (rewritten.sum_modEq long changed)
  unfold pseudoHeader swapped
  omega

theorem udp_stays (changed : Exchanges a new mem after 3) (correct : UdpCorrect mem) : UdpCorrect after := by
  obtain ⟨long, fits, verifies⟩ := correct
  have sameLen : udpLen after = udpLen mem := udpLen_congr (by rw [changed.eq, update_of_ne (by omega)])
  unfold UdpCorrect
  rw [sameLen, rewritten.payloadLen_eq]
  refine ⟨long, fits, verifies.of_modEq ?_ (rewritten.sum_modEq long changed)⟩
  unfold pseudoHeader swapped
  omega

theorem preserves_of_same (same : segment after = segment mem) (proto : protocol mem ≠ 6 ∨ ¬ fragOff mem % 256 = 0)
    (udp : protocol mem = 17 → fragOff mem % 256 = 0 → segment mem 3 = 0) : PreservesValidity mem after := by
  rw [rewritten.preserves_iff, same]
  refine ⟨fun correct unfragmented => ⟨?_, ?_, ?_⟩, fun _ _ => rfl⟩
  · intro isTcp
    exact absurd unfragmented.low (proto.resolve_left (fun other => other isTcp))
  · exact fun isIcmp long => (correct.2 unfragmented).2.1 isIcmp long
  · intro isUdp
    have absent := udp isUdp unfragmented.low
    refine ⟨fun present => ?_, fun present => absurd absent present.2⟩
    exact absurd absent (by simpa [same] using present.2)

theorem udp_iff (isUdp : protocol mem = 17) (low : fragOff mem % 256 = 0) (present : segment mem 3 ≠ 0)
    (changed : Exchanges a new mem after 3) : PreservesValidity mem after ↔ KeepsTransport a new mem := by
  have newCheck : segment after 3 = exchanged (segment mem 3) (read32 mem a).toNat new.toNat := by
    rw [changed.eq, update_self]
  have presentAfter : UdpPresent after ↔
      8 ≤ payloadLen mem ∧ exchanged (segment mem 3) (read32 mem a).toNat new.toNat ≠ 0 := by
    unfold UdpPresent
    rw [rewritten.payloadLen_eq, newCheck]
  rw [rewritten.preserves_iff, presentAfter]
  refine and_congr ⟨fun asked correct unfragmented _ there => ?_, fun keeps correct unfragmented => ⟨?_, ?_, ?_⟩⟩ ?_
  · exact (((asked correct unfragmented).2.2 isUdp).2 there).2
  · intro isTcp
    omega
  · intro isIcmp
    omega
  · refine fun _ => ⟨fun there => ?_, fun there => ⟨there.1, keeps correct unfragmented isUdp there⟩⟩
    exact udp_stays rewritten changed ((correct.2 unfragmented).2.2 isUdp ⟨there.1, present⟩)
  · rw [changed.eq, part_update_iff]
    constructor
    · intro stays later _
      refine ⟨fun _ _ => stays later, fun isTcp => ?_⟩
      omega
    · exact fun keeps later => (keeps later low).1 isUdp present

theorem tcp_iff (isTcp : protocol mem = 6) (low : fragOff mem % 256 = 0) (changed : Exchanges a new mem after 8) :
    PreservesValidity mem after ↔ KeepsTransport a new mem := by
  rw [rewritten.preserves_iff]
  refine and_congr ⟨fun _ _ _ isUdp => ?_, fun _ correct unfragmented => ⟨?_, ?_, ?_⟩⟩ ?_
  · omega
  · exact fun _ long => tcp_stays rewritten changed long ((correct.2 unfragmented).1 isTcp long)
  · intro isIcmp
    omega
  · intro isUdp
    omega
  · rw [changed.eq, part_update_iff]
    constructor
    · intro stays later _
      refine ⟨fun isUdp => ?_, fun _ => stays later⟩
      omega
    · exact fun keeps later => (keeps later low).2 isTcp

/-- **UDP and TCP.** -/
theorem transport_iff (changed : segment after = newSegment mem (read32 mem a).toNat new.toNat) :
    PreservesValidity mem after ↔ KeepsTransport a new mem := by
  unfold newSegment at changed
  split at changed
  · rename_i udp
    obtain ⟨isUdp, low⟩ := udp
    by_cases present : segment mem 3 ≠ 0
    · rw [if_pos present] at changed
      exact udp_iff rewritten isUdp low present changed
    · rw [if_neg present] at changed
      have absent : segment mem 3 = 0 := not_not.1 present
      refine iff_of_true (preserves_of_same rewritten changed (.inl (by omega)) fun _ _ => absent) ⟨?_, ?_⟩
      · exact fun _ _ _ there => absurd absent there.2
      · refine fun _ _ => ⟨fun _ there => absurd absent there, fun isTcp => ?_⟩
        omega
  · rename_i notUdp
    split at changed
    · rename_i tcp
      exact tcp_iff rewritten tcp.1 tcp.2 changed
    · rename_i notTcp
      refine iff_of_true (preserves_of_same rewritten changed ?_ ?_) ⟨?_, ?_⟩
      · exact (not_and_or.1 notTcp).imp_left id
      · exact fun isUdp low => absurd ⟨isUdp, low⟩ notUdp
      · exact fun _ unfragmented isUdp _ => absurd ⟨isUdp, unfragmented.low⟩ notUdp
      · exact fun _ low => ⟨fun isUdp => absurd ⟨isUdp, low⟩ notUdp, fun isTcp => absurd ⟨isTcp, low⟩ notTcp⟩

end

/-! ## ICMP -/

/-- Type 3, code 3 or 4. -/
def Unreachable (mem : Mem) : Prop :=
  segment mem 0 % 256 = 3 ∧ (segment mem 0 / 256 = 3 ∨ segment mem 0 / 256 = 4)

def embeddedSource (mem : Mem) : UInt32 := read32 mem (payload mem 10)

def newEmbeddedCheck (mem : Mem) (new : UInt32) : Nat :=
  exchanged (segment mem 9) (embeddedSource mem).toNat new.toNat

/-- The embedded checksum and address move the sum of the message by nothing, and it stays in a
later fragment. -/
def KeepsIcmp (mem : Mem) (new : UInt32) : Prop :=
  protocol mem = 1 → Unreachable mem →
    (Correct mem → Unfragmented mem → 4 ≤ payloadLen mem →
      part (payloadLen mem) 9 (newEmbeddedCheck mem new) + part (payloadLen mem) 10 (new.toNat % 65536) +
          part (payloadLen mem) 11 (new.toNat / 65536) ≡
        part (payloadLen mem) 9 (segment mem 9) + part (payloadLen mem) 10 (segment mem 10) +
          part (payloadLen mem) 11 (segment mem 11) [MOD 65535]) ∧
    (LaterFragment mem →
      part (payloadLen mem) 9 (newEmbeddedCheck mem new) = part (payloadLen mem) 9 (segment mem 9) ∧
      part (payloadLen mem) 10 (new.toNat % 65536) = part (payloadLen mem) 10 (segment mem 10) ∧
      part (payloadLen mem) 11 (new.toNat / 65536) = part (payloadLen mem) 11 (segment mem 11))

/-- The sum of a message that holds the whole embedded address does not move. -/
theorem icmp_balance (mem : Mem) (new : UInt32) {n : Nat} (long : 24 ≤ n) :
    part n 9 (newEmbeddedCheck mem new) + part n 10 (new.toNat % 65536) + part n 11 (new.toNat / 65536) ≡
      part n 9 (segment mem 9) + part n 10 (segment mem 10) + part n 11 (segment mem 11) [MOD 65535] := by
  have balance := exchanged_balance (segment mem 9) (embeddedSource mem).toNat new.toNat_lt
  have old : half (embeddedSource mem).toNat = segment mem 10 + segment mem 11 := half_read32 mem (payload mem 10)
  simp only [part_full (by omega : 2 * 9 + 2 ≤ n), part_full (by omega : 2 * 10 + 2 ≤ n),
    part_full (by omega : 2 * 11 + 2 ≤ n)]
  unfold newEmbeddedCheck
  rw [old] at balance
  unfold half at balance
  unfold Nat.ModEq at balance ⊢
  omega

section

/-- What `replaceEmbedded` does to the payload. -/
def embeddedSegment (mem : Mem) (new : UInt32) : Nat → Nat :=
  update (update (update (segment mem) 10 (new.toNat % 65536)) 11 (new.toNat / 65536)) 9 (newEmbeddedCheck mem new)

theorem embedded_span (mem : Mem) (new : UInt32) (n : Nat) :
    span (embeddedSegment mem new) n + (part n 9 (segment mem 9) + part n 10 (segment mem 10) + part n 11 (segment mem 11)) =
      span (segment mem) n + (part n 9 (newEmbeddedCheck mem new) + part n 10 (new.toNat % 65536) +
        part n 11 (new.toNat / 65536)) := by
  have moved := span_update₃ (segment mem) n (new.toNat % 65536) (new.toNat / 65536) (newEmbeddedCheck mem new)
    (by omega : 11 ≠ 10) (by omega : 9 ≠ 10) (by omega)
  unfold embeddedSegment
  omega

theorem embedded_parts (mem : Mem) (new : UInt32) (n : Nat) :
    (∀ k, part n k (embeddedSegment mem new k) = part n k (segment mem k)) ↔
      part n 9 (newEmbeddedCheck mem new) = part n 9 (segment mem 9) ∧
      part n 10 (new.toNat % 65536) = part n 10 (segment mem 10) ∧
      part n 11 (new.toNat / 65536) = part n 11 (segment mem 11) := by
  unfold embeddedSegment
  constructor
  · intro same
    have check := same 9
    have first := same 10
    have second := same 11
    exact ⟨check, first, second⟩
  · rintro ⟨check, first, second⟩ k
    by_cases isCheck : k = 9
    · rw [isCheck, update_self, check]
    rw [update_of_ne isCheck]
    by_cases isSecond : k = 11
    · rw [isSecond, update_self, second]
    rw [update_of_ne isSecond]
    by_cases isFirst : k = 10
    · rw [isFirst, update_self, first]
    rw [update_of_ne isFirst]

theorem replaceEmbedded_spec (new : UInt32) (header : 5 ≤ ihl mem) :
    let after := replaceEmbedded (replaceAddress mem daddr new) new
    Rewriting daddr new mem after ∧
      (Unreachable mem → segment after = embeddedSegment mem new) ∧ (¬ Unreachable mem → segment after = segment mem) := by
  have address : daddr = 6 ∨ daddr = 8 := .inr rfl
  have rewritten : Rewriting daddr new mem (replaceAddress mem daddr new) := replaceAddress_rewritten address header
  have sameSegment : segment (replaceAddress mem daddr new) = segment mem := replaceAddress_segment address header
  have samePlace := rewritten.payload_eq
  have sameMem : ∀ j, replaceAddress mem daddr new (payload mem j) = mem (payload mem j) :=
    fun j => replaceAddress_behind address (by unfold payload; omega)
  have sameSource : read32 (replaceAddress mem daddr new) (payload mem 10) = embeddedSource mem := by
    unfold embeddedSource read32
    rw [sameMem 10, show payload mem 10 + 1 = payload mem 11 from rfl, sameMem 11]
  unfold replaceEmbedded
  rw [samePlace, samePlace, samePlace, sameMem 0, sameMem 9, sameSource]
  by_cases test : (mem (payload mem 0)).toNat % 256 = 3 ∧
      ((mem (payload mem 0)).toNat / 256 = 3 ∨ (mem (payload mem 0)).toNat / 256 = 4)
  · have unreachable : Unreachable mem := test
    rw [if_pos test]
    obtain ⟨first, firstSegment⟩ := rewritten.write 10 (UInt16.ofNat (new.toNat % 65536))
    obtain ⟨second, secondSegment⟩ := first.write 11 (UInt16.ofNat (new.toNat / 65536))
    obtain ⟨third, thirdSegment⟩ := second.write 9 (csumReplace4 (mem (payload mem 9)) (embeddedSource mem) new)
    refine ⟨third, fun _ => ?_, fun other => absurd unreachable other⟩
    have bounded := new.toNat_lt
    change segment (update (update (update _ (payload mem 10) _) (payload mem 11) _) _ _) = _
    rw [thirdSegment, secondSegment, firstSegment, sameSegment, csumReplace4_toNat, UInt16.toNat_ofNat',
      UInt16.toNat_ofNat', Nat.mod_eq_of_lt (by omega),
      Nat.mod_eq_of_lt (by omega : new.toNat / 65536 < 2 ^ 16)]
    rfl
  · have unreachable : ¬ Unreachable mem := test
    rw [if_neg test]
    exact ⟨rewritten, fun other => absurd other unreachable, fun _ => sameSegment⟩

/-- **ICMP.** -/
theorem icmp_iff (rewritten : Rewriting daddr new mem after) (isIcmp : protocol mem = 1) (unreachable : Unreachable mem)
    (changed : segment after = embeddedSegment mem new) : PreservesValidity mem after ↔ KeepsIcmp mem new := by
  rw [rewritten.preserves_iff, changed, embedded_parts]
  have moved := embedded_span mem new (payloadLen mem)
  constructor
  · rintro ⟨asked, stays⟩ _ _
    refine ⟨fun correct unfragmented long => ?_, stays⟩
    have before : IcmpCorrect mem := (correct.2 unfragmented).2.1 isIcmp long
    have now := (asked correct unfragmented).2.1 isIcmp long
    have restBefore := before.2
    have restNow := now.2
    unfold Nat.ModEq
    omega
  · intro keeps
    obtain ⟨balance, stays⟩ := keeps isIcmp unreachable
    refine ⟨fun correct unfragmented => ⟨fun isTcp => ?_, fun _ long => ?_, fun isUdp => ?_⟩, stays⟩
    · omega
    · have before : IcmpCorrect mem := (correct.2 unfragmented).2.1 isIcmp long
      have same := balance correct unfragmented long
      refine before.of_modEq ?_ ?_
      · -- the first word holds the type
        have counted := part_le_span (embeddedSegment mem new) (payloadLen mem) 0
        have typeStays : embeddedSegment mem new 0 = segment mem 0 := by
          unfold embeddedSegment
          rw [update_of_ne (by omega), update_of_ne (by omega), update_of_ne (by omega)]
        rw [part_full (by omega)] at counted
        have isThree := unreachable.1
        omega
      · unfold Nat.ModEq at same ⊢
        omega
    · omega

end

/-! ## The two directions -/

/-- The packet comes from a twin, and its source is neither an address of the LAN nor 0. -/
def SourceRewritten (cfg : Config) (devIp : UInt32) (skb : Skb) (id : Fin 2) : Prop :=
  clonedId cfg skb.hSource = some id ∧ ¬ (sameNet devIp (read32 skb.mem saddr) ∨ read32 skb.mem saddr = 0)

/-- The packet goes to a twin that is not skipped. -/
def DestinationRewritten (cfg : Config) (skip : Skip) (skb : Skb) (id : Fin 2) : Prop :=
  clonedId cfg skb.hDest = some id ∧ ¬ (skip id ∨ (cfg id).virtualIp = 0)

/-- The packet is not one of those that the new source `new` damages. -/
def SourceKeeps (mem : Mem) (new : UInt32) : Prop :=
  KeepsUdp mem (read32 mem saddr).toNat new.toNat ∧ KeepsFragment mem (read32 mem saddr).toNat new.toNat

/-- The packet is not one of those that the new destination `new` damages. -/
def DestinationKeeps (mem : Mem) (new : UInt32) : Prop :=
  KeepsUdp mem (read32 mem daddr).toNat new.toNat ∧ KeepsFragment mem (read32 mem daddr).toNat new.toNat ∧
    KeepsIcmp mem new

theorem preserves_refl (mem : Mem) : PreservesValidity mem mem :=
  ⟨fun correct => ⟨correct, fun _ _ present => present⟩, fun _ _ _ _ => rfl⟩

theorem rewriteSource_iff (full : skb.ipSummed ≠ .checksumPartial) (header : 5 ≤ ihl skb.mem)
    (new : UInt32) : PreservesValidity skb.mem (rewriteSource skb new).mem ↔ SourceKeeps skb.mem new := by
  exact transport_iff (replaceTransport_rewritten new _ (.inl rfl) header)
    (replaceTransport_segment new full (.inl rfl) header)

theorem rewriteDestination_iff (full : skb.ipSummed ≠ .checksumPartial) (header : 5 ≤ ihl skb.mem)
    (new : UInt32) : PreservesValidity skb.mem (rewriteDestination skb new).mem ↔ DestinationKeeps skb.mem new := by
  have sameProtocol : protocol (replaceAddress skb.mem daddr new) = protocol skb.mem :=
    (replaceAddress_rewritten (.inr rfl) header).protocol_eq
  unfold rewriteDestination
  dsimp only
  rw [sameProtocol]
  by_cases isIcmp : protocol skb.mem = 1
  · rw [if_pos isIcmp]
    have noTransport : KeepsTransport daddr new skb.mem := by
      refine ⟨fun _ _ isUdp => ?_, fun _ _ => ⟨fun isUdp => ?_, fun isTcp => ?_⟩⟩ <;> omega
    have onlyIcmp : DestinationKeeps skb.mem new ↔ KeepsIcmp skb.mem new :=
      ⟨fun keeps => keeps.2.2, fun keeps => ⟨noTransport.1, noTransport.2, keeps⟩⟩
    rw [onlyIcmp]
    obtain ⟨rewritten, changed, same⟩ := replaceEmbedded_spec new header
    by_cases unreachable : Unreachable skb.mem
    · exact icmp_iff rewritten isIcmp unreachable (changed unreachable)
    · refine iff_of_true (preserves_of_same rewritten (same unreachable) (.inl (by omega)) ?_) ?_
      · intro isUdp
        omega
      · exact fun _ other => absurd other unreachable
  · rw [if_neg isIcmp]
    have noIcmp : KeepsIcmp skb.mem new := fun other => absurd other isIcmp
    have onlyTransport : DestinationKeeps skb.mem new ↔ KeepsTransport daddr new skb.mem :=
      ⟨fun keeps => ⟨keeps.1, keeps.2.1⟩, fun keeps => ⟨keeps.1, keeps.2, noIcmp⟩⟩
    rw [onlyTransport]
    exact transport_iff (replaceTransport_rewritten new _ (.inr rfl) header)
      (replaceTransport_segment new full (.inr rfl) header)

/-- **Rewriting preserves validity exactly for the packets it does not damage**, in both
directions. -/
theorem validity_preserved_iff (cfg : Config) (devIp : UInt32) (skip : Skip) (skb : Skb)
    (isIp : htons skb.hProto = ethPIp) (full : skb.ipSummed ≠ .checksumPartial) (header : 5 ≤ ihl skb.mem) :
    (PreservesValidity skb.mem (ipcloneFromLanToWan cfg devIp skip skb).2.mem ↔
      ∀ id, SourceRewritten cfg devIp skb id → SourceKeeps skb.mem (htonl (cfg id).virtualIp)) ∧
    (PreservesValidity skb.mem (ipcloneFromWanToLan cfg skip skb).mem ↔
      ∀ id, DestinationRewritten cfg skip skb id → DestinationKeeps skb.mem (htonl (cfg id).wanip)) := by
  constructor
  · unfold ipcloneFromLanToWan SourceRewritten
    cases found : clonedId cfg skb.hSource with
    | none => exact iff_of_true (preserves_refl _) (by simp)
    | some id =>
      simp only [if_pos isIp, Option.some.injEq, and_imp, forall_eq']
      split
      · rename_i inside
        exact iff_of_true (preserves_refl _) fun outside => absurd inside outside
      · rename_i outside
        rw [rewriteSource_iff full header, forall_prop_of_true outside]
  · unfold ipcloneFromWanToLan DestinationRewritten
    rw [if_pos isIp]
    cases found : clonedId cfg skb.hDest with
    | none => exact iff_of_true (preserves_refl _) (by simp)
    | some id =>
      simp only [Option.some.injEq, and_imp, forall_eq']
      split
      · rename_i skipped
        exact iff_of_true (preserves_refl _) fun active => absurd skipped active
      · rename_i active
        rw [rewriteDestination_iff full header, forall_prop_of_true active]

/-! ## Samples -/

/-- The first twin has the address 203.0.113.5 and the virtual address 192.168.255.2. -/
def sampleConfig : Config
  | 0 => ⟨#v[2, 0, 0, 0, 0, 1], 0xc0a8ff02, 0xcb007105⟩
  | 1 => ⟨#v[2, 0, 0, 0, 0, 2], 0xc0a8ff03, 0xcb007106⟩

def sampleDevIp : UInt32 := htonl 0xc0a80001

def frameOf (hDest hSource : Mac) (packet : List UInt16) : Skb where
  hDest := hDest
  hSource := hSource
  hProto := htons ethPIp
  mem k := packet.getD k 0
  ipSummed := .checksumNone
  csum := 0

def routerMac : Mac := #v[2, 0, 0, 0, 0, 9]

def fromTwin (packet : List UInt16) : Skb := frameOf routerMac (sampleConfig 0).mac packet

def toTwin (packet : List UInt16) : Skb := frameOf (sampleConfig 0).mac routerMac packet

def tcpPacket : List UInt16 :=
  [0x0045, 0x2a00, 0x0100, 0x0000, 0x0640, 0x8d14, 0x00cb, 0x0571, 0x33c6, 0x0764, 0xd204, 0x5000, 0x0000, 0x0100,
    0x0000, 0x0000, 0x0250, 0xe803, 0x2bd8, 0x0000, 0x6968]

/-- "Port unreachable" from 198.51.100.7 to 192.168.255.2, with a UDP packet of the twin. -/
def icmpPacket : List UInt16 :=
  [0x0045, 0x3800, 0x0100, 0x0000, 0x0140, 0xde90, 0x33c6, 0x0764, 0xa8c0, 0x02ff, 0x0303, 0xedf7, 0x0000, 0x0000,
    0x0045, 0x1c00, 0x0100, 0x0000, 0x1140, 0xea90, 0xa8c0, 0x02ff, 0x33c6, 0x0764, 0xd204, 0x3500, 0x0800, 0x0000]

/-- UDP from 203.0.113.5 to 198.51.100.7, whose checksum is the difference of the two sources. -/
def udpPacket : List UInt16 :=
  [0x0045, 0x1e00, 0x0100, 0x0000, 0x1140, 0x8e14, 0x00cb, 0x0571, 0x33c6, 0x0764, 0xd204, 0x3500, 0x0a00, 0xa583,
    0xed10]

/-- A later TCP fragment at offset 256, that is at byte 2048. -/
def laterFragment : List UInt16 :=
  [0x0045, 0x2c00, 0x0100, 0x0001, 0x0640, 0x8b13, 0x00cb, 0x0571, 0x33c6, 0x0764, 0x0201, 0x0403, 0x0605, 0x0807,
    0x0a09, 0x0c0b, 0x0e0d, 0x100f, 0x1211, 0x1413, 0x1615, 0x1817]

theorem tcp_and_icmp_preserved :
    (Correct (fromTwin tcpPacket).mem ∧ SourceRewritten sampleConfig sampleDevIp (fromTwin tcpPacket) 0 ∧
      PreservesValidity (fromTwin tcpPacket).mem
        (ipcloneFromLanToWan sampleConfig sampleDevIp (fun _ => true) (fromTwin tcpPacket)).2.mem) ∧
    Correct (toTwin icmpPacket).mem ∧ DestinationRewritten sampleConfig (fun _ => false) (toTwin icmpPacket) 0 ∧
      PreservesValidity (toTwin icmpPacket).mem
        (ipcloneFromWanToLan sampleConfig (fun _ => false) (toTwin icmpPacket)).mem := by
  refine ⟨⟨by decide +kernel, ⟨by decide, by decide +kernel⟩, ?_⟩, by decide +kernel, ⟨by decide, by decide +kernel⟩, ?_⟩
  · refine (validity_preserved_iff _ _ _ _ (by decide) (by decide) (by decide)).1.2 fun id _ => ⟨?_, ?_⟩
    · exact fun _ _ isUdp => absurd isUdp (by decide)
    · exact fun later => absurd (by decide) later
  · refine (validity_preserved_iff sampleConfig 0 _ _ (by decide) (by decide) (by decide)).2.2 fun id _ => ⟨?_, ?_, ?_⟩
    · exact fun _ _ isUdp => absurd isUdp (by decide)
    · exact fun later => absurd (by decide) later
    · refine fun _ _ => ⟨fun _ _ _ => icmp_balance _ _ (by decide), fun later => ?_⟩
      exact absurd (by decide) later

/-- The UDP checksum comes out as 0, and the data of a later fragment is changed. -/
theorem udp_and_fragment_damaged : ¬ PreservesValidity (fromTwin udpPacket).mem
        (ipcloneFromLanToWan sampleConfig sampleDevIp (fun _ => true) (fromTwin udpPacket)).2.mem ∧
    ¬ PreservesValidity (fromTwin laterFragment).mem
        (ipcloneFromLanToWan sampleConfig sampleDevIp (fun _ => true) (fromTwin laterFragment)).2.mem := by
  have sent : ∀ packet, ¬ (sameNet sampleDevIp (read32 (fromTwin packet).mem saddr) ∨
      read32 (fromTwin packet).mem saddr = 0) →
      (ipcloneFromLanToWan sampleConfig sampleDevIp (fun _ => true) (fromTwin packet)).2 =
        rewriteSource (fromTwin packet) (htonl (sampleConfig 0).virtualIp) := by
    intro packet outside
    have twin : clonedId sampleConfig (fromTwin packet).hSource = some 0 := by
      show clonedId sampleConfig (sampleConfig 0).mac = some 0
      decide
    have isIp : htons (fromTwin packet).hProto = ethPIp := by
      show htons (htons ethPIp) = ethPIp
      decide
    unfold ipcloneFromLanToWan
    rw [twin]
    dsimp only
    rw [if_pos isIp, if_neg outside]
  constructor
  · rw [sent udpPacket (by decide +kernel), rewriteSource_iff (by decide) (by decide)]
    rintro ⟨keepsUdp, -⟩
    exact keepsUdp (by decide +kernel) (by decide) (by decide) (by decide) (by decide +kernel)
  · rw [sent laterFragment (by decide +kernel), rewriteSource_iff (by decide) (by decide)]
    rintro ⟨-, keepsFragment⟩
    have stays := (keepsFragment (by decide) (by decide)).2 (by decide)
    exact absurd stays (by decide +kernel)

end RouterApps.Twinip
