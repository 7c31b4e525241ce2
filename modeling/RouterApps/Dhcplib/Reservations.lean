/-
# Dhcplib.Reservations -- the static leases as a table of one-to-one bindings

The file of static leases should hold a registry: at most `max_static_lease` reservations, no two for
one address and no two for one client.  An add should append one or be refused, a remove should delete
the first that matches.

The library compares texts where the registry compares addresses, so an address or a client is not
recognised in another spelling than the printed one (`CanonicalIp`, `CanonicalMac`), and an add then
stores it a second time.  And an add does not check whether the array has room.

On a file that holds a registry, a call does what it should exactly if it is `Careful` (`correct_iff`).
-/
import RouterApps.Theory.Run
import RouterApps.Dhcplib.Array

namespace RouterApps.Dhcplib

open CLib Udhcpd Theory List Option Reservation

/-! ## Texts -/

/-- The text is the one that is printed for its address. -/
def CanonicalIp (ip : CString) : Prop := ip = (inetNtoa (inetAddr ip)).toCString

/-- The text is the one that is printed for its hardware address. -/
def CanonicalMac (hw : CString) : Prop := ∀ mac ∈ strtomac hw, hw = (macText mac).toCString

instance : DecidablePred CanonicalIp := fun ip =>
  inferInstanceAs (Decidable (ip = (inetNtoa (inetAddr ip)).toCString))

instance : DecidablePred CanonicalMac := fun hw =>
  inferInstanceAs (Decidable (∀ mac ∈ strtomac hw, hw = (macText mac).toCString))

theorem eq_ipAddr_iff (ip : CString) (e : Reservation) :
    ip = e.info.ipAddr.toCString ↔ inetAddr ip = e.address ∧ CanonicalIp ip := by
  rw [info_ipAddr]
  constructor
  · intro same
    have value : inetAddr ip = e.address := by rw [same, inetAddr_inetNtoa]
    refine ⟨value, ?_⟩
    show ip = (inetNtoa (inetAddr ip)).toCString
    rw [value]
    exact same
  · rintro ⟨value, canonical⟩
    rw [← value]
    exact canonical

theorem eq_hwAddr_iff (hw : CString) (e : Reservation) :
    hw = e.info.hwAddr.toCString ↔ strtomac hw = some e.mac ∧ CanonicalMac hw := by
  rw [info_hwAddr]
  constructor
  · intro same
    have value : strtomac hw = some e.mac := by rw [same, strtomac_macText]
    refine ⟨value, fun mac read => ?_⟩
    cases value.symm.trans read
    exact same
  · rintro ⟨value, canonical⟩
    exact canonical e.mac value

variable {hwAddr : Option CString}

theorem removeMac_eq (parsed : ∀ hw ∈ hwAddr, (strtomac hw).isSome) :
    removeMac hwAddr = some (hwAddr.map convertMac2) := by
  cases hwAddr with
  | none => rfl
  | some hw =>
    obtain ⟨mac, value⟩ := isSome_iff_exists.1 (parsed hw rfl)
    have fits : hw.bytes.length < textLen := by
      rw [strtomac_length value]
      decide
    simp only [removeMac, strcpy_eq_some fits, map_some]
    split
    · rfl
    · -- without a hyphen there is nothing to replace
      rename_i absent
      have same : hw.bytes.map colonFor = hw.bytes := by
        refine (map_congr_left fun b member => ?_).trans (List.map_id hw.bytes)
        exact if_neg fun (same : b = hyphen) => absent (same ▸ member)
      exact congrArg (fun text => some (some text)) (CString.ext same.symm)

/-! ## Calls -/

inductive Call where
  | add (ipAddr hwAddr : CString)
  | remove (ipAddr hwAddr : Option CString)
deriving DecidableEq

/-- The return value and the file. -/
def Call.apply (config : DhcpdConf) (file : Option (List UInt8)) : Call → Option (Int × Option (List UInt8))
  | .add ipAddr hwAddr => dhcpdAddStaticLease config file ipAddr hwAddr
  | .remove ipAddr hwAddr => dhcpdRemoveStaticLease config file ipAddr hwAddr

/-- The texts of the call are an address and a hardware address. -/
def Call.Parses : Call → Prop
  | .add ipAddr hwAddr => (inetAton ipAddr).isSome ∧ (strtomac hwAddr).isSome
  | .remove ipAddr hwAddr =>
    (∀ ip ∈ ipAddr, (inetAton ip).isSome) ∧ ∀ hw ∈ hwAddr, (strtomac hw).isSome

instance : DecidablePred Call.Parses
  | .add ipAddr hwAddr =>
    inferInstanceAs (Decidable ((inetAton ipAddr).isSome ∧ (strtomac hwAddr).isSome))
  | .remove ipAddr hwAddr =>
    inferInstanceAs (Decidable ((∀ ip ∈ ipAddr, (inetAton ip).isSome) ∧ ∀ hw ∈ hwAddr, (strtomac hw).isSome))

/-- What a table of reservations should be. -/
abbrev Reservations (config : DhcpdConf) :=
  Registry address mac config.maxStaticLease.toNat

def Represents {config : DhcpdConf} (file : Option (List UInt8)) (r : Reservations config) : Prop :=
  staticLeases file = r.entries.map lease

/-- The reservation matches the address and the hardware address that are given. -/
def selects (ipAddr hwAddr : Option CString) (e : Reservation) : Bool :=
  match ipAddr, hwAddr with
  | some ip, none => inetAddr ip = e.address
  | none, some hw => strtomac hw = some e.mac
  | some ip, some hw => strtomac hw = some e.mac && inetAddr ip = e.address
  | none, none => false

def reservation (config : DhcpdConf) (ipAddr : CString) (mac : Block 6) : Reservation :=
  ⟨inetAddr ipAddr, mac, config.leasetime.toUInt32⟩

/-- An add appends the pair or is refused, a remove deletes the first reservation that matches. -/
def Call.Effect {config : DhcpdConf} (file file' : Option (List UInt8)) (r r' : Reservations config)
    (status : Int) : Call → Prop
  | .add ipAddr hwAddr =>
    (status = 0 ∧ ∃ mac, strtomac hwAddr = some mac ∧ r'.entries = r.entries ++ [reservation config ipAddr mac]) ∨
    (status ≠ 0 ∧ file' = file)
  | .remove ipAddr hwAddr => r'.entries = r.entries.eraseP (selects ipAddr hwAddr)

/-- The call is defined, its file holds a registry again, and it did what it should. -/
def Correct {config : DhcpdConf} (file : Option (List UInt8)) (r : Reservations config)
    (call : Call) : Prop :=
  ∃ status file', call.apply config file = some (status, file') ∧
    ∃ r' : Reservations config, Represents file' r' ∧ call.Effect file file' r r' status

/-- The texts are the ones that are printed, up to the separators. -/
def CanonicalTexts (ipAddr hwAddr : Option CString) : Prop :=
  (∀ ip ∈ ipAddr, CanonicalIp ip) ∧ ∀ hw ∈ hwAddr, CanonicalMac (convertMac2 hw)

instance (ipAddr hwAddr : Option CString) : Decidable (CanonicalTexts ipAddr hwAddr) :=
  inferInstanceAs (Decidable ((∀ ip ∈ ipAddr, CanonicalIp ip) ∧ ∀ hw ∈ hwAddr, CanonicalMac (convertMac2 hw)))

/-- An add of a stored address or client gives it as it is printed; any other add needs room in the
array and in the text field.  A remove that matches gives its texts as printed, up to the
separators. -/
def Careful {config : DhcpdConf} (r : Reservations config) (call : Call) : Prop :=
  0 ≤ config.maxStaticLease ∧
    match call with
    | .add ipAddr hwAddr =>
      (∃ e ∈ r.entries, inetAddr ipAddr = e.address ∧ CanonicalIp ipAddr ∨
          strtomac hwAddr = some e.mac ∧ CanonicalMac hwAddr) ∨
        (∀ e ∈ r.entries, inetAddr ipAddr ≠ e.address ∧ strtomac hwAddr ≠ some e.mac) ∧
          r.entries.length < config.maxStaticLease.toNat ∧ ipAddr.bytes.length < textLen
    | .remove ipAddr hwAddr =>
      ∀ e ∈ r.entries, selects ipAddr hwAddr e = true → CanonicalTexts ipAddr hwAddr

/-! ## What the calls do -/

/-- The bytes of a file that was written for a list of reservations. -/
def contents (entries : List Reservation) : List UInt8 :=
  ((entries.map lease).map staticRecord).flatten

variable {call : Call}

section

variable {config : DhcpdConf} {file : Option (List UInt8)} {r : Reservations config}

theorem represents_contents {r' : Reservations config} {entries : List Reservation} :
    Represents (some (contents entries)) r' ↔ r'.entries = entries := by
  unfold Represents contents
  rw [staticLeases_write]
  constructor
  · intro same
    exact (map_injective_iff.2 lease_injective same).symm
  · intro same
    rw [same]

theorem Represents.load (rep : Represents file r) (allocated : 0 ≤ config.maxStaticLease) :
    ∃ leaseArr, loadLeases config file = some (r.entries.length, leaseArr) ∧
      leaseArr.length = config.maxStaticLease.toNat ∧
      leaseArr.take r.entries.length = r.entries.map info := by
  have count : (staticLeases file).length = r.entries.length := by
    rw [rep, length_map]
  have room : (staticLeases file).length ≤ config.maxStaticLease.toNat := by
    rw [count]
    exact r.bounded
  obtain ⟨leaseArr, read, length, front⟩ := loadLeases_eq allocated room
  rw [count] at read front
  refine ⟨leaseArr, read, length, ?_⟩
  rw [front, rep, List.map_map]
  rfl

/-- The comparison of `dhcpd_add_static_lease`. -/
def addMatches (ip hw : CString) (e : Reservation) : Bool :=
  ip = e.info.ipAddr.toCString || hw = e.info.hwAddr.toCString

theorem addMatches_iff (ip hw : CString) (e : Reservation) :
    addMatches ip hw e = true ↔ inetAddr ip = e.address ∧ CanonicalIp ip ∨
      strtomac hw = some e.mac ∧ CanonicalMac hw := by
  simp only [addMatches, Bool.or_eq_true, decide_eq_true_eq, eq_ipAddr_iff, eq_hwAddr_iff]

variable {ip hw : CString} {mac : Block 6}

theorem add_of_match (rep : Represents file r) (allocated : 0 ≤ config.maxStaticLease)
    {e : Reservation} (found : r.entries.find? (addMatches ip hw) = some e) :
    ∃ status, status ≠ 0 ∧ dhcpdAddStaticLease config file ip hw = some (status, file) := by
  obtain ⟨leaseArr, read, -, front⟩ := rep.load allocated
  have hit : (leaseArr.take r.entries.length).find? (fun info =>
      ip = info.ipAddr.toCString || hw = info.hwAddr.toCString) = some e.info := by
    rw [front, find?_map]
    exact congrArg (Option.map info) found
  simp only [dhcpdAddStaticLease, read, bind_eq_bind, bind_some, hit]
  split
  · exact ⟨alreadyExistIp, by decide, rfl⟩
  · exact ⟨alreadyExistMac, by decide, rfl⟩

/-- Any other add writes after the last entry: past the array if it is full. -/
theorem add_of_mismatch (rep : Represents file r) (allocated : 0 ≤ config.maxStaticLease)
    (parsed : strtomac hw = some mac)
    (absent : r.entries.find? (addMatches ip hw) = none) : dhcpdAddStaticLease config file ip hw =
      if r.entries.length < config.maxStaticLease.toNat ∧ ip.bytes.length < textLen then
        some (0, some (contents (r.entries ++ [reservation config ip mac]))) else none := by
  obtain ⟨leaseArr, read, length, front⟩ := rep.load allocated
  have miss : (leaseArr.take r.entries.length).find? (fun info =>
      ip = info.ipAddr.toCString || hw = info.hwAddr.toCString) = none := by
    rw [front, find?_map]
    exact congrArg (Option.map info) absent
  have hwFits : hw.bytes.length < textLen := by
    rw [strtomac_length parsed]
    decide
  simp only [dhcpdAddStaticLease, read, bind_eq_bind, bind_some, miss, length, strcpy_eq_some hwFits]
  by_cases room : r.entries.length < config.maxStaticLease.toNat
  · by_cases ipFits : ip.bytes.length < textLen
    · have new : staticLease ⟨⟨ip, ipFits⟩, ⟨hw, hwFits⟩, config.leasetime⟩ =
          some (reservation config ip mac).lease := by
        unfold staticLease
        rw [parsed]
        rfl
      have written : ((leaseArr.set r.entries.length ⟨⟨ip, ipFits⟩, ⟨hw, hwFits⟩,
          config.leasetime⟩).take (r.entries.length + 1)).mapM staticLease =
          some ((r.entries ++ [reservation config ip mac]).map lease) := by
        rw [take_succ_set (by omega), front, mapM_append, mapM_info]
        simp [new]
      rw [if_pos room, if_pos ⟨room, ipFits⟩, strcpy_eq_some ipFits, bind_some,
        dhcpdSetAllStaticLease_eq (by rw [length_set]; omega) written]
      rfl
    · rw [if_pos room, if_neg (fun both => ipFits both.2), strcpy_eq_none ipFits]
      rfl
  · rw [if_neg room, if_neg (fun both => room both.1)]

/-- The comparison of `dhcpd_remove_static_lease`. -/
def removeMatches (ipAddr hwAddr : Option CString) (e : Reservation) : Bool :=
  searchMatches ipAddr (hwAddr.map convertMac2) e.info

theorem removeMatches_iff (ipAddr hwAddr : Option CString) (e : Reservation) : removeMatches ipAddr hwAddr e = true ↔
      selects ipAddr hwAddr e = true ∧ CanonicalTexts ipAddr hwAddr := by
  have ips : ∀ ip : CString, ip = e.info.ipAddr.toCString ↔ inetAddr ip = e.address ∧ CanonicalIp ip :=
    fun ip => eq_ipAddr_iff ip e
  have macs : ∀ hw : CString, convertMac2 hw = e.info.hwAddr.toCString ↔
      strtomac hw = some e.mac ∧ CanonicalMac (convertMac2 hw) := fun hw => by
    rw [eq_hwAddr_iff, strtomac_convertMac2]
  cases ipAddr with
  | none =>
    cases hwAddr with
    | none => simp [removeMatches, searchMatches, selects]
    | some hw => simp [removeMatches, searchMatches, selects, CanonicalTexts, macs]
  | some ip =>
    cases hwAddr with
    | none => simp [removeMatches, searchMatches, selects, CanonicalTexts, ips]
    | some hw =>
      simp only [removeMatches, searchMatches, selects, CanonicalTexts, map_some,
        Bool.and_eq_true, decide_eq_true_eq, macs, ips, mem_some_iff, forall_eq']
      tauto

theorem remove_eq (rep : Represents file r) (allocated : 0 ≤ config.maxStaticLease)
    (ipAddr : Option CString) (parsed : ∀ hw ∈ hwAddr, (strtomac hw).isSome) :
    ∃ file', dhcpdRemoveStaticLease config file ipAddr hwAddr = some (0, file') ∧
      Represents file' (r.erase (removeMatches ipAddr hwAddr)) := by
  obtain ⟨leaseArr, read, length, front⟩ := rep.load allocated
  have inside : r.entries.length ≤ leaseArr.length := by
    rw [length]
    exact r.bounded
  have loop := removeLoop_eq ipAddr (hwAddr.map convertMac2) r.entries.length 0 leaseArr (by omega) inside
  simp only [drop_zero, front, eraseP_map] at loop
  simp only [dhcpdRemoveStaticLease, removeMac_eq parsed, read, bind_eq_bind, bind_some]
  rcases loop with ⟨absent, ran⟩ | ⟨present, shifted, ran, sameLength, erased⟩
  · refine ⟨file, by rw [ran]; rfl, ?_⟩
    have kept : r.entries.eraseP (removeMatches ipAddr hwAddr) = r.entries :=
      eraseP_of_forall_not (by simpa [removeMatches] using absent)
    show staticLeases file = (r.entries.eraseP (removeMatches ipAddr hwAddr)).map lease
    rw [kept]
    exact rep
  · refine ⟨some (contents (r.entries.eraseP (removeMatches ipAddr hwAddr))), ?_, represents_contents.2 rfl⟩
    have written : (shifted.take (r.entries.length - 1)).mapM staticLease =
        some ((r.entries.eraseP (removeMatches ipAddr hwAddr)).map lease) := by
      rw [erased]
      exact mapM_info _
    rw [ran, bind_some]
    rw [dhcpdSetAllStaticLease_eq (by omega) written]
    rfl

/-! ## When the calls are correct -/

theorem correct_add_iff (rep : Represents file r) (allocated : 0 ≤ config.maxStaticLease)
    (parsed : strtomac hw = some mac) :
    Correct file r (.add ip hw) ↔ Careful r (.add ip hw) := by
  cases found : r.entries.find? (addMatches ip hw) with
  | some e =>
    obtain ⟨status, refused, ran⟩ := add_of_match rep allocated found
    have hit := (addMatches_iff ip hw e).1 (find?_some found)
    constructor
    · intro _
      exact ⟨allocated, .inl ⟨e, mem_of_find?_eq_some found, hit⟩⟩
    · intro _
      exact ⟨status, file, ran, r, rep, .inr ⟨refused, rfl⟩⟩
  | none =>
    have ran := add_of_mismatch rep allocated parsed found
    constructor
    · rintro ⟨status, file', called, r', rep', -⟩
      rw [Call.apply, ran] at called
      split at called
      · rename_i fits
        cases called
        have free := ((r.append_iff _).1 ⟨r', represents_contents.1 rep'⟩).1
        refine ⟨allocated, .inr ⟨fun e member => ?_, fits⟩⟩
        obtain ⟨address, client⟩ := free e member
        refine ⟨fun same => address same.symm, fun same => client ?_⟩
        exact Option.some.inj (same.symm.trans parsed)
      · cases called
    · rintro ⟨-, ⟨e, member, hit⟩ | ⟨fresh, room, fits⟩⟩
      · have missed := find?_eq_none.1 found e member
        exact absurd ((addMatches_iff ip hw e).2 hit) missed
      · have free : r.Free (reservation config ip mac) := by
          intro e member
          obtain ⟨address, client⟩ := fresh e member
          refine ⟨fun same => address same.symm, fun same => client ?_⟩
          rw [parsed, same]
          rfl
        obtain ⟨r', grown⟩ := (r.append_iff (reservation config ip mac)).2 ⟨free, room⟩
        rw [if_pos ⟨room, fits⟩] at ran
        exact ⟨0, _, ran, r', represents_contents.2 grown, .inl ⟨rfl, mac, parsed, grown⟩⟩

theorem correct_remove_iff (rep : Represents file r) (allocated : 0 ≤ config.maxStaticLease)
    {ipAddr : Option CString} (parsed : ∀ hw ∈ hwAddr, (strtomac hw).isSome) :
    Correct file r (.remove ipAddr hwAddr) ↔ Careful r (.remove ipAddr hwAddr) := by
  obtain ⟨file', ran, rep'⟩ := remove_eq rep allocated ipAddr parsed
  constructor
  · rintro ⟨status, file'', called, r'', rep'', effect⟩
    cases called.symm.trans ran
    have same : r.entries.eraseP (removeMatches ipAddr hwAddr) = r.entries.eraseP (selects ipAddr hwAddr) := by
      rw [← show r''.entries = r.entries.eraseP (selects ipAddr hwAddr) from effect]
      exact map_injective_iff.2 lease_injective (rep'.symm.trans rep'')
    refine ⟨allocated, fun e member selected => ?_⟩
    -- something was deleted, so the texts were found
    have shorter := length_eraseP_of_mem member selected
    rw [← same] at shorter
    by_contra other
    have kept : r.entries.eraseP (removeMatches ipAddr hwAddr) = r.entries :=
      eraseP_of_forall_not fun e' _ hit => other ((removeMatches_iff ipAddr hwAddr e').1 hit).2
    have := length_pos_of_mem member
    rw [kept] at shorter
    omega
  · rintro ⟨-, canonical⟩
    have agree : ∀ e ∈ r.entries, removeMatches ipAddr hwAddr e = selects ipAddr hwAddr e := by
      intro e member
      apply Bool.eq_iff_iff.2
      rw [removeMatches_iff]
      exact ⟨fun both => both.1, fun selected => ⟨selected, canonical e member selected⟩⟩
    exact ⟨0, file', ran, _, rep', eraseP_congr agree⟩

theorem apply_eq_none (negative : ¬ 0 ≤ config.maxStaticLease) (call : Call) : call.apply config file = none := by
  cases call with
  | add ip hw =>
    simp only [Call.apply, dhcpdAddStaticLease, loadLeases_eq_none file negative]
    rfl
  | remove ipAddr hwAddr =>
    simp only [Call.apply, dhcpdRemoveStaticLease, loadLeases_eq_none file negative]
    cases removeMac hwAddr <;> rfl

/-- On a file that holds a registry, a call does what it should exactly if it is
careful. -/
theorem correct_iff (rep : Represents file r) (parses : call.Parses) : Correct file r call ↔ Careful r call := by
  by_cases allocated : 0 ≤ config.maxStaticLease
  · cases call with
    | add ip hw =>
      obtain ⟨mac, parsed⟩ := isSome_iff_exists.1 parses.2
      exact correct_add_iff rep allocated parsed
    | remove ipAddr hwAddr => exact correct_remove_iff rep allocated parses.2
  · constructor
    · rintro ⟨status, file', called, -⟩
      rw [apply_eq_none allocated call] at called
      cases called
    · intro careful
      exact absurd careful.1 allocated

end

/-! ## Runs -/

def CarefulStep (config : DhcpdConf) (file : Option (List UInt8)) (call : Call)
    (file' : Option (List UInt8)) : Prop :=
  ∃ (r : Reservations config) (status : Int), Represents file r ∧ call.Parses ∧ Careful r call ∧
    call.apply config file = some (status, file')

theorem CarefulStep.represents {config : DhcpdConf} {file file' : Option (List UInt8)}
    (step : CarefulStep config file call file') : ∃ r : Reservations config, Represents file' r := by
  obtain ⟨r, status, rep, parses, careful, called⟩ := step
  obtain ⟨status', file'', again, r', rep', -⟩ := (correct_iff rep parses).2 careful
  cases called.symm.trans again
  exact ⟨r', rep'⟩

/-- **The static leases stay a registry** after any sequence of careful calls; and in every file so
reached a call does what it should if and only if it is careful. -/
theorem static_leases_consistent {config : DhcpdConf} {initial file : Option (List UInt8)}
    {calls : List Call} (empty : staticLeases initial = []) (run : Run (CarefulStep config) initial calls file) :
    ∃ r : Reservations config, Represents file r ∧
      ∀ call : Call, call.Parses → (Correct file r call ↔ Careful r call) := by
  have start : ∃ r : Reservations config, Represents initial r := ⟨Registry.empty, empty⟩
  obtain ⟨r, rep⟩ := run.invariant (fun _ _ _ _ step => step.represents) start
  exact ⟨r, rep, fun call parses => correct_iff rep parses⟩

namespace Sample

def text (chars : List Char) : CString := CString.ofBuffer (ascii chars)

def conf (max : Int) : DhcpdConf := ⟨864000, max⟩

/-- The address 10.0.0.`last`. -/
def ip (last : Char) : CString := text ['1', '0', '.', '0', '.', '0', '.', last]

/-- The hardware address AA:00:00:00:00:0`last` as it is printed. -/
def upper (last : Char) : CString :=
  text ['A', 'A', ':', '0', '0', ':', '0', '0', ':', '0', '0', ':', '0', '0', ':', '0', last]

def lower (last : Char) : CString :=
  text ['a', 'a', ':', '0', '0', ':', '0', '0', ':', '0', '0', ':', '0', '0', ':', '0', last]

def hyphens (last : Char) : CString :=
  text ['A', 'A', '-', '0', '0', '-', '0', '0', '-', '0', '0', '-', '0', '0', '-', '0', last]

/-- The reservation of 10.0.0.`n` for AA:00:00:00:00:0`m`. -/
def entry (n m : UInt8) : Reservation :=
  ⟨leWord [10, 0, 0, n], ⟨[0xAA, 0, 0, 0, 0, m], rfl⟩, 864000⟩

def one : Reservations (conf 200) := ⟨[entry 1 1], by decide, by decide, by decide⟩

end Sample

open Sample

theorem static_leases_consistent_sample : ∃ file, Run (CarefulStep (conf 200)) (some [])
        [.add (ip '1') (lower '1'), .add (ip '1') (upper '2'), .remove none (some (hyphens '1'))] file ∧
      staticLeases file = [] ∧
      ∃ r : Reservations (conf 200), Represents file r ∧
        ∀ call : Call, call.Parses → (Correct file r call ↔ Careful r call) := by
  have first : CarefulStep (conf 200) (some []) (.add (ip '1') (lower '1')) (some (contents [entry 1 1])) :=
    ⟨Registry.empty, 0, rfl, by decide +kernel,
      ⟨by decide, .inr ⟨fun _ none => absurd none not_mem_nil, by decide, by decide⟩⟩,
      by decide +kernel⟩
  have second : CarefulStep (conf 200) (some (contents [entry 1 1])) (.add (ip '1') (upper '2'))
      (some (contents [entry 1 1])) :=
    ⟨one, alreadyExistIp, represents_contents.2 rfl, by decide +kernel,
      ⟨by decide, .inl ⟨entry 1 1, mem_cons_self, .inl
        ⟨by decide +kernel, by decide +kernel⟩⟩⟩, by decide +kernel⟩
  have third : CarefulStep (conf 200) (some (contents [entry 1 1])) (.remove none (some (hyphens '1')))
      (some (contents [])) :=
    ⟨one, 0, represents_contents.2 rfl, by decide +kernel,
      ⟨by decide, fun _ _ _ => by decide +kernel⟩, by decide +kernel⟩
  have run := Run.cons first (Run.cons second (Run.cons third (Run.nil _)))
  exact ⟨_, run, by decide +kernel, static_leases_consistent rfl run⟩

/-- A client that is added twice in lower case is stored twice; and an add to a full array writes
past it. -/
theorem static_leases_inconsistent : (∃ file₁ file₂,
      Call.apply (conf 200) (some []) (.add (ip '1') (lower '1')) = some (0, file₁) ∧
      Call.apply (conf 200) file₁ (.remove none (some (lower '1'))) = some (0, file₁) ∧
      Call.apply (conf 200) file₁ (.add (ip '2') (lower '1')) = some (0, file₂) ∧
      (staticLeases file₂).map (·.chaddr) = [chaddrOfMac (entry 1 1).mac, chaddrOfMac (entry 1 1).mac]) ∧
    ∃ file, Call.apply (conf 1) (some []) (.add (ip '1') (upper '1')) = some (0, file) ∧
      Call.apply (conf 1) file (.add (ip '2') (upper '2')) = none := by
  refine ⟨⟨some (contents [entry 1 1]), some (contents [entry 1 1, entry 2 1]), ?_⟩, some (contents [entry 1 1]), ?_⟩
  · exact ⟨by decide +kernel, by decide +kernel, by decide +kernel, by decide +kernel⟩
  · exact ⟨by decide +kernel, by decide +kernel⟩

end RouterApps.Dhcplib
