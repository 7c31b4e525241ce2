/-
# Dhcplib.ConfigRoundTrip -- a configuration that is committed and read again

Committed settings are found again (`storeAll_lookup`), so what is read back depends on
how the texts are taken apart.  The numbers and the domain suffix always come back:
the suffix is printed with a space behind it and set to the empty string if it is
missing.  The other two lists have no such care: an empty field shifts the fields
behind it, and a field that is not found keeps what the caller's structure held.  The
member `miprange` is neither stored nor read.
-/
import RouterApps.Dhcplib.Config
import RouterApps.GenConfig.Settings

namespace RouterApps.Dhcplib

open CLib GenConfig List Option

/-! ## What is compared -/

namespace DhcpdConfT

variable (c : DhcpdConfT CharArray) (conf : DhcpdConfT Block)

/-- The fields of `dhcpd_conf`. -/
def network : List CString :=
  [c.ifname.toCString, c.sip.toCString, c.eip.toCString, c.gw.toCString, c.mask.toCString]

/-- The fields of `dhcpd_dns`. -/
def servers : List CString := [c.dns1.toCString, c.dns2.toCString]

def strings : List CString :=
  c.network ++ c.servers ++
    [c.dnsSuffix.toCString, c.leaseFile.toCString, c.staticLeaseFile.toCString, c.configFile.toCString]

/-- What the caller's memory holds in the place of `network`. -/
def oldNetwork : List CString :=
  [conf.ifname.string, conf.sip.string, conf.eip.string, conf.gw.string, conf.mask.string]

/-- What the caller's memory holds in the place of `servers`. -/
def oldServers : List CString := [conf.dns1.string, conf.dns2.string]

end DhcpdConfT

/-- The structure in memory is equal to the configuration in every member. -/
structure DhcpdConfT.Holds (conf : DhcpdConfT Block) (c : DhcpdConfT CharArray) : Prop where
  network : conf.oldNetwork = c.network
  servers : conf.oldServers = c.servers
  autotime : conf.autotime = c.autotime
  leasetime : conf.leasetime = c.leasetime
  maxStaticLease : conf.maxStaticLease = c.maxStaticLease
  dnsSuffix : conf.dnsSuffix.string = c.dnsSuffix.toCString
  leaseFile : conf.leaseFile.string = c.leaseFile.toCString
  staticLeaseFile : conf.staticLeaseFile.string = c.staticLeaseFile.toCString
  configFile : conf.configFile.string = c.configFile.toCString
  miprange : conf.miprange = c.miprange

/-- The string has no comma, space, CR or LF. -/
def Clean (s : CString) : Prop :=
  comma ∉ s.bytes ∧ space ∉ s.bytes ∧ carriageReturn ∉ s.bytes ∧ lf ∉ s.bytes

instance (s : CString) : Decidable (Clean s) := inferInstanceAs (Decidable (_ ∧ _ ∧ _ ∧ _))

/-- The strings of a configuration are clean, list by list. -/
structure DhcpdConfT.AllClean (c : DhcpdConfT CharArray) : Prop where
  network : ∀ f ∈ c.network, Clean f
  servers : ∀ f ∈ c.servers, Clean f
  dnsSuffix : Clean c.dnsSuffix.toCString
  leaseFile : Clean c.leaseFile.toCString
  staticLeaseFile : Clean c.staticLeaseFile.toCString
  configFile : Clean c.configFile.toCString

theorem DhcpdConfT.allClean_iff {c : DhcpdConfT CharArray} : c.AllClean ↔ ∀ s ∈ c.strings, Clean s := by
  simp only [strings, forall_mem_append, forall_mem_cons, not_mem_nil, IsEmpty.forall_iff, implies_true, and_true]
  constructor
  · rintro ⟨a, b, c, d, e, f⟩
    exact ⟨⟨a, b⟩, c, d, e, f⟩
  · rintro ⟨⟨a, b⟩, c, d, e, f⟩
    exact ⟨a, b, c, d, e, f⟩

/-- No field follows an empty one, and what is in memory for an empty field is empty. -/
def Survives (fields olds : List CString) : Prop :=
  fields.Pairwise (fun f f' => f = CString.empty → f' = CString.empty) ∧
    List.Forall₂ (fun f old => f = CString.empty → old = CString.empty) fields olds

instance (fields olds : List CString) : Decidable (Survives fields olds) :=
  inferInstanceAs (Decidable (_ ∧ _))

/-! ## Copying tokens -/

section

variable {n : Nat} {ptr : Option CString} {dst : Block n} {f : CString}

theorem copyToken_iff (fits : f.bytes.length < n) :
    (∃ b, copyToken ptr dst = some b ∧ b.string = f) ↔ ptr.getD dst.string = f := by
  cases ptr with
  | none =>
    constructor
    · rintro ⟨b, copied, same⟩
      cases copied
      exact same
    · intro same
      exact ⟨dst, rfl, same⟩
  | some token =>
    constructor
    · rintro ⟨b, copied, same⟩
      exact (Block.string_of_strcpy copied).symm.trans same
    · intro same
      have same : token = f := same
      subst same
      exact dst.strcpy_eq_some fits

end

variable {conf' : DhcpdConfT Block} {fields : List CString} (c : DhcpdConfT CharArray)

section

variable {c : DhcpdConfT CharArray} {conf : DhcpdConfT Block}

theorem tokens_of_clean (clean : ∀ f ∈ fields, Clean f) :
    Tokens [comma, lf] (joinFields comma fields) (fields.filter fun f => decide (f ≠ CString.empty)) := by
  refine tokens_joinFields (by decide) (by decide) ?_
  intro f member b inside delim
  obtain ⟨noComma, -, -, noLf⟩ := clean f member
  rcases mem_cons.1 delim with rfl | delim
  · exact noComma inside
  · exact noLf (mem_singleton.1 delim ▸ inside)

variable {tokens : List CString} {value : Option CString} (ifLocal : CString)

theorem readConf_tokens {value : CString}
    (all : Tokens [comma, lf] value tokens) :
    readConf ifLocal (some value) conf = (do
      let ifname ← copyToken tokens.head? conf.ifname
      let sip ← copyToken tokens.tail.head? conf.sip
      let eip ← copyToken tokens.tail.tail.head? conf.eip
      let gw ← copyToken tokens.tail.tail.tail.head? conf.gw
      let mask ← copyToken tokens.tail.tail.tail.tail.head? conf.mask
      some { conf with ifname := ifname, sip := sip, eip := eip, gw := gw, mask := mask }) := by
  obtain ⟨first, rest₁⟩ := all.nextToken_eq
  obtain ⟨second, rest₂⟩ := rest₁.nextToken_eq
  obtain ⟨third, rest₃⟩ := rest₂.nextToken_eq
  obtain ⟨fourth, rest₄⟩ := rest₃.nextToken_eq
  obtain ⟨fifth, -⟩ := rest₄.nextToken_eq
  simp only [readConf, first, second, third, fourth, fifth]

theorem readConf_iff (clean : ∀ f ∈ c.network, Clean f) :
    (∃ conf', readConf ifLocal (some (confText c)) conf = some conf' ∧
        conf'.oldNetwork = c.network) ↔ Survives c.network conf.oldNetwork := by
  have filled := @fill_eq_iff CString _ CString.empty c.network conf.oldNetwork rfl
  have text : confText c = joinFields comma c.network := rfl
  rw [text, readConf_tokens ifLocal (tokens_of_clean clean), Survives, ← filled]
  simp only [DhcpdConfT.oldNetwork, DhcpdConfT.network, fill, cons.injEq, and_true,
    bind_eq_bind, bind_eq_some_iff, some.injEq]
  rw [← copyToken_iff c.ifname.fits, ← copyToken_iff c.sip.fits, ← copyToken_iff c.eip.fits,
    ← copyToken_iff c.gw.fits, ← copyToken_iff c.mask.fits]
  constructor
  · rintro ⟨conf', ⟨ifname, h₁, sip, h₂, eip, h₃, gw, h₄, mask, h₅, rfl⟩, e₁, e₂, e₃, e₄, e₅⟩
    exact ⟨⟨ifname, h₁, e₁⟩, ⟨sip, h₂, e₂⟩, ⟨eip, h₃, e₃⟩, ⟨gw, h₄, e₄⟩, ⟨mask, h₅, e₅⟩⟩
  · rintro ⟨⟨ifname, h₁, e₁⟩, ⟨sip, h₂, e₂⟩, ⟨eip, h₃, e₃⟩, ⟨gw, h₄, e₄⟩, ⟨mask, h₅, e₅⟩⟩
    exact ⟨_, ⟨ifname, h₁, sip, h₂, eip, h₃, gw, h₄, mask, h₅, rfl⟩, e₁, e₂, e₃, e₄, e₅⟩

theorem readConf_frame {ifLocal : CString}
    (read : readConf ifLocal value conf = some conf') :
    conf'.oldServers = conf.oldServers ∧ conf'.miprange = conf.miprange := by
  cases value
  all_goals
    simp only [readConf, bind_eq_bind, bind_eq_some_iff, some.injEq] at read
    obtain ⟨ifname, -, sip, -, eip, -, gw, -, mask, -, rfl⟩ := read
    exact ⟨rfl, rfl⟩

theorem readDns_tokens {value : CString}
    (all : Tokens [comma, lf] value tokens) :
    readDns (some value) conf = (do
      let dns1 ← copyToken tokens.head? conf.dns1
      let dns2 ← copyToken tokens.tail.head? conf.dns2
      some { conf with dns1 := dns1, dns2 := dns2 }) := by
  obtain ⟨first, rest⟩ := all.nextToken_eq
  obtain ⟨second, -⟩ := rest.nextToken_eq
  simp only [readDns, first, second]

theorem readDns_iff (clean : ∀ f ∈ c.servers, Clean f) : (∃ conf', readDns (some (dnsText c)) conf = some conf' ∧
        conf'.oldServers = c.servers) ↔ Survives c.servers conf.oldServers := by
  have filled := @fill_eq_iff CString _ CString.empty c.servers conf.oldServers rfl
  have text : dnsText c = joinFields comma c.servers := rfl
  rw [text, readDns_tokens (tokens_of_clean clean), Survives, ← filled]
  simp only [DhcpdConfT.oldServers, DhcpdConfT.servers, fill, cons.injEq, and_true,
    bind_eq_bind, bind_eq_some_iff, some.injEq]
  rw [← copyToken_iff c.dns1.fits, ← copyToken_iff c.dns2.fits]
  constructor
  · rintro ⟨conf', ⟨dns1, h₁, dns2, h₂, rfl⟩, e₁, e₂⟩
    exact ⟨⟨dns1, h₁, e₁⟩, ⟨dns2, h₂, e₂⟩⟩
  · rintro ⟨⟨dns1, h₁, e₁⟩, ⟨dns2, h₂, e₂⟩⟩
    exact ⟨_, ⟨dns1, h₁, dns2, h₂, rfl⟩, e₁, e₂⟩

theorem readDns_frame (read : readDns value conf = some conf') :
    conf'.oldNetwork = conf.oldNetwork ∧ conf'.miprange = conf.miprange := by
  cases value
  all_goals
    simp only [readDns, bind_eq_bind, bind_eq_some_iff, some.injEq] at read
    obtain ⟨dns1, -, dns2, -, rfl⟩ := read
    exact ⟨rfl, rfl⟩

/-! ## Numbers and the suffix -/

theorem formatInt_clean (value : Int32) : ∀ b ∈ (formatInt value).bytes, b ∉ [comma, lf] := by
  intro b inside delim
  rcases mem_cons.1 delim with rfl | delim
  · exact notMem_formatInt (by decide) value inside
  · rw [mem_singleton.1 delim] at inside
    exact notMem_formatInt (by decide) value inside

theorem nextToken_formatInt (value : Int32) (f : CString) (fields : List CString) :
    nextToken [comma, lf] (joinFields comma (formatInt value :: f :: fields)) =
      (some (formatInt value), joinFields comma (f :: fields)) := by
  have found := CString.strtok_append (formatInt_ne_nil value) (formatInt_clean value)
    (d := comma) (by simp) (joinFields_cons_bytes (by decide) (formatInt value) f fields)
  simp only [nextToken, found]

theorem suffix_bytes : (CString.ofBuffer (c.dnsSuffix.bytes ++ [space])).bytes = c.dnsSuffix.bytes ++ [space] := by
  refine CString.ofBuffer_of_nulFree ?_
  rw [mem_append, not_or]
  exact ⟨c.dnsSuffix.nulFree, by decide⟩

theorem nextToken_suffix (clean : Clean c.dnsSuffix.toCString) :
    (nextToken [comma, space, lf] (joinFields comma [CString.ofBuffer (c.dnsSuffix.bytes ++ [space])])).1.getD
      CString.empty = c.dnsSuffix.toCString := by
  obtain ⟨noComma, noSpace, -, noLf⟩ := clean
  have whole : (joinFields comma [CString.ofBuffer (c.dnsSuffix.bytes ++ [space])]).bytes =
      c.dnsSuffix.bytes ++ [space] := by
    rw [joinFields_bytes (by decide)]
    simp [suffix_bytes]
  generalize joinFields comma [CString.ofBuffer (c.dnsSuffix.bytes ++ [space])] = text at whole ⊢
  by_cases empty : c.dnsSuffix.bytes = []
  · have absent : text.strtok [comma, space, lf] = none := by
      refine CString.strtok_eq_none fun b inside => ?_
      rw [whole, empty] at inside
      rw [mem_singleton.1 inside]
      decide
    simp only [nextToken, absent]
    exact (CString.ext empty).symm
  · have plain : ∀ b ∈ c.dnsSuffix.bytes, b ∉ [comma, space, lf] := by
      intro b inside delim
      simp only [mem_cons, not_mem_nil, or_false] at delim
      rcases delim with rfl | rfl | rfl
      · exact noComma inside
      · exact noSpace inside
      · exact noLf inside
    have found : text.strtok [comma, space, lf] = some (c.dnsSuffix.toCString, CString.empty) :=
      CString.strtok_append empty plain (by simp) whole
    simp only [nextToken, found]
    rfl

/-- **The options always come back.** -/
theorem readOpt_eq (clean : Clean c.dnsSuffix.toCString) : ∃ dnsSuffix, readOpt (some (optText c)) conf =
        some { conf with
          leasetime := c.leasetime, autotime := c.autotime, maxStaticLease := c.maxStaticLease,
          dnsSuffix := dnsSuffix } ∧
      dnsSuffix.string = c.dnsSuffix.toCString := by
  obtain ⟨dnsSuffix, copied, same⟩ := conf.dnsSuffix.strcpy_eq_some c.dnsSuffix.fits
  refine ⟨dnsSuffix, ?_, same⟩
  simp only [readOpt, optText, nextToken_formatInt, nextToken_suffix clean, copied, atoiToken,
    atoi_formatInt, bind_eq_bind, bind_some]

end

/-! ## The settings -/

/-- A value that is stored as it is, on one line, and fits `value[1024]`. -/
structure Storable (tag value : CString) : Prop where
  key : Key tag
  noCr : carriageReturn ∉ value.bytes
  noLf : lf ∉ value.bytes
  fits : value.bytes.length < 1024

variable {tag value : CString} {file : File}

theorem Storable.oneLine (storable : Storable tag value) : (body (tag, value)).length ≤ bufferLen - 1 := by
  have tagFits := storable.key.fits
  have fits := storable.fits
  rw [body_length]
  simp only [bufferLen, maxItemLen] at *
  omega

theorem store_lookup (readable : Readable file) (storable : Storable tag value) :
    ∃ file', store tag value file = some file' ∧ Readable file' ∧
      lookup (entriesOf file') tag = (1, value) ∧
      ∀ other, other ≠ tag → ¬ IsComment other →
        lookup (entriesOf file') other = lookup (entriesOf file) other := by
  have whole := cutLine_of_clean storable.noCr storable.noLf
  obtain ⟨file', set, readable', here, others⟩ :=
    setValue_lookup readable storable.key value (by rw [whole]; exact storable.oneLine)
  refine ⟨some file', ?_, readable', ?_, others⟩
  · exact fileAfter_written set
  · rw [here, whole]

/-- Several settings, stored one after the other. -/
def storeAll (settings : List (CString × CString)) (file : File) : Option File :=
  settings.foldlM (fun file s => store s.1 s.2 file) file

theorem storeAll_lookup {settings : List (CString × CString)} (names : (settings.map (·.1)).Nodup)
    (storable : ∀ s ∈ settings, Storable s.1 s.2) (readable : Readable file) :
    ∃ file', storeAll settings file = some file' ∧ Readable file' ∧
      (∀ s ∈ settings, lookup (entriesOf file') s.1 = (1, s.2)) ∧
      ∀ other, other ∉ settings.map (·.1) → ¬ IsComment other →
        lookup (entriesOf file') other = lookup (entriesOf file) other := by
  induction settings generalizing file with
  | nil => exact ⟨file, rfl, readable, by simp, fun _ _ _ => rfl⟩
  | cons s settings ih =>
    obtain ⟨absent, names⟩ := nodup_cons.1 names
    have here := storable s mem_cons_self
    obtain ⟨file₁, stored, readable₁, found, others⟩ := store_lookup readable here
    obtain ⟨file₂, rest, readable₂, all, frame⟩ :=
      ih names (fun s inside => storable s (mem_cons_of_mem _ inside)) readable₁
    refine ⟨file₂, ?_, readable₂, ?_, ?_⟩
    · rw [storeAll, foldlM_cons, stored]
      exact rest
    · intro s' member
      rcases mem_cons.1 member with rfl | inside
      · rw [frame _ absent here.key.noComment, found]
      · exact all s' inside
    · intro other outside noComment
      simp only [map_cons, mem_cons, not_or] at outside
      rw [frame other outside.2 noComment, others other outside.1 noComment]

variable {file' : File}

theorem readable_of_store (stored : store tag value file = some file') : Readable file := by
  obtain ⟨result, set, -⟩ := map_eq_some_iff.1 stored
  exact readable_of_setValue set

/-- The settings of a configuration, in the order they are stored. -/
def settings (c : DhcpdConfT CharArray) : List (CString × CString) :=
  [(dhcpdConf, confText c), (dhcpdDns, dnsText c), (dhcpdOpt, optText c),
    (dhcpdConfigfile, c.configFile.toCString), (dhcpdLeaseFile, c.leaseFile.toCString),
    (dhcpdStaticLeaseFile, c.staticLeaseFile.toCString)]

theorem settings_nodup : ((settings c).map (·.1)).Nodup := by
  show [dhcpdConf, dhcpdDns, dhcpdOpt, dhcpdConfigfile, dhcpdLeaseFile, dhcpdStaticLeaseFile].Nodup
  decide

theorem dhcpdCommitConfig_eq (names : CString → Bool) (file : File) :
    dhcpdCommitConfig c names file = (storeAll (settings c) file).map fun file =>
      if names c.configFile.toCString then some (udhcpdConfText c) else file := by
  rw [map_eq_bind]
  simp only [storeAll, settings, foldlM_cons, bind_eq_bind, bind_assoc]
  rfl

section

variable {c : DhcpdConfT CharArray}

theorem storable_path (key : Key tag) (path : CharArray 256)
    (clean : Clean path.toCString) : Storable tag path.toCString :=
  ⟨key, clean.2.2.1, clean.2.2.2, path.fits.trans (by decide)⟩

theorem storable_fields (key : Key tag) (clean : ∀ f ∈ fields, carriageReturn ∉ f.bytes ∧ lf ∉ f.bytes)
    (short : (fields.map fun f => f.bytes.length + 1).sum < 1024) :
    Storable tag (joinFields comma fields) := by
  refine ⟨key, ?_, ?_, ?_⟩
  · exact notMem_joinFields (by decide) (by decide) fun f inside => (clean f inside).1
  · exact notMem_joinFields (by decide) (by decide) fun f inside => (clean f inside).2
  · exact (joinFields_length (by decide) fields).trans_lt short

theorem formatInt_oneLine (value : Int32) : carriageReturn ∉ (formatInt value).bytes ∧ lf ∉ (formatInt value).bytes :=
  ⟨notMem_formatInt (by decide) value, notMem_formatInt (by decide) value⟩

theorem storable_optText (clean : Clean c.dnsSuffix.toCString) : Storable dhcpdOpt (optText c) := by
  refine storable_fields (by decide) ?_ ?_
  · intro f member
    simp only [mem_cons, not_mem_nil, or_false] at member
    rcases member with rfl | rfl | rfl | rfl
    · exact formatInt_oneLine _
    · exact formatInt_oneLine _
    · exact formatInt_oneLine _
    · rw [suffix_bytes, mem_append, mem_append, not_or, not_or]
      exact ⟨⟨clean.2.2.1, by decide⟩, ⟨clean.2.2.2, by decide⟩⟩
  · have fits := c.dnsSuffix.fits
    have first := formatInt_length c.leasetime
    have second := formatInt_length c.autotime
    have third := formatInt_length c.maxStaticLease
    simp only [map_cons, map_nil, sum_cons, sum_nil, suffix_bytes, length_append, length_cons, length_nil]
    omega

theorem storable_settings (clean : c.AllClean) : ∀ s ∈ settings c, Storable s.1 s.2 := by
  intro s member
  simp only [settings, mem_cons, not_mem_nil, or_false] at member
  rcases member with rfl | rfl | rfl | rfl | rfl | rfl
  · refine storable_fields (show Key dhcpdConf by decide) (fun f inside => (clean.network f inside).2.2) ?_
    have := c.ifname.fits
    have := c.sip.fits
    have := c.eip.fits
    have := c.gw.fits
    have := c.mask.fits
    simp only [map_cons, map_nil, sum_cons, sum_nil]
    omega
  · refine storable_fields (show Key dhcpdDns by decide) (fun f inside => (clean.servers f inside).2.2) ?_
    have := c.dns1.fits
    have := c.dns2.fits
    simp only [map_cons, map_nil, sum_cons, sum_nil]
    omega
  · exact storable_optText clean.dnsSuffix
  · exact storable_path (show Key dhcpdConfigfile by decide) c.configFile clean.configFile
  · exact storable_path (show Key dhcpdLeaseFile by decide) c.leaseFile clean.leaseFile
  · exact storable_path (show Key dhcpdStaticLeaseFile by decide) c.staticLeaseFile clean.staticLeaseFile

/-- What the store holds after a commit that does not overwrite it. -/
structure Committed (c : DhcpdConfT CharArray) (file : File) : Prop where
  readable : Readable file
  storable : ∀ s ∈ settings c, Storable s.1 s.2
  found : ∀ s ∈ settings c, lookup (entriesOf file) s.1 = (1, s.2)

theorem commit_eq_some (clean : c.AllClean) (names : CString → Bool) (readable : Readable file) :
    ∃ stored, Committed c stored ∧ dhcpdCommitConfig c names file =
      some (if names c.configFile.toCString then some (udhcpdConfText c) else stored) := by
  obtain ⟨stored, all, readable', found, -⟩ :=
    storeAll_lookup (settings_nodup c) (storable_settings clean) readable
  refine ⟨stored, ⟨readable', storable_settings clean, found⟩, ?_⟩
  rw [dhcpdCommitConfig_eq, all]
  rfl

theorem readable_of_commit {names : CString → Bool}
    (committed : dhcpdCommitConfig c names file = some file') : Readable file := by
  obtain ⟨file₁, stored, -⟩ := bind_eq_some_iff.1 committed
  exact readable_of_store stored

/-! ## Reading what was committed -/

theorem setting_eq (committed : Committed c file) {value : CString}
    (member : (tag, value) ∈ settings c) : setting file tag = some (some value) := by
  have found := iconfigGetValueDirect_found committed.readable (committed.found _ member)
  simp only [setting, found, strcpy_eq_some (committed.storable _ member).fits, bind_eq_bind, bind_some]
  rfl

theorem readPath_eq (committed : Committed c file) {path : CharArray 256}
    (member : (tag, path.toCString) ∈ settings c) (default : CString) (dst : Block 256) :
    ∃ b, readPath file tag default dst = some b ∧ b.string = path.toCString := by
  have found := iconfigGetValueDirect_found committed.readable (committed.found _ member)
  obtain ⟨b, copied, same⟩ := dst.strcpy_eq_some path.fits
  refine ⟨b, ?_, same⟩
  simp only [readPath, found, copied, bind_eq_bind, bind_some]
  rfl

/-- **Reading after a commit.**  The two lists of strings have to survive, and `miprange` to be the
same before. -/
theorem read_committed_iff (clean : c.AllClean) (ifLocal : CString)
    (committed : Committed c file) (conf : DhcpdConfT Block) :
    (∃ conf', dhcpdReadConfig ifLocal file conf = some conf' ∧ conf'.Holds c) ↔
      Survives c.network conf.oldNetwork ∧ Survives c.servers conf.oldServers ∧
        conf.miprange = c.miprange := by
  have conf_text : setting file dhcpdConf = some (some (confText c)) :=
    setting_eq committed (by simp [settings])
  have dns_text : setting file dhcpdDns = some (some (dnsText c)) :=
    setting_eq committed (by simp [settings])
  have opt_text : setting file dhcpdOpt = some (some (optText c)) :=
    setting_eq committed (by simp [settings])
  have lease : (dhcpdLeaseFile, c.leaseFile.toCString) ∈ settings c := by simp [settings]
  have static : (dhcpdStaticLeaseFile, c.staticLeaseFile.toCString) ∈ settings c := by simp [settings]
  have config : (dhcpdConfigfile, c.configFile.toCString) ∈ settings c := by simp [settings]
  simp only [dhcpdReadConfig, conf_text, dns_text, opt_text, bind_eq_bind, bind_some]
  constructor
  · rintro ⟨conf', read, holds⟩
    obtain ⟨conf₁, read₁, read⟩ := bind_eq_some_iff.1 read
    obtain ⟨conf₂, read₂, read⟩ := bind_eq_some_iff.1 read
    obtain ⟨conf₃, read₃, read⟩ := bind_eq_some_iff.1 read
    obtain ⟨leaseFile, -, read⟩ := bind_eq_some_iff.1 read
    obtain ⟨staticLeaseFile, -, read⟩ := bind_eq_some_iff.1 read
    obtain ⟨configFile, -, read⟩ := bind_eq_some_iff.1 read
    cases read
    -- each part changes its own members only, so what holds at the end held before
    obtain ⟨dnsSuffix, options, -⟩ := @readOpt_eq c conf₂ clean.dnsSuffix
    cases read₃.symm.trans options
    obtain ⟨sameNetwork, sameRange₂⟩ := readDns_frame read₂
    obtain ⟨sameServers, sameRange₁⟩ := readConf_frame read₁
    have networkHeld := sameNetwork.symm.trans holds.network
    have serversHeld := (readDns_iff clean.servers).1 ⟨conf₂, read₂, holds.servers⟩
    rw [sameServers] at serversHeld
    exact ⟨(readConf_iff ifLocal clean.network).1 ⟨conf₁, read₁, networkHeld⟩, serversHeld,
      sameRange₁.symm.trans (sameRange₂.symm.trans holds.miprange)⟩
  · rintro ⟨networkSurvives, serversSurvive, miprange⟩
    obtain ⟨conf₁, read₁, same₁⟩ := (readConf_iff ifLocal clean.network).2 networkSurvives
    obtain ⟨sameServers, sameRange₁⟩ := readConf_frame read₁
    rw [← sameServers] at serversSurvive
    obtain ⟨conf₂, read₂, same₂⟩ := (readDns_iff clean.servers).2 serversSurvive
    obtain ⟨sameNetwork, sameRange₂⟩ := readDns_frame read₂
    obtain ⟨dnsSuffix, read₃, same₃⟩ := @readOpt_eq c conf₂ clean.dnsSuffix
    obtain ⟨leaseFile, read₄, same₄⟩ := readPath_eq committed lease udhcpdLeaseFile conf₂.leaseFile
    obtain ⟨staticLeaseFile, read₅, same₅⟩ :=
      readPath_eq committed static udhcpdStaticLeaseFile conf₂.staticLeaseFile
    obtain ⟨configFile, read₆, same₆⟩ := readPath_eq committed config udhcpdConfFile conf₂.configFile
    simp only [read₁, read₂, read₃, read₄, read₅, read₆, bind_some]
    exact ⟨_, rfl, sameNetwork.trans same₁, same₂, rfl, rfl, rfl, same₃, same₄, same₅, same₆,
      sameRange₂.trans (sameRange₁.trans miprange)⟩

end

/-! ## A commit that overwrites the store -/

/-- A text of whole lines that gives no entry whose tag starts with `d`, as the names of
the settings do. -/
structure Foreign (text : List UInt8) : Prop where
  lines : text = [] ∨ ∃ a, text = a ++ [lf]
  tags : ∀ e ∈ parse text, e.1.bytes.head? ≠ some 100

theorem foreign_nil : Foreign [] := ⟨Or.inl rfl, by simp [parse]⟩

theorem Foreign.append {a b : List UInt8} (first : Foreign a) (second : Foreign b) : Foreign (a ++ b) := by
  rcases first.lines with rfl | ⟨a, rfl⟩
  · exact second
  constructor
  · rcases second.lines with rfl | ⟨b, rfl⟩
    · exact .inr ⟨a, append_nil _⟩
    · exact .inr ⟨a ++ [lf] ++ b, (append_assoc ..).symm⟩
  · intro e member
    rw [append_assoc, singleton_append, parse_append] at member
    rcases mem_append.1 member with inside | inside
    · exact first.tags e inside
    · exact second.tags e inside

/-- The word at the start of a line: short, without line feed, and not like a setting. -/
def StartWord (word : List Char) : Prop :=
  (∀ b ∈ (ascii word).head?, b ∉ [0, equals, lf, 100]) ∧ ascii word ≠ [] ∧ lf ∉ ascii word ∧
    (ascii word).length ≤ 20

instance (word : List Char) : Decidable (StartWord word) := inferInstanceAs (Decidable (_ ∧ _ ∧ _ ∧ _))

theorem foreign_line {word : List Char} (startWord : StartWord word) {value : List UInt8}
    (noLf : lf ∉ value) (short : value.length ≤ 300) : Foreign (udhcpdLine word value) := by
  obtain ⟨first, nonempty, wordLf, wordShort⟩ := startWord
  obtain ⟨b, bs, start⟩ := exists_cons_of_ne_nil nonempty
  have text := first b (by rw [start]; rfl)
  have whole : udhcpdLine word value = (ascii word ++ space :: value) ++ [lf] := by simp [udhcpdLine]
  have oneLine : lf ∉ ascii word ++ space :: value := by
    simp only [mem_append, mem_cons, not_or]
    exact ⟨wordLf, by decide, noLf⟩
  have fits : (ascii word ++ space :: value).length < bufferLen - 1 := by
    simp only [length_append, length_cons, bufferLen]
    omega
  refine ⟨.inr ⟨_, whole⟩, fun e member => ?_⟩
  rw [whole, parse, fgetsAll_line (by decide) oneLine fits.le, if_pos fits] at member
  obtain ⟨piece, inside, found⟩ := mem_filterMap.1 member
  rw [mem_singleton.1 inside, start] at found
  simp only [mem_cons, not_or] at text
  rw [parseLine_head found (by simp [text])]
  simpa using text.2.2.2

section

variable {c : DhcpdConfT CharArray}

/-- The file `update_udhcpd_config` writes has no setting of the store. -/
theorem foreign_udhcpdConfText (clean : c.AllClean) : Foreign (udhcpdConfText c) := by
  have string : ∀ {word : List Char} {n : Nat} (s : CharArray n), n ≤ 256 → Clean s.toCString →
      StartWord word → Foreign (udhcpdLine word s.bytes) := by
    intro word n s small clean startWord
    have fits := s.fits
    exact foreign_line startWord clean.2.2.2 (by omega)
  have number : ∀ {word : List Char} value, StartWord word →
      Foreign (udhcpdLine word (formatInt value).bytes) := by
    intro word value startWord
    have length := formatInt_length value
    exact foreign_line startWord (formatInt_oneLine value).2 (by omega)
  obtain ⟨ifname, sip, eip, gw, mask⟩ :
      Clean c.ifname.toCString ∧ Clean c.sip.toCString ∧ Clean c.eip.toCString ∧ Clean c.gw.toCString ∧
        Clean c.mask.toCString := by
    simpa [DhcpdConfT.network] using clean.network
  obtain ⟨dns1, dns2⟩ : Clean c.dns1.toCString ∧ Clean c.dns2.toCString := by
    simpa [DhcpdConfT.servers] using clean.servers
  have servers : lf ∉ c.dns1.bytes ++ space :: c.dns2.bytes := by
    simp only [mem_append, mem_cons, not_or]
    exact ⟨dns1.2.2.2, by decide, dns2.2.2.2⟩
  have short : (c.dns1.bytes ++ space :: c.dns2.bytes).length ≤ 300 := by
    have := c.dns1.fits
    have := c.dns2.fits
    simp only [length_append, length_cons]
    omega
  refine Foreign.append (Foreign.append (Foreign.append (Foreign.append (Foreign.append (Foreign.append
    (Foreign.append (Foreign.append (Foreign.append (Foreign.append (Foreign.append
      ?sip ?eip) ?ifname) ?autotime) ?dns) ?mask) ?gw) ?suffix) ?leasetime) ?leaseFile) ?static) ?max
  case sip => exact string c.sip (by decide) sip (by decide)
  case eip => exact string c.eip (by decide) eip (by decide)
  case ifname => exact string c.ifname (by decide) ifname (by decide)
  case autotime => exact number c.autotime (by decide)
  case dns =>
    split
    · exact foreign_nil
    · exact foreign_line (by decide) servers short
  case mask => exact string c.mask (by decide) mask (by decide)
  case gw => exact string c.gw (by decide) gw (by decide)
  case suffix =>
    split
    · exact foreign_nil
    · exact string c.dnsSuffix (by decide) clean.dnsSuffix (by decide)
  case leasetime => exact number c.leasetime (by decide)
  case leaseFile => exact string c.leaseFile (by decide) clean.leaseFile (by decide)
  case static => exact string c.staticLeaseFile (by decide) clean.staticLeaseFile (by decide)
  case max => exact number c.maxStaticLease (by decide)

/-- From such a file the name of the configuration file is read as the default. -/
theorem configFile_of_foreign {text : List UInt8} (foreign : Foreign text) {ifLocal : CString}
    {conf : DhcpdConfT Block} (read : dhcpdReadConfig ifLocal (some text) conf = some conf') :
    conf'.configFile.string = udhcpdConfFile := by
  have missing : lookup (entriesOf (some text)) dhcpdConfigfile = (0, CString.empty) := by
    have absent : (entriesOf (some text)).find? (fun e => decide (e.1 = dhcpdConfigfile)) = none := by
      refine find?_eq_none.2 fun e member same => foreign.tags e member ?_
      have same : e.1 = dhcpdConfigfile := by simpa using same
      rw [same]
      rfl
    rw [GenConfig.lookup, absent]
  simp only [dhcpdReadConfig, bind_eq_bind, bind_eq_some_iff] at read
  obtain ⟨_, -, conf₁, -, _, -, conf₂, -, _, -, conf₃, -, leaseFile, -, staticLeaseFile, -, configFile,
    last, same⟩ := read
  cases same
  simp only [readPath, bind_eq_bind, bind_eq_some_iff] at last
  obtain ⟨⟨found, path⟩, got, dst, -, default⟩ := last
  cases got.symm.trans (iconfigGetValueDirect_missing (readable_of_getValue got) missing)
  exact Block.string_of_strcpy default

end

/-- **The configuration round trip**, for strings without comma, space, CR and LF: what is read is
equal in every member exactly if
* the tags of the store are shorter than 64 bytes,
* `config_file` does not name the store itself,
* in both lists no field follows an empty one, and the structure held an empty string for every
  empty one,
* the structure held the same `miprange`. -/
theorem config_round_trip_iff (names : CString → Bool) (apart : names udhcpdConfFile = false)
    (ifLocal : CString) (c : DhcpdConfT CharArray) (clean : ∀ s ∈ c.strings, Clean s) (file : File)
    (conf : DhcpdConfT Block) :
    (∃ file' conf', dhcpdCommitConfig c names file = some file' ∧
        dhcpdReadConfig ifLocal file' conf = some conf' ∧ conf'.Holds c) ↔
      Readable file ∧ names c.configFile.toCString = false ∧
        Survives c.network conf.oldNetwork ∧ Survives c.servers conf.oldServers ∧
        conf.miprange = c.miprange := by
  have clean := DhcpdConfT.allClean_iff.2 clean
  constructor
  · rintro ⟨file', conf', committed, read, holds⟩
    have readable := readable_of_commit committed
    obtain ⟨stored, settings, commit⟩ := commit_eq_some clean names readable
    cases overwritten : names c.configFile.toCString with
    | true =>
      rw [overwritten] at commit
      cases committed.symm.trans commit
      have default := configFile_of_foreign (foreign_udhcpdConfText clean) read
      rw [← holds.configFile, default, apart] at overwritten
      cases overwritten
    | false =>
      rw [overwritten] at commit
      cases committed.symm.trans commit
      exact ⟨readable, rfl, (read_committed_iff clean ifLocal settings conf).1 ⟨conf', read, holds⟩⟩
  · rintro ⟨readable, kept, survives⟩
    obtain ⟨stored, settings, commit⟩ := commit_eq_some clean names readable
    rw [kept] at commit
    obtain ⟨conf', read, holds⟩ := (read_committed_iff clean ifLocal settings conf).2 survives
    exact ⟨stored, conf', commit, read, holds⟩

namespace Sample

/-- Text as a string in an array. -/
theorem array_fits (n : Nat) (chars : List Char) : (CString.ofBuffer ((ascii chars).take n)).bytes.length < n + 1 := by
  have cut := (takeWhile_sublist (fun b : UInt8 => b != 0) (l := (ascii chars).take n)).length_le
  have short := length_take_le n (ascii chars)
  simp only [CString.ofBuffer]
  omega

def array (n : Nat) (chars : List Char) : CharArray (n + 1) := ⟨CString.ofBuffer ((ascii chars).take n), array_fits n chars⟩

/-- A configuration with one name server or two. -/
def config (dns2 : List Char) : DhcpdConfT CharArray where
  ifname := array 15 ['b', 'r', '0']
  sip := array 19 ['1', '0', '.', '0', '.', '0', '.', '2']
  eip := array 19 ['1', '0', '.', '0', '.', '0', '.', '9']
  gw := array 19 ['1', '0', '.', '0', '.', '0', '.', '1']
  mask := array 19 ['2', '5', '5', '.', '0', '.', '0', '.', '0']
  dns1 := array 19 ['8', '.', '8', '.', '8', '.', '8']
  dns2 := array 19 dns2
  autotime := 30
  leasetime := 7200
  maxStaticLease := 200
  dnsSuffix := array 31 []
  leaseFile := array 255 ['/', 'l']
  staticLeaseFile := array 255 ['/', 's']
  configFile := array 255 ['/', 'u']
  miprange := 0

def filled (n : Nat) (byte : UInt8) : Block n := ⟨replicate n byte, length_replicate⟩

/-- The caller's memory, filled with one byte. -/
def memory (byte : UInt8) : DhcpdConfT Block where
  ifname := filled 16 byte
  sip := filled 20 byte
  eip := filled 20 byte
  gw := filled 20 byte
  mask := filled 20 byte
  dns1 := filled 20 byte
  dns2 := filled 20 byte
  autotime := 0
  leasetime := 0
  maxStaticLease := 0
  dnsSuffix := filled 32 byte
  leaseFile := filled 256 byte
  staticLeaseFile := filled 256 byte
  configFile := filled 256 byte
  miprange := 0

def isStore (path : CString) : Bool :=
  path = CString.ofBuffer (ascii ['/', 'e', 't', 'c', '/', 'i', 'c', 'o', 'n', 'f', 'i', 'g', '.', 'c', 'f', 'g'])

def br0 : CString := CString.ofBuffer (ascii ['b', 'r', '0'])

end Sample

open Sample

/-- With all fields set the round trip succeeds, whatever the memory held before. -/
theorem config_round_trip_full :
    ∃ file' conf', dhcpdCommitConfig (config ['8', '.', '8', '.', '4', '.', '4']) isStore none = some file' ∧
      dhcpdReadConfig br0 file' (memory 120) = some conf' ∧
      conf'.Holds (config ['8', '.', '8', '.', '4', '.', '4']) :=
  (config_round_trip_iff isStore (by decide) br0 (config ['8', '.', '8', '.', '4', '.', '4'])
    (by decide) none (memory 120)).2
    ⟨by decide, by decide, by decide, by decide, rfl⟩

/-- With no second name server the old content of the structure shows through. -/
theorem config_dns2_not_restored :
    ((dhcpdCommitConfig (config []) isStore none).bind fun file' =>
        (dhcpdReadConfig br0 file' (memory 120)).map fun conf' => (conf'.dns1.string, conf'.dns2.string)) =
      some ((config []).dns1.toCString, CString.ofBuffer (List.replicate 20 120)) ∧
    ¬ ∃ file' conf', dhcpdCommitConfig (config []) isStore none = some file' ∧
      dhcpdReadConfig br0 file' (memory 120) = some conf' ∧ conf'.Holds (config []) := by
  have result : ((dhcpdCommitConfig (config []) isStore none).bind fun file' =>
        (dhcpdReadConfig br0 file' (memory 120)).map fun conf' => (conf'.dns1.string, conf'.dns2.string)) =
      some ((config []).dns1.toCString, CString.ofBuffer (List.replicate 20 120)) := by decide +kernel
  refine ⟨result, ?_⟩
  rintro ⟨file', conf', committed, read, holds⟩
  rw [committed, bind_some, read, map_some, Option.some.injEq, Prod.mk.injEq] at result
  have servers : conf'.dns2.string = (config []).dns2.toCString :=
    (List.cons.inj (List.cons.inj holds.servers).2).1
  exact absurd (result.2.symm.trans servers) (by decide)

end RouterApps.Dhcplib
