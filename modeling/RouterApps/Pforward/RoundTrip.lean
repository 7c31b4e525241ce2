/-
# Pforward.RoundTrip -- a rule that is created, found and removed

`ruleAt` is what a lookup finds among the entries of a chain file.  The strings of a
rule come back if they fit their arrays and have no colon and no line end in them
(`parsePforward_make`), and only then (`parsePforward_strings`).

`pforward_round_trip_iff` says when a rule that was created can be found under its
name, is not created twice, can be removed, and leaves the other rules alone.
-/
import RouterApps.GenConfig.Settings
import RouterApps.Pforward.Rules

namespace RouterApps.Pforward

open CLib GenConfig List Option

/-! ## Values -/

/-- A string that a field of a rule can hold. -/
structure Storable (cap : Nat) (s : CString) : Prop where
  fits : s.bytes.length < cap
  noColon : colon ∉ s.bytes
  noCr : carriageReturn ∉ s.bytes
  noLf : lf ∉ s.bytes

variable {value name : CString} {pforward : PforwardT} {file : File} {entries : List Entry}

theorem parsePforward_of_tokens {chain protocol eport ipaddr iport : CString}
    (noLf : lf ∉ value.bytes)
    (tokens : Tokens [colon] value [name, chain, protocol, eport, ipaddr, iport]) :
    parsePforward value = some
      { name := cutTo 32 name, chain := cutTo 32 chain, protocol := cutTo 8 protocol, eport := atoi eport,
        ipaddr := cutTo 16 ipaddr, iport := atoi iport } := by
  -- Without a line feed the two sets of delimiters give the same tokens.
  have same : ∀ s : CString, lf ∉ s.bytes → s.strtok [colon, lf] = s.strtok [colon] := by
    intro s absent
    refine CString.strtok_congr fun b inside => ?_
    have ne : b ≠ lf := fun isLf => absent (isLf ▸ inside)
    simp [ne]
  have rest : ∀ {s token rest : CString}, s.strtok [colon] = some (token, rest) → lf ∉ s.bytes → lf ∉ rest.bytes := by
    intro s token rest found absent inside
    exact absent ((CString.strtok_eq_some found).2.2.1 inside)
  rcases tokens with _ | ⟨found₁, tokens⟩
  rcases tokens with _ | ⟨found₂, tokens⟩
  rcases tokens with _ | ⟨found₃, tokens⟩
  rcases tokens with _ | ⟨found₄, tokens⟩
  rcases tokens with _ | ⟨found₅, tokens⟩
  rcases tokens with _ | ⟨found₆, tokens⟩
  have noLf₃ := rest found₃ (rest found₂ (rest found₁ noLf))
  have noLf₅ := rest found₅ (rest found₄ noLf₃)
  simp only [parsePforward, found₁, found₂, found₃, same _ noLf₃, found₄, found₅, same _ noLf₅, found₆,
    bind_eq_bind, bind_some]

theorem parsePforward_strings (parsed : parsePforward value = some pforward) :
    ∀ f ∈ [pforward.name.bytes, pforward.chain.bytes, pforward.protocol.bytes, pforward.ipaddr.bytes],
      ∀ b ∈ f, b ∈ value.bytes ∧ b ≠ colon := by
  simp only [parsePforward, bind_eq_bind, bind_eq_some_iff, Prod.exists] at parsed
  obtain ⟨name, s₁, found₁, chain, s₂, found₂, protocol, s₃, found₃, eport, s₄, found₄, ipaddr, s₅, found₅,
    iport, s₆, found₆, filled⟩ := parsed
  have sub₁ := (CString.strtok_eq_some found₁).2.2.1
  have sub₂ := List.Subset.trans (CString.strtok_eq_some found₂).2.2.1 sub₁
  have sub₃ := List.Subset.trans (CString.strtok_eq_some found₃).2.2.1 sub₂
  have sub₄ := List.Subset.trans (CString.strtok_eq_some found₄).2.2.1 sub₃
  have token : ∀ {s token rest : CString}, s.bytes ⊆ value.bytes → s.strtok [colon] = some (token, rest) →
      ∀ b ∈ token.bytes, b ∈ value.bytes ∧ b ≠ colon := by
    intro s token rest inside found b member
    refine ⟨inside (CString.strtok_token_subset found member), ?_⟩
    have clean := (CString.strtok_eq_some found).2.1 b member
    simpa using clean
  cases filled
  intro f member b inside
  simp only [mem_cons, not_mem_nil, or_false] at member
  rcases member with rfl | rfl | rfl | rfl
  · exact token (List.Subset.refl _) found₁ b (mem_of_mem_cutTo inside)
  · exact token sub₁ found₂ b (mem_of_mem_cutTo inside)
  · exact token sub₂ found₃ b (mem_of_mem_cutTo inside)
  · exact token sub₄ found₅ b (mem_of_mem_cutTo inside)

theorem makePforwardValue_eq (pforward : PforwardT) : makePforwardValue pforward = joinFields colon pforward.texts ∧
      (makePforwardValue pforward).bytes.length < 120 := by
  have long := joinFields_length (show colon ≠ 0 by decide) pforward.texts
  have name := pforward.name.fits
  have chain := pforward.chain.fits
  have protocol := pforward.protocol.fits
  have ipaddr := pforward.ipaddr.fits
  have eport := formatInt_length pforward.eport
  have iport := formatInt_length pforward.iport
  simp only [PforwardT.texts, map_cons, map_nil, sum_cons, sum_nil] at long
  have whole : makePforwardValue pforward = joinFields colon pforward.texts := by
    refine cutTo_of_fits ?_
    simp only [PforwardT.texts]
    omega
  refine ⟨whole, ?_⟩
  rw [whole]
  simp only [PforwardT.texts]
  omega

/-- The strings of a rule, without the two numbers. -/
structure PforwardT.Clean (pforward : PforwardT) : Prop where
  name : Storable 32 pforward.name.toCString ∧ pforward.name.toCString ≠ CString.empty
  chain : Storable 32 pforward.chain.toCString ∧ pforward.chain.toCString ≠ CString.empty
  protocol : Storable 8 pforward.protocol.toCString ∧ pforward.protocol.toCString ≠ CString.empty
  ipaddr : Storable 16 pforward.ipaddr.toCString ∧ pforward.ipaddr.toCString ≠ CString.empty

theorem PforwardT.Clean.texts (clean : pforward.Clean) :
    ∀ f ∈ pforward.texts, f ≠ CString.empty ∧ ∀ b ∈ [colon, carriageReturn, lf], b ∉ f.bytes := by
  have string : ∀ {cap : Nat} {s : CString}, Storable cap s ∧ s ≠ CString.empty →
      s ≠ CString.empty ∧ ∀ b ∈ [colon, carriageReturn, lf], b ∉ s.bytes := by
    intro cap s ⟨storable, nonempty⟩
    refine ⟨nonempty, fun b special => ?_⟩
    simp only [mem_cons, not_mem_nil, or_false] at special
    rcases special with rfl | rfl | rfl
    · exact storable.noColon
    · exact storable.noCr
    · exact storable.noLf
  have number : ∀ n : Int32, formatInt n ≠ CString.empty ∧
      ∀ b ∈ [colon, carriageReturn, lf], b ∉ (formatInt n).bytes := by
    intro n
    exact ⟨fun empty => formatInt_ne_nil n (congrArg CString.bytes empty),
      fun b special => notMem_formatInt (by revert b; decide) n⟩
  intro f member
  simp only [PforwardT.texts, mem_cons, not_mem_nil, or_false] at member
  rcases member with rfl | rfl | rfl | rfl | rfl | rfl
  · exact string clean.name
  · exact string clean.chain
  · exact string clean.protocol
  · exact number pforward.eport
  · exact string clean.ipaddr
  · exact number pforward.iport

theorem PforwardT.Clean.noLineEnd (clean : pforward.Clean) :
    carriageReturn ∉ (makePforwardValue pforward).bytes ∧ lf ∉ (makePforwardValue pforward).bytes := by
  rw [(makePforwardValue_eq pforward).1]
  refine ⟨notMem_joinFields (by decide) (by decide) ?_, notMem_joinFields (by decide) (by decide) ?_⟩
  · intro f inside
    exact (clean.texts f inside).2 carriageReturn (by simp)
  · intro f inside
    exact (clean.texts f inside).2 lf (by simp)

/-- **The value of a rule is read as that rule.** -/
theorem parsePforward_make (clean : pforward.Clean) : parsePforward (makePforwardValue pforward) = some pforward := by
  have unbroken : ∀ f ∈ pforward.texts, ∀ b ∈ f.bytes, b ∉ [colon] := by
    intro f inside b member isColon
    rw [mem_singleton] at isColon
    exact (clean.texts f inside).2 colon (by simp) (isColon ▸ member)
  have tokens := tokens_joinFields (show colon ≠ 0 by decide) (mem_singleton_self colon) unbroken
  have nonempty : pforward.texts.filter (fun f => decide (f ≠ CString.empty)) = pforward.texts := by
    rw [filter_eq_self]
    intro f inside
    exact decide_eq_true (clean.texts f inside).1
  rw [nonempty, ← (makePforwardValue_eq pforward).1] at tokens
  rw [parsePforward_of_tokens clean.noLineEnd.2 tokens]
  simp only [cutTo_self, atoi_formatInt]

/-! ## Lookup -/

/-- What a lookup finds among the entries of a chain file; `none` if the value does not
fit the buffer. -/
def ruleAt (entries : List Entry) (name : CString) : Option (Int × Option PforwardT) := do
  let value ← strcpy 512 (lookup entries name).2
  if (lookup entries name).1 ≠ 0 then
    match parsePforward value.toCString with
    | some pforward => some (1, some pforward)
    | none => some (0, none)
  else some (0, none)

theorem getPforward_eq (readable : Readable file) (name : CString) :
    getPforward name file = ruleAt (entriesOf file) name := by
  obtain ⟨items, read, entries⟩ := genconfigReadFile_eq_some readable
  have same : items.map Item.entry = entriesOf file := entries
  simp only [getPforward, read, genconfigGetValue_eq, same, bind_eq_bind, bind_some, ruleAt]
  rcases strcpy 512 (lookup (entriesOf file) name).2 with _ | value
  · rfl
  · by_cases present : (lookup (entriesOf file) name).1 = 0
    · simp [present]
    · rcases parsed : parsePforward value.toCString with _ | pforward <;> simp [present, parsed]

theorem readable_of_getPforward {result : Int × Option PforwardT}
    (got : getPforward name file = some result) : Readable file := by
  obtain ⟨items, read, -⟩ := bind_eq_some_iff.1 got
  exact (readable_of_read read).1

variable {ret : Int} {tag : CString}

theorem ruleAt_cases {found : Option PforwardT} (got : ruleAt entries name = some (ret, found)) :
    (ret = 0 ∧ found = none) ∨ ∃ pforward, ret = 1 ∧ found = some pforward := by
  obtain ⟨value, -, got⟩ := bind_eq_some_iff.1 got
  split at got
  · split at got
    · rename_i pforward parsed
      cases got
      exact .inr ⟨pforward, rfl, rfl⟩
    · cases got
      exact .inl ⟨rfl, rfl⟩
  · cases got
    exact .inl ⟨rfl, rfl⟩

theorem lookup_of_ruleAt (got : ruleAt entries name = some (1, some pforward)) :
    (∃ e ∈ entries, e.1 = name) ∧ parsePforward (lookup entries name).2 = some pforward := by
  obtain ⟨value, copied, got⟩ := bind_eq_some_iff.1 got
  have whole : value.toCString = (lookup entries name).2 := by
    unfold strcpy at copied
    split at copied
    · cases copied
      rfl
    · cases copied
  rw [whole] at got
  split at got
  · rename_i present
    split at got
    · rename_i found parsed
      cases got
      refine ⟨?_, parsed⟩
      unfold GenConfig.lookup at present
      split at present
      · rename_i e first
        exact ⟨e, mem_of_find?_eq_some first, by simpa using find?_some first⟩
      · exact absurd rfl present
    · cases got
  · cases got

theorem ruleAt_kept (noComment : ¬ IsComment name) (entries : List Entry) :
    ruleAt (kept entries) name = ruleAt entries name := by
  unfold ruleAt
  rw [lookup_kept noComment]

theorem ruleAt_of_lookup (found : lookup entries name = (1, value)) (short : value.bytes.length < 512)
    (parsed : parsePforward value = some pforward) : ruleAt entries name = some (1, some pforward) := by
  simp [ruleAt, found, strcpy_eq_some short, parsed]

/-! ## The other rules -/

/-- The rules among entries, with the tags they are stored under. -/
def chainRules (entries : List Entry) : List (CString × PforwardT) :=
  entries.filterMap fun e => (parsePforward e.2).map fun pforward => (e.1, pforward)

def otherEntries (name : CString) (entries : List Entry) : List Entry :=
  entries.filter fun e => decide (e.1 ≠ name)

/-- The rules of a chain file that are stored under another name. -/
def otherRules (name : CString) (file : File) : List (CString × PforwardT) :=
  chainRules (otherEntries name (entriesOf file))

theorem mem_chainRules :
    (tag, pforward) ∈ chainRules entries ↔ ∃ value, (tag, value) ∈ entries ∧ parsePforward value = some pforward := by
  simp only [chainRules, mem_filterMap, map_eq_some_iff, Prod.mk.injEq, Prod.exists]
  constructor
  · rintro ⟨tag', value, inside, found, parsed, rfl, rfl⟩
    exact ⟨value, inside, parsed⟩
  · rintro ⟨value, inside, parsed⟩
    exact ⟨tag, value, inside, pforward, parsed, rfl, rfl⟩

/-- Dropping the comments loses the rules whose name starts one. -/
theorem chainRules_kept_iff (entries : List Entry) : chainRules (kept entries) = chainRules entries ↔
      ∀ e ∈ entries, IsComment e.1 → parsePforward e.2 = none := by
  constructor
  · intro same e inside comment
    by_contra isRule
    obtain ⟨pforward, parsed⟩ := ne_none_iff_exists'.1 isRule
    have member := mem_chainRules.2 ⟨e.2, inside, parsed⟩
    rw [← same] at member
    obtain ⟨value, keptIn, -⟩ := mem_chainRules.1 member
    exact (mem_kept.1 keptIn).2 comment
  · intro noRule
    induction entries with
    | nil => rfl
    | cons e rest ih =>
      have ih := ih fun e' inside => noRule e' (mem_cons_of_mem _ inside)
      by_cases comment : IsComment e.1
      · have here := noRule e mem_cons_self comment
        rw [kept_cons, if_pos comment, ih]
        simp [chainRules, here]
      · rw [kept_cons, if_neg comment]
        simp only [chainRules, filterMap_cons] at ih ⊢
        rw [ih]

theorem otherEntries_kept (name : CString) (entries : List Entry) :
    otherEntries name (kept entries) = kept (otherEntries name entries) := filter_kept _ entries

theorem otherEntries_putFirst (name text : CString) (entries : List Entry) :
    otherEntries name (putFirst name text entries) = otherEntries name entries := by
  unfold otherEntries putFirst
  split
  · simp
  · rename_i present
    obtain ⟨e, found⟩ := ne_none_iff_exists'.1 present
    obtain ⟨before, after, whole, isTag, -, updated⟩ := Theory.Table.updateFirst_split found
    rw [updated, whole]
    have same : e.1 = name := by simpa using isTag
    simp [same]

theorem otherEntries_eraseP (name : CString) (entries : List Entry) :
    otherEntries name (entries.eraseP fun e => decide (e.1 = name)) = otherEntries name entries := by
  unfold otherEntries
  induction entries with
  | nil => rfl
  | cons e rest ih =>
    by_cases same : e.1 = name
    · simp [same]
    · rw [eraseP_cons_of_neg (by simpa using same), filter_cons_of_pos (by simpa using same), ih,
        filter_cons_of_pos (by simpa using same)]

/-! ## Removing what was set -/

theorem eraseP_putFirst (tag text : CString) (entries : List Entry) :
    (putFirst tag text entries).eraseP (fun e => decide (e.1 = tag)) = entries.eraseP fun e => decide (e.1 = tag) := by
  unfold putFirst
  split
  · rename_i absent
    have none := find?_eq_none.1 absent
    rw [eraseP_append_right _ none, eraseP_of_forall_not none]
    simp
  · rename_i present
    obtain ⟨e, found⟩ := ne_none_iff_exists'.1 present
    obtain ⟨before, after, whole, isTag, skipped, updated⟩ := Theory.Table.updateFirst_split found
    have none : ∀ b ∈ before, ¬ decide (b.1 = tag) = true := by
      intro b inside
      rw [skipped b inside]
      exact Bool.false_ne_true
    rw [updated, whole, eraseP_append_right _ none, eraseP_append_right _ none]
    simp only [eraseP_cons, isTag, cond_true]

theorem eraseP_kept (noComment : ¬ IsComment tag) (entries : List Entry) :
    (kept entries).eraseP (fun e => decide (e.1 = tag)) = kept (entries.eraseP fun e => decide (e.1 = tag)) := by
  induction entries with
  | nil => rfl
  | cons e rest ih =>
    by_cases same : e.1 = tag
    · rw [kept_cons, if_neg (same ▸ noComment), eraseP_cons_of_pos (by simpa using same),
        eraseP_cons_of_pos (by simpa using same)]
    · rw [eraseP_cons_of_neg (by simpa using same), kept_cons, kept_cons]
      by_cases comment : IsComment e.1
      · rw [if_pos comment, if_pos comment, ih]
      · rw [if_neg comment, if_neg comment, eraseP_cons_of_neg (by simpa using same), ih]

/-! ## Creating -/

/-- The strings that a rule can be created with. -/
structure PlainStrings (chain name protocol ipaddr : CString) : Prop where
  isTag : equals ∉ name.bytes ∧ ¬ IsComment name
  name : Storable 32 name
  chain : Storable 32 chain
  protocol : Storable 8 protocol
  ipaddr : Storable 16 ipaddr

structure Given (chain name protocol ipaddr : CString) : Prop where
  chain : chain ≠ CString.empty
  name : name ≠ CString.empty
  protocol : protocol ≠ CString.empty
  ipaddr : ipaddr ≠ CString.empty

section

variable {chain name protocol ipaddr : CString} {eport iport : Int32} {file file₁ : File}

theorem newPforward_clean (given : Given chain name protocol ipaddr) (plain : PlainStrings chain name protocol ipaddr) :
    (newPforward chain name protocol eport ipaddr iport).Clean := by
  have field : ∀ {cap : Nat} [NeZero cap] {s : CString}, Storable cap s → s ≠ CString.empty →
      Storable cap (cutTo cap s).toCString ∧ (cutTo cap s).toCString ≠ CString.empty := by
    intro cap _ s storable nonempty
    rw [cutTo_of_fits storable.fits]
    exact ⟨storable, nonempty⟩
  exact ⟨field plain.name given.name, field plain.chain given.chain, field plain.protocol given.protocol,
    field plain.ipaddr given.ipaddr⟩

theorem setPforward_new : setPforward name (newPforward chain name protocol eport ipaddr iport) =
      iconfigSetValueDirect (cutTo 32 name).toCString
        (some (makePforwardValue (newPforward chain name protocol eport ipaddr iport))) := rfl

theorem create_cases (created : createPforward chain name protocol eport ipaddr iport file = some (1, file₁)) :
    Readable file ∧ ruleAt (entriesOf file) name = some (0, none) ∧
      fileAfter (setPforward name (newPforward chain name protocol eport ipaddr iport)) file = some file₁ := by
  obtain ⟨⟨ret, found⟩, got, created⟩ := bind_eq_some_iff.1 created
  have readable := readable_of_getPforward got
  rw [getPforward_eq readable] at got
  rcases ruleAt_cases got with ⟨rfl, rfl⟩ | ⟨pforward, rfl, rfl⟩
  · obtain ⟨file', set, same⟩ := bind_eq_some_iff.1 created
    cases same
    exact ⟨readable, got, set⟩
  · cases created

theorem create_entries (created : createPforward chain name protocol eport ipaddr iport file = some (1, file₁))
    (nonempty : name ≠ CString.empty) (fits : name.bytes.length < 32) (noEquals : equals ∉ name.bytes)
    (noLf : lf ∉ name.bytes) : Readable file₁ ∧ entriesOf file₁ = kept (putFirst name
      (cutLine (makePforwardValue (newPforward chain name protocol eport ipaddr iport))) (entriesOf file)) := by
  obtain ⟨readable, -, set⟩ := create_cases created
  have short := (makePforwardValue_eq (newPforward chain name protocol eport ipaddr iport)).2
  have cut : ∀ s : CString, (cutLine s).bytes.length ≤ s.bytes.length := fun s =>
    ((takeWhile_sublist _).trans (takeWhile_sublist _)).length_le
  have oneLine := cut (makePforwardValue (newPforward chain name protocol eport ipaddr iport))
  have plain : Plain (name, cutLine (makePforwardValue (newPforward chain name protocol eport ipaddr iport))) := by
    refine ⟨fun none => nonempty (CString.ext none), noEquals, noLf, lf_notMem_cutLine _, ?_⟩
    rw [body_length]
    simp only [bufferLen]
    omega
  obtain ⟨file', direct, entries, readable'⟩ := setValue_entries readable (fits.trans (by decide)) plain
  have tag := cutTo_of_fits fits
  rw [setPforward_new, tag, fileAfter_written direct] at set
  cases set
  exact ⟨readable', entries⟩

/-- **A rule with plain strings is found.** -/
theorem create_found (given : Given chain name protocol ipaddr) (plain : PlainStrings chain name protocol ipaddr)
    (created : createPforward chain name protocol eport ipaddr iport file = some (1, file₁)) :
    Readable file₁ ∧ entriesOf file₁ = kept (putFirst name
        (makePforwardValue (newPforward chain name protocol eport ipaddr iport)) (entriesOf file)) ∧
      getPforward name file₁ = some (1, some (newPforward chain name protocol eport ipaddr iport)) := by
  have clean : (newPforward chain name protocol eport ipaddr iport).Clean := newPforward_clean given plain
  obtain ⟨readable, entries⟩ := create_entries created given.name plain.name.fits plain.isTag.1 plain.name.noLf
  rw [cutLine_of_clean clean.noLineEnd.1 clean.noLineEnd.2] at entries
  refine ⟨readable, entries, ?_⟩
  have short := (makePforwardValue_eq (newPforward chain name protocol eport ipaddr iport)).2
  rw [getPforward_eq readable, entries, ruleAt_kept plain.isTag.2]
  exact ruleAt_of_lookup (lookup_putFirst_self _) (by omega) (parsePforward_make clean)

/-- The fields of a rule are the strings and the numbers it was asked for. -/
structure PforwardT.Is (pforward : PforwardT) (chain name protocol : CString) (eport : Int32) (ipaddr : CString)
    (iport : Int32) : Prop where
  name : pforward.name.toCString = name
  chain : pforward.chain.toCString = chain
  protocol : pforward.protocol.toCString = protocol
  eport : pforward.eport = eport
  ipaddr : pforward.ipaddr.toCString = ipaddr
  iport : pforward.iport = iport

theorem newPforward_is (plain : PlainStrings chain name protocol ipaddr) :
    (newPforward chain name protocol eport ipaddr iport).Is chain name protocol eport ipaddr iport :=
  ⟨cutTo_of_fits plain.name.fits, cutTo_of_fits plain.chain.fits, cutTo_of_fits plain.protocol.fits, rfl,
    cutTo_of_fits plain.ipaddr.fits, rfl⟩

/-- **Only plain strings are found** as they were asked for. -/
theorem plain_of_found (nonempty : name ≠ CString.empty)
    (created : createPforward chain name protocol eport ipaddr iport file = some (1, file₁))
    {pforward : PforwardT} (found : getPforward name file₁ = some (1, some pforward))
    (same : pforward.Is chain name protocol eport ipaddr iport) : PlainStrings chain name protocol ipaddr := by
  have readable := readable_of_getPforward found
  rw [getPforward_eq readable] at found
  obtain ⟨⟨e, inside, tag⟩, parsed⟩ := lookup_of_ruleAt found
  -- The name is a tag of the file, so it is one that can be written.
  have tagPlain := plain_of_readable readable e inside
  have noEquals : equals ∉ name.bytes := tag ▸ tagPlain.noEquals
  have noLf : lf ∉ name.bytes := tag ▸ tagPlain.noLf
  have fits : name.bytes.length < 32 := same.name ▸ pforward.name.fits
  obtain ⟨-, entries⟩ := create_entries created nonempty fits noEquals noLf
  have noComment : ¬ IsComment name := by
    rw [entries] at inside
    exact tag ▸ (mem_kept.1 inside).2
  rw [entries, lookup_kept noComment, lookup_putFirst_self] at parsed
  -- The value was cut at the first line end, so no field has one.
  have strings := parsePforward_strings parsed
  have storable : ∀ {cap : Nat} {s : CharArray cap}, s.bytes ∈ [pforward.name.bytes, pforward.chain.bytes,
      pforward.protocol.bytes, pforward.ipaddr.bytes] → Storable cap s.toCString := by
    intro cap s member
    have bytes := strings s.bytes member
    refine ⟨s.fits, fun isColon => (bytes colon isColon).2 rfl, fun isCr => ?_, fun isLf => ?_⟩
    · exact carriageReturn_notMem_cutLine _ (bytes carriageReturn isCr).1
    · exact lf_notMem_cutLine _ (bytes lf isLf).1
  exact ⟨⟨noEquals, noComment⟩, same.name ▸ storable (by simp), same.chain ▸ storable (by simp),
    same.protocol ▸ storable (by simp), same.ipaddr ▸ storable (by simp)⟩

end

/-! ## Removing -/

def withoutFirst (name : CString) (file : File) : List Entry :=
  (entriesOf file).eraseP fun e => decide (e.1 = name)

/-- **A rule that is found is removed**, if reading what is left is defined. -/
theorem removePforward_found (found : getPforward name file = some (1, some pforward)) :
    ∃ file', Readable file' ∧ entriesOf file' = kept (withoutFirst name file) ∧
      ∀ headNull, removePforward headNull name file =
        if headNull = true ∨ kept (withoutFirst name file) = [] then some (1, file') else none := by
  have readable := readable_of_getPforward found
  have present := (lookup_of_ruleAt (getPforward_eq readable name ▸ found)).1
  obtain ⟨contents, removed, entries, readable'⟩ := removeItem_entries readable present
  have unfolded : ∀ headNull, removePforward headNull name file =
      (isEmptied headNull (some contents)).bind fun emptied =>
        some (1, if emptied then none else some contents) := by
    intro headNull
    simp only [removePforward, found, fileAfter_written removed]
    rfl
  have whole : parse contents = kept (withoutFirst name file) := entries
  by_cases emptied : kept (withoutFirst name file) = []
  · refine ⟨none, by simp [Readable, entriesOf_none], by rw [emptied, entriesOf_none], fun headNull => ?_⟩
    rw [unfolded, isEmptied, whole, if_pos emptied, if_pos (.inr emptied)]
    rfl
  · obtain ⟨items, read, -⟩ := genconfigReadFile_eq_some readable'
    refine ⟨some contents, readable', entries, fun headNull => ?_⟩
    rw [unfolded, isEmptied, whole, if_neg emptied, read]
    cases headNull with
    | true => rfl
    | false => simp [emptied]

/-- The rule is found with its fields, cannot be created again, and can be removed; the other rules
stay. -/
structure RoundTrips (headNull : Bool) (chain name protocol : CString) (eport : Int32) (ipaddr : CString)
    (iport : Int32) (file file₁ : File) : Prop where
  found : ∃ pforward, getPforward name file₁ = some (1, some pforward) ∧
    pforward.Is chain name protocol eport ipaddr iport
  again : ∀ protocol' eport' ipaddr' iport',
    createPforward chain name protocol' eport' ipaddr' iport' file₁ = some (-1, file₁)
  others : otherRules name file₁ = otherRules name file
  removed : ∃ file₂, removePforward headNull name file₁ = some (1, file₂) ∧
    getPforward name file₂ = some (0, none) ∧ otherRules name file₂ = otherRules name file

/-- What is needed for it. -/
structure Sound (headNull : Bool) (chain name protocol ipaddr : CString) (file : File) : Prop where
  strings : PlainStrings chain name protocol ipaddr
  others : ∀ e ∈ entriesOf file, IsComment e.1 → parsePforward e.2 = none
  second : ruleAt (withoutFirst name file) name = some (0, none)
  defined : headNull = true ∨ kept (withoutFirst name file) = []

theorem otherRules_eq_iff {file' : File} (noComment : ¬ IsComment name)
    (same : otherEntries name (entriesOf file') = kept (otherEntries name (entriesOf file))) :
    otherRules name file' = otherRules name file ↔ ∀ e ∈ entriesOf file, IsComment e.1 → parsePforward e.2 = none := by
  rw [otherRules, otherRules, same, chainRules_kept_iff]
  constructor
  · intro noRule e inside comment
    have different : e.1 ≠ name := fun isName => noComment (isName ▸ comment)
    exact noRule e (mem_filter.2 ⟨inside, decide_eq_true different⟩) comment
  · intro noRule e inside comment
    exact noRule e (mem_filter.1 inside).1 comment

/-- **A rule that was created round-trips** exactly when its strings are plain, no other rule has a
name that starts a comment, a second item of the name is no rule, and `remove_pforward` is left with
no items or happens to find the head NULL. -/
theorem pforward_round_trip_iff (headNull : Bool) (chain name protocol : CString) (eport : Int32) (ipaddr : CString)
    (iport : Int32) (file file₁ : File) (given : Given chain name protocol ipaddr)
    (created : createPforward chain name protocol eport ipaddr iport file = some (1, file₁)) :
    RoundTrips headNull chain name protocol eport ipaddr iport file file₁ ↔
      Sound headNull chain name protocol ipaddr file := by
  have plain_cases : RoundTrips headNull chain name protocol eport ipaddr iport file file₁ →
      PlainStrings chain name protocol ipaddr := by
    rintro ⟨⟨pforward, found, same⟩, -, -, -⟩
    exact plain_of_found given.name created found same
  by_cases plain : PlainStrings chain name protocol ipaddr
  · obtain ⟨readable₁, entries₁, found⟩ := create_found given plain created
    have noComment := plain.isTag.2
    have same₁ : otherEntries name (entriesOf file₁) = kept (otherEntries name (entriesOf file)) := by
      rw [entries₁, otherEntries_kept, otherEntries_putFirst]
    have others₁ := otherRules_eq_iff noComment same₁
    have left : kept (withoutFirst name file₁) = kept (withoutFirst name file) := by
      rw [withoutFirst, withoutFirst, entries₁, eraseP_kept noComment, eraseP_putFirst, kept_kept]
    obtain ⟨file₂, readable₂, entries₂, removed⟩ := removePforward_found found
    rw [left] at entries₂ removed
    have same₂ : otherEntries name (entriesOf file₂) = kept (otherEntries name (entriesOf file)) := by
      rw [entries₂, otherEntries_kept, withoutFirst, otherEntries_eraseP]
    have others₂ := otherRules_eq_iff noComment same₂
    have gone : getPforward name file₂ = ruleAt (withoutFirst name file) name := by
      rw [getPforward_eq readable₂, entries₂, ruleAt_kept noComment]
    constructor
    · rintro ⟨-, -, others, file₂', removed', got, -⟩
      rw [removed headNull] at removed'
      split at removed'
      · rename_i defined
        cases removed'
        exact ⟨plain, others₁.1 others, gone ▸ got, defined⟩
      · cases removed'
    · rintro ⟨-, others, second, defined⟩
      refine ⟨⟨_, found, newPforward_is plain⟩, ?_, others₁.2 others, file₂, ?_, gone.trans second, others₂.2 others⟩
      · intro protocol' eport' ipaddr' iport'
        simp only [createPforward, found]
        rfl
      · rw [removed headNull, if_pos defined]
  · exact ⟨fun trips => absurd (plain_cases trips) plain, fun sound => absurd sound.strings plain⟩

namespace Sample

def text (chars : List Char) : CString := CString.ofBuffer (ascii chars)

def lan : CString := text ['l', 'a', 'n']

def web : CString := text ['w', 'e', 'b']

def longName : CString := text (List.replicate 32 'a')

def tcp : CString := text ['t', 'c', 'p']

def host : CString := text ['1', '0', '.', '0', '.', '0', '.', '2']

theorem file_of_return {call : Option (Int × File)} (returned : call.map Prod.fst = some ret) :
    ∃ file, call = some (ret, file) := by
  obtain ⟨⟨ret', file⟩, called, rfl⟩ := map_eq_some_iff.1 returned
  exact ⟨file, called⟩

end Sample

open Sample

theorem pforward_round_trip_sample : ∃ file₁, createPforward lan web tcp 80 host 8080 none = some (1, file₁) ∧
      RoundTrips false lan web tcp 80 host 8080 none file₁ := by
  have given : Given lan web tcp host := ⟨by decide, by decide, by decide, by decide⟩
  have storable : Storable 32 lan ∧ Storable 32 web ∧ Storable 8 tcp ∧ Storable 16 host := by
    refine ⟨?_, ?_, ?_, ?_⟩ <;> exact ⟨by decide, by decide, by decide, by decide⟩
  obtain ⟨chain, name, protocol, ipaddr⟩ := storable
  have sound : Sound false lan web tcp host none :=
    ⟨⟨by decide, name, chain, protocol, ipaddr⟩, by simp [entriesOf_none], by decide, .inr (by decide)⟩
  obtain ⟨file₁, created⟩ : ∃ file₁, createPforward lan web tcp 80 host 8080 none = some (1, file₁) :=
    file_of_return (by decide)
  exact ⟨file₁, created, (pforward_round_trip_iff false lan web tcp 80 host 8080 none file₁ given created).2 sound⟩

/-- A name of 32 bytes is stored under its first 31 and looked up with all of them. -/
theorem pforward_long_name_not_found : Given lan longName tcp host ∧
      ∃ file₁, createPforward lan longName tcp 80 host 8080 none = some (1, file₁) ∧
        ¬ RoundTrips true lan longName tcp 80 host 8080 none file₁ := by
  refine ⟨⟨by decide, by decide, by decide, by decide⟩, ?_⟩
  obtain ⟨file₁, created⟩ : ∃ file₁, createPforward lan longName tcp 80 host 8080 none = some (1, file₁) :=
    file_of_return (by decide)
  have missing : (createPforward lan longName tcp 80 host 8080 none).bind
      (fun result => getPforward longName result.2) = some (0, none) := by decide
  rw [created] at missing
  refine ⟨file₁, created, ?_⟩
  rintro ⟨⟨pforward, found, -⟩, -, -, -⟩
  cases found.symm.trans missing

end RouterApps.Pforward
