/-
# CLib.Fields -- fields joined by a separator and taken apart by `strtok`

`joinFields` is what a format such as `"%s,%s,%s"` prints.  For `strtok` an empty field is no token
(`tokens_joinFields`), so from the first empty field on the caller gets every field one place too
early.  A caller that copies each token to its variable ends up with `fill tokens olds`, and
`fill_eq_iff` says when that gives the fields back.

`wordList` is what a tokenizer with one separator finds in a text.
-/
import RouterApps.CLib.Stream

namespace RouterApps.CLib

open List

/-! ## Printing fields -/

/-- The fields with a separator between them. -/
def joinFields (sep : UInt8) (fields : List CString) : CString :=
  CString.ofBuffer ([sep].intercalate (fields.map (·.bytes)))

variable {fields : List CString} {sep : UInt8} {b : UInt8}

theorem notMem_intercalate (ne : b ≠ sep)
    (absent : ∀ f ∈ fields, b ∉ f.bytes) : b ∉ [sep].intercalate (fields.map (·.bytes)) := by
  induction fields with
  | nil => simp
  | cons f rest ih =>
    have ih := ih fun f inside => absent f (mem_cons_of_mem _ inside)
    have here := absent f mem_cons_self
    cases rest with
    | nil => simpa using here
    | cons f' rest =>
      simp only [map_cons, intercalate_cons_cons, mem_append, not_or] at ih ⊢
      exact ⟨⟨here, by simpa using ne⟩, ih⟩

section

variable (printable : sep ≠ 0)

include printable

theorem joinFields_bytes (fields : List CString) :
    (joinFields sep fields).bytes = [sep].intercalate (fields.map (·.bytes)) :=
  CString.ofBuffer_of_nulFree (notMem_intercalate printable.symm fun f _ => f.nulFree)

theorem notMem_joinFields (ne : b ≠ sep)
    (absent : ∀ f ∈ fields, b ∉ f.bytes) : b ∉ (joinFields sep fields).bytes := by
  rw [joinFields_bytes printable]
  exact notMem_intercalate ne absent

theorem joinFields_length (fields : List CString) :
    (joinFields sep fields).bytes.length ≤ (fields.map fun f => f.bytes.length + 1).sum := by
  rw [joinFields_bytes printable]
  induction fields with
  | nil => simp
  | cons f rest ih =>
    cases rest with
    | nil => simp
    | cons f' rest =>
      simp only [map_cons, intercalate_cons_cons, length_append, length_cons, length_nil, sum_cons] at ih ⊢
      omega

theorem joinFields_cons_bytes (f f' : CString) (fields : List CString) :
    (joinFields sep (f :: f' :: fields)).bytes = f.bytes ++ sep :: (joinFields sep (f' :: fields)).bytes := by
  rw [joinFields_bytes printable, joinFields_bytes printable]
  simp

end

/-! ## Taking them apart -/

/-- A call of `strtok`: the token, or NULL, and the string the next call goes on with. -/
def nextToken (delims : List UInt8) (s : CString) : Option CString × CString :=
  match s.strtok delims with
  | some (token, rest) => (some token, rest)
  | none => (none, CString.empty)

/-- The tokens that repeated calls find in a string. -/
inductive Tokens (delims : List UInt8) : CString → List CString → Prop
  | done {s : CString} (ended : s.strtok delims = none) : Tokens delims s []
  | next {s token rest : CString} {tokens : List CString}
      (found : s.strtok delims = some (token, rest)) (left : Tokens delims rest tokens) :
      Tokens delims s (token :: tokens)

section

variable {delims : List UInt8} {s : CString} {tokens : List CString}

theorem Tokens.nextToken_eq (all : Tokens delims s tokens) :
    (nextToken delims s).1 = tokens.head? ∧ Tokens delims (nextToken delims s).2 tokens.tail := by
  cases all with
  | done ended =>
    simp only [nextToken, ended]
    exact ⟨rfl, .done (CString.strtok_eq_none (by simp [CString.empty]))⟩
  | next found left =>
    simp only [nextToken, found]
    exact ⟨rfl, left⟩

theorem Tokens.of_strtok_eq {s' : CString} (same : s'.strtok delims = s.strtok delims)
    (all : Tokens delims s tokens) : Tokens delims s' tokens := by
  cases all with
  | done ended => exact .done (same.trans ended)
  | next found left => exact .next (same.trans found) left

theorem Tokens.unique (all : Tokens delims s tokens) {tokens' : List CString}
    (all' : Tokens delims s tokens') : tokens = tokens' := by
  induction all generalizing tokens' with
  | done ended =>
    cases all' with
    | done _ => rfl
    | next found _ => cases ended.symm.trans found
  | next found left ih =>
    cases all' with
    | done ended => cases ended.symm.trans found
    | next found' left' =>
      cases found.symm.trans found'
      rw [ih left']

theorem tokens_joinFields (printable : sep ≠ 0) (delim : sep ∈ delims)
    (clean : ∀ f ∈ fields, ∀ b ∈ f.bytes, b ∉ delims) :
    Tokens delims (joinFields sep fields) (fields.filter fun f => decide (f ≠ CString.empty)) := by
  induction fields with
  | nil => exact .done (CString.strtok_eq_none (by simp [joinFields_bytes printable]))
  | cons f rest ih =>
    have ih := ih fun f inside => clean f (mem_cons_of_mem _ inside)
    have cleanHead := clean f mem_cons_self
    by_cases empty : f = CString.empty
    · subst empty
      cases rest with
      | nil => exact .done (CString.strtok_eq_none (by simp [joinFields_bytes printable, CString.empty]))
      | cons f' rest =>
        -- the separator behind the empty field is skipped
        exact ih.of_strtok_eq (CString.strtok_cons delim (joinFields_cons_bytes printable CString.empty f' rest))
    · rw [filter_cons_of_pos (by simpa using empty)]
      have nonempty : f.bytes ≠ [] := fun none => empty (CString.ext none)
      cases rest with
      | nil =>
        have whole : joinFields sep [f] = f := CString.ext (by simp [joinFields_bytes printable])
        rw [whole]
        exact .next (CString.strtok_self nonempty cleanHead) (.done (CString.strtok_eq_none (by simp [CString.empty])))
      | cons f' rest =>
        exact .next (CString.strtok_append nonempty cleanHead delim (joinFields_cons_bytes printable f f' rest)) ih

end

/-! ## Variables that are set only when there is a token -/

section

variable {α : Type}

/-- The variables after the tokens were assigned in order. -/
def fill : List α → List α → List α
  | _, [] => []
  | tokens, old :: olds => tokens.head?.getD old :: fill tokens.tail olds

theorem fill_nil (olds : List α) : fill [] olds = olds := by
  induction olds with
  | nil => rfl
  | cons old olds ih => simp [fill, ih]

variable [DecidableEq α] {empty : α}

/-- Only empty fields follow an empty one, and their variables were empty. -/
theorem fill_eq_iff {fields olds : List α} (same : fields.length = olds.length) :
    fill (fields.filter fun f => decide (f ≠ empty)) olds = fields ↔
      fields.Pairwise (fun f f' => f = empty → f' = empty) ∧
        List.Forall₂ (fun f old => f = empty → old = empty) fields olds := by
  induction fields generalizing olds with
  | nil =>
    cases olds with
    | nil => simp [fill]
    | cons => cases same
  | cons f fields ih =>
    cases olds with
    | nil => cases same
    | cons old olds =>
      have same : fields.length = olds.length := by simpa using same
      rw [pairwise_cons, forall₂_cons]
      by_cases none : f = empty
      · subst none
        rw [filter_cons_of_neg (by simp)]
        constructor
        · intro filled
          -- a token would have gone to the first variable, and no token is empty
          have noToken : fields.filter (fun f' => decide (f' ≠ f)) = [] := by
            by_contra some
            obtain ⟨t, ts, cons⟩ := exists_cons_of_ne_nil some
            rw [cons] at filled
            have first : t = f := (List.cons.inj filled).1
            have member : t ∈ fields.filter (fun f' => decide (f' ≠ f)) := by
              rw [cons]
              exact mem_cons_self
            exact absurd first (by simpa using (mem_filter.1 member).2)
          rw [noToken, fill_nil] at filled
          obtain ⟨rfl, rfl⟩ := List.cons.inj filled
          obtain ⟨pairs, rest⟩ := (ih rfl).1 (by rw [noToken, fill_nil])
          have allEmpty : ∀ f' ∈ olds, f' = old := by simpa using noToken
          exact ⟨⟨fun f' inside _ => allEmpty f' inside, pairs⟩, fun _ => rfl, rest⟩
        · rintro ⟨⟨after, pairs⟩, here, rest⟩
          have noToken : fields.filter (fun f' => decide (f' ≠ f)) = [] := by
            simpa using fun f' inside => after f' inside rfl
          have kept := (ih same).2 ⟨pairs, rest⟩
          rw [noToken, fill_nil] at kept ⊢
          rw [here rfl, kept]
      · rw [filter_cons_of_pos (by simpa using none)]
        have vacuous : (∀ f' ∈ fields, f = empty → f' = empty) ∧ (f = empty → old = empty) :=
          ⟨fun _ _ absurd => (none absurd).elim, fun absurd => (none absurd).elim⟩
        simp only [fill, head?_cons, Option.getD_some, tail_cons, List.cons.injEq, true_and, ih same]
        exact ⟨fun ⟨pairs, olds⟩ => ⟨⟨vacuous.1, pairs⟩, vacuous.2, olds⟩, fun ⟨⟨_, pairs⟩, _, olds⟩ => ⟨pairs, olds⟩⟩

end

/-! ## Words -/

/-- The parts of a text between separators that are not empty. -/
def wordList (sep : UInt8) (text : List UInt8) : List (List UInt8) :=
  (text.splitOnP (· == sep)).filter (· ≠ [])

theorem head_of_dropWhile {α : Type} {p : α → Bool} {l rest : List α} {a : α} (left : l.dropWhile p = a :: rest) :
    p a = false := by
  have some_ : l.dropWhile p ≠ [] := by
    rw [left]
    exact cons_ne_nil _ _
  have stops := head_dropWhile_not p some_
  simpa [left] using stops

section

variable {word : List UInt8}

theorem wordList_append (nonempty : word ≠ []) (absent : sep ∉ word) (rest : List UInt8) :
    wordList sep (word ++ sep :: rest) = word :: wordList sep rest := by
  have first : (word ++ sep :: rest).splitOnP (· == sep) = word :: rest.splitOnP (· == sep) :=
    splitOnP_append_cons_of_forall_mem
      (fun b inside => by simpa using fun same : b = sep => absent (same ▸ inside)) sep (by simp) rest
  simp [wordList, first, nonempty]

theorem wordList_of_word (nonempty : word ≠ []) (absent : sep ∉ word) : wordList sep word = [word] := by
  have alone : word.splitOnP (· == sep) = [word] :=
    splitOnP_eq_singleton fun b inside => by simpa using fun same : b = sep => absent (same ▸ inside)
  simp [wordList, alone, nonempty]

theorem wordList_dropWhile (sep : UInt8) (text : List UInt8) :
    wordList sep (text.dropWhile (· == sep)) = wordList sep text := by
  induction text with
  | nil => rfl
  | cons b rest ih =>
    by_cases same : b = sep
    · subst same
      have skipped : wordList b (b :: rest) = wordList b rest := by
        simp [wordList, splitOnP_cons_eq_if_modifyHead]
      rw [dropWhile_cons_of_pos (by simp), ih, skipped]
    · rw [dropWhile_cons_of_neg (by simpa using same)]

theorem wordList_eq_cons {rest : List UInt8} (other : b ≠ sep) :
    wordList sep (b :: rest) = (b :: rest).takeWhile (· != sep) ::
      wordList sep ((b :: rest).dropWhile (· != sep)).tail := by
  have parts := takeWhile_append_dropWhile (p := (· != sep)) (l := b :: rest)
  have nonempty : (b :: rest).takeWhile (· != sep) ≠ [] := by
    rw [takeWhile_cons_of_pos (by simpa using other)]
    exact cons_ne_nil _ _
  have absent : sep ∉ (b :: rest).takeWhile (· != sep) := fun inside => by
    simpa using mem_takeWhile_imp inside
  generalize (b :: rest).takeWhile (· != sep) = word at parts nonempty absent ⊢
  cases left : (b :: rest).dropWhile (· != sep) with
  | nil =>
    rw [left, append_nil] at parts
    rw [← parts, wordList_of_word nonempty absent]
    rfl
  | cons d behind =>
    have ended : d = sep := by simpa using head_of_dropWhile left
    rw [left, ended] at parts
    rw [← parts, wordList_append nonempty absent]
    rfl

end

end RouterApps.CLib
