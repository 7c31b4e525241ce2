/-
# Theory.Search -- trying candidates until an attempt succeeds

A search tries its candidates in order and stops at the first attempt that succeeds.  A failed
attempt may change the state that the next ones look at.  What is known is an invariant of failed
attempts: the attempt that succeeded was made in a state that meets it (`firstSuccess_eq_some`), and
so was every attempt of a search without success (`firstSuccess_eq_none`).

`countUp` is the search as a loop that counts up in 32 bits; it ends unless its last candidate is
the greatest number there is (`countUp_eq`).  A loop over a list that counts the elements, and goes
on as long as they are good, ends behind the list or at the first one that is not (`loop_cases`).
-/
import Mathlib

namespace RouterApps.Theory.Search

open List

/-! ## First success -/

section

variable {α σ : Type}

/-- The first candidate whose attempt succeeds, and the state afterwards. -/
def firstSuccess (attempt : α → σ → Bool × σ) : List α → σ → Option α × σ
  | [], s => (none, s)
  | a :: rest, s =>
    match attempt a s with
    | (true, s) => (some a, s)
    | (false, s) => firstSuccess attempt rest s

variable {attempt : α → σ → Bool × σ} {I : σ → Prop}

variable {s s' : σ} {l : List α}

theorem firstSuccess_append_of_none {before after : List α} (missed : firstSuccess attempt before s = (none, s')) :
    firstSuccess attempt (before ++ after) s = firstSuccess attempt after s' := by
  induction before generalizing s with
  | nil => cases missed; rfl
  | cons a rest ih =>
    simp only [cons_append, firstSuccess] at missed ⊢
    split at missed
    · cases missed
    · exact ih missed

theorem firstSuccess_append_of_some {before after : List α} {a : α}
    (found : firstSuccess attempt before s = (some a, s')) :
    firstSuccess attempt (before ++ after) s = (some a, s') := by
  induction before generalizing s with
  | nil => cases found
  | cons b rest ih =>
    simp only [cons_append, firstSuccess] at found ⊢
    split at found
    · exact found
    · exact ih found

theorem firstSuccess_eq_some (kept : ∀ a s, I s → (attempt a s).1 = false → I (attempt a s).2)
    {a : α} (start : I s) (found : firstSuccess attempt l s = (some a, s')) :
    a ∈ l ∧ ∃ before, I before ∧ attempt a before = (true, s') := by
  induction l generalizing s with
  | nil => cases found
  | cons b rest ih =>
    simp only [firstSuccess] at found
    split at found
    · rename_i tried
      cases found
      exact ⟨mem_cons_self, s, start, tried⟩
    · rename_i next tried
      have preserved := kept b s start (by rw [tried])
      rw [tried] at preserved
      obtain ⟨inside, before, holds, succeeded⟩ := ih preserved found
      exact ⟨mem_cons_of_mem _ inside, before, holds, succeeded⟩

theorem firstSuccess_eq_none (kept : ∀ a s, I s → (attempt a s).1 = false → I (attempt a s).2)
    (start : I s) (missed : (firstSuccess attempt l s).1 = none) :
    ∀ a ∈ l, ∃ before, I before ∧ (attempt a before).1 = false := by
  induction l generalizing s with
  | nil => intro a inside; cases inside
  | cons b rest ih =>
    simp only [firstSuccess] at missed
    split at missed
    · cases missed
    · rename_i next tried
      have preserved := kept b s start (by rw [tried])
      rw [tried] at preserved
      intro a inside
      rcases mem_cons.1 inside with rfl | inside
      · exact ⟨s, start, by rw [tried]⟩
      · exact ih preserved missed a inside

theorem firstSuccess_of_fails (kept : ∀ a ∈ l, ∀ s, I s → (attempt a s).1 = false ∧ I (attempt a s).2)
    (start : I s) : (firstSuccess attempt l s).1 = none := by
  induction l generalizing s with
  | nil => rfl
  | cons b rest ih =>
    obtain ⟨failed, preserved⟩ := kept b mem_cons_self s start
    simp only [firstSuccess]
    split
    · rename_i tried
      rw [tried] at failed
      cases failed
    · rename_i tried
      rw [tried] at preserved
      exact ih (fun a inside => kept a (mem_cons_of_mem _ inside)) preserved

theorem firstSuccess_map {β : Type} (f : β → α) (l : List β) (s : σ) : firstSuccess attempt (l.map f) s =
      ((firstSuccess (fun b => attempt (f b)) l s).1.map f, (firstSuccess (fun b => attempt (f b)) l s).2) := by
  induction l generalizing s with
  | nil => rfl
  | cons b rest ih =>
    simp only [map_cons, firstSuccess]
    rcases attempt (f b) s with ⟨_ | _, later⟩
    · exact ih later
    · rfl

end

/-! ## The first failure -/

section

variable {α β : Type}

/-- The element at `i` is good where a loop meets it that counts from `n` on. -/
def GoodAt (good : α → Nat → Prop) (l : List α) (n i : Nat) : Prop := ∀ a ∈ l[i]?, good a (n + i)

section

variable {good : α → Nat → Prop} {a : α} {rest : List α} {n : Nat}

theorem goodAt_zero : GoodAt good (a :: rest) n 0 ↔ good a n := by simp [GoodAt]

theorem goodAt_succ (i : Nat) : GoodAt good (a :: rest) n (i + 1) ↔ GoodAt good rest (n + 1) i := by
  simp only [GoodAt, getElem?_cons_succ, Nat.add_assoc, Nat.add_comm 1 i]

theorem goodAt_cons (first : good a n) {i : Nat} (behind : ∀ k < i, GoodAt good rest (n + 1) k) :
    ∀ k < i + 1, GoodAt good (a :: rest) n k := by
  intro k inside
  cases k with
  | zero => exact goodAt_zero.2 first
  | succ k => exact (goodAt_succ k).2 (behind k (Nat.lt_of_succ_lt_succ inside))

end

/-- The loop runs to the end of the list, or stops at the first element that is not good. -/
theorem loop_cases (good : α → Nat → Prop) [∀ a n, Decidable (good a n)] (loop : List α → Nat → β)
    (finish stop : Nat → β) (ends : ∀ n, loop [] n = finish n)
    (turn : ∀ a rest n, loop (a :: rest) n = if good a n then loop rest (n + 1) else stop n) (l : List α) (n : Nat) :
    (loop l n = finish (n + l.length) ∧ ∀ i < l.length, GoodAt good l n i) ∨
      ∃ i < l.length, loop l n = stop (n + i) ∧ ¬ GoodAt good l n i ∧ ∀ k < i, GoodAt good l n k := by
  induction l generalizing n with
  | nil => exact .inl ⟨ends n, fun i inside => absurd inside (Nat.not_lt_zero i)⟩
  | cons a rest ih =>
    by_cases first : good a n
    · have goesOn := (turn a rest n).trans (if_pos first)
      rcases ih (n + 1) with ⟨ran, all⟩ | ⟨i, inside, stopped, fails, earlier⟩
      · refine .inl ⟨?_, goodAt_cons first all⟩
        rw [goesOn, ran, length_cons, Nat.add_assoc, Nat.add_comm 1]
      · refine .inr ⟨i + 1, Nat.succ_lt_succ inside, ?_, fun pass => fails ((goodAt_succ i).1 pass),
          goodAt_cons first earlier⟩
        rw [goesOn, stopped, Nat.add_assoc, Nat.add_comm 1]
    · refine .inr ⟨0, Nat.succ_pos _, (turn a rest n).trans (if_neg first), fun pass => first (goodAt_zero.1 pass), ?_⟩
      exact fun k inside => absurd inside (Nat.not_lt_zero k)

end

/-! ## Counting up -/

/-- The numbers from `n` to `stop`, none if `n` is greater. -/
def upTo (n stop : UInt32) : List UInt32 :=
  (range (stop.toNat + 1 - n.toNat)).map fun i => n + UInt32.ofNat i

variable {n stop : UInt32}

theorem upTo_of_lt (past : stop < n) : upTo n stop = [] := by
  have lt := UInt32.lt_iff_toNat_lt.1 past
  rw [upTo, Nat.sub_eq_zero_of_le lt]
  rfl

theorem toNat_succ (le : n ≤ stop) (bounded : stop < 0xFFFFFFFF) : (n + 1).toNat = n.toNat + 1 := by
  have le := UInt32.le_iff_toNat_le.1 le
  have bounded := UInt32.lt_iff_toNat_lt.1 bounded
  have top : (0xFFFFFFFF : UInt32).toNat = 4294967295 := rfl
  rw [UInt32.toNat_add, UInt32.toNat_one]
  omega

theorem upTo_of_le (le : n ≤ stop) (bounded : stop < 0xFFFFFFFF) : upTo n stop = n :: upTo (n + 1) stop := by
  have next := toNat_succ le bounded
  have le := UInt32.le_iff_toNat_le.1 le
  have count : stop.toNat + 1 - n.toNat = (stop.toNat + 1 - (n + 1).toNat) + 1 := by omega
  rw [upTo, count, range_succ_eq_map, map_cons, map_map]
  congr 1
  · simp
  · apply map_congr_left
    intro i _
    show n + UInt32.ofNat (i + 1) = n + 1 + UInt32.ofNat i
    rw [UInt32.ofNat_add, UInt32.add_assoc, UInt32.add_comm (UInt32.ofNat i)]
    rfl

theorem mem_upTo {a : UInt32} : a ∈ upTo n stop ↔ n ≤ a ∧ a ≤ stop := by
  have small := stop.toNat_lt
  rw [upTo, mem_map]
  constructor
  · rintro ⟨i, inside, rfl⟩
    have inside := mem_range.1 inside
    have value : (n + UInt32.ofNat i).toNat = n.toNat + i := by
      rw [UInt32.toNat_add, UInt32.toNat_ofNat']
      omega
    rw [UInt32.le_iff_toNat_le, UInt32.le_iff_toNat_le]
    omega
  · rintro ⟨low, high⟩
    have low := UInt32.le_iff_toNat_le.1 low
    have high := UInt32.le_iff_toNat_le.1 high
    refine ⟨a.toNat - n.toNat, mem_range.2 (by omega), ?_⟩
    apply UInt32.toNat_inj.1
    rw [UInt32.toNat_add, UInt32.toNat_ofNat']
    omega

theorem upTo_getLast? (le : n ≤ stop) : (upTo n stop).getLast? = some stop := by
  have le := UInt32.le_iff_toNat_le.1 le
  have count : stop.toNat + 1 - n.toNat = (stop.toNat - n.toNat) + 1 := by omega
  rw [upTo, count, range_succ, map_append, map_singleton, getLast?_concat]
  congr 1
  apply UInt32.toNat_inj.1
  have small := stop.toNat_lt
  rw [UInt32.toNat_add, UInt32.toNat_ofNat']
  omega

section

variable {σ : Type}

/-- The loop `for (; n <= stop; n++)`; `none` when the bound on its turns is too small. -/
def countUp (attempt : UInt32 → σ → Bool × σ) (stop : UInt32) : Nat → UInt32 → σ → Option (Option UInt32 × σ)
  | 0, _, _ => none
  | fuel + 1, n, s =>
    if n ≤ stop then
      match attempt n s with
      | (true, s) => some (some n, s)
      | (false, s) => countUp attempt stop fuel (n + 1) s
    else some (none, s)

variable {stop : UInt32} {fuel : Nat}

theorem countUp_eq (attempt : UInt32 → σ → Bool × σ) (bounded : stop < 0xFFFFFFFF)
    {n : UInt32} (s : σ) (enough : stop.toNat + 1 - n.toNat < fuel) :
    countUp attempt stop fuel n s = some (firstSuccess attempt (upTo n stop) s) := by
  induction fuel generalizing n s with
  | zero => cases enough
  | succ fuel ih =>
    simp only [countUp]
    split
    · rename_i le
      have next := toNat_succ le bounded
      have room := UInt32.le_iff_toNat_le.1 le
      rw [upTo_of_le le bounded, firstSuccess]
      rcases attempt n s with ⟨_ | _, later⟩
      · exact ih later (by omega)
      · rfl
    · rename_i past
      rw [upTo_of_lt (UInt32.not_le.1 past)]
      rfl

theorem countUp_mono {attempt : UInt32 → σ → Bool × σ} {more : Nat} (le : fuel ≤ more)
    {n : UInt32} {s : σ} {r : Option UInt32 × σ} (ended : countUp attempt stop fuel n s = some r) :
    countUp attempt stop more n s = some r := by
  induction fuel generalizing more n s with
  | zero => cases ended
  | succ fuel ih =>
    obtain ⟨more, rfl⟩ : ∃ m, more = m + 1 := ⟨more - 1, by omega⟩
    simp only [countUp] at ended ⊢
    split
    · rename_i inside
      rw [if_pos inside] at ended
      rcases tried : attempt n s with ⟨_ | _, later⟩
      · rw [tried] at ended
        exact ih (by omega) ended
      · rw [tried] at ended
        exact ended
    · rename_i past
      rwa [if_neg past] at ended

/-! ## A search that goes on where another one ended -/

/-- The first loop tries `draw n` in its turn `n`; then the second one counts up from the last
number drawn.  `before` is the number at the start. -/
def drawThenCount (draw : UInt32 → UInt32) (first second : UInt32 → σ → Bool × σ) (stop : UInt32) (fuel : Nat)
    (start before : UInt32) (s : σ) : Option (Option UInt32 × σ) := do
  let (found, s, last) ← countUp (fun n s => ((first n s.1).1, (first n s.1).2, draw n)) stop fuel start (s, before)
  match found with
  | some _ => some (some last, s)
  | none => countUp second stop fuel last s

variable (draw : UInt32 → UInt32)

theorem firstSuccess_draw (first : UInt32 → σ → Bool × σ) (l : List UInt32) (s : σ) (before : UInt32) :
    firstSuccess (fun n (s : σ × UInt32) => ((first n s.1).1, (first n s.1).2, draw n)) l (s, before) =
      ((firstSuccess first l s).1, (firstSuccess first l s).2,
        (match (firstSuccess first l s).1 with
        | some n => draw n
        | none => (l.getLast?.map draw).getD before)) := by
  induction l generalizing s before with
  | nil => rfl
  | cons n rest ih =>
    simp only [firstSuccess]
    rcases first n s with ⟨_ | _, later⟩
    · refine (ih later (draw n)).trans ?_
      cases (firstSuccess first rest later).1 with
      | none =>
        cases rest with
        | nil => rfl
        | cons m rest =>
          simp [getLast?_cons]
      | some n => rfl
    · rfl

/-- Both loops are one search: through the drawn numbers, and through those from the last one on. -/
theorem drawThenCount_eq (first second : UInt32 → σ → Bool × σ)
    (bounded : stop < 0xFFFFFFFF) (enough : 2 ^ 32 < fuel) {start : UInt32} (ordered : start ≤ stop)
    (before : UInt32) (s : σ) : drawThenCount draw first second stop fuel start before s =
      some ((firstSuccess (Sum.elim first second)
          ((upTo start stop).map Sum.inl ++ (upTo (draw stop) stop).map Sum.inr) s).1.map (Sum.elim draw id),
        (firstSuccess (Sum.elim first second)
          ((upTo start stop).map Sum.inl ++ (upTo (draw stop) stop).map Sum.inr) s).2) := by
  have small := stop.toNat_lt
  rw [drawThenCount, countUp_eq _ bounded _ (by omega), firstSuccess_draw, upTo_getLast? ordered]
  have left : firstSuccess (Sum.elim first second) ((upTo start stop).map Sum.inl) s =
      ((firstSuccess first (upTo start stop) s).1.map Sum.inl, (firstSuccess first (upTo start stop) s).2) :=
    firstSuccess_map Sum.inl (upTo start stop) s
  rcases searched : firstSuccess first (upTo start stop) s with ⟨_ | n, later⟩
  · rw [searched] at left
    have right : firstSuccess (Sum.elim first second) ((upTo (draw stop) stop).map Sum.inr) later =
        ((firstSuccess second (upTo (draw stop) stop) later).1.map Sum.inr,
          (firstSuccess second (upTo (draw stop) stop) later).2) :=
      firstSuccess_map Sum.inr (upTo (draw stop) stop) later
    rw [firstSuccess_append_of_none left, right, Option.map_map]
    show countUp second stop fuel (draw stop) later = _
    rw [countUp_eq _ bounded _ (by omega), Sum.elim_comp_inr, Option.map_id]
    rfl
  · rw [searched] at left
    rw [firstSuccess_append_of_some left]
    rfl

end

end RouterApps.Theory.Search
