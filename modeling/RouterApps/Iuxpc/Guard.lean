/-
# Iuxpc.Guard -- reordering the port forwarding rules (natrouterconf_portforward.js)

Between the rows of the rules stands a guard line that no rule may cross.  The priority of a rule is its place among the rules;
above the guard line this is its place in the table, below it is one less, and `moveRowCustom` counts with `<` or with
`<=` for that.  `onChangedPriority` takes a number that is on the other side of the guard line back.

The tests compare a priority with the index of the guard line.  The first rule below it has the same number, and so
is not below for `onChangedPriority`: it can be moved across, and then lands one behind the number typed.
-/
import RouterApps.Iuxpc.Priority

namespace RouterApps.Iuxpc.Guard

open List Option JsLib Theory.Siblings Number

variable {ρ : Type} [DecidableEq ρ]

/-! ## The code -/

/-- `get_special_line_idx`; it throws if there is no guard line. -/
def guardIdx (rows : List (Line ρ)) : Option ℕ := if .guardLine ∈ rows then some (rows.findIdx Line.isSpecial + 1) else none

/-- `get_line_idx_by_id` -/
def lineIdx (rows : List (Line ρ)) (id : Line ρ) : ℕ := rows.findIdx (fun row => row = id || row = .newLine) + 1

/-- Where the loop of `moveRowCustom` stops. -/
def stopsAt (above : Bool) (row : Line ρ) : Bool := if above then row.isSpecial else row = .newLine

/-- How it counts. -/
def counted (above : Bool) : Number → Number → Bool := if above then lt else le

/-- `moveRowCustom` -/
def moveRowCustom (idx : Number) (F : Panel ρ) : Option (Panel ρ) :=
  match F.clicked with
  | none => some F
  | some element =>
    if element ∈ F.rows then
      (guardIdx F.rows).bind fun guardidx =>
        let above : Bool := lineIdx F.rows element < guardidx
        F.moveTo (stopsAt above) (counted above) element idx
    else some F

/-- The number is on the other side of the guard line. -/
def crosses (guardidx old priority : Number) : Bool :=
  if old.lt priority then old.lt guardidx && guardidx.lt priority
  else priority.lt old && guardidx.lt old && priority.lt guardidx

/-- A number that is refused is taken back. -/
def checked (maxCount guardidx : Number) (F : Panel ρ) : Panel ρ :=
  let F := if crosses guardidx (parseInt F.oldPriority) (parseInt F.priority) then F.restore else F
  if (parseInt F.priority).lt (.finite 1) || maxCount.lt (parseInt F.priority) then F.restore else F

/-- `onChangedPriority` -/
def onChangedPriority (maxCount : Number) (F : Panel ρ) : Option (Panel ρ) :=
  match F.clicked with
  | none | some .newLine => some F
  | _ =>
    let F := if F.priority = [] || isNaN F.priority then F.restore else F
    (guardIdx F.rows).bind fun guardidx =>
      let F := checked maxCount (.finite guardidx) F
      moveRowCustom (parseInt F.priority) F

/-! ## The table -/

def lines (above below : List ρ) : List (Line ρ) := above.map .rule ++ .guardLine :: (below.map .rule ++ [.newLine])

/-- The rules on both sides of the guard line. -/
structure Rules (ρ : Type) where
  above : List ρ
  below : List ρ
  nodup : (above ++ below).Nodup
  bound : above.length + below.length + 2 < 2 ^ 32

variable {above below : List ρ} {sel : ρ}

section

omit [DecidableEq ρ] in
theorem lines_eq : lines above below = (above.map .rule ++ .guardLine :: below.map .rule) ++ [.newLine] := by simp [lines]

omit [DecidableEq ρ] in
theorem length_lines : (lines above below).length = above.length + below.length + 2 := by
  simp [lines]
  omega

omit [DecidableEq ρ] in
theorem nodup_lines (nodup : (above ++ below).Nodup) : (lines above below).Nodup := by
  have injective : Function.Injective (Line.rule : ρ → Line ρ) := fun _ _ => Line.rule.inj
  obtain ⟨first, second, apart⟩ := nodup_append.1 nodup
  simp only [lines, nodup_append, nodup_cons, nodup_map_iff injective]
  simpa [first, second, or_imp, forall_and] using fun a inside b member => apart a inside b member

omit [DecidableEq ρ] in
/-- Below the guard line the place in the table is one more than the place among the rules. -/
theorem getElem?_lines {p : ℕ} (selects : (above ++ below)[p]? = some sel) :
    (lines above below)[if p < above.length then p else p + 1]? = some (.rule sel) := by
  split_ifs with higher
  · rw [getElem?_append_left higher] at selects
    rw [lines, getElem?_append_left (by simpa using higher), getElem?_map, selects, map_some]
  · rw [getElem?_append_right (Nat.le_of_not_lt higher)] at selects
    have inside := (List.getElem?_eq_some_iff.1 selects).1
    rw [lines, getElem?_append_right (by simp; omega), length_map, Nat.sub_add_comm (Nat.le_of_not_lt higher),
      getElem?_cons_succ, getElem?_append_left (by simpa using inside), getElem?_map, selects, map_some]

theorem erase_lines_above (member : sel ∈ above) : (lines above below).erase (.rule sel) = lines (above.erase sel) below := by
  rw [lines, erase_append_left _ (mem_map_of_mem member), lines, map_erase fun _ _ => Line.rule.inj]

theorem erase_lines_below (outside : sel ∉ above) (member : sel ∈ below) :
    (lines above below).erase (.rule sel) = lines above (below.erase sel) := by
  rw [lines, erase_append_right _ (by simpa using outside), erase_cons_tail (by simp), erase_append_left _ (mem_map_of_mem member),
    lines, map_erase fun _ _ => Line.rule.inj]

omit [DecidableEq ρ] in
theorem insertIdx_lines_above {q : ℕ} (inside : q ≤ above.length) :
    (lines above below).insertIdx q (.rule sel) = lines (above.insertIdx q sel) below := by
  rw [lines, insertIdx_append _ (by simpa using inside), lines, map_insertIdx]

omit [DecidableEq ρ] in
theorem insertIdx_lines_below {q : ℕ} (inside : q ≤ below.length) :
    (lines above below).insertIdx (above.length + 1 + q) (.rule sel) = lines above (below.insertIdx q sel) := by
  induction above with
  | nil => simp [lines, Nat.add_comm 1, insertIdx_append _ (show q ≤ (below.map Line.rule).length by simpa using inside), map_insertIdx]
  | cons r above ih => simpa [lines, Nat.add_right_comm] using ih

end

/-! ## One change -/

/-- The last number on the side of the rule with `p` rules before it. -/
def reach (above below p : ℕ) : ℕ := if p < above then above else above + below

theorem reach_spec {above below p : ℕ} (inside : p < above + below) :
    p < reach above below p ∧ reach above below p ≤ above + below ∧ (p < above → reach above below p = above) := by
  rw [reach]
  split <;> omega

/-- The number that counts, for the rule with `p` rules before it. -/
def target (maxCount : Number) (above below p : ℕ) (text : Text) : ℕ :=
  let typed := typedNumber text
  if 1 ≤ typed ∧ typed ≤ reach above below p ∧ maxCount.lt (.finite typed) = false ∧
    (above < p → above < typed) then typed else p + 1

variable (maxCount : Number)

theorem target_spec {above below p : ℕ} (text : Text) (inside : p < above + below) :
    1 ≤ target maxCount above below p text ∧ target maxCount above below p text ≤ reach above below p ∧
      (p < above ∨ above < target maxCount above below p text ↔
        ¬ (p = above ∧ 1 ≤ typedNumber text ∧ typedNumber text ≤ above ∧ maxCount.lt (.finite (typedNumber text)) = false)) := by
  have reached := reach_spec inside
  rw [target]
  split_ifs with taken <;> grind

/-- The rule is selected, and the fields have its place. -/
structure Chosen (above below : List ρ) (sel : ρ) (p : ℕ) (F : Panel ρ) : Prop where
  nodup : (above ++ below).Nodup
  bound : above.length + below.length + 2 < 2 ^ 32
  selects : (above ++ below)[p]? = some sel
  rows : F.rows = lines above below
  clicked : F.clicked = some (.rule sel)
  old : Denotes F.oldPriority (p + 1)
  cur : Denotes F.curPriority (p + 1)

/-- The rule is put where the number `t` is counted to. -/
def settled (above below : List ρ) (sel : ρ) (p : ℕ) (F : Panel ρ) (text : Text) (t : ℕ) : Panel ρ :=
  { F with
    rows := ((lines above below).erase (.rule sel)).insertIdx (if p < above.length then t - 1 else t) (.rule sel)
    priority := text
    curPriority := natText t }

omit [DecidableEq ρ] in
theorem checked_eq {maxCount guardidx : Number} {F : Panel ρ} : checked maxCount guardidx F =
      if crosses guardidx (parseInt F.oldPriority) (parseInt F.priority) ∨ (parseInt F.priority).lt (.finite 1) ∨
        maxCount.lt (parseInt F.priority) then F.restore else F := by
  cases crossing : crosses guardidx (parseInt F.oldPriority) (parseInt F.priority) with
  | true =>
    simp only [checked, crossing, true_or, if_true]
    exact ite_self F.restore
  | false => simp [checked, crossing]

theorem counts_counted (above : Bool) (t : ℕ) : Counts (counted above) t (if above then 0 else 1) := by
  cases above with
  | true => exact counts_lt t
  | false =>
    intro m small
    have less := @ofNat_lt_iff t m small.le
    rw [counted, if_neg Bool.false_ne_true, le, Bool.eq_iff_iff]
    simp [ofNat_ne_nan, ← Bool.not_eq_true, less]

namespace Chosen

variable {p : ℕ} {F : Panel ρ} (chosen : Chosen above below sel p F)

include chosen

omit [DecidableEq ρ] in
theorem restore : Chosen above below sel p F.restore := { chosen with }

omit [DecidableEq ρ] in
theorem inside : p < above.length + below.length := by
  simpa using (List.getElem?_eq_some_iff.1 chosen.selects).1

theorem guardIdx_eq : guardIdx F.rows = some (above.length + 1) := by
  have first : (lines above below).findIdx Line.isSpecial = above.length := by
    rw [lines, findIdx_append]
    simp [Line.isSpecial, findIdx_cons]
  rw [guardIdx, chosen.rows, if_pos (by simp [lines]), first]

theorem lineIdx_eq : lineIdx F.rows (.rule sel) = (if p < above.length then p else p + 1) + 1 := by
  have found := getElem?_lines chosen.selects
  have nodup := nodup_lines chosen.nodup
  have inside := chosen.inside
  obtain ⟨bound, at_sel⟩ := List.getElem?_eq_some_iff.1 found
  have last : (lines above below)[above.length + below.length + 1]? = some .newLine := by
    simp [lines_eq, Nat.add_assoc]
  rw [lineIdx, chosen.rows, Nat.add_right_cancel_iff, findIdx_eq bound]
  refine ⟨by simp [at_sel], fun j before => ?_⟩
  have other : (lines above below)[j] ≠ .rule sel := fun same => by
    have := nodup.getElem_inj_iff.1 (same.trans at_sel.symm)
    omega
  have early : (lines above below)[j] ≠ .newLine := fun same => by
    obtain ⟨end_bound, at_end⟩ := List.getElem?_eq_some_iff.1 last
    have := nodup.getElem_inj_iff.1 (same.trans at_end.symm)
    split_ifs at before <;> omega
  simp [other, early]

theorem moveRowCustom_eq (idx : Number) : moveRowCustom idx F =
      F.moveTo (stopsAt (p < above.length)) (counted (p < above.length)) (.rule sel) idx := by
  have member : Line.rule sel ∈ F.rows := chosen.rows ▸ mem_of_getElem? (getElem?_lines chosen.selects)
  have side : decide ((if p < above.length then p else p + 1) + 1 < above.length + 1) = decide (p < above.length) := by
    rw [decide_eq_decide]
    split <;> omega
  rw [moveRowCustom, chosen.clicked]
  simp only [member, if_true, chosen.guardIdx_eq, bind_some, chosen.lineIdx_eq, side]

variable {t : ℕ}

/-- The loop stops at the end of the side the rule is on. -/
theorem seek (first : 1 ≤ t) :
    seek (stopsAt (p < above.length)) (fun i => counted (p < above.length) (.finite i) (.ofNat t)) 1 F.rows =
      some (if t ≤ reach above.length below.length p then
        some (F.rows.drop (if p < above.length then t - 1 else t)) else none) := by
  have bound := chosen.bound
  have inside := chosen.inside
  have counts := counts_counted (p < above.length) t
  rw [reach]
  by_cases higher : p < above.length
  · have free : ∀ y ∈ above.map Line.rule, stopsAt true y = false := by simp [stopsAt, Line.isSpecial]
    simp only [higher, decide_true, if_true] at counts ⊢
    rw [seek_rows counts chosen.rows (ne_nil_of_length_pos (by simp; omega)) (by simp; omega) free rfl, length_map]
    simp only [Nat.add_zero, show t - 1 < above.length ↔ t ≤ above.length by omega]
  · have free : ∀ y ∈ above.map Line.rule ++ .guardLine :: below.map Line.rule, stopsAt false y = false := by
      simp [stopsAt, or_imp, forall_and]
    simp only [higher, decide_false, if_false, Bool.false_eq_true] at counts ⊢
    rw [seek_rows counts (chosen.rows.trans lines_eq) (by simp) (by simp; omega) free rfl, Nat.add_sub_cancel]
    simp only [length_append, length_cons, length_map, ← Nat.add_assoc, Nat.lt_succ_iff]

theorem settles (first : 1 ≤ t) (last : t ≤ reach above.length below.length p) :
    moveRowCustom (.ofNat t) F = some (settled above below sel p F F.priority t) := by
  have bound := chosen.bound
  have reached := reach_spec chosen.inside
  have nodup := nodup_lines chosen.nodup
  have found := getElem?_lines chosen.selects
  have back := insertIdx_erase nodup found
  have length : ((lines above below).erase (.rule sel)).length = above.length + below.length + 1 := by
    rw [length_erase_of_mem (mem_of_getElem? found), length_lines]
    rfl
  have test : (F.curPriority ≠ [] && counted (p < above.length) (parseInt F.curPriority) (.ofNat t)) =
      decide (p + 1 < t + if p < above.length then 0 else 1) := by
    have small : p + 1 < 2 ^ 53 := by omega
    have counts := counts_counted (p < above.length) t (p + 1) small
    simpa [chosen.cur.nonempty, chosen.cur.parseInt, ofNat_of_lt small] using counts
  rw [chosen.moveRowCustom_eq, moveTo_found (nodup_cons.2 ⟨nodup.not_mem_erase, nodup.erase _⟩) ?_ (chosen.rows.trans back.symm)
    (by omega) ((chosen.seek first).trans (by rw [if_pos last])) test rfl ?_]
  · have position : ∀ j, (j = if decide (p + 1 < t + if p < above.length then 0 else 1) then
        (if p < above.length then t - 1 else t) + 1 else if p < above.length then t - 1 else t) →
        (if j ≤ (if p < above.length then p else p + 1) then j else j - 1) = if p < above.length then t - 1 else t := by
      intro j next
      by_cases higher : p < above.length <;> simp only [decide_eq_true_eq] at next ⊢ <;>
        split_ifs at next ⊢ <;> omega
    rw [position _ rfl]
    rfl
  · split_ifs <;> omega
  · rw [chosen.rows, length_lines]
    split_ifs <;> omega

/-- The old number is put back and taken. -/
theorem restores : moveRowCustom (parseInt F.oldPriority) F.restore = some (settled above below sel p F F.oldPriority (p + 1)) := by
  rw [chosen.old.parseInt, chosen.restore.settles (Nat.le_add_left 1 p) (reach_spec chosen.inside).1]
  rfl

/-- The other end of the side is reached. -/
theorem stops (typed : Denotes F.priority t) (first : 1 ≤ t) (beyond : reach above.length below.length p < t) :
    moveRowCustom (.ofNat t) F = some (settled above below sel p F F.oldPriority (p + 1)) := by
  have other : F.priority ≠ F.oldPriority := fun same => by
    have := (same ▸ typed).unique chosen.old
    have := reach_spec chosen.inside
    omega
  rw [chosen.moveRowCustom_eq, moveTo_stopped ((chosen.seek first).trans (by rw [if_neg (by omega)])) other,
    ← chosen.restores]
  exact (chosen.restore.moveRowCustom_eq _).symm

omit [DecidableEq ρ] in
theorem crosses_iff {n : ℕ} : crosses (.finite (above.length + 1 : ℕ)) (.ofNat (p + 1)) (.ofNat n) ↔
      p < above.length ∧ above.length + 1 < n ∨ above.length < p ∧ n ≤ above.length := by
  have bound := chosen.bound
  have inside := chosen.inside
  have small : p + 1 < 2 ^ 53 ∧ above.length + 1 < 2 ^ 53 := by omega
  have exact : ∀ a b : ℕ, (finite a).lt (.finite b) ↔ a < b := by simp [lt]
  rw [crosses, ofNat_of_lt small.1]
  simp only [Bool.and_eq_true, Bool.ite_eq_true_distrib, exact, lt_ofNat_iff small.1, lt_ofNat_iff small.2,
    ofNat_lt_iff small.1.le, ofNat_lt_iff small.2.le]
  split_ifs <;> omega

theorem changes (integer : IntegerText F.priority) :
    ∃ text, Denotes text (target maxCount above.length below.length p F.priority) ∧
      onChangedPriority maxCount F =
        some (settled above below sel p F text (target maxCount above.length below.length p F.priority)) := by
  have bound := chosen.bound
  have reached := reach_spec chosen.inside
  rw [onChangedPriority, chosen.clicked]
  rcases integer.read with ⟨denotes, number⟩ | ⟨none, low⟩
  · simp only [number, Bool.false_eq_true, if_false, chosen.guardIdx_eq, bind_some, checked_eq, denotes.parseInt,
      chosen.old.parseInt, chosen.crosses_iff, ofNat_lt_one]
    rw [target]
    generalize typedNumber F.priority = n at denotes
    by_cases refused : (p < above.length ∧ above.length + 1 < n ∨ above.length < p ∧ n ≤ above.length) ∨ n < 1 ∨
        maxCount.lt (.ofNat n)
    · have notTaken : ¬ (1 ≤ n ∧ n ≤ reach above.length below.length p ∧ maxCount.lt (.finite n) = false ∧
          (above.length < p → above.length < n)) := by
        rintro ⟨first, last, allowed, below⟩
        rw [← ofNat_of_lt (by omega)] at allowed
        rcases refused with crossing | low | large
        · omega
        · omega
        · exact absurd large (by simp [allowed])
      rw [if_pos refused, if_neg notTaken]
      exact ⟨_, chosen.old, chosen.restores⟩
    · rw [if_neg refused, denotes.parseInt]
      by_cases last : n ≤ reach above.length below.length p
      · rw [if_pos ⟨by omega, last, by rw [← ofNat_of_lt (by omega)]; simp_all, by omega⟩]
        exact ⟨_, denotes, chosen.settles (by omega) last⟩
      · rw [if_neg fun taken => last taken.2.1]
        exact ⟨_, chosen.old, chosen.stops denotes (by omega) (by omega)⟩
  · have old : target maxCount above.length below.length p F.priority = p + 1 := by simp [target, none]
    rw [old]
    refine ⟨F.oldPriority, chosen.old, ?_⟩
    cases number : F.priority = [] || isNaN F.priority
    · simp only [Bool.false_eq_true, if_false, chosen.guardIdx_eq, checked_eq, low, true_or, or_true]
      exact chosen.restores
    · -- the field is restored before it is read
      simp only [if_true, chosen.restore.guardIdx_eq, bind_some, checked_eq]
      split_ifs <;> exact chosen.restores

/-- The place of the rule, and whether it has crossed the guard line. -/
theorem settled_rows (first : 1 ≤ t) (last : t ≤ reach above.length below.length p) (text : Text) :
    ∃ above' below', (settled above below sel p F text t).rows = lines above' below' ∧
      if p < above.length ∨ above.length < t then (∀ id, id ∈ above' ↔ id ∈ above) ∧ (above' ++ below').idxOf sel + 1 = t
      else sel ∈ above' ∧ sel ∉ above := by
  have selects := chosen.selects
  have inside := chosen.inside
  have reached := reach_spec chosen.inside
  obtain ⟨nodupAbove, nodupBelow, apart⟩ := nodup_append.1 chosen.nodup
  rw [settled]
  by_cases higher : p < above.length
  · rw [getElem?_append_left higher] at selects
    have member := mem_of_getElem? selects
    have place : t - 1 ≤ (above.erase sel).length := by
      rw [length_erase_of_mem member]
      omega
    have own : sel ∈ (above.erase sel).insertIdx (t - 1) sel := (mem_insertIdx place).2 (.inl rfl)
    refine ⟨(above.erase sel).insertIdx (t - 1) sel, below, ?_, ?_⟩
    · simp only [higher, if_true, erase_lines_above member, insertIdx_lines_above place]
    · rw [if_pos (.inl higher)]
      refine ⟨fun id => ((perm_insertIdx sel _ place).trans (perm_cons_erase member).symm).mem_iff, ?_⟩
      rw [idxOf_append_of_mem own, idxOf_insertIdx (nodup_cons.2 ⟨nodupAbove.not_mem_erase, nodupAbove.erase sel⟩) place]
      omega
  · rw [getElem?_append_right (Nat.le_of_not_lt higher)] at selects
    have member := mem_of_getElem? selects
    have outside : sel ∉ above := fun within => apart sel within sel member rfl
    simp only [higher, if_false, erase_lines_below outside member, false_or]
    split_ifs with behind
    · obtain ⟨q, rfl⟩ := Nat.exists_eq_add_of_lt behind
      have place : q ≤ (below.erase sel).length := by
        rw [length_erase_of_mem member]
        omega
      refine ⟨above, (below.erase sel).insertIdx q sel, ?_, fun id => Iff.rfl, ?_⟩
      · rw [Nat.add_right_comm, insertIdx_lines_below place]
      · rw [idxOf_append_of_notMem outside, idxOf_insertIdx (nodup_cons.2 ⟨nodupBelow.not_mem_erase, nodupBelow.erase sel⟩) place]
    · have place := Nat.le_of_not_lt behind
      exact ⟨above.insertIdx t sel, below.erase sel, insertIdx_lines_above place, (mem_insertIdx place).2 (.inl rfl), outside⟩

theorem settled_others (last : t ≤ reach above.length below.length p) (text : Text) :
    (settled above below sel p F text t).rows.erase (.rule sel) = (lines above below).erase (.rule sel) := by
  have reached := reach_spec chosen.inside
  have nodup := nodup_lines chosen.nodup
  refine erase_insertIdx (nodup_cons.2 ⟨nodup.not_mem_erase, nodup.erase _⟩) ?_
  rw [length_erase_of_mem (mem_of_getElem? (getElem?_lines chosen.selects)), length_lines]
  split_ifs <;> omega

end Chosen

/-- After a number is typed the other rows have their order.  No rule has crossed the guard line and the field is the place of
the rule, unless it is the first below the guard line and the number is one of those above. -/
theorem guard_kept_iff (rules : Rules ρ) {p : ℕ} {sel : ρ} (selects : (rules.above ++ rules.below)[p]? = some sel)
    {old cur text : Text} (supplied : Denotes old (p + 1)) (current : Denotes cur (p + 1)) (integer : IntegerText text)
    (maxCount : Number) : ∃ F above below,
      onChangedPriority maxCount ⟨lines rules.above rules.below, some (.rule sel), text, old, cur⟩ = some F ∧
      F.rows = lines above below ∧ F.rows.erase (.rule sel) = (lines rules.above rules.below).erase (.rule sel) ∧
      ((∀ id, id ∈ above ↔ id ∈ rules.above) ∧ toNumber F.priority = .finite ((above ++ below).idxOf sel + 1 : ℕ) ↔
        ¬ (p = rules.above.length ∧ 1 ≤ typedNumber text ∧ typedNumber text ≤ rules.above.length ∧
          maxCount.lt (.finite (typedNumber text)) = false)) := by
  obtain ⟨above, below, nodup, bound⟩ := rules
  have chosen : Chosen above below sel p ⟨lines above below, some (.rule sel), text, old, cur⟩ :=
    ⟨nodup, bound, selects, rfl, rfl, supplied, current⟩
  obtain ⟨shown, denotes, changed⟩ := chosen.changes maxCount integer
  have reached := reach_spec chosen.inside
  have range := target_spec maxCount text chosen.inside
  generalize target maxCount above.length below.length p text = t at denotes changed range
  obtain ⟨above', below', rows, place⟩ := chosen.settled_rows range.1 range.2.1 shown
  refine ⟨_, above', below', changed, rows, chosen.settled_others range.2.1 shown, ?_⟩
  have number : toNumber shown = .finite t := by rw [denotes.toNumber, Number.ofNat_of_lt (by omega)]
  rw [← range.2.2]
  split_ifs at place with kept
  · exact iff_of_true ⟨place.1, by rw [place.2]; exact number⟩ kept
  · exact iff_of_false (fun same => place.2 ((same.1 sel).1 place.1)) kept

/-- Of two rules above and two below, the last goes up to the guard line. -/
theorem guard_kept_four :
    ∃ F above below, onChangedPriority (.finite 64) ⟨lines [0, 1] [2, 3], some (.rule 3), ['3'], ['4'], ['4']⟩ = some F ∧
      F.rows = lines above below ∧ toNumber F.priority = .finite ((above ++ below).idxOf 3 + 1 : ℕ) := by
  obtain ⟨F, above, below, changed, rows, -, kept⟩ := guard_kept_iff ⟨[0, 1], [2, 3], by decide, by decide⟩
    (rfl : ([0, 1] ++ [2, 3])[3]? = some 3) (denotes_natText 4) (denotes_natText 4)
    ⟨3, ['3'], denotes_natText 3, .inl rfl⟩ (.finite 64)
  exact ⟨F, above, below, changed, rows, (kept.2 (by decide)).2⟩

/-- The only rule below the guard line gets the number of the one above. -/
theorem first_below_crosses :
    (onChangedPriority (.finite 64) ⟨lines [0] [1], some (.rule 1), ['1'], ['2'], ['2']⟩).map (fun F => (F.rows, F.priority)) =
      some (lines [0, 1] [], ['1']) := by
  decide +kernel

end RouterApps.Iuxpc.Guard
