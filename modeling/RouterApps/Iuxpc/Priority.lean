/-
# Iuxpc.Priority -- reordering the firewall rules (firewallconf_firewall.js)

The rows of the rules are the children of a table, and the new line is the last of them.  The selected row is moved by
Up, by Down and by a number typed into the priority field.  `moveRowCustom` counts to the row with that number and inserts
the selected row before it; if the row comes from above, the numbers have to be counted without it, and the row is inserted
one further down.  Whether it comes from above is read off `cur_priority`, and this field is empty until the first
move.  The first number that is typed, if it is larger than the old one, therefore lands one too early.

A `View` is the position of the selected row and whether the priority field is right.  The code refines its steps
(`step_reflects`, `run_reflects`), so the field shows the position exactly if the view does not end `early`.
-/
import RouterApps.JsLib.Text
import RouterApps.Theory.Siblings

namespace RouterApps.Iuxpc

open List Option JsLib Theory.Siblings Number

variable {ρ : Type}

/-! ## The code -/

/-- A row of the table. -/
inductive Line (ρ : Type)
  | rule (id : ρ)
  | guardLine
  | newLine
  deriving DecidableEq

instance Line.lawful [DecidableEq ρ] : LawfulBEq (Line ρ) := inferInstance

def Line.isSpecial : Line ρ → Bool
  | .rule _ => false
  | _ => true

/-- The rows, and the fields of the form that the functions read. -/
structure Panel (ρ : Type) where
  rows : List (Line ρ)
  /-- `clicked_name`, `none` if it is empty. -/
  clicked : Option (Line ρ)
  priority : Text
  oldPriority : Text
  curPriority : Text

/-- The rules of a table: their names differ, and the count of the rows is an unsigned long. -/
structure Rules (ρ : Type) where
  names : List ρ
  nodup : names.Nodup
  bound : names.length + 1 < 2 ^ 32

/-- `parseInt(t) + delta`, as the text of a field. -/
def shifted (t : Text) (delta : ℚ) : Option Text := numText ((parseInt t).add (.finite delta))

section

variable [DecidableEq ρ]

/-- The row goes before another one, and the numbers change with it. -/
def Panel.move (F : Panel ρ) (row anchor : Line ρ) (delta : ℚ) : Option (Panel ρ) :=
  (shifted F.priority delta).bind fun priority =>
    (if F.curPriority = [] then some priority else shifted F.curPriority delta).map fun curPriority =>
      { F with rows := insertBefore F.rows row anchor, priority, curPriority }

/-- `moveRowUp` -/
def moveRowUp (F : Panel ρ) (row : Line ρ) : Option (Panel ρ) :=
  match previousSibling F.rows row with
  | none => some F
  | some sibling => F.move row sibling (-1)

/-- `moveRowDown` -/
def moveRowDown (F : Panel ρ) (row : Line ρ) : Option (Panel ρ) :=
  match nextSibling F.rows row with
  | some (.rule id) =>
    match nextSibling F.rows (.rule id) with
    | some anchor => F.move row anchor 1
    | none => some F
  | _ => some F

/-- `onRowUpClicked` and `onRowDownClicked`. -/
def onRowClicked (moveRow : Panel ρ → Line ρ → Option (Panel ρ)) (F : Panel ρ) : Option (Panel ρ) :=
  match F.clicked with
  | none | some .newLine => some F
  | some row => if F.oldPriority = [] then some F else moveRow F row

def Panel.restore (F : Panel ρ) : Panel ρ := { F with priority := F.oldPriority }

/-- `moveRowCustom` from the loop on; `none` if it throws.  The loop counts the rows before `idx`, and `cur_priority` before
`idx` says that the row comes from above. -/
def Panel.moveTo (stops : Line ρ → Bool) (before : Number → Number → Bool) (element : Line ρ) (idx : Number) (F : Panel ρ) :
    Option (Panel ρ) :=
  match seek stops (fun i => before (.finite i) idx) 1 F.rows with
  | none => none
  | some none =>
    if F.priority = F.oldPriority then some F
    else F.restore.moveTo stops before element (parseInt F.oldPriority)
  | some (some refer) =>
    match if F.curPriority ≠ [] && before (parseInt F.curPriority) idx then refer.tail else refer with
    | [] => some F
    | refer :: _ => (numText idx).map fun text => { F with rows := insertBefore F.rows element refer, curPriority := text }
termination_by if F.priority = F.oldPriority then 0 else 1
decreasing_by simp_all [Panel.restore]

/-- `moveRowCustom` -/
def moveRowCustom (idx : Number) (F : Panel ρ) : Option (Panel ρ) :=
  match F.clicked with
  | none => some F
  | some element =>
    if element ∈ F.rows then F.moveTo Line.isSpecial lt element idx else some { F with clicked := none }

/-- `onChangedPriority` -/
def onChangedPriority (maxCount : Number) (F : Panel ρ) : Option (Panel ρ) :=
  match F.clicked with
  | none | some .newLine => some F
  | _ =>
    let F := if F.priority = [] || isNaN F.priority then F.restore else F
    if (parseInt F.priority).lt (.finite 1) || maxCount.lt (parseInt F.priority) then
      moveRowCustom (parseInt F.oldPriority) F.restore
    else moveRowCustom (parseInt F.priority) F

/-- What the user does with the selected row. -/
inductive Action
  | up
  | down
  | typed (text : Text)

def Panel.step (maxCount : Number) (F : Panel ρ) : Action → Option (Panel ρ)
  | .up => onRowClicked moveRowUp F
  | .down => onRowClicked moveRowDown F
  | .typed text => onChangedPriority maxCount { F with priority := text }

/-- `onClickedFWRule`, as far as it sets these fields. -/
def selected (rows : List (Line ρ)) (row : Line ρ) (priority : Text) : Panel ρ :=
  { rows, clicked := some row, priority, oldPriority := priority, curPriority := [] }

end

/-! ## Typed numbers -/

/-- A typed integer: digits, and there may be a minus before them. -/
def IntegerText (text : Text) : Prop := ∃ n digits, Denotes digits n ∧ (text = digits ∨ text = '-' :: digits)

/-- The number a text stands for, if it has no minus. -/
def typedNumber (text : Text) : ℕ := if text.head? = some '-' then 0 else Nat.ofDigitChars 10 text 0

variable {text : Text} {n : ℕ}

theorem typedNumber_eq (denotes : Denotes text n) : typedNumber text = n := by
  have digits : text.head? ≠ some '-' := fun minus => absurd (denotes.digits '-' (mem_of_mem_head? minus)) (by decide)
  rw [typedNumber, if_neg digits, denotes.value]

/-- What `onChangedPriority` reads: a number, or something below 1 that may not even be a number. -/
theorem IntegerText.read (integer : IntegerText text) :
    (Denotes text (typedNumber text) ∧ (text = [] || isNaN text) = false) ∨
      typedNumber text = 0 ∧ (parseInt text).lt (.finite 1) := by
  obtain ⟨n, digits, denotes, rfl | rfl⟩ := integer
  · rw [typedNumber_eq denotes]
    exact .inl ⟨denotes, by simp [denotes.nonempty, isNaN, denotes.toNumber, ofNat_ne_nan]⟩
  · rw [denotes.parseInt_minus]
    exact .inr ⟨rfl, ofRat_minus_lt n⟩

theorem ofNat_lt_one : (ofNat n).lt (.finite 1) ↔ n < 1 := by
  exact_mod_cast @ofNat_lt_iff n 1 (by norm_num)

/-! ## Counting to a row -/

section

variable [DecidableEq ρ] {stops : Line ρ → Bool} {before : Number → Number → Bool} {F : Panel ρ} {t e : ℕ}

/-- The relation counts `t + e` rows. -/
def Counts (before : Number → Number → Bool) (t e : ℕ) : Prop :=
  ∀ m : ℕ, m < 2 ^ 53 → before (.finite m) (.ofNat t) = decide (m < t + e)

theorem counts_lt (t : ℕ) : Counts lt t 0 := fun m small => by
  rw [Bool.eq_iff_iff, lt_ofNat_iff small, decide_eq_true_iff, Nat.add_zero]

variable {x : Line ρ}

omit [DecidableEq ρ] in
theorem seek_rows (counts : Counts before t e) {front back : List (Line ρ)} (split : F.rows = front ++ x :: back)
    (nonempty : front ≠ []) (bound : front.length < 2 ^ 52) (free : ∀ y ∈ front, stops y = false) (stop : stops x) :
    seek stops (fun i => before (.finite i) (.ofNat t)) 1 F.rows =
      some (if t + e - 1 < front.length then some (F.rows.drop (t + e - 1)) else none) := by
  rw [split]
  refine seek_eq nonempty (fun j inside => ?_) free stop
  rw [counts (1 + j) (by omega), decide_eq_decide]
  omega

/-- The loop is stopped, and the old number is taken. -/
theorem moveTo_stopped {element : Line ρ} {idx : Number}
    (stopped : seek stops (fun i => before (.finite i) idx) 1 F.rows = some none) (other : F.priority ≠ F.oldPriority) :
    F.moveTo stops before element idx = F.restore.moveTo stops before element (parseInt F.oldPriority) := by
  rw [Panel.moveTo, stopped]
  simp only [other, if_false]

/-- The row goes before the one with the index `j`: the one found, or the next. -/
theorem moveTo_found {others : List (Line ρ)} {q j k : ℕ} {skips : Bool} (nodup : (x :: others).Nodup)
    (inside : q ≤ others.length) (rows : F.rows = others.insertIdx q x) (small : t < 2 ^ 53)
    (found : seek stops (fun i => before (.finite i) (.ofNat t)) 1 F.rows = some (some (F.rows.drop k)))
    (test : (F.curPriority ≠ [] && before (parseInt F.curPriority) (.ofNat t)) = skips)
    (next : j = if skips then k + 1 else k) (last : j < F.rows.length) : F.moveTo stops before x (.ofNat t) =
      some { F with rows := others.insertIdx (if j ≤ q then j else j - 1) x, curPriority := natText t } := by
  have suffix : (if skips then (F.rows.drop k).tail else F.rows.drop k) = F.rows[j] :: F.rows.drop (j + 1) := by
    rw [← drop_eq_getElem_cons, next]
    split
    · rw [tail_drop]
    · rfl
  have moved := insertBefore_insertIdx nodup inside (by rw [← rows, getElem?_eq_getElem last])
  rw [← rows] at moved
  rw [Panel.moveTo, found]
  simp only [test, suffix, numText_ofNat small, map_some, moved]

end

/-! ## What there is to see -/

/-- The priority field: untouched, the position, or one more than the position. -/
inductive Shown
  | fresh
  | right
  | early
  deriving DecidableEq

/-- The selected row has `position` rows before it. -/
structure View where
  position : ℕ
  shown : Shown

/-- The number in the field. -/
def View.number (v : View) : ℕ := if v.shown = .early then v.position + 2 else v.position + 1

/-- Up and Down leave the field right or early. -/
def View.moved (v : View) (position : ℕ) : View := ⟨position, if v.shown = .early then .early else .right⟩

/-- The number `t` is typed. -/
def View.place (v : View) (t : ℕ) : View :=
  if v.shown = .fresh ∧ v.position + 1 < t then ⟨t - 2, .early⟩
  else if v.shown = .early ∧ t = v.position + 2 then v
  else ⟨t - 1, .right⟩

/-- The number that counts: the one typed if there is a row with it, otherwise the old one. -/
def target (maxCount : Number) (rows old : ℕ) (text : Text) : ℕ :=
  let typed := typedNumber text
  if 1 ≤ typed ∧ typed ≤ rows ∧ maxCount.lt (.finite typed) = false then typed else old

/-- One action, in a table of `rows` rules. -/
def View.step (maxCount : Number) (rows old : ℕ) (v : View) : Action → View
  | .up => if v.position = 0 then v else v.moved (v.position - 1)
  | .down => if v.position + 1 < rows then v.moved (v.position + 1) else v
  | .typed text => v.place (target maxCount rows old text)

variable (v : View)

theorem View.number_le : v.number ≤ v.position + 2 := by
  rw [View.number]
  split <;> omega

/-- The number is shown, and the position is the one that `moveRowCustom` counts to. -/
theorem View.place_spec {t j : ℕ} (first : 1 ≤ t) (last : t ≤ n + 1) (inside : v.position ≤ n)
    (next : j = if decide (v.shown ≠ .fresh ∧ v.number < t) then t - 1 + 1 else t - 1) :
    (v.place t).position = (if j ≤ v.position then j else j - 1) ∧ (v.place t).position ≤ n ∧
      (v.place t).number = t ∧ (v.place t).shown ≠ .fresh := by
  obtain ⟨position, shown⟩ := v
  cases shown <;> grind [View.place, View.number]

/-! ## The refinement -/

/-- The rows: the selected one among the others, and the new line. -/
def children (others : List ρ) (sel : ρ) (q : ℕ) : List (Line ρ) :=
  (others.map Line.rule ++ [Line.newLine]).insertIdx q (.rule sel)

/-- The panel shows the view, apart from the priority field. -/
structure Sits (others : List ρ) (sel : ρ) (k : ℕ) (F : Panel ρ) (v : View) : Prop where
  nodup : (Line.rule sel :: (others.map Line.rule ++ [Line.newLine])).Nodup
  bound : others.length + 2 < 2 ^ 32
  selectable : 1 ≤ k ∧ k ≤ others.length + 1
  rows : F.rows = children others sel v.position
  clicked : F.clicked = some (.rule sel)
  inside : v.position ≤ others.length
  old : Denotes F.oldPriority k
  cur : if v.shown = .fresh then F.curPriority = [] ∧ v.number = k else Denotes F.curPriority v.number

/-- The panel shows the view. -/
structure Reflects (others : List ρ) (sel : ρ) (k : ℕ) (F : Panel ρ) (v : View) : Prop extends Sits others sel k F v where
  priority : Denotes F.priority v.number

variable {others : List ρ} {sel : ρ}

section

variable {q : ℕ}

theorem children_eq (inside : q ≤ others.length) :
    children others sel q = (others.insertIdx q sel).map .rule ++ [.newLine] := by
  rw [children, insertIdx_append _ (by simpa using inside), map_insertIdx]

theorem nodup_lines {l : List ρ} (nodup : l.Nodup) : (l.map Line.rule ++ [Line.newLine]).Nodup := by
  have injective : Function.Injective (Line.rule : ρ → Line ρ) := fun _ _ => Line.rule.inj
  simpa [nodup_append, nodup_map_iff injective] using nodup

end

section

variable [DecidableEq ρ] {k : ℕ} {F : Panel ρ} {v : View}

namespace Sits

variable (sits : Sits others sel k F v)

include sits

omit [DecidableEq ρ] in
theorem le_length : v.position ≤ (others.map Line.rule ++ [Line.newLine]).length := by
  have := sits.inside
  simp
  omega

omit [DecidableEq ρ] in
theorem length : F.rows.length = others.length + 2 := by
  rw [sits.rows, children, length_insertIdx_of_le_length sits.le_length]
  simp

theorem idxOf : F.rows.idxOf (.rule sel) = v.position := by
  rw [sits.rows, children, idxOf_insertIdx sits.nodup sits.le_length]

omit [DecidableEq ρ] in
theorem seek (t : ℕ) : seek Line.isSpecial (fun i => (finite i).lt (.ofNat t)) 1 F.rows =
      some (if t - 1 < others.length + 1 then some (F.rows.drop (t - 1)) else none) := by
  have front := length_insertIdx_of_le_length sits.inside sel
  have bound := sits.bound
  have all : ∀ y ∈ (others.insertIdx v.position sel).map Line.rule, y.isSpecial = false := by simp [Line.isSpecial]
  have split := sits.rows.trans (children_eq sits.inside)
  simpa [front] using seek_rows (counts_lt t) split (ne_nil_of_length_pos (by simp [front])) (by simp [front]; omega) all rfl

theorem moveRowCustom_eq (idx : Number) : moveRowCustom idx F = F.moveTo Line.isSpecial lt (.rule sel) idx := by
  have member : Line.rule sel ∈ F.rows := idxOf_lt_length_iff.1 (by rw [sits.idxOf, sits.length]; have := sits.inside; omega)
  rw [moveRowCustom, sits.clicked]
  simp only [member, if_true]

omit [DecidableEq ρ] in
/-- After a move the fields show the new view. -/
theorem shows {w : View} {priority cur : Text} (inside : w.position ≤ others.length)
    (moved : w.shown ≠ .fresh) (shown : Denotes priority w.number) (counted : Denotes cur w.number) :
    Reflects others sel k { F with rows := children others sel w.position, priority, curPriority := cur } w where
  __ := sits
  rows := rfl
  inside := inside
  cur := by rwa [if_neg moved]
  priority := shown

omit [DecidableEq ρ] in
theorem typed (text : Text) : Sits others sel k { F with priority := text } v := { sits with }

theorem place_reflects {t : ℕ} (priority : Denotes F.priority t) (first : 1 ≤ t) (last : t ≤ others.length + 1) :
    ∃ F', moveRowCustom (.ofNat t) F = some F' ∧ Reflects others sel k F' (v.place t) := by
  have bound := sits.bound
  have test : (F.curPriority ≠ [] && (parseInt F.curPriority).lt (.ofNat t)) = decide (v.shown ≠ .fresh ∧ v.number < t) := by
    have cur := sits.cur
    by_cases fresh : v.shown = .fresh
    · simp_all
    · rw [if_neg fresh] at cur
      have := v.number_le
      have := sits.inside
      have small : v.number < 2 ^ 53 := by omega
      simp [cur.nonempty, cur.parseInt, fresh, ofNat_of_lt small, counts_lt t _ small]
  obtain ⟨j, next⟩ : ∃ j, j = if decide (v.shown ≠ .fresh ∧ v.number < t) then t - 1 + 1 else t - 1 := ⟨_, rfl⟩
  obtain ⟨position, inside, number, moved⟩ := v.place_spec first last sits.inside next
  have behind : j < F.rows.length := by
    rw [sits.length, next]
    split <;> omega
  have found := (sits.seek t).trans (by rw [if_pos (by omega)])
  rw [sits.moveRowCustom_eq]
  refine ⟨_, moveTo_found sits.nodup sits.le_length sits.rows (by omega) found test next behind, ?_⟩
  rw [← position]
  exact sits.shows inside moved (number.symm ▸ priority) (number.symm ▸ denotes_natText t)

/-- The old number is put back and taken. -/
theorem restore_reflects :
    ∃ F', moveRowCustom (parseInt F.oldPriority) F.restore = some F' ∧ Reflects others sel k F' (v.place k) := by
  rw [sits.old.parseInt]
  exact (sits.typed _).place_reflects sits.old sits.selectable.1 sits.selectable.2

/-- The new line is reached. -/
theorem moveRowCustom_beyond {p : ℕ} (priority : Denotes F.priority p) (beyond : others.length + 1 < p) :
    moveRowCustom (.ofNat p) F = moveRowCustom (parseInt F.oldPriority) F.restore := by
  have other : F.priority ≠ F.oldPriority := fun same => by
    have := (same ▸ priority).unique sits.old
    have := sits.selectable
    omega
  rw [sits.moveRowCustom_eq, moveTo_stopped ((sits.seek p).trans (by rw [if_neg (by omega)])) other]
  exact ((sits.typed F.oldPriority).moveRowCustom_eq _).symm

theorem typed_reflects (maxCount : Number) (integer : IntegerText F.priority) :
    ∃ F', onChangedPriority maxCount F = some F' ∧
      Reflects others sel k F' (v.place (target maxCount (others.length + 1) k F.priority)) := by
  have bound := sits.bound
  have restored := sits.restore_reflects
  rw [onChangedPriority, sits.clicked]
  rcases integer.read with ⟨denotes, number⟩ | ⟨none, low⟩
  · rw [target]
    simp only [number, Bool.false_eq_true, if_false, denotes.parseInt, Bool.or_eq_true, ofNat_lt_one]
    by_cases inside : typedNumber F.priority ≤ others.length + 1
    · rw [← ofNat_of_lt (show typedNumber F.priority < 2 ^ 53 by omega)]
      split_ifs with refused good good
      · simp_all
      · exact restored
      · exact sits.place_reflects denotes good.1 inside
      · simp_all
    · rw [sits.moveRowCustom_beyond denotes (by omega), ite_self, if_neg fun good => inside good.2.1]
      exact restored
  · have old : target maxCount (others.length + 1) k F.priority = k := by simp [target, none]
    rw [old]
    cases number : F.priority = [] || isNaN F.priority
    · simpa only [low, Bool.false_eq_true, if_false, Bool.true_or, if_true] using restored
    · -- the field is restored before it is read
      simp only [if_true]
      split_ifs <;> exact restored

end Sits

variable {delta : ℚ}

theorem shifted_eq {m : ℕ} (denotes : Denotes text n) (small : n < 2 ^ 53) (fits : m < 2 ^ 53)
    (sum : n + delta = m) : shifted text delta = some (natText m) := by
  rw [shifted, denotes.parseInt, ofNat_of_lt small, add_finite fits sum, ← ofNat_of_lt fits, numText_ofNat fits]

namespace Reflects

variable (shows : Reflects others sel k F v)

include shows

theorem move {anchor : Line ρ} {j q : ℕ}
    (found : F.rows[j]? = some anchor) (position : (if j ≤ v.position then j else j - 1) = q)
    (sum : (v.position : ℚ) + delta = q) (inside : q ≤ others.length) :
    ∃ F', F.move (.rule sel) anchor delta = some F' ∧ Reflects others sel k F' (v.moved q) := by
  have bound := shows.bound
  have old := shows.inside
  have number : (v.number : ℚ) + delta = (v.moved q).number := by
    obtain ⟨_, shown⟩ := v
    cases shown <;> simp [View.number, View.moved, ← sum, add_right_comm]
  have fits : v.number < 2 ^ 53 ∧ (v.moved q).number < 2 ^ 53 := by
    have := v.number_le
    have : (v.moved q).number ≤ q + 2 := (v.moved q).number_le
    omega
  have priority := shifted_eq shows.priority fits.1 fits.2 number
  have cur : (if F.curPriority = [] then some (natText (v.moved q).number) else shifted F.curPriority delta) =
      some (natText (v.moved q).number) := by
    have cur := shows.cur
    split_ifs at cur with fresh
    · rw [if_pos cur.1]
    · rw [if_neg cur.nonempty, shifted_eq cur fits.1 fits.2 number]
  have moved : (v.moved q).shown ≠ .fresh := by
    rw [View.moved]
    split <;> simp
  rw [shows.rows] at found
  refine ⟨_, ?_, shows.toSits.shows inside moved (denotes_natText _) (denotes_natText _)⟩
  simp only [Panel.move, priority, bind_some, cur, shows.rows, children,
    insertBefore_insertIdx shows.nodup shows.le_length found, position]
  rfl

theorem up : ∃ F', onRowClicked moveRowUp F = some F' ∧
      Reflects others sel k F' (if v.position = 0 then v else v.moved (v.position - 1)) := by
  rw [onRowClicked, shows.clicked]
  simp only [shows.old.nonempty, moveRowUp, previousSibling, shows.idxOf]
  by_cases top : v.position = 0
  · simp only [top]
    exact ⟨F, rfl, shows⟩
  · have inside : v.position - 1 < F.rows.length := by
      have := shows.length
      have := shows.inside
      omega
    simp only [top, getElem?_eq_getElem inside]
    refine shows.move (getElem?_eq_getElem inside) (if_pos (by omega)) ?_ ((Nat.sub_le _ _).trans shows.inside)
    rw [Nat.cast_pred (by omega), sub_eq_add_neg]

theorem down : ∃ F', onRowClicked moveRowDown F = some F' ∧
      Reflects others sel k F' (if v.position + 1 < others.length + 1 then v.moved (v.position + 1) else v) := by
  have length := shows.length
  have front := length_insertIdx_of_le_length shows.inside sel
  have rows := shows.rows.trans (children_eq shows.inside)
  rw [onRowClicked, shows.clicked]
  simp only [shows.old.nonempty, moveRowDown, nextSibling, shows.idxOf]
  by_cases bottom : v.position + 1 < others.length + 1
  · obtain ⟨id, rule⟩ : ∃ id, F.rows[v.position + 1]? = some (.rule id) := by
      rw [rows, getElem?_append_left (by simpa [front] using bottom), getElem?_map,
        getElem?_eq_getElem (front.symm ▸ bottom)]
      exact ⟨_, rfl⟩
    have anchor : F.rows.idxOf (.rule id) = v.position + 1 :=
      idxOf_of_getElem? (shows.rows ▸ nodup_insertIdx shows.nodup shows.le_length) rule
    have inside : v.position + 1 + 1 < F.rows.length := by omega
    simp only [rule, anchor, getElem?_eq_getElem inside, if_pos bottom]
    exact shows.move (getElem?_eq_getElem inside) (if_neg (by omega)) (by simp) (by omega)
  · have last : v.position + 1 = (others.insertIdx v.position sel).length := by
      have := shows.inside
      omega
    rw [if_neg bottom]
    refine ⟨F, ?_, shows⟩
    simp [rows, last]

end Reflects

theorem step_reflects (shows : Reflects others sel k F v) (maxCount : Number) (action : Action)
    (integer : ∀ text, action = .typed text → IntegerText text) :
    ∃ F', F.step maxCount action = some F' ∧ Reflects others sel k F' (v.step maxCount (others.length + 1) k action) := by
  cases action with
  | up => exact shows.up
  | down => exact shows.down
  | typed text => exact (shows.toSits.typed text).typed_reflects maxCount (integer text rfl)

theorem run_reflects (shows : Reflects others sel k F v) (maxCount : Number) {actions : List Action}
    (integers : ∀ text, .typed text ∈ actions → IntegerText text) :
    ∃ F', actions.foldlM (Panel.step maxCount) F = some F' ∧
      Reflects others sel k F' (actions.foldl (View.step maxCount (others.length + 1) k) v) := by
  induction actions generalizing F v with
  | nil => exact ⟨F, rfl, shows⟩
  | cons action actions ih =>
    obtain ⟨F', step, shows'⟩ := step_reflects shows maxCount action
      fun text same => integers text (same ▸ mem_cons_self)
    obtain ⟨F'', run, shows''⟩ := ih shows' fun text member => integers text (mem_cons_of_mem _ member)
    exact ⟨F'', by rw [foldlM_cons, step]; exact run, shows''⟩

end

/-- However the selected rule is moved, the other rows keep their order, and the priority field is the position of the rule
exactly if it is not one too early. -/
theorem priority_shows_position_iff [DecidableEq ρ] (rules : Rules ρ) {position : ℕ} {sel : ρ}
    (selects : rules.names[position]? = some sel) {priority : Text} (supplied : Denotes priority (position + 1))
    (maxCount : Number) {actions : List Action} (integers : ∀ text, .typed text ∈ actions → IntegerText text) : ∃ F q,
      actions.foldlM (Panel.step maxCount) (selected (rules.names.map .rule ++ [.newLine]) (.rule sel) priority) = some F ∧
      F.rows.erase (.rule sel) = (rules.names.erase sel).map .rule ++ [.newLine] ∧ F.rows[q]? = some (.rule sel) ∧
      (toNumber F.priority = .finite (q + 1 : ℕ) ↔
        (actions.foldl (View.step maxCount rules.names.length (position + 1)) ⟨position, .fresh⟩).shown ≠ .early) := by
  have back := insertIdx_erase rules.nodup selects
  have length : (rules.names.erase sel).length + 1 = rules.names.length := by
    rw [length_erase_of_mem (mem_of_getElem? selects)]
    have := (List.getElem?_eq_some_iff.1 selects).1
    omega
  have inside : position ≤ (rules.names.erase sel).length := by
    have := (List.getElem?_eq_some_iff.1 selects).1
    omega
  have bound := rules.bound
  have start : Reflects (rules.names.erase sel) sel (position + 1)
      (selected (rules.names.map .rule ++ [.newLine]) (.rule sel) priority) ⟨position, .fresh⟩ := {
    nodup := by exact nodup_lines (nodup_cons.2 ⟨rules.nodup.not_mem_erase, rules.nodup.erase sel⟩)
    bound := by omega
    selectable := by omega
    rows := by rw [children_eq inside, back]; rfl
    clicked := rfl
    inside := inside
    old := supplied
    cur := ⟨rfl, rfl⟩
    priority := supplied }
  obtain ⟨F, run, shows⟩ := run_reflects start maxCount integers
  rw [length] at shows
  generalize actions.foldl (View.step maxCount rules.names.length (position + 1)) ⟨position, .fresh⟩ = v at shows ⊢
  refine ⟨F, v.position, run, ?_, ?_, ?_⟩
  · rw [shows.rows, children, erase_insertIdx shows.nodup shows.le_length]
  · rw [shows.rows, children, getElem?_insertIdx_self, if_pos shows.le_length]
  · have := shows.inside
    have := v.number_le
    rw [shows.priority.toNumber, Number.ofNat_eq_iff (by omega), View.number]
    split <;> simp_all

/-- Of three rules the first is selected, moved down and sent to the third place. -/
theorem priority_shows_position_three : ∃ F q, [Action.down, .typed ['3']].foldlM (Panel.step (.finite 64))
        (selected [.rule 0, .rule 1, .rule 2, .newLine] (.rule 0) ['1']) = some F ∧
      F.rows[q]? = some (.rule 0) ∧ toNumber F.priority = .finite (q + 1 : ℕ) := by
  obtain ⟨F, q, run, -, place, shown⟩ := priority_shows_position_iff ⟨[0, 1, 2], by decide, by decide⟩
    (rfl : [0, 1, 2][0]? = some 0) (denotes_natText 1) (.finite 64)
    (fun text member => ⟨3, ['3'], denotes_natText 3, by simp_all⟩ :
      ∀ text, Action.typed text ∈ [Action.down, .typed ['3']] → IntegerText text)
  exact ⟨F, q, run, place, shown.2 (by decide +kernel)⟩

/-- With 2 typed for the first of three rules, the rule stays where it is. -/
theorem typed_priority_early : ([Action.typed ['2']].foldlM (Panel.step (.finite 64))
        (selected [.rule 0, .rule 1, .rule 2, .newLine] (.rule 0) ['1'])).map (fun F => (F.rows, F.priority)) =
      some ([.rule 0, .rule 1, .rule 2, .newLine], ['2']) := by
  decide +kernel

end RouterApps.Iuxpc
