/-
# GenConfig.Unlink -- taking items out of the list (genconfig_api.c, cconfig_api.c)

`additem_ll` builds the list of the items, and five functions take items out of it, each with its own copy of the code that
unlinks one.  The list stays linked in both directions and loses the items that match, no others (`unlinked_list`).
-/
import RouterApps.GenConfig.Indexed
import RouterApps.GenConfig.Pointers
import RouterApps.Theory.Rings

namespace RouterApps.GenConfig

open CLib Theory.Table Theory.Rings List Function Linked

/-! ## The code -/

/-- `next` of an item; `head` of the header. -/
def Linked.forth (l : Linked) (a : ℕ) : ℕ := if a = 0 then l.head.address else (l.links a).next.address

/-- `prev` of an item; `tail` of the header. -/
def Linked.back (l : Linked) (a : ℕ) : ℕ := if a = 0 then l.tail.address else (l.links a).prev.address

/-- Calls of `additem_ll`, with the contents of the items by their addresses. -/
def addItems : List Item → Linked → (ℕ → Item) → Linked × (ℕ → Item)
  | [], l, content => (l, content)
  | item :: items, l, content =>
    addItems items (additem l).1 (update content (l.allocated + 1) item)

/-- The end of a loop that was left at `citem`: NULL if nothing was found. -/
def removeFound (l : Linked) (citem : ℕ) : Linked := if citem = 0 then l else (unlinkItem l ⟨citem, true⟩).1

/-- The loop of `genconfig_remove_index_item`, with `i` and `citem`. -/
def seekIndex (l : Linked) (test : ℕ → Bool) (idx : ℤ) : ℕ → ℤ → ℕ → ℕ
  | 0, _, _ => 0
  | n + 1, i, citem =>
    if citem = 0 then 0
    else if test citem then if i = idx then citem else seekIndex l test idx n (i + 1) (l.forth citem)
    else seekIndex l test idx n i (l.forth citem)

/-- The loop of `genconfig_remove_index_allitem`; each turn goes from the head on. -/
def removeAll (test : ℕ → Bool) (steps : ℕ) : ℕ → Linked → Linked
  | 0, l => l
  | n + 1, l =>
    let citem := seek l.forth test steps l.head.address
    if citem = 0 then l else removeAll test steps n (removeFound l citem)

/-- The loop of `iconfig_remove_tag_prefix`; `nitem` is read before the item is freed. -/
def removePass (test : ℕ → Bool) : ℕ → ℕ → Linked → Linked
  | 0, _, l => l
  | n + 1, citem, l =>
    if citem = 0 then l
    else removePass test n (l.forth citem) (if test citem then removeFound l citem else l)

/-- The functions that take items out. -/
inductive Removal
  | removeItem (tag : CString)
  | makeDefault (tag : CString)
  | removeIndexItem (idx : ℤ) (itag : CString)
  | removeIndexAllitem (tag : CString)
  | removeTagPrefix (start : CString)

def Removal.matches (content : ℕ → Item) (removal : Removal) (a : ℕ) : Bool :=
  match removal with
  | .removeItem tag | .makeDefault tag => hasTag tag (content a)
  | .removeIndexItem _ itag => ofBase (baseTag itag) (content a)
  | .removeIndexAllitem tag => ofBase tag (content a)
  | .removeTagPrefix start => startsWith start (content a).tag.toCString

/-- What a function does with the list, in at most `fuel` steps of each loop. -/
def Removal.run (content : ℕ → Item) (fuel : ℕ) (l : Linked) (removal : Removal) : Linked :=
  let test := removal.matches content
  match removal with
  | .removeItem _ | .makeDefault _ => removeFound l (seek l.forth test fuel l.head.address)
  | .removeIndexItem idx _ => removeFound l (seekIndex l test idx fuel 0 l.head.address)
  | .removeIndexAllitem _ => removeAll test fuel fuel l
  | .removeTagPrefix _ => removePass test fuel l.head.address l

/-- Without the item that passes the test after `k` others. -/
def eraseNth (test : ℕ → Bool) (k : ℕ) (as : List ℕ) : List ℕ :=
  ((splitNth test k as).map fun (before, _, after) => before ++ after).getD as

/-- The items that are to be left. -/
def Removal.left (content : ℕ → Item) (as : List ℕ) (removal : Removal) : List ℕ :=
  let test := removal.matches content
  match removal with
  | .removeItem _ | .makeDefault _ => eraseNth test 0 as
  | .removeIndexItem idx _ => if 0 ≤ idx then eraseNth test idx.toNat as else as
  | .removeIndexAllitem _ | .removeTagPrefix _ => as.filter fun a => !test a

/-! ## The list -/

section

variable {l : Linked} {as xs ys : List ℕ} {a z n : ℕ} {test : ℕ → Bool}

/-- The items of the list, in order. -/
def Linked.Lists (l : Linked) (as : List ℕ) : Prop := Chain l.forth l.back as

theorem Linked.Lists.real (lists : l.Lists as) : 0 ∉ as := (nodup_cons.1 lists.nodup).1

theorem Linked.Lists.walk (lists : l.Lists as) (enough : as.length ≤ n) :
    walk l.forth n l.head.address = as ∧ Theory.Rings.walk l.back n l.tail.address = as.reverse :=
  ⟨lists.forth.walk_eq lists.real enough, lists.back.walk_eq (by simpa using lists.real) (by simpa using enough)⟩

/-- The code that unlinks an item writes to the two neighbours, whether they are items or the header. -/
theorem forth_unlinkItem (real : a ≠ 0) :
    (unlinkItem l ⟨a, true⟩).1.forth = update l.forth (l.back a) (l.forth a) := by
  funext b
  simp only [unlinkItem, linkNext, linkPrev, forth, back, update_apply]
  split_ifs <;> simp_all [update_apply] <;> split_ifs <;> simp_all

theorem back_unlinkItem (real : a ≠ 0) : (unlinkItem l ⟨a, true⟩).1.back = update l.back (l.forth a) (l.back a) := by
  funext b
  simp only [unlinkItem, linkNext, linkPrev, forth, back, update_apply]
  split_ifs <;> simp_all [update_apply] <;> split_ifs <;> simp_all

theorem removeFound_lists (lists : l.Lists (xs ++ a :: ys)) : (removeFound l a).Lists (xs ++ ys) := by
  have real : a ≠ 0 := by
    rintro rfl
    exact lists.real (by simp)
  rw [removeFound, if_neg real, Linked.Lists, forth_unlinkItem real, back_unlinkItem real]
  exact lists.unlink

theorem additem_lists (lists : l.Lists as) (old : ∀ a ∈ as, a ≤ l.allocated) :
    (additem l).1.Lists (as ++ [l.allocated + 1]) := by
  have new : l.allocated + 1 ∉ 0 :: as := by
    intro inside
    have := mem_cons.1 inside
    grind
  have both : l.head.address = 0 ↔ l.tail.address = 0 := by
    have first : l.head.address = as.head?.getD 0 := lists.forth.first
    have last : l.tail.address = as.getLast?.getD 0 := head?_reverse ▸ lists.back.first
    have real := lists.real
    cases as with
    | nil => rw [first, last]; rfl
    | cons a as =>
      have := getLast?_getD_mem as a
      grind
  have forth : (additem l).1.forth =
      update (update l.forth (l.allocated + 1) 0) (l.back 0) (l.allocated + 1) := by
    funext b
    simp only [additem, forth, back, update_apply]
    split_ifs <;> grind [Ptr.null]
  have back : (additem l).1.back =
      update (update l.back (l.allocated + 1) (l.back 0)) 0 (l.allocated + 1) := by
    funext b
    simp only [additem, back, update_apply]
    split_ifs <;> grind [Ptr.null]
  rw [Linked.Lists, forth, back]
  exact lists.append new

theorem addItems_lists (lists : l.Lists as) (old : ∀ a ∈ as, a ≤ l.allocated) (items : List Item) (content : ℕ → Item) :
    ∃ new, (addItems items l content).1.Lists (as ++ new) ∧
      (as ++ new).map (addItems items l content).2 = as.map content ++ items := by
  induction items generalizing l as content with
  | nil => exact ⟨[], by simpa [addItems] using lists, by simp [addItems]⟩
  | cons item items ih =>
    have allocated : (additem l).1.allocated = l.allocated + 1 := by
      unfold additem
      split <;> rfl
    obtain ⟨new, lists', same⟩ := ih (additem_lists lists old)
      (fun a inside => by have := mem_append.1 inside; grind) (update content (l.allocated + 1) item)
    refine ⟨(l.allocated + 1) :: new, by simpa [addItems] using lists', ?_⟩
    have kept : as.map (update content (l.allocated + 1) item) = as.map content :=
      map_congr_left fun a inside => update_of_ne (by have := old a inside; omega) _ _
    simpa [addItems, kept] using same

/-! ## The loops -/

theorem removeFound_eraseNth (lists : l.Lists as) (k : ℕ) :
    (removeFound l (((splitNth test k as).map (·.2.1)).getD 0)).Lists (eraseNth test k as) := by
  rw [eraseNth]
  cases split : splitNth test k as with
  | none => exact lists
  | some found =>
    rw [(splitNth_eq_some split).1] at lists
    exact removeFound_lists lists

theorem seekIndex_eq (path : Path l.forth z as) (real : 0 ∉ as) (idx i : ℤ) (enough : as.length ≤ n) :
    seekIndex l test idx n i (l.forth z) =
      if i ≤ idx then ((splitNth test (idx - i).toNat as).map (·.2.1)).getD 0 else 0 := by
  induction as generalizing z n i with
  | nil =>
    have ended : l.forth z = 0 := path
    cases n <;> simp [seekIndex, splitNth, ended]
  | cons a as ih =>
    obtain ⟨m, rfl⟩ := Nat.exists_eq_add_of_le' (Nat.le_of_add_left_le enough)
    have rest := fun i => ih path.2 (not_mem_of_not_mem_cons real) i (Nat.le_of_succ_le_succ enough)
    rw [seekIndex, path.1, if_neg (ne_of_not_mem_cons real).symm, rest, rest]
    simp only [splitNth]
    cases test a with
    | false => simp [comp_def]
    | true =>
      by_cases here : i = idx
      · simp [here]
      · by_cases past : i ≤ idx
        · have position : (idx - i).toNat = (idx - (i + 1)).toNat + 1 := by omega
          simp [here, past, position, show i + 1 ≤ idx by omega, comp_def]
        · simp [here, past, show ¬ i + 1 ≤ idx by omega]

theorem removeAll_lists {steps : ℕ} (lists : l.Lists as) (enough : as.length ≤ steps) (turns : as.countP test ≤ n) :
    (removeAll test steps n l).Lists (as.filter fun a => !test a) := by
  have none : ∀ {as : List ℕ}, as.countP test = 0 → (as.filter fun a => !test a) = as := fun zero =>
    filter_eq_self.2 fun a inside => by simpa using countP_eq_zero.1 zero a inside
  induction n generalizing l as with
  | zero =>
    rw [none (Nat.le_zero.1 turns)]
    exact lists
  | succ n ih =>
    have sought := lists.forth.seek_eq lists.real test enough
    rw [removeAll, show l.head.address = l.forth 0 from rfl, sought]
    cases found : as.find? test with
    | none =>
      rw [none (countP_eq_zero.2 fun a inside => by exact find?_eq_none.1 found a inside)]
      exact lists
    | some a =>
      obtain ⟨good, xs, ys, rfl, bad⟩ := find?_eq_some_iff_append.1 found
      have real : a ≠ 0 := fun zero => lists.real (by simp [zero])
      simp only [countP_append, countP_cons_of_pos good] at turns
      have rest := ih (removeFound_lists lists) (by simp at enough ⊢; omega) (by rw [countP_append]; omega)
      simpa [real, good] using rest

theorem removePass_lists (xs : List ℕ) (lists : l.Lists (xs ++ as)) (enough : as.length ≤ n) :
    (removePass test n (as.head?.getD 0) l).Lists (xs ++ as.filter fun a => !test a) := by
  induction as generalizing l xs n with
  | nil => cases n <;> exact lists
  | cons a as ih =>
    obtain ⟨m, rfl⟩ := Nat.exists_eq_add_of_le' (Nat.le_of_add_left_le enough)
    have real : a ≠ 0 := fun zero => lists.real (by simp [zero])
    rw [removePass, head?_cons, Option.getD_some, if_neg real, lists.forth.rest.first]
    cases bad : test a with
    | true =>
      simpa [bad] using ih xs (removeFound_lists lists) (Nat.le_of_succ_le_succ enough)
    | false =>
      have := ih (xs ++ [a]) (by simpa using lists) (Nat.le_of_succ_le_succ enough)
      simpa [bad] using this

end

theorem lists_empty (links : ℕ → Links) : (empty links).Lists [] := ⟨by simp, rfl, rfl⟩

theorem run_lists {l : Linked} {as : List ℕ} {n : ℕ} (lists : l.Lists as) (enough : as.length ≤ n)
    (content : ℕ → Item) (removal : Removal) : (removal.run content n l).Lists (removal.left content as) := by
  have first test : (removeFound l (seek l.forth test n l.head.address)).Lists (eraseNth test 0 as) := by
    rw [show l.head.address = l.forth 0 from rfl, lists.forth.seek_eq lists.real test enough, find?_eq_splitNth]
    exact removeFound_eraseNth lists 0
  cases removal with
  | removeItem tag | makeDefault tag => exact first _
  | removeIndexItem idx itag =>
    rw [Removal.run, show l.head.address = l.forth 0 from rfl, seekIndex_eq lists.forth lists.real idx 0 enough, Int.sub_zero,
      Removal.left]
    split
    · exact removeFound_eraseNth lists idx.toNat
    · exact lists
  | removeIndexAllitem tag => exact removeAll_lists lists enough (countP_le_length.trans enough)
  | removeTagPrefix start =>
    rw [Removal.run, show l.head.address = _ from lists.forth.first]
    exact removePass_lists [] lists enough

theorem eraseNth_length_le (test : ℕ → Bool) (k : ℕ) (as : List ℕ) : (eraseNth test k as).length ≤ as.length := by
  rw [eraseNth]
  cases split : splitNth test k as with
  | none => exact le_rfl
  | some found =>
    rw [(splitNth_eq_some split).1]
    simp

theorem Removal.left_length_le (content : ℕ → Item) (as : List ℕ) (removal : Removal) :
    (removal.left content as).length ≤ as.length := by
  cases removal <;> simp only [Removal.left]
  case removeIndexItem =>
    split
    · exact eraseNth_length_le ..
    · exact le_rfl
  all_goals first | exact eraseNth_length_le .. | exact length_filter_le ..

/-- **The list of items.**  After calls of `additem_ll` and a removal the list has the same items from the head and, in the
opposite order, from the tail: those that were added, in their order, without the ones that match. -/
theorem unlinked_list (links : ℕ → Links) (memory : ℕ → Item) (items : List Item) (removal : Removal) (more : ℕ) :
    let fuel := items.length + more
    let l := (addItems items (Linked.empty links) memory).1
    let content := (addItems items (Linked.empty links) memory).2
    let l' := removal.run content fuel l
    ∃ as, as.map content = items ∧
      walk l.forth fuel l.head.address = as ∧ walk l.back fuel l.tail.address = as.reverse ∧
      walk l'.forth fuel l'.head.address = removal.left content as ∧
      walk l'.back fuel l'.tail.address = (removal.left content as).reverse := by
  intro fuel l content l'
  obtain ⟨as, lists, same⟩ := addItems_lists (lists_empty links) (by simp) items memory
  have enough : as.length ≤ fuel := by
    have length := congrArg List.length same
    simp only [nil_append, length_map, map_nil] at length
    omega
  obtain ⟨first, last⟩ := lists.walk enough
  obtain ⟨first', last'⟩ := (run_lists lists enough content removal).walk ((removal.left_length_le content as).trans enough)
  exact ⟨as, same, first, last, first', last'⟩

end RouterApps.GenConfig
