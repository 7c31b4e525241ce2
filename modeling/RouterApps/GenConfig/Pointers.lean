/-
# GenConfig.Pointers -- the list of items as pointers (genconfig_api.c)

The items of a file form a doubly linked list, with a header `genconfig_ll_t` that the caller provides.
Most callers set both pointers of the header to NULL before they read a file into it.

Here a pointer says whether the current call has set it.  From a header that was set to NULL, all
pointers that are followed were set by the call (`Own`).  A header with leftover content is as good as
that if its head happens to be NULL; otherwise the first item that is added follows the leftover tail
(`additems_leftover`).
-/
import Mathlib

namespace RouterApps.GenConfig

open List

/-- The content of a pointer variable: an address, 0 for NULL, and whether the current call has set it. -/
structure Ptr where
  address : Nat
  own : Bool
deriving DecidableEq

/-- NULL, set by the current call. -/
def Ptr.null : Ptr := ⟨0, true⟩

/-- The links of a `genconfig_item_t`. -/
structure Links where
  next : Ptr
  prev : Ptr

/-- A `genconfig_ll_t`, the links of the items in memory, and how many items the call has allocated.
-/
structure Linked where
  head : Ptr
  tail : Ptr
  links : Nat → Links
  allocated : Nat

/-- `head = tail = NULL`; the memory may hold anything. -/
def Linked.empty (links : Nat → Links) : Linked := ⟨Ptr.null, Ptr.null, links, 0⟩

/-- A header that nobody has set. -/
def Linked.leftover (head tail : Nat) (links : Nat → Links) : Linked := ⟨⟨head, false⟩, ⟨tail, false⟩, links, 0⟩

/-! ## The functions -/

/-- `additem_ll`: the list with a new item, and the pointers that are followed. -/
def additem (l : Linked) : Linked × List Ptr :=
  let citem : Ptr := ⟨l.allocated + 1, true⟩
  if l.head.address = 0 then
    (⟨citem, citem, Function.update l.links citem.address ⟨Ptr.null, Ptr.null⟩, l.allocated + 1⟩, [citem])
  else
    let links := Function.update l.links citem.address ⟨Ptr.null, l.tail⟩
    let links := Function.update links l.tail.address { links l.tail.address with next := citem }
    (⟨l.head, citem, links, l.allocated + 1⟩, [citem, l.tail])

/-- The loop of `genconfig_read_file` for a file with `n` items. -/
def additemTimes : Nat → Linked → Linked × List Ptr
  | 0, l => (l, [])
  | n + 1, l =>
    let (l, followed) := additem l
    let (l, more) := additemTimes n l
    (l, followed ++ more)

/-- A loop over the items, from `p` on, that looks at `n` of them at most. -/
def visit (l : Linked) : Nat → Ptr → List Ptr
  | 0, _ => []
  | n + 1, p => if p.address = 0 then [] else p :: visit l n (l.links p.address).next

/-- Where a loop over the items stands after `n` steps. -/
def reach (l : Linked) : Nat → Ptr → Ptr
  | 0, p => p
  | n + 1, p => if p.address = 0 then p else reach l n (l.links p.address).next

/-- `if (p) p->next = q; else gen_ll.head = q;`. -/
def linkNext (l : Linked) (p q : Ptr) : Linked × List Ptr :=
  if p.address = 0 then ({ l with head := q }, [])
  else ({ l with links := Function.update l.links p.address { l.links p.address with next := q } }, [p])

/-- `if (p) p->prev = q; else gen_ll.tail = q;`. -/
def linkPrev (l : Linked) (p q : Ptr) : Linked × List Ptr :=
  if p.address = 0 then ({ l with tail := q }, [])
  else ({ l with links := Function.update l.links p.address { l.links p.address with prev := q } }, [p])

def unlinkItem (l : Linked) (citem : Ptr) : Linked × List Ptr :=
  let pitem := (l.links citem.address).prev
  let nitem := (l.links citem.address).next
  let (l, back) := linkNext l pitem nitem
  let (l, front) := linkPrev l nitem pitem
  (l, citem :: back ++ front)

/-! ## Lists of the current call -/

/-- The pointer was set by the call, and leads to one of its items or nowhere. -/
def Linked.Holds (l : Linked) (p : Ptr) : Prop := p.own = true ∧ p.address ≤ l.allocated

/-- The header and all items were set by the call. -/
structure Linked.Own (l : Linked) : Prop where
  head : l.Holds l.head
  tail : l.Holds l.tail
  next : ∀ a, 0 < a → a ≤ l.allocated → l.Holds (l.links a).next
  prev : ∀ a, 0 < a → a ≤ l.allocated → l.Holds (l.links a).prev

theorem Linked.own_empty (links : Nat → Links) : (Linked.empty links).Own :=
  ⟨⟨rfl, Nat.le_refl 0⟩, ⟨rfl, Nat.le_refl 0⟩, fun _ pos le => absurd pos (Nat.not_lt.2 le),
    fun _ pos le => absurd pos (Nat.not_lt.2 le)⟩

variable (n : Nat) {l : Linked}

section

/-- A write to the links of an item of the call. -/
theorem Linked.Own.update (own : l.Own) {a : Nat} {new : Links}
    (good : 0 < a → a ≤ l.allocated → l.Holds new.next ∧ l.Holds new.prev) :
    ({ l with links := Function.update l.links a new } : Linked).Own := by
  refine ⟨own.head, own.tail, fun b pos le => ?_, fun b pos le => ?_⟩
  · by_cases same : b = a
    · subst same
      simpa [Linked.Holds] using (good pos le).1
    · simpa [same, Linked.Holds] using own.next b pos le
  · by_cases same : b = a
    · subst same
      simpa [Linked.Holds] using (good pos le).2
    · simpa [same, Linked.Holds] using own.prev b pos le

variable {p : Ptr}

theorem Linked.Own.setHead (own : l.Own) (holds : l.Holds p) : ({ l with head := p } : Linked).Own :=
  ⟨holds, own.tail, own.next, own.prev⟩

theorem Linked.Own.setTail (own : l.Own) (holds : l.Holds p) : ({ l with tail := p } : Linked).Own :=
  ⟨own.head, holds, own.next, own.prev⟩

theorem Linked.Own.allocate (own : l.Own) (new : Links) (next : l.Holds new.next) (prev : l.Holds new.prev) :
    ({ l with links := Function.update l.links (l.allocated + 1) new, allocated := l.allocated + 1 } : Linked).Own := by
  have more : ∀ p : Ptr, p.own = true ∧ p.address ≤ l.allocated → p.own = true ∧ p.address ≤ l.allocated + 1 :=
    fun p ⟨mine, le⟩ => ⟨mine, Nat.le_succ_of_le le⟩
  refine ⟨more _ own.head, more _ own.tail, fun b pos le => ?_, fun b pos le => ?_⟩
  · by_cases same : b = l.allocated + 1
    · subst same
      simpa [Linked.Holds] using more _ next
    · have old : b ≤ l.allocated := by
        have le : b ≤ l.allocated + 1 := le
        omega
      simpa [same, Linked.Holds] using more _ (own.next b pos old)
  · by_cases same : b = l.allocated + 1
    · subst same
      simpa [Linked.Holds] using more _ prev
    · have old : b ≤ l.allocated := by
        have le : b ≤ l.allocated + 1 := le
        omega
      simpa [same, Linked.Holds] using more _ (own.prev b pos old)

theorem holds_null : l.Holds Ptr.null := ⟨rfl, Nat.zero_le _⟩

/-- The first item of a call may go to any header whose head is NULL. -/
theorem additem_of_null (null : l.head.address = 0) (none : l.allocated = 0) :
    (additem l).1.Own ∧ ∀ p ∈ (additem l).2, p.own = true := by
  unfold additem
  rw [if_pos null]
  have one : ∀ a, 0 < a → a ≤ l.allocated + 1 → a = l.allocated + 1 := by omega
  refine ⟨⟨⟨rfl, Nat.le_refl _⟩, ⟨rfl, Nat.le_refl _⟩, fun a pos le => ?_, fun a pos le => ?_⟩, by simp⟩
  all_goals
    obtain rfl := one a pos le
    simp [Linked.Holds, Ptr.null]

section

variable (own : l.Own)

include own

theorem additem_own : (additem l).1.Own ∧ ∀ p ∈ (additem l).2, p.own = true := by
  unfold additem
  split
  · have added := own.allocate ⟨Ptr.null, Ptr.null⟩ holds_null holds_null
    exact ⟨(added.setHead ⟨rfl, Nat.le_refl _⟩).setTail ⟨rfl, Nat.le_refl _⟩, by simp⟩
  · have added := own.allocate ⟨Ptr.null, l.tail⟩ holds_null own.tail
    refine ⟨Linked.Own.setTail (added.update ?_) ⟨rfl, Nat.le_refl _⟩, by simpa using own.tail.1⟩
    exact fun pos le => ⟨⟨rfl, Nat.le_refl _⟩, added.prev _ pos le⟩

theorem additemTimes_own : (additemTimes n l).1.Own ∧ ∀ p ∈ (additemTimes n l).2, p.own = true := by
  induction n generalizing l with
  | zero => exact ⟨own, by simp [additemTimes]⟩
  | succ n ih =>
    obtain ⟨own', first⟩ := additem_own own
    obtain ⟨own'', rest⟩ := ih own'
    refine ⟨own'', fun p inside => ?_⟩
    rcases mem_append.1 inside with here | later
    · exact first p here
    · exact rest p later

theorem visit_own (n : Nat) (holds : l.Holds p) : ∀ q ∈ visit l n p, q.own = true := by
  induction n generalizing p with
  | zero => simp [visit]
  | succ n ih =>
    simp only [visit]
    split
    · simp
    · rename_i real
      intro q inside
      rcases mem_cons.1 inside with rfl | later
      · exact holds.1
      · exact ih (own.next _ (Nat.pos_of_ne_zero real) holds.2) q later

theorem reach_holds (n : Nat) (holds : l.Holds p) : l.Holds (reach l n p) := by
  induction n generalizing p with
  | zero => exact holds
  | succ n ih =>
    simp only [reach]
    split
    · exact holds
    · rename_i real
      exact ih (own.next _ (Nat.pos_of_ne_zero real) holds.2)

theorem linkNext_own {q : Ptr} (first : l.Holds p) (second : l.Holds q) :
    (linkNext l p q).1.Own ∧ (linkNext l p q).1.allocated = l.allocated ∧ ∀ r ∈ (linkNext l p q).2, r.own = true := by
  unfold linkNext
  split
  · exact ⟨own.setHead second, rfl, by simp⟩
  · refine ⟨own.update fun pos le => ⟨second, own.prev _ pos le⟩, rfl, ?_⟩
    simpa using first.1

theorem linkPrev_own {q : Ptr} (first : l.Holds p) (second : l.Holds q) :
    (linkPrev l p q).1.Own ∧ ∀ r ∈ (linkPrev l p q).2, r.own = true := by
  unfold linkPrev
  split
  · exact ⟨own.setTail second, by simp⟩
  · refine ⟨own.update fun pos le => ⟨own.next _ pos le, second⟩, ?_⟩
    simpa using first.1

theorem unlinkItem_own {citem : Ptr} (holds : l.Holds citem) (real : citem.address ≠ 0) :
    (unlinkItem l citem).1.Own ∧ ∀ p ∈ (unlinkItem l citem).2, p.own = true := by
  have prev := own.prev _ (Nat.pos_of_ne_zero real) holds.2
  have next := own.next _ (Nat.pos_of_ne_zero real) holds.2
  obtain ⟨own', same, back⟩ := linkNext_own own prev next
  have holds' : ∀ {p : Ptr}, l.Holds p →
      (linkNext l (l.links citem.address).prev (l.links citem.address).next).1.Holds p :=
    fun ⟨mine, le⟩ => ⟨mine, same.symm ▸ le⟩
  obtain ⟨own'', front⟩ := linkPrev_own own' (holds' next) (holds' prev)
  refine ⟨own'', fun p inside => ?_⟩
  rcases mem_append.1 inside with before | after
  · rcases mem_cons.1 before with rfl | before
    · exact holds.1
    · exact back p before
  · exact front p after

end

end

/-! ## The order of the items -/

section

end

/-! ## A header that nobody has set -/

/-- **Reading into a leftover header.**  All pointers were set by the call exactly if no item is
read or the head happens to be NULL. -/
theorem additems_leftover (head tail : Nat) (links : Nat → Links) (n : Nat) :
    (∀ p ∈ (additemTimes n (Linked.leftover head tail links)).2, p.own = true) ↔ n = 0 ∨ head = 0 := by
  cases n with
  | zero => simp [additemTimes]
  | succ n =>
    have head' : (Linked.leftover head tail links).head.address = head := rfl
    by_cases null : head = 0
    · obtain ⟨own, first⟩ := additem_of_null (head'.trans null) rfl
      obtain ⟨-, rest⟩ := additemTimes_own n own
      refine iff_of_true (fun p inside => ?_) (.inr null)
      rcases mem_append.1 inside with here | later
      · exact first p here
      · exact rest p later
    · refine iff_of_false (fun all => ?_) (by simp [null])
      have followed : (⟨tail, false⟩) ∈ (additem (Linked.leftover head tail links)).2 := by
        unfold additem
        rw [if_neg (head'.symm ▸ null)]
        exact mem_cons_of_mem _ mem_cons_self
      cases all _ (mem_append_left _ followed)

end RouterApps.GenConfig
