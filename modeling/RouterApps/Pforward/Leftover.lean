/-
# Pforward.Leftover -- what the rules owe to leftover memory (pforward.c)

`remove_pforward` reads the file three times; the header of its list for the last reading, which looks
whether the file is empty now, is a local variable that is not set.  `removeTrace` is the pointers that
the call follows.

`get_pforward_list` copies a local variable into each rule of the list.  The flag of that variable is
not set either, and `set_pforward_list` leaves out the rules that are flagged for removal.
-/
import RouterApps.GenConfig.Pointers
import RouterApps.Pforward.RoundTrip

namespace RouterApps.Pforward

open CLib GenConfig List Option Linked

/-! ## Removing a rule -/

/-- The pointers that `get_pforward` follows: it reads `n` items, looks at `k` of them and frees the list. -/
def getTrace (links : Nat → Links) (n k : Nat) : List Ptr :=
  let (l, read) := additemTimes n (empty links)
  read ++ visit l k l.head ++ visit l n l.head

/-- The pointers that `genconfig_remove_item` follows among `n` items, where item `k` has the tag.
-/
def removeItemTrace (links : Nat → Links) (n k : Nat) : List Ptr :=
  let (l, read) := additemTimes n (empty links)
  let citem := reach l k l.head
  if citem.address = 0 then read ++ visit l k l.head ++ visit l n l.head
  else
    let (l', unlinked) := unlinkItem l citem
    read ++ visit l (k + 1) l.head ++ unlinked ++ visit l' n l'.head ++ visit l' n l'.head

/-- The pointers that the end of `remove_pforward` follows, with the header `l`. -/
def lastTrace (l : Linked) (file : File) (n : Nat) : List Ptr :=
  match file with
  | none => []
  | some _ =>
    if n = 0 then []
    else
      let (l, read) := additemTimes n l
      read ++ visit l n l.head

/-- The pointers that `remove_pforward` follows; `leftover` is what its header holds at entry. -/
def removeTrace (leftover : Linked) (name : CString) (file : File) : Option (List Ptr) := do
  let items ← genconfigReadFile file
  let (ret, _) ← getPforward name file
  let position := items.findIdx (hasTag name)
  let first := getTrace leftover.links items.length (position + 1)
  if ret ≤ 0 then some first
  else do
    let file ← fileAfter (genconfigRemoveItem name) file
    let left ← genconfigReadFile file
    some (first ++ removeItemTrace leftover.links items.length position ++ lastTrace leftover file left.length)

/-- The call is defined and follows no pointer that it has not set. -/
def FollowsOwn (leftover : Linked) (name : CString) (file : File) : Prop :=
  ∃ trace, removeTrace leftover name file = some trace ∧ ∀ p ∈ trace, p.own = true

variable (head tail : Nat) (links : Nat → Links)

section

variable {links : Nat → Links}

theorem getTrace_own (n k : Nat) : ∀ p ∈ getTrace links n k, p.own = true := by
  obtain ⟨own, read⟩ := additemTimes_own n (own_empty links)
  intro p inside
  simp only [getTrace, mem_append] at inside
  rcases inside with (inside | inside) | inside
  · exact read p inside
  · exact visit_own own k own.head p inside
  · exact visit_own own n own.head p inside

theorem removeItemTrace_own (n k : Nat) : ∀ p ∈ removeItemTrace links n k, p.own = true := by
  obtain ⟨own, read⟩ := additemTimes_own n (own_empty links)
  intro p inside
  simp only [removeItemTrace] at inside
  split at inside
  · simp only [mem_append] at inside
    rcases inside with (inside | inside) | inside
    · exact read p inside
    · exact visit_own own k own.head p inside
    · exact visit_own own n own.head p inside
  · rename_i real
    obtain ⟨own', unlinked⟩ := unlinkItem_own own (reach_holds own k own.head) real
    simp only [mem_append] at inside
    rcases inside with (((inside | inside) | inside) | inside) | inside
    · exact read p inside
    · exact visit_own own (k + 1) own.head p inside
    · exact unlinked p inside
    all_goals exact visit_own own' n own'.head p inside

/-- The last reading is harmless exactly if it reads nothing or finds the head NULL. -/
theorem lastTrace_own_iff (contents : List UInt8) (n : Nat) :
    (∀ p ∈ lastTrace (leftover head tail links) (some contents) n, p.own = true) ↔ n = 0 ∨ head = 0 := by
  by_cases none : n = 0
  · simp [lastTrace, none]
  · simp only [lastTrace, if_neg none]
    constructor
    · intro all
      exact (additems_leftover head tail links n).1 fun p inside => all p (mem_append_left _ inside)
    · intro safe
      have null : head = 0 := safe.resolve_left none
      obtain ⟨m, rfl⟩ := Nat.exists_eq_succ_of_ne_zero none
      have null' : (leftover head tail links).head.address = 0 := null
      obtain ⟨own, -⟩ := additemTimes_own m (additem_of_null null' rfl).1
      intro p inside
      rcases mem_append.1 inside with read | freed
      · exact (additems_leftover head tail links (m + 1)).2 safe p read
      · exact visit_own own (m + 1) own.head p freed

end

/-- The last read follows pointers of its own if it has no items to append or starts from NULL. -/
theorem removeTrace_of_found {name : CString} {file : File}
    {pforward : PforwardT} (got : getPforward name file = some (1, some pforward)) :
    ∃ front last, removeTrace (leftover head tail links) name file = some (front ++ last) ∧
      (∀ p ∈ front, p.own = true) ∧
      ((∀ p ∈ last, p.own = true) ↔ kept (withoutFirst name file) = [] ∨ head = 0) := by
  have readable := readable_of_getPforward got
  obtain ⟨items, read, -⟩ := genconfigReadFile_eq_some readable
  have present := (lookup_of_ruleAt (getPforward_eq readable name ▸ got)).1
  obtain ⟨contents, removed, entries, readable'⟩ := removeItem_entries readable present
  obtain ⟨left, read', entries'⟩ := genconfigReadFile_eq_some readable'
  have count : left.length = 0 ↔ kept (withoutFirst name file) = [] := by
    rw [length_eq_zero_iff, ← map_eq_nil_iff, entries', ← entriesOf, entries]
    rfl
  refine ⟨getTrace links items.length (items.findIdx (hasTag name) + 1) ++
    removeItemTrace links items.length (items.findIdx (hasTag name)),
    lastTrace (leftover head tail links) (some contents) left.length, ?_, ?_, ?_⟩
  · simp only [removeTrace, read, got, fileAfter_written removed, read', bind_eq_bind, bind_some]
    rfl
  · intro p inside
    rcases mem_append.1 inside with first | second
    · exact getTrace_own _ _ p first
    · exact removeItemTrace_own _ _ p second
  · rw [lastTrace_own_iff, count]

variable (name : CString) (flag : UInt32) (file : File)

/-- **Removing a rule** follows its own pointers exactly if the lookup is defined, and it finds no
rule, or no items are left, or the leftover head is NULL. -/
theorem followsOwn_iff : FollowsOwn (leftover head tail links) name file ↔
      ∃ ret found, getPforward name file = some (ret, found) ∧
        (ret ≤ 0 ∨ kept (withoutFirst name file) = [] ∨ head = 0) := by
  cases got : getPforward name file with
  | none =>
    refine iff_of_false ?_ ?_
    · rintro ⟨trace, traced, -⟩
      obtain ⟨items, -, traced⟩ := bind_eq_some_iff.1 traced
      rw [got] at traced
      cases traced
    · rintro ⟨ret, found, none, -⟩
      cases none
  | some result =>
    obtain ⟨ret, found⟩ := result
    have readable := readable_of_getPforward got
    obtain ⟨items, read, -⟩ := genconfigReadFile_eq_some readable
    simp only [some.injEq, Prod.mk.injEq]
    rcases ruleAt_cases (getPforward_eq readable name ▸ got) with ⟨rfl, rfl⟩ | ⟨pforward, rfl, rfl⟩
    · refine iff_of_true ⟨getTrace links items.length (items.findIdx (hasTag name) + 1), ?_, getTrace_own _ _⟩
        ⟨0, none, ⟨rfl, rfl⟩, .inl (Int.le_refl 0)⟩
      simp only [removeTrace, read, got]
      rfl
    · obtain ⟨front, last, traced, safe, own⟩ := removeTrace_of_found head tail links got
      simp only [FollowsOwn, traced, some.injEq, exists_eq_left', forall_mem_append]
      constructor
      · rintro ⟨-, all⟩
        exact ⟨1, some pforward, ⟨rfl, rfl⟩, .inr (own.1 all)⟩
      · rintro ⟨_, _, ⟨rfl, rfl⟩, left⟩
        exact ⟨safe, own.2 (left.resolve_left (by decide))⟩

/-! ## The list of rules -/

def fileRules (file : File) : List PforwardT :=
  match file with
  | none => []
  | some contents => (fgetsAll 512 contents).filterMap parseRuleLine

/-- The list that `get_pforward_list` builds, with the flags; `flag` is what the local variable holds. -/
def getPforwardListFlags (flag : UInt32) (file : File) : List (PforwardT × UInt32) :=
  (getPforwardList file).map fun pforward => (pforward, flag)

def ruleLine (pforward : PforwardT) : List UInt8 := line pforward.name.toCString (makePforwardValue pforward)

/-- Reading the list and writing it again gives one line for each rule of the file, in some order.
-/
def WrittenOnce (flag : UInt32) (file : File) : Prop :=
  ∃ order : List PforwardT, order.Perm (fileRules file) ∧
    setPforwardList (getPforwardListFlags flag file) = (order.map ruleLine).flatten

theorem getPforwardList_perm : (getPforwardList file).Perm (fileRules file) := by
  cases file with
  | none => exact List.Perm.refl _
  | some contents => exact reverse_perm _

theorem setPforwardList_flags : setPforwardList (getPforwardListFlags flag file) =
      if flag &&& removeFlag = 0 then ((getPforwardList file).map ruleLine).flatten else [] := by
  unfold setPforwardList getPforwardListFlags
  split
  · rename_i clear
    rw [filter_eq_self.2 fun x inside => ?_, List.map_map]
    · rfl
    · obtain ⟨pforward, -, rfl⟩ := mem_map.1 inside
      simpa using clear
  · rename_i set
    rw [filter_eq_nil_iff.2 fun x inside => ?_]
    · rfl
    · obtain ⟨pforward, -, rfl⟩ := mem_map.1 inside
      simpa using set

/-- **Writing the list back** writes each rule once exactly if there are none or the leftover flag
is clear. -/
theorem writtenOnce_iff : WrittenOnce flag file ↔ fileRules file = [] ∨ flag &&& removeFlag = 0 := by
  rw [WrittenOnce, setPforwardList_flags]
  by_cases clear : flag &&& removeFlag = 0
  · rw [if_pos clear]
    exact iff_of_true ⟨getPforwardList file, getPforwardList_perm file, rfl⟩ (.inr clear)
  · rw [if_neg clear, or_iff_left clear]
    constructor
    · rintro ⟨order, perm, written⟩
      have none : order = [] := by
        rw [eq_nil_iff_forall_not_mem]
        intro pforward inside
        have empty := flatten_eq_nil_iff.1 written.symm (ruleLine pforward) (mem_map_of_mem inside)
        simp [ruleLine, line] at empty
      rw [none] at perm
      exact perm.nil_eq.symm
    · intro none
      exact ⟨[], by rw [none], rfl⟩

/-- **Leftover memory.**  `remove_pforward` follows its own pointers exactly if the lookup writes
past no buffer, and it finds no rule, or no items are left, or the leftover head is NULL; the list
is written back exactly if it is empty or the lowest bit of the leftover flag is clear. -/
theorem pforward_leftover_iff (file : File) (name : CString) (head tail : Nat) (links : Nat → Links) (flag : UInt32) :
    (FollowsOwn (Linked.leftover head tail links) name file ↔
      ∃ ret found, getPforward name file = some (ret, found) ∧
        (ret ≤ 0 ∨ kept (withoutFirst name file) = [] ∨ head = 0)) ∧
    (WrittenOnce flag file ↔ fileRules file = [] ∨ flag &&& removeFlag = 0) :=
  ⟨followsOwn_iff head tail links name file, writtenOnce_iff flag file⟩

namespace Sample

/-- A chain file with the rules `web` and `ftp`. -/
def twoRules : List UInt8 :=
  ascii ['w', 'e', 'b', '=', 'w', 'e', 'b', ':', 'l', 'a', 'n', ':', 't', 'c', 'p', ':', '8', '0', ':', '1', '0', '.',
      '0', '.', '0', '.', '2', ':', '8', '1', '\n'] ++
    ascii ['f', 't', 'p', '=', 'f', 't', 'p', ':', 'l', 'a', 'n', ':', 't', 'c', 'p', ':', '2', '1', ':', '1', '0', '.',
      '0', '.', '0', '.', '3', ':', '2', '1', '\n']

end Sample

open Sample

/-- After `web` has been removed, `ftp` is read into a header with leftover pointers; with a
leftover flag of 1 neither rule is written back. -/
theorem leftover_followed_and_rules_dropped :
    (∃ trace, removeTrace (Linked.leftover 4096 8192 fun _ => ⟨Ptr.null, Ptr.null⟩) web (some twoRules) =
        some trace ∧ ⟨8192, false⟩ ∈ trace) ∧
      (fileRules (some twoRules)).length = 2 ∧
      setPforwardList (getPforwardListFlags 1 (some twoRules)) = [] := by
  refine ⟨?_, by decide +kernel, by decide +kernel⟩
  have traced : (removeTrace (Linked.leftover 4096 8192 fun _ => ⟨Ptr.null, Ptr.null⟩) web
      (some twoRules)).map (fun trace => decide ((⟨8192, false⟩) ∈ trace)) = some true := by
    decide +kernel
  obtain ⟨trace, run, inside⟩ := map_eq_some_iff.1 traced
  exact ⟨trace, run, of_decide_eq_true inside⟩

end RouterApps.Pforward
