/-
# Iuxpc.Loadshare -- the form of a load-share rule (trafficconf.js)

`checkForm` checks each port by its number and then compares the two ends of a range with `<`.  The values are texts, and
texts are compared as words: "100" is before "20".  The form submits what is meant exactly if both ranges have the same
order as words and as numbers (`port_range_submitted_iff`).
-/
import RouterApps.Iuxpc.Address

namespace RouterApps.Iuxpc

open JsLib List

structure LoadshareForm where
  ruleCount : Text
  name : Text
  prio : Text
  protocol : Text
  act : Text
  sPort1 : Text
  sPort2 : Text
  dPort1 : Text
  dPort2 : Text

/-- The field of a port that gets the focus. -/
inductive PortField
  | sPort1
  | sPort2
  | dPort1
  | dPort2
  deriving DecidableEq, Repr

/-- The messages of `checkForm`, with the field that gets the focus where it depends on the form. -/
inductive LoadshareAlert
  | noMoreRule
  | ruleNameIsBlank
  | invalidIp (obj : Text)
  | ippoolMaxWarning
  | invalidPriority
  | invalidExtPort (focus : PortField)
  deriving DecidableEq, Repr

def sip : Text := ['s', 'i', 'p']

def eip : Text := ['e', 'i', 'p']

def dstSip : Text := ['d', 's', 't', '_', 's', 'i', 'p']

def dstEip : Text := ['d', 's', 't', '_', 'e', 'i', 'p']

/-- A range of addresses is typed into the form. -/
def hasRange (doc : Document) (first last : Text) : Bool :=
  (doc (first ++ natText 4)).getD [] ≠ [] && (doc (last ++ natText 4)).getD [] ≠ []

/-- The checks of `checkForm` before the protocol.  The number of rules is compared with 60 only. -/
def checkRule (doc : Document) (curIppool maxIppool : Number) (F : LoadshareForm) : Option LoadshareAlert :=
  if checkRange F.ruleCount (.finite 60) .nan = false then some .noMoreRule
  else if F.name = [] then some .ruleNameIsBlank
  else
    match [sip, eip, dstSip, dstEip].findSome? (checkOptionalIP doc) with
    | some obj => some (.invalidIp obj)
    | none =>
      if hasRange doc sip eip && maxIppool.le curIppool then some .ippoolMaxWarning
      else if hasRange doc dstSip dstEip && maxIppool.le curIppool then some .ippoolMaxWarning
      else if F.prio ≠ [] && checkOptionalRange F.prio (.finite 1) (toNumber F.ruleCount) then some .invalidPriority
      else none

/-- A port that is typed is outside the range. -/
def refusesPort (port : Text) : Bool := port ≠ [] && checkRange port (.finite 1) (.finite 65535)

/-- The end of a range is before its start, as words. -/
def wordsReversed (start stop : Text) : Bool := stop < start && stop ≠ [] && start ≠ []

/-- The checks of the ports. -/
def checkPorts (F : LoadshareForm) : Option PortField :=
  if F.sPort1 = [] && F.dPort1 = [] then some .sPort1
  else if refusesPort F.sPort1 then some .sPort1
  else if refusesPort F.sPort2 then some .sPort2
  else if wordsReversed F.sPort1 F.sPort2 then some .sPort1
  else if refusesPort F.dPort1 then some .dPort1
  else if refusesPort F.dPort2 then some .dPort2
  else if wordsReversed F.dPort1 F.dPort2 then some .dPort1
  else none

/-- `checkForm`: the message, or the action of the form that is submitted. -/
def checkForm (doc : Document) (curIppool maxIppool : Number) (F : LoadshareForm) : Except LoadshareAlert Text :=
  match checkRule doc curIppool maxIppool F with
  | some message => .error message
  | none =>
    match if F.protocol ≠ ['a', 'n', 'y'] then checkPorts F else none with
    | some focus => .error (.invalidExtPort focus)
    | none => .ok (if F.act = [] then ['a', 'd', 'd'] else F.act)

/-- There is a start port, and every port is the digits of 1 to 65535. -/
def GoodPorts (F : LoadshareForm) : Prop :=
  (F.sPort1 ≠ [] ∨ F.dPort1 ≠ []) ∧
    ∀ port ∈ [F.sPort1, F.sPort2, F.dPort1, F.dPort2], port ≠ [] → ∃ n, Denotes port n ∧ 1 ≤ n ∧ n ≤ 65535

/-- The numbers of a range are in order. -/
def Ascending (start stop : Text) : Prop := ∀ first last, Denotes start first → Denotes stop last → first ≤ last

theorem refusesPort_eq_false_iff {port : Text} :
    refusesPort port = false ↔ (port ≠ [] → ∃ n, Denotes port n ∧ 1 ≤ n ∧ n ≤ 65535) := by
  have range := checkRange_eq_false_iff (t := port) (l := 1) (h := 65535) (by norm_num) (by norm_num)
  simp only [Nat.cast_one, Nat.cast_ofNat] at range
  rw [refusesPort, Bool.and_eq_false_imp, range, decide_eq_true_iff]

theorem checkPorts_eq_none_iff {F : LoadshareForm} :
    checkPorts F = none ↔ GoodPorts F ∧ wordsReversed F.sPort1 F.sPort2 = false ∧ wordsReversed F.dPort1 F.dPort2 = false := by
  simp only [GoodPorts, ← refusesPort_eq_false_iff, or_iff_not_imp_left]
  rw [checkPorts]
  split_ifs <;> simp_all

/-- A rule that is otherwise fine is submitted as it should be exactly if words and numbers have the
same order. -/
theorem port_range_submitted_iff {doc : Document} {curIppool maxIppool : Number} {F : LoadshareForm}
    (rule : checkRule doc curIppool maxIppool F = none) (protocol : F.protocol ≠ ['a', 'n', 'y']) :
    ((∃ act, checkForm doc curIppool maxIppool F = .ok act) ↔
        GoodPorts F ∧ Ascending F.sPort1 F.sPort2 ∧ Ascending F.dPort1 F.dPort2) ↔
      (GoodPorts F →
        (wordsReversed F.sPort1 F.sPort2 = false ∧ wordsReversed F.dPort1 F.dPort2 = false ↔
          Ascending F.sPort1 F.sPort2 ∧ Ascending F.dPort1 F.dPort2)) := by
  have submitted : (∃ act, checkForm doc curIppool maxIppool F = .ok act) ↔ checkPorts F = none := by
    rw [checkForm, rule, if_pos protocol]
    cases checkPorts F <;> simp
  rw [submitted, checkPorts_eq_none_iff]
  tauto

/-- A rule with a range of source ports. -/
def sampleRule (start stop : Text) : LoadshareForm where
  ruleCount := ['0']
  name := ['r']
  prio := []
  protocol := ['t', 'c', 'p']
  act := []
  sPort1 := start
  sPort2 := stop
  dPort1 := []
  dPort2 := []

/-- A rule from port 1000 to port 2000. -/
theorem port_range_submitted_thousands :
    ∃ act, checkForm (fun _ => none) (.finite 0) (.finite 8) (sampleRule (natText 1000) (natText 2000)) = .ok act := by
  have ports : Ascending (natText 1000) (natText 2000) := fun first last start stop => by
    rw [start.unique (denotes_natText _), stop.unique (denotes_natText _)]
    decide
  have none : Ascending [] [] := fun _ _ empty _ => absurd rfl empty.nonempty
  have good : GoodPorts (sampleRule (natText 1000) (natText 2000)) := by
    refine ⟨.inl (by decide), ?_⟩
    simp only [sampleRule, forall_mem_cons, not_mem_nil, ne_eq, not_true, false_imp_iff, implies_true, and_true]
    exact ⟨fun _ => ⟨1000, denotes_natText _, by decide⟩, fun _ => ⟨2000, denotes_natText _, by decide⟩⟩
  have submitted := port_range_submitted_iff (F := sampleRule (natText 1000) (natText 2000))
    (by decide +kernel : checkRule (fun _ => .none) (.finite 0) (.finite 8) _ = .none) (by decide)
  exact (submitted.2 fun _ => ⟨fun _ => ⟨ports, none⟩, fun _ => by decide⟩).2 ⟨good, ports, none⟩

/-- The range from 20 to 100 is refused, and the range from 100 to 20 is submitted. -/
theorem port_range_words : checkForm (fun _ => none) (.finite 0) (.finite 8) (sampleRule (natText 20) (natText 100)) =
        .error (.invalidExtPort .sPort1) ∧
      checkForm (fun _ => none) (.finite 0) (.finite 8) (sampleRule (natText 100) (natText 20)) = .ok ['a', 'd', 'd'] := by
  decide +kernel

end RouterApps.Iuxpc
