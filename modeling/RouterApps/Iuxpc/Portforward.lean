/-
# Iuxpc.Portforward -- the form of a port-forward rule (natrouterconf_portforward.js)

`onApplyBtnClicked` tests a port with `isNaN`, with the first number in it and with a list of characters, and an address
only by its bits below the mask.  Each test lets through texts that are not meant: "1e3", "80.5" and a blank are ports,
and an octet may be as large as it likes.  What is submitted is a valid rule exactly if the ports are digits, the octets are
octets and nothing else is left in the form (`forward_submitted_valid_iff`).
-/
import RouterApps.Iuxpc.Address

namespace RouterApps.Iuxpc

open JsLib Theory.Subnet List Option Number

/-! ## The forms -/

/-- The fields of `portforward_fm` that `onApplyBtnClicked` reads. -/
structure ForwardForm where
  /-- The button says `PORTFORWARD_APPLY_STRING`. -/
  applies : Bool
  act : Text
  ruleCount : Text
  ruleName : Text
  selServer : Text
  protocol : Text
  intSport : Text
  intEport : Text
  extSport : Text
  extEport : Text
  internalIp : Fin 4 → Text
  triggerProtocol : Text
  triggerSport : Text
  triggerEport : Text
  forwardProtocol : Text
  forwardPorts : Text
  disable : Bool
  priority : Text
  oldPriority : Text
  wanName : Option Text

inductive ForwardMode
  | trigger
  | user
  deriving DecidableEq

/-- The fields of `user_portforward_fm`, which is submitted. -/
structure ForwardRule where
  viewMode : Text
  act : Text
  mode : ForwardMode
  protocol : Text
  intSport : Text
  intEport : Text
  extSport : Text
  extEport : Text
  internalIp : Text
  triggerProtocol : Text
  triggerSport : Text
  triggerEport : Text
  forwardProtocol : Text
  forwardPorts : Text
  name : Text
  disabled : Bool
  priority : Text
  oldPriority : Text
  wanName : Text

/-- The list of rules: the rows that it has, and the menu above it. -/
structure ForwardPage where
  hasRow : Text → Bool
  selectMenu : Option Text

inductive ForwardField
  | triggerSport
  | triggerEport
  | forwardPorts
  | intSport
  | intEport
  | extSport
  | extEport
  deriving DecidableEq

/-- Why nothing is submitted, with the field that gets the focus where it varies. -/
inductive ForwardAlert
  | noNewLine
  | maxRule
  | ruleNameBlanked
  | ruleNameInvalid
  | ruleNameExist
  | noServer
  | portInvalid (focus : ForwardField)
  | ipaddrInvalid (focus : Fin 4)
  | brodIp
  | intIp

/-! ## The tests -/

/-- `special_char_validate`, with the codes of the characters in its expression. -/
def specialCharValidate (text : Text) : Bool :=
  text.any fun c => c.toNat ∈ [0x21, 0x22, 0x24, 0x25, 0x26, 0x27, 0x2A, 0x2B, 0x2F, 0x3A, 0x3B, 0x3C, 0x3D, 0x3E, 0x3F, 0x40,
    0x5B, 0x5C, 0x5D, 0x5E, 0x60, 0x7B, 0x7C, 0x7D, 0x7E]

/-- What the test of a port and `CheckTriggerPortRange` have in common. -/
def outsidePorts (value : Text) : Bool :=
  isNaN value || (parseInt value).le (.finite 0) || (finite 65535).lt (parseInt value)

/-- The test of a port. -/
def checkPort (focus : ForwardField) (value : Text) : Option ForwardAlert :=
  if outsidePorts value || specialCharValidate value then some (.portInvalid focus) else none

/-- The test that a port is typed. -/
def checkTyped (focus : ForwardField) (value : Text) : Option ForwardAlert :=
  if value = [] then some (.portInvalid focus) else none

/-- `CheckTriggerPortRange` -/
def checkTriggerPortRange (triggerstr : Text) : Bool := (triggerstr.splitOn ' ').all fun value => !outsidePorts value

/-- `check_PF_IPRange` -/
def checkPFIPRange (gwAddr netmask : Text) (internalIp : Fin 4 → Text) : Option ForwardAlert :=
  if gwAddr ≠ [] && netmask ≠ [] then
    let ip := fun i => parseInt (internalIp i)
    match (finRange 4).find? fun i : Fin 4 =>
        (part gwAddr i).toInt32 &&& (part netmask i).toInt32 ≠ (ip i).toInt32 &&& (part netmask i).toInt32 with
    | some i => some (.ipaddrInvalid i)
    | none =>
      if (finRange 4).all fun i : Fin 4 =>
          (ofInt32 ((~~~(part netmask i).toInt32 ||| (ip i).toInt32) &&& 0xFF)).eq (ip i) then
        some .brodIp
      else if (finRange 4).all fun i : Fin 4 => (part gwAddr i).eq (ip i) then some .intIp
      else none
  else none

/-! ## `onApplyBtnClicked` -/

def newLineId : Text := ['_', '-', 'n', 'e', 'w', '_', 'l', 'i', 'n', 'e']

/-- The tests of the name and of the number of rules. -/
def checkName (page : ForwardPage) (maxCount : Number) (F : ForwardForm) : Option ForwardAlert :=
  if !page.hasRow newLineId && F.applies then some .noNewLine
  else if !maxCount.falsy && F.act = ['a', 'd', 'd'] && F.ruleCount ≠ [] && maxCount.le (parseInt F.ruleCount) then
    some .maxRule
  else if F.ruleName = [] then some .ruleNameBlanked
  else if specialCharValidate F.ruleName then some .ruleNameInvalid
  else if page.hasRow F.ruleName && F.applies then some .ruleNameExist
  else none

/-- The tests of the mode `trigger`. -/
def checkTrigger (F : ForwardForm) : Option ForwardAlert :=
  checkTyped .triggerSport F.triggerSport <|> checkPort .triggerSport F.triggerSport <|>
    (if F.triggerEport ≠ [] then checkPort .triggerEport F.triggerEport else none) <|>
    (if F.forwardPorts = [] || specialCharValidate F.forwardPorts || !checkTriggerPortRange F.forwardPorts then
      some (.portInvalid .forwardPorts)
    else none)

def isGre (F : ForwardForm) : Bool := F.protocol = ['g', 'r', 'e']

/-- The tests of the mode `user`. -/
def checkUser (gwAddr netmask : Text) (F : ForwardForm) : Option ForwardAlert :=
  (if F.selServer = ['N', 'U', 'L', 'L'] then some .noServer else none) <|>
    (if isGre F then none
    else checkPort .intSport F.intSport <|> checkPort .intEport F.intEport <|> checkTyped .extSport F.extSport <|>
      checkPort .extSport F.extSport <|> checkPort .extEport F.extEport) <|>
    ((finRange 4).find? fun i => F.internalIp i = []).map .ipaddrInvalid <|>
    checkPFIPRange gwAddr netmask F.internalIp

/-- The assignments of the mode `trigger`; an empty port leaves the old one. -/
def ForwardRule.setTrigger (F2 : ForwardRule) (F : ForwardForm) : ForwardRule :=
  { F2 with
    act := F.act
    mode := .trigger
    triggerProtocol := F.triggerProtocol
    triggerSport := F.triggerSport
    triggerEport := if F.triggerEport ≠ [] then F.triggerEport else F2.triggerEport
    forwardProtocol := F.forwardProtocol
    forwardPorts := F.forwardPorts }

/-- The assignments of the mode `user`, with `make_internal_ip`. -/
def ForwardRule.setUser (F2 : ForwardRule) (F : ForwardForm) : ForwardRule :=
  let port := fun value : Text => if isGre F then [] else value
  { F2 with
    internalIp := joined F.internalIp
    act := F.act
    mode := .user
    protocol := F.protocol
    extSport := port F.extSport
    extEport := port F.extEport
    intSport := port F.intSport
    intEport := port F.intEport }

/-- The assignments of both modes. -/
def ForwardRule.setRule (F2 : ForwardRule) (page : ForwardPage) (F : ForwardForm) : ForwardRule :=
  { F2 with
    viewMode := page.selectMenu.getD ['u', 's', 'e', 'r']
    name := F.ruleName
    disabled := F.disable
    priority := F.priority
    oldPriority := F.oldPriority
    wanName := F.wanName.getD F2.wanName }

/-- `onApplyBtnClicked`: the form that is submitted. -/
def onApplyBtnClicked (page : ForwardPage) (gwAddr netmask : Text) (maxCount : Number) (F : ForwardForm) (F2 : ForwardRule) :
    Except ForwardAlert ForwardRule :=
  match checkName page maxCount F with
  | some message => .error message
  | none =>
    if F.selServer = ['t', 'r', 'i', 'g', 'g', 'e', 'r'] then
      match checkTrigger F with
      | some message => .error message
      | none => .ok ((F2.setTrigger F).setRule page F)
    else
      match checkUser gwAddr netmask F with
      | some message => .error message
      | none => .ok ((F2.setUser F).setRule page F)

/-! ## What a rule should be -/

def GoodPort (port : Text) : Prop := ∃ n, Denotes port n ∧ 1 ≤ n ∧ n ≤ 65535

/-- The ports that are typed: those of the mode, and the pieces of the list. -/
def ForwardRule.ports (S : ForwardRule) : List Text :=
  (if S.mode = .trigger then S.triggerSport :: S.triggerEport :: S.forwardPorts.splitOn ' '
    else [S.extSport, S.extEport, S.intSport, S.intEport]).filter (· ≠ [])

/-- The text is an address. -/
def Quad (text : Text) (a : UInt32) : Prop := ∃ t, text = joined t ∧ DenotesAddress t a

/-- A rule for the network of the gateway. -/
structure ForwardRule.Valid (S : ForwardRule) (gateway mask : UInt32) : Prop where
  ports : ∀ port ∈ S.ports, GoodPort port
  address : S.mode = .user → ∃ a, Quad S.internalIp a ∧ a &&& mask = gateway &&& mask ∧ a ≠ gateway ∧
    a ≠ broadcast mask gateway

/-! ## What is submitted -/

variable {port : Text}

theorem goodPort_of_digits (typed : port ≠ []) (digits : isInteger port) (inside : outsidePorts port = false) :
    GoodPort port := by
  have denotes : Denotes port (Nat.ofDigitChars 10 port 0) := ⟨typed, isInteger_iff.1 digits, rfl⟩
  have low := lt_ofNat_iff (k := 0) (n := Nat.ofDigitChars 10 port 0) (by norm_num)
  have high := lt_ofNat_iff (k := 65535) (n := Nat.ofDigitChars 10 port 0) (by norm_num)
  rw [outsidePorts, denotes.parseInt, Bool.or_eq_false_iff, Bool.or_eq_false_iff] at inside
  have least : lt (.finite 0) (.ofNat (Nat.ofDigitChars 10 port 0)) = true := by
    simpa [le, ofNat_ne_nan] using inside.1.2
  have most := Bool.eq_false_iff.1 inside.2
  exact ⟨_, denotes, low.1 least, not_lt.1 fun more => most (high.2 more)⟩

theorem isInteger_of_goodPort (good : GoodPort port) : isInteger port :=
  let ⟨_, denotes, _⟩ := good
  isInteger_iff.2 denotes.digits

theorem inside_of_checkPort {focus : ForwardField} {value : Text} (passes : checkPort focus value = none) :
    outsidePorts value = false := by
  simp_all [checkPort]

/-- An address of octets that passes is in the network of the gateway, between its ends. -/
theorem address_of_checkPFIPRange {gwAddr netmask : Text} {ip : Fin 4 → Text} {gateway mask a : UInt32}
    (gw : Quad gwAddr gateway) (nm : Quad netmask mask) (address : DenotesAddress ip a)
    (passes : checkPFIPRange gwAddr netmask ip = none) :
    a &&& mask = gateway &&& mask ∧ a ≠ gateway ∧ a ≠ broadcast mask gateway := by
  obtain ⟨g, rfl, gatewayText⟩ := gw
  obtain ⟨s, rfl, maskText⟩ := nm
  have nonempty : ∀ t : Fin 4 → Text, joined t ≠ [] := fun t => by simp [joined]
  have small : ∀ i b, octet i b < 2 ^ 53 := fun i b => (octet_lt i b).trans (by norm_num)
  rw [checkPFIPRange, if_pos (by simp [nonempty])] at passes
  simp only [part_joined gatewayText, part_joined maskText, (address _).parseInt, toInt32_ofNat (small _ _)] at passes
  split at passes
  · cases passes
  rename_i network
  split_ifs at passes with last hit
  refine ⟨?_, ?_, ?_⟩
  · refine masked_eq_iff.1 fun i => ?_
    simpa using find?_eq_none.1 network i (mem_finRange i)
  · rintro rfl
    refine hit (all_eq_true.2 fun i _ => ?_)
    simp [eq, ofNat_ne_nan]
  · rintro rfl
    refine last (all_eq_true.2 fun i _ => ?_)
    have full : 255 - octet i mask ||| octet i (broadcast mask gateway) = octet i (broadcast mask gateway) := by
      rw [octet_broadcast, Nat.or_left_comm, Nat.or_self]
    rw [not_or_and_byte (octet_lt _ _) (octet_lt _ _), full, ofInt32_ofNat ((octet_lt _ _).trans (by norm_num))]
    simp [eq, ofNat_ne_nan]

section

variable {page : ForwardPage} {gwAddr netmask : Text} {maxCount : Number} {F : ForwardForm} {F2 S : ForwardRule}

/-- What is submitted has passed the tests of its mode. -/
theorem submitted (submits : onApplyBtnClicked page gwAddr netmask maxCount F F2 = .ok S) :
    (checkTrigger F = none ∧ S = (F2.setTrigger F).setRule page F) ∨
      (checkUser gwAddr netmask F = none ∧ S = (F2.setUser F).setRule page F) := by
  rw [onApplyBtnClicked] at submits
  split at submits
  · exact nomatch submits
  · split_ifs at submits <;> split at submits <;> simp_all

theorem inside_trigger (passes : checkTrigger F = none) :
    (∀ port ∈ F.triggerSport :: F.forwardPorts.splitOn ' ', outsidePorts port = false) ∧
      (F.triggerEport ≠ [] → outsidePorts F.triggerEport = false) := by
  simp only [checkTrigger, orElse_eq_none, ite_eq_right_iff] at passes
  obtain ⟨-, sport, eport, forward⟩ := passes
  have tokens : ∀ port ∈ F.forwardPorts.splitOn ' ', outsidePorts port = false := by
    by_contra outside
    refine nomatch forward ?_
    rw [checkTriggerPortRange, Bool.or_eq_true, Bool.not_eq_true', Bool.eq_false_iff]
    exact .inr fun all => outside (by simpa using all)
  exact ⟨forall_mem_cons.2 ⟨inside_of_checkPort sport, tokens⟩, fun typed => inside_of_checkPort (eport typed)⟩

theorem inside_user (passes : checkUser gwAddr netmask F = none) :
    (isGre F = false → ∀ port ∈ [F.extSport, F.extEport, F.intSport, F.intEport], outsidePorts port = false) ∧
      checkPFIPRange gwAddr netmask F.internalIp = none := by
  simp only [checkUser, orElse_eq_none] at passes
  obtain ⟨-, ports, -, range⟩ := passes
  refine ⟨fun other => ?_, range⟩
  rw [if_neg (by simp [other])] at ports
  simp only [orElse_eq_none] at ports
  obtain ⟨intSport, intEport, -, extSport, extEport⟩ := ports
  simp [inside_of_checkPort intSport, inside_of_checkPort intEport, inside_of_checkPort extSport,
    inside_of_checkPort extEport]

/-- The submitted rule is valid exactly if the ports in it are digits, an end port left from before is a port, and the fields
of the address hold octets. -/
theorem forward_submitted_valid_iff {gateway mask : UInt32} (gw : Quad gwAddr gateway) (nm : Quad netmask mask)
    (submits : onApplyBtnClicked page gwAddr netmask maxCount F F2 = .ok S) :
    S.Valid gateway mask ↔ (∀ port ∈ S.ports, isInteger port) ∧
      (S.mode = .trigger → F.triggerEport = [] → F2.triggerEport ≠ [] → GoodPort F2.triggerEport) ∧
      (S.mode = .user → ∀ i, ∃ n ≤ 255, Denotes (F.internalIp i) n) := by
  rcases submitted submits with ⟨passes, rfl⟩ | ⟨passes, rfl⟩
  · obtain ⟨tested, eport⟩ := inside_trigger passes
    have member : ∀ port, port ∈ ((F2.setTrigger F).setRule page F).ports ↔ port ≠ [] ∧
        (port ∈ F.triggerSport :: F.forwardPorts.splitOn ' ' ∨
          port = if F.triggerEport ≠ [] then F.triggerEport else F2.triggerEport) := by
      intro port
      simp [ForwardRule.ports, ForwardRule.setTrigger, ForwardRule.setRule]
      tauto
    constructor
    · rintro ⟨ports, -⟩
      refine ⟨fun port inside => isInteger_of_goodPort (ports port inside), fun _ empty left => ?_, nofun⟩
      exact ports _ ((member _).2 ⟨left, .inr (by simp [empty])⟩)
    · rintro ⟨digits, left, -⟩
      refine ⟨fun port inside => ?_, nofun⟩
      obtain ⟨typed, kind | kind⟩ := (member port).1 inside
      · exact goodPort_of_digits typed (digits port inside) (tested port kind)
      · by_cases empty : F.triggerEport = []
        · rw [if_neg (by simp [empty])] at kind
          exact kind ▸ left rfl empty (kind ▸ typed)
        · rw [if_pos empty] at kind
          exact goodPort_of_digits typed (digits port inside) (kind ▸ eport empty)
  · obtain ⟨tested, range⟩ := inside_user passes
    have member : ∀ port ∈ ((F2.setUser F).setRule page F).ports, port ≠ [] ∧ outsidePorts port = false := by
      intro port inside
      simp only [ForwardRule.ports, ForwardRule.setUser, ForwardRule.setRule, mem_filter, decide_eq_true_eq] at inside
      cases gre : isGre F
      · exact ⟨inside.2, tested gre port (by simpa [gre] using inside.1)⟩
      · exact absurd (by simpa [gre] using inside.1) inside.2
    constructor
    · rintro ⟨ports, address⟩
      refine ⟨fun port inside => isInteger_of_goodPort (ports port inside), nofun, fun _ i => ?_⟩
      obtain ⟨a, ⟨t, same, denotes⟩, -⟩ := address rfl
      have fields : F.internalIp = t := joined_injective denotes.plain same
      exact ⟨octet i a, Nat.le_of_lt_succ (octet_lt i a), fields ▸ denotes i⟩
    · rintro ⟨digits, -, octets⟩
      choose o byte denotes using octets rfl
      have address : DenotesAddress F.internalIp (ofOctets o) := fun i => by
        rw [octet_ofOctets fun i => Nat.lt_succ_of_le (byte i)]
        exact denotes i
      refine ⟨fun port inside => ?_, fun _ => ⟨ofOctets o, ⟨_, rfl, address⟩, address_of_checkPFIPRange gw nm address range⟩⟩
      exact goodPort_of_digits (member port inside).1 (digits port inside) (member port inside).2

end

/-- A form for a port of 192.168.0.10. -/
def sampleForward (port : Text) : ForwardForm where
  applies := false
  act := []
  ruleCount := []
  ruleName := ['r']
  selServer := ['u', 's', 'e', 'r']
  protocol := ['t', 'c', 'p']
  intSport := []
  intEport := []
  extSport := port
  extEport := []
  internalIp := fun i => natText (octet i 0xc0a8000a)
  triggerProtocol := []
  triggerSport := []
  triggerEport := []
  forwardProtocol := []
  forwardPorts := []
  disable := false
  priority := []
  oldPriority := []
  wanName := none

/-- The form that is submitted, before it is filled. -/
def emptyRule : ForwardRule :=
  ⟨[], [], .user, [], [], [], [], [], [], [], [], [], [], [], [], false, [], [], []⟩

/-- Port 80 is submitted, and the rule is valid. -/
theorem forward_submitted_valid_eighty :
    ∃ S, onApplyBtnClicked ⟨fun _ => false, none⟩ (dotted 0xc0a80001) (dotted 0xffffff00) (.finite 0)
        (sampleForward (natText 80)) emptyRule = .ok S ∧ S.Valid 0xc0a80001 0xffffff00 := by
  have name : checkName ⟨fun _ => false, none⟩ (.finite 0) (sampleForward (natText 80)) = none := by decide +kernel
  have user : checkUser (dotted 0xc0a80001) (dotted 0xffffff00) (sampleForward (natText 80)) = none := by decide +kernel
  have submits := onApplyBtnClicked.eq_def ⟨fun _ => false, none⟩ (dotted 0xc0a80001) (dotted 0xffffff00) (.finite 0)
    (sampleForward (natText 80)) emptyRule
  rw [user] at submits
  refine ⟨_, submits, (forward_submitted_valid_iff ⟨_, rfl, denotes_natText_octet _⟩ ⟨_, rfl, denotes_natText_octet _⟩
    submits).2 ⟨by decide +kernel, nofun, fun _ i => ⟨octet i 0xc0a8000a, ?_, denotes_natText _⟩⟩⟩
  exact Nat.le_of_lt_succ (octet_lt i _)

/-- With 1e3 as the port a rule is submitted, and that is no text of digits. -/
theorem exponent_submitted :
    (onApplyBtnClicked ⟨fun _ => false, none⟩ (dotted 0xc0a80001) (dotted 0xffffff00) (.finite 0)
        (sampleForward ['1', 'e', '3']) emptyRule).toOption.map ForwardRule.ports = some [['1', 'e', '3']] ∧
      isInteger ['1', 'e', '3'] = false := by
  decide +kernel

end RouterApps.Iuxpc
