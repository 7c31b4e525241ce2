/-
# Conntrack.FtpPorts -- the ports of the FTP helper (nf_conntrack_ftp.c)

The helper is registered for port 21, and for the ports that are written to a file under `/proc`.  A write
unregisters the helpers of the write before, takes the text apart at the blanks, and registers a helper
for each of the first seven parts.  Every helper that a write has registered is unregistered by the next
one, and by no other (`procWrite_spec`).

`sscanf` reads the number at the front of a part, the value is cut to 16 bits, and a part without a number
leaves the variable as it was.  So the ports are those that were written exactly if every part that is no
port number leaves 0 or a port that is registered anyway (`ftp_ports_follow_iff`).
-/
import RouterApps.CLib.Fields
import RouterApps.CLib.Text
import RouterApps.Theory.Lifetime
import RouterApps.Theory.Run

namespace RouterApps.Conntrack.Ftp

open CLib Theory.Lifetime List Function

/-! ## `sscanf` of the kernel -/

/-- `isspace`, with the table of the kernel. -/
def isSpace (b : UInt8) : Bool := b = 32 || b = 160 || (9 ≤ b.toNat && b.toNat ≤ 13)

def isDigit (b : UInt8) : Bool := 48 ≤ b.toNat && b.toNat ≤ 57

/-- `simple_strtoul(cp, &next, 10)` -/
def simpleStrtoul (cp : List UInt8) : UInt32 := UInt32.ofNat (readDigits 10 0 cp).1

/-- What `sscanf(str, "%d", &value)` stores; `none` when it stores nothing. -/
def sscanfInt (str : List UInt8) : Option UInt32 :=
  match str.dropWhile isSpace with
  | [] => none
  | b :: rest =>
    if b = hyphen then if rest.head?.any isDigit then some (-simpleStrtoul rest) else none
    else if isDigit b then some (simpleStrtoul (b :: rest))
    else none

/-! ## The tables -/

def maxPorts : Nat := 8

def ftpPort : UInt16 := 21

/-- The helper `ftp[i][j]`: `j` is the address family. -/
@[ext] structure Slot where
  i : Nat
  j : Nat
deriving DecidableEq

/-- The variables of the module and the table of the helpers.  `calls` is what was registered and
unregistered since it was loaded. -/
structure Module where
  ports : Nat → UInt16
  portsC : Nat
  /-- `ftp[i][j].tuple.src.u.tcp.port` -/
  tuplePort : Slot → UInt16
  /-- `nf_ct_helper_hash` -/
  table : List Slot
  calls : List (Event Slot)

/-- The helpers of port 21. -/
def default : List Slot := [⟨0, 1⟩, ⟨0, 0⟩]

/-- After `nf_conntrack_ftp_init`. -/
def Module.init : Module where
  ports := fun i => if i = 0 then ftpPort else 0
  portsC := 1
  tuplePort := fun slot => if slot.i = 0 then ftpPort else 0
  table := default
  calls := []

/-- The ports of the registered helpers. -/
def Module.registered (m : Module) : List UInt16 := m.table.map m.tuplePort

/-- `nf_conntrack_helper_register`; a helper that is in the table already would corrupt its list. -/
def Module.helperRegister (m : Module) (slot : Slot) : Option Module :=
  if slot ∈ m.table then none else some { m with table := slot :: m.table, calls := m.calls ++ [.opened slot] }

/-- `nf_conntrack_helper_unregister`, of a helper that is in the table. -/
def Module.helperUnregister (m : Module) (slot : Slot) : Option Module :=
  if slot ∈ m.table then some { m with table := m.table.erase slot, calls := m.calls ++ [.closed slot] } else none

def Module.setTuple (m : Module) (slot : Slot) (port : UInt16) : Module :=
  { m with tuplePort := update m.tuplePort slot port }

def Module.registerHelper (m : Module) (i : Nat) : Option Module := do
  let m ← (m.setTuple ⟨i, 0⟩ (m.ports i)).helperRegister ⟨i, 0⟩
  (m.setTuple ⟨i, 1⟩ (m.ports i)).helperRegister ⟨i, 1⟩

def Module.unregisterHelper (m : Module) (i : Nat) : Option Module := do
  let m ← m.helperUnregister ⟨i, 0⟩
  m.helperUnregister ⟨i, 1⟩

/-! ## `proc_write` -/

def blank : UInt8 := 32

/-- The loop of `get_ports`, with the number of entries of `ftp_ports` that may still be filled. -/
def getPortsLoop : Nat → List UInt8 → List (List UInt8)
  | 0, _ => []
  | left + 1, p =>
    if p = [] then []
    else
      let rest := p.dropWhile (· != blank)
      p.takeWhile (· != blank) ::
        if rest = [] then [] else getPortsLoop left (rest.tail.dropWhile (· == blank))

def getPorts (string : List UInt8) : List (List UInt8) :=
  getPortsLoop (maxPorts - 1) (string.dropWhile (· == blank))

def Module.setPort (m : Module) (i : Nat) (port : UInt16) : Module := { m with ports := update m.ports i port }

variable {i : Nat} {port : UInt16} {ports : List UInt16} {m : Module}

theorem Module.setPort_ports_of_ne (m : Module) {k : Nat} (other : k ≠ i) (port : UInt16) :
    (m.setPort i port).ports k = m.ports k := by simp [Module.setPort, other]

/-- The first loop of `proc_write`, with `left` turns to go. -/
def Module.unregisterLoop : Nat → Nat → Module → Option Module
  | 0, _, m => some m
  | left + 1, i, m => do
    let m ← if m.ports i ≠ 0 then m.unregisterHelper i else some m
    unregisterLoop left (i + 1) (m.setPort i 0)

/-- The second loop, over the parts of the text.  `tmpPort` keeps its value when `sscanf` stores nothing. -/
def Module.registerLoop : List (List UInt8) → Nat → UInt32 → Module → Option Module
  | [], _, _, m => some m
  | part :: parts, i, tmpPort, m => do
    let tmpPort := (sscanfInt part).getD tmpPort
    let m := m.setPort i tmpPort.toUInt16
    let m ← if m.ports i ≠ 0 then m.registerHelper i else some m
    registerLoop parts (i + 1) tmpPort { m with portsC := m.portsC + 1 }

/-- The string that is in the buffer: the last byte of the text is replaced by a NUL. -/
def bufString (text : List UInt8) : List UInt8 := text.dropLast.takeWhile (· != 0)

/-- `proc_write`.  `stale` is what is on the stack where `tmp_port` is. -/
def Module.procWrite (m : Module) (text : List UInt8) (stale : UInt32) : Option Module :=
  if 0 < text.length ∧ text.length < 299 then do
    let m ← m.unregisterLoop (m.portsC - 1) 1
    Module.registerLoop (getPorts (bufString text)) 1 stale { m with portsC := 1 }
  else some m

/-! ## What is expected -/

/-- A text of 2 to 298 bytes, the last a line feed.  The value on the stack is arbitrary. -/
structure Write where
  text : List UInt8
  stale : UInt32
  size : 2 ≤ text.length ∧ text.length ≤ 298
  ends : text.getLast? = some 10

/-- The blank-separated tokens that count. -/
def Write.tokens (w : Write) : List (List UInt8) := (wordList blank (bufString w.text)).take 7

/-- The port that a token denotes, if it is a decimal number from 1 to 65535. -/
def portOf (token : List UInt8) : Option UInt16 :=
  let value := (readDigits 10 0 token).1
  if token ≠ [] ∧ token.all isDigit = true ∧ 1 ≤ value ∧ value ≤ 65535 then some (UInt16.ofNat value) else none

/-- Port 21 and the ports that were written. -/
def Write.expected (w : Write) : List UInt16 := ftpPort :: w.tokens.filterMap portOf

/-- What the parts of a text leave in `ports`: the last number that was read, cut to 16 bits. -/
def leavesFrom : UInt32 → List (List UInt8) → List UInt16
  | _, [] => []
  | tmpPort, part :: parts =>
    ((sscanfInt part).getD tmpPort).toUInt16 :: leavesFrom ((sscanfInt part).getD tmpPort) parts

def Write.leaves (w : Write) : List UInt16 := leavesFrom w.stale w.tokens

/-! ## Tokens and numbers -/

theorem head_dropWhile_blank (p : List UInt8) : ∀ b ∈ (p.dropWhile (· == blank)).head?, b ≠ blank := by
  intro b head same
  obtain ⟨others, whole⟩ := head?_eq_some_iff.1 head
  have := head_of_dropWhile whole
  simp [same] at this

theorem getPortsLoop_eq (left : Nat) {p : List UInt8} (starts : ∀ b ∈ p.head?, b ≠ blank) :
    getPortsLoop left p = (wordList blank p).take left := by
  induction left generalizing p with
  | zero => simp [getPortsLoop]
  | succ left ih =>
    cases p with
    | nil => simp [getPortsLoop, wordList]
    | cons b rest =>
      simp only [getPortsLoop, if_neg (cons_ne_nil b rest)]
      rw [wordList_eq_cons (starts b rfl), take_succ_cons]
      split
      · rename_i ended
        simp [ended, wordList]
      · rw [ih (head_dropWhile_blank _), wordList_dropWhile]

theorem getPorts_eq (string : List UInt8) : getPorts string = (wordList blank string).take 7 := by
  rw [getPorts, getPortsLoop_eq _ (head_dropWhile_blank _), wordList_dropWhile]
  rfl

theorem toUInt16_of_portOf {token : List UInt8} (denotes : portOf token = some port)
    (tmpPort : UInt32) : ((sscanfInt token).getD tmpPort).toUInt16 = port ∧ port ≠ 0 := by
  simp only [portOf] at denotes
  split at denotes
  · rename_i number
    obtain ⟨nonempty, digits_, low, high⟩ := number
    obtain ⟨b, rest, rfl⟩ := exists_cons_of_ne_nil nonempty
    have digit : isDigit b = true := by
      rw [all_cons, Bool.and_eq_true] at digits_
      exact digits_.1
    have range : 48 ≤ b.toNat ∧ b.toNat ≤ 57 := by simpa [isDigit] using digit
    have noSpace : isSpace b = false := by
      have blank_ : b ≠ 32 := fun same => by simp [same] at range
      have other : b ≠ 160 := fun same => by simp [same] at range
      simp only [isSpace, blank_, other, decide_false, Bool.false_or, Bool.and_eq_false_iff, decide_eq_false_iff_not]
      omega
    have noSign : b ≠ hyphen := fun same => by simp [same, hyphen] at range
    have scanned : sscanfInt (b :: rest) = some (simpleStrtoul (b :: rest)) := by
      rw [sscanfInt, dropWhile_cons_of_neg (by simp [noSpace])]
      simp [noSign, digit]
    obtain rfl := Option.some.inj denotes
    rw [scanned, Option.getD_some, simpleStrtoul]
    constructor
    · apply UInt16.toNat_inj.1
      rw [UInt32.toNat_toUInt16, UInt32.toNat_ofNat', UInt16.toNat_ofNat']
      omega
    · intro zero
      have := congrArg UInt16.toNat zero
      simp at this
      omega
  · cases denotes

variable {rest : List Slot} (tmpPort : UInt32) (slot : Slot)

theorem leavesFrom_length (parts : List (List UInt8)) : (leavesFrom tmpPort parts).length = parts.length := by
  induction parts generalizing tmpPort with
  | nil => rfl
  | cons part parts ih => simp [leavesFrom, ih]

/-! ## The helpers of a list of ports -/

/-- The helpers that are registered for the ports from index `i` on. -/
def live : Nat → List UInt16 → List Slot
  | _, [] => []
  | i, port :: ports => if port = 0 then live (i + 1) ports else ⟨i, 0⟩ :: ⟨i, 1⟩ :: live (i + 1) ports

theorem mem_live {slot : Slot} : slot ∈ live i ports ↔
      ∃ k port, ports[k]? = some port ∧ port ≠ 0 ∧ slot.i = i + k ∧ (slot.j = 0 ∨ slot.j = 1) := by
  induction ports generalizing i with
  | nil => simp [live]
  | cons port ports ih =>
    -- the helpers of this port, and those of the others
    have here : slot ∈ live i (port :: ports) ↔
        (port ≠ 0 ∧ slot.i = i ∧ (slot.j = 0 ∨ slot.j = 1)) ∨ slot ∈ live (i + 1) ports := by
      rw [live]
      by_cases zero : port = 0
      · simp [zero]
      · rw [if_neg zero, mem_cons, mem_cons, ← or_assoc]
        simp only [Slot.ext_iff, ne_eq, zero, not_false_eq_true, true_and]
        rw [← and_or_left]
    rw [here, ih]
    constructor
    · rintro (⟨some_, index, family⟩ | ⟨k, later, at_, some_, index, family⟩)
      · exact ⟨0, port, rfl, some_, index, family⟩
      · exact ⟨k + 1, later, at_, some_, by omega, family⟩
    · rintro ⟨k, later, at_, some_, index, family⟩
      cases k with
      | zero =>
        obtain rfl : port = later := by simpa using at_
        exact .inl ⟨some_, index, family⟩
      | succ k => exact .inr ⟨k, later, by exact at_, some_, by omega, family⟩

/-- The table is what the calls leave. -/
def Module.Followed (m : Module) : Prop := follow default m.calls = some m.table

theorem helperRegister_spec (followed : m.Followed) (fresh : slot ∉ m.table) :
    ∃ m', m.helperRegister slot = some m' ∧ m'.Followed ∧
      m' = { m with table := slot :: m.table, calls := m.calls ++ [.opened slot] } := by
  refine ⟨_, if_neg fresh, ?_, rfl⟩
  rw [Module.Followed, follow_append, followed]
  simp [follow, fresh]

theorem helperUnregister_spec (followed : m.Followed) (present : slot ∈ m.table) :
    ∃ m', m.helperUnregister slot = some m' ∧ m'.Followed ∧
      m' = { m with table := m.table.erase slot, calls := m.calls ++ [.closed slot] } := by
  refine ⟨_, if_pos present, ?_, rfl⟩
  rw [Module.Followed, follow_append, followed]
  simp [follow, present]

theorem unregisterHelper_spec (followed : m.Followed) (table : m.table.Perm (⟨i, 0⟩ :: ⟨i, 1⟩ :: rest)) :
    ∃ m', m.unregisterHelper i = some m' ∧ m'.Followed ∧ m'.table.Perm rest ∧ m'.ports = m.ports ∧
      m'.tuplePort = m.tuplePort ∧ m'.calls = m.calls ++ [.closed ⟨i, 0⟩, .closed ⟨i, 1⟩] := by
  obtain ⟨m₁, first, followed₁, rfl⟩ := helperUnregister_spec ⟨i, 0⟩ followed (table.mem_iff.2 mem_cons_self)
  have left : (m.table.erase ⟨i, 0⟩).Perm (⟨i, 1⟩ :: rest) := by simpa using table.erase ⟨i, 0⟩
  obtain ⟨m₂, second, followed₂, rfl⟩ := helperUnregister_spec ⟨i, 1⟩ followed₁ (left.mem_iff.2 mem_cons_self)
  refine ⟨_, ?_, followed₂, ?_, rfl, rfl, ?_⟩
  · rw [Module.unregisterHelper, first]
    exact second
  · simpa using left.erase ⟨i, 1⟩
  · simp

theorem registerHelper_spec (followed : m.Followed) (below : ∀ slot ∈ m.table, slot.i < i) :
    ∃ m', m.registerHelper i = some m' ∧ m'.Followed ∧ m'.table = ⟨i, 1⟩ :: ⟨i, 0⟩ :: m.table ∧ m'.ports = m.ports ∧
      m'.portsC = m.portsC ∧ m'.tuplePort ⟨i, 0⟩ = m.ports i ∧ m'.tuplePort ⟨i, 1⟩ = m.ports i ∧
      (∀ slot : Slot, slot.i ≠ i → m'.tuplePort slot = m.tuplePort slot) ∧
      m'.calls = m.calls ++ [.opened ⟨i, 0⟩, .opened ⟨i, 1⟩] := by
  have fresh : ∀ j, (⟨i, j⟩) ∉ m.table := fun j member => Nat.lt_irrefl _ (below _ member)
  obtain ⟨m₁, first, followed₁, rfl⟩ :=
    helperRegister_spec (m := m.setTuple ⟨i, 0⟩ (m.ports i)) ⟨i, 0⟩ followed (fresh 0)
  obtain ⟨m₂, second, followed₂, rfl⟩ :=
    helperRegister_spec (m := Module.setTuple { m.setTuple ⟨i, 0⟩ (m.ports i) with
      table := ⟨i, 0⟩ :: m.table, calls := m.calls ++ [.opened ⟨i, 0⟩] } ⟨i, 1⟩ (m.ports i)) ⟨i, 1⟩ followed₁
      (by simp [Module.setTuple, fresh 1])
  refine ⟨_, ?_, followed₂, rfl, rfl, rfl, ?_, ?_, ?_, ?_⟩
  · rw [Module.registerHelper, first]
    exact second
  · simp [Module.setTuple]
  · simp [Module.setTuple]
  · intro slot other
    have zero : slot ≠ ⟨i, 0⟩ := fun same => other (congrArg Slot.i same)
    have one : slot ≠ ⟨i, 1⟩ := fun same => other (congrArg Slot.i same)
    simp [Module.setTuple, zero, one]
  · simp [Module.setTuple]

/-! ## The loops -/

theorem unregisterLoop_spec (followed : m.Followed)
    (held : ∀ k port, ports[k]? = some port → m.ports (i + k) = port) (table : m.table.Perm (live i ports ++ rest)) :
    ∃ m', m.unregisterLoop ports.length i = some m' ∧ m'.Followed ∧ m'.table.Perm rest ∧ m'.tuplePort = m.tuplePort ∧
      m'.calls = m.calls ++ (live i ports).map .closed := by
  induction ports generalizing i m with
  | nil => exact ⟨m, rfl, followed, table, rfl, by simp [live]⟩
  | cons port ports ih =>
    have here : m.ports i = port := held 0 port rfl
    -- the ports behind this one are not touched
    have later : ∀ m' : Module, m'.ports = m.ports → ∀ k port, ports[k]? = some port →
        (m'.setPort i 0).ports (i + 1 + k) = port := by
      intro m' same k port at_
      have := held (k + 1) port at_
      rw [Module.setPort_ports_of_ne _ (by omega), same, ← this]
      congr 1
      omega
    rw [length_cons, Module.unregisterLoop, here]
    by_cases zero : port = 0
    · rw [live, if_pos zero] at table
      obtain ⟨m', loop, result⟩ := ih (m := m.setPort i 0) followed (later m rfl) table
      refine ⟨m', ?_, ?_⟩
      · simpa [zero] using loop
      · rw [live, if_pos zero]
        exact result
    · rw [live, if_neg zero] at table
      obtain ⟨m₁, unregistered, followed₁, table₁, ports₁, tuples₁, calls₁⟩ := unregisterHelper_spec followed table
      obtain ⟨m', loop, followed', table', tuples', calls'⟩ :=
        ih (m := m₁.setPort i 0) followed₁ (later m₁ ports₁) table₁
      refine ⟨m', ?_, followed', table', tuples'.trans tuples₁, ?_⟩
      · simp only [ne_eq, zero, unregistered]
        exact loop
      · rw [calls', live, if_neg zero]
        simp [Module.setPort, calls₁]

/-- What the second loop does from index `i` on. -/
structure Registers (i : Nat) (ports : List UInt16) (m m' : Module) : Prop where
  followed : m'.Followed
  count : m'.portsC = m.portsC + ports.length
  held : ∀ k port, ports[k]? = some port → m'.ports (i + k) = port
  tuples : ∀ k port, ports[k]? = some port → port ≠ 0 → ∀ j, j = 0 ∨ j = 1 → m'.tuplePort ⟨i + k, j⟩ = port
  before : ∀ k, k < i → m'.ports k = m.ports k
  tuplesBefore : ∀ slot : Slot, slot.i < i → m'.tuplePort slot = m.tuplePort slot
  table : m'.table.Perm (live i ports ++ m.table)
  calls : m'.calls = m.calls ++ (live i ports).map .opened

theorem Registers.cons {m₁ m' : Module}
    (rest : Registers (i + 1) ports { m₁ with portsC := m₁.portsC + 1 } m') (count : m₁.portsC = m.portsC)
    (here : m₁.ports i = port) (before : ∀ k, k < i → m₁.ports k = m.ports k)
    (tuples : port ≠ 0 → ∀ j, j = 0 ∨ j = 1 → m₁.tuplePort ⟨i, j⟩ = port)
    (tuplesBefore : ∀ slot : Slot, slot.i < i → m₁.tuplePort slot = m.tuplePort slot)
    (table : m₁.table.Perm ((if port = 0 then [] else [⟨i, 0⟩, ⟨i, 1⟩]) ++ m.table))
    (calls : m₁.calls = m.calls ++ (if port = 0 then [] else [⟨i, 0⟩, ⟨i, 1⟩]).map .opened) :
    Registers i (port :: ports) m m' where
  followed := rest.followed
  count := by
    rw [rest.count, length_cons]
    simp only [count]
    omega
  held := by
    intro k later at_
    cases k with
    | zero =>
      obtain rfl : port = later := by simpa using at_
      rw [Nat.add_zero, rest.before i (by omega)]
      exact here
    | succ k =>
      have := rest.held k later at_
      rwa [Nat.add_assoc, Nat.add_comm 1] at this
  tuples := by
    intro k later at_ some_ j family
    cases k with
    | zero =>
      obtain rfl : port = later := by simpa using at_
      rw [Nat.add_zero, rest.tuplesBefore ⟨i, j⟩ (Nat.lt_succ_self i)]
      exact tuples some_ j family
    | succ k =>
      have := rest.tuples k later at_ some_ j family
      rwa [Nat.add_assoc, Nat.add_comm 1] at this
  before := fun k low => (rest.before k (by omega)).trans (before k low)
  tuplesBefore := fun slot low => (rest.tuplesBefore slot (by omega)).trans (tuplesBefore slot low)
  table := by
    refine rest.table.trans ?_
    rw [live]
    split
    · rename_i zero
      rw [if_pos zero] at table
      exact table.append_left _
    · rename_i some_
      rw [if_neg some_] at table
      refine (table.append_left (live (i + 1) ports)).trans ?_
      rw [← append_assoc]
      exact perm_append_comm.append_right _
  calls := by
    rw [rest.calls, live]
    simp only [calls]
    split <;> simp

theorem registerLoop_spec {parts : List (List UInt8)} (followed : m.Followed)
    (below : ∀ slot ∈ m.table, slot.i < i) :
    ∃ m', Module.registerLoop parts i tmpPort m = some m' ∧ Registers i (leavesFrom tmpPort parts) m m' := by
  induction parts generalizing i tmpPort m with
  | nil =>
    refine ⟨m, rfl, followed, rfl, ?_, ?_, fun _ _ => rfl, fun _ _ => rfl, by simp [leavesFrom, live], by
      simp [leavesFrom, live]⟩
    all_goals simp [leavesFrom]
  | cons part parts ih =>
    simp only [Module.registerLoop, leavesFrom]
    generalize (sscanfInt part).getD tmpPort = number
    have here : (m.setPort i number.toUInt16).ports i = number.toUInt16 := by simp [Module.setPort]
    have before : ∀ k, k < i → (m.setPort i number.toUInt16).ports k = m.ports k := fun k low =>
      m.setPort_ports_of_ne (by omega) _
    rw [here]
    by_cases zero : number.toUInt16 = 0
    · obtain ⟨m', loop, rest⟩ := ih number
        (m := { m.setPort i number.toUInt16 with portsC := (m.setPort i number.toUInt16).portsC + 1 }) followed
        fun slot member => (below slot member).trans (Nat.lt_succ_self i)
      refine ⟨m', by simpa [zero] using loop, rest.cons rfl here before (fun some_ => absurd zero some_) (fun _ _ => rfl)
        ?_ ?_⟩
      all_goals simp [zero, Module.setPort]
    · obtain ⟨m₁, registered, followed₁, table₁, ports₁, count₁, four, six, others, calls₁⟩ :=
        registerHelper_spec (m := m.setPort i number.toUInt16) followed below
      have below₁ : ∀ slot ∈ m₁.table, slot.i < i + 1 := by
        intro slot member
        rw [table₁, mem_cons, mem_cons] at member
        rcases member with rfl | rfl | old
        · exact Nat.lt_succ_self i
        · exact Nat.lt_succ_self i
        · exact (below slot old).trans (Nat.lt_succ_self i)
      obtain ⟨m', loop, rest⟩ := ih number (m := { m₁ with portsC := m₁.portsC + 1 }) followed₁ below₁
      refine ⟨m', ?_, rest.cons count₁ (by rw [ports₁, here]) (fun k low => by rw [ports₁, before k low]) ?_ ?_ ?_ ?_⟩
      · simp only [ne_eq, zero, registered]
        exact loop
      · rintro - j (rfl | rfl)
        · rw [four, here]
        · rw [six, here]
      · exact fun slot low => others slot (by omega)
      · rw [table₁, if_neg zero]
        exact List.Perm.swap _ _ _
      · rw [calls₁, if_neg zero]
        rfl

/-! ## Writes -/

/-- The module after a write that left these numbers. -/
structure Holds (ports : List UInt16) (m : Module) : Prop where
  followed : m.Followed
  count : m.portsC = ports.length + 1
  held : ∀ k port, ports[k]? = some port → m.ports (1 + k) = port
  tuples : ∀ k port, ports[k]? = some port → port ≠ 0 → ∀ j, j = 0 ∨ j = 1 → m.tuplePort ⟨1 + k, j⟩ = port
  first : ∀ slot : Slot, slot.i = 0 → m.tuplePort slot = ftpPort
  table : m.table.Perm (live 1 ports ++ default)
  owned : ∀ slot, .opened slot ∈ m.calls → 1 ≤ slot.i

theorem holds_init : Holds [] Module.init where
  followed := rfl
  count := rfl
  held := by simp
  tuples := by simp
  first := fun slot zero => by simp [Module.init, zero]
  table := List.Perm.refl _
  owned := by simp [Module.init]

theorem mem_default {slot : Slot} : slot ∈ default ↔ slot.i = 0 ∧ (slot.j = 0 ∨ slot.j = 1) := by
  simp only [default, mem_cons, not_mem_nil, or_false, Slot.ext_iff]
  omega

/-- A write unregisters the helpers of the write before and registers its own. -/
theorem procWrite_spec (holds : Holds ports m) (w : Write) :
    ∃ m', m.procWrite w.text w.stale = some m' ∧ Holds w.leaves m' ∧
      m'.calls = m.calls ++ ((live 1 ports).map .closed ++ (live 1 w.leaves).map .opened) := by
  have size := w.size
  obtain ⟨m₁, unregistered, followed₁, table₁, tuples₁, calls₁⟩ :=
    unregisterLoop_spec holds.followed holds.held holds.table
  have below : ∀ slot ∈ m₁.table, slot.i < 1 := fun slot member => by
    rw [(mem_default.1 (table₁.mem_iff.1 member)).1]
    exact Nat.one_pos
  obtain ⟨m', loop, registers⟩ : ∃ m', Module.registerLoop w.tokens 1 w.stale { m₁ with portsC := 1 } = some m' ∧
      Registers 1 w.leaves { m₁ with portsC := 1 } m' :=
    registerLoop_spec w.stale followed₁ below
  refine ⟨m', ?_, ?_, ?_⟩
  · rw [Module.procWrite, if_pos (by omega), getPorts_eq, holds.count]
    simp only [Nat.add_sub_cancel, unregistered]
    exact loop
  · refine ⟨registers.followed, ?_, registers.held, registers.tuples, fun slot zero => ?_, ?_, fun slot opened => ?_⟩
    · rw [registers.count]
      exact Nat.add_comm _ _
    · rw [registers.tuplesBefore slot (by omega)]
      exact (congrFun tuples₁ slot).trans (holds.first slot zero)
    · exact registers.table.trans (table₁.append_left _)
    · rw [registers.calls] at opened
      rcases mem_append.1 opened with earlier | new
      · rw [calls₁] at earlier
        rcases mem_append.1 earlier with earlier | closing
        · exact holds.owned slot earlier
        · simp at closing
      · obtain ⟨k, port, -, -, index, -⟩ := mem_live.1 (by simpa using new)
        omega
  · rw [registers.calls, ← append_assoc]
    simp only [calls₁]

theorem Holds.mem_registered (holds : Holds ports m) :
    port ∈ m.registered ↔ port = ftpPort ∨ (port ≠ 0 ∧ port ∈ ports) := by
  rw [Module.registered, mem_map]
  constructor
  · rintro ⟨slot, member, rfl⟩
    rcases mem_append.1 (holds.table.mem_iff.1 member) with user | first
    · obtain ⟨k, port, at_, some_, index, family⟩ := mem_live.1 user
      have tuple : m.tuplePort slot = port := by
        rw [← holds.tuples k port at_ some_ slot.j family, ← index]
      rw [tuple]
      exact .inr ⟨some_, mem_of_getElem? at_⟩
    · exact .inl (holds.first slot (mem_default.1 first).1)
  · rintro (rfl | ⟨some_, member⟩)
    · exact ⟨⟨0, 0⟩, holds.table.mem_iff.2 (mem_append_right _ (mem_default.2 ⟨rfl, .inl rfl⟩)), holds.first _ rfl⟩
    · obtain ⟨k, at_⟩ := mem_iff_getElem?.1 member
      refine ⟨⟨1 + k, 0⟩, holds.table.mem_iff.2 (mem_append_left _ ?_), holds.tuples k port at_ some_ 0 (.inl rfl)⟩
      exact mem_live.2 ⟨k, port, at_, some_, rfl, .inl rfl⟩

section

variable {tmpPort : UInt32} {parts : List (List UInt8)} {token : List UInt8}

theorem eq_of_mem_zip (pair : (token, port) ∈ parts.zip (leavesFrom tmpPort parts)) :
    ∃ before, port = ((sscanfInt token).getD before).toUInt16 := by
  induction parts generalizing tmpPort with
  | nil => cases pair
  | cons part parts ih =>
    rcases mem_cons.1 pair with here | later
    · obtain ⟨rfl, rfl⟩ := Prod.mk.inj here
      exact ⟨tmpPort, rfl⟩
    · exact ih later

theorem exists_mem_zip_of_token (member : token ∈ parts) : ∃ port, (token, port) ∈ parts.zip (leavesFrom tmpPort parts) := by
  have all := map_fst_zip (leavesFrom_length tmpPort parts).ge
  rw [← all] at member
  obtain ⟨⟨_, port⟩, pair, rfl⟩ := mem_map.1 member
  exact ⟨port, pair⟩

theorem exists_mem_zip_of_port (member : port ∈ leavesFrom tmpPort parts) :
    ∃ token, (token, port) ∈ parts.zip (leavesFrom tmpPort parts) := by
  have all := map_snd_zip (leavesFrom_length tmpPort parts).le
  rw [← all] at member
  obtain ⟨⟨token, _⟩, pair, rfl⟩ := mem_map.1 member
  exact ⟨token, pair⟩

end

theorem Holds.registered_of_expected {w : Write} (holds : Holds w.leaves m)
    (written : port ∈ w.expected) : port ∈ m.registered := by
  rw [holds.mem_registered]
  rcases mem_cons.1 written with rfl | denoted
  · exact .inl rfl
  · obtain ⟨token, member, denotes⟩ := mem_filterMap.1 denoted
    obtain ⟨left, pair⟩ := exists_mem_zip_of_token member
    obtain ⟨before, rfl⟩ := eq_of_mem_zip pair
    obtain ⟨same, some_⟩ := toUInt16_of_portOf denotes before
    exact .inr ⟨some_, same ▸ (of_mem_zip pair).2⟩

theorem writes_hold (holds : Holds ports m) (writes : List Write) :
    ∃ m' ports', Theory.replay (fun m w => m.procWrite w.text w.stale) writes m = some m' ∧ Holds ports' m' := by
  induction writes generalizing m ports with
  | nil => exact ⟨m, ports, rfl, holds⟩
  | cons w writes ih =>
    obtain ⟨m₁, wrote, holds₁, -⟩ := procWrite_spec holds w
    obtain ⟨m', ports', ran, holds'⟩ := ih holds₁
    exact ⟨m', ports', by simp [Theory.replay, wrote, ran], holds'⟩

/-- After any writes, the helpers of earlier writes are unregistered once each, and the ports are
right exactly if every token that is no port number leaves 0 or one of them. -/
theorem ftp_ports_follow_iff (earlier : List Write) (last : Write) :
    ∃ m m', Theory.replay (fun m w => m.procWrite w.text w.stale) earlier Module.init = some m ∧
      m.procWrite last.text last.stale = some m' ∧
      (∀ before slot after, m.calls = before ++ .opened slot :: after →
        closes slot (after ++ m'.calls.drop m.calls.length) = 1) ∧
      ((∀ port, port ∈ m'.registered ↔ port ∈ last.expected) ↔
        ∀ token port, (token, port) ∈ last.tokens.zip last.leaves → portOf token = none →
          port = 0 ∨ port ∈ last.expected) := by
  obtain ⟨m, ports, ran, holds⟩ := writes_hold holds_init earlier
  obtain ⟨m', wrote, holds', calls⟩ := procWrite_spec holds last
  refine ⟨m, m', ran, wrote, fun before slot after split => ?_, ?_⟩
  · have new : m'.calls.drop m.calls.length = (live 1 ports).map .closed ++ (live 1 last.leaves).map .opened := by
      rw [calls, drop_left]
    rw [new]
    have whole : before ++ .opened slot :: (after ++ ((live 1 ports).map .closed ++ (live 1 last.leaves).map .opened)) =
        m'.calls := by
      rw [calls, split]
      simp
    have distinct : default.Nodup := by decide
    refine closes_of_follow distinct (by rw [whole]; exact holds'.followed) ?_
    -- a helper that is in the table again was registered by the last write
    by_cases present : slot ∈ m'.table
    · right
      rcases mem_append.1 (holds'.table.mem_iff.1 present) with user | first
      · exact mem_append_right _ (mem_append_right _ (mem_map_of_mem user))
      · have owned := holds.owned slot (by rw [split]; simp)
        have := (mem_default.1 first).1
        omega
    · exact .inl present
  · constructor
    · intro same token port pair _
      by_cases zero : port = 0
      · exact .inl zero
      · exact .inr ((same port).1 (holds'.mem_registered.2 (.inr ⟨zero, (of_mem_zip pair).2⟩)))
    · intro harmless port
      refine ⟨fun registered => ?_, holds'.registered_of_expected⟩
      rcases holds'.mem_registered.1 registered with rfl | ⟨some_, member⟩
      · exact mem_cons_self
      · obtain ⟨token, pair⟩ := exists_mem_zip_of_port member
        cases denotes : portOf token with
        | none => exact (harmless token port pair denotes).resolve_left some_
        | some denoted =>
          obtain ⟨before, rfl⟩ := eq_of_mem_zip pair
          obtain ⟨same, -⟩ := toUInt16_of_portOf denotes before
          rw [same]
          exact mem_cons_of_mem _ (mem_filterMap.2 ⟨token, (of_mem_zip pair).1, denotes⟩)

/-- "65616\n": 80 is registered, and no port from 1 to 65535 was written. -/
def sampleWrite : Write := ⟨ascii ['6', '5', '6', '1', '6', '\n'], 0, by decide, by decide⟩

theorem large_number_registers_port :
    (Module.init.procWrite sampleWrite.text sampleWrite.stale).map Module.registered = some [80, 80, 21, 21] ∧
      sampleWrite.expected = [21] := by
  decide +kernel

end RouterApps.Conntrack.Ftp
