/-
# Pforward.Steps -- the calls on a chain file, step by step

Two processes that work on one chain share a file and a lock.  Opening, truncating,
reading, writing and deleting the file are single steps, and so are taking and giving
back the lock.  An open file stays the same file when its name is taken away, so the
disk has inodes.

`get_pforward`, the two halves of `create_pforward` and the three parts of
`remove_pforward` are `Stage`s: each takes the lock, opens and reads the file, and then
may truncate and write it or delete it, as `outcome` says.  The list calls open the file,
for writing with truncation, before they take the lock.
-/
import RouterApps.Theory.Serial
import RouterApps.Pforward.Rules

namespace RouterApps.Pforward

open CLib GenConfig Function

/-! ## Calls -/

inductive Call
  | create (chain name protocol : CString) (eport : Int32) (ipaddr : CString) (iport : Int32)
  | remove (name : CString)
  | get (name : CString)
  | getList
  | setList (list : List (PforwardT × UInt32))
deriving DecidableEq

/-- What a call gives back: a number, a rule with its number, or a list of rules. -/
inductive Ret
  | status (ret : Int)
  | rule (ret : Int) (found : Option PforwardT)
  | rules (list : List PforwardT)
deriving DecidableEq

/-- A whole call with nobody else around. -/
def Call.run (headNull : Bool) (call : Call) (file : File) : Option (File × Ret) :=
  match call with
  | .create chain name protocol eport ipaddr iport =>
    (createPforward chain name protocol eport ipaddr iport file).map fun (ret, file) => (file, .status ret)
  | .remove name => (removePforward headNull name file).map fun (ret, file) => (file, .status ret)
  | .get name => (getPforward name file).map fun (ret, found) => (file, .rule ret found)
  | .getList => some (file, .rules (getPforwardList file))
  | .setList list => some (some (setPforwardList list), .status 1)

/-! ## The disk -/

/-- The files there are, the number of the next one, and the one the name leads to. -/
structure Disk where
  inodes : Nat → List UInt8
  next : Nat
  path : Option Nat

namespace Disk

/-- What is found under the name. -/
def file (disk : Disk) : File := disk.path.map disk.inodes

/-- What is read from an open file; `none` for one that could not be opened. -/
def read (disk : Disk) (fd : Option Nat) : File := fd.map disk.inodes

/-- `fopen(fn, "w+")`: the file that is opened, and the disk with the file emptied. -/
def truncate (disk : Disk) : Nat × Disk :=
  match disk.path with
  | some fd => (fd, { disk with inodes := update disk.inodes fd [] })
  | none =>
    (disk.next,
      { inodes := update disk.inodes disk.next [], next := disk.next + 1, path := some disk.next })

/-- Write from the start of an open file; what lies behind the text stays. -/
def write (disk : Disk) (fd : Nat) (text : List UInt8) : Disk :=
  { disk with inodes := update disk.inodes fd (text ++ (disk.inodes fd).drop text.length) }

def unlink (disk : Disk) : Disk := { disk with path := none }

end Disk

/-! ## Parts of a call -/

/-- `get_pforward`, then `set_pforward` or `genconfig_remove_item`, then the end of
`remove_pforward`. -/
inductive Stage
  | check
  | change
  | last
deriving DecidableEq

/-- What a part does to the file after it has read it. -/
inductive Effect
  | keep
  | write (text : List UInt8)
  | unlink
deriving DecidableEq

/-- What comes after the lock is given back. -/
inductive Next
  | ret (ret : Ret)
  | goto (stage : Stage)
deriving DecidableEq

def Effect.ofWritten : Option (List UInt8) → Effect
  | some text => .write text
  | none => .keep

/-- What a part decides on, given the file it has read; `none` is undefined. -/
def outcome (headNull : Bool) (stage : Stage) (call : Call) (file : File) : Option (Effect × Next) :=
  match stage, call with
  | .check, .get name => (getPforward name file).map fun (ret, found) => (.keep, .ret (.rule ret found))
  | .check, .create _ name _ _ _ _ =>
    (getPforward name file).map fun (ret, _) =>
      (.keep, if ret ≠ 0 then .ret (.status (-1)) else .goto .change)
  | .check, .remove name =>
    (getPforward name file).map fun (ret, _) =>
      (.keep, if ret ≤ 0 then .ret (.status (-1)) else .goto .change)
  | .change, .create chain name protocol eport ipaddr iport =>
    (setPforward name (newPforward chain name protocol eport ipaddr iport) file).map fun (written, _) =>
      (Effect.ofWritten written, .ret (.status 1))
  | .change, .remove name =>
    (genconfigRemoveItem name file).map fun (written, _) => (Effect.ofWritten written, .goto .last)
  | .last, .remove _ =>
    (isEmptied headNull file).map fun emptied => (if emptied then .unlink else .keep, .ret (.status 1))
  | _, _ => none

/-! ## Processes -/

/-- Where a process is. -/
inductive Phase
  | idle
  | waiting (stage : Stage) (call : Call)
  | locked (stage : Stage) (call : Call)
  | opened (stage : Stage) (call : Call) (fd : Option Nat)
  | loaded (stage : Stage) (call : Call) (file : File)
  | truncated (call : Call) (fd : Nat) (text : List UInt8) (next : Next)
  | done (call : Call) (next : Next)
  | listOpened (fd : Nat)
  | listLocked (fd : Nat)
  | setOpened (list : List (PforwardT × UInt32)) (fd : Nat)
  | setLocked (list : List (PforwardT × UInt32)) (fd : Nat)
deriving DecidableEq

structure Proc where
  todo : List Call
  phase : Phase
  returned : List Ret
deriving DecidableEq

structure System (ι : Type) where
  disk : Disk
  holder : Option ι
  procs : ι → Proc

variable {ι : Type} [DecidableEq ι]

/-- The process at a new place. -/
def Proc.goTo (proc : Proc) (phase : Phase) : Proc := { proc with phase := phase }

/-- The process after its first call has begun. -/
def Proc.beginCall (proc : Proc) (phase : Phase) : Proc := { proc with todo := proc.todo.tail, phase := phase }

/-- The process after a call has returned. -/
def Proc.giveBack (proc : Proc) (ret : Ret) : Proc :=
  { proc with phase := .idle, returned := proc.returned ++ [ret] }

def System.set (s : System ι) (p : ι) (proc : Proc) : ι → Proc := update s.procs p proc

/-- `flock`: a process waits, at its place, while another has the lock. -/
def takeLock (s : System ι) (p : ι) (proc : Proc) : System ι :=
  match s.holder with
  | none => { s with holder := some p, procs := s.set p proc }
  | some _ => s

/-- One step of process `p`; `none` is undefined behaviour. -/
def step (headNull : Bool) (p : ι) (s : System ι) : Option (System ι) :=
  let proc := s.procs p
  match proc.phase with
  | .idle =>
    match proc.todo with
    | [] => some s
    | .getList :: _ =>
      match s.disk.path with
      | none => some { s with procs := s.set p ((proc.beginCall .idle).giveBack (.rules [])) }
      | some fd => some { s with procs := s.set p (proc.beginCall (.listOpened fd)) }
    | .setList list :: _ =>
      let (fd, disk) := s.disk.truncate
      some { s with disk := disk, procs := s.set p (proc.beginCall (.setOpened list fd)) }
    | call :: _ => some (takeLock s p (proc.beginCall (.locked .check call)))
  | .waiting stage call => some (takeLock s p (proc.goTo (.locked stage call)))
  | .locked stage call => some { s with procs := s.set p (proc.goTo (.opened stage call s.disk.path)) }
  | .opened stage call fd => some { s with procs := s.set p (proc.goTo (.loaded stage call (s.disk.read fd))) }
  | .loaded stage call file =>
    (outcome headNull stage call file).map fun (effect, next) =>
      match effect with
      | .keep => { s with procs := s.set p (proc.goTo (.done call next)) }
      | .write text =>
        let (fd, disk) := s.disk.truncate
        { s with disk := disk, procs := s.set p (proc.goTo (.truncated call fd text next)) }
      | .unlink => { s with disk := s.disk.unlink, procs := s.set p (proc.goTo (.done call next)) }
  | .truncated call fd text next =>
    some { s with disk := s.disk.write fd text, procs := s.set p (proc.goTo (.done call next)) }
  | .done call next =>
    match next with
    | .ret ret => some { s with holder := none, procs := s.set p (proc.giveBack ret) }
    | .goto stage => some { s with holder := none, procs := s.set p (proc.goTo (.waiting stage call)) }
  | .listOpened fd => some (takeLock s p (proc.goTo (.listLocked fd)))
  | .listLocked fd =>
    some { s with procs := s.set p (proc.goTo (.done .getList (.ret (.rules (rulesOf (s.disk.inodes fd)))))) }
  | .setOpened list fd => some (takeLock s p (proc.goTo (.setLocked list fd)))
  | .setLocked list fd =>
    some { s with
      disk := s.disk.write fd (setPforwardList list),
      procs := s.set p (proc.goTo (.done (.setList list) (.ret (.status 1)))) }

/-- Every process is before its first call, and the file is on the disk. -/
def start (calls : ι → List Call) (file : File) : System ι where
  disk := ⟨fun _ => file.getD [], 1, file.map fun _ => 0⟩
  holder := none
  procs := fun p => ⟨calls p, .idle, []⟩

/-- Every process is done. -/
def Finished (s : System ι) : Prop := ∀ p, (s.procs p).phase = .idle ∧ (s.procs p).todo = []

end RouterApps.Pforward
