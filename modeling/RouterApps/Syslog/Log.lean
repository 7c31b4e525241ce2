/-
# Syslog.Log -- the system log and its reader (syslog.c)

`syslog_msg` puts a line in front of the log: it writes the line to a temporary file,
copies the first `max_count - 1` lines of the log behind it and copies the result back.
The copy and both readers take a line to be what one `fgets` with 256 bytes returns, but
nothing bounds the line that is written.  The lines are numbered; the number of the
newest is read from the log itself, and starts with 2.

`syslog_read_syslog_msg` returns one message a call, newest first, until it comes to a
number that is not above a given one.

The setting that turns the log on, the mark that turns the hidden level on and the clock
are parameters of the call.  The texts of `USE_MULTI_LANG` and the second log of
`USE_LOG_TO_CATCH_HACKER` are left out, and the message is the text that its format and
arguments print.
-/
import RouterApps.CLib.Stream
import RouterApps.CLib.Text

namespace RouterApps.Syslog

open CLib List CString

def space : UInt8 := 32

def hash : UInt8 := 35

/-! ## The time -/

/-- The fields of `ctime`. -/
structure Clock where
  year : Fin 10000
  month : Fin 13
  date : Fin 32
  hour : Fin 24
  minute : Fin 60
  second : Fin 61
deriving DecidableEq

/-- `%0wd` of a number with at most `w` digits. -/
def padded : Nat → Nat → List UInt8
  | 0, _ => []
  | w + 1, n => padded w (n / 10) ++ [UInt8.ofNat (48 + n % 10)]

/-- `conv_time`: "%04d/%02d/%02d %02d:%02d:%02d". -/
def convTime (now : Clock) : CString :=
  ofBuffer
    (padded 4 now.year ++ 47 :: padded 2 now.month ++ 47 :: padded 2 now.date ++
      space :: padded 2 now.hour ++ 58 :: padded 2 now.minute ++ 58 :: padded 2 now.second)

theorem padded_range (w n : Nat) : ∀ b ∈ padded w n, 48 ≤ b.toNat ∧ b.toNat ≤ 57 := by
  have digit : ∀ d, d < 10 → 48 ≤ (UInt8.ofNat (48 + d)).toNat ∧ (UInt8.ofNat (48 + d)).toNat ≤ 57 := by
    decide
  induction w generalizing n with
  | zero => simp [padded]
  | succ w ih =>
    intro b inside
    rcases mem_append.1 inside with front | last
    · exact ih (n / 10) b front
    · rw [mem_singleton.1 last]
      exact digit (n % 10) (Nat.mod_lt n (by decide))

theorem padded_length (w n : Nat) : (padded w n).length = w := by
  induction w generalizing n with
  | zero => rfl
  | succ w ih => simp [padded, ih]

/-! ## Writing -/

/-- A call of `syslog_msg`, with what it finds. -/
structure Call where
  /-- `syslog_get_status()`. -/
  status : Int32
  /-- `syslog_get_hidden_log()`. -/
  hiddenLog : Bool
  /-- Does `fopen` of the temporary file succeed? -/
  tempOpens : Bool
  /-- `get_timed_status()` and `time()`. -/
  now : Option Clock
  level : Int32
  text : CString
deriving DecidableEq

def sysmsgLogHidden : Int32 := 10

def Call.curTime (call : Call) : CString :=
  match call.now with
  | some now => convTime now
  | none => ofBuffer (ascii ['*', '*', '*', '*', '*'])

/-- "%d %d#%s#". -/
def header (level id : Int32) (time : CString) : List UInt8 :=
  (formatInt level).bytes ++ space :: ((formatInt id).bytes ++ hash :: (time.bytes ++ [hash]))

def logIdDefault : Int32 := 1

/-- The loop of `get_last_log_id`: the number in the first line with a `#`. -/
def lastLogIdOf : List (List UInt8) → Int32
  | [] => logIdDefault
  | piece :: rest =>
    let buffer := ofBuffer piece
    if hash ∈ buffer.bytes then
      if space ∈ (buffer.cutAt hash).bytes then atoi (buffer.behind space) else logIdDefault
    else lastLogIdOf rest

def getLastLogId (file : Option (List UInt8)) : Int32 :=
  match file with
  | none => logIdDefault
  | some contents => lastLogIdOf (fgetsAll 256 contents)

/-- What `append_file_line` adds to the temporary file. -/
def appendFileLine (file : Option (List UInt8)) (line : Nat) : List UInt8 :=
  match file with
  | none => []
  | some contents =>
    (((fgetsAll 256 contents).take line).map fun piece => (ofBuffer piece).bytes).flatten

/-- The return value and the log.  `none` where `last_id + 1` overflows. -/
def syslogMsg (maxCount : Nat) (call : Call) (file : Option (List UInt8)) : Option (Int × Option (List UInt8)) :=
  if call.status = 0 then some (0, file)
  else if call.level = sysmsgLogHidden ∧ call.hiddenLog = false then some (0, file)
  else
    let lastId := getLastLogId file
    if call.tempOpens = false then some (-1, file)
    else if lastId = Int32.maxValue then none
    else
      some (0, some (header call.level (lastId + 1) call.curTime ++ call.text.bytes ++
        lf :: appendFileLine file (maxCount - 1)))

/-! ## Reading -/

/-- `syslog_msg_data`, as far as it is filled. -/
structure SyslogMsgData where
  level : Int32
  logid : Int32
  timestamp : CString
  message : CString
deriving DecidableEq

/-- `syslog_msg_input`, with the stream as the pieces that are left of it. -/
structure SyslogMsgInput where
  fp : Option (List (List UInt8))
  id : Int32

/-- `*(s + strlen(s) - 1) = 0`; behind an empty message there is a NUL already. -/
def chop (s : CString) : CString :=
  ⟨s.bytes.dropLast, fun zero => s.nulFree (dropLast_subset _ zero)⟩

/-- One turn of the loop: `none` where it continues. -/
def parseMsg (piece : List UInt8) : Option SyslogMsgData :=
  let buffer := ofBuffer piece
  let front := buffer.cutAt hash
  let timestamp := buffer.behind hash
  if hash ∉ buffer.bytes ∨ hash ∉ timestamp.bytes then none
  else
    some
      { level := if space ∈ front.bytes then atoi (front.cutAt space) else atoi front
        logid := if space ∈ front.bytes then atoi (front.behind space) else 1
        timestamp := timestamp.cutAt hash
        message := chop (timestamp.behind hash) }

/-- The loop of `syslog_read_syslog_msg`: a message and what is left of the stream. -/
def readMsg (id : Int32) : List (List UInt8) → Option SyslogMsgData × List (List UInt8)
  | [] => (none, [])
  | piece :: rest =>
    match parseMsg piece with
    | none => readMsg id rest
    | some data => if data.logid ≤ id then (none, rest) else (some data, rest)

def syslogReadSyslogMsg (input : SyslogMsgInput) : Option SyslogMsgData × SyslogMsgInput :=
  match input.fp with
  | none => (none, input)
  | some pieces => ((readMsg input.id pieces).1, { input with fp := some (readMsg input.id pieces).2 })

def mallocSyslogMsgStructure (file : Option (List UInt8)) (id : Int32) : SyslogMsgInput where
  fp := file.map (fgetsAll 256)
  id := id

/-- Calls of `syslog_read_syslog_msg` that return these data and then 0. -/
inductive Reads : SyslogMsgInput → List SyslogMsgData → Prop
  | stop {input input' : SyslogMsgInput} (zero : syslogReadSyslogMsg input = (none, input')) : Reads input []
  | next {input input' : SyslogMsgInput} {data : SyslogMsgData} {later : List SyslogMsgData}
      (one : syslogReadSyslogMsg input = (some data, input')) (rest : Reads input' later) :
      Reads input (data :: later)

end RouterApps.Syslog
