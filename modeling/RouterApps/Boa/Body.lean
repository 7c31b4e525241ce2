/-
# Boa.Body -- how the web server takes the body of a POST request (read.c)

A body comes in pieces.  `read_body` appends what the socket has to the buffer of the request,
`write_body` writes the buffer to the request's temporary file, and when all of `Content-Length`
is written the CGI program starts.  A firmware upload is told by its first piece (`check_header`);
from then on bodies are appended to `/tmp/firmware`, until a piece holds the delimiter of the form
(`check_last`) or the file is too large.  The flag `upgrade_start` and the delimiter are those of
the whole server.

The strings in the buffer are not terminated: `strstr` reads on into older data (`stale`).
`memsearch2` and the session library are not part of the sources; the first is a parameter.
-/
import RouterApps.CLib.Stream

namespace RouterApps.Boa

open CLib

/-! ## Requests -/

/-- The values of `status` from the body on. -/
inductive Status
  | bodyRead
  | bodyWrite
  /-- `init_cgi` has been called. -/
  | cgi
  /-- Freed. -/
  | closed
deriving DecidableEq

/-- A POST request.  `header_line` stands at `filepos` of the body and `header_end` at
`readpos`. -/
structure Request where
  /-- All that the client sends. -/
  body : List UInt8
  /-- `Content-Length`. -/
  filesize : Nat
  filepos : Nat
  readpos : Nat
  status : Status
  /-- `check_valid_session`. -/
  valid : Bool
  /-- The file behind `post_data_fd`. -/
  posted : List UInt8
  ordered : filepos ≤ readpos
  arrived : readpos ≤ body.length

/-- What is in the buffer. -/
def Request.pending (req : Request) : List UInt8 := (req.body.drop req.filepos).take (req.readpos - req.filepos)

/-! ## The state of the server -/

/-- What `set_sw_upgrade_status` is called with. -/
inductive UpgradeStatus
  | started
  | fileWriteEnd
  | smallFile
deriving DecidableEq

structure Globals where
  upgradeStart : Bool
  deli : CString
  /-- `/tmp/firmware`. -/
  firmware : Option (List UInt8)
  upgradeStatus : Option UpgradeStatus

/-- `hwinfo_get_max_firmware_size()`, the size of a buffer, and `memsearch2`. -/
structure Config where
  maxFirmwareSize : Nat
  bufferSize : Nat
  memsearch2 : List UInt8 → CString → Nat → Bool

/-! ## The form -/

/-- Where a byte sequence first occurs. -/
def findBytes (key : List UInt8) : List UInt8 → Option Nat
  | [] => if key = [] then some 0 else none
  | b :: rest => if key <+: b :: rest then some 0 else (findBytes key rest).map (· + 1)

/-- `strstr(memory, key) - memory`. -/
def strstr (memory key : List UInt8) : Option Nat := findBytes key (CString.ofBuffer memory).bytes

/-- `get_line`: up to a carriage return. -/
def getLine (head : List UInt8) : CString := CString.ofBuffer ((head.take 256).takeWhile (· != 13))

/-- Does the buffer start with the form field `upgrade` of a large file? -/
def checkHeader (head : List UInt8) (size : Nat) (g : Globals) : Bool × Globals :=
  let g := { g with deli := getLine head }
  match strstr head (ascii ['f', 'o', 'r', 'm', '-', 'd', 'a', 't', 'a']) with
  | none => (false, g)
  | some form =>
    match strstr (head.drop form) (ascii ['n', 'a', 'm', 'e', '=']) with
    | none => (false, g)
    | some name =>
      -- behind the equals sign and a quote
      let sptr := (head.drop form).drop (name + 6)
      if sptr.take 7 = ascii ['u', 'p', 'g', 'r', 'a', 'd', 'e'] then
        if (strstr (head.drop g.deli.bytes.length) g.deli.bytes).isSome ∨ size ≤ 8192 then
          (false, { g with upgradeStatus := some .smallFile })
        else (true, g)
      else (false, g)

/-! ## Reading and writing -/

/-- `read` returned this many bytes, or would block. -/
inductive Got
  | bytes (n : Nat)
  | again

/-- One call of `read_body`; `none` if `read` cannot return this.  The end of the stream and errors
close the request. -/
def readBody (cfg : Config) (got : Got) (req : Request) : Option Request :=
  let bytesToRead := min (req.filesize - req.filepos) (cfg.bufferSize - req.pending.length)
  if bytesToRead = 0 then some { req with status := .bodyWrite }
  else
    match got with
    | .again => some req
    | .bytes n =>
      if arrives : 0 < n ∧ n ≤ bytesToRead ∧ req.readpos + n ≤ req.body.length then
        some
          { req with
            readpos := req.readpos + n
            status := .bodyWrite
            ordered := Nat.le_add_right_of_le req.ordered
            arrived := arrives.2.2 }
      else none

/-- The result of `write` or `fwrite`. -/
inductive Wrote
  | bytes (n : Nat)
  | blocked
  | interrupted
  | failed

/-- `fwrite` returns no error code. -/
def Wrote.count : Wrote → Nat
  | .bytes n => n
  | _ => 0

def bytesToWrite (req : Request) : Nat :=
  if req.filepos + req.pending.length > req.filesize then req.filesize - req.filepos else req.pending.length

theorem bytesToWrite_le (req : Request) : bytesToWrite req ≤ req.pending.length := by
  unfold bytesToWrite
  split
  · omega
  · exact le_rfl

theorem filepos_add_le {req : Request} {n : Nat} (fits : n ≤ bytesToWrite req) : req.filepos + n ≤ req.readpos := by
  have enough := fits.trans (bytesToWrite_le req)
  have := req.ordered
  simp only [Request.pending, List.length_take] at enough
  omega

/-- `filepos += n; header_line += n`. -/
def Request.advance (req : Request) (n : Nat) (fits : n ≤ bytesToWrite req) : Request :=
  { req with filepos := req.filepos + n, ordered := filepos_add_le fits }

/-- Does this piece start an upload? -/
def startsUpload (stale : List UInt8) (req : Request) (g : Globals) : Bool :=
  req.filepos = 0 ∧ (checkHeader (req.pending ++ stale) req.filesize g).1 ∧ req.valid

/-- The first part of `write_body`: look at the first piece of a body. -/
def lookAtHeader (stale : List UInt8) (req : Request) (g : Globals) : Globals :=
  if req.filepos = 0 then
    let (upgrade, g) := checkHeader (req.pending ++ stale) req.filesize g
    if upgrade ∧ req.valid then
      { g with upgradeStart := true, firmware := none, upgradeStatus := some .started }
    else g
  else g

/-- Append to `/tmp/firmware`, and end the upload behind its last piece. -/
def writeFirmware (cfg : Config) (stale : List UInt8) (n : Nat) (req : Request) (g : Globals) : Globals :=
  let g := { g with firmware := some (g.firmware.getD [] ++ req.pending.take n) }
  if req.filepos ≠ 0 ∧ (cfg.memsearch2 (req.pending ++ stale) g.deli n ∨ req.filepos + n > cfg.maxFirmwareSize) then
    { g with upgradeStart := false, upgradeStatus := some .fileWriteEnd }
  else g

/-- One call of `write_body`, with its return value; `none` if `write` cannot return this. -/
def writeBody (cfg : Config) (stale : List UInt8) (wrote : Wrote) (req : Request) (g : Globals) :
    Option (Int × Request × Globals) :=
  if bytesToWrite req = 0 then
    if req.filepos ≥ req.filesize then some (1, { req with status := .cgi }, g)
    else some (1, { req with status := .bodyRead }, g)
  else
    let g := lookAtHeader stale req g
    if g.upgradeStart then
      if fits : wrote.count ≤ bytesToWrite req then
        some (1, req.advance wrote.count fits, writeFirmware cfg stale wrote.count req g)
      else none
    else
      match wrote with
      | .bytes n =>
        if fits : n ≤ bytesToWrite req then
          some (1, { req.advance n fits with posted := req.posted ++ req.pending.take n }, g)
        else none
      | .blocked => some (-1, req, g)
      | .interrupted => some (1, req, g)
      | .failed => some (0, req, g)

end RouterApps.Boa
