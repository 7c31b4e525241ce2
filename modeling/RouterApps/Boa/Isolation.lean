/-
# Boa.Isolation -- firmware uploads and the other requests

Any number of POST requests, whose pieces come in any order and which may be aborted.  The upload
flag belongs to no request: while it is set, the pieces of every request are appended to
`/tmp/firmware`, also when the request that set it is gone (`aborted_upload_takes_body`).

If, while an upload goes on, only the request that started it has its body written, or one that
starts a new upload (`Alone`), then requests are isolated (`upload_isolated`).
-/
import RouterApps.Boa.Body
import RouterApps.Theory.Run

namespace RouterApps.Boa

open CLib Theory List Option Function

variable {ι : Type}

/-! ## The server -/

/-- The requests and what they share.  The last two fields are history: who started the last upload,
and the requests whose first piece passed `check_header` and `check_valid_session`. -/
structure Server (ι : Type) where
  globals : Globals
  requests : ι → Request
  uploader : Option ι
  passed : ι → Bool

inductive Label (ι : Type)
  | read (r : ι) (got : Got)
  | write (r : ι) (stale : List UInt8) (wrote : Wrote)
  /-- The client goes away, or the server gives up. -/
  | abort (r : ι)

/-- The request after its turn: a return value of 0 frees it. -/
def Request.after (ret : Int) (req : Request) : Request :=
  if ret = 0 then { req with status := .closed } else req

/-- Does this call of `write_body` start an upload? -/
def Server.starts (s : Server ι) (r : ι) (stale : List UInt8) : Bool :=
  bytesToWrite (s.requests r) ≠ 0 ∧ startsUpload stale (s.requests r) s.globals

/-- One turn of `process_requests`; `none` if it is not possible. -/
def Server.next [DecidableEq ι] (cfg : Config) (s : Server ι) : Label ι → Option (Server ι)
  | .read r got =>
    if (s.requests r).status = .bodyRead then
      (readBody cfg got (s.requests r)).map fun req => { s with requests := update s.requests r req }
    else none
  | .write r stale wrote =>
    if (s.requests r).status = .bodyWrite then
      (writeBody cfg stale wrote (s.requests r) s.globals).map fun (ret, req, g) =>
        { globals := g
          requests := update s.requests r (req.after ret)
          uploader := if s.starts r stale then some r else s.uploader
          passed := if s.starts r stale then update s.passed r true else s.passed }
    else none
  | .abort r =>
    some { s with requests := update s.requests r { s.requests r with status := .closed } }

/-- The headers of the requests have been read, with any part of their bodies. -/
structure Server.Start (s : Server ι) : Prop where
  upgradeStart : s.globals.upgradeStart = false
  firmware : s.globals.firmware = none
  uploader : s.uploader = none
  passed : ∀ r, s.passed r = false
  filepos : ∀ r, (s.requests r).filepos = 0
  status : ∀ r, (s.requests r).status = .bodyWrite
  posted : ∀ r, (s.requests r).posted = []

/-! ## Isolation -/

/-- What was written of a body is, but for a first part of an upload, in the request's own file;
`/tmp/firmware` is the first part of one upload. -/
structure Server.Isolated (s : Server ι) : Prop where
  firmware : ∀ contents, s.globals.firmware = some contents →
    ∃ r, s.passed r = true ∧ ∃ m ≤ (s.requests r).filepos,
      contents = (s.requests r).body.take m ∧
        (s.requests r).posted = ((s.requests r).body.take (s.requests r).filepos).drop m
  posted : ∀ r, ∃ m ≤ (s.requests r).filepos, (s.passed r = false → m = 0) ∧
    (s.requests r).posted = ((s.requests r).body.take (s.requests r).filepos).drop m

/-- While an upload goes on, pieces are written only for the request that started it, or to start an
upload. -/
def Server.Alone (s : Server ι) : Label ι → Prop
  | .write r stale _ =>
    bytesToWrite (s.requests r) ≠ 0 → s.globals.upgradeStart = true → s.uploader = some r ∨ s.starts r stale = true
  | _ => True

def Step [DecidableEq ι] (cfg : Config) (s : Server ι) (label : Label ι) (s' : Server ι) : Prop :=
  s.next cfg label = some s'

def AloneStep [DecidableEq ι] (cfg : Config) (s : Server ι) (label : Label ι) (s' : Server ι) : Prop :=
  Step cfg s label s' ∧ s.Alone label

/-! ## One request -/

/-- The first `m` bytes went to `/tmp/firmware`, the others to the request's own file. -/
structure Request.SplitAt (req : Request) (m : Nat) : Prop where
  le : m ≤ req.filepos
  posted : req.posted = (req.body.take req.filepos).drop m

section

variable {req : Request} {m n : Nat}

theorem pending_take (fits : n ≤ bytesToWrite req) : req.pending.take n = (req.body.drop req.filepos).take n := by
  have room := filepos_add_le fits
  rw [Request.pending, take_take, Nat.min_eq_left (by omega)]

theorem take_add_pending (fits : n ≤ bytesToWrite req) :
    req.body.take req.filepos ++ req.pending.take n = req.body.take (req.filepos + n) := by
  rw [pending_take fits, take_add]

theorem Request.SplitAt.post (split : req.SplitAt m) (fits : n ≤ bytesToWrite req) :
    Request.SplitAt { req.advance n fits with posted := req.posted ++ req.pending.take n } m where
  le := Nat.le_add_right_of_le split.le
  posted := by
    have arrived := req.ordered.trans req.arrived
    show req.posted ++ req.pending.take n = (req.body.take (req.filepos + n)).drop m
    rw [← take_add_pending fits, split.posted, drop_append_of_le_length]
    rw [length_take, Nat.min_eq_left arrived]
    exact split.le

/-- Bytes for the firmware, while nothing of the request is in its own file. -/
theorem Request.SplitAt.upload (split : req.SplitAt req.filepos) (fits : n ≤ bytesToWrite req) :
    (req.advance n fits).SplitAt (req.filepos + n) where
  le := le_rfl
  posted := by
    show req.posted = (req.body.take (req.filepos + n)).drop (req.filepos + n)
    rw [split.posted, drop_of_length_le (length_take_le _ _), drop_of_length_le (length_take_le _ _)]

theorem Request.SplitAt.of_eq (split : req.SplitAt m) {req' : Request} (filepos : req'.filepos = req.filepos)
    (body : req'.body = req.body) (posted : req'.posted = req.posted) : req'.SplitAt m where
  le := filepos ▸ split.le
  posted := by rw [posted, filepos, body, split.posted]

end

/-! ## One call -/

variable {stale : List UInt8} {cfg : Config}

section

variable {wrote : Wrote} {req req' : Request} {g g' : Globals} {ret : Int}

theorem lookAtHeader_of_starts (starts : startsUpload stale req g = true) :
    (lookAtHeader stale req g).upgradeStart = true ∧ (lookAtHeader stale req g).firmware = none := by
  obtain ⟨first, header, valid⟩ := of_decide_eq_true starts
  simp [lookAtHeader, first, header, valid]

theorem checkHeader_keeps (head : List UInt8) (size : Nat) (g : Globals) :
    (checkHeader head size g).2.upgradeStart = g.upgradeStart ∧ (checkHeader head size g).2.firmware = g.firmware := by
  unfold checkHeader
  split
  · exact ⟨rfl, rfl⟩
  · split
    · exact ⟨rfl, rfl⟩
    · dsimp only
      split
      · split
        all_goals exact ⟨rfl, rfl⟩
      · exact ⟨rfl, rfl⟩

theorem lookAtHeader_of_not_starts (quiet : startsUpload stale req g = false) :
    (lookAtHeader stale req g).upgradeStart = g.upgradeStart ∧ (lookAtHeader stale req g).firmware = g.firmware := by
  unfold lookAtHeader
  split
  · rename_i first
    have refused : ¬ ((checkHeader (req.pending ++ stale) req.filesize g).1 = true ∧ req.valid = true) :=
      fun both => of_decide_eq_false quiet ⟨first, both⟩
    dsimp only
    rw [if_neg refused]
    exact checkHeader_keeps _ _ _
  · exact ⟨rfl, rfl⟩

theorem writeFirmware_firmware (n : Nat) :
    (writeFirmware cfg stale n req g).firmware = some (g.firmware.getD [] ++ req.pending.take n) := by
  unfold writeFirmware
  dsimp only
  split <;> rfl

/-- A call that leaves the place of every byte as it was. -/
def Keeps (req req' : Request) (g g' : Globals) : Prop :=
  req'.filepos = req.filepos ∧ req'.body = req.body ∧ req'.posted = req.posted ∧
    g'.upgradeStart = g.upgradeStart ∧ g'.firmware = g.firmware

theorem readBody_keeps {got : Got} (read : readBody cfg got req = some req') : Keeps req req' g g := by
  unfold readBody at read
  dsimp only at read
  split at read
  · cases read
    exact ⟨rfl, rfl, rfl, rfl, rfl⟩
  · split at read
    · cases read
      exact ⟨rfl, rfl, rfl, rfl, rfl⟩
    · split at read
      · cases read
        exact ⟨rfl, rfl, rfl, rfl, rfl⟩
      · cases read

theorem keeps_after (same : Keeps req req' g g') : Keeps req (req'.after ret) g g' := by
  unfold Request.after
  split <;> exact same

theorem writeBody_cases (wroteBody : writeBody cfg stale wrote req g = some (ret, req', g')) :
    (bytesToWrite req = 0 ∧ Keeps req req' g g') ∨
    (bytesToWrite req ≠ 0 ∧ (lookAtHeader stale req g).upgradeStart = true ∧
      ∃ (n : Nat) (fits : n ≤ bytesToWrite req), ret = 1 ∧ req' = req.advance n fits ∧
        g' = writeFirmware cfg stale n req (lookAtHeader stale req g)) ∨
    (bytesToWrite req ≠ 0 ∧ startsUpload stale req g = false ∧ g.upgradeStart = false ∧ (Keeps req req' g g' ∨
        ∃ (n : Nat) (fits : n ≤ bytesToWrite req), ret = 1 ∧
          req' = { req.advance n fits with posted := req.posted ++ req.pending.take n } ∧
          g' = lookAtHeader stale req g)) := by
  unfold writeBody at wroteBody
  split at wroteBody
  · rename_i nothing
    refine .inl ⟨nothing, ?_⟩
    split at wroteBody
    all_goals
      cases wroteBody
      exact ⟨rfl, rfl, rfl, rfl, rfl⟩
  · rename_i something
    refine .inr ?_
    dsimp only at wroteBody
    split at wroteBody
    · rename_i going
      refine .inl ⟨something, going, ?_⟩
      split at wroteBody
      · rename_i fits
        cases wroteBody
        exact ⟨_, fits, rfl, rfl, rfl⟩
      · cases wroteBody
    · rename_i notGoing
      have quiet : startsUpload stale req g = false := by
        by_contra starts
        exact notGoing (lookAtHeader_of_starts (by simpa using starts)).1
      obtain ⟨sameFlag, sameFile⟩ := lookAtHeader_of_not_starts quiet
      refine .inr ⟨something, quiet, by rw [← sameFlag]; simpa using notGoing, ?_⟩
      split at wroteBody
      · split at wroteBody
        · rename_i fits
          cases wroteBody
          exact .inr ⟨_, fits, rfl, rfl, rfl⟩
        · cases wroteBody
      all_goals
        cases wroteBody
        exact .inl ⟨rfl, rfl, rfl, sameFlag, sameFile⟩

end

/-! ## The invariant -/

/-- The first `m r` bytes of the body of `r` went to `/tmp/firmware`, which holds those of the last
uploader; while the upload goes on, nothing of it went elsewhere. -/
structure Server.Divided (s : Server ι) (m : ι → Nat) : Prop where
  split : ∀ r, (s.requests r).SplitAt (m r)
  others : ∀ r, s.passed r = false → m r = 0
  going : s.globals.upgradeStart = true → ∃ r, s.uploader = some r
  nobody : s.uploader = none → s.globals.firmware = none
  passed : ∀ r, s.uploader = some r → s.passed r = true
  firmware : ∀ r, s.uploader = some r → s.globals.firmware = some ((s.requests r).body.take (m r))
  whole : ∀ r, s.uploader = some r → s.globals.upgradeStart = true → m r = (s.requests r).filepos

section

variable {s s' : Server ι} {m : ι → Nat} {r : ι} {req : Request} {g : Globals}

theorem Server.Start.divided (start : s.Start) : s.Divided fun _ => 0 where
  split := by
    intro r
    exact ⟨Nat.zero_le _, by rw [start.posted r, start.filepos r]; rfl⟩
  others := fun _ _ => rfl
  going := by
    intro going
    rw [start.upgradeStart] at going
    cases going
  nobody := fun _ => start.firmware
  passed := by simp [start.uploader]
  firmware := by simp [start.uploader]
  whole := by simp [start.uploader]

theorem Server.Divided.isolated (divided : s.Divided m) : s.Isolated where
  firmware := by
    intro contents written
    cases last : s.uploader with
    | none =>
      rw [divided.nobody last] at written
      cases written
    | some r =>
      have file := divided.firmware r last
      have split := divided.split r
      rw [written] at file
      exact ⟨r, divided.passed r last, m r, split.le, Option.some.inj file, split.posted⟩
  posted := by
    intro r
    have split := divided.split r
    exact ⟨m r, split.le, divided.others r, split.posted⟩

variable [DecidableEq ι]

variable (divided : s.Divided m)

include divided

theorem Server.Divided.aside (body : req.body = (s.requests r).body)
    (split : req.SplitAt (m r)) (flag : g.upgradeStart = s.globals.upgradeStart)
    (file : g.firmware = s.globals.firmware)
    (stays : g.upgradeStart = true → req.filepos = (s.requests r).filepos) :
    Server.Divided { s with globals := g, requests := update s.requests r req } m where
  split := by
    intro r'
    by_cases same : r' = r
    · subst same
      simpa using split
    · simpa [update_of_ne same] using divided.split r'
  others := divided.others
  going := by
    intro going
    exact divided.going (flag ▸ going)
  nobody := by
    intro nobody
    exact file.trans (divided.nobody nobody)
  passed := divided.passed
  firmware := by
    intro r' isUploader
    rw [file, divided.firmware r' isUploader]
    by_cases same : r' = r
    · subst same
      simp [body]
    · simp [update_of_ne same]
  whole := by
    intro r' isUploader going
    have before := divided.whole r' isUploader (flag ▸ going)
    by_cases same : r' = r
    · subst same
      simpa [stays going] using before
    · simpa [update_of_ne same] using before

variable {passed : ι → Bool}

/-- A request whose upload goes on, or starts. -/
theorem Server.Divided.own {k : Nat} (split : req.SplitAt k) (whole : k = req.filepos)
    (file : g.firmware = some (req.body.take k)) (self : passed r = true)
    (others : ∀ r', r' ≠ r → passed r' = s.passed r') :
    Server.Divided ⟨g, update s.requests r req, some r, passed⟩ (update m r k) where
  split := by
    intro r'
    by_cases same : r' = r
    · subst same
      simpa using split
    · simpa [update_of_ne same] using divided.split r'
  others := by
    intro r' notPassed
    have ne : r' ≠ r := by
      rintro rfl
      simp [self] at notPassed
    rw [update_of_ne ne]
    exact divided.others r' ((others r' ne).symm.trans notPassed)
  going := fun _ => ⟨r, rfl⟩
  nobody := by
    intro nobody
    cases nobody
  passed := by
    intro r' isUploader
    cases isUploader
    exact self
  firmware := by
    intro r' isUploader
    cases isUploader
    simpa using file
  whole := by
    intro r' isUploader going
    cases isUploader
    simpa using whole

theorem Server.Divided.keeps (same : Keeps (s.requests r) req s.globals g) :
    Server.Divided { s with globals := g, requests := update s.requests r req } m := by
  obtain ⟨filepos, body, posted, flag, file⟩ := same
  exact divided.aside body ((divided.split r).of_eq filepos body posted) flag file fun _ => filepos

theorem Server.Divided.append {n : Nat} (fits : n ≤ bytesToWrite (s.requests r)) (whole : m r = (s.requests r).filepos)
    (file : g.firmware.getD [] = (s.requests r).body.take (m r)) (self : passed r = true)
    (others : ∀ r', r' ≠ r → passed r' = s.passed r') :
    ∃ m', Server.Divided ⟨writeFirmware cfg stale n (s.requests r) g,
      update s.requests r ((s.requests r).advance n fits), some r, passed⟩ m' := by
  have split := divided.split r
  rw [whole] at split
  refine ⟨_, divided.own (split.upload fits) rfl ?_ self others⟩
  rw [writeFirmware_firmware, file, whole, take_add_pending fits]
  rfl

theorem Server.Divided.write {wrote : Wrote} {ret : Int}
    (wroteBody : writeBody cfg stale wrote (s.requests r) s.globals = some (ret, req, g))
    (alone : s.Alone (.write r stale wrote)) :
    ∃ m', Server.Divided
      { globals := g
        requests := update s.requests r (req.after ret)
        uploader := if s.starts r stale then some r else s.uploader
        passed := if s.starts r stale then update s.passed r true else s.passed } m' := by
  rcases writeBody_cases wroteBody with
    ⟨nothing, same⟩ | ⟨something, going, n, fits, rfl, rfl, rfl⟩ | ⟨something, quiet, notGoing, rest⟩
  · -- the buffer is empty
    have quiet : s.starts r stale = false := decide_eq_false fun both => both.1 nothing
    simp only [quiet]
    exact ⟨m, divided.keeps (keeps_after same)⟩
  · cases starts : s.starts r stale with
    | true =>
      -- the first piece of an upload
      have header := (of_decide_eq_true starts).2
      have first := (of_decide_eq_true header).1
      have none := Nat.le_zero.1 (first ▸ (divided.split r).le)
      apply divided.append fits (none.trans first.symm)
      · rw [(lookAtHeader_of_starts header).2, none]
        rfl
      · exact update_self r true s.passed
      · intro r' ne
        exact update_of_ne ne true s.passed
    | false =>
      -- a later piece of it
      have quiet : startsUpload stale (s.requests r) s.globals = false := by
        by_contra header
        exact of_decide_eq_false starts ⟨something, by simpa using header⟩
      obtain ⟨flag, file⟩ := lookAtHeader_of_not_starts quiet
      have isUploader : s.uploader = some r := by
        rcases alone something (flag ▸ going) with isUploader | starts'
        · exact isUploader
        · rw [starts] at starts'
          cases starts'
      simp only [isUploader]
      apply divided.append fits (divided.whole r isUploader (flag ▸ going))
      · rw [file, divided.firmware r isUploader]
        rfl
      · exact divided.passed r isUploader
      · intro r' ne
        rfl
  · have notStarts : s.starts r stale = false := decide_eq_false fun both => by simp [quiet] at both
    simp only [notStarts]
    rcases rest with same | ⟨n, fits, rfl, rfl, rfl⟩
    · exact ⟨m, divided.keeps (keeps_after same)⟩
    · obtain ⟨flag, file⟩ := lookAtHeader_of_not_starts quiet
      refine ⟨m, divided.aside rfl ((divided.split r).post fits) flag file ?_⟩
      intro going
      rw [flag, notGoing] at going
      cases going

/-- One turn in which nobody comes between. -/
theorem Server.Divided.step {label : Label ι} (moved : AloneStep cfg s label s') : ∃ m', s'.Divided m' := by
  obtain ⟨moved, alone⟩ := moved
  unfold Step Server.next at moved
  cases label with
  | read r got =>
    dsimp only at moved
    split at moved
    · obtain ⟨req, read, rfl⟩ := map_eq_some_iff.1 moved
      exact ⟨m, divided.keeps (readBody_keeps read)⟩
    · cases moved
  | write r stale wrote =>
    dsimp only at moved
    split at moved
    · obtain ⟨⟨ret, req, g⟩, wroteBody, rfl⟩ := map_eq_some_iff.1 moved
      exact divided.write wroteBody alone
    · cases moved
  | abort r =>
    cases moved
    exact ⟨m, divided.keeps ⟨rfl, rfl, rfl, rfl, rfl⟩⟩

end

/-- **Uploads are isolated while nobody comes between**, whatever the requests are, in whatever
order their pieces come and whichever are aborted. -/
theorem upload_isolated [DecidableEq ι] {cfg : Config} {s₀ s : Server ι} {labels : List (Label ι)} (start : s₀.Start)
    (run : Run (AloneStep cfg) s₀ labels s) : s.Isolated := by
  have kept : ∃ m, s.Divided m := by
    apply run.invariant _ ⟨_, start.divided⟩
    rintro s label s' ⟨m, divided⟩ moved
    exact divided.step moved
  obtain ⟨m, divided⟩ := kept
  exact divided.isolated

instance [DecidableEq ι] (s : Server ι) : (label : Label ι) → Decidable (s.Alone label)
  | .write _ _ _ => inferInstanceAs (Decidable (_ ≠ 0 → _ = true → _ = some _ ∨ _ = true))
  | .read _ _ => isTrue trivial
  | .abort _ => isTrue trivial

namespace Sample

/-- A form with a firmware file. -/
def form : List UInt8 :=
  ascii ['-', '-', '\r', 'f', 'o', 'r', 'm', '-', 'd', 'a', 't', 'a', ' ', 'n', 'a', 'm', 'e', '=', '"', 'u', 'p',
    'g', 'r', 'a', 'd', 'e', '"', 'x', '-', '-']

/-- A request whose first bytes came with its headers. -/
def post (body : List UInt8) (filesize first : Nat) : Request where
  body := body
  filesize := filesize
  filepos := 0
  readpos := min first body.length
  status := .bodyWrite
  valid := true
  posted := []
  ordered := Nat.zero_le _
  arrived := Nat.min_le_right _ _

def config : Config where
  maxFirmwareSize := 100000
  bufferSize := 1024
  memsearch2 := fun _ _ _ => true

/-- An upload and another request. -/
def server : Server Bool where
  globals := ⟨false, CString.empty, none, none⟩
  requests := fun r => if r then post form 9000 27 else post (ascii ['a', '=', '1']) 3 3
  uploader := none
  passed := fun _ => false

theorem server_start : server.Start where
  upgradeStart := rfl
  firmware := rfl
  uploader := rfl
  passed := fun _ => rfl
  filepos := by decide
  status := by decide
  posted := by decide

/-- The upload in two pieces, then the other request. -/
def inTurn : List (Label Bool) :=
  [.write true [] (.bytes 27), .write true [] (.bytes 0), .read true (.bytes 3), .write true [] (.bytes 3),
    .write false [] (.bytes 3)]

/-- The upload is aborted behind its first piece, then the other request. -/
def afterAbort : List (Label Bool) :=
  [.write true [] (.bytes 27), .abort true, .write false [] (.bytes 3)]

/-- The firmware and the other request: how much of its body was written, and what is in its
own file. -/
def outcome (s : Server Bool) : Option (List UInt8) × List UInt8 × List UInt8 × Bool :=
  (s.globals.firmware, (s.requests false).body.take (s.requests false).filepos, (s.requests false).posted,
    s.passed false)

end Sample

open Sample

/-- A whole upload, and a request behind it. -/
theorem upload_then_post_isolated : ∃ s, Run (AloneStep config) server inTurn s ∧ s.Isolated ∧
      s.globals.firmware = some form ∧ (s.requests false).posted = ascii ['a', '=', '1'] := by
  have outcome : (replay (fun s label => if s.Alone label then s.next config label else none)
      inTurn server).map Sample.outcome =
      some (some form, ascii ['a', '=', '1'], ascii ['a', '=', '1'], false) := by decide
  obtain ⟨s, ran, same⟩ := map_eq_some_iff.1 outcome
  simp only [Sample.outcome, Prod.mk.injEq] at same
  have run := run_of_guarded ran
  exact ⟨s, run, upload_isolated server_start run, same.1, same.2.2.1⟩

/-- The body of the request after an aborted upload goes to the firmware and not to its own file. -/
theorem aborted_upload_takes_body :
    ∃ s, Run (Step config) server afterAbort s ∧ server.Start ∧ ¬ s.Isolated := by
  have outcome : (replay (Server.next config) afterAbort server).map Sample.outcome =
      some (some (form.take 27 ++ ascii ['a', '=', '1']), ascii ['a', '=', '1'], [], false) := by decide
  obtain ⟨s, ran, same⟩ := map_eq_some_iff.1 outcome
  simp only [Sample.outcome, Prod.mk.injEq] at same
  obtain ⟨-, written, posted, notPassed⟩ := same
  refine ⟨s, run_of_replay ran, server_start, ?_⟩
  intro isolated
  obtain ⟨m, -, fromStart, inFile⟩ := isolated.posted false
  rw [fromStart notPassed, posted, written] at inFile
  cases inFile

end RouterApps.Boa
