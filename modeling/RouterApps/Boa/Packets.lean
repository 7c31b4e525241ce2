/-
# Boa.Packets -- a firmware upload and the pieces it comes in

One upload on a server that does nothing else.  `write_body` looks at each piece by itself: at the
first one for the head of the form, at the later ones for the delimiter.  A head or a delimiter that
is cut in two is not seen (`split_header_differs`).

Two ways of cutting a body have the same result exactly if the first pieces are both taken for the
head of an upload or both not, and in the first case the first later piece that ends the upload ends
at the same byte of the body (`packetisation_iff`).
-/
import RouterApps.Boa.Isolation

namespace RouterApps.Boa

open CLib List Option

/-! ## Deliveries -/

/-- Not part of the sources; taken to say whether the key without its last two characters is in the
first `size` bytes.  The version commented out in `read.c` also follows a match behind them. -/
def memsearch2 (input : List UInt8) (key : CString) (size : Nat) : Bool :=
  0 < size ∧ 2 ≤ key.bytes.length ∧ key.bytes.take (key.bytes.length - 2) <:+: input.take size

/-- The configuration of a server with this `memsearch2`. -/
def searchConfig (maxFirmwareSize bufferSize : Nat) : Config := ⟨maxFirmwareSize, bufferSize, memsearch2⟩

/-- The pieces that `read` returns, and what is in memory behind the first. -/
structure Delivery (bufferSize : Nat) (body : List UInt8) where
  pieces : List (List UInt8)
  stale : List UInt8
  whole : pieces.flatten = body
  nonempty : ∀ piece ∈ pieces, piece ≠ []
  fits : ∀ piece ∈ pieces, piece.length ≤ bufferSize

/-- A piece comes in, is written in one call, and the next call finds nothing to write. -/
def takePiece (cfg : Config) (stale : List UInt8) (n : Nat) (s : Request × Globals) :
    Option (Request × Globals) := do
  let req ← readBody cfg (.bytes n) s.1
  let (_, req, g) ← writeBody cfg stale (.bytes n) req s.2
  let (_, req, g) ← writeBody cfg stale (.bytes 0) req g
  some (req, g)

def takePieces (cfg : Config) (stale : List UInt8) : List (List UInt8) → Request × Globals → Option (Request × Globals)
  | [], s => some s
  | piece :: rest, s => (takePiece cfg stale piece.length s).bind (takePieces cfg stale rest)

/-- A request with a valid session, between two pieces. -/
def Request.between (body posted : List UInt8) (k : Nat) (status : Status) (inside : k ≤ body.length) : Request where
  body := body
  filesize := body.length
  filepos := k
  readpos := k
  status := status
  valid := true
  posted := posted
  ordered := le_rfl
  arrived := inside

/-- `/tmp/firmware`, the request's own file, and whether `UPGRADE_FILE_WRITE_END` is set. -/
structure Result where
  firmware : Option (List UInt8)
  posted : List UInt8
  complete : Bool
deriving DecidableEq

def resultOf (s : Request × Globals) : Result :=
  ⟨s.2.firmware, s.1.posted, s.2.upgradeStatus = some .fileWriteEnd⟩

/-- An upload from its first byte on. -/
def Delivery.upload {bufferSize : Nat} {body : List UInt8} (delivery : Delivery bufferSize body)
    (maxFirmwareSize : Nat) (g : Globals) : Option Result :=
  (takePieces (searchConfig maxFirmwareSize bufferSize) delivery.stale delivery.pieces
    (Request.between body [] 0 .bodyRead (Nat.zero_le _), g)).map resultOf

/-! ## How a delivery is read -/

/-- The head of an upload: a form field named `upgrade`, of a body of more than 8192 bytes, and the
first line does not come again. -/
def UploadHead (head : List UInt8) (size : Nat) : Prop :=
  ∃ form name, strstr head (ascii ['f', 'o', 'r', 'm', '-', 'd', 'a', 't', 'a']) = some form ∧
    strstr (head.drop form) (ascii ['n', 'a', 'm', 'e', '=']) = some name ∧
    ((head.drop form).drop (name + 6)).take 7 = ascii ['u', 'p', 'g', 'r', 'a', 'd', 'e'] ∧
    strstr (head.drop (getLine head).bytes.length) (getLine head).bytes = none ∧ 8192 < size

/-- Where the first piece ends that holds the delimiter or goes past the largest firmware; the
pieces start at byte `k`. -/
def uploadEnd (maxFirmwareSize : Nat) (deli : CString) : Nat → List (List UInt8) → Option Nat
  | _, [] => none
  | k, piece :: rest =>
    if memsearch2 piece deli piece.length ∨ k + piece.length > maxFirmwareSize then some (k + piece.length)
    else uploadEnd maxFirmwareSize deli (k + piece.length) rest

/-- The first piece is the head of an upload. -/
def Delivery.IsUpload {bufferSize : Nat} {body : List UInt8} (delivery : Delivery bufferSize body) : Prop :=
  ∃ first rest, delivery.pieces = first :: rest ∧ UploadHead (first ++ delivery.stale) body.length

/-- Where the first piece behind the head ends that ends the upload. -/
def Delivery.uploadEnd {bufferSize : Nat} {body : List UInt8} (delivery : Delivery bufferSize body)
    (maxFirmwareSize : Nat) : Option Nat :=
  match delivery.pieces with
  | [] => none
  | first :: rest => Boa.uploadEnd maxFirmwareSize (getLine (first ++ delivery.stale)) first.length rest

/-! ## One piece -/

variable {stale body posted : List UInt8} {status : Status}

section

variable {cfg : Config} {k n : Nat} {g : Globals}

/-- The request with a piece in its buffer. -/
def Request.holding (body posted : List UInt8) (k n : Nat) (room : k + n ≤ body.length) : Request where
  body := body
  filesize := body.length
  filepos := k
  readpos := k + n
  status := .bodyWrite
  valid := true
  posted := posted
  ordered := Nat.le_add_right k n
  arrived := room

theorem readBody_between (inside : k ≤ body.length) (room : k + n ≤ body.length) (some_ : 0 < n)
    (fits : n ≤ cfg.bufferSize) : readBody cfg (.bytes n) (Request.between body posted k status inside) =
      some (Request.holding body posted k n room) := by
  have nothing : (Request.between body posted k status inside).pending.length = 0 := by
    simp [Request.pending, Request.between]
  have amount : n ≤ min ((Request.between body posted k status inside).filesize -
      (Request.between body posted k status inside).filepos)
      (cfg.bufferSize - (Request.between body posted k status inside).pending.length) := by
    rw [nothing]
    show n ≤ min (body.length - k) (cfg.bufferSize - 0)
    omega
  unfold readBody
  dsimp only
  rw [if_neg (by omega), dif_pos ⟨some_, amount, room⟩]
  rfl

theorem holding_pending (room : k + n ≤ body.length) :
    (Request.holding body posted k n room).pending = (body.drop k).take n := by
  simp [Request.pending, Request.holding]

theorem holding_bytesToWrite (posted : List UInt8) (room : k + n ≤ body.length) :
    bytesToWrite (Request.holding body posted k n room) = n := by
  have length : (Request.holding body posted k n room).pending.length = n := by
    rw [holding_pending, length_take, length_drop]
    omega
  unfold bytesToWrite
  rw [length]
  exact if_neg (Nat.not_lt.2 room)

def statusAfter (body : List UInt8) (k : Nat) : Status := if k ≥ body.length then .cgi else .bodyRead

theorem writeBody_nothing (cfg : Config) (stale : List UInt8) (g : Globals) {req : Request} (empty : req.filepos = req.readpos) (size : req.filesize = req.body.length)
    (valid : req.valid = true) : writeBody cfg stale (.bytes 0) req g =
      some (1, Request.between req.body req.posted req.filepos (statusAfter req.body req.filepos)
        (req.ordered.trans req.arrived), g) := by
  have nothing : bytesToWrite req = 0 := by
    have none_ : req.pending = [] := by simp [Request.pending, empty]
    unfold bytesToWrite
    rw [none_]
    split
    · rename_i past
      simp only [length_nil] at past
      have := req.ordered.trans req.arrived
      omega
    · rfl
  obtain ⟨body, filesize, filepos, readpos, status, valid', posted, ordered, arrived⟩ := req
  dsimp only at empty size valid
  subst size valid
  obtain rfl := empty
  unfold writeBody
  rw [if_pos nothing]
  unfold Request.between statusAfter
  split <;> rfl

theorem writeBody_upload (cfg : Config) {req : Request} (something : bytesToWrite req ≠ 0)
    (going : (lookAtHeader stale req g).upgradeStart = true) (fits : n ≤ bytesToWrite req) :
    writeBody cfg stale (.bytes n) req g =
      some (1, req.advance n fits, writeFirmware cfg stale n req (lookAtHeader stale req g)) := by
  unfold writeBody
  rw [if_neg something]
  rw [if_pos going, dif_pos (show (Wrote.bytes n).count ≤ bytesToWrite req from fits)]
  rfl

theorem writeBody_post (cfg : Config) {req : Request} (something : bytesToWrite req ≠ 0)
    (quiet : (lookAtHeader stale req g).upgradeStart = false) (fits : n ≤ bytesToWrite req) :
    writeBody cfg stale (.bytes n) req g =
      some (1, { req.advance n fits with posted := req.posted ++ req.pending.take n }, lookAtHeader stale req g) := by
  unfold writeBody
  rw [if_neg something]
  dsimp only
  rw [if_neg (by simp [quiet]), dif_pos fits]

section

variable (cfg : Config) (status : Status) (inside : k ≤ body.length) (room : k + n ≤ body.length) (some_ : 0 < n)
  (fits : n ≤ cfg.bufferSize)

include some_ fits

theorem takePiece_upload (going : (lookAtHeader stale (Request.holding body posted k n room) g).upgradeStart = true) :
    takePiece cfg stale n (Request.between body posted k status inside, g) =
      some (Request.between body posted (k + n) (statusAfter body (k + n)) room,
        writeFirmware cfg stale n (Request.holding body posted k n room)
          (lookAtHeader stale (Request.holding body posted k n room) g)) := by
  have amount := holding_bytesToWrite posted room
  have written := writeBody_upload cfg (by omega) going amount.ge
  have rest := @writeBody_nothing cfg stale (writeFirmware cfg stale n (Request.holding body posted k n room)
      (lookAtHeader stale (Request.holding body posted k n room) g))
    ((Request.holding body posted k n room).advance n amount.ge) rfl rfl rfl
  simp only [takePiece, readBody_between inside room some_ fits, written, rest, bind_eq_bind, bind_some]
  rfl

theorem takePiece_post (quiet : (lookAtHeader stale (Request.holding body posted k n room) g).upgradeStart = false) :
    takePiece cfg stale n (Request.between body posted k status inside, g) =
      some (Request.between body (posted ++ (body.drop k).take n) (k + n) (statusAfter body (k + n)) room,
        lookAtHeader stale (Request.holding body posted k n room) g) := by
  have amount := holding_bytesToWrite posted room
  have written := writeBody_post cfg (by omega) quiet amount.ge
  have piece : (Request.holding body posted k n room).pending.take n = (body.drop k).take n := by
    rw [holding_pending, take_take, Nat.min_self]
  rw [piece] at written
  have rest := @writeBody_nothing cfg stale (lookAtHeader stale (Request.holding body posted k n room) g)
    { (Request.holding body posted k n room).advance n amount.ge with posted := posted ++ (body.drop k).take n }
    rfl rfl rfl
  simp only [takePiece, readBody_between inside room some_ fits, bind_eq_bind, bind_some]
  rw [written]
  exact congrArg (bind · _) rest

end

end

/-! ## The head -/

variable {head : List UInt8} {pieces : List (List UInt8)} {g : Globals} {size : Nat}

theorem checkHeader_fst : (checkHeader head size g).1 = true ↔ UploadHead head size := by
  unfold checkHeader UploadHead
  split
  · rename_i absent
    simp [absent]
  · rename_i form found
    simp only [found, exists_and_left]
    split
    · rename_i absent
      simp [absent]
    · rename_i name found
      simp only [found, some.injEq, exists_eq_left']
      split
      · rename_i upgrade
        split
        · rename_i small
          simp only [Bool.false_eq_true, false_iff, not_and, not_lt]
          rintro - once
          rcases small with again | small
          · rw [once] at again
            cases again
          · exact small
        · rename_i large
          simp only [not_or, isSome_iff_ne_none, not_not, not_le] at large
          exact iff_of_true rfl ⟨upgrade, large.1, large.2⟩
      · rename_i other
        exact iff_of_false Bool.false_ne_true fun both => other both.1

theorem checkHeader_deli (head : List UInt8) (size : Nat) (g : Globals) :
    (checkHeader head size g).2.deli = getLine head := by
  unfold checkHeader
  split
  · rfl
  · split
    · rfl
    · dsimp only
      split
      · split
        all_goals rfl
      · rfl

theorem checkHeader_status (before : g.upgradeStatus = none) :
    (checkHeader head size g).2.upgradeStatus ≠ some .fileWriteEnd := by
  unfold checkHeader
  split
  · simp [before]
  · split
    · simp [before]
    · dsimp only
      split
      · split
        · simp
        · simp [before]
      · simp [before]

/-! ## All pieces -/

variable {maxFirmwareSize bufferSize : Nat}

section

variable {k : Nat} {g : Globals}

theorem lookAtHeader_later {n : Nat} (room : k + n ≤ body.length) (later : k ≠ 0) :
    lookAtHeader stale (Request.holding body posted k n room) g = g := if_neg later

variable {piece : List UInt8}

theorem writeFirmware_later (first : (body.drop k).take piece.length = piece)
    (room : k + piece.length ≤ body.length) (later : k ≠ 0) :
    writeFirmware (searchConfig maxFirmwareSize bufferSize) stale piece.length
        (Request.holding body posted k piece.length room) g =
      if memsearch2 piece g.deli piece.length ∨ k + piece.length > maxFirmwareSize then
        { g with
          firmware := some (g.firmware.getD [] ++ piece)
          upgradeStart := false
          upgradeStatus := some .fileWriteEnd }
      else { g with firmware := some (g.firmware.getD [] ++ piece) } := by
  have pending : (Request.holding body posted k piece.length room).pending = piece := by
    rw [holding_pending, first]
  have found : memsearch2 (piece ++ stale) g.deli piece.length = memsearch2 piece g.deli piece.length := by
    simp [memsearch2]
  have filepos : (Request.holding body posted k piece.length room).filepos = k := rfl
  simp only [writeFirmware, pending, filepos, searchConfig, found, take_length, ne_eq, later,
    not_false_eq_true, true_and]

/-- The pieces that are still to come, from byte `k` on. -/
structure Rest (bufferSize : Nat) (body : List UInt8) (k : Nat) (pieces : List (List UInt8)) : Prop where
  inside : k ≤ body.length
  here : body.drop k = pieces.flatten
  nonempty : ∀ piece ∈ pieces, piece ≠ []
  fits : ∀ piece ∈ pieces, piece.length ≤ bufferSize

theorem Rest.next (rest : Rest bufferSize body k (piece :: pieces)) :
    0 < piece.length ∧ piece.length ≤ bufferSize ∧ (body.drop k).take piece.length = piece ∧
      Rest bufferSize body (k + piece.length) pieces := by
  obtain ⟨inside, here, nonempty, fits⟩ := rest
  obtain ⟨someBytes, nonempty⟩ := forall_mem_cons.1 nonempty
  obtain ⟨fit, fits⟩ := forall_mem_cons.1 fits
  rw [flatten_cons] at here
  have lengths := congrArg length here
  rw [length_drop, length_append] at lengths
  refine ⟨length_pos_iff.2 someBytes, fit, by rw [here, take_left], by omega, ?_, nonempty, fits⟩
  rw [← drop_drop, here, drop_left]

/-- Once no upload goes on, the rest goes to the request's own file. -/
theorem takePieces_quiet (rest : Rest bufferSize body k pieces) (later : k ≠ 0) (quiet : g.upgradeStart = false) :
    (takePieces (searchConfig maxFirmwareSize bufferSize) stale pieces
      (Request.between body posted k status rest.inside, g)).map resultOf =
      some ⟨g.firmware, posted ++ body.drop k, g.upgradeStatus = some .fileWriteEnd⟩ := by
  induction pieces generalizing k posted status with
  | nil => simp [takePieces, resultOf, Request.between, rest.here]
  | cons piece pieces ih =>
    obtain ⟨positive, fit, first, behind⟩ := rest.next
    have looked := @lookAtHeader_later stale body posted k g _ behind.inside later
    have taken := takePiece_post (searchConfig maxFirmwareSize bufferSize) status rest.inside behind.inside positive
      fit ((congrArg _ looked).trans quiet)
    rw [looked, first] at taken
    simp only [takePieces, taken, bind_some]
    rw [ih behind (by omega), rest.here, behind.here, flatten_cons, append_assoc]

/-- What is left of an upload that ends at a byte of the body, or does not end. -/
def resultAt (body : List UInt8) : Option Nat → Result
  | none => ⟨some body, [], false⟩
  | some m => ⟨some (body.take m), body.drop m, true⟩

theorem takePieces_going (rest : Rest bufferSize body k pieces) (later : k ≠ 0)
    (going : g.upgradeStart = true) (firmware : g.firmware = some (body.take k))
    (open_ : g.upgradeStatus ≠ some .fileWriteEnd) : (takePieces (searchConfig maxFirmwareSize bufferSize) stale pieces
      (Request.between body [] k status rest.inside, g)).map resultOf =
      some (resultAt body (uploadEnd maxFirmwareSize g.deli k pieces)) := by
  induction pieces generalizing k status g with
  | nil =>
    have all : body.take k = body := take_of_length_le (drop_eq_nil_iff.1 rest.here)
    simp [takePieces, resultOf, Request.between, uploadEnd, resultAt, firmware, open_, all]
  | cons piece pieces ih =>
    obtain ⟨positive, fit, first, behind⟩ := rest.next
    have grown : g.firmware.getD [] ++ piece = body.take (k + piece.length) := by
      rw [firmware, getD_some, take_add, first]
    have looked := @lookAtHeader_later stale body [] k g _ behind.inside later
    have taken := takePiece_upload (searchConfig maxFirmwareSize bufferSize) status rest.inside behind.inside positive
      fit ((congrArg _ looked).trans going)
    rw [looked, writeFirmware_later first behind.inside later, grown] at taken
    simp only [takePieces, taken, bind_some, uploadEnd]
    split
    · rw [takePieces_quiet behind (by omega) rfl]
      simp [resultAt]
    · exact ih (g := { g with firmware := some (body.take (k + piece.length)) }) behind (by omega) going rfl open_

end

/-! ## Deliveries compared -/

section

variable {body : List UInt8} {g : Globals}

theorem lookAtHeader_first (stale : List UInt8) (g : Globals) {first : List UInt8}
    (here : (body.drop 0).take first.length = first) (room : 0 + first.length ≤ body.length) :
    lookAtHeader stale (Request.holding body [] 0 first.length room) g =
      if (checkHeader (first ++ stale) body.length g).1 then
        { (checkHeader (first ++ stale) body.length g).2 with
          upgradeStart := true
          firmware := none
          upgradeStatus := some .started }
      else (checkHeader (first ++ stale) body.length g).2 := by
  have pending : (Request.holding body [] 0 first.length room).pending = first := by
    rw [holding_pending, here]
  have filepos : (Request.holding body [] 0 first.length room).filepos = 0 := rfl
  have filesize : (Request.holding body [] 0 first.length room).filesize = body.length := rfl
  have valid : (Request.holding body [] 0 first.length room).valid = true := rfl
  simp only [lookAtHeader, pending, filepos, filesize, valid, if_true, and_true]

section

variable (delivery : Delivery bufferSize body)

include delivery

theorem Delivery.rest : Rest bufferSize body 0 delivery.pieces :=
  ⟨Nat.zero_le _, delivery.whole.symm, delivery.nonempty, delivery.fits⟩

theorem Delivery.upload_of_isUpload (isUpload : delivery.IsUpload) :
    delivery.upload maxFirmwareSize g = some (resultAt body (delivery.uploadEnd maxFirmwareSize)) := by
  have rest := delivery.rest
  obtain ⟨pieces, stale, whole, nonempty, fits⟩ := delivery
  obtain ⟨first, _, split, head⟩ := isUpload
  subst split
  obtain ⟨positive, fit, here, behind⟩ := rest.next
  have room := behind.inside
  have opened := lookAtHeader_first stale g here room
  rw [if_pos (checkHeader_fst.2 head)] at opened
  have taken := takePiece_upload (searchConfig maxFirmwareSize bufferSize) .bodyRead
    (Nat.zero_le _) room positive fit (by rw [opened])
  have pending : (Request.holding body [] 0 first.length room).pending.take first.length = body.take first.length := by
    rw [holding_pending, take_take, Nat.min_self, drop_zero]
  unfold Delivery.upload
  simp only [takePieces, taken, bind_some, opened]
  -- the first piece never ends the upload: `filepos` is 0
  have started : (writeFirmware (searchConfig maxFirmwareSize bufferSize) stale first.length
      (Request.holding body [] 0 first.length room)
      { (checkHeader (first ++ stale) body.length g).2 with
        upgradeStart := true, firmware := none, upgradeStatus := some .started }) =
      { (checkHeader (first ++ stale) body.length g).2 with
        upgradeStart := true
        firmware := some (body.take first.length)
        upgradeStatus := some .started } := by
    unfold writeFirmware
    rw [pending]
    rfl
  rw [started, takePieces_going behind (by omega) rfl (by rw [Nat.zero_add]) (by simp)]
  simp only [Delivery.uploadEnd, checkHeader_deli, Nat.zero_add]

theorem Delivery.upload_of_not_isUpload (other : ¬delivery.IsUpload)
    (idle : g.upgradeStart = false) (fresh : g.upgradeStatus = none) :
    delivery.upload maxFirmwareSize g = some ⟨g.firmware, body, false⟩ := by
  have rest := delivery.rest
  obtain ⟨pieces, stale, whole, nonempty, fits⟩ := delivery
  cases pieces with
  | nil =>
    subst whole
    simp [Delivery.upload, takePieces, resultOf, Request.between, fresh]
  | cons first _ =>
    have refused : (checkHeader (first ++ stale) body.length g).1 = false :=
      Bool.eq_false_iff.2 fun head => other ⟨first, _, rfl, checkHeader_fst.1 head⟩
    obtain ⟨positive, fit, here, behind⟩ := rest.next
    have opened := lookAtHeader_first stale g here behind.inside
    rw [if_neg (by simp [refused])] at opened
    obtain ⟨flag, file⟩ := checkHeader_keeps (first ++ stale) body.length g
    have quiet := flag.trans idle
    have taken := takePiece_post (searchConfig maxFirmwareSize bufferSize) .bodyRead
      (Nat.zero_le _) behind.inside positive fit (by rw [opened]; exact quiet)
    unfold Delivery.upload
    simp only [takePieces, taken, bind_some, opened]
    rw [takePieces_quiet behind (by omega) quiet, file]
    simp only [drop_zero, nil_append, Nat.zero_add, take_append_drop, checkHeader_status fresh, decide_false]

end

theorem uploadEnd_le {deli : CString} {k m : Nat}
    (ends : uploadEnd maxFirmwareSize deli k pieces = some m) : m ≤ k + pieces.flatten.length := by
  induction pieces generalizing k with
  | nil => cases ends
  | cons piece rest ih =>
    rw [flatten_cons, length_append]
    unfold uploadEnd at ends
    split at ends
    · obtain rfl := some.inj ends
      omega
    · have := ih ends
      omega

theorem Delivery.uploadEnd_le (delivery : Delivery bufferSize body) {m : Nat}
    (ends : delivery.uploadEnd maxFirmwareSize = some m) : m ≤ body.length := by
  obtain ⟨pieces, stale, whole, nonempty, fits⟩ := delivery
  cases pieces with
  | nil => cases ends
  | cons first rest =>
    have inside := Boa.uploadEnd_le ends
    rw [← whole, flatten_cons, length_append]
    exact inside

theorem resultAt_inj {x y : Option Nat} (insideX : ∀ m, x = some m → m ≤ body.length)
    (insideY : ∀ m, y = some m → m ≤ body.length) : resultAt body x = resultAt body y ↔ x = y := by
  refine ⟨fun same => ?_, fun same => same ▸ rfl⟩
  cases x with
  | none =>
    cases y with
    | none => rfl
    | some m => exact absurd (congrArg Result.complete same) Bool.false_ne_true
  | some m =>
    cases y with
    | none => exact absurd (congrArg Result.complete same) Bool.true_eq_false.mp
    | some m' =>
      have lengths := congrArg length (some.inj (congrArg Result.firmware same))
      rw [length_take, length_take, Nat.min_eq_left (insideX m rfl), Nat.min_eq_left (insideY m' rfl)] at lengths
      rw [lengths]

theorem Delivery.IsUpload.body_ne_nil {delivery : Delivery bufferSize body} (isUpload : delivery.IsUpload) :
    body ≠ [] := by
  obtain ⟨_, _, -, _, _, -, -, -, -, large⟩ := isUpload
  rintro rfl
  simp at large

/-- **Packetisation.**  Every way of cutting a body has a result.  Two of them have the same exactly
if the first pieces are both the head of an upload or both not, and in the first case the piece that
ends the upload ends at the same byte. -/
theorem packetisation_iff (maxFirmwareSize bufferSize : Nat) (body : List UInt8) (g : Globals)
    (idle : g.upgradeStart = false) (fresh : g.upgradeStatus = none) (a b : Delivery bufferSize body) :
    ∃ x y, a.upload maxFirmwareSize g = some x ∧ b.upload maxFirmwareSize g = some y ∧
      (x = y ↔ (a.IsUpload ↔ b.IsUpload) ∧
        (a.IsUpload → a.uploadEnd maxFirmwareSize = b.uploadEnd maxFirmwareSize)) := by
  -- a body that went to the firmware did not go to the request's own file
  have apart : ∀ {c : Delivery bufferSize body}, c.IsUpload → ∀ e, resultAt body e ≠ ⟨g.firmware, body, false⟩ := by
    intro c isUpload e same
    cases e with
    | none => exact isUpload.body_ne_nil (congrArg Result.posted same).symm
    | some m => exact absurd (congrArg Result.complete same) Bool.true_eq_false.mp
  by_cases isA : a.IsUpload
  · by_cases isB : b.IsUpload
    · refine ⟨_, _, a.upload_of_isUpload isA, b.upload_of_isUpload isB, ?_⟩
      rw [resultAt_inj (fun _ => a.uploadEnd_le) fun _ => b.uploadEnd_le]
      simp [isA, isB]
    · refine ⟨_, _, a.upload_of_isUpload isA, b.upload_of_not_isUpload isB idle fresh, ?_⟩
      simp [isA, isB, apart isA]
  · by_cases isB : b.IsUpload
    · refine ⟨_, _, a.upload_of_not_isUpload isA idle fresh, b.upload_of_isUpload isB, ?_⟩
      simp [isA, isB, (apart isB _).symm]
    · exact ⟨_, _, a.upload_of_not_isUpload isA idle fresh, b.upload_of_not_isUpload isB idle fresh, by simp [isA, isB]⟩

end

/-! ## A head in two pieces -/

namespace Sample

def uploadHead : List UInt8 :=
  ascii ['-', '-', 'X', 'Y', 'Z', '\r', '\n', 'C', 'o', 'n', 't', 'e', 'n', 't', '-', 'D', 'i', 's', 'p', ':', ' ',
    'f', 'o', 'r', 'm', '-', 'd', 'a', 't', 'a', ';', ' ', 'n', 'a', 'm', 'e', '=', '"', 'u', 'p', 'g', 'r', 'a', 'd',
    'e', '"', '\r', '\n', '\r', '\n']

/-- A part of a file. -/
def filler (n : Nat) : List UInt8 := replicate n 65

def uploadBody : List UInt8 := uploadHead ++ filler 8192

def idle : Globals := ⟨false, CString.empty, none, none⟩

/-- The head comes in one piece, the file in two. -/
def headWhole (n : Nat) (some_ : 0 < n) (rest : n < 8192) : Delivery 8192 uploadBody where
  pieces := [uploadHead, filler n, filler (8192 - n)]
  stale := []
  whole := by
    have file : filler n ++ filler (8192 - n) = filler 8192 := by
      rw [filler, filler, replicate_append_replicate, Nat.add_sub_cancel' rest.le]
      rfl
    rw [flatten_cons, flatten_cons, flatten_cons, flatten_nil, append_nil, file]
    rfl
  nonempty := by
    simp only [forall_mem_cons]
    refine ⟨by decide, ?_, ?_, by simp⟩
    · exact ne_nil_of_length_pos (by rwa [filler, length_replicate])
    · exact ne_nil_of_length_pos (by rw [filler, length_replicate]; omega)
  fits := by
    simp only [forall_mem_cons]
    refine ⟨by decide, ?_, ?_, by simp⟩
    · rw [filler, length_replicate]
      exact rest.le
    · rw [filler, length_replicate]
      exact Nat.sub_le _ _

/-- The head is cut behind its first line. -/
def headCut : Delivery 8192 uploadBody where
  pieces := [uploadHead.take 7, uploadHead.drop 7, filler 8192]
  stale := []
  whole := by
    rw [flatten_cons, flatten_cons, flatten_cons, flatten_nil, append_nil, ← append_assoc, take_append_drop]
    rfl
  nonempty := by
    simp only [forall_mem_cons]
    refine ⟨by decide, by decide, ?_, by simp⟩
    exact ne_nil_of_length_pos (by rw [filler, length_replicate]; omega)
  fits := by
    simp only [forall_mem_cons]
    refine ⟨by decide, by decide, ?_, by simp⟩
    rw [filler, length_replicate]

theorem uploadBody_length : uploadBody.length = 8242 := by
  rw [uploadBody, length_append, filler, length_replicate]
  rfl

theorem uploadHead_uploadHead : UploadHead uploadHead 8242 :=
  ⟨21, 11, by decide, by decide, by decide, by decide, by decide⟩

variable (n : Nat)

theorem headWhole_isUpload (some_ : 0 < n) (rest : n < 8192) : (headWhole n some_ rest).IsUpload := by
  refine ⟨uploadHead, _, rfl, ?_⟩
  show UploadHead (uploadHead ++ []) uploadBody.length
  rw [uploadBody_length]
  exact uploadHead_uploadHead

theorem headCut_not_isUpload : ¬headCut.IsUpload := by
  rintro ⟨first, rest, split, form, name, found, -⟩
  obtain ⟨rfl, -⟩ := cons.inj split
  exact absurd found (by simp only [show strstr (uploadHead.take 7 ++ headCut.stale)
    (ascii ['f', 'o', 'r', 'm', '-', 'd', 'a', 't', 'a']) = none by decide, reduceCtorEq, not_false_eq_true])

theorem memsearch2_filler : memsearch2 (filler n) (getLine uploadHead) (filler n).length = false := by
  refine decide_eq_false fun ⟨_, _, found⟩ => ?_
  rw [take_length] at found
  have dash : 45 ∈ filler n := found.subset (by decide)
  exact absurd (eq_of_mem_replicate dash) (by decide)

theorem headWhole_uploadEnd (some_ : 0 < n) (rest : n < 8192) : (headWhole n some_ rest).uploadEnd 4194304 = none := by
  have head : uploadHead.length = 50 := rfl
  simp only [Delivery.uploadEnd, headWhole, Boa.uploadEnd, append_nil, memsearch2_filler, Bool.false_eq_true, false_or]
  simp only [filler, length_replicate]
  rw [if_neg (by omega), if_neg (by omega)]

end Sample

open Sample

/-- Two ways of cutting the file behind the head have the same result. -/
theorem cut_file_same : (headWhole 1 (by decide) (by decide)).upload 4194304 idle =
      (headWhole 5000 (by decide) (by decide)).upload 4194304 idle := by
  obtain ⟨x, y, first, second, same⟩ := packetisation_iff 4194304 8192 uploadBody idle rfl rfl
    (headWhole 1 (by decide) (by decide)) (headWhole 5000 (by decide) (by decide))
  rw [first, second, same.2 ⟨iff_of_true (headWhole_isUpload _ _ _) (headWhole_isUpload _ _ _), fun _ => ?_⟩]
  rw [headWhole_uploadEnd, headWhole_uploadEnd]

/-- If the head is cut, the upload is taken for another form: the same body goes to another file. -/
theorem split_header_differs : (headWhole 1 (by decide) (by decide)).upload 4194304 idle =
        some ⟨some uploadBody, [], false⟩ ∧
      headCut.upload 4194304 idle = some ⟨none, uploadBody, false⟩ := by
  constructor
  · rw [Delivery.upload_of_isUpload _ (headWhole_isUpload _ _ _), headWhole_uploadEnd]
    rfl
  · exact Delivery.upload_of_not_isUpload _ headCut_not_isUpload rfl rfl

end RouterApps.Boa
