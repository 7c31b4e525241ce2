/-
# Syslog.ReadBack -- reading the log returns what was logged, while its lines fit

What a log is for: the last `max_count` messages, numbered one after the other (`journal`).
The pieces of a line that is longer than the 255 bytes of one `fgets` are counted as lines
by the copy (`stored`), and the reader returns only the first piece, without its last byte
(`log_cuts_message`).

`log_reads_back_iff` says exactly when reading returns the last messages as they were
logged: none of them has a line that is too long, and the numbers have not run out.
-/
import RouterApps.Syslog.Log
import RouterApps.Theory.Run

namespace RouterApps.Syslog

open CLib Theory List Option

/-! ## What is logged -/

/-- A message of the log. -/
@[ext] structure Entry where
  id : Int
  level : Int32
  time : CString
  text : CString
deriving DecidableEq

/-- Does the call log its message? -/
def Call.logged (call : Call) : Bool :=
  call.status ≠ 0 ∧ ¬ (call.level = sysmsgLogHidden ∧ call.hiddenLog = false) ∧ call.tempOpens

/-- The journal after a call: messages are numbered one after the other, from 2. -/
def record (entries : List Entry) (call : Call) : List Entry :=
  if call.logged then ⟨entries.length + 2, call.level, call.curTime, call.text⟩ :: entries else entries

/-- All messages that a sequence of calls logs, newest first. -/
def journal (calls : List Call) : List Entry := calls.foldl record []

def nextLog (maxCount : Nat) (file : Option (List UInt8)) (call : Call) : Option (Option (List UInt8)) :=
  (syslogMsg maxCount call file).map Prod.snd

def SyslogMsgData.entry (data : SyslogMsgData) : Entry :=
  ⟨data.logid.toInt, data.level, data.timestamp, data.message⟩

/-- Reading with any `k` returns the messages above `k` among the last `maxCount`, and then 0. -/
def ReadsBack (maxCount : Nat) (calls : List Call) : Prop :=
  ∃ file, replay (nextLog maxCount) calls none = some file ∧
    ∀ k : Int32, ∃ results, Reads (mallocSyslogMsgStructure file k) results ∧
      results.map SyslogMsgData.entry = ((journal calls).take maxCount).filter fun e => k.toInt < e.id

def Entry.Fits (e : Entry) : Prop :=
  (formatInt e.level).bytes.length + (formatInt (Int32.ofInt e.id)).bytes.length + e.time.bytes.length +
    e.text.bytes.length ≤ 251

instance (e : Entry) : Decidable e.Fits := inferInstanceAs (Decidable (_ ≤ _))

/-! ## Lines -/

/-- The line that is written for a message. -/
def Entry.line (e : Entry) : List UInt8 :=
  header e.level (Int32.ofInt e.id) e.time ++ e.text.bytes ++ [lf]

/-- Its number is a positive `int`, and neither the time nor the text disturbs the line. -/
structure Entry.Regular (e : Entry) : Prop where
  low : 2 ≤ e.id
  high : e.id < 2147483648
  timeHash : hash ∉ e.time.bytes
  timeLf : lf ∉ e.time.bytes
  timeLength : e.time.bytes.length ≤ 19
  textLf : lf ∉ e.text.bytes

theorem header_length (level id : Int32) (time : CString) : (header level id time).length =
      (formatInt level).bytes.length + (formatInt id).bytes.length + time.bytes.length + 3 := by
  simp only [header, length_append, length_cons, length_nil]
  omega

theorem header_nulFree (level id : Int32) (time : CString) : (0 : UInt8) ∉ header level id time := by
  intro inside
  simp only [header, mem_append, mem_cons] at inside
  rcases inside with number | isSpace | number | isHash | inTime | isHash
  · exact (formatInt level).nulFree number
  · exact absurd isSpace (by decide)
  · exact (formatInt id).nulFree number
  · exact absurd isHash (by decide)
  · exact time.nulFree inTime
  · exact absurd isHash (by decide)

variable {e : Entry}

namespace Entry

theorem line_length (e : Entry) : e.line.length ≤ 255 ↔ e.Fits := by
  simp only [line, Fits, length_append, header_length, length_cons, length_nil]
  omega

theorem line_nulFree (e : Entry) : (0 : UInt8) ∉ e.line := by
  intro inside
  rcases mem_append.1 inside with front | last
  · rcases mem_append.1 front with inHeader | inText
    · exact header_nulFree _ _ _ inHeader
    · exact e.text.nulFree inText
  · exact absurd (mem_singleton.1 last) (by decide)

section

variable (regular : e.Regular)

include regular

theorem Regular.body_noLf : lf ∉ header e.level (Int32.ofInt e.id) e.time ++ e.text.bytes := by
  intro inside
  simp only [header, mem_append, mem_cons] at inside
  rcases inside with (number | isSpace | number | isHash | inTime | isHash) | inText
  · exact notMem_formatInt (by decide) _ number
  · exact absurd isSpace (by decide)
  · exact notMem_formatInt (by decide) _ number
  · exact absurd isHash (by decide)
  · exact regular.timeLf inTime
  · exact absurd isHash (by decide)
  · exact regular.textLf inText

/-- The first piece of a line is its first 255 bytes. -/
theorem Regular.pieces : fgetsAll 256 e.line = e.line.take 255 :: fgetsAll 256 (e.line.drop 255) := by
  rw [fgetsAll_cons (by decide) (by simp [line])]
  unfold line
  rw [fgetsFrom_line regular.body_noLf]

theorem Regular.pieces_of_fits (fits : e.Fits) : fgetsAll 256 e.line = [e.line] := by
  have short := (line_length e).2 fits
  rw [regular.pieces, take_of_length_le short, drop_of_length_le short, fgetsAll_nil]

theorem Regular.header_length_le : (header e.level (Int32.ofInt e.id) e.time).length ≤ 44 := by
  have level := formatInt_length e.level
  have id := formatInt_length (Int32.ofInt e.id)
  have time := regular.timeLength
  rw [header_length]
  omega

theorem Regular.first_piece :
    ∃ tail : CString, e.line.take 255 = header e.level (Int32.ofInt e.id) e.time ++ tail.bytes ∧
      tail.bytes = (e.text.bytes ++ [lf]).take (255 - (header e.level (Int32.ofInt e.id) e.time).length) := by
  have short := regular.header_length_le
  have nulFree : 0 ∉ e.text.bytes ++ [lf] := by
    intro inside
    rcases mem_append.1 inside with inText | last
    · exact e.text.nulFree inText
    · exact absurd (mem_singleton.1 last) (by decide)
  refine ⟨⟨_, fun inside => nulFree (mem_of_mem_take inside)⟩, ?_, rfl⟩
  rw [line, append_assoc, take_append, take_of_length_le (by omega)]

theorem Regular.toInt_ofInt : (Int32.ofInt e.id).toInt = e.id := by
  have low := regular.low
  have high := regular.high
  exact Int32.toInt_ofInt_of_le (by omega) (by omega)

end

end Entry

/-! ## Parsing a line -/

section

variable {level id : Int32} {time : CString}

theorem header_whole (level id : Int32) (time tail : CString) :
    (CString.ofBuffer (header level id time ++ tail.bytes)).bytes =
      ((formatInt level).bytes ++ space :: (formatInt id).bytes) ++ hash :: (time.bytes ++ hash :: tail.bytes) := by
  have nulFree : 0 ∉ header level id time ++ tail.bytes := by
    rw [mem_append, not_or]
    exact ⟨header_nulFree level id time, tail.nulFree⟩
  rw [CString.ofBuffer_of_nulFree nulFree]
  simp [header]

theorem hash_notMem_numbers : hash ∉ (formatInt level).bytes ++ space :: (formatInt id).bytes := by
  simp only [mem_append, mem_cons, not_or]
  exact ⟨notMem_formatInt (by decide) level, by decide, notMem_formatInt (by decide) id⟩

theorem parseMsg_header (timeHash : hash ∉ time.bytes) (tail : CString) :
    parseMsg (header level id time ++ tail.bytes) = some ⟨level, id, time, chop tail⟩ := by
  have whole := header_whole level id time tail
  obtain ⟨front, behindFront⟩ := CString.cutAt_behind_of_append hash_notMem_numbers whole
  obtain ⟨stamp, message⟩ := CString.cutAt_behind_of_append timeHash behindFront
  obtain ⟨first, second⟩ := CString.cutAt_behind_of_append (notMem_formatInt (by decide) level) front
  unfold parseMsg
  rw [if_neg (by simp [whole, behindFront]), if_pos (by simp [front]), if_pos (by simp [front]),
    CString.ext first, CString.ext second, CString.ext stamp, CString.ext message, atoi_formatInt, atoi_formatInt]

theorem lastLogIdOf_header (tail : CString) (rest : List (List UInt8)) :
    lastLogIdOf ((header level id time ++ tail.bytes) :: rest) = id := by
  have whole := header_whole level id time tail
  obtain ⟨front, -⟩ := CString.cutAt_behind_of_append hash_notMem_numbers whole
  rw [append_assoc] at whole
  obtain ⟨-, number⟩ := CString.cutAt_behind_of_append (notMem_formatInt (by decide) level) whole
  unfold lastLogIdOf
  rw [if_pos (by simp [whole]), if_pos (by simp [front])]
  apply atoi_formatInt_append id number
  intro b first
  obtain rfl := Option.some.inj first
  decide

end

variable {entries : List Entry} {file : Option (List UInt8)}

theorem Entry.Regular.parse (regular : e.Regular) (fits : e.Fits) :
    parseMsg e.line = some ⟨e.level, Int32.ofInt e.id, e.time, e.text⟩ := by
  obtain ⟨tail, piece, bytes⟩ := regular.first_piece
  have short := (Entry.line_length e).2 fits
  have text : chop tail = e.text := by
    apply CString.ext
    have := header_length e.level (Int32.ofInt e.id) e.time
    unfold Entry.Fits at fits
    show tail.bytes.dropLast = e.text.bytes
    rw [bytes, take_of_length_le (by simp; omega), dropLast_concat]
  rw [← take_of_length_le short, piece, parseMsg_header regular.timeHash, text]

/-- The first piece of a line that does not fit is parsed too, but its text is not whole. -/
theorem Entry.Regular.parse_cut (regular : e.Regular) (long : ¬ e.Fits) :
    ∃ message : CString, parseMsg (e.line.take 255) = some ⟨e.level, Int32.ofInt e.id, e.time, message⟩ ∧
      message ≠ e.text := by
  obtain ⟨tail, piece, bytes⟩ := regular.first_piece
  refine ⟨chop tail, by rw [piece, parseMsg_header regular.timeHash], ?_⟩
  intro same
  have lengths := congrArg (fun s : CString => s.bytes.length) same
  have := header_length e.level (Int32.ofInt e.id) e.time
  have := regular.header_length_le
  unfold Entry.Fits at long
  simp only [chop, bytes, length_dropLast, length_take] at lengths
  omega

/-! ## Reading -/

variable {results : List SyslogMsgData} {piece : List UInt8}

section

variable {k : Int32} {rest : List (List UInt8)} {data : SyslogMsgData}

theorem reads_nil : Reads ⟨some [], k⟩ [] := .stop rfl

section

variable (parsed : parseMsg piece = some data)

include parsed

theorem reads_below (below : data.logid ≤ k) : Reads ⟨some (piece :: rest), k⟩ [] := by
  have zero : syslogReadSyslogMsg ⟨some (piece :: rest), k⟩ = (none, ⟨some rest, k⟩) := by
    simp only [syslogReadSyslogMsg, readMsg, parsed, if_pos below]
  exact .stop zero

theorem read_above (above : ¬ data.logid ≤ k) :
    syslogReadSyslogMsg ⟨some (piece :: rest), k⟩ = (some data, ⟨some rest, k⟩) := by
  simp only [syslogReadSyslogMsg, readMsg, parsed, if_neg above]

theorem reads_above (above : ¬ data.logid ≤ k) (all : Reads ⟨some (piece :: rest), k⟩ results) :
    ∃ later, results = data :: later ∧ Reads ⟨some rest, k⟩ later := by
  have first : syslogReadSyslogMsg ⟨some (piece :: rest), k⟩ = (some data, ⟨some rest, k⟩) := read_above parsed above
  cases all with
  | stop zero =>
    rw [first] at zero
    cases zero
  | next one later =>
    rw [first] at one
    cases one
    exact ⟨_, rfl, later⟩

end

end

theorem not_le_iff {k : Int32} (regular : e.Regular) : ¬ Int32.ofInt e.id ≤ k ↔ k.toInt < e.id := by
  rw [Int32.le_iff_toInt_le, regular.toInt_ofInt, Int.not_le]

theorem Entry.Regular.above_one (regular : e.Regular) : (1 : Int32).toInt < e.id := by
  have low := regular.low
  have one : (1 : Int32).toInt = 1 := rfl
  omega

theorem reads_lines (regular : ∀ e ∈ entries, e.Regular) (fits : ∀ e ∈ entries, e.Fits)
    (decreasing : entries.Pairwise fun newer older => older.id < newer.id) (k : Int32) :
    ∃ results, Reads ⟨some (entries.map Entry.line), k⟩ results ∧
      results.map SyslogMsgData.entry = entries.filter fun e => k.toInt < e.id := by
  induction entries with
  | nil => exact ⟨[], reads_nil, rfl⟩
  | cons e older ih =>
    have isRegular := regular e mem_cons_self
    have parsed := isRegular.parse (fits e mem_cons_self)
    obtain ⟨newest, decreasing⟩ := pairwise_cons.1 decreasing
    by_cases above : k.toInt < e.id
    · obtain ⟨results, reads, same⟩ := ih (fun e inside => regular e (mem_cons_of_mem _ inside))
        (fun e inside => fits e (mem_cons_of_mem _ inside)) decreasing
      refine ⟨_, .next (read_above parsed ((not_le_iff isRegular).2 above)) reads, ?_⟩
      rw [map_cons, same, filter_cons_of_pos (by simpa using above)]
      simp only [SyslogMsgData.entry, isRegular.toInt_ofInt]
    · have below : Int32.ofInt e.id ≤ k := Classical.not_not.1 (mt (not_le_iff isRegular).1 above)
      refine ⟨[], reads_below parsed below, ?_⟩
      -- the older messages have smaller numbers still
      rw [map_nil, filter_eq_nil_iff.2]
      intro e' inside
      rcases mem_cons.1 inside with rfl | inside
      · simpa using above
      · have := newest e' inside
        simp only [decide_eq_true_eq]
        omega

theorem reads_prefix (regular : ∀ e ∈ entries, e.Regular) (fits : ∀ e ∈ entries, e.Fits)
    {rest : List (List UInt8)} {data : SyslogMsgData} (parsed : parseMsg piece = some data) (above : ¬ data.logid ≤ 1)
    (all : Reads ⟨some (entries.map Entry.line ++ piece :: rest), 1⟩ results) :
    ∃ later, results.map SyslogMsgData.entry = entries ++ data.entry :: later := by
  induction entries generalizing results with
  | nil =>
    obtain ⟨later, rfl, -⟩ := reads_above parsed above all
    exact ⟨later.map SyslogMsgData.entry, rfl⟩
  | cons e older ih =>
    have isRegular := regular e mem_cons_self
    obtain ⟨results, rfl, reads⟩ := reads_above (isRegular.parse (fits e mem_cons_self))
      ((not_le_iff isRegular).2 isRegular.above_one) all
    obtain ⟨later, same⟩ := ih (fun e inside => regular e (mem_cons_of_mem _ inside))
      (fun e inside => fits e (mem_cons_of_mem _ inside)) reads
    refine ⟨later, ?_⟩
    rw [map_cons, same]
    simp only [SyslogMsgData.entry, isRegular.toInt_ofInt, cons_append]

/-! ## The pieces of the log -/

/-- The pieces of the log after these messages, newest first. -/
def stored (maxCount : Nat) : List Entry → List (List UInt8)
  | [] => []
  | e :: older => fgetsAll 256 e.line ++ (stored maxCount older).take (maxCount - 1)

variable {maxCount : Nat}

section

theorem take_stored {entries : List Entry} (regular : ∀ e ∈ entries, e.Regular) {count : Nat}
    (room : count ≤ maxCount) (fits : ∀ e ∈ entries.take count, e.Fits) :
    (stored maxCount entries).take count = (entries.take count).map Entry.line := by
  induction entries generalizing count with
  | nil => simp [stored]
  | cons e older ih =>
    cases count with
    | zero => rfl
    | succ count =>
      have inner : (stored maxCount older).take count = (older.take count).map Entry.line := by
        apply ih (fun e inside => regular e (mem_cons_of_mem _ inside)) (by omega)
        intro e inside
        exact fits e (by simp [inside])
      rw [stored, (regular e mem_cons_self).pieces_of_fits (fits e (by simp)), singleton_append,
        take_succ_cons, take_take, Nat.min_eq_left (by omega), inner, take_succ_cons,
        map_cons]

theorem stored_of_fits (pos : 1 ≤ maxCount) {entries : List Entry} (regular : ∀ e ∈ entries, e.Regular)
    (fits : ∀ e ∈ entries.take maxCount, e.Fits) :
    stored maxCount entries = (entries.take maxCount).map Entry.line := by
  obtain ⟨count, rfl⟩ : ∃ count, maxCount = count + 1 := ⟨maxCount - 1, by omega⟩
  cases entries with
  | nil => rfl
  | cons e older =>
    have inner := take_stored (fun e inside => regular e (mem_cons_of_mem _ inside)) (Nat.le_succ count)
      (fun e inside => fits e (by simp [inside]))
    rw [stored, (regular e mem_cons_self).pieces_of_fits (fits e (by simp)), Nat.add_sub_cancel, inner]
    rfl

theorem stored_append {newer : List Entry} (regular : ∀ e ∈ newer, e.Regular) (fits : ∀ e ∈ newer, e.Fits)
    (room : newer.length < maxCount) {e : Entry} (isRegular : e.Regular) (older : List Entry) :
    ∃ rest, stored maxCount (newer ++ e :: older) = newer.map Entry.line ++ e.line.take 255 :: rest := by
  induction newer with
  | nil => exact ⟨_, by rw [nil_append, stored, isRegular.pieces]; rfl⟩
  | cons first newer ih =>
    simp only [length_cons] at room
    obtain ⟨rest, inner⟩ := ih (fun e inside => regular e (mem_cons_of_mem _ inside))
      (fun e inside => fits e (mem_cons_of_mem _ inside)) (by omega)
    obtain ⟨left, enough⟩ : ∃ left, maxCount - 1 = newer.length + (left + 1) := ⟨maxCount - newer.length - 2, by omega⟩
    refine ⟨rest.take left, ?_⟩
    rw [cons_append, stored, (regular first mem_cons_self).pieces_of_fits (fits first mem_cons_self),
      inner, enough, take_append, take_of_length_le (by simp), length_map,
      Nat.add_sub_cancel_left]
    rfl

end

/-! ## The time -/

theorem convTime_bytes {now : Clock} {b : UInt8} (inside : b ∈ (convTime now).bytes) :
    (48 ≤ b.toNat ∧ b.toNat ≤ 57) ∨ b ∈ [47, 32, 58] := by
  have member := takeWhile_subset _ inside
  simp only [mem_append, mem_cons] at member
  rcases member with ((((digit | rfl | digit) | rfl | digit) | rfl | digit) | rfl | digit) | rfl | digit
  all_goals first
    | exact .inl (padded_range _ _ b digit)
    | exact .inr (by decide)

theorem curTime_regular (call : Call) :
    hash ∉ call.curTime.bytes ∧ lf ∉ call.curTime.bytes ∧ call.curTime.bytes.length ≤ 19 := by
  unfold Call.curTime
  split
  · refine ⟨fun inside => ?_, fun inside => ?_, ?_⟩
    · exact absurd (convTime_bytes inside) (by decide)
    · exact absurd (convTime_bytes inside) (by decide)
    · apply (takeWhile_sublist _).length_le.trans
      simp [padded_length]
  · decide

/-! ## The log over a run -/

/-- Numbers without a gap, the oldest message having number 2. -/
def Numbered : List Entry → Prop
  | [] => True
  | e :: older => e.id = older.length + 2 ∧ Numbered older

theorem Numbered.id_lt (numbered : Numbered entries) : ∀ e ∈ entries, e.id < entries.length + 2 := by
  induction entries with
  | nil => simp
  | cons first older ih =>
    obtain ⟨newest, numbered⟩ := numbered
    intro e inside
    rw [length_cons]
    rcases mem_cons.1 inside with rfl | inside
    · omega
    · have := ih numbered e inside
      omega

theorem Numbered.decreasing (numbered : Numbered entries) :
    entries.Pairwise fun newer older => older.id < newer.id := by
  induction entries with
  | nil => exact .nil
  | cons first older ih =>
    obtain ⟨newest, numbered⟩ := numbered
    refine .cons ?_ (ih numbered)
    intro e inside
    rw [newest]
    exact numbered.id_lt e inside

def piecesOf (file : Option (List UInt8)) : List (List UInt8) :=
  match file with
  | none => []
  | some contents => fgetsAll 256 contents

theorem getLastLogId_eq (file : Option (List UInt8)) : getLastLogId file = lastLogIdOf (piecesOf file) := by
  cases file with
  | none | some contents => rfl

theorem nulFree_of_mem_piecesOf (nulFree : ∀ contents ∈ file, (0 : UInt8) ∉ contents)
    (inside : piece ∈ piecesOf file) : (0 : UInt8) ∉ piece := by
  cases file with
  | none => cases inside
  | some contents =>
    intro zero
    apply nulFree contents rfl
    rw [← fgetsAll_flatten (show 2 ≤ 256 by decide) contents]
    exact mem_flatten.2 ⟨piece, inside, zero⟩

theorem appendFileLine_eq (nulFree : ∀ contents ∈ file, (0 : UInt8) ∉ contents)
    (line : Nat) : appendFileLine file line = ((piecesOf file).take line).flatten := by
  cases file with
  | none => simp [appendFileLine, piecesOf]
  | some contents =>
    have same : ∀ piece ∈ (fgetsAll 256 contents).take line, (CString.ofBuffer piece).bytes = piece := by
      intro piece inside
      apply CString.ofBuffer_of_nulFree
      exact nulFree_of_mem_piecesOf nulFree (mem_of_mem_take inside)
    simp only [appendFileLine, piecesOf]
    rw [map_congr_left same, List.map_id']

theorem reads_file_iff {k : Int32} :
    Reads (mallocSyslogMsgStructure file k) results ↔ Reads ⟨some (piecesOf file), k⟩ results := by
  cases file with
  | some contents => exact Iff.rfl
  | none =>
    constructor
    · intro all
      cases all with
      | stop zero => exact reads_nil
      | next one later => cases one
    · intro all
      cases all with
      | stop zero => exact .stop rfl
      | next one later => cases one

/-- The log file after these messages. -/
structure Holds (maxCount : Nat) (file : Option (List UInt8)) (entries : List Entry) : Prop where
  numbered : Numbered entries
  regular : ∀ e ∈ entries, e.Regular
  bounded : entries.length + 1 < 2147483648
  pieces : piecesOf file = stored maxCount entries
  nulFree : ∀ contents ∈ file, (0 : UInt8) ∉ contents

section

variable {call : Call}

theorem Holds.lastId (holds : Holds maxCount file entries) : getLastLogId file = Int32.ofInt (entries.length + 1) := by
  rw [getLastLogId_eq, holds.pieces]
  cases entries with
  | nil => rfl
  | cons e older =>
    have isRegular := holds.regular e mem_cons_self
    obtain ⟨tail, piece, -⟩ := isRegular.first_piece
    rw [stored, isRegular.pieces, piece, cons_append, lastLogIdOf_header, holds.numbered.1]
    congr 1

theorem nextLog_of_not_logged (silent : call.logged = false) : nextLog maxCount file call = some file := by
  unfold nextLog syslogMsg
  split
  · rfl
  · split
    · rfl
    · rename_i on shown
      have closed : call.tempOpens = false := by
        simpa only [Call.logged, on, shown, ne_eq, not_false_eq_true, true_and, Bool.decide_eq_true] using silent
      rw [if_pos closed, map_some]

theorem nextLog_of_logged (logged : call.logged = true) : nextLog maxCount file call =
      if getLastLogId file = Int32.maxValue then none
      else some (some (header call.level (getLastLogId file + 1) call.curTime ++ call.text.bytes ++
        lf :: appendFileLine file (maxCount - 1))) := by
  obtain ⟨on, shown, opens⟩ := of_decide_eq_true logged
  unfold nextLog syslogMsg
  rw [if_neg on, if_neg shown, if_neg (by simp [opens])]
  split <;> rfl

theorem fgetsAll_appendFileLine (nulFree : ∀ contents ∈ file, (0 : UInt8) ∉ contents) (line : Nat) :
    fgetsAll 256 (appendFileLine file line) = (piecesOf file).take line := by
  rw [appendFileLine_eq nulFree]
  cases file with
  | none => simp [piecesOf]
  | some contents => exact fgetsAll_take_flatten (by decide) contents line

theorem Holds.cons (holds : Holds maxCount file entries) {e : Entry} (number : e.id = entries.length + 2)
    (isRegular : e.Regular) :
    Holds maxCount (some (header e.level (Int32.ofInt e.id) e.time ++ e.text.bytes ++
      lf :: appendFileLine file (maxCount - 1))) (e :: entries) where
  numbered := ⟨number, holds.numbered⟩
  regular := by
    intro e' inside
    rcases mem_cons.1 inside with rfl | inside
    · exact isRegular
    · exact holds.regular e' inside
  bounded := by
    have high := isRegular.high
    rw [length_cons]
    omega
  pieces := by
    rw [piecesOf, fgetsAll_append (by decide), fgetsAll_appendFileLine holds.nulFree, holds.pieces]
    rfl
  nulFree := by
    intro contents written
    obtain rfl := mem_some_iff.1 written
    rw [append_cons, mem_append, not_or]
    refine ⟨e.line_nulFree, fun zero => ?_⟩
    rw [appendFileLine_eq holds.nulFree] at zero
    obtain ⟨piece, inside, zero⟩ := mem_flatten.1 zero
    exact nulFree_of_mem_piecesOf holds.nulFree (mem_of_mem_take inside) zero

/-- One call: the message is put in front, or the numbers have run out. -/
theorem Holds.next (holds : Holds maxCount file entries) (textLf : lf ∉ call.text.bytes) :
    (∃ file', nextLog maxCount file call = some file' ∧ Holds maxCount file' (record entries call)) ∨
      (nextLog maxCount file call = none ∧ (record entries call).length + 1 = 2147483648) := by
  have bounded := holds.bounded
  cases logged : call.logged with
  | false =>
    rw [nextLog_of_not_logged logged, record, if_neg (by simp [logged])]
    exact .inl ⟨file, rfl, holds⟩
  | true =>
    rw [nextLog_of_logged logged, holds.lastId, record, if_pos logged, length_cons]
    have number : (Int32.ofInt (entries.length + 1)).toInt = entries.length + 1 :=
      Int32.toInt_ofInt_of_le (by omega) (by omega)
    have next : Int32.ofInt (entries.length + 1) + 1 = Int32.ofInt (entries.length + 2) := by
      rw [show (entries.length : Int) + 2 = (entries.length + 1) + 1 by omega, Int32.ofInt_add (_ + 1) 1]
      rfl
    split
    · rename_i full
      rw [full] at number
      have maximum : Int32.maxValue.toInt = 2147483647 := rfl
      exact .inr ⟨rfl, by omega⟩
    · rename_i notFull
      have room : (entries.length : Int) + 2 < 2147483648 := by
        by_contra out
        apply notFull
        rw [show (entries.length : Int) + 1 = 2147483647 by omega]
        rfl
      obtain ⟨timeHash, timeLf, timeLength⟩ := curTime_regular call
      have low : (2 : Int) ≤ entries.length + 2 := by omega
      rw [next]
      exact .inl ⟨_, rfl, holds.cons (e := ⟨entries.length + 2, call.level, call.curTime, call.text⟩) rfl
          { low, high := room, timeHash, timeLf, timeLength, textLf }⟩

theorem length_le_foldl_record (calls : List Call) (entries : List Entry) :
    entries.length ≤ (calls.foldl record entries).length := by
  induction calls generalizing entries with
  | nil => exact le_rfl
  | cons call calls ih =>
    apply le_trans _ (ih (record entries call))
    unfold record
    split
    · simp
    · exact le_rfl

/-- A run of calls is defined until the numbers run out. -/
theorem Holds.run {calls : List Call} (holds : Holds maxCount file entries)
    (textLf : ∀ call ∈ calls, lf ∉ call.text.bytes) : (∃ file', replay (nextLog maxCount) calls file = some file' ∧
        Holds maxCount file' (calls.foldl record entries)) ∨
      (replay (nextLog maxCount) calls file = none ∧ 2147483648 ≤ (calls.foldl record entries).length + 1) := by
  induction calls generalizing file entries with
  | nil => exact .inl ⟨file, rfl, holds⟩
  | cons call calls ih =>
    rw [replay, foldl_cons]
    rcases holds.next (textLf call mem_cons_self) with ⟨file', ran, holds⟩ | ⟨undefined, full⟩
    · rw [ran]
      exact ih holds fun call inside => textLf call (mem_cons_of_mem _ inside)
    · have := length_le_foldl_record calls (record entries call)
      rw [undefined]
      exact Or.inr ⟨rfl, by omega⟩

end

theorem holds_nil (maxCount : Nat) : Holds maxCount none [] where
  numbered := trivial
  regular := by simp
  bounded := by decide
  pieces := rfl
  nulFree := by simp

/-! ## Reading back -/

section

/-- While the last messages fit, they are read as they were logged. -/
theorem Holds.reads (holds : Holds maxCount file entries) (pos : 1 ≤ maxCount)
    (fits : ∀ e ∈ entries.take maxCount, e.Fits) (k : Int32) :
    ∃ results, Reads (mallocSyslogMsgStructure file k) results ∧
      results.map SyslogMsgData.entry = (entries.take maxCount).filter fun e => k.toInt < e.id := by
  simp only [reads_file_iff, holds.pieces, stored_of_fits pos holds.regular fits]
  apply reads_lines _ fits
  · exact holds.numbered.decreasing.sublist (take_sublist _ _)
  · intro e inside
    exact holds.regular e (mem_of_mem_take inside)

theorem exists_newest_long (notAll : ¬ ∀ e ∈ entries, e.Fits) :
    ∃ newer e older, entries = newer ++ e :: older ∧ (∀ e' ∈ newer, e'.Fits) ∧ ¬ e.Fits := by
  obtain ⟨e, long⟩ : ∃ e, entries.find? (fun e => !decide e.Fits) = some e := by
    apply isSome_iff_exists.1
    simpa using notAll
  obtain ⟨eLong, newer, older, split, newerFit⟩ := find?_eq_some_iff_append.1 long
  exact ⟨newer, e, older, split, by simpa using newerFit, by simpa using eLong⟩

theorem Holds.fits_of_reads (holds : Holds maxCount file entries)
    (reads : Reads (mallocSyslogMsgStructure file 1) results)
    (same : results.map SyslogMsgData.entry = (entries.take maxCount).filter fun e => (1 : Int32).toInt < e.id) :
    ∀ e ∈ entries.take maxCount, e.Fits := by
  by_contra notAll
  obtain ⟨newer, e, older, split, newerFits, long⟩ := exists_newest_long notAll
  have whole : entries = newer ++ e :: (older ++ entries.drop maxCount) := by
    rw [← cons_append, ← append_assoc, ← split, take_append_drop]
  have room : newer.length < maxCount := by
    have lengths := congrArg length split
    have := length_take_le maxCount entries
    simp only [length_append, length_cons] at lengths
    omega
  have isRegular : e.Regular := holds.regular e (by rw [whole]; simp)
  have newerRegular : ∀ e ∈ newer, e.Regular := fun e inside => holds.regular e (by rw [whole]; simp [inside])
  have all : (entries.take maxCount).filter (fun e => (1 : Int32).toInt < e.id) = entries.take maxCount := by
    apply filter_eq_self.2
    intro e inside
    exact decide_eq_true (holds.regular e (mem_of_mem_take inside)).above_one
  -- the first piece of that message is read in its place
  obtain ⟨message, parsed, cut⟩ := isRegular.parse_cut long
  obtain ⟨rest, pieces⟩ := stored_append newerRegular newerFits room isRegular (older ++ entries.drop maxCount)
  rw [reads_file_iff, holds.pieces, whole, pieces] at reads
  obtain ⟨later, read⟩ := reads_prefix newerRegular newerFits parsed ((not_le_iff isRegular).2 isRegular.above_one) reads
  rw [same, all, split] at read
  have here := (cons.inj (append_cancel_left read)).1
  exact cut (congrArg Entry.text here).symm

/-- **The log is read back exactly when its lines fit.**  None of the last `maxCount` messages has a
line of more than 255 bytes, and fewer than `2^31 - 1` have been logged. -/
theorem log_reads_back_iff (maxCount : Nat) (pos : 1 ≤ maxCount) (calls : List Call)
    (oneLine : ∀ call ∈ calls, lf ∉ call.text.bytes) : ReadsBack maxCount calls ↔
      (journal calls).length + 1 < 2147483648 ∧ ∀ e ∈ (journal calls).take maxCount, e.Fits := by
  rcases (holds_nil maxCount).run oneLine with ⟨file, ran, holds⟩ | ⟨undefined, full⟩
  · constructor
    · rintro ⟨file', ran', readsBack⟩
      obtain rfl : file = file' := Option.some.inj (ran.symm.trans ran')
      obtain ⟨results, reads, same⟩ := readsBack 1
      exact ⟨holds.bounded, holds.fits_of_reads reads same⟩
    · rintro ⟨-, fits⟩
      exact ⟨file, ran, holds.reads pos fits⟩
  · constructor
    · rintro ⟨file, ran, -⟩
      rw [undefined] at ran
      cases ran
    · rintro ⟨room, -⟩
      exact absurd full (Nat.not_le.2 room)

end

namespace Sample

/-- An informational message without a clock. -/
def note (text : CString) : Call where
  status := 1
  hiddenLog := false
  tempOpens := true
  now := none
  level := 1
  text := text

/-- Three messages, the second with separators in it, and one of the hidden level. -/
def notes : List Call :=
  [note (CString.ofBuffer (ascii ['u', 'p'])), note (CString.ofBuffer (ascii ['a', '#', 'b', ' ', '1', '#'])),
    { note (CString.ofBuffer (ascii ['x'])) with level := 10 }, note CString.empty]

def letters (count : Nat) : CString :=
  ⟨replicate count 97, fun zero => absurd (eq_of_mem_replicate zero) (by decide)⟩

/-- A message of 300 bytes. -/
def long : Call := note (letters 300)

end Sample

open Sample

/-- A log of two lines: the oldest message is gone, the hidden one was never there. -/
theorem log_reads_back_sample : ReadsBack 2 notes ∧
      (journal notes).map (fun e => (e.id, e.text)) =
        [(4, CString.empty), (3, CString.ofBuffer (ascii ['a', '#', 'b', ' ', '1', '#'])),
          (2, CString.ofBuffer (ascii ['u', 'p']))] := by
  constructor
  · apply (log_reads_back_iff 2 (by decide) notes (by decide)).2
    decide
  · decide

/-- A message that is too long comes back cut. -/
theorem log_cuts_message : ¬ ReadsBack 400 [long] := by
  rintro ⟨file, ran, readsBack⟩
  have oneLine : ∀ call ∈ [long], lf ∉ call.text.bytes := by
    intro call inside
    obtain rfl := mem_singleton.1 inside
    intro letter
    exact absurd (eq_of_mem_replicate letter) (by decide)
  rcases (holds_nil 400).run oneLine with ⟨file', ran', holds⟩ | ⟨undefined, -⟩
  · obtain rfl : file' = file := Option.some.inj (ran'.symm.trans ran)
    obtain ⟨results, reads, same⟩ := readsBack 1
    have fits : Entry.Fits ⟨2, 1, _, long.text⟩ := holds.fits_of_reads reads same _ (mem_cons_self)
    have tooLong : long.text.bytes.length = 300 := length_replicate
    simp only [Entry.Fits] at fits
    omega
  · rw [undefined] at ran
    cases ran

end RouterApps.Syslog
