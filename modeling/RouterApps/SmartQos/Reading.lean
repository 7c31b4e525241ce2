/-
# SmartQos.Reading -- reading /proc/smart_qos in pieces

A reader should find a line for every slot that had a pending command when it began,
however it divides the file into calls, and no call should print more than a page.

Every call prints the file anew and clears the commands it prints, also those that it does
not return.  From the second call on the file is its header (`procReadSmartQos_clear`), so
what the first call cut off is lost (`short_read_loses_event`).  All 258 slots together can
have more than a page.  `reading_loses_nothing_iff` says exactly when both are well.
-/
import RouterApps.CLib.Proc
import RouterApps.SmartQos.Monitor

namespace RouterApps.SmartQos

open CLib List Option

variable {on : Bool} {q : QosList}

/-! ## The text -/

/-- `"Smart QoS : %s\n\n"`. -/
def headerLine (on : Bool) : List UInt8 :=
  ascii ['S', 'm', 'a', 'r', 't', ' ', 'Q', 'o', 'S', ' ', ':', ' '] ++
    (if on then ascii ['O', 'n'] else ascii ['O', 'f', 'f']) ++ ascii ['\n']

def pendingSlots (q : QosList) : List (Fin maxCount) := (finRange maxCount).filter fun i => (q i).command ≠ 0

/-- A line for each of them. -/
def pendingLines (q : QosList) : List (List UInt8) := (pendingSlots q).map fun i => (q i).line

variable {slot : Slot} {out : List UInt8}

theorem Slot.line_of_idle (idle : slot.command = 0) : slot.line = [] := by
  simp [Slot.line, Slot.report, idle]

theorem procReadSmartQos_fst (on : Bool) (q : QosList) :
    (procReadSmartQos on q).1 = (headerLine on :: ascii ['\n'] :: pendingLines q).flatten := by
  have lines : (finRange maxCount).flatMap (fun i => (q i).line) = (pendingLines q).flatten := by
    exact (flatMap_filter_of_silent (fun i idle => Slot.line_of_idle (by simpa using idle)) _).symm
  simp only [procReadSmartQos, lines, headerLine]
  simp [ascii]

theorem procReadSmartQos_clear (on : Bool) (q : QosList) : procReadSmartQos on (procReadSmartQos on q).2 =
      ((headerLine on :: [ascii ['\n']]).flatten, (procReadSmartQos on q).2) := by
  have idle (slot : Slot) : slot.clear.command = 0 := by
    unfold Slot.clear
    split
    · assumption
    · rfl
  have again (slot : Slot) : slot.clear.clear = slot.clear := by
    rw [Slot.clear, if_pos (idle slot)]
  refine Prod.ext ?_ (funext fun i => again (q i))
  have none : pendingLines (procReadSmartQos on q).2 = [] := by
    simp [pendingLines, pendingSlots, procReadSmartQos, idle]
  rw [procReadSmartQos_fst, none]

/-! ## Lines -/

/-- The letters a line of a slot begins with. -/
def isReport (line : List UInt8) : Bool :=
  line.head? = some Kind.new.letter || line.head? = some Kind.deleted.letter || line.head? = some Kind.unknown.letter

theorem Slot.line_of_pending (pending : slot.command ≠ 0) : ∃ kind : Kind, slot.line = kind.letter :: ascii [' '] ++
      (intercalate (ascii ['.']) ((leBytes slot.ip).map fun byte => digits 10 byte.toNat)) ++ ascii ['\n'] := by
  have reported : ∃ kind, slot.report = some kind := by
    unfold Slot.report
    rw [if_neg pending]
    split
    · exact ⟨_, rfl⟩
    · split <;> exact ⟨_, rfl⟩
  obtain ⟨kind, reported⟩ := reported
  exact ⟨kind, by rw [Slot.line, reported]⟩

theorem lf_notMem_digits (fuel n : Nat) : lf ∉ digits fuel n := fun inside => by
  have := digits_range fuel n lf inside
  simp [lf] at this

theorem pending_isLine (pending : slot.command ≠ 0) : IsLine slot.line ∧ isReport slot.line = true := by
  obtain ⟨kind, line⟩ := Slot.line_of_pending pending
  have letter : lf ≠ kind.letter := by cases kind <;> decide
  have blank : lf ≠ 32 := by decide
  have dot : lf ≠ 46 := by decide
  rw [line]
  refine ⟨⟨_, rfl, ?_⟩, ?_⟩
  · simp [leBytes, lf_notMem_digits, ascii, letter, blank, dot]
  · cases kind <;> rfl

theorem mem_pendingLines {line : List UInt8} (member : line ∈ pendingLines q) : IsLine line ∧ isReport line = true := by
  obtain ⟨i, pending, rfl⟩ := mem_map.1 member
  exact pending_isLine (by simpa using (mem_filter.1 pending).2)

theorem completeLines_procReadSmartQos (on : Bool) (q : QosList) :
    completeLines (procReadSmartQos on q).1 = headerLine on :: ascii ['\n'] :: pendingLines q := by
  rw [procReadSmartQos_fst]
  refine completeLines_flatten fun line member => ?_
  rcases mem_cons.1 member with rfl | member
  · cases on <;> exact ⟨_, rfl, by decide⟩
  · rcases mem_cons.1 member with rfl | member
    · exact ⟨[], rfl, by simp⟩
    · exact (mem_pendingLines member).1

theorem getLast?_of_append {α : Type} (front : List α) {back : List α} {a : α} (last : (front ++ back).getLast? = some a)
    (nonempty : back ≠ []) : back.getLast? = some a := by
  rw [getLast?_append, getLast?_eq_some_getLast nonempty, some_or] at last
  rw [getLast?_eq_some_getLast nonempty, last]

theorem not_subperm_of_lost {lost : List UInt8} (split : (procReadSmartQos on q).1 = out ++ lost)
    (something : lost ≠ []) (pending : pendingLines q ≠ []) : ¬(pendingLines q).Subperm (completeLines out) := by
  intro every
  have lines := completeLines_procReadSmartQos on q
  obtain ⟨begun, parts⟩ := exists_linesFrom_append [] out lost
  rw [split, completeLines, parts, ← completeLines] at lines
  obtain ⟨earlier, line, slots⟩ := eq_nil_or_concat (pendingLines q) |>.resolve_left pending
  have isSlot : line ∈ pendingLines q := by simp [slots]
  obtain ⟨⟨body, feed, -⟩, report⟩ := mem_pendingLines isSlot
  -- the text ends with the line feed of the last slot, so the lost part has a line of its own
  have ends : lost.getLast? = some lf := by
    refine getLast?_of_append out ?_ something
    rw [← split, procReadSmartQos_fst, slots, feed]
    simp
  have lostLines : (linesFrom begun lost).getLast? = some line := by
    refine getLast?_of_append (completeLines out) ?_ (linesFrom_ne_nil begun (mem_of_getLast? ends))
    rw [lines, slots, concat_eq_append, ← cons_append, ← cons_append, getLast?_concat]
  have lostReport : 0 < (linesFrom begun lost).countP isReport :=
    countP_pos_iff.2 ⟨line, mem_of_getLast? lostLines, report⟩
  have counted := congrArg (countP isReport) lines
  have header : isReport (headerLine on) = false := by cases on <;> rfl
  have blank : isReport (ascii ['\n']) = false := rfl
  have allReports : (pendingLines q).countP isReport = (pendingLines q).length :=
    countP_eq_length.2 fun line member => (mem_pendingLines member).2
  have found := every.countP_le isReport
  simp only [countP_append, countP_cons, header, blank, Bool.false_eq_true, if_false] at counted found
  omega

/-! ## The reading -/

/-- The file without events. -/
def header (on : Bool) : List UInt8 := [headerLine on, ascii ['\n']].flatten

theorem header_length (on : Bool) : (header on).length ≤ 17 := by cases on <;> decide

variable {rest : List Nat} {first : Nat}

/-- A call without room for the whole text is followed by the header only. -/
theorem exists_lost (read : readCalls (procReadSmartQos on) (first :: rest) 0 q = some out)
    (short : first < (procReadSmartQos on q).1.length) (pending : pendingLines q ≠ []) :
    ∃ lost, (procReadSmartQos on q).1 = out ++ lost ∧ lost ≠ [] := by
  have more : (procReturn (procReadSmartQos on q).1 0 first).eof = false := by
    simp only [procReturn, decide_eq_false_iff_not]
    omega
  simp only [readCalls, more, procReturn_bytes_length more, Nat.zero_add] at read
  obtain ⟨later, readLater, rfl⟩ := map_eq_some_iff.1 read
  have rest : later = (header on).drop first := readCalls_of_stable (procReadSmartQos_clear on q) readLater
  have text : (procReadSmartQos on q).1 = header on ++ (pendingLines q).flatten := by
    rw [procReadSmartQos_fst, header]
    simp
  simp only [procReturn, drop_zero, rest]
  by_cases inside : first ≤ (header on).length
  · refine ⟨(pendingLines q).flatten, ?_, fun empty => ?_⟩
    · rw [text, take_append_of_le_length inside, take_append_drop]
    · obtain ⟨line, lines, slots⟩ := exists_cons_of_ne_nil pending
      have isSlot : line ∈ pendingLines q := by simp [slots]
      obtain ⟨⟨body, feed, -⟩, -⟩ := mem_pendingLines isSlot
      simp [slots, feed] at empty
  · refine ⟨(procReadSmartQos on q).1.drop first, ?_, fun empty => ?_⟩
    · rw [drop_of_length_le (by omega), append_nil, take_append_drop]
    · have := drop_eq_nil_iff.1 empty
      omega

theorem out_of_room (read : readCalls (procReadSmartQos on) (first :: rest) 0 q = some out)
    (room : (procReadSmartQos on q).1.length ≤ first) : out = (procReadSmartQos on q).1 := by
  have ended : (procReturn (procReadSmartQos on q).1 0 first).eof = true := by
    simp only [procReturn, decide_eq_true_eq]
    omega
  simp only [readCalls, ended] at read
  rw [← Option.some.inj read, procReturn_bytes_of_room room]

/-- The first text is the longest one. -/
theorem texts_fit_iff (on : Bool) (q : QosList) (first : Nat) (rest : List Nat) :
    (∀ text ∈ printedTexts (procReadSmartQos on) (first :: rest) 0 q, FitsPage text) ↔
      FitsPage (procReadSmartQos on q).1 := by
  constructor
  · intro fits
    exact fits _ mem_cons_self
  · intro fits text member
    rcases mem_cons.1 member with rfl | later
    · exact fits
    · split at later
      · cases later
      · rw [mem_printedTexts_of_stable (procReadSmartQos_clear on q) later]
        cases on <;> decide

/-- Every reading with positive lengths comes to an end. -/
theorem reading_ends (on : Bool) (q : QosList) {lengths : List Nat} (positive : ∀ length ∈ lengths, 0 < length)
    (enough : 18 ≤ lengths.length) : (readCalls (procReadSmartQos on) lengths 0 q).isSome := by
  have short := header_length on
  cases lengths with
  | nil => simp at enough
  | cons first rest =>
    simp only [readCalls]
    split
    · rfl
    · rw [isSome_map]
      rw [length_cons] at enough
      refine readCalls_isSome_of_stable (procReadSmartQos_clear on q)
        (fun length member => positive length (mem_cons_of_mem _ member)) ?_ (by rw [← header]; omega)
      rintro rfl
      simp at enough

theorem reading_ends_bytewise : (readCalls (procReadSmartQos true) (replicate 18 1) 0 fun _ => Slot.zero).isSome :=
  reading_ends true _ (by decide) (by decide)

/-- **Reading in pieces** shows a line for each slot with a pending command and stays in the page
exactly if the first call has room for the whole text or nothing is pending, and the first text
stays in the page. -/
theorem reading_loses_nothing_iff (on : Bool) (q : QosList) (first : Nat) (rest : List Nat) (out : List UInt8)
    (read : readCalls (procReadSmartQos on) (first :: rest) 0 q = some out) :
    ((pendingLines q).Subperm (completeLines out) ∧
        ∀ text ∈ printedTexts (procReadSmartQos on) (first :: rest) 0 q, FitsPage text) ↔
      (((∀ i, (q i).command = 0) ∨ (procReadSmartQos on q).1.length ≤ first) ∧ FitsPage (procReadSmartQos on q).1) := by
  have idle : (∀ i, (q i).command = 0) ↔ pendingLines q = [] := by simp [pendingLines, pendingSlots]
  rw [texts_fit_iff, idle]
  refine and_congr_left fun _ => ⟨fun every => ?_, fun complete => ?_⟩
  · by_contra neither
    obtain ⟨pending, short⟩ := not_or.1 neither
    obtain ⟨lost, split, something⟩ := exists_lost read (by omega) pending
    exact not_subperm_of_lost split something pending every
  · rcases complete with none | room
    · rw [none]
      exact nil_subperm
    · rw [out_of_room read room, completeLines_procReadSmartQos]
      exact ((sublist_cons_self _ _).trans (sublist_cons_self _ _)).subperm

/-- 192.168.0.2 was just heard of. -/
def oneNewHost : QosList := fun i => if i.val = 2 then ⟨0x0200a8c0, 1, addIp⟩ else Slot.zero

/-- A reader that takes the header first never sees the host. -/
theorem short_read_loses_event : ∃ out, readCalls (procReadSmartQos true) [16, 4096] 0 oneNewHost = some out ∧
      ¬(pendingLines oneNewHost).Subperm (completeLines out) := by
  refine ⟨header true, by decide +kernel, fun every => ?_⟩
  have shown := every.subset (List.mem_map.2 ⟨⟨2, by decide⟩, by decide +kernel, rfl⟩)
  revert shown
  decide +kernel

/-- One with room for the text does. -/
theorem whole_read_keeps_event : ∃ out, readCalls (procReadSmartQos true) [4096] 0 oneNewHost = some out ∧
      (pendingLines oneNewHost).Subperm (completeLines out) := by
  have read : readCalls (procReadSmartQos true) [4096] 0 oneNewHost = some (procReadSmartQos true oneNewHost).1 := by
    decide +kernel
  exact ⟨_, read, ((reading_loses_nothing_iff true oneNewHost 4096 [] _ read).2
    ⟨.inr (by decide +kernel), by decide +kernel⟩).1⟩

end RouterApps.SmartQos
