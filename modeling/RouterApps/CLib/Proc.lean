/-
# CLib.Proc -- files that a read_proc function generates

A `read_proc` function prints its text into the page it is given and returns a window of it: the
bytes behind `offset`, at most `length` of them, and the mark for the end of the file.  Nothing stops
the text at the end of the page.

A file is read by calls whose offsets advance by what was returned (`readCalls`).  The text is printed
anew for every call, so what is read is one text only if printing does not change it
(`readCalls_of_stable`).  A reader sees the lines that end in a line feed (`completeLines`).
-/
import RouterApps.CLib.Stream

namespace RouterApps.CLib

open List Option

/-! ## One call -/

/-- What a call gives back: the bytes from `*start` on, and `*eof`. -/
structure ProcRead where
  bytes : List UInt8
  eof : Bool
deriving DecidableEq

/-- The common end of the functions, after the text was printed. -/
def procReturn (text : List UInt8) (offset length : Nat) : ProcRead where
  bytes := (text.drop offset).take length
  eof := text.length ≤ offset + length

variable {text : List UInt8} {length : Nat}

theorem procReturn_bytes_of_room (room : text.length ≤ length) :
    (procReturn text 0 length).bytes = text := take_of_length_le room

/-- A loop that prints nothing for some of its elements prints the text of the others. -/
theorem flatMap_filter_of_silent {α : Type} {line : α → List UInt8} {shown : α → Bool}
    (silent : ∀ a, shown a = false → line a = []) (l : List α) : (l.filter shown).flatMap line = l.flatMap line := by
  induction l with
  | nil => rfl
  | cons a rest ih =>
    rw [filter_cons, flatMap_cons, ← ih]
    cases visible : shown a with
    | true => simp
    | false => simp [silent a visible]

def pageSize : Nat := 4096

/-- The text and the NUL behind it are inside the page. -/
def FitsPage (text : List UInt8) : Prop := text.length + 1 ≤ pageSize

instance (text : List UInt8) : Decidable (FitsPage text) := inferInstanceAs (Decidable (_ ≤ _))

/-! ## Consecutive calls -/

section

variable {S : Type} (print : S → List UInt8 × S)

/-- Calls with the given lengths, from an offset on, until one marks the end of the file; `none` if
there are too few. -/
def readCalls : List Nat → Nat → S → Option (List UInt8)
  | [], _, _ => none
  | length :: rest, offset, s =>
    let read := procReturn (print s).1 offset length
    if read.eof then some read.bytes
    else (readCalls rest (offset + read.bytes.length) (print s).2).map (read.bytes ++ ·)

def printedTexts : List Nat → Nat → S → List (List UInt8)
  | [], _, _ => []
  | length :: rest, offset, s =>
    let read := procReturn (print s).1 offset length
    (print s).1 :: if read.eof then [] else printedTexts rest (offset + read.bytes.length) (print s).2

variable {print} {s : S}

variable {offset : Nat} {lengths : List Nat}

theorem procReturn_bytes_length (more : (procReturn text offset length).eof = false) :
    (procReturn text offset length).bytes.length = length := by
  simp only [procReturn, decide_eq_false_iff_not] at more
  simp only [procReturn, length_take, length_drop]
  omega

section

variable (stable : print s = (text, s))

include stable

theorem readCalls_of_stable {out : List UInt8}
    (read : readCalls print lengths offset s = some out) : out = text.drop offset := by
  induction lengths generalizing offset out with
  | nil => cases read
  | cons length rest ih =>
    simp only [readCalls, stable] at read
    split at read
    · rename_i ended
      obtain rfl := Option.some.inj read
      simp only [procReturn, decide_eq_true_eq] at ended
      exact take_of_length_le (by rw [length_drop]; omega)
    · rename_i more
      obtain ⟨later, readLater, rfl⟩ := map_eq_some_iff.1 read
      rw [ih readLater, procReturn_bytes_length (by simpa using more), ← drop_drop]
      exact take_append_drop length _

theorem readCalls_isSome_of_stable (positive : ∀ length ∈ lengths, 0 < length) (nonempty : lengths ≠ [])
    (enough : text.length ≤ offset + lengths.length) : (readCalls print lengths offset s).isSome := by
  induction lengths generalizing offset with
  | nil => exact absurd rfl nonempty
  | cons length rest ih =>
    have first := positive length mem_cons_self
    simp only [readCalls, stable]
    split
    · rfl
    · rename_i more
      have bytes := procReturn_bytes_length (by simpa using more)
      simp only [procReturn, decide_eq_true_eq] at more
      rw [length_cons] at enough
      rw [isSome_map]
      refine ih (fun later member => positive later (mem_cons_of_mem _ member)) ?_ (by omega)
      rintro rfl
      rw [length_nil] at enough
      omega

theorem mem_printedTexts_of_stable
    {printed : List UInt8} (member : printed ∈ printedTexts print lengths offset s) : printed = text := by
  induction lengths generalizing offset with
  | nil => cases member
  | cons length rest ih =>
    simp only [printedTexts, stable] at member
    rcases mem_cons.1 member with rfl | later
    · rfl
    · split at later
      · cases later
      · exact ih later

end

end

/-! ## Complete lines -/

/-- The lines of a text that end in a line feed; `current` is the line that was begun. -/
def linesFrom (current : List UInt8) : List UInt8 → List (List UInt8)
  | [] => []
  | b :: rest => if b = lf then (current ++ [b]) :: linesFrom [] rest else linesFrom (current ++ [b]) rest

def completeLines (text : List UInt8) : List (List UInt8) := linesFrom [] text

def IsLine (line : List UInt8) : Prop := ∃ body, line = body ++ [lf] ∧ lf ∉ body

theorem linesFrom_body {body : List UInt8} (noLf : lf ∉ body) (current rest : List UInt8) :
    linesFrom current (body ++ lf :: rest) = (current ++ body ++ [lf]) :: linesFrom [] rest := by
  induction body generalizing current with
  | nil => simp [linesFrom]
  | cons b body ih =>
    obtain ⟨other, noLf⟩ := not_or.1 (mem_cons.not.1 noLf)
    simp [linesFrom, Ne.symm other, ih noLf]

theorem completeLines_flatten {lines : List (List UInt8)} (each : ∀ line ∈ lines, IsLine line) :
    completeLines lines.flatten = lines := by
  induction lines with
  | nil => rfl
  | cons line lines ih =>
    obtain ⟨body, rfl, noLf⟩ := each line mem_cons_self
    rw [flatten_cons, append_assoc, singleton_append, completeLines, linesFrom_body noLf]
    exact congrArg _ (ih fun later member => each later (mem_cons_of_mem _ member))

theorem exists_linesFrom_append (current front rest : List UInt8) :
    ∃ begun, linesFrom current (front ++ rest) = linesFrom current front ++ linesFrom begun rest := by
  induction front generalizing current with
  | nil => exact ⟨current, rfl⟩
  | cons b front ih =>
    simp only [cons_append, linesFrom]
    split
    · obtain ⟨begun, same⟩ := ih []
      exact ⟨begun, congrArg _ same⟩
    · exact ih (current ++ [b])

theorem linesFrom_ne_nil (current : List UInt8) (ends : lf ∈ text) : linesFrom current text ≠ [] := by
  induction text generalizing current with
  | nil => cases ends
  | cons b rest ih =>
    simp only [linesFrom]
    split
    · simp
    · rename_i other
      exact ih (current ++ [b]) ((mem_cons.1 ends).resolve_left (Ne.symm other))

end RouterApps.CLib
