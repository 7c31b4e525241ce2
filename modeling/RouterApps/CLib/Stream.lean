/-
# CLib.Stream -- reading files and cutting strings as the C library does

* `fgets` reads at most `size - 1` bytes and stops after a line feed.  `fgetsAll` is the loop
  `while (fgets(...))`: the pieces of a whole file.  Reading never crosses a line feed
  (`fgetsAll_append`), and a line that fits comes back as it was (`fgetsAll_line`).
* `freadAll` is the loop `while (fread(...) == 1)` over records of one size.
* `strtok` cuts the first token off a string; `cutAt` writes a NUL at the byte `strchr` finds.
-/
import RouterApps.CLib.Memory

namespace RouterApps.CLib

open List

/-- The line feed. -/
def lf : UInt8 := 10

/-! ## Lines -/

/-- At most `n` bytes, up to and including the first line feed, and the rest. -/
def fgetsFrom : Nat → List UInt8 → List UInt8 × List UInt8
  | 0, file => ([], file)
  | _ + 1, [] => ([], [])
  | n + 1, b :: file =>
    if b = lf then ([b], file)
    else (b :: (fgetsFrom n file).1, (fgetsFrom n file).2)

/-- `fgets(buffer, size, fp)`: `none` at the end of the file. -/
def fgets (size : Nat) (file : List UInt8) : Option (List UInt8 × List UInt8) :=
  if file = [] then none else some (fgetsFrom (size - 1) file)

/-- `while (fgets(...))` with a bound on the number of reads. -/
def fgetsLoop (size : Nat) : Nat → List UInt8 → List (List UInt8)
  | 0, _ => []
  | fuel + 1, file =>
    match fgets size file with
    | none => []
    | some (line, rest) => line :: fgetsLoop size fuel rest

/-- All the pieces of a file; every read takes a byte, so its length bounds them. -/
def fgetsAll (size : Nat) (file : List UInt8) : List (List UInt8) :=
  fgetsLoop size file.length file

variable {body : List UInt8} {size : Nat} (n : Nat)

theorem fgetsFrom_append_lf (noLf : lf ∉ body) :
    ∀ {n : Nat}, body.length < n → ∀ rest, fgetsFrom n (body ++ lf :: rest) = (body ++ [lf], rest) := by
  induction body with
  | nil =>
    intro n room rest
    obtain ⟨n, rfl⟩ : ∃ m, n = m + 1 := ⟨n - 1, by simp at room; omega⟩
    simp [fgetsFrom]
  | cons b body ih =>
    intro n room rest
    obtain ⟨n, rfl⟩ : ∃ m, n = m + 1 := ⟨n - 1, by simp at room; omega⟩
    have ne : b ≠ lf := fun e => noLf (by simp [e])
    have inner := ih (fun h => noLf (mem_cons_of_mem b h)) (by simpa using room) rest
    simp [fgetsFrom, ne, inner]

theorem fgetsFrom_full (noLf : lf ∉ body) (rest : List UInt8) :
    fgetsFrom body.length (body ++ rest) = (body, rest) := by
  induction body with
  | nil => rfl
  | cons b body ih =>
    have ne : b ≠ lf := fun e => noLf (by simp [e])
    simp [fgetsFrom, ne, ih fun h => noLf (mem_cons_of_mem b h)]

/-- A read that starts before a line feed does not see what follows it. -/
theorem fgetsFrom_append (a b : List UInt8) : fgetsFrom n (a ++ lf :: b) =
      ((fgetsFrom n (a ++ [lf])).1, (fgetsFrom n (a ++ [lf])).2 ++ b) := by
  induction a generalizing n with
  | nil => cases n <;> simp [fgetsFrom]
  | cons c a ih =>
    cases n with
    | zero => simp [fgetsFrom]
    | succ n =>
      simp only [cons_append, fgetsFrom]
      split
      · simp
      · simp [ih n]

theorem fgetsFrom_rest (a : List UInt8) : (fgetsFrom (n + 1) (a ++ [lf])).2 = [] ∨
      ∃ a' : List UInt8, (fgetsFrom (n + 1) (a ++ [lf])).2 = a' ++ [lf] ∧ a'.length < a.length := by
  induction a generalizing n with
  | nil => simp [fgetsFrom]
  | cons c a ih =>
    simp only [cons_append, fgetsFrom]
    split
    · exact .inr ⟨a, rfl, by simp⟩
    · cases n with
      | zero => exact .inr ⟨a, by simp [fgetsFrom], by simp⟩
      | succ n =>
        rcases ih n with empty | ⟨a', rest, shorter⟩
        · exact .inl empty
        · exact .inr ⟨a', rest, by simp; omega⟩

theorem fgetsFrom_rest_length (b : UInt8) (file : List UInt8) :
    (fgetsFrom (n + 1) (b :: file)).2.length ≤ file.length := by
  induction file generalizing n b with
  | nil => simp only [fgetsFrom]; split <;> cases n <;> simp [fgetsFrom]
  | cons c file ih =>
    simp only [fgetsFrom]
    split
    · simp
    · cases n with
      | zero => simp [fgetsFrom]
      | succ n => exact (ih n c).trans (by simp)

section

@[simp] theorem fgetsAll_nil : fgetsAll size [] = [] := rfl

section

variable (room : 2 ≤ size)

include room

theorem fgetsLoop_congr {m n : Nat} {file : List UInt8} (hm : file.length ≤ m) (hn : file.length ≤ n) :
    fgetsLoop size m file = fgetsLoop size n file := by
  induction m generalizing n file with
  | zero => rw [eq_nil_of_length_eq_zero (Nat.le_zero.1 hm)]; cases n <;> rfl
  | succ m ih =>
    cases file with
    | nil => cases n <;> rfl
    | cons b file =>
      simp only [length_cons] at hm hn
      obtain ⟨n, rfl⟩ : ∃ k, n = k + 1 := ⟨n - 1, by omega⟩
      have left := fgetsFrom_rest_length (size - 2) b file
      rw [show size - 2 + 1 = size - 1 by omega] at left
      simp only [fgetsLoop, fgets, reduceCtorEq, if_false]
      rw [ih (n := n) (by omega) (by omega)]

theorem fgetsAll_cons {file : List UInt8} (ne : file ≠ []) : fgetsAll size file =
      (fgetsFrom (size - 1) file).1 :: fgetsAll size (fgetsFrom (size - 1) file).2 := by
  cases file with
  | nil => exact absurd rfl ne
  | cons b file =>
    have left := fgetsFrom_rest_length (size - 2) b file
    rw [show size - 2 + 1 = size - 1 by omega] at left
    conv_lhs => simp only [fgetsAll, length_cons, fgetsLoop, fgets, reduceCtorEq, if_false]
    rw [fgetsLoop_congr room left le_rfl, fgetsAll]

/-- Reading never crosses a line feed. -/
theorem fgetsAll_append (a b : List UInt8) :
    fgetsAll size (a ++ lf :: b) = fgetsAll size (a ++ [lf]) ++ fgetsAll size b := by
  induction h : a.length using Nat.strongRecOn generalizing a with
  | _ n ih =>
    subst h
    rw [fgetsAll_cons room (by simp), fgetsAll_cons room (by simp : a ++ [lf] ≠ []), fgetsFrom_append]
    have tail := fgetsFrom_rest (size - 2) a
    rw [show size - 2 + 1 = size - 1 by omega] at tail
    rcases tail with empty | ⟨a', rest, shorter⟩
    · simp [empty]
    · simp [rest, ih a'.length shorter a' rfl]

/-- A line that exactly fills the buffer leaves its line feed for the next read. -/
theorem fgetsAll_line (noLf : lf ∉ body) (fits : body.length ≤ size - 1) : fgetsAll size (body ++ [lf]) =
      if body.length < size - 1 then [body ++ [lf]] else [body, [lf]] := by
  rw [fgetsAll_cons room (by simp)]
  split
  · rename_i short
    rw [fgetsFrom_append_lf noLf short []]
    rfl
  · have full : size - 1 = body.length := by omega
    rw [full, fgetsFrom_full noLf [lf]]
    rw [fgetsAll_cons room (by simp)]
    have last : fgetsFrom (size - 1) [lf] = ([lf], []) := @fgetsFrom_append_lf [] (by simp) _ (by simp; omega) []
    simp [last]

end

variable (file : List UInt8)

theorem fgetsFrom_length : (fgetsFrom n file).1.length ≤ n := by
  induction n generalizing file with
  | zero => simp [fgetsFrom]
  | succ n ih =>
    cases file with
    | nil => simp [fgetsFrom]
    | cons b rest =>
      have := ih rest
      simp only [fgetsFrom]
      split
      · simp
      · simpa using this

theorem length_le_of_mem_fgetsAll {file piece : List UInt8} (member : piece ∈ fgetsAll size file) :
    piece.length ≤ size - 1 := by
  have loop : ∀ n file, ∀ piece ∈ fgetsLoop size n file, piece.length ≤ size - 1 := by
    intro n
    induction n with
    | zero =>
      intro file piece inside
      cases inside
    | succ n ih =>
      intro file piece inside
      simp only [fgetsLoop, fgets] at inside
      split at inside
      · cases inside
      · rename_i line rest read
        split at read
        · cases read
        · have piece_eq : (fgetsFrom (size - 1) file).1 = line := congrArg Prod.fst (Option.some.inj read)
          rcases mem_cons.1 inside with rfl | later
          · rw [← piece_eq]
            exact fgetsFrom_length (size - 1) file
          · exact ih rest piece later
  exact loop _ file piece member

theorem fgetsFrom_split : (fgetsFrom n file).1 ++ (fgetsFrom n file).2 = file := by
  induction n generalizing file with
  | zero => rfl
  | succ n ih =>
    cases file with
    | nil => rfl
    | cons b rest =>
      simp only [fgetsFrom]
      split
      · rfl
      · rw [cons_append, ih]

theorem fgetsAll_flatten (room : 2 ≤ size) (file : List UInt8) : (fgetsAll size file).flatten = file := by
  induction h : file.length using Nat.strongRecOn generalizing file with
  | _ n ih =>
    cases file with
    | nil => rfl
    | cons b rest =>
      have shorter := fgetsFrom_rest_length (size - 2) b rest
      rw [show size - 2 + 1 = size - 1 by omega] at shorter
      rw [fgetsAll_cons room (by simp), flatten_cons, ih _ (by simp at h; omega) _ rfl]
      exact fgetsFrom_split _ _

/-- A piece that was read once is read again, if something follows it only where
something did. -/
theorem fgetsFrom_again (rest : List UInt8) (ended : (fgetsFrom n file).2 = [] → rest = []) :
    fgetsFrom n ((fgetsFrom n file).1 ++ rest) = ((fgetsFrom n file).1, rest) := by
  induction n generalizing file with
  | zero => rfl
  | succ n ih =>
    cases file with
    | nil => rw [ended rfl]; rfl
    | cons b file =>
      by_cases last : b = lf
      · simp [fgetsFrom, last]
      · simp only [fgetsFrom, last] at ended ⊢
        simp [fgetsFrom, last, ih file ended]

theorem fgetsAll_take_flatten (room : 2 ≤ size) (file : List UInt8) (count : Nat) :
    fgetsAll size ((fgetsAll size file).take count).flatten = (fgetsAll size file).take count := by
  induction count generalizing file with
  | zero => rfl
  | succ count ih =>
    cases file with
    | nil => rfl
    | cons b file =>
      rw [fgetsAll_cons room (by simp : b :: file ≠ []), take_succ_cons, flatten_cons]
      have nonempty : (fgetsFrom (size - 1) (b :: file)).1 ≠ [] := by
        obtain ⟨m, eq⟩ : ∃ m, size - 1 = m + 1 := ⟨size - 2, by omega⟩
        rw [eq, fgetsFrom]
        split <;> simp
      have again := fgetsFrom_again (size - 1) (b :: file)
        ((fgetsAll size (fgetsFrom (size - 1) (b :: file)).2).take count).flatten
        (fun ended => by simp [ended])
      rw [fgetsAll_cons room (by simp [nonempty]), again, ih]

theorem fgetsFrom_line (noLf : lf ∉ body) (n : Nat) :
    fgetsFrom n (body ++ [lf]) = ((body ++ [lf]).take n, (body ++ [lf]).drop n) := by
  induction n generalizing body with
  | zero => rfl
  | succ n ih =>
    cases body with
    | nil => simp [fgetsFrom]
    | cons b body =>
      have ne : b ≠ lf := fun e => noLf (by simp [e])
      simp [fgetsFrom, ne, ih fun h => noLf (mem_cons_of_mem b h)]

end

/-! ## Records -/

/-- `while (fread(&record, size, 1, fp) == 1)` with a bound on the number of reads. -/
def freadLoop (size : Nat) : Nat → List UInt8 → List (List UInt8)
  | 0, _ => []
  | fuel + 1, file =>
    if file.length < size then [] else file.take size :: freadLoop size fuel (file.drop size)

/-- All whole records of a file. -/
def freadAll (size : Nat) (file : List UInt8) : List (List UInt8) :=
  freadLoop size file.length file

theorem freadLoop_congr (pos : 0 < size) {m n : Nat} {file : List UInt8} (hm : file.length ≤ m) (hn : file.length ≤ n) :
    freadLoop size m file = freadLoop size n file := by
  induction m generalizing n file with
  | zero =>
    rw [eq_nil_of_length_eq_zero (Nat.le_zero.1 hm)]
    cases n <;> simp [freadLoop, pos]
  | succ m ih =>
    cases n with
    | zero =>
      rw [eq_nil_of_length_eq_zero (Nat.le_zero.1 hn)]
      simp [freadLoop, pos]
    | succ n =>
      simp only [freadLoop]
      split
      · rfl
      · rw [ih (n := n) (by simp; omega) (by simp; omega)]

theorem freadAll_append (pos : 0 < size) {record : List UInt8} (whole : record.length = size) (rest : List UInt8) :
    freadAll size (record ++ rest) = record :: freadAll size rest := by
  obtain ⟨m, len⟩ : ∃ m, (record ++ rest).length = m + 1 :=
    ⟨(record ++ rest).length - 1, by simp; omega⟩
  have room : ¬ (record ++ rest).length < size := by simp; omega
  rw [freadAll, len, freadLoop, if_neg room, take_left' whole, drop_left' whole]
  rw [freadLoop_congr pos (by simp at len; omega) le_rfl, freadAll]

theorem freadAll_flatten (pos : 0 < size) {records : List (List UInt8)}
    (whole : ∀ record ∈ records, record.length = size) : freadAll size records.flatten = records := by
  induction records with
  | nil => rfl
  | cons record records ih =>
    rw [flatten_cons, freadAll_append pos (whole record mem_cons_self),
      ih fun r member => whole r (mem_cons_of_mem record member)]

/-! ## Tokens -/

namespace CString

theorem nulFree_of_subset {s : CString} {bytes : List UInt8} (subset : bytes ⊆ s.bytes) :
    (0 : UInt8) ∉ bytes := fun zero => s.nulFree (subset zero)

/-- `*strchr(s, b) = 0` when `b` occurs: the string ends before the first `b`. -/
def cutAt (b : UInt8) (s : CString) : CString :=
  ⟨s.bytes.takeWhile (· != b), nulFree_of_subset (takeWhile_subset _)⟩

/-- `strchr(s, b) + 1` when `b` occurs: what stands behind the first `b`. -/
def behind (b : UInt8) (s : CString) : CString :=
  ⟨(s.bytes.dropWhile (· != b)).tail,
    nulFree_of_subset (List.Subset.trans (fun _ => mem_of_mem_tail) (dropWhile_subset _))⟩

theorem cutAt_behind_of_append {b : UInt8} {s : CString} {front rest : List UInt8} (absent : b ∉ front)
    (whole : s.bytes = front ++ b :: rest) : (s.cutAt b).bytes = front ∧ (s.behind b).bytes = rest := by
  have keep : ∀ c ∈ front, (c != b) = true := by
    intro c inside
    simpa using fun same : c = b => absent (same ▸ inside)
  constructor
  · simp [cutAt, whole, takeWhile_append_of_pos keep]
  · simp [behind, whole, dropWhile_append_of_pos keep]

/-- `strtok`: the token and the string after the byte that ended it; `none` when only delimiters are
left. -/
def strtok (delims : List UInt8) (s : CString) : Option (CString × CString) :=
  let start := s.bytes.dropWhile (· ∈ delims)
  if start = [] then none
  else some
    (⟨start.takeWhile (· ∉ delims), nulFree_of_subset (List.Subset.trans (takeWhile_subset _) (dropWhile_subset _))⟩,
     ⟨(start.dropWhile (· ∉ delims)).tail, nulFree_of_subset (List.Subset.trans (fun _ => mem_of_mem_tail)
        (List.Subset.trans (dropWhile_subset _) (dropWhile_subset _)))⟩)

section

variable {delims : List UInt8} {s token rest : CString}

theorem strtok_eq_some (found : s.strtok delims = some (token, rest)) :
    token.bytes ≠ [] ∧ (∀ b ∈ token.bytes, b ∉ delims) ∧ rest.bytes ⊆ s.bytes ∧
      token.bytes.length ≤ s.bytes.length ∧
      (rest.bytes = [] ∨ token.bytes.length + 1 + rest.bytes.length ≤ s.bytes.length) := by
  unfold strtok at found
  simp only [] at found
  split at found
  · cases found
  rename_i nonempty
  cases found
  have start : (s.bytes.dropWhile (· ∈ delims)).length ≤ s.bytes.length := (dropWhile_sublist _).length_le
  have parts := congrArg List.length (takeWhile_append_dropWhile
    (p := (· ∉ delims)) (l := s.bytes.dropWhile (· ∈ delims)))
  simp only [length_append] at parts
  refine ⟨?_, ?_, ?_, ?_, ?_⟩
  · intro empty
    obtain ⟨b, bs, cons⟩ := exists_cons_of_ne_nil nonempty
    have first : decide (b ∈ delims) = false := by
      have := head_dropWhile_not (· ∈ delims) nonempty
      simpa [cons] using this
    simp only [cons] at empty
    rw [takeWhile_cons_of_pos (by simpa using first)] at empty
    cases empty
  · intro b member
    simpa using mem_takeWhile_imp member
  · exact List.Subset.trans (fun _ => mem_of_mem_tail) (List.Subset.trans (dropWhile_subset _) (dropWhile_subset _))
  · simp only []
    omega
  · by_cases last : (s.bytes.dropWhile (· ∈ delims)).dropWhile (· ∉ delims) = []
    · left
      simp only [last, tail_nil]
    · right
      have := length_pos_iff.2 last
      simp only [length_tail]
      omega

theorem while_congr {p q : UInt8 → Bool} {l : List UInt8} (same : ∀ b ∈ l, p b = q b) :
    l.takeWhile p = l.takeWhile q ∧ l.dropWhile p = l.dropWhile q := by
  induction l with
  | nil => exact ⟨rfl, rfl⟩
  | cons b rest ih =>
    obtain ⟨taken, dropped⟩ := ih fun b inside => same b (mem_cons_of_mem _ inside)
    simp only [takeWhile_cons, dropWhile_cons, same b mem_cons_self, taken, dropped, and_self]

theorem strtok_token_subset (found : s.strtok delims = some (token, rest)) : token.bytes ⊆ s.bytes := by
  unfold strtok at found
  simp only [] at found
  split at found
  · cases found
  · cases found
    exact List.Subset.trans (takeWhile_subset _) (dropWhile_subset _)

theorem strtok_congr {delims' : List UInt8} (same : ∀ b ∈ s.bytes, b ∈ delims ↔ b ∈ delims') :
    s.strtok delims = s.strtok delims' := by
  have start : s.bytes.dropWhile (· ∈ delims) = s.bytes.dropWhile (· ∈ delims') :=
    (while_congr fun b inside => by simp [same b inside]).2
  have inside : ∀ b ∈ s.bytes.dropWhile (· ∈ delims'), b ∈ delims ↔ b ∈ delims' := fun b member =>
    same b (dropWhile_subset _ member)
  have token : (s.bytes.dropWhile (· ∈ delims')).takeWhile (· ∉ delims) =
      (s.bytes.dropWhile (· ∈ delims')).takeWhile (· ∉ delims') :=
    (while_congr fun b member => by simp [inside b member]).1
  have left : (s.bytes.dropWhile (· ∈ delims')).dropWhile (· ∉ delims) =
      (s.bytes.dropWhile (· ∈ delims')).dropWhile (· ∉ delims') :=
    (while_congr fun b member => by simp [inside b member]).2
  unfold strtok
  simp only [start, token, left]

/-- A token followed by a delimiter is found, with what comes after. -/
theorem strtok_append (nonempty : token.bytes ≠ []) (clean : ∀ b ∈ token.bytes, b ∉ delims)
    {d : UInt8} (delim : d ∈ delims) (whole : s.bytes = token.bytes ++ d :: rest.bytes) :
    s.strtok delims = some (token, rest) := by
  have start : s.bytes.dropWhile (· ∈ delims) = token.bytes ++ d :: rest.bytes := by
    obtain ⟨b, bs, cons⟩ := exists_cons_of_ne_nil nonempty
    have first : b ∉ delims := clean b (by simp [cons])
    rw [whole, cons, cons_append, dropWhile_cons_of_neg (by simpa using first)]
  have taken : (token.bytes ++ d :: rest.bytes).takeWhile (· ∉ delims) = token.bytes := by
    rw [takeWhile_append_of_pos (by simpa using clean)]
    simp [delim]
  have left : (token.bytes ++ d :: rest.bytes).dropWhile (· ∉ delims) = d :: rest.bytes := by
    rw [dropWhile_append_of_pos (by simpa using clean)]
    simp [delim]
  unfold strtok
  simp only [start, taken, left, tail_cons]
  rw [if_neg (by simp)]

theorem strtok_eq_none (only : ∀ b ∈ s.bytes, b ∈ delims) : s.strtok delims = none := by
  have start : s.bytes.dropWhile (· ∈ delims) = [] := dropWhile_eq_nil_iff.2 (by simpa using only)
  unfold strtok
  simp only [start, if_true]

theorem strtok_head {b : UInt8} {bs : List UInt8} (whole : s.bytes = b :: bs) (clean : b ∉ delims)
    (found : s.strtok delims = some (token, rest)) : token.bytes.head? = some b := by
  have start : s.bytes.dropWhile (· ∈ delims) = b :: bs := by
    rw [whole, dropWhile_cons_of_neg (by simpa using clean)]
  unfold strtok at found
  simp only [start, reduceCtorEq, if_false, Option.some.injEq, Prod.mk.injEq] at found
  rw [← found.1]
  simp only []
  rw [takeWhile_cons_of_pos (by simpa using clean)]
  rfl

theorem strtok_cons {d : UInt8} (delim : d ∈ delims) (whole : s.bytes = d :: rest.bytes) :
    s.strtok delims = rest.strtok delims := by
  have start : s.bytes.dropWhile (· ∈ delims) = rest.bytes.dropWhile (· ∈ delims) := by
    rw [whole, dropWhile_cons_of_pos (by simpa using delim)]
  unfold strtok
  simp only [start]

theorem strtok_self (nonempty : s.bytes ≠ []) (clean : ∀ b ∈ s.bytes, b ∉ delims) :
    s.strtok delims = some (s, empty) := by
  have start : s.bytes.dropWhile (· ∈ delims) = s.bytes := by
    obtain ⟨b, bs, cons⟩ := exists_cons_of_ne_nil nonempty
    have first : b ∉ delims := clean b (by simp [cons])
    rw [cons, dropWhile_cons_of_neg (by simpa using first)]
  have taken : s.bytes.takeWhile (· ∉ delims) = s.bytes := takeWhile_eq_self_iff.2 (by simpa using clean)
  have left : s.bytes.dropWhile (· ∉ delims) = [] := dropWhile_eq_nil_iff.2 (by simpa using clean)
  unfold strtok
  simp only [start, taken, left]
  rw [if_neg nonempty]
  rfl

end

end CString

end RouterApps.CLib
