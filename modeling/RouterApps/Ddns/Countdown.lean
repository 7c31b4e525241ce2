/-
# Ddns.Countdown -- the time that is left until the next update (ezupdate_api.c)

`ddnsapi_set_status` stores a record with the full time, and `ddnsapi_update_remaintime` reads the record,
takes the elapsed time off and stores it again.  `ddnsapi_get_status` and `FORCE_UPDATE_TIMEOUT` are not
part of the sources: a `StatusReader` is any function that reads the numbers of a stored record back.

`remaintime` is unsigned.  The test `remaintime < 0` never holds, and after any calls the time is the
difference modulo `2 ^ 32` (`remaintime_run`).  The store is a function of the tag here, which the file
follows as long as its tags can be read back (`Follows.set`).
-/
import RouterApps.CLib.Text
import RouterApps.GenConfig.Direct

namespace RouterApps.Ddns

open CLib GenConfig List Option CString

/-! ## Records -/

/-- `ezddns_status_t` -/
structure Status where
  code : Int32
  ip : CharArray 16
  timestamp : UInt32
  remaintime : UInt32
  msg : CharArray 64

def ddnsSuccessUpdate : Int32 := 1

def ddnsRetry : Int32 := 2

/-- `"%d,%u,%u,"`, the numbers of a record. -/
def numbersText (code : Int32) (timestamp remaintime : UInt32) : List UInt8 :=
  (formatInt code).bytes ++ 44 :: (digits 10 timestamp.toNat ++ 44 :: (digits 10 remaintime.toNat ++ [44]))

variable (code : Int32) (timestamp remaintime : UInt32)

theorem zero_notMem_numbersText : (0 : UInt8) ∉ numbersText code timestamp remaintime := by
  have first := (formatInt code).nulFree
  have second := zero_notMem_digits 10 timestamp.toNat
  have third := zero_notMem_digits 10 remaintime.toNat
  simp [numbersText, first, second, third]

/-- `snprintf(value, 1024, "%d,%u,%u,%s,%s", ...)` -/
def recordText (code : Int32) (timestamp remaintime : UInt32) (ip msg : CString) : CharArray 1024 :=
  cutTo 1024 ⟨numbersText code timestamp remaintime ++ (ip.bytes ++ 44 :: msg.bytes), by
    simp [zero_notMem_numbersText, ip.nulFree, msg.nulFree]⟩

/-! ## The status store -/

/-- The values that are stored, by tag. -/
abbrev Store := CString → Option CString

/-- `istatus_set_value_direct`: the value up to its first line end. -/
def istatusSetValueDirect (store : Store) (tag value : CString) : Store :=
  fun other => if other = tag then some (cutLine value) else store other

/-- The values are those of a status file. -/
def Follows (file : Option (List UInt8)) (store : Store) : Prop :=
  ∀ tag, genconfigGetValueDirect file tag = some ((store tag).elim (0, empty) ((1, ·)))

/-- A file whose tags can be read back follows the store. -/
theorem Follows.set {file : Option (List UInt8)} {store : Store} (follows : Follows file store)
    (readable : ∀ e ∈ parse (file.getD []), e.1.bytes.length < maxItemLen ∧ ¬ IsComment e.1)
    {tag value : CString} (fits : tag.bytes.length < maxItemLen) (plain : Plain (tag, cutLine value))
    (noComment : ¬ IsComment tag) : ∃ file', genconfigSetValueDirect file tag (some value) = some file' ∧
      Follows (some file') (istatusSetValueDirect store tag value) := by
  obtain ⟨file', set, again, short⟩ := exists_parse_setValueDirect readable fits plain noComment
  refine ⟨file', set, fun other => ?_⟩
  rw [genconfigGetValueDirect_eq short, getD_some, again, istatusSetValueDirect]
  by_cases same : other = tag
  · rw [if_pos same, same, lookup_putFirst_self]
    rfl
  · rw [if_neg same, lookup_putFirst_of_ne same, ← follows other,
      genconfigGetValueDirect_eq fun e inside => (readable e inside).1]

/-- `snprintf(tag, TAGLEN, "ddns+%s", hostname)` -/
def statusTag (hostname : CString) : CharArray maxItemLen :=
  haveI : NeZero maxItemLen := ⟨by decide⟩
  cutTo maxItemLen ⟨ascii ['d', 'd', 'n', 's', '+'] ++ hostname.bytes, by simp [ascii, hostname.nulFree]⟩

/-- `snprintf(tag, 128, "refresh_ddns_%s", host)` -/
def refreshTag (host : CString) : CharArray 128 :=
  cutTo 128 ⟨ascii ['r', 'e', 'f', 'r', 'e', 's', 'h', '_', 'd', 'd', 'n', 's', '_'] ++ host.bytes, by
    simp [ascii, host.nulFree]⟩

theorem statusTag_ne_refreshTag (hostname : CString) : (statusTag hostname).toCString ≠ (refreshTag hostname).toCString := by
  intro same
  have heads := congrArg (fun s : CString => s.bytes.head?) same
  simp [statusTag, refreshTag, cutTo, ascii, maxItemLen] at heads

/-! ## The functions -/

/-- A function that reads the numbers of a stored record back. -/
structure StatusReader where
  /-- `ddnsapi_get_status`, of the stored value. -/
  get : Option CString → Status
  numbers : ∀ code timestamp remaintime ip msg,
    let status := get (some (cutLine (recordText code timestamp remaintime ip msg).toCString))
    status.code = code ∧ status.timestamp = timestamp ∧ status.remaintime = remaintime

def ddnsapiSetRefreshFlag (store : Store) (host : CString) (flag : Int32) : Store :=
  istatusSetValueDirect store (refreshTag host).toCString (formatInt flag)

def noip : CString := ofBuffer (ascii ['n', 'o', 'i', 'p'])

section

variable (reader : StatusReader) (forceUpdateTimeout : UInt32)

/-- `ddnsapi_set_status`, at the time `now`. -/
def ddnsapiSetStatus (now : UInt32) (code : Int32) (hostname : CString) (updateip : Option CString) (msg : CString)
    (store : Store) : Store :=
  let timestamp := if code = ddnsSuccessUpdate then now else 0
  ddnsapiSetRefreshFlag
    (istatusSetValueDirect store (statusTag hostname).toCString
      (recordText code timestamp forceUpdateTimeout (updateip.getD noip) msg).toCString) hostname 0

def ddnsapiUpdateRemaintime (hostname : CString) (store : Store) (elapsed : Int32) : Store :=
  let status := reader.get (store (statusTag hostname).toCString)
  let status :=
    if elapsed = -1 then { status with remaintime := 0, code := ddnsRetry }
    else { status with remaintime := status.remaintime - elapsed.toUInt32 }
  let status := if status.remaintime < 0 then { status with remaintime := 0 } else status
  istatusSetValueDirect store (statusTag hostname).toCString
    (recordText status.code status.timestamp status.remaintime status.ip.toCString status.msg.toCString).toCString

/-- The remaining time that is stored for a host. -/
def storedRemaintime (store : Store) (hostname : CString) : UInt32 :=
  (reader.get (store (statusTag hostname).toCString)).remaintime

end

/-! ## Runs -/

section

variable (reader : StatusReader) {forceUpdateTimeout : UInt32} {hostname : CString} {store : Store}

/-- A record with this remaining time is stored for the host. -/
def Stored (hostname : CString) (remaintime : UInt32) (store : Store) : Prop :=
  ∃ code timestamp ip msg,
    store (statusTag hostname).toCString = some (cutLine (recordText code timestamp remaintime ip msg).toCString)

theorem Stored.remaintime_eq {remaintime : UInt32} (stored : Stored hostname remaintime store) :
    storedRemaintime reader store hostname = remaintime := by
  obtain ⟨code, timestamp, ip, msg, value⟩ := stored
  rw [storedRemaintime, value]
  exact (reader.numbers code timestamp remaintime ip msg).2.2

theorem stored_setStatus (now : UInt32) (code : Int32) (updateip : Option CString) (msg : CString) :
    Stored hostname forceUpdateTimeout (ddnsapiSetStatus forceUpdateTimeout now code hostname updateip msg store) := by
  refine ⟨code, if code = ddnsSuccessUpdate then now else 0, updateip.getD noip, msg, ?_⟩
  simp only [ddnsapiSetStatus, ddnsapiSetRefreshFlag, istatusSetValueDirect]
  rw [if_neg (statusTag_ne_refreshTag hostname), if_true]

/-- One call: the test for a negative time does nothing. -/
theorem Stored.update {remaintime : UInt32} (stored : Stored hostname remaintime store) {elapsed : Int32}
    (nonneg : 0 ≤ elapsed.toInt) :
    Stored hostname (remaintime - elapsed.toUInt32) (ddnsapiUpdateRemaintime reader hostname store elapsed) := by
  have other : elapsed ≠ -1 := by
    rintro rfl
    exact absurd nonneg (by decide)
  have never : ∀ x : UInt32, ¬ x < 0 := fun x => by simp
  have read : (reader.get (store (statusTag hostname).toCString)).remaintime = remaintime := stored.remaintime_eq reader
  let status := reader.get (store (statusTag hostname).toCString)
  refine ⟨status.code, status.timestamp, status.ip.toCString, status.msg.toCString, ?_⟩
  simp only [ddnsapiUpdateRemaintime, istatusSetValueDirect, if_neg other, read]
  rfl

variable (elapsed : Int32)

theorem toNat_toUInt32 : (elapsed.toUInt32.toNat : Int) = elapsed.toInt % 2 ^ 32 := by
  have cond := BitVec.toInt_eq_toNat_cond elapsed.toBitVec
  have bound := elapsed.toBitVec.isLt
  have unsigned : elapsed.toUInt32.toNat = elapsed.toBitVec.toNat := rfl
  have signed : elapsed.toInt = elapsed.toBitVec.toInt := rfl
  rw [signed, cond]
  split <;> omega

theorem toNat_sub_elapsed :
    ((remaintime - elapsed.toUInt32).toNat : Int) = (remaintime.toNat - elapsed.toInt) % 2 ^ 32 := by
  have := remaintime.toNat_lt
  have := elapsed.toUInt32.toNat_lt
  have low := toNat_toUInt32 elapsed
  rw [UInt32.toNat_sub]
  omega

def elapsedSum (elapsed : List Int32) : Nat := (elapsed.map fun e => e.toInt.toNat).sum

/-- After any calls, the difference modulo `2 ^ 32` is stored. -/
theorem remaintime_run {remaintime : UInt32} (stored : Stored hostname remaintime store) {elapsed : List Int32}
    (nonneg : ∀ e ∈ elapsed, 0 ≤ e.toInt) :
    ((storedRemaintime reader (elapsed.foldl (ddnsapiUpdateRemaintime reader hostname) store) hostname).toNat : Int) =
      (remaintime.toNat - elapsedSum elapsed) % 2 ^ 32 := by
  induction elapsed generalizing store remaintime with
  | nil =>
    have bound := remaintime.toNat_lt
    rw [foldl_nil, stored.remaintime_eq reader, elapsedSum]
    simp only [map_nil, sum_nil]
    omega
  | cons e elapsed ih =>
    have first := nonneg e mem_cons_self
    rw [foldl_cons, ih (stored.update reader first) fun later member => nonneg later (mem_cons_of_mem _ member),
      toNat_sub_elapsed]
    simp only [elapsedSum, map_cons, sum_cons]
    omega

end

/-! ## A reader -/

theorem exists_cutLine_recordText (ip msg : CString) :
    ∃ rest, (cutLine (recordText code timestamp remaintime ip msg).toCString).bytes =
      numbersText code timestamp remaintime ++ rest := by
  have short : (numbersText code timestamp remaintime).length ≤ 1023 := by
    have first := formatInt_length code
    have second := digits_length 10 timestamp.toNat
    have third := digits_length 10 remaintime.toNat
    simp only [numbersText, length_append, length_cons, length_nil]
    omega
  have clean : ∀ b ∈ numbersText code timestamp remaintime, b = 44 ∨ b = 45 ∨ (48 ≤ b.toNat ∧ b.toNat ≤ 57) := by
    intro b member
    simp only [numbersText, mem_append, mem_cons, not_mem_nil, or_false] at member
    rcases member with first | rfl | second | rfl | third | rfl
    · exact .inr (formatInt_range code b first)
    · exact .inl rfl
    · exact .inr (.inr (digits_range 10 _ b second))
    · exact .inl rfl
    · exact .inr (.inr (digits_range 10 _ b third))
    · exact .inl rfl
  have passed : ∀ stop : UInt8, stop.toNat < 44 → ∀ b ∈ numbersText code timestamp remaintime, (b != stop) = true := by
    intro stop low b member
    rw [bne_iff_ne]
    rintro rfl
    rcases clean b member with rfl | rfl | digit
    · exact absurd low (by decide)
    · exact absurd low (by decide)
    · omega
  simp only [cutLine, cutAt, recordText, cutTo]
  rw [take_append, take_of_length_le short,
    takeWhile_append_of_pos (passed carriageReturn (by decide)), takeWhile_append_of_pos (passed lf (by decide))]
  exact ⟨_, rfl⟩

/-- A reader that leaves the address and the message empty. -/
def plainReader : StatusReader where
  get value :=
    let text := value.getD empty
    let second := (text.bytes.dropWhile (· != 44)).tail
    let third := (second.dropWhile (· != 44)).tail
    { code := atoi text
      ip := ⟨empty, by decide⟩
      timestamp := UInt32.ofNat (readDigits 10 0 second).1
      remaintime := UInt32.ofNat (readDigits 10 0 third).1
      msg := ⟨empty, by decide⟩ }
  numbers := by
    intro code timestamp remaintime ip msg
    obtain ⟨rest, text⟩ := exists_cutLine_recordText code timestamp remaintime ip msg
    have noComma : ∀ n, ∀ b ∈ digits 10 n, (b != 44) = true := by
      intro n b member
      have := digits_range 10 n b member
      rw [bne_iff_ne]
      rintro rfl
      exact absurd this (by decide)
    have noCommaInt : ∀ b ∈ (formatInt code).bytes, (b != 44) = true := by
      intro b member
      have := formatInt_range code b member
      rw [bne_iff_ne]
      rintro rfl
      exact absurd this (by decide)
    have behind : ∀ (front rest : List UInt8), (∀ b ∈ front, (b != 44) = true) →
        ((front ++ 44 :: rest).dropWhile (· != 44)).tail = rest := by
      intro front rest clean
      rw [dropWhile_append_of_pos clean]
      rfl
    have stops : ∀ (rest : List UInt8), ∀ b ∈ (44 :: rest).head?, digitValue 10 b = none := by
      intro rest b head
      obtain rfl := Option.some.inj head
      decide
    have word : ∀ x : UInt32, UInt32.ofNat x.toNat = x := fun x => UInt32.ofNat_toNat
    have bound : ∀ x : UInt32, x.toNat < 10 ^ 10 := fun x => x.toNat_lt.trans (by decide)
    rw [numbersText] at text
    simp only [append_assoc, cons_append, nil_append] at text
    refine ⟨atoi_formatInt_append code text (stops _), ?_, ?_⟩
    · simp only [getD_some, text]
      rw [behind _ _ noCommaInt, readDigits_digits_append (bound timestamp) (stops _), word]
    · simp only [getD_some, text]
      rw [behind _ _ noCommaInt, behind _ _ (noComma _), readDigits_digits_append (bound remaintime) (stops _), word]

def sampleHost : CString := ofBuffer (ascii ['h', 'o', 's', 't'])

end RouterApps.Ddns
