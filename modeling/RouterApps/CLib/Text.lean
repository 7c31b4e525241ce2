/-
# CLib.Text -- numbers and addresses as text

* `digits` and `formatInt` are what `%d` prints; `atoi` reads it back (`atoi_formatInt`).
* `strtoul` and `strtol` read a number as C writes it, in base 10, 8 or 16.
* `inetNtoa` prints an address as four decimal numbers.  `inetAton` takes far more: one to four
  numbers, each decimal, octal or hexadecimal, and anything after a white space.  `inetAddr` gives
  `INADDR_NONE` for a text that is no address.
* `macText` prints a hardware address with `:` in upper case.  `strtomac` reads either case with `:`
  or `-`, and `convertMac2` replaces `-` by `:`.

What is printed is read back (`inetAton_inetNtoa`, `strtomac_macText`).
-/
import RouterApps.CLib.Memory

namespace RouterApps.CLib

open List Option

/-! ## Digits -/

/-- The decimal digits of a number below `10 ^ fuel`. -/
def digits : Nat → Nat → List UInt8
  | 0, _ => []
  | fuel + 1, n =>
    if n < 10 then [UInt8.ofNat (48 + n)] else digits fuel (n / 10) ++ [UInt8.ofNat (48 + n % 10)]

variable {text : CString} (fuel : Nat) (address : UInt32)

theorem digits_length (n : Nat) : (digits fuel n).length ≤ fuel := by
  induction fuel generalizing n with
  | zero => exact le_rfl
  | succ fuel ih =>
    have := ih (n / 10)
    simp only [digits]
    split
    · simp
    · simpa using this

theorem zero_notMem_digits (n : Nat) : (0 : UInt8) ∉ digits fuel n := by
  have digit : ∀ d, d < 10 → 0 ≠ UInt8.ofNat (48 + d) := by decide
  induction fuel generalizing n with
  | zero => simp [digits]
  | succ fuel ih =>
    simp only [digits]
    split
    · rename_i small
      simpa using digit n small
    · intro member
      rcases mem_append.1 member with front | last
      · exact ih (n / 10) front
      · exact digit (n % 10) (Nat.mod_lt n (by decide)) (mem_singleton.1 last)

/-- The value of a digit, letters in either case. -/
def digitValue (base : Nat) (b : UInt8) : Option Nat :=
  let value :=
    if 48 ≤ b.toNat ∧ b.toNat ≤ 57 then b.toNat - 48
    else if 65 ≤ b.toNat ∧ b.toNat ≤ 70 then b.toNat - 55
    else if 97 ≤ b.toNat ∧ b.toNat ≤ 102 then b.toNat - 87
    else base
  if value < base then some value else none

/-- Read digits while there are some: the number, and what is left. -/
def readDigits (base : Nat) : Nat → List UInt8 → Nat × List UInt8
  | value, [] => (value, [])
  | value, b :: rest =>
    match digitValue base b with
    | some d => readDigits base (value * base + d) rest
    | none => (value, b :: rest)

theorem digitValue_decimal {d : Nat} (small : d < 10) : digitValue 10 (UInt8.ofNat (48 + d)) = some d := by
  have all : ∀ d, d < 10 → digitValue 10 (UInt8.ofNat (48 + d)) = some d := by decide
  exact all d small

theorem readDigits_digits (n : Nat) (bound : n < 10 ^ fuel) (rest : List UInt8) :
    readDigits 10 0 (digits fuel n ++ rest) = readDigits 10 n rest := by
  induction fuel generalizing n rest with
  | zero =>
    have : n = 0 := by simpa using bound
    subst this
    rfl
  | succ fuel ih =>
    simp only [digits]
    split
    · rename_i small
      simp only [cons_append, nil_append, readDigits, digitValue_decimal small]
      rw [Nat.zero_add]
    · have last : n % 10 < 10 := Nat.mod_lt n (by decide)
      have front : n / 10 < 10 ^ fuel := by
        omega
      rw [append_assoc, ih (n / 10) front]
      simp only [cons_append, nil_append, readDigits, digitValue_decimal last]
      rw [show n / 10 * 10 + n % 10 = n by omega]

variable {n : Nat} {bytes rest : List UInt8}

theorem digits_eq_cons {fuel : Nat} (pos : 0 < n) (bound : n < 10 ^ fuel) :
    ∃ d ds, digits fuel n = d :: ds ∧ 49 ≤ d.toNat ∧ d.toNat ≤ 57 := by
  induction fuel generalizing n with
  | zero =>
    omega
  | succ fuel ih =>
    simp only [digits]
    split
    · have value : (UInt8.ofNat (48 + n)).toNat = 48 + n := by
        rw [UInt8.toNat_ofNat']
        omega
      exact ⟨_, [], rfl, by omega, by omega⟩
    · have front : n / 10 < 10 ^ fuel := by
        omega
      obtain ⟨d, ds, first, low, high⟩ := ih (by omega) front
      exact ⟨d, ds ++ _, by rw [first]; rfl, low, high⟩

/-! ## Addresses -/

def dot : UInt8 := 46

def isSpace (b : UInt8) : Bool := b = 32 || (9 ≤ b.toNat && b.toNat ≤ 13)

/-- A number as in C: `0x` starts a hexadecimal one, `0` an octal one. -/
def readNumber : List UInt8 → Option (Nat × List UInt8)
  | [] => none
  | b :: rest =>
    if 49 ≤ b.toNat ∧ b.toNat ≤ 57 then some (readDigits 10 0 (b :: rest))
    else if b = 48 then
      match rest with
      | [] => some (0, [])
      | x :: rest =>
        if x = 120 ∨ x = 88 then some (readDigits 16 0 rest)
        else some (readDigits 8 0 (x :: rest))
    else none

/-- At most `n` numbers with dots between them, then the end or a white space. -/
def readParts : Nat → List UInt8 → Option (List Nat)
  | 0, _ => none
  | n + 1, text =>
    match readNumber text with
    | none => none
    | some (part, []) => some [part]
    | some (part, b :: rest) =>
      if b = dot then (readParts n rest).map (part :: ·)
      else if isSpace b then some [part] else none

/-- The address of `width` bytes: a part is a byte, the last one fills what is left. -/
def joinParts : Nat → List Nat → Option Nat
  | _, [] => none
  | width, [part] => if part < 256 ^ width then some part else none
  | 0, _ :: _ :: _ => none
  | width + 1, part :: parts =>
    if part < 256 then (joinParts width parts).map (part * 256 ^ width + ·) else none

/-- `inet_aton`; the address is in network order. -/
def inetAton (cp : CString) : Option UInt32 :=
  ((readParts 4 cp.bytes).bind (joinParts 4)).map fun address => htonl (UInt32.ofNat address)

def inetAddr (cp : CString) : UInt32 := (inetAton cp).getD 0xffffffff

/-- The bytes in decimal, with dots between them. -/
def dotted : List UInt8 → List UInt8
  | [] => []
  | [b] => digits 3 b.toNat
  | b :: rest => digits 3 b.toNat ++ dot :: dotted rest

theorem zero_notMem_dotted (bytes : List UInt8) : (0 : UInt8) ∉ dotted bytes := by
  induction bytes with
  | nil => simp [dotted]
  | cons b rest ih =>
    cases rest with
    | nil => exact zero_notMem_digits 3 b.toNat
    | cons c rest =>
      simp only [dotted, mem_append, mem_cons, not_or]
      exact ⟨zero_notMem_digits 3 b.toNat, by decide, ih⟩

theorem dotted_length (nonempty : bytes ≠ []) : (dotted bytes).length < 4 * bytes.length := by
  induction bytes with
  | nil => exact absurd rfl nonempty
  | cons b rest ih =>
    have := digits_length 3 b.toNat
    cases rest with
    | nil =>
      simp only [dotted, length_cons]
      omega
    | cons c rest =>
      have inner := ih (by simp)
      simp only [dotted, length_append, length_cons] at inner ⊢
      omega

/-- `inet_ntoa`, into its buffer. -/
def inetNtoa (address : UInt32) : CharArray 16 :=
  ⟨⟨dotted (leBytes address), zero_notMem_dotted _⟩, dotted_length (by simp [leBytes])⟩

theorem readNumber_digits_stop (byte : n < 256) (rest : List UInt8)
    (ended : rest = [] ∨ ∃ b rest', rest = b :: rest' ∧ (b = dot ∨ b = 32)) :
    readNumber (digits 3 n ++ rest) = some (n, rest) := by
  have stop : ∀ base v, 8 ≤ base → base ≤ 10 → readDigits base v rest = (v, rest) := by
    intro base v low high
    rcases ended with rfl | ⟨b, rest', rfl, last⟩
    · rfl
    · have : digitValue base b = none := by
        rcases last with rfl | rfl <;> simp [digitValue, dot]
      simp [readDigits, this]
  have read := readDigits_digits 3 n (by omega) rest
  rcases Nat.eq_zero_or_pos n with rfl | pos
  · rcases ended with rfl | ⟨b, rest', rfl, last⟩
    · rfl
    · have eight := stop 8 0 le_rfl (by decide)
      simp only [digits, readNumber]
      rcases last with rfl | rfl <;> simpa [dot] using eight
  · obtain ⟨d, ds, first, low, high⟩ := digits_eq_cons pos (show n < 10 ^ 3 by omega)
    rw [stop 10 n (by decide) le_rfl, first, cons_append] at read
    rw [first, cons_append]
    simp only [readNumber]
    rw [if_pos ⟨low, high⟩, read]

theorem readNumber_digits (byte : n < 256) (rest : List UInt8) (ended : rest = [] ∨ ∃ rest', rest = dot :: rest') :
    readNumber (digits 3 n ++ rest) = some (n, rest) :=
  readNumber_digits_stop byte rest (ended.imp_right fun ⟨rest', same⟩ => ⟨dot, rest', same, .inl rfl⟩)

theorem readParts_dotted_append (bytes : List UInt8) (nonempty : bytes ≠ []) (room : bytes.length ≤ n)
    (ended : rest = [] ∨ ∃ rest', rest = 32 :: rest') :
    readParts n (dotted bytes ++ rest) = some (bytes.map UInt8.toNat) := by
  induction bytes generalizing n with
  | nil => exact absurd rfl nonempty
  | cons b bytes ih =>
    obtain ⟨n, rfl⟩ : ∃ m, n = m + 1 := ⟨n - 1, by simp at room; omega⟩
    cases bytes with
    | nil =>
      have read := readNumber_digits_stop b.toNat_lt rest
        (ended.imp_right fun ⟨rest', same⟩ => ⟨32, rest', same, .inr rfl⟩)
      rcases ended with rfl | ⟨rest', rfl⟩
      · simp [dotted, readParts, append_nil _ ▸ read]
      · simp [dotted, readParts, read, dot, isSpace]
    | cons c bytes =>
      have read := readNumber_digits b.toNat_lt (dot :: (dotted (c :: bytes) ++ rest)) (.inr ⟨_, rfl⟩)
      have inner := ih (by simp) (by simpa using room)
      simp only [dotted] at read inner ⊢
      simp [readParts, read, inner]

theorem joinParts_bytes (a b c d : UInt8) : joinParts 4 [a.toNat, b.toNat, c.toNat, d.toNat] =
      some (a.toNat * 16777216 + (b.toNat * 65536 + (c.toNat * 256 + d.toNat))) := by
  simp [joinParts, a.toNat_lt, b.toNat_lt, c.toNat_lt, d.toNat_lt]

theorem htonl_bytes (a b c d : UInt8) :
    htonl (UInt32.ofNat (a.toNat * 16777216 + (b.toNat * 65536 + (c.toNat * 256 + d.toNat)))) =
      leWord [a, b, c, d] := by
  have := a.toNat_lt
  have := b.toNat_lt
  have := c.toNat_lt
  have := d.toNat_lt
  have image : UInt32.ofNat (a.toNat * 16777216 + (b.toNat * 65536 + (c.toNat * 256 + d.toNat))) =
      leWord [d, c, b, a] := by
    congr 1
    omega
  rw [image, htonl, ntohl, leBytes_leWord rfl]
  rfl

/-- A printed address is read back, with a blank behind it or without. -/
theorem inetAton_of_dotted {address : UInt32}
    (printed : text.bytes = dotted (leBytes address) ++ rest) (ended : rest = [] ∨ ∃ rest', rest = 32 :: rest') :
    inetAton text = some address := by
  have parts := readParts_dotted_append (leBytes address) (by simp [leBytes]) (n := 4) (by simp) ended
  unfold inetAton
  rw [printed, parts]
  simp only [leBytes, map_cons, map_nil, bind_some, joinParts_bytes, map_some, htonl_bytes]
  exact congrArg some (leWord_leBytes address)

theorem inetAton_inetNtoa : inetAton (inetNtoa address).toCString = some address :=
  inetAton_of_dotted (append_nil _).symm (.inl rfl)

theorem inetAddr_inetNtoa : inetAddr (inetNtoa address).toCString = address := by
  rw [inetAddr, inetAton_inetNtoa, getD_some]

/-! ## Hardware addresses -/

def colon : UInt8 := 58

def hyphen : UInt8 := 45

def hexDigit (n : Nat) : UInt8 := if n < 10 then UInt8.ofNat (48 + n) else UInt8.ofNat (55 + n)

/-- `%02X`. -/
def hexByte (b : UInt8) : List UInt8 := [hexDigit (b.toNat / 16), hexDigit (b.toNat % 16)]

/-- The bytes in hexadecimal, with colons between them. -/
def colonText : List UInt8 → List UInt8
  | [] => []
  | [b] => hexByte b
  | b :: rest => hexByte b ++ colon :: colonText rest

/-- Two hexadecimal digits. -/
def readHexByte (high low : UInt8) : Option UInt8 :=
  match digitValue 16 high, digitValue 16 low with
  | some h, some l => some (UInt8.ofNat (16 * h + l))
  | _, _ => none

/-- Hexadecimal bytes with a `:` or a `-` between them, to the end of the text. -/
def readHexBytes : List UInt8 → Option (List UInt8)
  | [high, low] => (readHexByte high low).map ([·])
  | high :: low :: separator :: rest =>
    if separator = colon ∨ separator = hyphen then
      match readHexByte high low, readHexBytes rest with
      | some b, some bytes => some (b :: bytes)
      | _, _ => none
    else none
  | _ => none

/-- `strtomac`: six bytes. -/
def strtomac (text : CString) : Option (Block 6) :=
  match readHexBytes text.bytes with
  | none => none
  | some bytes => if six : bytes.length = 6 then some ⟨bytes, six⟩ else none

/-- What `convert_mac2` makes of a byte. -/
def colonFor (b : UInt8) : UInt8 := if b = hyphen then colon else b

/-- `convert_mac2`: every `-` becomes a `:`. -/
def convertMac2 (text : CString) : CString :=
  ⟨text.bytes.map colonFor, by
    intro zero
    obtain ⟨b, member, eq⟩ := List.mem_map.1 zero
    unfold colonFor at eq
    split at eq
    · exact absurd eq (by decide)
    · exact text.nulFree (eq ▸ member)⟩

theorem digitValue_hexDigit (small : n < 16) : digitValue 16 (hexDigit n) = some n := by
  have all : ∀ n, n < 16 → digitValue 16 (hexDigit n) = some n := by decide
  exact all n small

theorem hexDigit_ne_zero (small : n < 16) : (0 : UInt8) ≠ hexDigit n := by
  have all : ∀ n, n < 16 → 0 ≠ hexDigit n := by decide
  exact all n small

variable (b : UInt8) (value : Int32)

theorem readHexByte_hexDigit : readHexByte (hexDigit (b.toNat / 16)) (hexDigit (b.toNat % 16)) = some b := by
  have := b.toNat_lt
  unfold readHexByte
  rw [digitValue_hexDigit (by omega), digitValue_hexDigit (by omega)]
  simp only [Option.some.injEq]
  rw [show 16 * (b.toNat / 16) + b.toNat % 16 = b.toNat by omega, UInt8.ofNat_toNat]

theorem zero_notMem_hexByte : (0 : UInt8) ∉ hexByte b := by
  have := b.toNat_lt
  simp only [hexByte, mem_cons, not_mem_nil, or_false, not_or]
  exact ⟨hexDigit_ne_zero (by omega), hexDigit_ne_zero (by omega)⟩

theorem zero_notMem_colonText (bytes : List UInt8) : (0 : UInt8) ∉ colonText bytes := by
  induction bytes with
  | nil => simp [colonText]
  | cons b rest ih =>
    cases rest with
    | nil => exact zero_notMem_hexByte b
    | cons c rest =>
      simp only [colonText, mem_append, mem_cons, not_or]
      exact ⟨zero_notMem_hexByte b, by decide, ih⟩

theorem colonText_length (nonempty : bytes ≠ []) : (colonText bytes).length + 1 = 3 * bytes.length := by
  induction bytes with
  | nil => exact absurd rfl nonempty
  | cons b rest ih =>
    cases rest with
    | nil => rfl
    | cons c rest =>
      have inner := ih (by simp)
      simp only [colonText, hexByte, length_append, length_cons, length_nil] at inner ⊢
      omega

theorem Block.bytes_ne_nil (pos : 0 < n) (block : Block n) : block.bytes ≠ [] := by
  intro empty
  have := block.size
  rw [empty, length_nil] at this
  omega

/-- `"%02X:%02X:%02X:%02X:%02X:%02X"`. -/
def macText (mac : Block 6) : CharArray 18 :=
  ⟨⟨colonText mac.bytes, zero_notMem_colonText _⟩, by
    have length := colonText_length (mac.bytes_ne_nil (by decide))
    have := mac.size
    simp only [] at *
    omega⟩

theorem readHexBytes_colonText (nonempty : bytes ≠ []) : readHexBytes (colonText bytes) = some bytes := by
  induction bytes with
  | nil => exact absurd rfl nonempty
  | cons b rest ih =>
    have read := readHexByte_hexDigit b
    cases rest with
    | nil => simp [colonText, hexByte, readHexBytes, read]
    | cons c rest =>
      have inner := ih (by simp)
      simp only [colonText, hexByte] at inner ⊢
      simp [readHexBytes, read, inner]

theorem strtomac_macText (mac : Block 6) : strtomac (macText mac).toCString = some mac := by
  have read := readHexBytes_colonText (mac.bytes_ne_nil (by decide))
  unfold strtomac
  rw [show (macText mac).toCString.bytes = colonText mac.bytes from rfl, read]
  simp only []
  rw [dif_pos mac.size]

theorem readHexBytes_length :
    ∀ (text bytes : List UInt8), readHexBytes text = some bytes → text.length + 1 = 3 * bytes.length
  | [], _, read => by cases read
  | [_], _, read => by cases read
  | [_, _], bytes, read => by
    obtain ⟨b, -, rfl⟩ := map_eq_some_iff.1 read
    rfl
  | _ :: _ :: _ :: rest, bytes, read => by
    simp only [readHexBytes] at read
    split at read
    · split at read
      · rename_i b inner _ parsed
        cases read
        have := readHexBytes_length rest inner parsed
        simp only [length_cons]
        omega
      · cases read
    · cases read

theorem strtomac_length {mac : Block 6} (read : strtomac text = some mac) :
    text.bytes.length = 17 := by
  unfold strtomac at read
  split at read
  · cases read
  · rename_i bytes parsed
    have length := readHexBytes_length text.bytes bytes parsed
    split at read
    · omega
    · cases read

theorem digitValue_colonFor : digitValue 16 (colonFor b) = digitValue 16 b := by
  unfold colonFor
  split
  · rename_i same
    rw [same]
    decide
  · rfl

theorem colonFor_separator : (colonFor b = colon ∨ colonFor b = hyphen) ↔ (b = colon ∨ b = hyphen) := by
  unfold colonFor
  by_cases same : b = hyphen <;> simp [same]

theorem readHexBytes_colonFor : ∀ text : List UInt8, readHexBytes (text.map colonFor) = readHexBytes text
  | [] => rfl
  | [_] => rfl
  | [high, low] => by
    simp only [map_cons, map_nil, readHexBytes, readHexByte, digitValue_colonFor]
  | high :: low :: separator :: rest => by
    simp only [map_cons, readHexBytes, readHexByte, digitValue_colonFor, colonFor_separator, readHexBytes_colonFor rest]

theorem strtomac_convertMac2 (text : CString) : strtomac (convertMac2 text) = strtomac text := by
  unfold strtomac
  rw [show (convertMac2 text).bytes = text.bytes.map colonFor from rfl, readHexBytes_colonFor]

/-! ## Signed numbers -/

theorem digits_range (n : Nat) : ∀ b ∈ digits fuel n, 48 ≤ b.toNat ∧ b.toNat ≤ 57 := by
  have digit : ∀ d, d < 10 → 48 ≤ (UInt8.ofNat (48 + d)).toNat ∧ (UInt8.ofNat (48 + d)).toNat ≤ 57 := by
    decide
  induction fuel generalizing n with
  | zero => simp [digits]
  | succ fuel ih =>
    intro b member
    simp only [digits] at member
    split at member
    · rename_i small
      rw [mem_singleton.1 member]
      exact digit n small
    · rcases mem_append.1 member with front | last
      · exact ih (n / 10) b front
      · rw [mem_singleton.1 last]
        exact digit (n % 10) (Nat.mod_lt n (by decide))

theorem digits_ne_nil (n : Nat) : digits (fuel + 1) n ≠ [] := by
  simp only [digits]
  split <;> simp

/-- What `%d` prints: a 32-bit number has at most ten digits. -/
def formatInt (value : Int32) : CString :=
  if value.toInt < 0 then
    ⟨45 :: digits 10 value.toInt.natAbs, by simpa using zero_notMem_digits 10 value.toInt.natAbs⟩
  else ⟨digits 10 value.toInt.natAbs, zero_notMem_digits 10 value.toInt.natAbs⟩

/-- `atoi`: white space, a sign, digits; a number that does not fit is cut to the
range, as `strtol` does. -/
def atoi (s : CString) : Int32 :=
  let value : Int :=
    match s.bytes.dropWhile isSpace with
    | [] => 0
    | b :: rest =>
      if b = 45 then -((readDigits 10 0 rest).1 : Int)
      else if b = 43 then (readDigits 10 0 rest).1
      else (readDigits 10 0 (b :: rest)).1
  Int32.ofInt (max (-2147483648) (min value 2147483647))

theorem formatInt_range : ∀ b ∈ (formatInt value).bytes, b = 45 ∨ (48 ≤ b.toNat ∧ b.toNat ≤ 57) := by
  intro b member
  unfold formatInt at member
  split at member
  · rcases mem_cons.1 member with sign | digit
    · exact .inl sign
    · exact .inr (digits_range _ _ b digit)
  · exact .inr (digits_range _ _ b member)

theorem notMem_formatInt {b : UInt8} (other : ¬ (b = 45 ∨ (48 ≤ b.toNat ∧ b.toNat ≤ 57))) (value : Int32) :
    b ∉ (formatInt value).bytes := fun inside => other (formatInt_range value b inside)

theorem formatInt_ne_nil : (formatInt value).bytes ≠ [] := by
  unfold formatInt
  split
  · simp
  · exact digits_ne_nil 9 _

theorem formatInt_length : (formatInt value).bytes.length ≤ 11 := by
  have := digits_length 10 value.toInt.natAbs
  unfold formatInt
  split
  · exact Nat.succ_le_succ this
  · exact Nat.le_succ_of_le this

theorem readDigits_digits_append (bound : n < 10 ^ 10) (stop : ∀ b ∈ rest.head?, digitValue 10 b = none) :
    (readDigits 10 0 (digits 10 n ++ rest)).1 = n := by
  rw [readDigits_digits 10 n bound]
  cases rest with
  | nil => rfl
  | cons b rest => simp only [readDigits, stop b rfl]

/-- A printed number is read back, whatever follows it, if that is no digit. -/
theorem atoi_formatInt_append {s : CString} (whole : s.bytes = (formatInt value).bytes ++ rest)
    (stop : ∀ b ∈ rest.head?, digitValue 10 b = none) : atoi s = value := by
  have low := value.le_toInt
  have high := value.toInt_lt
  have bound : value.toInt.natAbs < 10 ^ 10 := by omega
  have read := readDigits_digits_append bound stop
  have clamp : max (-2147483648) (min value.toInt 2147483647) = value.toInt := by omega
  unfold atoi formatInt at *
  split at whole
  · have start : s.bytes.dropWhile isSpace = 45 :: (digits 10 value.toInt.natAbs ++ rest) := by
      rw [whole]
      rfl
    have sign : -(value.toInt.natAbs) = value.toInt := by omega
    simp only [start, if_true, read, sign, clamp, Int32.ofInt_toInt]
  · have whole : s.bytes = digits 10 value.toInt.natAbs ++ rest := whole
    obtain ⟨b, bs, cons⟩ := exists_cons_of_ne_nil (digits_ne_nil 9 value.toInt.natAbs)
    have first := digits_range 10 value.toInt.natAbs b (by rw [cons]; exact mem_cons_self)
    have noSpace : isSpace b = false := by
      have : b ≠ 32 := fun e => by simp [e] at first
      simp only [isSpace, this, decide_false, Bool.false_or, Bool.and_eq_false_iff, decide_eq_false_iff_not]
      omega
    have noMinus : b ≠ 45 := fun e => by simp [e] at first
    have noPlus : b ≠ 43 := fun e => by simp [e] at first
    have start : s.bytes.dropWhile isSpace = b :: (bs ++ rest) := by
      rw [whole, cons, cons_append, dropWhile_cons_of_neg (by simp [noSpace])]
    have sign : (value.toInt.natAbs) = value.toInt := by omega
    rw [cons, cons_append] at read
    simp only [start, noMinus, noPlus, if_false, read, sign, clamp, Int32.ofInt_toInt]

theorem atoi_formatInt : atoi (formatInt value) = value :=
  atoi_formatInt_append value (append_nil _).symm (by simp)

/-! ## `strtoul` and `strtol` -/

def readSign : List UInt8 → Bool × List UInt8
  | [] => (false, [])
  | b :: rest =>
    if b = 45 then (true, rest) else if b = 43 then (false, rest) else (false, b :: rest)

/-- The base of a number in C, and its digits. -/
def readBase : List UInt8 → Nat × List UInt8
  | [] => (10, [])
  | b :: rest =>
    if b = 48 then
      match rest with
      | x :: d :: more =>
        if (x = 120 ∨ x = 88) ∧ (digitValue 16 d).isSome then (16, d :: more) else (8, b :: rest)
      | _ => (8, b :: rest)
    else (10, b :: rest)

/-- White space, a sign, digits: whether there is a minus, the number, and what is left. -/
def scanNumber (s : CString) : Option (Bool × Nat × List UInt8) :=
  let (negative, text) := readSign (s.bytes.dropWhile isSpace)
  let (base, text) := readBase text
  match text with
  | [] => none
  | b :: rest =>
    if (digitValue base b).isSome then some (negative, readDigits base 0 (b :: rest)) else none

/-- `strtoul(s, &endptr, 0)`, where `unsigned long` has 32 bits: the value, and the text at `endptr`. -/
def strtoul (s : CString) : UInt32 × List UInt8 :=
  match scanNumber s with
  | none => (0, s.bytes)
  | some (negative, value, rest) =>
    (if 2 ^ 32 ≤ value then 0xFFFFFFFF
      else if negative then 0 - UInt32.ofNat value else UInt32.ofNat value, rest)

/-- `strtol(s, &endptr, 0)`. -/
def strtol (s : CString) : Int32 × List UInt8 :=
  match scanNumber s with
  | none => (0, s.bytes)
  | some (negative, value, rest) =>
    let signed : Int := if negative then -value else value
    (Int32.ofInt (max (-2147483648) (min signed 2147483647)), rest)

/-! ## Letters -/

def toLower (b : UInt8) : UInt8 := if 65 ≤ b.toNat ∧ b.toNat ≤ 90 then b + 32 else b

/-- `!strcasecmp(a, b)`. -/
def sameLetters (a b : CString) : Bool := a.bytes.map toLower = b.bytes.map toLower

end RouterApps.CLib
