import XInputSwitch.Numerals

/-! # Texts and numbers in JSON

A text is written with `ensure_ascii`: what is not printable ASCII becomes `\u` with four
digits, twice for a character beyond 16 bits.  Texts are sequences of characters here, so half of a
surrogate pair has no counterpart, and the reader refuses a text that asks for one.

A number is scanned as far as it goes.  What stands after it does not change that, if it is a blank,
a comma or a closing bracket (`scanNumber_append`).
-/
namespace Python.Json

/-! ## Characters -/

/-- Four hexadecimal digits. -/
def hex4 (n : Nat) : List Char :=
  [Nat.digitChar (n / 4096 % 16), Nat.digitChar (n / 256 % 16), Nat.digitChar (n / 16 % 16),
    Nat.digitChar (n % 16)]

def readHex (c : Char) : Option Nat :=
  if c.isDigit then some (c.toNat - '0'.toNat)
  else if 'a' ≤ c ∧ c ≤ 'f' then some (c.toNat - 'a'.toNat + 10)
  else if 'A' ≤ c ∧ c ≤ 'F' then some (c.toNat - 'A'.toNat + 10)
  else none

def readHex4 : List Char → Option (Nat × List Char)
  | a :: b :: c :: d :: rest => do
    let a ← readHex a
    let b ← readHex b
    let c ← readHex c
    let d ← readHex d
    return (((a * 16 + b) * 16 + c) * 16 + d, rest)
  | _ => none

/-- The letters after a backslash. -/
def escapes : List (Char × Char) :=
  [('"', '"'), ('\\', '\\'), ('/', '/'), ('b', '\x08'), ('f', '\x0c'), ('n', '\n'), ('r', '\r'),
   ('t', '\t')]

def escapeChar (c : Char) : List Char :=
  match c with
  | '"' => ['\\', '"']
  | '\\' => ['\\', '\\']
  | '\x08' => ['\\', 'b']
  | '\x0c' => ['\\', 'f']
  | '\n' => ['\\', 'n']
  | '\r' => ['\\', 'r']
  | '\t' => ['\\', 't']
  | c =>
    if ' ' ≤ c ∧ c ≤ '~' then [c]
    else if c.toNat < 0x10000 then '\\' :: 'u' :: hex4 c.toNat
    else
      '\\' :: 'u' :: hex4 (0xD800 + (c.toNat - 0x10000) / 0x400) ++
        '\\' :: 'u' :: hex4 (0xDC00 + (c.toNat - 0x10000) % 0x400)

/-- After `\u`. -/
def readUnicode (text : List Char) : Option (Char × List Char) :=
  match readHex4 text with
  | none => none
  | some (n, rest) =>
    if 0xD800 ≤ n ∧ n < 0xDC00 then
      match rest with
      | '\\' :: 'u' :: rest =>
        match readHex4 rest with
        | none => none
        | some (m, rest) =>
          if 0xDC00 ≤ m ∧ m < 0xE000 then
            some (Char.ofNat (0x10000 + (n - 0xD800) * 0x400 + (m - 0xDC00)), rest)
          else none
      | _ => none
    else if 0xDC00 ≤ n ∧ n < 0xE000 then none
    else some (Char.ofNat n, rest)

/-- One character of a text, up to the closing quote. -/
def readChar : List Char → Option (Char × List Char)
  | '\\' :: 'u' :: rest => readUnicode rest
  | '\\' :: letter :: rest => (escapes.lookup letter).map fun c => (c, rest)
  | c :: rest => if c.toNat < 0x20 ∨ c = '\\' then none else some (c, rest)
  | [] => none

/-- The rest of a text after its first quote, in at most `n` characters. -/
def readString : Nat → List Char → Option (List Char × List Char)
  | _, '"' :: rest => some ([], rest)
  | 0, _ => none
  | n + 1, text =>
    match readChar text with
    | none => none
    | some (c, rest) => (readString n rest).map fun read => (c :: read.1, read.2)

theorem readHex_digitChar (n : Nat) : readHex (Nat.digitChar (n % 16)) = some (n % 16) := by
  have hall : ∀ d < 16, readHex (Nat.digitChar d) = some d := by decide
  exact hall _ (Nat.mod_lt _ (by decide))

theorem readHex4_hex4 {n : Nat} (h : n < 0x10000) (rest : List Char) :
    readHex4 (hex4 n ++ rest) = some (n, rest) := by
  simp only [hex4, List.cons_append, List.nil_append, readHex4, readHex_digitChar,
    Option.bind_eq_bind, Option.bind_some, Option.pure_def, Option.some.injEq, Prod.mk.injEq,
    and_true]
  omega

/-- What is not half of a pair is a character. -/
theorem surrogate_free (c : Char) : c.toNat < 0xD800 ∨ 0xDFFF < c.toNat ∧ c.toNat < 0x110000 :=
  c.valid

theorem readUnicode_hex4 {c : Char} (h : c.toNat < 0x10000) (rest : List Char) :
    readUnicode (hex4 c.toNat ++ rest) = some (c, rest) := by
  have hvalid := surrogate_free c
  rw [readUnicode, readHex4_hex4 h]
  simp only
  rw [if_neg (by omega), if_neg (by omega), Char.ofNat_toNat]

theorem readUnicode_pair {c : Char} (h : ¬c.toNat < 0x10000) (rest : List Char) :
    readUnicode (hex4 (0xD800 + (c.toNat - 0x10000) / 0x400) ++
      '\\' :: 'u' :: (hex4 (0xDC00 + (c.toNat - 0x10000) % 0x400) ++ rest)) = some (c, rest) := by
  have hvalid := surrogate_free c
  have hjoin : 0x10000 + (0xD800 + (c.toNat - 0x10000) / 0x400 - 0xD800) * 0x400 +
      (0xDC00 + (c.toNat - 0x10000) % 0x400 - 0xDC00) = c.toNat := by omega
  rw [readUnicode, readHex4_hex4 (by omega)]
  simp only
  rw [if_pos (by omega), readHex4_hex4 (by omega)]
  simp only
  rw [if_pos (by omega), hjoin, Char.ofNat_toNat]

theorem readChar_of_plain {c : Char} (h : ¬(c.toNat < 0x20 ∨ c = '\\')) (rest : List Char) :
    readChar (c :: rest) = some (c, rest) := by
  unfold readChar
  split
  · rename_i heq
    exact absurd (.inr (List.cons.inj heq).1) h
  · rename_i heq
    exact absurd (.inr (List.cons.inj heq).1) h
  · rename_i heq
    obtain ⟨rfl, rfl⟩ := List.cons.inj heq
    exact if_neg h
  · rename_i heq
    cases heq

theorem readChar_escapeChar (c : Char) (rest : List Char) :
    readChar (escapeChar c ++ rest) = some (c, rest) := by
  unfold escapeChar
  split
  iterate 7 rfl
  · rename_i hquote hslash _ _ _ _ _
    split
    · rename_i hprintable
      refine readChar_of_plain ?_ rest
      rintro (hlow | rfl)
      · have hspace : ' '.toNat ≤ c.toNat := hprintable.1
        exact absurd hlow (Nat.not_lt.mpr hspace)
      · exact hslash rfl
    · split
      · rename_i hsmall
        exact readUnicode_hex4 hsmall rest
      · rename_i hlarge
        have hread := readUnicode_pair hlarge rest
        simpa [readChar] using hread

/-- A text without its first quote. -/
def writeString (s : List Char) : List Char := s.flatMap escapeChar ++ ['"']

theorem escapeChar_head (c : Char) : ∃ head rest, escapeChar c = head :: rest ∧ head ≠ '"' := by
  unfold escapeChar
  split
  iterate 7 exact ⟨_, _, rfl, by decide⟩
  · rename_i hquote _ _ _ _ _ _
    split
    · exact ⟨c, [], rfl, hquote⟩
    · split
      · exact ⟨_, _, rfl, by decide⟩
      · exact ⟨_, _, rfl, by decide⟩

theorem readString_writeString (s rest : List Char) {n : Nat} (hn : s.length ≤ n) :
    readString n (writeString s ++ rest) = some (s, rest) := by
  induction s generalizing n with
  | nil => simp [writeString, readString]
  | cons c s ih =>
    obtain ⟨n, rfl⟩ : ∃ m, n = m + 1 := ⟨n - 1, by rw [List.length_cons] at hn; omega⟩
    obtain ⟨head, tail, hescape, hquote⟩ := escapeChar_head c
    have hread := readChar_escapeChar c (writeString s ++ rest)
    have htext : writeString (c :: s) ++ rest = escapeChar c ++ (writeString s ++ rest) := by
      simp [writeString]
    rw [htext]
    rw [hescape] at hread ⊢
    rw [List.cons_append, readString]
    · rw [← List.cons_append, hread]
      simp only
      rw [ih (by rw [List.length_cons] at hn; omega)]
      rfl
    · intro rest' heq
      exact hquote (List.cons.inj heq).1

/-! ## Numbers -/

/-- The whole part. -/
def scanInt : List Char → Option (List Char × List Char)
  | [] => none
  | c :: rest =>
    if c = '0' then some ([c], rest)
    else if c.isDigit then some (c :: rest.takeWhile Char.isDigit, rest.dropWhile Char.isDigit)
    else none

/-- A point with digits. -/
def scanFraction : List Char → List Char × List Char
  | [] => ([], [])
  | c :: rest =>
    if c = '.' ∧ rest.takeWhile Char.isDigit ≠ [] then
      (c :: rest.takeWhile Char.isDigit, rest.dropWhile Char.isDigit)
    else ([], c :: rest)

/-- The sign of an exponent. -/
def scanSign : List Char → List Char × List Char
  | [] => ([], [])
  | c :: rest => if c = '+' ∨ c = '-' then ([c], rest) else ([], c :: rest)

/-- An exponent with digits. -/
def scanExponent : List Char → List Char × List Char
  | [] => ([], [])
  | c :: rest =>
    let (sign, digits) := scanSign rest
    if (c = 'e' ∨ c = 'E') ∧ digits.takeWhile Char.isDigit ≠ [] then
      (c :: (sign ++ digits.takeWhile Char.isDigit), digits.dropWhile Char.isDigit)
    else ([], c :: rest)

/-- The text of a number, whether it is one for `float`, and the rest. -/
def scanUnsigned (text : List Char) : Option (List Char × Bool × List Char) :=
  match scanInt text with
  | none => none
  | some (whole, rest) =>
    let fraction := scanFraction rest
    let exponent := scanExponent fraction.2
    some (whole ++ fraction.1 ++ exponent.1, fraction.1 ≠ [] ∨ exponent.1 ≠ [], exponent.2)

def scanNumber : List Char → Option (List Char × Bool × List Char)
  | [] => none
  | c :: rest =>
    if c = '-' then
      (scanUnsigned rest).map fun (number, isFloat, rest) => (c :: number, isFloat, rest)
    else scanUnsigned (c :: rest)

def isBlank (c : Char) : Bool := c = ' ' || c = '\t' || c = '\n' || c = '\r'

/-- What may stand after a value. -/
def isDelimiter (c : Char) : Bool := isBlank c || c = ',' || c = ']' || c = '\x7d'

/-- Nothing stands here that could be part of a number. -/
def Ends (rest : List Char) : Prop := ∀ c ∈ rest.head?, isDelimiter c = true

theorem ne_of_isDelimiter {c : Char} (h : isDelimiter c = true) :
    c.isDigit = false ∧ c ≠ '0' ∧ c ≠ '.' ∧ ¬(c = 'e' ∨ c = 'E') ∧ ¬(c = '+' ∨ c = '-') := by
  simp only [isDelimiter, isBlank, Bool.or_eq_true, decide_eq_true_eq] at h
  rcases h with ((((((rfl | rfl) | rfl) | rfl) | rfl) | rfl) | rfl) <;> decide

/-! What comes after a number is left alone by every part of the scanner. -/

section Scan
variable {rest : List Char} (h : Ends rest) (text : List Char)
include h

theorem takeWhile_append :
    (text ++ rest).takeWhile Char.isDigit = text.takeWhile Char.isDigit ∧
      (text ++ rest).dropWhile Char.isDigit = text.dropWhile Char.isDigit ++ rest := by
  induction text with
  | nil =>
    cases rest with
    | nil => exact ⟨rfl, rfl⟩
    | cons c rest =>
      obtain ⟨hdigit, -⟩ := ne_of_isDelimiter (h c rfl)
      simp [hdigit]
  | cons d text ih =>
    cases hd : d.isDigit with
    | true => simp [hd, ih]
    | false => simp [hd]

theorem scanInt_append :
    scanInt (text ++ rest) = (scanInt text).map fun read => (read.1, read.2 ++ rest) := by
  cases text with
  | nil =>
    cases rest with
    | nil => rfl
    | cons c rest =>
      obtain ⟨hdigit, hzero, -⟩ := ne_of_isDelimiter (h c rfl)
      simp [scanInt, hdigit, hzero]
  | cons c text =>
    obtain ⟨htake, hdrop⟩ := takeWhile_append h text
    simp only [List.cons_append, scanInt, htake, hdrop]
    split
    · rfl
    · split <;> rfl

theorem scanFraction_append :
    scanFraction (text ++ rest) = ((scanFraction text).1, (scanFraction text).2 ++ rest) := by
  cases text with
  | nil =>
    cases rest with
    | nil => rfl
    | cons c rest =>
      obtain ⟨-, -, hpoint, -⟩ := ne_of_isDelimiter (h c rfl)
      simp [scanFraction, hpoint]
  | cons c text =>
    obtain ⟨htake, hdrop⟩ := takeWhile_append h text
    simp only [List.cons_append, scanFraction, htake, hdrop]
    split <;> rfl

theorem scanSign_append :
    scanSign (text ++ rest) = ((scanSign text).1, (scanSign text).2 ++ rest) := by
  cases text with
  | nil =>
    cases rest with
    | nil => rfl
    | cons c rest =>
      obtain ⟨-, -, -, -, hsign⟩ := ne_of_isDelimiter (h c rfl)
      simp [scanSign, hsign]
  | cons c text =>
    simp only [List.cons_append, scanSign]
    split <;> rfl

theorem scanExponent_append :
    scanExponent (text ++ rest) = ((scanExponent text).1, (scanExponent text).2 ++ rest) := by
  cases text with
  | nil =>
    cases rest with
    | nil => rfl
    | cons c rest =>
      obtain ⟨-, -, -, hletter, -⟩ := ne_of_isDelimiter (h c rfl)
      simp [scanExponent, hletter]
  | cons c text =>
    obtain ⟨htake, hdrop⟩ := takeWhile_append h (scanSign text).2
    simp only [List.cons_append, scanExponent, scanSign_append h text, htake, hdrop]
    split <;> rfl

theorem scanUnsigned_append :
    scanUnsigned (text ++ rest) =
      (scanUnsigned text).map fun read => (read.1, read.2.1, read.2.2 ++ rest) := by
  rw [scanUnsigned, scanInt_append h, scanUnsigned]
  cases scanInt text with
  | none => rfl
  | some read =>
    simp only [Option.map_some, scanFraction_append h, scanExponent_append h]

theorem scanNumber_append :
    scanNumber (text ++ rest) =
      (scanNumber text).map fun read => (read.1, read.2.1, read.2.2 ++ rest) := by
  cases text with
  | nil =>
    cases rest with
    | nil => rfl
    | cons c rest =>
      obtain ⟨hdigit, hzero, -, -, hsign⟩ := ne_of_isDelimiter (h c rfl)
      simp [scanNumber, scanUnsigned, scanInt, hdigit, hzero, not_or.mp hsign]
  | cons c text =>
    simp only [List.cons_append, scanNumber]
    split
    · simp only [scanUnsigned_append h, Option.map_map]
      rfl
    · rw [← List.cons_append, scanUnsigned_append h]

end Scan

/-- The text is a number, with a point or an exponent, or without. -/
def IsNumber (isFloat : Bool) (text : List Char) : Prop :=
  scanNumber text = some (text, isFloat, [])

theorem toDigits_head {n : Nat} (hn : 0 < n) :
    ∃ c rest, Nat.toDigits 10 n = c :: rest ∧ c ≠ '0' := by
  induction n using Nat.strongRecOn with
  | ind n ih =>
    by_cases hsmall : n < 10
    · have hall : ∀ d < 10, 0 < d → Nat.digitChar d ≠ '0' := by decide
      exact ⟨_, [], Nat.toDigits_of_lt_base hsmall, hall n hsmall hn⟩
    · obtain ⟨c, rest, hdigits, hc⟩ := ih (n / 10) (by omega) (by omega)
      refine ⟨c, rest ++ [Nat.digitChar (n % 10)], ?_, hc⟩
      rw [Nat.toDigits_of_base_le (by decide) (by omega), hdigits, List.cons_append]

theorem scanUnsigned_toDigits (n : Nat) :
    scanUnsigned (Nat.toDigits 10 n) = some (Nat.toDigits 10 n, false, []) := by
  rcases Nat.eq_zero_or_pos n with rfl | hn
  · decide
  · obtain ⟨c, rest, hdigits, hzero⟩ := toDigits_head hn
    have hall : ∀ d ∈ c :: rest, d.isDigit = true := by
      intro d hd
      rw [← hdigits] at hd
      exact Numerals.isDigit_of_mem hd
    obtain ⟨hc, hrest⟩ := List.forall_mem_cons.mp hall
    have htake : rest.takeWhile Char.isDigit = rest := List.takeWhile_eq_self_iff.mpr hrest
    have hdrop : rest.dropWhile Char.isDigit = [] := List.dropWhile_eq_nil_iff.mpr hrest
    simp [hdigits, scanUnsigned, scanInt, hzero, hc, htake, hdrop, scanFraction, scanExponent]

/-- Digits have no sign before them. -/
theorem scanNumber_toDigits (n : Nat) (rest : List Char) :
    scanNumber (Nat.toDigits 10 n ++ rest) = scanUnsigned (Nat.toDigits 10 n ++ rest) := by
  cases hdigits : Nat.toDigits 10 n with
  | nil => exact absurd hdigits Nat.toDigits_ne_nil
  | cons c tail =>
    have hc : c ≠ '-' := by
      rintro rfl
      have hminus : '-' ∈ Nat.toDigits 10 n := hdigits ▸ List.mem_cons_self
      exact absurd (Numerals.isDigit_of_mem hminus) (by decide)
    rw [List.cons_append, scanNumber, if_neg hc]

theorem isNumber_writeInt (n : Int) : IsNumber false (Numerals.writeInt n) := by
  cases n with
  | ofNat n =>
    have hscan := scanNumber_toDigits n []
    rw [List.append_nil, scanUnsigned_toDigits] at hscan
    exact hscan
  | negSucc n =>
    rw [IsNumber, Numerals.writeInt, scanNumber, if_pos rfl, scanUnsigned_toDigits]
    rfl

/-- A number begins with a digit or a minus and a digit. -/
theorem IsNumber.head {isFloat : Bool} {text : List Char} (h : IsNumber isFloat text) :
    (∃ c rest, text = c :: rest ∧ c.isDigit = true) ∨
      ∃ c rest, text = '-' :: c :: rest ∧ c.isDigit = true := by
  have hdigit : ∀ {rest : List Char}, (scanUnsigned rest).isSome = true →
      ∃ c rest', rest = c :: rest' ∧ c.isDigit = true := by
    intro rest hsome
    cases rest with
    | nil => cases hsome
    | cons c rest =>
      refine ⟨c, rest, rfl, ?_⟩
      by_cases hzero : c = '0'
      · rw [hzero]
        decide
      · cases hc : c.isDigit with
        | true => rfl
        | false => simp [scanUnsigned, scanInt, hzero, hc] at hsome
  rw [IsNumber] at h
  cases text with
  | nil => cases h
  | cons c rest =>
    rw [scanNumber] at h
    split at h
    · rename_i hminus
      obtain ⟨read, hread, -⟩ := Option.map_eq_some_iff.mp h
      obtain ⟨d, rest', rfl, hd⟩ := hdigit (Option.isSome_of_eq_some hread)
      exact .inr ⟨d, rest', by rw [hminus], hd⟩
    · obtain ⟨d, rest', hrest, hd⟩ := hdigit (Option.isSome_of_eq_some h)
      exact .inl ⟨d, rest', hrest, hd⟩

/-! ## Printable characters -/

/-- From the blank to the tilde. -/
def isPrintable (c : Char) : Bool := ' ' ≤ c && c ≤ '~'

theorem isPrintable_hex4 (n : Nat) : ∀ c ∈ hex4 n, isPrintable c = true := by
  have hall : ∀ d < 16, isPrintable (Nat.digitChar d) = true := by decide
  intro c hc
  simp only [hex4, List.mem_cons, List.not_mem_nil, or_false] at hc
  rcases hc with rfl | rfl | rfl | rfl <;> exact hall _ (Nat.mod_lt _ (by decide))

theorem isPrintable_escapeChar (c : Char) : ∀ d ∈ escapeChar c, isPrintable d = true := by
  have hunicode : ∀ n, ∀ d ∈ '\\' :: 'u' :: hex4 n, isPrintable d = true := by
    intro n
    refine List.forall_mem_cons.mpr ⟨by decide, List.forall_mem_cons.mpr ⟨by decide, ?_⟩⟩
    exact isPrintable_hex4 n
  unfold escapeChar
  split
  iterate 7 exact List.all_eq_true.mp (by decide)
  · split
    · rename_i hprintable
      intro d hd
      obtain rfl := List.mem_singleton.mp hd
      simpa [isPrintable] using hprintable
    · split
      · exact hunicode _
      · exact List.forall_mem_append.mpr ⟨hunicode _, hunicode _⟩

theorem isPrintable_writeString (s : List Char) : ∀ c ∈ writeString s, isPrintable c = true := by
  refine List.forall_mem_append.mpr ⟨?_, List.all_eq_true.mp (by decide)⟩
  intro c hc
  obtain ⟨d, -, hd⟩ := List.mem_flatMap.mp hc
  exact isPrintable_escapeChar d c hd

theorem isPrintable_of_isDigit {c : Char} (h : c.isDigit = true) : isPrintable c = true := by
  simp only [Char.isDigit, ge_iff_le, Bool.and_eq_true, decide_eq_true_eq,
    UInt32.le_iff_toNat_le] at h
  simp only [isPrintable, Bool.and_eq_true, decide_eq_true_eq, Char.le_def,
    UInt32.le_iff_toNat_le]
  exact ⟨le_trans (by decide) h.1, h.2.trans (by decide)⟩

theorem isPrintable_takeWhile (text : List Char) :
    ∀ c ∈ text.takeWhile Char.isDigit, isPrintable c = true :=
  fun _ hc => isPrintable_of_isDigit (List.mem_takeWhile_imp hc)

theorem isPrintable_scanInt {text : List Char} {read : List Char × List Char}
    (h : scanInt text = some read) : ∀ c ∈ read.1, isPrintable c = true := by
  cases text with
  | nil => cases h
  | cons c rest =>
    rw [scanInt] at h
    split at h
    · rename_i hzero
      obtain rfl := Option.some.inj h
      intro d hd
      rw [List.mem_singleton.mp hd, hzero]
      decide
    · split at h
      · rename_i hdigit
        obtain rfl := Option.some.inj h
        exact List.forall_mem_cons.mpr ⟨isPrintable_of_isDigit hdigit, isPrintable_takeWhile rest⟩
      · cases h

theorem isPrintable_scanFraction (text : List Char) :
    ∀ c ∈ (scanFraction text).1, isPrintable c = true := by
  cases text with
  | nil => exact nofun
  | cons c rest =>
    rw [scanFraction]
    split
    · rename_i hpoint
      refine List.forall_mem_cons.mpr ⟨?_, isPrintable_takeWhile rest⟩
      rw [hpoint.1]
      decide
    · exact nofun

theorem isPrintable_scanSign (text : List Char) :
    ∀ c ∈ (scanSign text).1, isPrintable c = true := by
  cases text with
  | nil => exact nofun
  | cons c rest =>
    rw [scanSign]
    split
    · rename_i hsign
      intro d hd
      obtain rfl := List.mem_singleton.mp hd
      rcases hsign with rfl | rfl <;> decide
    · exact nofun

theorem isPrintable_scanExponent (text : List Char) :
    ∀ c ∈ (scanExponent text).1, isPrintable c = true := by
  cases text with
  | nil => exact nofun
  | cons c rest =>
    simp only [scanExponent]
    split
    · rename_i hletter
      refine List.forall_mem_cons.mpr ⟨?_, List.forall_mem_append.mpr ⟨?_, ?_⟩⟩
      · rcases hletter.1 with rfl | rfl <;> decide
      · exact isPrintable_scanSign rest
      · exact isPrintable_takeWhile _
    · exact nofun

theorem isPrintable_scanUnsigned {text : List Char} {read : List Char × Bool × List Char}
    (h : scanUnsigned text = some read) : ∀ c ∈ read.1, isPrintable c = true := by
  rw [scanUnsigned] at h
  cases hwhole : scanInt text with
  | none =>
    rw [hwhole] at h
    cases h
  | some whole =>
    rw [hwhole] at h
    obtain rfl := Option.some.inj h
    refine List.forall_mem_append.mpr ⟨List.forall_mem_append.mpr ⟨?_, ?_⟩, ?_⟩
    · exact isPrintable_scanInt hwhole
    · exact isPrintable_scanFraction _
    · exact isPrintable_scanExponent _

theorem IsNumber.isPrintable {isFloat : Bool} {text : List Char} (h : IsNumber isFloat text) :
    ∀ c ∈ text, isPrintable c = true := by
  rw [IsNumber] at h
  cases text with
  | nil => exact nofun
  | cons c rest =>
    rw [scanNumber] at h
    split at h
    · rename_i hminus
      obtain ⟨read, hread, hnumber⟩ := Option.map_eq_some_iff.mp h
      obtain ⟨-, hrest⟩ := List.cons.inj (Prod.mk.inj hnumber).1
      rw [← hrest]
      refine List.forall_mem_cons.mpr ⟨by rw [hminus]; decide, ?_⟩
      exact isPrintable_scanUnsigned hread
    · exact isPrintable_scanUnsigned h

end Python.Json
