import Mathlib.Data.Rat.Lemmas
import XInputSwitch.Python

/-! # Numbers as texts

A program that shows a number and reads it back depends on `str`, `int` and `float` being
inverse to each other.  `Numerals` is a library with the documented properties;
`Numerals.fractions` is one, and shows that they can hold together.

Whole numbers of more than 4300 digits are neither written nor read (`Legible`), so what `int`
has read once can be written and read again.
-/
namespace Python

/-- A whole number that is within the limit of `str` and `int`. -/
def Legible (n : Int) : Prop := (Nat.toDigits 10 n.natAbs).length ≤ 4300

instance (n : Int) : Decidable (Legible n) :=
  inferInstanceAs (Decidable ((Nat.toDigits 10 n.natAbs).length ≤ 4300))

/-- A library whose numbers can be read back. -/
structure Numerals extends Runtime where
  /-- `int(s)`, if it does not raise -/
  parseInt : String → Option Int
  parseInt_empty : parseInt "" = none
  parseInt_legible : ∀ s n, parseInt s = some n → Legible n
  parseInt_repr : ∀ n, Legible n → parseInt (repr (.int n)) = some n
  /-- no blanks stand around a number that is written -/
  strip_repr : ∀ n, Legible n → strip (repr (.int n)) = repr (.int n)
  parseFloat_repr : ∀ x, parseFloat (repr (.float x)) = some x

namespace Numerals

/-! ## Decimal digits -/

def writeInt : Int → List Char
  | .ofNat n => Nat.toDigits 10 n
  | .negSucc n => '-' :: Nat.toDigits 10 (n + 1)

def readNat (cs : List Char) : Option Nat :=
  if cs ≠ [] ∧ cs.all Char.isDigit then some (Nat.ofDigitChars 10 cs 0) else none

def readInt : List Char → Option Int
  | '-' :: cs => (readNat cs).map fun n => -n
  | cs => (readNat cs).map fun n => n

theorem isDigit_of_mem {n : Nat} {c : Char} (h : c ∈ Nat.toDigits 10 n) : c.isDigit = true :=
  Nat.isDigit_of_mem_toDigits (by decide) (by decide) h

theorem mem_writeInt {n : Int} {c : Char} (h : c ∈ writeInt n) : c = '-' ∨ c.isDigit = true := by
  cases n with
  | ofNat n => exact .inr (isDigit_of_mem h)
  | negSucc n =>
    rcases List.mem_cons.mp h with rfl | h
    · exact .inl rfl
    · exact .inr (isDigit_of_mem h)

theorem readNat_toDigits (n : Nat) : readNat (Nat.toDigits 10 n) = some n := by
  have hall : (Nat.toDigits 10 n).all Char.isDigit = true :=
    List.all_eq_true.mpr fun c hc => isDigit_of_mem hc
  rw [readNat, if_pos ⟨Nat.toDigits_ne_nil, hall⟩, Nat.ofDigitChars_ten_toDigits]

theorem readInt_writeInt (n : Int) : readInt (writeInt n) = some n := by
  cases n with
  | ofNat n =>
    rw [writeInt, readInt, readNat_toDigits]
    · rfl
    · intro cs hcs
      have hminus : '-' ∈ Nat.toDigits 10 n := hcs ▸ List.mem_cons_self
      exact absurd (isDigit_of_mem hminus) (by decide)
  | negSucc n =>
    rw [writeInt, readInt, readNat_toDigits]
    rfl

/-! ## Fractions -/

def writeFloat : Double → List Char
  | .nan => ['n', 'a', 'n']
  | .negInf => ['-', 'i', 'n', 'f']
  | .posInf => ['i', 'n', 'f']
  | .finite x => writeInt x.num ++ '/' :: Nat.toDigits 10 x.den

def readFloat (cs : List Char) : Option Double :=
  if cs = writeFloat .nan then some .nan
  else if cs = writeFloat .negInf then some .negInf
  else if cs = writeFloat .posInf then some .posInf
  else
    match readInt (cs.takeWhile (· ≠ '/')), readNat ((cs.dropWhile (· ≠ '/')).drop 1) with
    | some n, some d => some (.finite (n / d))
    | _, _ => none

theorem readFloat_writeFloat (x : Double) : readFloat (writeFloat x) = some x := by
  cases x with
  | nan => rfl
  | negInf => rfl
  | posInf => rfl
  | finite x =>
    have hslash : '/' ∈ writeFloat (.finite x) := by simp [writeFloat]
    have hne : ∀ {cs : List Char}, '/' ∉ cs → writeFloat (.finite x) ≠ cs :=
      fun hcs heq => hcs (heq ▸ hslash)
    have hnum : ∀ c ∈ writeInt x.num, decide (c ≠ '/') = true := by
      intro c hc
      rcases mem_writeInt hc with rfl | hdigit
      · decide
      · exact decide_eq_true fun h => absurd (h ▸ hdigit) (by decide)
    rw [readFloat, if_neg (hne (by decide)), if_neg (hne (by decide)), if_neg (hne (by decide)),
      writeFloat, List.takeWhile_append_of_pos hnum, List.dropWhile_append_of_pos hnum]
    simp [readInt_writeInt, readNat_toDigits, Rat.num_div_den]

/-! ## A library -/

theorem isSpace_of_isDigit {c : Char} (h : c.isDigit = true) : isSpace c = false := by
  simp only [Char.isDigit, ge_iff_le, Bool.and_eq_true, decide_eq_true_eq,
    UInt32.le_iff_toNat_le] at h
  simp [isSpace, UInt32.le_iff_toNat_le, ← UInt32.toNat_inj] at h ⊢
  omega

theorem strip_writeInt (n : Int) :
    strip (String.ofList (writeInt n)) = String.ofList (writeInt n) := by
  refine strip_of_forall fun c hc => ?_
  rcases mem_writeInt hc with rfl | hdigit
  · decide
  · exact isSpace_of_isDigit hdigit

/-- A library that knows ASCII only, and writes floats as fractions. -/
def fractions : Numerals where
  lower := Runtime.ascii.lower
  lower_ascii := Runtime.ascii.lower_ascii
  repr
    | .int n => String.ofList (writeInt n)
    | .float x => String.ofList (writeFloat x)
    | _ => ""
  parseFloat s := readFloat s.toList
  parseInt s := (readInt (strip s).toList).filter fun n => Legible n
  parseInt_empty := by decide
  parseInt_legible s n h := of_decide_eq_true (Option.filter_eq_some_iff.mp h).2
  parseInt_repr n h := by
    rw [strip_writeInt, String.toList_ofList, readInt_writeInt, Option.filter_some,
      if_pos (decide_eq_true h)]
  strip_repr n _ := strip_writeInt n
  parseFloat_repr x := by rw [String.toList_ofList, readFloat_writeFloat]

end Numerals

end Python
