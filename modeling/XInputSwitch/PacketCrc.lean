import Mathlib.Dynamics.PeriodicPts.Defs
import XInputSwitch.Joystick
import XInputSwitch.SerialHost
import XInputSwitch.XorCrc

/-! # One check byte, computed twice

The bridge checks a whole payload in one loop over Python integers (`crc8`); the
firmware updates an 8-bit remainder byte by byte (`crc8CcittUpdate`).  Both are
the same zero-initialised check (`ccitt`, `crc8_eq`), which makes the algebra of
`XorLinear` available to both sides of the line.
-/
namespace XInputSwitch

/-! ## The update is linear -/

theorem crc8Shift_eq (d : Byte) : crc8Shift d = (d <<< 1) ^^^ (if d.msb then 0x07 else 0) := by
  revert d; decide +kernel

theorem crc8Shift_xor (a b : Byte) : crc8Shift (a ^^^ b) = crc8Shift a ^^^ crc8Shift b := by
  have carry : ∀ p q : Bool, (if p ^^ q then 0x07 else 0 : Byte) =
      (if p then 0x07 else 0) ^^^ (if q then 0x07 else 0) := by decide
  simp only [crc8Shift_eq, BitVec.msb_xor, BitVec.shiftLeft_xor_distrib, carry]
  ac_rfl

/-- One bit of the update as a linear map. -/
def shift : XorLinear 8 := ⟨crc8Shift, crc8Shift_xor⟩

theorem repeat_eq_iterate {α : Type} (f : α → α) (n : Nat) (a : α) :
    Nat.repeat f n a = f^[n] a := by
  induction n with
  | zero => rfl
  | succ n ih => rw [Nat.repeat, ih, Function.iterate_succ_apply']

theorem repeat_crc8Shift_xor (n : Nat) (a b : Byte) :
    Nat.repeat crc8Shift n (a ^^^ b) = Nat.repeat crc8Shift n a ^^^ Nat.repeat crc8Shift n b := by
  simp only [repeat_eq_iterate]
  exact shift.iterate_xor n a b

/-- The firmware's update as a linear map: a byte is exclusive-ored in, and eight
bits are shifted. -/
def ccitt : XorLinear 8 where
  apply := Nat.repeat crc8Shift 8
  map_xor := repeat_crc8Shift_xor 8

theorem ccitt_apply : ccitt.apply = crc8Shift^[8] := funext (repeat_eq_iterate crc8Shift 8)

/-! ## The order of the shift -/

/-- The polynomial is `x + 1` times a primitive one of degree seven, so 127 shifts bring
every remainder back. -/
theorem crc8Shift_period (c : Byte) : crc8Shift^[127] c = c := by
  -- by linearity it is enough to look at the two halves of the byte
  have hhalf : ∀ n : BitVec 4, crc8Shift^[127] (n ++ 0#4) = n ++ 0#4 ∧
      crc8Shift^[127] (0#4 ++ n) = 0#4 ++ n := by decide +kernel
  have hsplit : ∀ c : Byte,
      (c.extractLsb' 4 4 ++ 0#4) ^^^ (0#4 ++ c.extractLsb' 0 4) = c := by decide +kernel
  have hxor := shift.iterate_xor 127 (c.extractLsb' 4 4 ++ 0#4) (0#4 ++ c.extractLsb' 0 4)
  change crc8Shift^[127] _ = crc8Shift^[127] _ ^^^ crc8Shift^[127] _ at hxor
  rwa [(hhalf _).1, (hhalf _).2, hsplit] at hxor

theorem crc8Shift_injective : Function.Injective crc8Shift := by
  have hleft : Function.LeftInverse crc8Shift^[126] crc8Shift := crc8Shift_period
  exact hleft.injective

theorem ccitt_injective : Function.Injective ccitt.apply := by
  rw [ccitt_apply]
  exact crc8Shift_injective.iterate 8

/-- **The remainders that nine updates bring back**: zero, and the one that is a
multiple of the primitive factor.  Nine updates are 72 shifts, and 72 is prime to the
order of the shift, so a single shift already leaves such a remainder alone. -/
theorem ccitt_iterate_nine_fixed (c : Byte) : ccitt.apply^[9] c = c ↔ c = 0 ∨ c = 0xFD := by
  have hone : ∀ c : Byte, crc8Shift c = c ↔ c = 0 ∨ c = 0xFD := by decide +kernel
  rw [ccitt_apply, ← Function.iterate_mul, ← hone]
  constructor
  · intro h
    have hnine : Function.IsPeriodicPt crc8Shift (8 * 9) c := h
    exact hnine.gcd (crc8Shift_period c)
  · intro h
    exact Function.iterate_fixed h _

/-- The check byte of a message, as the firmware accumulates it. -/
def check (bs : List Byte) : Byte := ccitt.crc 0 bs

@[simp] theorem check_nil : check [] = 0 := rfl

theorem check_concat (bs : List Byte) (b : Byte) :
    check (bs ++ [b]) = crc8CcittUpdate (check bs) b := ccitt.crc_append 0 bs [b]

/-! ## The two computations agree -/

theorem crc8Step_toNat : ∀ c : Byte, crc8Step c.toNat = (crc8Shift c).toNat := by
  decide +kernel

theorem repeat_crc8Step_toNat (n : Nat) (c : Byte) :
    Nat.repeat crc8Step n c.toNat = (Nat.repeat crc8Shift n c).toNat := by
  induction n with
  | zero => rfl
  | succ n ih => simp only [Nat.repeat, ih, crc8Step_toNat]

/-- **Host and firmware agree on the check byte** of every message. -/
theorem crc8_eq (data : List Byte) : crc8 data = (check data).toNat := by
  suffices h : ∀ c : Byte, data.foldl (fun c b => Nat.repeat crc8Step 8 (c ^^^ b.toNat)) c.toNat =
      (ccitt.crc c data).toNat from h 0
  intro c
  induction data generalizing c with
  | nil => rfl
  | cons b data ih =>
    rw [List.foldl_cons, ← BitVec.toNat_xor, repeat_crc8Step_toNat, XorLinear.crc_cons, ← ih]
    rfl

theorem uartWrite_eq (p : List Byte) : uartWrite p = p ++ [check p] := by
  rw [uartWrite, crc8_eq, BitVec.ofNat_toNat, BitVec.setWidth_eq]

end XInputSwitch
