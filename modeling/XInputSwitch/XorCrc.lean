import Mathlib.Logic.Function.Iterate
import Mathlib.Data.List.Basic

/-! # Zero-initialised cyclic redundancy checks

A check of width `w` absorbs one word at a time: the word is exclusive-ored into
the remainder, and a map that is linear over exclusive or is applied.  Nothing
else is fixed, neither the polynomial nor the width.

Everything follows from linearity.  A remainder splits off (`crc_split`), a
message followed by its own check word leaves remainder zero (`crc_self`), and
turning a message of remainder zero about a cut leaves a remainder that depends
only on the remainder of the part before the cut (`crc_swap`): cyclic shifts of a
code word are code words as soon as that remainder is a fixed point.
-/

/-- A map on words that is linear over exclusive or. -/
structure XorLinear (w : Nat) where
  apply : BitVec w → BitVec w
  map_xor : ∀ a b, apply (a ^^^ b) = apply a ^^^ apply b

namespace XorLinear
variable {w : Nat} (L : XorLinear w)

theorem map_zero : L.apply 0#w = 0#w := by
  have h := L.map_xor 0#w 0#w
  rw [BitVec.xor_self, BitVec.xor_self] at h
  exact h

theorem iterate_xor (n : Nat) (a b : BitVec w) :
    L.apply^[n] (a ^^^ b) = L.apply^[n] a ^^^ L.apply^[n] b := by
  induction n generalizing a b with
  | zero => rfl
  | succ n ih => rw [Function.iterate_succ_apply, L.map_xor, ih]; rfl

/-- The remainder after the words `bs`, from remainder `c`. -/
def crc (c : BitVec w) (bs : List (BitVec w)) : BitVec w :=
  bs.foldl (fun c b => L.apply (c ^^^ b)) c

@[simp] theorem crc_nil (c : BitVec w) : L.crc c [] = c := rfl

@[simp] theorem crc_cons (c b : BitVec w) (bs : List (BitVec w)) :
    L.crc c (b :: bs) = L.crc (L.apply (c ^^^ b)) bs := rfl

theorem crc_append (c : BitVec w) (bs ds : List (BitVec w)) :
    L.crc c (bs ++ ds) = L.crc (L.crc c bs) ds := List.foldl_append

/-- **The initial remainder splits off**: it only passes through the map once for
each word absorbed. -/
theorem crc_split (c : BitVec w) (bs : List (BitVec w)) :
    L.crc c bs = L.apply^[bs.length] c ^^^ L.crc 0#w bs := by
  induction bs generalizing c with
  | nil => simp
  | cons b bs ih =>
    rw [crc_cons, crc_cons, ih, ih (L.apply (0#w ^^^ b)), List.length_cons,
      Function.iterate_succ_apply, L.map_xor, L.iterate_xor, BitVec.zero_xor, BitVec.xor_assoc]

/-- A message followed by its check word leaves remainder zero. -/
theorem crc_self (bs : List (BitVec w)) : L.crc 0#w (bs ++ [L.crc 0#w bs]) = 0#w := by
  rw [crc_append, crc_cons, crc_nil, BitVec.xor_self, L.map_zero]

/-- Over an injective map, the check word is the only word that leaves remainder
zero. -/
theorem crc_concat_eq_zero_iff (hL : Function.Injective L.apply) (bs : List (BitVec w))
    (b : BitVec w) : L.crc 0#w (bs ++ [b]) = 0#w ↔ L.crc 0#w bs = b := by
  rw [crc_append, crc_cons, crc_nil]
  constructor
  · intro h
    have h' : L.crc 0#w bs ^^^ b = 0#w := hL (h.trans L.map_zero.symm)
    exact BitVec.xor_eq_zero_iff.mp h'
  · rintro rfl
    rw [BitVec.xor_self, L.map_zero]

/-- **Turning a code word about a cut.**  The remainder of `v ++ u` is that of `u`,
changed by as many applications of the map as there are words. -/
theorem crc_swap {u v : List (BitVec w)} (h : L.crc 0#w (u ++ v) = 0#w) :
    L.crc 0#w (v ++ u) = L.apply^[u.length + v.length] (L.crc 0#w u) ^^^ L.crc 0#w u := by
  have hv : L.crc 0#w v = L.apply^[v.length] (L.crc 0#w u) := by
    rw [crc_append, crc_split] at h
    exact (BitVec.xor_eq_zero_iff.mp h).symm
  rw [crc_append, crc_split, hv, Function.iterate_add_apply]

end XorLinear
