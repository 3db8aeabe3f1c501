import Mathlib.Data.Finset.Card
import Mathlib.Data.Finset.Fold
import XInputSwitch.XorCrc

/-! # What a cyclic redundancy check detects

The remainder of a corrupted message differs from that of the message by the remainder
of the errors alone, the syndrome.  With a shift `S` that absorbs one bit, an error in
the `n`-th bit from the end contributes `n` shifts of a unit, so the syndrome of a set
of errors is an exclusive or of powers of the shift.

Three kinds of errors are told apart from none at all: an odd number of them, if the
shift preserves a parity (`syndrome_ne_zero_of_odd`); two, if they are closer than the
order of the shift (`syndrome_pair_ne_zero`); and any number within one word
(`syndrome_burst_ne_zero`).
-/
namespace XorLinear

theorem crc_zipWith_xor {w : Nat} (L : XorLinear w) (c d : BitVec w) {bs ds : List (BitVec w)}
    (h : bs.length = ds.length) :
    L.crc (c ^^^ d) (List.zipWith (fun b e => b ^^^ e) bs ds) = L.crc c bs ^^^ L.crc d ds := by
  induction bs generalizing c d ds with
  | nil =>
    obtain rfl := List.length_eq_zero_iff.mp h.symm
    rfl
  | cons b bs ih =>
    cases ds with
    | nil => simp at h
    | cons e ds =>
      have hlen : bs.length = ds.length := Nat.succ.inj h
      have hxor : L.apply (c ^^^ d ^^^ (b ^^^ e)) = L.apply (c ^^^ b) ^^^ L.apply (d ^^^ e) := by
        rw [← L.map_xor]
        congr 1
        ac_rfl
      rw [List.zipWith_cons_cons, crc_cons, crc_cons, crc_cons, hxor, ih _ _ hlen]

/-- A single word among zeros passes through the map once for itself and once for each
word after it. -/
theorem crc_single {w : Nat} (L : XorLinear w) (u : BitVec w) (k n : Nat) :
    L.crc 0#w ((List.range n).map fun i => if k = i then u else 0#w) =
      if k < n then L.apply^[n - k] u else 0#w := by
  induction n with
  | zero => rfl
  | succ n ih =>
    rw [List.range_succ, List.map_append, crc_append, ih, List.map_singleton, crc_cons, crc_nil]
    rcases Nat.lt_trichotomy k n with h | rfl | h
    · have hsub : n + 1 - k = (n - k) + 1 := by omega
      rw [if_pos h, if_neg (Nat.ne_of_lt h), if_pos (Nat.lt_succ_of_lt h), BitVec.xor_zero, hsub,
        Function.iterate_succ_apply']
    · rw [if_neg (Nat.lt_irrefl k), if_pos rfl, if_pos (Nat.lt_succ_self k), BitVec.zero_xor,
        Nat.add_sub_cancel_left]
      rfl
    · rw [if_neg (by omega), if_neg (by omega), if_neg (by omega), BitVec.xor_self, L.map_zero]

section Syndrome
variable {w : Nat} {ι : Type*} (S : XorLinear w) (unit : BitVec w) (f : ι → Nat)

/-- The remainder of errors at the places `E`, of which `i` is shifted `f i` times. -/
def syndrome (E : Finset ι) : BitVec w :=
  E.fold (fun a b : BitVec w => a ^^^ b) 0#w fun i => S.apply^[f i] unit

@[simp] theorem syndrome_empty : S.syndrome unit f ∅ = 0#w := rfl

@[simp] theorem syndrome_singleton (a : ι) : S.syndrome unit f {a} = S.apply^[f a] unit := by
  rw [syndrome, Finset.fold_singleton, BitVec.xor_zero]

variable [DecidableEq ι]

theorem syndrome_insert {a : ι} {E : Finset ι} (h : a ∉ E) :
    S.syndrome unit f (insert a E) = S.apply^[f a] unit ^^^ S.syndrome unit f E :=
  Finset.fold_insert h

variable {unit f}

/-- Shifts common to all places can be done last. -/
theorem syndrome_shift {k : Nat} {E : Finset ι} (h : ∀ i ∈ E, k ≤ f i) :
    S.syndrome unit f E = S.apply^[k] (S.syndrome unit (fun i => f i - k) E) := by
  induction E using Finset.induction_on with
  | empty =>
    rw [syndrome_empty, syndrome_empty]
    exact (Function.iterate_fixed S.map_zero k).symm
  | insert a E ha ih =>
    have hk : k ≤ f a := h a (Finset.mem_insert_self a E)
    have hE := ih fun i hi => h i (Finset.mem_insert_of_mem hi)
    rw [S.syndrome_insert unit f ha, S.syndrome_insert unit _ ha, S.iterate_xor, ← hE,
      ← Function.iterate_add_apply, Nat.add_sub_cancel' hk]

/-! ## An odd number of errors -/

/-- A parity that the shift preserves counts the errors. -/
theorem syndrome_parity {χ : BitVec w → Bool} (hxor : ∀ a b, χ (a ^^^ b) = (χ a ^^ χ b))
    (hshift : ∀ a, χ (S.apply a) = χ a) (hunit : χ unit = true) (E : Finset ι) :
    χ (S.syndrome unit f E) = decide (E.card % 2 = 1) := by
  have hiter : ∀ n, χ (S.apply^[n] unit) = true := by
    intro n
    induction n with
    | zero => exact hunit
    | succ n ih => rw [Function.iterate_succ_apply', hshift, ih]
  induction E using Finset.induction_on with
  | empty =>
    have hzero := hxor 0#w 0#w
    rw [BitVec.xor_self, Bool.xor_self] at hzero
    rw [syndrome_empty, hzero]
    rfl
  | insert a E ha ih =>
    rw [S.syndrome_insert unit f ha, hxor, hiter, ih, Finset.card_insert_of_notMem ha,
      Bool.true_xor, ← decide_not]
    congr 1
    exact propext ⟨fun h => by omega, fun h => by omega⟩

theorem syndrome_ne_zero_of_odd {χ : BitVec w → Bool} (hxor : ∀ a b, χ (a ^^^ b) = (χ a ^^ χ b))
    (hshift : ∀ a, χ (S.apply a) = χ a) (hunit : χ unit = true) {E : Finset ι}
    (hodd : E.card % 2 = 1) : S.syndrome unit f E ≠ 0#w := by
  intro h
  have hE := S.syndrome_parity (f := f) hxor hshift hunit E
  have hzero := S.syndrome_parity (f := f) hxor hshift hunit ∅
  rw [h, decide_eq_true hodd] at hE
  rw [syndrome_empty, hE] at hzero
  exact Bool.noConfusion hzero

/-! ## Two errors -/

theorem syndrome_pair_ne_zero (hS : Function.Injective S.apply) {order : Nat}
    (horder : ∀ d, 0 < d → d < order → S.apply^[d] unit ≠ unit) {a b : ι} (hlt : f a < f b)
    (hnear : f b - f a < order) : S.syndrome unit f {a, b} ≠ 0#w := by
  have hab : a ∉ ({b} : Finset ι) := by
    rw [Finset.mem_singleton]
    rintro rfl
    exact Nat.lt_irrefl _ hlt
  intro h
  rw [S.syndrome_insert unit f hab, syndrome_singleton, BitVec.xor_eq_zero_iff] at h
  have hsplit : S.apply^[f b] unit = S.apply^[f a] (S.apply^[f b - f a] unit) := by
    rw [← Function.iterate_add_apply, Nat.add_sub_cancel' (Nat.le_of_lt hlt)]
  rw [hsplit] at h
  exact horder _ (Nat.sub_pos_of_lt hlt) hnear ((hS.iterate (f a)) h).symm

/-! ## Errors within one word -/

/-- Up to one word, the places themselves are the bits of the syndrome. -/
theorem getLsbD_syndrome (hunit : ∀ n < w, S.apply^[n] unit = BitVec.twoPow w n) {E : Finset ι}
    (hf : Set.InjOn f E) (hE : ∀ i ∈ E, f i < w) (n : Nat) :
    (S.syndrome unit f E).getLsbD n = decide (∃ i ∈ E, f i = n) := by
  induction E using Finset.induction_on with
  | empty => simp
  | insert a E ha ih =>
    have hsub : E ⊆ insert a E := Finset.subset_insert a E
    have hn := ih (hf.mono (Finset.coe_subset.mpr hsub)) fun i hi => hE i (hsub hi)
    have ha' : f a < w := hE a (Finset.mem_insert_self a E)
    rw [S.syndrome_insert unit f ha, BitVec.getLsbD_xor, hn, hunit _ ha', BitVec.getLsbD_twoPow]
    by_cases hfa : f a = n
    · have hnone : ¬ ∃ i ∈ E, f i = n := by
        rintro ⟨i, hi, hin⟩
        have hai : a = i := hf (Finset.mem_insert_self a E) (hsub hi) (hfa.trans hin.symm)
        exact ha (hai ▸ hi)
      have hsome : ∃ i ∈ insert a E, f i = n := ⟨a, Finset.mem_insert_self a E, hfa⟩
      rw [decide_eq_false hnone, decide_eq_true hsome, ← hfa, decide_eq_true ha']
      simp
    · simp [hfa]

theorem syndrome_burst_ne_zero (hS : Function.Injective S.apply)
    (hunit : ∀ n < w, S.apply^[n] unit = BitVec.twoPow w n) {E : Finset ι} (hne : E.Nonempty)
    (hf : Set.InjOn f E) {k : Nat} (hE : ∀ i ∈ E, k ≤ f i ∧ f i < k + w) :
    S.syndrome unit f E ≠ 0#w := by
  obtain ⟨a, ha⟩ := hne
  rw [S.syndrome_shift fun i hi => (hE i hi).1]
  intro h
  have hzero : S.syndrome unit (fun i => f i - k) E = 0#w := by
    apply hS.iterate k
    rw [h]
    exact (Function.iterate_fixed S.map_zero k).symm
  have hf' : Set.InjOn (fun i => f i - k) E := by
    intro i hi j hj hij
    have hki := (hE i hi).1
    have hkj := (hE j hj).1
    have hij' : f i - k = f j - k := hij
    exact hf hi hj (by omega)
  have hlt : ∀ i ∈ E, f i - k < w := by
    intro i hi
    have := hE i hi
    omega
  have hbit := S.getLsbD_syndrome hunit hf' hlt (f a - k)
  rw [hzero, decide_eq_true ⟨a, ha, rfl⟩, BitVec.getLsbD_zero] at hbit
  exact Bool.noConfusion hbit

end Syndrome
end XorLinear
