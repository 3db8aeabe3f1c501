import Mathlib.Data.List.GetD

/-! # Fixed-size buffers written by index

A buffer of `n` cells that records every index it was asked to write, in range or
not (`touched`, latest first).  A write out of range changes no cell, since what it
hits is not part of the buffer; what becomes of that is for the program that does it to
say, and the record tells when it has to.

The contents of a buffer filled from the front are `padded z xs`: the list `xs`,
then the filling value `z` up to the end.  Writing on from where the list stops
appends to it (`store_padded`, `copy_padded`), so a sequence of writes is read off
as a concatenation.
-/

structure Buffer (α : Type) (n : Nat) where
  cells : Vector α n
  touched : List Nat
deriving DecidableEq

namespace Buffer
variable {α : Type} {n : Nat}

/-- A buffer nothing was written to, with `z` in every cell. -/
def blank (z : α) : Buffer α n := ⟨Vector.replicate n z, []⟩

/-- Write `x` at index `i`. -/
def store (b : Buffer α n) (i : Nat) (x : α) : Buffer α n :=
  ⟨b.cells.setIfInBounds i x, i :: b.touched⟩

/-- Write `xs` at the indices from `i` on, in ascending order. -/
def copy (b : Buffer α n) (i : Nat) : List α → Buffer α n
  | [] => b
  | x :: xs => (b.store i x).copy (i + 1) xs

/-- Write `x` into every cell. -/
def fill (b : Buffer α n) (x : α) : Buffer α n := b.copy 0 (List.replicate n x)

/-- The contents `xs`, padded with `z` to the end of the buffer. -/
def padded (z : α) (xs : List α) : Vector α n := Vector.ofFn fun i : Fin n => xs.getD i z

/-! ## Contents -/

theorem getElem_copy (b : Buffer α n) (i : Nat) (xs : List α) (j : Nat) (hj : j < n) (z : α) :
    (b.copy i xs).cells[j] =
      if i ≤ j ∧ j < i + xs.length then xs.getD (j - i) z else b.cells[j] := by
  induction xs generalizing b i with
  | nil => simp only [copy, List.length_nil]; rw [if_neg (by omega)]
  | cons x xs ih =>
    rw [copy, ih]
    simp only [store, List.length_cons, Vector.getElem_setIfInBounds]
    by_cases hij : j = i
    · subst hij
      rw [if_neg (by omega), if_pos rfl, if_pos (by omega), Nat.sub_self]
      rfl
    · by_cases hlt : i + 1 ≤ j ∧ j < i + 1 + xs.length
      · rw [if_pos hlt, if_pos (by omega), show j - i = (j - (i + 1)) + 1 by omega]
        rfl
      · rw [if_neg hlt, if_neg (fun h => hij h.symm), if_neg (by omega)]

@[simp] theorem getElem_padded (z : α) (xs : List α) (j : Nat) (hj : j < n) :
    (padded z xs : Vector α n)[j] = xs.getD j z := by
  simp [padded]

theorem fill_cells (b : Buffer α n) (z : α) : (b.fill z).cells = padded z [] := by
  ext j hj
  rw [fill, getElem_copy _ _ _ _ hj z, getElem_padded, if_pos (by simpa using hj)]
  simp [hj]

/-- **Writing on from the end of the contents appends to them.** -/
theorem copy_padded {b : Buffer α n} {z : α} {xs : List α} (h : b.cells = padded z xs)
    (ys : List α) : (b.copy xs.length ys).cells = padded z (xs ++ ys) := by
  ext j hj
  rw [getElem_copy _ _ _ _ hj z, h, getElem_padded, getElem_padded]
  by_cases hlt : j < xs.length
  · rw [if_neg (by omega), List.getD_append _ _ _ _ hlt]
  · rw [List.getD_append_right _ _ _ _ (by omega)]
    split
    · rfl
    · rename_i hge
      rw [List.getD_eq_default _ _ (by omega), List.getD_eq_default _ _ (by omega)]

theorem store_padded {b : Buffer α n} {z : α} {xs : List α} (h : b.cells = padded z xs) (y : α) :
    (b.store xs.length y).cells = padded z (xs ++ [y]) :=
  copy_padded h [y]

/-- Contents that fit are in the buffer whole, followed by the filling value. -/
theorem toList_padded (z : α) {xs : List α} (h : xs.length ≤ n) :
    (padded z xs : Vector α n).toList = xs ++ List.replicate (n - xs.length) z := by
  apply List.ext_getElem
  · simp; omega
  · intro j hj hj'
    have hjn : j < n := by simpa using hj
    rw [Vector.getElem_toList, getElem_padded]
    by_cases hlt : j < xs.length
    · rw [List.getElem_append_left hlt, List.getD_eq_getElem _ _ hlt]
    · rw [List.getElem_append_right (by omega), List.getElem_replicate,
        List.getD_eq_default _ _ (by omega)]

/-! ## Indices written -/

theorem mem_touched_copy (b : Buffer α n) (i : Nat) (xs : List α) (j : Nat) :
    j ∈ (b.copy i xs).touched ↔ j ∈ b.touched ∨ (i ≤ j ∧ j < i + xs.length) := by
  induction xs generalizing b i with
  | nil =>
    simp only [copy, List.length_nil]
    exact ⟨Or.inl, fun h => h.resolve_right (by omega)⟩
  | cons x xs ih =>
    rw [copy, ih]
    simp only [store, List.mem_cons, List.length_cons]
    constructor
    · rintro ((rfl | h) | h)
      · exact Or.inr (by omega)
      · exact Or.inl h
      · exact Or.inr (by omega)
    · rintro (h | h)
      · exact Or.inl (Or.inr h)
      · by_cases hj : j = i
        · exact Or.inl (Or.inl hj)
        · exact Or.inr (by omega)

theorem mem_touched_fill (b : Buffer α n) (x : α) (j : Nat) :
    j ∈ (b.fill x).touched ↔ j ∈ b.touched ∨ j < n := by
  rw [fill, mem_touched_copy, List.length_replicate]
  simp

theorem mem_touched_store (b : Buffer α n) (i : Nat) (x : α) (j : Nat) :
    j ∈ (b.store i x).touched ↔ j = i ∨ j ∈ b.touched := by
  simp [store]

end Buffer
