import Mathlib.Data.List.Basic

/-! # A value read word by word while it is replaced

A reader takes the words of a value one after the other, first to last; between two of
them a writer may replace the whole value.  What the reader ends up with need not be any
of the values it was given, but it is not arbitrary: each word is that of a value
held at its moment, and later words come from the same value or a later one (`Torn`).

`Torn.nil`, `Torn.write` and `Torn.read` follow the two parties step by step; the rest
says what is left of the value: all of it if nothing was written in between
(`Torn.exact`), and a first part of the old value with the rest of the new one if it was
replaced once (`Torn.split`).
-/

variable {β : Type*}

/-- The words `taken` were read from a value that went through `history`, oldest first. -/
def Torn (history : List (List β)) (taken : List β) : Prop :=
  ∃ f : Nat → Nat, (∀ i j, i ≤ j → f i ≤ f j) ∧
    ∀ i b, taken[i]? = some b → ∃ v, history[f i]? = some v ∧ v[i]? = some b

namespace Torn
variable {history : List (List β)} {taken : List β}

/-- Before the first word is read. -/
protected theorem nil (history : List (List β)) : Torn history [] :=
  ⟨fun _ => 0, fun _ _ _ => Nat.le_refl 0, by simp⟩

/-- The value is replaced. -/
theorem write (h : Torn history taken) (v : List β) : Torn (history ++ [v]) taken := by
  obtain ⟨f, hmono, hread⟩ := h
  refine ⟨f, hmono, fun i b hb => ?_⟩
  obtain ⟨w, hw, hwb⟩ := hread i b hb
  obtain ⟨hlt, -⟩ := List.getElem?_eq_some_iff.mp hw
  exact ⟨w, by rw [List.getElem?_append_left hlt, hw], hwb⟩

/-- The next word is read, from the value held now. -/
theorem read {v : List β} {b : β} (h : Torn (history ++ [v]) taken)
    (hb : v[taken.length]? = some b) : Torn (history ++ [v]) (taken ++ [b]) := by
  obtain ⟨f, hmono, hread⟩ := h
  have hbound : ∀ i, i < taken.length → f i ≤ history.length := by
    intro i hi
    obtain ⟨w, hw, -⟩ := hread i taken[i] (List.getElem?_eq_getElem hi)
    obtain ⟨hlt, -⟩ := List.getElem?_eq_some_iff.mp hw
    simpa using Nat.le_of_lt_succ (by simpa using hlt)
  refine ⟨fun i => if i < taken.length then f i else history.length, ?_, ?_⟩
  · intro i j hij
    by_cases hj : j < taken.length
    · simp only [if_pos hj, if_pos (Nat.lt_of_le_of_lt hij hj)]
      exact hmono i j hij
    · by_cases hi : i < taken.length
      · simp only [if_pos hi, if_neg hj]
        exact hbound i hi
      · simp only [if_neg hi, if_neg hj, Nat.le_refl]
  · intro i c hc
    by_cases hi : i < taken.length
    · rw [List.getElem?_append_left hi] at hc
      simp only [if_pos hi]
      exact hread i c hc
    · obtain ⟨hlt, -⟩ := List.getElem?_eq_some_iff.mp hc
      obtain rfl : i = taken.length := by simp at hlt; omega
      rw [List.getElem?_concat_length] at hc
      obtain rfl := Option.some.inj hc
      exact ⟨v, by simp, hb⟩

/-- Every word is that of some value held meanwhile, in its place. -/
theorem exists_mem (h : Torn history taken) {i : Nat} {b : β} (hb : taken[i]? = some b) :
    ∃ v ∈ history, v[i]? = some b := by
  obtain ⟨f, -, hread⟩ := h
  obtain ⟨v, hv, hvb⟩ := hread i b hb
  exact ⟨v, List.mem_of_getElem? hv, hvb⟩

/-- **Nothing written, nothing torn.** -/
theorem exact {v : List β} (h : Torn [v] taken) (hlen : taken.length = v.length) :
    taken = v := by
  apply List.ext_getElem? fun i => ?_
  by_cases hi : i < taken.length
  · obtain ⟨w, hw, hwb⟩ := h.exists_mem (List.getElem?_eq_getElem hi)
    obtain rfl := List.mem_singleton.mp hw
    rw [hwb, List.getElem?_eq_getElem hi]
  · rw [List.getElem?_eq_none (by omega), List.getElem?_eq_none (by omega)]

/-- A step function that goes from 0 to 1 does so in one place. -/
theorem exists_tear {f : Nat → Nat} (hmono : ∀ i j, i ≤ j → f i ≤ f j) (n : Nat)
    (hle : ∀ i, i < n → f i ≤ 1) :
    ∃ k, k ≤ n ∧ (∀ i, i < k → f i = 0) ∧ ∀ i, k ≤ i → i < n → f i = 1 := by
  induction n with
  | zero => exact ⟨0, Nat.le_refl 0, by simp, by simp⟩
  | succ n ih =>
    obtain ⟨k, hk, hold, hnew⟩ := ih fun i hi => hle i (by omega)
    have hn := hle n (by omega)
    by_cases h0 : f n = 0
    · refine ⟨n + 1, Nat.le_refl _, fun i hi => ?_, fun i hi hi' => by omega⟩
      have := hmono i n (by omega)
      omega
    · refine ⟨k, by omega, hold, fun i hi hi' => ?_⟩
      rcases Nat.lt_or_ge i n with hlt | hge
      · exact hnew i hi hlt
      · obtain rfl : i = n := by omega
        omega

/-- **Replaced once, the value is torn in one place**: the words before it are old and
those from it on are new. -/
theorem split {u v : List β} (h : Torn [u, v] taken) (hu : taken.length = u.length)
    (hv : taken.length = v.length) : ∃ k, k ≤ taken.length ∧ taken = u.take k ++ v.drop k := by
  obtain ⟨f, hmono, hread⟩ := h
  have hle : ∀ i, i < taken.length → f i ≤ 1 := by
    intro i hi
    obtain ⟨w, hw, -⟩ := hread i taken[i] (List.getElem?_eq_getElem hi)
    obtain ⟨hlt, -⟩ := List.getElem?_eq_some_iff.mp hw
    simpa using Nat.le_of_lt_succ hlt
  obtain ⟨k, hk, hold, hnew⟩ := exists_tear hmono taken.length hle
  refine ⟨k, hk, List.ext_getElem? fun i => ?_⟩
  have hkl : (u.take k).length = k := by rw [List.length_take]; omega
  rcases Nat.lt_or_ge i taken.length with hi | hi
  · obtain ⟨w, hw, hwb⟩ := hread i taken[i] (List.getElem?_eq_getElem hi)
    rw [List.getElem?_eq_getElem hi, ← hwb]
    rcases Nat.lt_or_ge i k with hik | hik
    · rw [hold i hik] at hw
      obtain rfl : u = w := by simpa using hw
      rw [List.getElem?_append_left (by omega), List.getElem?_take_of_lt hik]
    · rw [hnew i hik hi] at hw
      obtain rfl : v = w := by simpa using hw
      rw [List.getElem?_append_right (by omega), List.getElem?_drop, hkl]
      congr 1
      omega
  · rw [List.getElem?_eq_none hi, List.getElem?_eq_none (by simp; omega)]

end Torn
