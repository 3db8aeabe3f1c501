import Mathlib.Data.List.AList
import Mathlib.Order.Lattice

/-! # Tables whose entries expire

A table maps keys to values that carry a deadline.  Nothing is removed when a deadline
passes: a read looks only at the entries that are still live (`live`), and from time to
time the others, and no more, are thrown out (`expire`, `lookup_expire_of_lt`).  What
holds of every entry that is made holds of every entry (`EveryEntry`).
-/
namespace ExpiryTable

variable {κ β τ : Type} [DecidableEq κ] [LinearOrder τ] (deadline : β → τ)

/-- The entry of a key, if its deadline is still to come. -/
def live (now : τ) (t : AList fun _ : κ => β) (k : κ) : Option β :=
  (t.lookup k).filter fun b => decide (now < deadline b)

/-- The table without the entries whose deadline has come. -/
def expire (now : τ) (t : AList fun _ : κ => β) : AList fun _ : κ => β where
  entries := t.entries.filter fun e => decide (now < deadline e.2)
  nodupKeys := t.nodupKeys.sublist List.filter_sublist

/-- Every entry of the table has the property. -/
def EveryEntry (P : β → Prop) (t : AList fun _ : κ => β) : Prop := ∀ k b, t.lookup k = some b → P b

/-- No deadline is later than `last`. -/
def ExpiresBy (last : τ) (t : AList fun _ : κ => β) : Prop :=
  ∀ k b, t.lookup k = some b → deadline b ≤ last

variable {deadline} {now last : τ} {t : AList fun _ : κ => β}

@[simp] theorem lookup_expire (now : τ) (t : AList fun _ : κ => β) (k : κ) :
    (expire deadline now t).lookup k = live deadline now t k := by
  apply Option.ext
  intro b
  simp only [live, Option.filter_eq_some_iff, decide_eq_true_eq]
  rw [← Option.mem_def, ← Option.mem_def, AList.mem_lookup_iff, AList.mem_lookup_iff]
  simp [expire]

theorem live_eq_some_iff {k : κ} {b : β} :
    live deadline now t k = some b ↔ t.lookup k = some b ∧ now < deadline b := by
  simp [live, Option.filter_eq_some_iff]

/-- **What is not due is not thrown out.** -/
theorem lookup_expire_of_lt {k : κ} {b : β} (h : t.lookup k = some b) (hlt : now < deadline b) :
    (expire deadline now t).lookup k = some b := by
  rw [lookup_expire, live_eq_some_iff]
  exact ⟨h, hlt⟩

/-- An entry is kept by another of the same value. -/
theorem lookup_insert_same {k k' : κ} {b : β} (h : t.lookup k = some b) :
    (t.insert k' b).lookup k = some b := by
  by_cases hk : k = k'
  · rw [hk, AList.lookup_insert]
  · rw [AList.lookup_insert_ne hk]
    exact h

/-- After an insertion, an entry is the new one or an old one. -/
theorem lookup_insert_cases {k k' : κ} {b b' : β} (h : (t.insert k b).lookup k' = some b') :
    k' = k ∧ b' = b ∨ t.lookup k' = some b' := by
  by_cases hk : k' = k
  · subst hk
    rw [AList.lookup_insert] at h
    exact .inl ⟨rfl, (Option.some.inj h).symm⟩
  · rw [AList.lookup_insert_ne hk] at h
    exact .inr h

section EveryEntry
variable {P : β → Prop}

theorem everyEntry_empty : EveryEntry P (∅ : AList fun _ : κ => β) := by
  intro k b hb
  rw [AList.lookup_empty] at hb
  cases hb

theorem EveryEntry.insert (h : EveryEntry P t) {b : β} (hb : P b) (k : κ) :
    EveryEntry P (t.insert k b) := by
  intro k' b' hb'
  by_cases hk : k' = k
  · subst hk
    rw [AList.lookup_insert, Option.some_inj] at hb'
    exact hb' ▸ hb
  · rw [AList.lookup_insert_ne hk] at hb'
    exact h k' b' hb'

theorem EveryEntry.expire (h : EveryEntry P t) (now : τ) :
    EveryEntry P (expire deadline now t) := by
  intro k b hb
  rw [lookup_expire, live_eq_some_iff] at hb
  exact h k b hb.1

end EveryEntry

theorem expiresBy_empty : ExpiresBy deadline last (∅ : AList fun _ : κ => β) :=
  everyEntry_empty (P := fun b => deadline b ≤ last)

theorem ExpiresBy.insert (h : ExpiresBy deadline last t) {b : β} (hb : deadline b ≤ last) (k : κ) :
    ExpiresBy deadline last (t.insert k b) :=
  EveryEntry.insert (P := fun b => deadline b ≤ last) h hb k

theorem ExpiresBy.expire (h : ExpiresBy deadline last t) (now : τ) :
    ExpiresBy deadline last (expire deadline now t) :=
  EveryEntry.expire (P := fun b => deadline b ≤ last) h now

end ExpiryTable
