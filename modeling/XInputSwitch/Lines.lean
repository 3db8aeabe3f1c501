import Mathlib.Data.List.Basic
import XInputSwitch.Trace

/-! # Lines in a stream

A stream arrives in pieces, and a line is handled as soon as its end has arrived
(`feed`): the pieces not yet handled wait in a buffer.  How the stream was cut into
pieces makes no difference (`run_feed`): the lines handled are those of the whole stream
(`cut`), in order, without the unfinished one.  An empty piece ends the stream (`serve`).
-/
namespace Lines

variable {α σ : Type} [DecidableEq α] (newline : α)

/-- The first line and what follows it. -/
def takeLine : List α → Option (List α × List α)
  | [] => none
  | a :: buf =>
    if a = newline then some ([], buf)
    else (takeLine buf).map fun (line, rest) => (a :: line, rest)

/-- An element in front of the first line, or of the unfinished one. -/
def push (a : α) : List (List α) × List α → List (List α) × List α
  | ([], tail) => ([], a :: tail)
  | (line :: lines, tail) => ((a :: line) :: lines, tail)

/-- The lines of a stream, and the unfinished one. -/
def cut : List α → List (List α) × List α
  | [] => ([], [])
  | a :: l => if a = newline then ([] :: (cut l).1, (cut l).2) else push a (cut l)

theorem length_lt_of_takeLine {buf line rest : List α}
    (h : takeLine newline buf = some (line, rest)) : rest.length < buf.length := by
  induction buf generalizing line with
  | nil => cases h
  | cons a buf ih =>
    rw [takeLine] at h
    split at h
    · obtain ⟨-, rfl⟩ := Prod.mk.inj (Option.some.inj h)
      exact Nat.lt_succ_self _
    · obtain ⟨⟨line', rest'⟩, htake, heq⟩ := Option.map_eq_some_iff.mp h
      obtain ⟨-, rfl⟩ := Prod.mk.inj heq
      exact Nat.lt_succ_of_lt (ih htake)

/-- Handles the lines of a buffer, as long as there are any; returns what is left. -/
def drain (handle : σ → List α → σ) (s : σ) (buf : List α) : σ × List α :=
  match _h : takeLine newline buf with
  | none => (s, buf)
  | some (line, rest) => drain handle (handle s line) rest
termination_by buf.length
decreasing_by exact length_lt_of_takeLine newline _h

/-- One piece of the stream. -/
def feed (handle : σ → List α → σ) (s : σ × List α) (piece : List α) : σ × List α :=
  drain newline handle s.1 (s.2 ++ piece)

theorem cut_of_takeLine (buf : List α) :
    cut newline buf = match takeLine newline buf with
      | none => ([], buf)
      | some (line, rest) => (line :: (cut newline rest).1, (cut newline rest).2) := by
  induction buf with
  | nil => rfl
  | cons a buf ih =>
    rw [cut, takeLine]
    split
    · rfl
    · rw [ih]
      cases takeLine newline buf with
      | none => rfl
      | some p => rfl

/-- The loop handles the lines of the buffer in order. -/
theorem drain_eq (handle : σ → List α → σ) (s : σ) (buf : List α) :
    drain newline handle s buf =
      ((cut newline buf).1.foldl handle s, (cut newline buf).2) := by
  induction s, buf using drain.induct newline handle with
  | case1 s buf hnone =>
    rw [drain, cut_of_takeLine, hnone]
    rfl
  | case2 s buf line rest hsome ih =>
    rw [drain, cut_of_takeLine, hsome]
    exact ih

/-- What is unfinished is completed by what follows. -/
theorem cut_append (l m : List α) :
    cut newline (l ++ m) =
      ((cut newline l).1 ++ (cut newline ((cut newline l).2 ++ m)).1,
        (cut newline ((cut newline l).2 ++ m)).2) := by
  induction l with
  | nil => rfl
  | cons a l ih =>
    rw [List.cons_append, cut, cut, ih]
    by_cases ha : a = newline
    · rw [if_pos ha, if_pos ha]
      rfl
    · rw [if_neg ha, if_neg ha]
      cases hl : cut newline l with
      | mk lines tail =>
        cases lines with
        | cons line lines => rfl
        | nil =>
          show push a _ = (_, _)
          simp [push, cut, ha]

/-- A single line, with its end. -/
theorem cut_line {l : List α} (h : newline ∉ l) : cut newline (l ++ [newline]) = ([l], []) := by
  induction l with
  | nil => simp [cut]
  | cons a l ih =>
    obtain ⟨ha, hl⟩ := not_or.mp (mt List.mem_cons.mpr h)
    rw [List.cons_append, cut, if_neg (Ne.symm ha), ih hl]
    rfl

theorem eq_append_of_takeLine {buf line rest : List α}
    (h : takeLine newline buf = some (line, rest)) : buf = line ++ newline :: rest := by
  induction buf generalizing line with
  | nil => cases h
  | cons a buf ih =>
    rw [takeLine] at h
    split at h
    · rename_i ha
      obtain ⟨rfl, rfl⟩ := Prod.mk.inj (Option.some.inj h)
      rw [ha, List.nil_append]
    · obtain ⟨⟨line', rest'⟩, htake, heq⟩ := Option.map_eq_some_iff.mp h
      obtain ⟨rfl, rfl⟩ := Prod.mk.inj heq
      rw [ih htake, List.cons_append]

/-- The line of a stream that is a single one is taken when all of it has arrived. -/
theorem takeLine_of_line {l : List α} (h : newline ∉ l) {buf rest line after : List α}
    (hstream : buf ++ rest = l ++ [newline])
    (htake : takeLine newline buf = some (line, after)) : line = l ∧ after = [] ∧ rest = [] := by
  have hcut := congrArg (fun stream => (cut newline stream).1) hstream
  simp only [cut_append newline buf, cut_line newline h] at hcut
  rw [cut_of_takeLine, htake, List.cons_append] at hcut
  obtain ⟨rfl, -⟩ := List.cons.inj hcut
  rw [eq_append_of_takeLine newline htake, List.append_assoc, List.cons_append] at hstream
  have htail := List.cons.inj (List.append_cancel_left hstream)
  exact ⟨rfl, List.append_eq_nil_iff.mp htail.2⟩

/-- What is unfinished has no end of a line. -/
theorem cut_unfinished (l : List α) :
    cut newline (cut newline l).2 = ([], (cut newline l).2) := by
  have h := cut_append newline l []
  rw [List.append_nil, List.append_nil] at h
  have hlines := congrArg Prod.fst h
  have htail := congrArg Prod.snd h
  exact Prod.ext (List.self_eq_append_right.mp hlines) htail.symm

/-- **The pieces make no difference.** -/
theorem run_feed (handle : σ → List α → σ) (s : σ) {buf : List α}
    (hbuf : cut newline buf = ([], buf)) (pieces : List (List α)) :
    Trace.run (feed newline handle) (s, buf) pieces =
      ((cut newline (buf ++ pieces.flatten)).1.foldl handle s,
        (cut newline (buf ++ pieces.flatten)).2) := by
  induction pieces generalizing s buf with
  | nil =>
    rw [List.flatten_nil, List.append_nil, hbuf]
    rfl
  | cons piece pieces ih =>
    rw [Trace.run_cons, feed, drain_eq, ih _ (cut_unfinished newline _), List.flatten_cons,
      ← List.append_assoc, cut_append newline (buf ++ piece), List.foldl_append]

/-- The lines of a stream are what stands between the ends of lines. -/
theorem cut_eq_splitOn (l : List α) :
    (cut newline l).1 ++ [(cut newline l).2] = l.splitOn newline := by
  induction l with
  | nil => rfl
  | cons a l ih =>
    rw [cut, List.splitOn, List.splitOnP_cons_eq_if_modifyHead]
    have hsplit : l.splitOnP (fun x => x == newline) = (cut newline l).1 ++ [(cut newline l).2] :=
      ih.symm
    rw [hsplit]
    by_cases ha : a = newline
    · rw [if_pos ha, if_pos (beq_iff_eq.mpr ha)]
      rfl
    · rw [if_neg ha, if_neg (by simpa using ha)]
      cases cut newline l with
      | mk lines tail => cases lines <;> rfl

/-- Pieces are taken until an empty one, which ends the stream. -/
def serve (handle : σ → List α → σ) (s : σ × List α) : List (List α) → σ × List α
  | [] => s
  | piece :: pieces =>
    if piece = [] then s else serve handle (feed newline handle s piece) pieces

theorem serve_eq_run (handle : σ → List α → σ) (s : σ × List α) {pieces : List (List α)}
    (h : ∀ piece ∈ pieces, piece ≠ []) :
    serve newline handle s pieces = Trace.run (feed newline handle) s pieces := by
  induction pieces generalizing s with
  | nil => rfl
  | cons piece pieces ih =>
    obtain ⟨hpiece, hpieces⟩ := List.forall_mem_cons.mp h
    rw [serve, if_neg hpiece, ih _ hpieces, Trace.run_cons]

end Lines
