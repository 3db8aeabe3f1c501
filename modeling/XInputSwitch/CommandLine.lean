import Mathlib.Algebra.GroupWithZero.Nat
import XInputSwitch.Trace

/-! # Command lines

How the Microsoft C runtime splits a command line into arguments.  Blanks separate
arguments outside quotation marks.  Before a quotation mark, `2n` backslashes stand for `n`
and the mark is a delimiter, and `2n + 1` stand for `n` and the mark is text; all other
backslashes are text.

Count two for a backslash and one for a quotation mark that are text.  Whichever way it is
read, a quotation mark then costs as much as there are backslashes before it
(`step_quote_weight`), and no other character costs anything.

The other way round, `subprocess.list2cmdline` of Python writes a line from which every list of
arguments is read back (`split_list2cmdline`).
-/
namespace CommandLine

/-- The state between two characters.  An argument has begun with its first character or
quotation mark; backslashes wait for what comes after them. -/
structure Scan where
  done : List (List Char)
  current : Option (List Char)
  quoted : Bool
  slashes : Nat
deriving DecidableEq

namespace Scan

def start : Scan := ⟨[], none, false, 0⟩

def put (s : Scan) (text : List Char) : Scan :=
  { s with current := some (s.current.getD [] ++ text) }

/-- The backslashes that waited are text. -/
def flush (s : Scan) : Scan :=
  if s.slashes = 0 then s else { s.put (List.replicate s.slashes '\\') with slashes := 0 }

/-- The end of an argument, if there is one. -/
def close (s : Scan) : Scan :=
  match s.current with
  | none => s
  | some argument => { s with done := s.done ++ [argument], current := none }

def step (s : Scan) (c : Char) : Scan :=
  if c = '\\' then { s with slashes := s.slashes + 1 }
  else if c = '"' then
    let half := { s.put (List.replicate (s.slashes / 2) '\\') with slashes := 0 }
    if s.slashes % 2 = 0 then { half with quoted := !s.quoted } else half.put ['"']
  else if (c = ' ' ∨ c = '\t') ∧ s.quoted = false then s.flush.close
  else s.flush.put [c]

end Scan

/-- The arguments of a command line. -/
def split (line : List Char) : List (List Char) :=
  (Trace.run Scan.step .start line).flush.close.done

/-! ## Counting -/

def weight (text : List Char) : Nat := 2 * text.count '\\' + text.count '"'

@[simp] theorem weight_nil : weight [] = 0 := rfl

@[simp] theorem weight_append (x y : List Char) : weight (x ++ y) = weight x + weight y := by
  simp only [weight, List.count_append]
  omega

theorem weight_flatten (texts : List (List Char)) :
    weight texts.flatten = (texts.map weight).sum := by
  induction texts with
  | nil => rfl
  | cons text texts ih => rw [List.flatten_cons, weight_append, ih, List.map_cons, List.sum_cons]

theorem weight_slashes (n : Nat) : weight (List.replicate n '\\') = 2 * n := by
  simp [weight, List.count_replicate]

theorem weight_other {c : Char} (hslash : c ≠ '\\') (hquote : c ≠ '"') : weight [c] = 0 := by
  simp [weight, hslash, hquote]

namespace Scan

/-- What was read so far, with what waits. -/
def weight (s : Scan) : Nat :=
  CommandLine.weight s.done.flatten + CommandLine.weight (s.current.getD []) + 2 * s.slashes

theorem weight_put (s : Scan) (text : List Char) :
    (s.put text).weight = s.weight + CommandLine.weight text := by
  simp only [weight, put, Option.getD_some, weight_append]
  omega

@[simp] theorem slashes_flush (s : Scan) : s.flush.slashes = 0 := by
  unfold flush
  split
  · assumption
  · rfl

theorem weight_flush (s : Scan) : s.flush.weight = s.weight := by
  unfold flush
  split
  · rfl
  · simp only [weight, put, Option.getD_some, weight_append, weight_slashes]
    omega

@[simp] theorem slashes_close (s : Scan) : s.close.slashes = s.slashes := by
  unfold close
  split <;> rfl

theorem weight_close (s : Scan) : s.close.weight = s.weight := by
  unfold close
  split
  · rfl
  · rename_i argument hcurrent
    simp [weight, hcurrent]

theorem current_close (s : Scan) : s.close.current = none := by
  unfold close
  split
  · assumption
  · rfl

theorem step_slash (s : Scan) : s.step '\\' = { s with slashes := s.slashes + 1 } := rfl

/-- **What a quotation mark costs.** -/
theorem step_quote_weight (s : Scan) :
    (s.step '"').weight + s.slashes = s.weight ∧ (s.step '"').slashes = 0 := by
  let half : Scan := { s.put (List.replicate (s.slashes / 2) '\\') with slashes := 0 }
  have hhalf : half.weight + 2 * (s.slashes - s.slashes / 2) = s.weight := by
    simp only [half, weight, put, Option.getD_some, weight_append, weight_slashes]
    omega
  have hstep : s.step '"' =
      if s.slashes % 2 = 0 then { half with quoted := !s.quoted } else half.put ['"'] := rfl
  rw [hstep]
  split
  · have htoggle : ({ half with quoted := !s.quoted } : Scan).weight = half.weight := rfl
    exact ⟨by omega, rfl⟩
  · have hput := half.weight_put ['"']
    have hmark : CommandLine.weight ['"'] = 1 := rfl
    exact ⟨by omega, rfl⟩

theorem step_other_weight (s : Scan) {c : Char} (hslash : c ≠ '\\') (hquote : c ≠ '"') :
    (s.step c).weight = s.weight ∧ (s.step c).slashes = 0 := by
  unfold step
  rw [if_neg hslash, if_neg hquote]
  split
  · exact ⟨by rw [weight_close, weight_flush], by rw [slashes_close, slashes_flush]⟩
  · refine ⟨?_, slashes_flush s⟩
    rw [weight_put, weight_flush, weight_other hslash hquote, Nat.add_zero]

theorem step_blank_weight (s : Scan) :
    (s.step ' ').weight = s.weight ∧ (s.step ' ').slashes = 0 :=
  s.step_other_weight (by decide) (by decide)

end Scan

theorem weight_split (line : List Char) :
    weight (split line).flatten = (Trace.run Scan.step .start line).weight := by
  have hweight := (Trace.run Scan.step .start line).flush.weight_close
  rw [Scan.weight_flush] at hweight
  rw [← hweight, Scan.weight, Scan.current_close, Scan.slashes_close, Scan.slashes_flush]
  rfl

/-! ## Writing a command line

Arguments with blanks are put between quotation marks, and backslashes are doubled exactly where
a quotation mark comes after them. -/

/-- The text of an argument, `k` backslashes of it waiting for what comes after them. -/
def escape (quoted : Bool) : Nat → List Char → List Char
  | k, [] => List.replicate (if quoted then 2 * k else k) '\\'
  | k, c :: text =>
    if c = '\\' then escape quoted (k + 1) text
    else if c = '"' then List.replicate (2 * k + 1) '\\' ++ '"' :: escape quoted 0 text
    else List.replicate k '\\' ++ c :: escape quoted 0 text

/-- Whether an argument needs quotation marks. -/
def needsQuotes (argument : List Char) : Bool :=
  argument.contains ' ' || argument.contains '\t' || argument.isEmpty

def quote (argument : List Char) : List Char :=
  if needsQuotes argument then '"' :: (escape true 0 argument ++ ['"'])
  else escape false 0 argument

def list2cmdline (arguments : List (List Char)) : List Char :=
  [' '].intercalate (arguments.map quote)

namespace Scan

theorem run_slashes (s : Scan) (k : Nat) :
    Trace.run step s (List.replicate k '\\') = { s with slashes := s.slashes + k } := by
  induction k generalizing s with
  | zero => rfl
  | succ k ih =>
    rw [List.replicate_succ, Trace.run_cons, ih, step_slash]
    simp only [Scan.mk.injEq, true_and]
    omega

theorem quoted_flush (s : Scan) : s.flush.quoted = s.quoted := by
  unfold flush
  split <;> rfl

theorem step_blank {s : Scan} (h : s.quoted = false) : s.step ' ' = s.flush.close := by
  simp [step, h]

/-- A quotation mark after an odd number of backslashes is text. -/
theorem run_escaped_quote (done : List (List Char)) (current : Option (List Char)) (quoted : Bool)
    (k : Nat) (rest : List Char) :
    Trace.run step ⟨done, current, quoted, 0⟩ (List.replicate (2 * k + 1) '\\' ++ '"' :: rest) =
      Trace.run step ⟨done, some (current.getD [] ++ List.replicate k '\\' ++ ['"']), quoted, 0⟩
        rest := by
  have hhalf : (2 * k + 1) / 2 = k := by omega
  rw [Trace.run_append, run_slashes, Trace.run_cons]
  simp [step, put, hhalf]

/-- Any other character makes the backslashes before it text. -/
theorem run_other {c : Char} (hslash : c ≠ '\\') (hquote : c ≠ '"')
    (done : List (List Char)) (current : Option (List Char)) {quoted : Bool}
    (hblank : quoted = true ∨ (c ≠ ' ' ∧ c ≠ '\t')) (k : Nat) (rest : List Char) :
    Trace.run step ⟨done, current, quoted, 0⟩ (List.replicate k '\\' ++ c :: rest) =
      Trace.run step ⟨done, some (current.getD [] ++ List.replicate k '\\' ++ [c]), quoted, 0⟩
        rest := by
  have hnot : ¬ ((c = ' ' ∨ c = '\t') ∧ quoted = false) := by
    rcases hblank with rfl | ⟨hspace, htab⟩
    · simp
    · simp [hspace, htab]
  rw [Trace.run_append, run_slashes, Trace.run_cons]
  by_cases hk : k = 0 <;> simp [step, put, flush, hslash, hquote, hnot, hk]

theorem run_escape_quoted (text : List Char) (done : List (List Char)) (current : List Char)
    (k : Nat) :
    Trace.run step ⟨done, some current, true, 0⟩ (escape true k text ++ ['"']) =
      ⟨done, some (current ++ List.replicate k '\\' ++ text), false, 0⟩ := by
  induction text generalizing k current with
  | nil =>
    have hhalf : 2 * k / 2 = k := by omega
    rw [escape, if_pos rfl, Trace.run_append, run_slashes, Trace.run_cons, Trace.run_nil]
    simp [step, put, hhalf]
  | cons c text ih =>
    unfold escape
    by_cases hslash : c = '\\'
    · rw [if_pos hslash, ih]
      simp [hslash, List.replicate_succ']
    · rw [if_neg hslash]
      by_cases hquote : c = '"'
      · rw [if_pos hquote, List.append_assoc, List.cons_append, run_escaped_quote, ih]
        simp [hquote]
      · rw [if_neg hquote, List.append_assoc, List.cons_append,
          run_other hslash hquote done _ (.inl rfl), ih]
        simp

/-- Outside quotation marks, the last backslashes of an argument still wait. -/
theorem run_escape_plain {text : List Char} (hspace : ' ' ∉ text) (htab : '\t' ∉ text)
    (done : List (List Char)) (current : Option (List Char)) {k : Nat}
    (hstarted : current = none → k ≠ 0 ∨ text ≠ []) :
    (Trace.run step ⟨done, current, false, 0⟩ (escape false k text)).flush =
      ⟨done, some (current.getD [] ++ List.replicate k '\\' ++ text), false, 0⟩ := by
  induction text generalizing k current with
  | nil =>
    rw [escape, if_neg Bool.false_ne_true, run_slashes]
    by_cases hk : k = 0
    · cases current with
      | none => simp [hk] at hstarted
      | some current => simp [flush, hk]
    · simp [flush, put, hk]
  | cons c text ih =>
    rw [List.mem_cons, not_or] at hspace htab
    unfold escape
    by_cases hslash : c = '\\'
    · rw [if_pos hslash, ih hspace.2 htab.2 current (by simp)]
      simp [hslash, List.replicate_succ']
    · rw [if_neg hslash]
      by_cases hquote : c = '"'
      · rw [if_pos hquote, run_escaped_quote, ih hspace.2 htab.2 _ (by simp)]
        simp [hquote]
      · rw [if_neg hquote, run_other hslash hquote done _
          (.inr ⟨fun h => hspace.1 h.symm, fun h => htab.1 h.symm⟩), ih hspace.2 htab.2 _ (by simp)]
        simp

/-- **What was quoted is read back.** -/
theorem run_quote (argument : List Char) (done : List (List Char)) :
    (Trace.run step ⟨done, none, false, 0⟩ (quote argument)).flush =
      ⟨done, some argument, false, 0⟩ := by
  unfold quote
  split
  · have hopen : step ⟨done, none, false, 0⟩ '"' = ⟨done, some [], true, 0⟩ := by
      simp [step, put]
    rw [Trace.run_cons, hopen, run_escape_quoted]
    simp [flush]
  · rename_i hplain
    simp only [needsQuotes, Bool.or_eq_true, List.contains_iff_mem, List.isEmpty_iff,
      not_or] at hplain
    rw [run_escape_plain hplain.1.1 hplain.1.2 done none fun _ => .inr hplain.2]
    simp

theorem run_list2cmdline (arguments : List (List Char)) (done : List (List Char)) :
    (Trace.run step ⟨done, none, false, 0⟩ (list2cmdline arguments)).flush.close.done =
      done ++ arguments := by
  induction arguments generalizing done with
  | nil => exact (List.append_nil done).symm
  | cons a arguments ih =>
    cases arguments with
    | nil =>
      have hline : list2cmdline [a] = quote a := by simp [list2cmdline, List.intercalate]
      rw [hline, run_quote]
      rfl
    | cons b arguments =>
      have hline : list2cmdline (a :: b :: arguments) =
          quote a ++ ' ' :: list2cmdline (b :: arguments) := by
        simp [list2cmdline, List.intercalate]
      have hquoted : (Trace.run step ⟨done, none, false, 0⟩ (quote a)).quoted = false := by
        rw [← quoted_flush, run_quote]
      have hclose : (⟨done, some a, false, 0⟩ : Scan).close = ⟨done ++ [a], none, false, 0⟩ := rfl
      rw [hline, Trace.run_append, Trace.run_cons, step_blank hquoted, run_quote, hclose, ih]
      simp

end Scan

/-- **Every list of arguments survives.** -/
theorem split_list2cmdline (arguments : List (List Char)) :
    split (list2cmdline arguments) = arguments :=
  Scan.run_list2cmdline arguments []

end CommandLine
