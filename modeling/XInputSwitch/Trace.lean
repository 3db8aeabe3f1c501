import Mathlib.Data.List.Basic
import Mathlib.Data.List.Induction
import Mathlib.Order.Defs.PartialOrder

/-! # Runs of deterministic machines

A machine is a transition function `next : σ → ε → σ`; a run feeds it a list of
events.  What a run shows its environment is read off step by step (`observe`):
a view lists what one step emits, and the observations of a run are those of its
steps, in order.

The three rules used throughout are here: runs and observations split at any
point (`run_append`, `observe_append`), an invariant of the step is an invariant
of the run (`run_invariant`, `run_observe_invariant` if it speaks of what was
shown, and `run_observe_clock` if it speaks of the time), and a map between
machines that each step respects respects every run (`run_simulates`,
`observe_simulates`).
-/
namespace Trace

variable {σ ε ω τ δ : Type*} (next : σ → ε → σ)

/-- The state after the events `es`, oldest first. -/
def run (s : σ) (es : List ε) : σ := es.foldl next s

/-- Everything the steps of a run show, in order: `view s e` is what the step on
`e` from `s` shows. -/
def observe (view : σ → ε → List ω) : σ → List ε → List ω
  | _, [] => []
  | s, e :: es => view s e ++ observe view (next s e) es

/-- The states some list of events leads to. -/
def Reachable (s₀ s : σ) : Prop := ∃ es, run next s₀ es = s

@[simp] theorem run_nil (s : σ) : run next s [] = s := rfl

@[simp] theorem run_cons (s : σ) (e : ε) (es : List ε) :
    run next s (e :: es) = run next (next s e) es := rfl

theorem run_append (s : σ) (es fs : List ε) :
    run next s (es ++ fs) = run next (run next s es) fs := List.foldl_append

section Observations
variable {next} (view : σ → ε → List ω)

@[simp] theorem observe_nil (s : σ) : observe next view s [] = [] := rfl

@[simp] theorem observe_cons (s : σ) (e : ε) (es : List ε) :
    observe next view s (e :: es) = view s e ++ observe next view (next s e) es := rfl

theorem observe_append (s : σ) (es fs : List ε) :
    observe next view s (es ++ fs) =
      observe next view s es ++ observe next view (run next s es) fs := by
  induction es generalizing s with
  | nil => rfl
  | cons e es ih => simp only [List.cons_append, observe_cons, run_cons, ih, List.append_assoc]

variable (next) in
/-- A view that does not look at the state. -/
theorem observe_events (tr : ε → List ω) (s : σ) (es : List ε) :
    observe next (fun _ => tr) s es = es.flatMap tr := by
  induction es generalizing s with
  | nil => rfl
  | cons e es ih => rw [observe_cons, ih, List.flatMap_cons]

theorem observe_map {ω' : Type*} (f : ω → ω') (s : σ) (es : List ε) :
    observe next (fun s e => (view s e).map f) s es = (observe next view s es).map f := by
  induction es generalizing s with
  | nil => rfl
  | cons e es ih => rw [observe_cons, observe_cons, ih, List.map_append]

theorem observe_filterMap {ω' : Type*} (f : ω → Option ω') (s : σ) (es : List ε) :
    observe next (fun s e => (view s e).filterMap f) s es =
      (observe next view s es).filterMap f := by
  induction es generalizing s with
  | nil => rfl
  | cons e es ih => rw [observe_cons, observe_cons, ih, List.filterMap_append]

end Observations

section Invariants
variable {next}

/-- **An invariant of the step is an invariant of the run.** -/
theorem run_invariant {I : σ → Prop} (hstep : ∀ s e, I s → I (next s e)) {s : σ} (hs : I s)
    (es : List ε) : I (run next s es) := by
  induction es generalizing s with
  | nil => exact hs
  | cons e es ih => exact ih (hstep s e hs)

/-- The same if the events of the run are known to satisfy a condition. -/
theorem run_invariant_of_forall {I : σ → Prop} {P : ε → Prop}
    (hstep : ∀ s e, P e → I s → I (next s e)) {s : σ} (hs : I s) {es : List ε}
    (hes : ∀ e ∈ es, P e) : I (run next s es) := by
  induction es generalizing s with
  | nil => exact hs
  | cons e es ih =>
    exact ih (hstep s e (hes e (.head es)) hs) fun e' he' => hes e' (.tail e he')

theorem Reachable.invariant {I : σ → Prop} {s₀ s : σ} (h : Reachable next s₀ s) (h₀ : I s₀)
    (hstep : ∀ s e, I s → I (next s e)) : I s := by
  obtain ⟨es, rfl⟩ := h
  exact run_invariant hstep h₀ es

/-- An invariant may speak of everything shown so far. -/
theorem run_observe_invariant {J : σ → List ω → Prop} {view : σ → ε → List ω}
    (hstep : ∀ s shown e, J s shown → J (next s e) (shown ++ view s e)) {s : σ} (hs : J s [])
    (es : List ε) : J (run next s es) (observe next view s es) := by
  induction es using List.reverseRecOn with
  | nil => exact hs
  | append_singleton es e ih =>
    rw [run_append, observe_append]
    simpa using hstep _ _ e ih

/-- Or of what two views have shown. -/
theorem run_observe_invariant₂ {ω' : Type*} {J : σ → List ω → List ω' → Prop}
    {view : σ → ε → List ω} {view' : σ → ε → List ω'}
    (hstep : ∀ s shown shown' e, J s shown shown' →
      J (next s e) (shown ++ view s e) (shown' ++ view' s e))
    {s : σ} (hs : J s [] []) (es : List ε) :
    J (run next s es) (observe next view s es) (observe next view' s es) := by
  induction es using List.reverseRecOn with
  | nil => exact hs
  | append_singleton es e ih =>
    rw [run_append, observe_append, observe_append]
    simpa using hstep _ _ _ e ih

/-- Or of the time, if events carry readings of a clock that never goes back: a step may
rely on the invariant at its own reading, and what holds at one time holds later. -/
theorem run_observe_clock {κ : Type*} [Preorder κ] {J : κ → σ → List ω → Prop}
    {view : σ → ε → List ω} {clock : ε → Option κ}
    (hlater : ∀ t t' s shown, t ≤ t' → J t s shown → J t' s shown)
    (hstep : ∀ t s shown e, (∀ now ∈ clock e, now = t) → J t s shown →
      J t (next s e) (shown ++ view s e))
    {t : κ} {s : σ} {shown : List ω} (hs : J t s shown) {es : List ε}
    (hclock : (es.filterMap clock).Pairwise (· ≤ ·)) (hfrom : ∀ now ∈ es.filterMap clock, t ≤ now) :
    ∃ t', J t' (run next s es) (shown ++ observe next view s es) := by
  induction es generalizing t s shown with
  | nil => exact ⟨t, by simpa using hs⟩
  | cons e es ih =>
    rw [observe_cons, ← List.append_assoc, run_cons]
    cases he : clock e with
    | none =>
      rw [List.filterMap_cons_none he] at hclock hfrom
      exact ih (hstep t s shown e (by simp [he]) hs) hclock hfrom
    | some now =>
      rw [List.filterMap_cons_some he] at hclock hfrom
      obtain ⟨hnow, hclock⟩ := List.pairwise_cons.mp hclock
      have hs' : J now s shown := hlater t now s shown (hfrom now (.head _)) hs
      exact ih (hstep now s shown e (by simp [he]) hs') hclock hnow

/-- Steps that lower a rank are bounded in number by it; `view` shows them. -/
theorem observe_length_le_rank {I : σ → Prop} {rank : σ → Nat} {view : σ → ε → List ω}
    (hI : ∀ s e, I s → I (next s e))
    (hrank : ∀ s e, I s → rank (next s e) + (view s e).length ≤ rank s) {s : σ} (hs : I s)
    (es : List ε) : rank (run next s es) + (observe next view s es).length ≤ rank s := by
  induction es generalizing s with
  | nil => exact Nat.le_refl _
  | cons e es ih =>
    have hstep := hrank s e hs
    have hrest := ih (hI s e hs)
    rw [observe_cons, List.length_append, run_cons]
    omega

end Invariants

/-! ## Simulation

One machine explains another: `abs` maps the states and `tr` each event to the
events, possibly none, that it amounts to on the other side.  `I` is the
representation invariant under which the map is meaningful. -/

section Simulation
variable {next} {next' : τ → δ → τ} {abs : σ → τ} {tr : ε → List δ} {I : σ → Prop}

theorem run_simulates (hI : ∀ s e, I s → I (next s e))
    (hstep : ∀ s e, I s → abs (next s e) = run next' (abs s) (tr e)) {s : σ} (hs : I s)
    (es : List ε) : abs (run next s es) = run next' (abs s) (es.flatMap tr) := by
  induction es generalizing s with
  | nil => rfl
  | cons e es ih =>
    rw [run_cons, ih (hI s e hs), hstep s e hs, List.flatMap_cons, run_append]

theorem observe_simulates {view : σ → ε → List ω} {view' : τ → δ → List ω}
    (hI : ∀ s e, I s → I (next s e))
    (hstep : ∀ s e, I s → abs (next s e) = run next' (abs s) (tr e))
    (hview : ∀ s e, I s → view s e = observe next' view' (abs s) (tr e)) {s : σ} (hs : I s)
    (es : List ε) : observe next view s es = observe next' view' (abs s) (es.flatMap tr) := by
  induction es generalizing s with
  | nil => rfl
  | cons e es ih =>
    rw [observe_cons, ih (hI s e hs), hview s e hs, hstep s e hs, List.flatMap_cons,
      observe_append]

end Simulation

/-- A component of a machine runs on the events that reach it, which may depend on
the state of the rest (`view`). -/
theorem run_component {next : σ → ε → σ} {next' : τ → δ → τ} {proj : σ → τ}
    {view : σ → ε → List δ} (hstep : ∀ s e, proj (next s e) = run next' (proj s) (view s e))
    (s : σ) (es : List ε) : proj (run next s es) = run next' (proj s) (observe next view s es) := by
  induction es generalizing s with
  | nil => rfl
  | cons e es ih => rw [run_cons, ih, hstep, observe_cons, run_append]

/-- And shows what its events show. -/
theorem observe_component {next : σ → ε → σ} {next' : τ → δ → τ} {proj : σ → τ}
    {view : σ → ε → List δ} {shown : σ → ε → List ω} {shown' : τ → δ → List ω}
    (hstep : ∀ s e, proj (next s e) = run next' (proj s) (view s e))
    (hshown : ∀ s e, observe next' shown' (proj s) (view s e) = shown s e) (s : σ) (es : List ε) :
    observe next' shown' (proj s) (observe next view s es) = observe next shown s es := by
  induction es generalizing s with
  | nil => rfl
  | cons e es ih => rw [observe_cons, observe_append, hshown, ← hstep, ih, observe_cons]

/-! ## Conditions on steps -/

section Always
variable {P Q : σ → ε → Prop} {I : σ → Prop}

/-- Every step of the run satisfies `P`, which sees the state before the step. -/
def Always (P : σ → ε → Prop) : σ → List ε → Prop
  | _, [] => True
  | s, e :: es => P s e ∧ Always P (next s e) es

instance [∀ s e, Decidable (P s e)] (s : σ) (es : List ε) : Decidable (Always next P s es) :=
  match es with
  | [] => .isTrue trivial
  | e :: es => @instDecidableAnd _ _ _ (instDecidableAlways (next s e) es)

variable {next}

theorem always_append {s : σ} {es fs : List ε} :
    Always next P s (es ++ fs) ↔ Always next P s es ∧ Always next P (run next s es) fs := by
  induction es generalizing s with
  | nil => simp [Always]
  | cons e es ih => simp [Always, ih, and_assoc]

theorem always_and {s : σ} {es : List ε} :
    Always next (fun s e => P s e ∧ Q s e) s es ↔ Always next P s es ∧ Always next Q s es := by
  induction es generalizing s with
  | nil => simp [Always]
  | cons e es ih =>
    simp only [Always, ih]
    exact and_and_and_comm

/-- In other words, at every place of the run. -/
theorem always_iff {s : σ} {es : List ε} :
    Always next P s es ↔ ∀ pre e post, es = pre ++ e :: post → P (run next s pre) e := by
  constructor
  · rintro h pre e post rfl
    exact (always_append.mp h).2.1
  · intro h
    induction es generalizing s with
    | nil => exact trivial
    | cons e es ih =>
      refine ⟨h [] e es rfl, ih fun pre e' post hes => ?_⟩
      exact h (e :: pre) e' post (by rw [hes]; rfl)

variable (next) in
/-- Every step knows its place in the run. -/
theorem always_at (s₀ : σ) (es : List ε) :
    Always next (fun s e => ∃ pre post, es = pre ++ e :: post ∧ run next s₀ pre = s) s₀ es :=
  always_iff.mpr fun pre _ post h => ⟨pre, post, h, rfl⟩

/-- A condition on the events alone. -/
theorem always_of_forall {es : List ε} (h : ∀ e ∈ es, ∀ s, P s e) (s : σ) :
    Always next P s es := by
  induction es generalizing s with
  | nil => exact trivial
  | cons e es ih => exact ⟨h e (.head es) s, ih (fun e' he' => h e' (.tail e he')) (next s e)⟩

/-- A condition on a part of the state that takes every step by itself. -/
theorem Always.of_component {next' : τ → ε → τ} {proj : σ → τ} {P' : τ → ε → Prop}
    (hproj : ∀ s e, proj (next s e) = next' (proj s) e) {s : σ} {es : List ε}
    (h : Always next' P' (proj s) es) : Always next (fun s e => P' (proj s) e) s es := by
  induction es generalizing s with
  | nil => exact trivial
  | cons e es ih => exact ⟨h.1, ih (by rw [hproj]; exact h.2)⟩

/-- An invariant may rely on the condition its steps satisfy, and gives conclusions
about each of them. -/
theorem Always.imp (hI : ∀ s e, I s → P s e → I (next s e)) (hQ : ∀ s e, I s → P s e → Q s e)
    {s : σ} (hs : I s) {es : List ε} (h : Always next P s es) : Always next Q s es := by
  induction es generalizing s with
  | nil => exact trivial
  | cons e es ih => exact ⟨hQ s e hs h.1, ih (hI s e hs h.1) h.2⟩

/-- An invariant of the steps that satisfy `P`. -/
theorem Always.run_invariant (hI : ∀ s e, I s → P s e → I (next s e)) {s : σ} (hs : I s)
    {es : List ε} (h : Always next P s es) : I (run next s es) := by
  induction es generalizing s with
  | nil => exact hs
  | cons e es ih => exact ih (hI s e hs h.1) h.2

/-- Another machine explains a run whose steps satisfy `P`: `tr` gives the events that a
step amounts to there, and may depend on the state. -/
theorem Always.run_simulates {next' : τ → δ → τ} {abs : σ → τ} {tr : σ → ε → List δ}
    (hI : ∀ s e, I s → P s e → I (next s e))
    (hstep : ∀ s e, I s → P s e → abs (next s e) = run next' (abs s) (tr s e))
    {s : σ} (hs : I s) {es : List ε} (h : Always next P s es) :
    abs (run next s es) = run next' (abs s) (observe next tr s es) := by
  induction es generalizing s with
  | nil => rfl
  | cons e es ih =>
    rw [run_cons, ih (hI s e hs h.1) h.2, hstep s e hs h.1, observe_cons, run_append]

/-- What it shows may come later in one machine than in the other: `due s` has been shown
on the other side and not yet here. -/
theorem Always.observe_simulates {next' : τ → δ → τ} {abs : σ → τ} {tr : σ → ε → List δ}
    {view : σ → ε → List ω} {view' : τ → δ → List ω} {due : σ → List ω}
    (hI : ∀ s e, I s → P s e → I (next s e))
    (hstep : ∀ s e, I s → P s e → abs (next s e) = run next' (abs s) (tr s e))
    (hview : ∀ s e, I s → P s e →
      due s ++ observe next' view' (abs s) (tr s e) = view s e ++ due (next s e))
    {s : σ} (hs : I s) {es : List ε} (h : Always next P s es) :
    due s ++ observe next' view' (abs s) (observe next tr s es) =
      observe next view s es ++ due (run next s es) := by
  induction es generalizing s with
  | nil => simp
  | cons e es ih =>
    rw [observe_cons, observe_append, ← List.append_assoc, hview s e hs h.1, List.append_assoc,
      ← hstep s e hs h.1, ih (hI s e hs h.1) h.2, observe_cons, run_cons, List.append_assoc]

/-- If each step from a state in `I` stays in `I` exactly when it satisfies `P`, then a
run stays in `I` all along exactly when all its steps satisfy `P`. -/
theorem forall_prefix_iff_always (hstep : ∀ s e, I s → (I (next s e) ↔ P s e)) {s : σ} (hs : I s)
    (es : List ε) : (∀ pre, pre <+: es → I (Trace.run next s pre)) ↔ Always next P s es := by
  induction es generalizing s with
  | nil =>
    refine ⟨fun _ => trivial, fun _ pre hpre => ?_⟩
    rw [List.prefix_nil.mp hpre]
    exact hs
  | cons e es ih =>
    constructor
    · intro hall
      have hnext : I (next s e) := hall [e] (List.prefix_append [e] es)
      refine ⟨(hstep s e hs).mp hnext, (ih hnext).mp fun pre hpre => ?_⟩
      exact hall (e :: pre) (List.prefix_cons_inj e |>.mpr hpre)
    · rintro ⟨hP, halways⟩ pre hpre
      have hnext : I (next s e) := (hstep s e hs).mpr hP
      cases pre with
      | nil => exact hs
      | cons e' pre =>
        obtain ⟨rfl, htail⟩ := List.cons_prefix_cons.mp hpre
        exact (ih hnext).mpr halways pre htail

end Always

end Trace
