import Mathlib.Data.List.Chain
import Mathlib.Tactic.Linarith
import XInputSwitch.Bridge

/-! # When the bridge writes

While the window lacks focus or the controller is lost, the loop must not stream, and
the HOME packets it makes up itself must stay within their pulses.  Five variables
carry this from iteration to iteration; two of them are deadlines that outlive the
branch they were set in.

What happened so far is read off the run: the times at which pulses were started
(`pulseStarts`), and what the iterations with a controller saw of the focus
(`focusSeen`).  `PulseInv` and `FocusInv` tie the variables to these histories, and the
theorem speaks of the histories only.
-/
namespace XInputSwitch

/-- The clock of an event. -/
def LoopEvent.clock : LoopEvent → List ℚ
  | .iteration i => [i.now]
  | .keyboardInterrupt => []

/-- The window has the focus, or none was given. -/
def Iteration.focused (args : Args) (i : Iteration) : Bool := !given args.window || i.focusOk

namespace Bridge

/-- The iteration finds its controller. -/
def connected (s : Bridge) (i : Iteration) : Bool :=
  s.status = .running && s.pad.any fun pad => pad.ok i

/-- The iteration finds that its controller is lost. -/
def disconnected (s : Bridge) (i : Iteration) : Bool :=
  s.status = .running && s.pad.any fun pad => !pad.ok i

/-- The iteration ends the session by the exit chord. -/
def exits (args : Args) (s : Bridge) (i : Iteration) : Bool :=
  given args.exitChordSignalFile && s.pad.any fun pad => pad.exitChordPressed i

/-- The time of an iteration that starts a pulse of HOME packets because the controller
is lost. -/
def pulseStarts (args : Args) (s : Bridge) : LoopEvent → List ℚ
  | .iteration i =>
    if s.disconnected i ∧ args.disconnectAction = .home ∧
        i.now - s.lastDisconnectHome ≥ args.homeCooldown then [i.now]
    else []
  | .keyboardInterrupt => []

/-- What an iteration with a controller sees of the focus, and when. -/
def focusSeen (args : Args) (s : Bridge) : LoopEvent → List (ℚ × Bool)
  | .iteration i => if s.connected i then [(i.now, i.focused args)] else []
  | .keyboardInterrupt => []

/-! ## What an iteration does -/

section Step
variable {args : Args} {s : Bridge} {i : Iteration}

theorem exists_of_connected (h : s.connected i = true) :
    s.status = .running ∧ ∃ pad, s.pad = some pad ∧ pad.ok i = true := by
  simpa [connected, Option.any_eq_true] using h

theorem exists_of_disconnected (h : s.disconnected i = true) :
    s.status = .running ∧ ∃ pad, s.pad = some pad ∧ pad.ok i = false := by
  simpa [disconnected, Option.any_eq_true] using h

theorem step_running (h : s.status = .running) : s.step args (.iteration i) = s.iterate args i := by
  simp only [step, h]

/-- The disconnect path. -/
theorem step_disconnected (args : Args) (h : s.disconnected i = true) :
    let s' := s.next args (.iteration i)
    (s.step args (.iteration i)).2 =
        (if i.now < s'.disconnectHomeUntil then [.home]
          else if args.disconnectAction ≠ .none then [.neutral] else []) ∧
      s'.wasFocused = s.wasFocused ∧ s'.inactiveHomeUntil = s.inactiveHomeUntil ∧
      (s'.lastDisconnectHome, s'.disconnectHomeUntil) =
        if args.disconnectAction = .home ∧ i.now - s.lastDisconnectHome ≥ args.homeCooldown then
          (i.now, i.now + args.homeDuration)
        else (s.lastDisconnectHome, s.disconnectHomeUntil) := by
  obtain ⟨hrun, pad, hpad, hok⟩ := exists_of_disconnected h
  intro s'
  have hs' : s' = (s.iterateLost args i).1 := by
    simp only [s', next, step_running hrun, iterate_of_lost hpad hok]
  rw [hs', step_running hrun, iterate_of_lost hpad hok]
  unfold iterateLost
  by_cases hstart : args.disconnectAction = .home ∧
      i.now - s.lastDisconnectHome ≥ args.homeCooldown
  · simp only [if_pos hstart, and_self]
  · simp only [if_neg hstart, and_self]

theorem rememberFocus_eq (s : Bridge) (focused : Bool) :
    ∃ last, s.rememberFocus focused = { s with lastFocusState := last } := by
  unfold rememberFocus
  split
  · exact ⟨_, rfl⟩
  · exact ⟨s.lastFocusState, rfl⟩

/-- An iteration with a controller takes one of two paths. -/
theorem step_connected (args : Args) (h : s.connected i = true) :
    ∃ pad last, s.pad = some pad ∧ s.step args (.iteration i) =
      if i.focused args then { s with lastFocusState := last }.iterateActive args pad i
      else { s with lastFocusState := last }.iterateInactive args i := by
  obtain ⟨hrun, pad, hpad, hok⟩ := exists_of_connected h
  obtain ⟨last, hlast⟩ := s.rememberFocus_eq (i.focused args)
  refine ⟨pad, last, hpad, ?_⟩
  have hfocused : (!given args.window || i.focusOk) = i.focused args := rfl
  rw [step_running hrun, ← hlast]
  simp only [iterate, hpad, hok, hfocused, Bool.not_true, Bool.false_eq_true, if_false]
  cases i.focused args <;> rfl

/-- The path without focus. -/
theorem step_inactive (h : s.connected i = true) (hf : i.focused args = false) :
    let s' := s.next args (.iteration i)
    (s.step args (.iteration i)).2 =
        (if i.now < s'.inactiveHomeUntil then [.home]
          else if args.inactiveAction ≠ .none then [.neutral] else []) ∧
      s'.wasFocused = false ∧
      s'.inactiveHomeUntil =
        (if s.wasFocused ∧ args.inactiveAction = .home then i.now + args.homeDuration
          else s.inactiveHomeUntil) ∧
      s'.lastDisconnectHome = s.lastDisconnectHome ∧
      s'.disconnectHomeUntil = s.disconnectHomeUntil := by
  obtain ⟨pad, last, -, hstep⟩ := step_connected args h
  rw [hf, if_neg Bool.false_ne_true] at hstep
  intro s'
  have hs' : s' = ({ s with lastFocusState := last }.iterateInactive args i).1 := by
    simp only [s', next, hstep]
  rw [hs', hstep]
  unfold iterateInactive
  by_cases hloss : s.wasFocused = true ∧ args.inactiveAction = .home
  · simp only [if_pos hloss, and_self]
  · simp only [if_neg hloss, and_self]

/-- The path with focus. -/
theorem step_active (h : s.connected i = true) (hf : i.focused args = true) :
    let s' := s.next args (.iteration i)
    (s.step args (.iteration i)).2 =
        (if s.exits args i then List.replicate i.pulse .home ++ [.neutral]
          else [.fromPad i.packet]) ∧
      s'.wasFocused = true ∧ s'.inactiveHomeUntil = s.inactiveHomeUntil ∧
      s'.lastDisconnectHome = s.lastDisconnectHome ∧
      s'.disconnectHomeUntil = s.disconnectHomeUntil := by
  obtain ⟨pad, last, hpad, hstep⟩ := step_connected args h
  rw [hf, if_pos rfl] at hstep
  intro s'
  have hs' : s' = ({ s with lastFocusState := last }.iterateActive args pad i).1 := by
    simp only [s', next, hstep]
  have hexits : s.exits args i = (given args.exitChordSignalFile && pad.exitChordPressed i) := by
    rw [exits, hpad, Option.any_some]
  rw [hs', hstep, hexits]
  unfold iterateActive
  split
  · exact ⟨rfl, rfl, rfl, rfl, rfl⟩
  · exact ⟨rfl, rfl, rfl, rfl, rfl⟩

end Step

/-- An iteration of a loop that was left, or without any controller. -/
theorem step_idle (args : Args) {s : Bridge} {i : Iteration} (h : s.connected i = false)
    (h' : s.disconnected i = false) :
    let s' := s.next args (.iteration i)
    (s.step args (.iteration i)).2 = [] ∧
      s'.wasFocused = s.wasFocused ∧ s'.inactiveHomeUntil = s.inactiveHomeUntil ∧
      s'.lastDisconnectHome = s.lastDisconnectHome ∧
      s'.disconnectHomeUntil = s.disconnectHomeUntil := by
  cases hst : s.status with
  | ended => simp [next, step, hst]
  | missingPad => simp [next, step, hst]
  | running =>
    cases hpad : s.pad with
    | none => simp [next, step, hst, iterate, hpad]
    | some pad =>
      simp only [connected, hst, hpad, decide_true, Option.any_some, Bool.true_and] at h
      simp [disconnected, hst, hpad, h] at h'

/-- Every event is one of these; an interrupt only ends the loop. -/
theorem next_interrupt (args : Args) (s : Bridge) :
    let s' := s.next args .keyboardInterrupt
    s'.wasFocused = s.wasFocused ∧ s'.inactiveHomeUntil = s.inactiveHomeUntil ∧
      s'.lastDisconnectHome = s.lastDisconnectHome ∧
      s'.disconnectHomeUntil = s.disconnectHomeUntil := by
  cases hst : s.status <;> simp [next, step, hst]

theorem disconnected_of_connected {s : Bridge} {i : Iteration} (h : s.connected i = true) :
    s.disconnected i = false := by
  obtain ⟨hrun, pad, hpad, hok⟩ := exists_of_connected h
  simp [disconnected, hpad, hok]

/-! ## Pulses -/

/-- The variables of the disconnect path, against the pulses started so far. -/
structure PulseInv (args : Args) (s : Bridge) (starts : List ℚ) : Prop where
  last_eq : s.lastDisconnectHome = starts.getLast?.getD 0
  until_eq : s.disconnectHomeUntil = (starts.getLast?.map (· + args.homeDuration)).getD 0
  chain : starts.IsChain fun t t' => t + args.homeCooldown ≤ t'
  action : starts ≠ [] → args.disconnectAction = .home

theorem PulseInv.of_eq {args : Args} {s s' : Bridge} {starts : List ℚ} (h : PulseInv args s starts)
    (hlast : s'.lastDisconnectHome = s.lastDisconnectHome)
    (huntil : s'.disconnectHomeUntil = s.disconnectHomeUntil) : PulseInv args s' starts :=
  ⟨hlast.trans h.last_eq, huntil.trans h.until_eq, h.chain, h.action⟩

theorem next_pulseInv (args : Args) (s : Bridge) (starts : List ℚ) (e : LoopEvent)
    (h : PulseInv args s starts) :
    PulseInv args (s.next args e) (starts ++ pulseStarts args s e) := by
  cases e with
  | keyboardInterrupt =>
    obtain ⟨-, -, hlast, huntil⟩ := s.next_interrupt args
    rw [pulseStarts, List.append_nil]
    exact h.of_eq hlast huntil
  | iteration i =>
    cases hd : s.disconnected i with
    | false =>
      rw [pulseStarts, if_neg (by simp [hd]), List.append_nil]
      cases hc : s.connected i with
      | false =>
        obtain ⟨-, -, -, hlast, huntil⟩ := step_idle args hc hd
        exact h.of_eq hlast huntil
      | true =>
        cases hf : i.focused args with
        | false =>
          obtain ⟨-, -, -, hlast, huntil⟩ := step_inactive hc hf
          exact h.of_eq hlast huntil
        | true =>
          obtain ⟨-, -, -, hlast, huntil⟩ := step_active hc hf
          exact h.of_eq hlast huntil
    | true =>
      obtain ⟨-, -, -, hvars⟩ := step_disconnected args hd
      by_cases hstart : args.disconnectAction = .home ∧
          i.now - s.lastDisconnectHome ≥ args.homeCooldown
      · rw [if_pos hstart, Prod.mk.injEq] at hvars
        rw [pulseStarts, if_pos ⟨hd, hstart⟩]
        refine ⟨by simp [hvars.1], by simp [hvars.2], ?_, fun _ => hstart.1⟩
        refine List.isChain_append.mpr ⟨h.chain, List.isChain_singleton _, ?_⟩
        intro t ht t' ht'
        have hlast := h.last_eq
        rw [Option.mem_def.mp ht, Option.getD_some] at hlast
        obtain rfl := Option.some.inj ht'
        rw [← hlast]
        linarith [hstart.2]
      · rw [if_neg hstart, Prod.mk.injEq] at hvars
        rw [pulseStarts, if_neg (fun hcon => hstart hcon.2), List.append_nil]
        exact h.of_eq hvars.1 hvars.2

/-- Consecutive pulses are apart, and the clock never goes back, so any two are. -/
theorem pairwise_of_isChain {gap : ℚ} {l : List ℚ} (hchain : l.IsChain fun t t' => t + gap ≤ t')
    (hsorted : l.Pairwise (· ≤ ·)) : l.Pairwise fun t t' => t + gap ≤ t' := by
  induction l with
  | nil => exact List.Pairwise.nil
  | cons t l ih =>
    obtain ⟨-, hsorted'⟩ := List.pairwise_cons.mp hsorted
    refine List.pairwise_cons.mpr ⟨?_, ih hchain.tail hsorted'⟩
    intro t' ht'
    cases l with
    | nil => cases ht'
    | cons u l =>
      have hu : t + gap ≤ u := (List.isChain_cons_cons.mp hchain).1
      rcases List.mem_cons.mp ht' with rfl | ht'
      · exact hu
      · exact hu.trans ((List.pairwise_cons.mp hsorted').1 t' ht')

theorem pulseStarts_sublist (args : Args) (s : Bridge) (es : List LoopEvent) :
    (Trace.observe (next args) (pulseStarts args) s es).Sublist (es.flatMap LoopEvent.clock) := by
  induction es generalizing s with
  | nil => exact List.Sublist.refl []
  | cons e es ih =>
    rw [Trace.observe_cons, List.flatMap_cons]
    refine List.Sublist.append ?_ (ih (s.next args e))
    cases e with
    | keyboardInterrupt => exact List.Sublist.refl []
    | iteration i =>
      rw [pulseStarts]
      split
      · exact List.Sublist.refl _
      · exact List.nil_sublist _

/-! ## Focus -/

/-- `t₀` is when focus was last lost: what was seen ends without focus from then on, and
with focus, or at start-up, before. -/
def LostFocusAt (seen : List (ℚ × Bool)) (t₀ : ℚ) : Prop :=
  ∃ before after, seen = before ++ (t₀, false) :: after ∧ (∀ x ∈ after, x.2 = false) ∧
    ∀ x, before.getLast? = some x → x.2 = true

/-- The variables of the path without focus, against what was seen of it. -/
structure FocusInv (args : Args) (s : Bridge) (seen : List (ℚ × Bool)) : Prop where
  wasFocused_eq : s.wasFocused = (seen.getLast?.map Prod.snd).getD true
  until_eq : s.wasFocused = false → args.inactiveAction = .home →
    ∃ t₀, LostFocusAt seen t₀ ∧ s.inactiveHomeUntil = t₀ + args.homeDuration
  until_zero : args.inactiveAction ≠ .home → s.inactiveHomeUntil = 0

theorem FocusInv.of_eq {args : Args} {s s' : Bridge} {seen : List (ℚ × Bool)}
    (h : FocusInv args s seen) (hwas : s'.wasFocused = s.wasFocused)
    (huntil : s'.inactiveHomeUntil = s.inactiveHomeUntil) : FocusInv args s' seen where
  wasFocused_eq := hwas.trans h.wasFocused_eq
  until_eq := by
    rw [hwas, huntil]
    exact h.until_eq
  until_zero := by
    rw [huntil]
    exact h.until_zero

theorem next_focusInv (args : Args) (s : Bridge) (seen : List (ℚ × Bool)) (e : LoopEvent)
    (h : FocusInv args s seen) : FocusInv args (s.next args e) (seen ++ focusSeen args s e) := by
  cases e with
  | keyboardInterrupt =>
    obtain ⟨hwas, huntil, -, -⟩ := s.next_interrupt args
    rw [focusSeen, List.append_nil]
    exact h.of_eq hwas huntil
  | iteration i =>
    cases hc : s.connected i with
    | false =>
      rw [focusSeen, hc, if_neg Bool.false_ne_true, List.append_nil]
      cases hd : s.disconnected i with
      | false =>
        obtain ⟨-, hwas, huntil, -, -⟩ := step_idle args hc hd
        exact h.of_eq hwas huntil
      | true =>
        obtain ⟨-, hwas, huntil, -⟩ := step_disconnected args hd
        exact h.of_eq hwas huntil
    | true =>
      rw [focusSeen, hc, if_pos rfl]
      cases hf : i.focused args with
      | true =>
        obtain ⟨-, hwas, huntil, -, -⟩ := step_active hc hf
        refine ⟨by simp [hwas], fun hfalse => ?_, fun hact => huntil.trans (h.until_zero hact)⟩
        rw [hwas] at hfalse
        cases hfalse
      | false =>
        obtain ⟨-, hwas, huntil, -, -⟩ := step_inactive hc hf
        refine ⟨by simp [hwas], fun _ hact => ?_, fun hact => ?_⟩
        · cases hfocus : s.wasFocused with
          | true =>
            -- focus is lost by this iteration
            rw [if_pos ⟨hfocus, hact⟩] at huntil
            refine ⟨i.now, ⟨seen, [], rfl, by simp, ?_⟩, huntil⟩
            intro x hx
            have hlast := h.wasFocused_eq
            rw [hfocus, hx] at hlast
            exact hlast.symm
          | false =>
            obtain ⟨t₀, ⟨before, after, rfl, hafter, hbefore⟩, ht₀⟩ := h.until_eq hfocus hact
            rw [if_neg (by simp [hfocus])] at huntil
            refine ⟨t₀, ⟨before, after ++ [(i.now, false)], by simp, ?_, hbefore⟩,
              huntil.trans ht₀⟩
            intro x hx
            rcases List.mem_append.mp hx with hx | hx
            · exact hafter x hx
            · rw [List.mem_singleton.mp hx]
        · rw [if_neg (fun hcon => hact hcon.2)] at huntil
          exact huntil.trans (h.until_zero hact)

theorem initial_pulseInv (args : Args) (pad : Pad) : PulseInv args (initial pad) [] :=
  ⟨rfl, rfl, List.isChain_nil, fun h => (h rfl).elim⟩

theorem initial_focusInv (args : Args) (pad : Pad) : FocusInv args (initial pad) [] :=
  ⟨rfl, fun h => Bool.noConfusion h, fun _ => rfl⟩

/-! ## What is written -/

section Written
variable {args : Args} {s : Bridge} {i : Iteration}

/-- A deadline that has not passed was set: before the first one it is zero. -/
theorem exists_start {starts : List ℚ} (h : PulseInv args s starts) (hnow : 0 ≤ i.now)
    (hlt : i.now < s.disconnectHomeUntil) :
    args.disconnectAction = .home ∧ ∃ t₀ ∈ starts, i.now < t₀ + args.homeDuration := by
  rw [h.until_eq] at hlt
  cases hlast : starts.getLast? with
  | none =>
    rw [hlast] at hlt
    exact absurd hlt (not_lt.mpr hnow)
  | some t₀ =>
    have hmem : t₀ ∈ starts := List.mem_of_getLast? hlast
    rw [hlast] at hlt
    exact ⟨h.action (List.ne_nil_of_mem hmem), t₀, hmem, hlt⟩

theorem exists_loss {seen : List (ℚ × Bool)} (h : FocusInv args s seen) (hnow : 0 ≤ i.now)
    (hwas : s.wasFocused = false) (hlt : i.now < s.inactiveHomeUntil) :
    args.inactiveAction = .home ∧ ∃ t₀, LostFocusAt seen t₀ ∧ i.now < t₀ + args.homeDuration := by
  by_cases hact : args.inactiveAction = .home
  · obtain ⟨t₀, hloss, ht₀⟩ := h.until_eq hwas hact
    exact ⟨hact, t₀, hloss, ht₀ ▸ hlt⟩
  · rw [h.until_zero hact] at hlt
    exact absurd hlt (not_lt.mpr hnow)

end Written
end Bridge

/-- **Focus and disconnect gating.**  In every run of the loop, with a clock that counts
from the epoch and never goes back, any two pulses of the disconnect path start at least
`home_cooldown` apart, and in each iteration:

* a packet of the controller is written only if the controller is there and the window,
  if one is given, has the focus;
* HOME is written only in the exit pulse; or without the controller, if the disconnect
  action is `home` and within `home_duration` of a pulse that this iteration or an earlier
  one started; or with the controller and without focus, if the inactive action is `home`
  and within `home_duration` of the iteration that last saw focus being lost;
* nothing is written without the controller, or without focus, if the action for it is
  `none`. -/
theorem bridge_gating (args : Args) (pad : Pad) (es : List LoopEvent)
    (hclock : (es.flatMap LoopEvent.clock).Pairwise (· ≤ ·))
    (hepoch : ∀ t ∈ es.flatMap LoopEvent.clock, 0 ≤ t) :
    (Trace.observe (Bridge.next args) (Bridge.pulseStarts args) (.initial pad) es).Pairwise
        (fun t t' => t + args.homeCooldown ≤ t') ∧
      ∀ pre i post, es = pre ++ .iteration i :: post →
        let s := Trace.run (Bridge.next args) (.initial pad) pre
        let written := (s.step args (.iteration i)).2
        let starts := Trace.observe (Bridge.next args) (Bridge.pulseStarts args) (.initial pad)
          (pre ++ [.iteration i])
        let seen := Trace.observe (Bridge.next args) (Bridge.focusSeen args) (.initial pad)
          (pre ++ [.iteration i])
        (∀ packet, .fromPad packet ∈ written →
          s.connected i = true ∧ i.focused args = true) ∧
        (.home ∈ written →
          (s.connected i = true ∧ i.focused args = true ∧ s.exits args i = true) ∨
          (s.disconnected i = true ∧ args.disconnectAction = .home ∧
            ∃ t₀ ∈ starts, i.now < t₀ + args.homeDuration) ∨
          (s.connected i = true ∧ i.focused args = false ∧ args.inactiveAction = .home ∧
            ∃ t₀, Bridge.LostFocusAt seen t₀ ∧ i.now < t₀ + args.homeDuration)) ∧
        (s.disconnected i = true → args.disconnectAction = .none → written = []) ∧
        (s.connected i = true → i.focused args = false → args.inactiveAction = .none →
          written = []) := by
  have hpulse := fun es => Trace.run_observe_invariant (Bridge.next_pulseInv args)
    (Bridge.initial_pulseInv args pad) es
  have hfocus := fun es => Trace.run_observe_invariant (Bridge.next_focusInv args)
    (Bridge.initial_focusInv args pad) es
  constructor
  · exact Bridge.pairwise_of_isChain (hpulse es).chain
      (hclock.sublist (Bridge.pulseStarts_sublist args _ es))
  rintro pre i post rfl s written starts seen
  have hnow : 0 ≤ i.now := by
    apply hepoch
    simp [LoopEvent.clock]
  have hrun : Trace.run (Bridge.next args) (.initial pad) (pre ++ [.iteration i]) =
      s.next args (.iteration i) := Trace.run_append _ _ _ _
  have hp : Bridge.PulseInv args (s.next args (.iteration i)) starts := hrun ▸ hpulse _
  have hfo : Bridge.FocusInv args (s.next args (.iteration i)) seen := hrun ▸ hfocus _
  cases hc : s.connected i with
  | false =>
    cases hd : s.disconnected i with
    | false =>
      obtain ⟨hnil, -⟩ := Bridge.step_idle args hc hd
      have hw : written = [] := hnil
      simp [hw]
    | true =>
      obtain ⟨hwritten, -⟩ := Bridge.step_disconnected args hd
      have hw : written = _ := hwritten
      by_cases hlt : i.now < (s.next args (.iteration i)).disconnectHomeUntil
      · obtain ⟨hact, hstart⟩ := Bridge.exists_start hp hnow hlt
        rw [if_pos hlt] at hw
        simp [hw, hact, hstart]
      · rw [if_neg hlt] at hw
        by_cases hact : args.disconnectAction = .none <;> simp [hw, hact]
  | true =>
    have hd := Bridge.disconnected_of_connected hc
    cases hf : i.focused args with
    | true =>
      obtain ⟨hwritten, -⟩ := Bridge.step_active hc hf
      have hw : written = _ := hwritten
      cases hexit : s.exits args i <;> rw [hexit] at hw <;> simp [hw, hd]
    | false =>
      obtain ⟨hwritten, hwas, -⟩ := Bridge.step_inactive hc hf
      have hw : written = _ := hwritten
      by_cases hlt : i.now < (s.next args (.iteration i)).inactiveHomeUntil
      · obtain ⟨hact, hloss⟩ := Bridge.exists_loss hfo hnow hwas hlt
        rw [if_pos hlt] at hw
        simp [hw, hact, hloss, hd]
      · rw [if_neg hlt] at hw
        by_cases hact : args.inactiveAction = .none <;> simp [hw, hact, hd]

/-- Focus lost a second after start-up: HOME is written, a quarter of a second being
allowed. -/
theorem bridge_gating_focus_lost :
    let args : Args :=
      ⟨false, some 0, .xinput, some "Projector", false, .home, .neutral, 1 / 4, 5, none⟩
    let plugged : Devices :=
      ⟨true, fun _ => true, false, 0, fun _ => false, fun _ => false, fun _ => false⟩
    let i (now : ℚ) (focusOk : Bool) : Iteration :=
      ⟨now, true, plugged, focusOk, false, 0, .neutral⟩
    let s := Trace.run (Bridge.next args) (.initial (.padX 0)) [.iteration (i 10 true)]
    .home ∈ (s.step args (.iteration (i 11 false))).2 ∧
      ∃ t₀, Bridge.LostFocusAt (Trace.observe (Bridge.next args) (Bridge.focusSeen args)
        (.initial (.padX 0)) [.iteration (i 10 true), .iteration (i 11 false)]) t₀ ∧
        11 < t₀ + 1 / 4 := by
  intro args plugged i s
  have hhome : .home ∈ (s.step args (.iteration (i 11 false))).2 := by decide +kernel
  have hactive : (i 11 false).focused args = false := by decide +kernel
  have hconnected : s.disconnected (i 11 false) = false := by decide +kernel
  have hclock : ([LoopEvent.iteration (i 10 true), .iteration (i 11 false)].flatMap
      LoopEvent.clock).Pairwise (· ≤ ·) := by decide +kernel
  have hepoch : ∀ t ∈ [LoopEvent.iteration (i 10 true), .iteration (i 11 false)].flatMap
      LoopEvent.clock, 0 ≤ t := by decide +kernel
  obtain ⟨-, hall⟩ := bridge_gating args (.padX 0) _ hclock hepoch
  obtain ⟨-, hb, -⟩ := hall [.iteration (i 10 true)] (i 11 false) [] rfl
  rcases hb hhome with ⟨-, hf, -⟩ | ⟨hd, -⟩ | ⟨-, -, -, hloss⟩
  · rw [hactive] at hf
    cases hf
  · change s.disconnected (i 11 false) = true at hd
    rw [hconnected] at hd
    cases hd
  · exact ⟨hhome, hloss⟩

end XInputSwitch
