import XInputSwitch.Controllers
import XInputSwitch.SerialHost
import XInputSwitch.Trace

/-! # The main loop of the bridge

One step is one iteration of the `while True` loop of `xinput2serial.py`, or a
`KeyboardInterrupt`.  What the iteration finds outside the program is its input
(`Iteration`): the clock, the state of the controller and of the window, the devices
a retry meets.  Log lines, debug output and the sleeps are left out.

A lost controller is looked for once in each iteration.  If it is not found, `pad` is
`None`, and the next iteration begins with `pad.ok()`: the loop ends with an error
(`Status.missingPad`).  `loop_has_pad_iff`: this happens exactly if a retry meets no
controller it can open.
-/
namespace XInputSwitch

/-- How the loop stands. -/
inductive Status where
  | running
  /-- left by the exit chord or an interrupt -/
  | ended
  /-- `pad.ok()` was called on `None` -/
  | missingPad
deriving DecidableEq, Repr

/-- The variables of the loop. -/
structure Bridge where
  status : Status
  pad : Option Pad
  wasFocused : Bool
  lastFocusState : Option Bool
  inactiveHomeUntil : ℚ
  lastDisconnectHome : ℚ
  disconnectHomeUntil : ℚ
deriving DecidableEq

/-- What an iteration finds. -/
structure Iteration where
  now : ℚ
  /-- what the controller answers to `ok()` -/
  padOk : Bool
  /-- what a retry meets -/
  devices : Devices
  /-- `focus_ok(args.window)` -/
  focusOk : Bool
  /-- the buttons and triggers of the exit chord are pressed -/
  exitChord : Bool
  /-- the HOME packets that fit into the exit pulse -/
  pulse : Nat
  /-- `build_packet(pad)` -/
  packet : Packet

/-- A packet written to the line, and why. -/
inductive Written where
  | home
  | neutral
  | fromPad (packet : Packet)
deriving DecidableEq

namespace Pad

/-- `pad.ok()`: the keyboard is always there. -/
def ok (pad : Pad) (i : Iteration) : Bool :=
  match pad with
  | .padK => true
  | _ => i.padOk

/-- `exit_chord_pressed`. -/
def exitChordPressed (pad : Pad) (i : Iteration) : Bool :=
  match pad with
  | .padX _ | .padSDL _ => i.exitChord
  | _ => false

end Pad

namespace Bridge

/-- The variables before the loop, with the controller found at start-up. -/
def initial (pad : Pad) : Bridge where
  status := .running
  pad := some pad
  wasFocused := true
  lastFocusState := none
  inactiveHomeUntil := 0
  lastDisconnectHome := 0
  disconnectHomeUntil := 0

/-- The disconnect path. -/
def iterateLost (args : Args) (s : Bridge) (i : Iteration) : Bridge × List Written :=
  let s :=
    if args.disconnectAction = .home ∧ i.now - s.lastDisconnectHome ≥ args.homeCooldown then
      { s with
        lastDisconnectHome := i.now
        disconnectHomeUntil := i.now + args.homeDuration }
    else s
  let written :=
    if i.now < s.disconnectHomeUntil then [.home]
    else if args.disconnectAction ≠ .none then [.neutral]
    else []
  ({ s with pad := if args.keyboard then some .padK else createController args i.devices }, written)

/-- The focus is remembered for the log only. -/
def rememberFocus (s : Bridge) (focused : Bool) : Bridge :=
  if s.lastFocusState = none ∨ some focused ≠ s.lastFocusState then
    { s with lastFocusState := some focused }
  else s

/-- The path of an iteration whose window lacks focus. -/
def iterateInactive (args : Args) (s : Bridge) (i : Iteration) : Bridge × List Written :=
  let s :=
    if s.wasFocused ∧ args.inactiveAction = .home then
      { s with inactiveHomeUntil := i.now + args.homeDuration }
    else s
  let written :=
    if i.now < s.inactiveHomeUntil then [.home]
    else if args.inactiveAction ≠ .none then [.neutral]
    else []
  ({ s with wasFocused := false }, written)

/-- The path of an iteration that streams, or ends the session by the exit chord. -/
def iterateActive (args : Args) (s : Bridge) (pad : Pad) (i : Iteration) :
    Bridge × List Written :=
  let s := { s with wasFocused := true }
  if given args.exitChordSignalFile && pad.exitChordPressed i then
    ({ s with status := .ended }, List.replicate i.pulse .home ++ [.neutral])
  else (s, [.fromPad i.packet])

/-- One iteration of the loop. -/
def iterate (args : Args) (s : Bridge) (i : Iteration) : Bridge × List Written :=
  match s.pad with
  | none => ({ s with status := .missingPad }, [])
  | some pad =>
    if !pad.ok i then s.iterateLost args i
    else
      let focused := !given args.window || i.focusOk
      let s := s.rememberFocus focused
      if !focused then s.iterateInactive args i else s.iterateActive args pad i

end Bridge

inductive LoopEvent where
  | iteration (i : Iteration)
  | keyboardInterrupt

namespace Bridge

/-- An event of the loop; once it is left, nothing happens any more. -/
def step (args : Args) (s : Bridge) (e : LoopEvent) : Bridge × List Written :=
  match s.status, e with
  | .running, .iteration i => s.iterate args i
  | .running, .keyboardInterrupt => ({ s with status := .ended }, [])
  | _, _ => (s, [])

def next (args : Args) (s : Bridge) (e : LoopEvent) : Bridge := (s.step args e).1

/-! ## The controller at the head of the loop -/

/-- At the head of the loop there is a controller to ask. -/
def HasPad (s : Bridge) : Prop :=
  s.status ≠ .missingPad ∧ (s.status = .running → s.pad.isSome = true)

/-- A controller that is lost can be opened again at once. -/
def Reconnects (args : Args) (s : Bridge) (e : LoopEvent) : Prop :=
  ∀ i pad, e = .iteration i → s.status = .running → s.pad = some pad → pad.ok i = false →
    args.keyboard = true ∨ Available args i.devices

theorem iterateLost_pad (args : Args) (s : Bridge) (i : Iteration) :
    (s.iterateLost args i).1.status = s.status ∧
      (s.iterateLost args i).1.pad =
        if args.keyboard then some .padK else createController args i.devices := by
  unfold iterateLost
  by_cases h : args.disconnectAction = .home ∧ i.now - s.lastDisconnectHome ≥ args.homeCooldown
  · simp only [if_pos h, and_self]
  · simp only [if_neg h, and_self]

theorem rememberFocus_pad (s : Bridge) (focused : Bool) :
    (s.rememberFocus focused).status = s.status ∧ (s.rememberFocus focused).pad = s.pad := by
  unfold rememberFocus
  split
  · exact ⟨rfl, rfl⟩
  · exact ⟨rfl, rfl⟩

theorem iterateInactive_pad (args : Args) (s : Bridge) (i : Iteration) :
    (s.iterateInactive args i).1.status = s.status ∧
      (s.iterateInactive args i).1.pad = s.pad := by
  unfold iterateInactive
  by_cases h : s.wasFocused = true ∧ args.inactiveAction = .home
  · simp only [if_pos h, and_self]
  · simp only [if_neg h, and_self]

theorem iterateActive_pad (args : Args) (s : Bridge) (pad : Pad) (i : Iteration) :
    (s.iterateActive args pad i).1.pad = s.pad ∧
      ((s.iterateActive args pad i).1.status = s.status ∨
        (s.iterateActive args pad i).1.status = .ended) := by
  unfold iterateActive
  split
  · exact ⟨rfl, .inr rfl⟩
  · exact ⟨rfl, .inl rfl⟩

/-- While the controller is there, an iteration keeps it. -/
theorem iterate_of_ok (args : Args) {s : Bridge} {pad : Pad} (hpad : s.pad = some pad)
    {i : Iteration} (hok : pad.ok i = true) :
    (s.iterate args i).1.pad = some pad ∧
      ((s.iterate args i).1.status = s.status ∨ (s.iterate args i).1.status = .ended) := by
  obtain ⟨hst₀, hpad₀⟩ := s.rememberFocus_pad (!given args.window || i.focusOk)
  rw [hpad] at hpad₀
  simp only [iterate, hpad, hok, Bool.not_true, Bool.false_eq_true, if_false]
  split
  · obtain ⟨hst, hp⟩ := (s.rememberFocus _).iterateInactive_pad args i
    exact ⟨hp.trans hpad₀, .inl (hst.trans hst₀)⟩
  · obtain ⟨hp, hst⟩ := (s.rememberFocus _).iterateActive_pad args pad i
    rw [hst₀] at hst
    exact ⟨hp.trans hpad₀, hst⟩

/-- When it is lost, an iteration ends with what the retry finds. -/
theorem iterate_of_lost {args : Args} {s : Bridge} {pad : Pad} (hpad : s.pad = some pad)
    {i : Iteration} (hok : pad.ok i = false) : s.iterate args i = s.iterateLost args i := by
  simp only [iterate, hpad, hok, Bool.not_false, if_true]

/-- **The step**: the next head of the loop has a controller exactly if the retry, where
there is one, can open one. -/
theorem next_hasPad_iff {args : Args} {s : Bridge} (h : s.HasPad) (e : LoopEvent) :
    (s.next args e).HasPad ↔ s.Reconnects args e := by
  obtain ⟨hmissing, hhas⟩ := h
  cases hst : s.status with
  | missingPad => exact absurd hst hmissing
  | ended =>
    have hnext : s.next args e = s := by simp only [next, step, hst]
    rw [hnext]
    constructor
    · intro _ i pad _ hrun
      rw [hst] at hrun
      cases hrun
    · intro _
      exact ⟨hmissing, hhas⟩
  | running =>
    cases e with
    | keyboardInterrupt =>
      have hnext : (s.next args .keyboardInterrupt).status = .ended := by
        simp only [next, step, hst]
      constructor
      · intro _ i pad he
        cases he
      · intro _
        exact ⟨by rw [hnext]; decide, fun hrun => by rw [hnext] at hrun; cases hrun⟩
    | iteration i =>
      obtain ⟨pad, hpad⟩ := Option.isSome_iff_exists.mp (hhas hst)
      have hnext : s.next args (.iteration i) = (s.iterate args i).1 := by
        simp only [next, step, hst]
      rw [hnext]
      cases hok : pad.ok i with
      | true =>
        obtain ⟨hp, hstat⟩ := iterate_of_ok args hpad hok
        constructor
        · intro _ i' pad' he _ hpad' hok'
          cases he
          rw [hpad] at hpad'
          cases hpad'
          rw [hok] at hok'
          cases hok'
        · intro _
          refine ⟨?_, fun _ => by rw [hp]; rfl⟩
          rcases hstat with hstat | hstat <;> rw [hstat]
          · exact hmissing
          · decide
      | false =>
        rw [iterate_of_lost hpad hok]
        obtain ⟨hstat, hp⟩ := s.iterateLost_pad args i
        have hsome : (s.iterateLost args i).1.pad.isSome = true ↔
            args.keyboard = true ∨ Available args i.devices := by
          rw [hp, ← createController_isSome_iff]
          cases args.keyboard <;> simp
        constructor
        · intro hnew i' pad' he _ _ _
          cases he
          exact hsome.mp (hnew.2 (hstat.trans hst))
        · intro hrec
          refine ⟨by rw [hstat]; exact hmissing, fun _ => ?_⟩
          exact hsome.mpr (hrec i pad rfl hst hpad hok)

theorem initial_hasPad (pad : Pad) : (initial pad).HasPad :=
  ⟨by simp [initial], fun _ => rfl⟩

end Bridge

/-- **A lost controller.**  Whatever controller the bridge starts with, the heads of the
loop reached in a run all have a controller, and none ends in an error, exactly if in
every iteration that finds the controller lost, one that the backend can open is
available to the retry.  (With the keyboard there is nothing to lose.) -/
theorem loop_has_pad_iff (args : Args) (pad : Pad) (es : List LoopEvent) :
    (∀ pre, pre <+: es → (Trace.run (Bridge.next args) (.initial pad) pre).HasPad) ↔
      Trace.Always (Bridge.next args) (Bridge.Reconnects args) (.initial pad) es := by
  have hstep : ∀ s e, s.HasPad → ((Bridge.next args s e).HasPad ↔ Bridge.Reconnects args s e) :=
    fun _ e h => Bridge.next_hasPad_iff h e
  exact Trace.forall_prefix_iff_always hstep (Bridge.initial_hasPad pad) es

/-- The defaults of the command line with a slot given, and a controller unplugged for
two iterations: the second one asks `None`. -/
theorem loop_loses_pad :
    let args : Args := ⟨false, some 0, .xinput, none, false, .neutral, .neutral, 1 / 4, 5, none⟩
    let unplugged : Devices :=
      ⟨true, fun _ => false, false, 0, fun _ => false, fun _ => false, fun _ => false⟩
    let lost (now : ℚ) : LoopEvent := .iteration ⟨now, false, unplugged, true, false, 0, .neutral⟩
    (Trace.run (Bridge.next args) (.initial (.padX 0)) [lost 1]).pad = none ∧
      (Trace.run (Bridge.next args) (.initial (.padX 0)) [lost 1, lost 2]).status =
        .missingPad := by
  decide +kernel

end XInputSwitch
