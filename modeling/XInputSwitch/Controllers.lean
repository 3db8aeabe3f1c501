import Mathlib.Data.Rat.Defs
import Mathlib.Algebra.Order.Ring.Rat

/-! # Finding a controller

`create_controller` of `xinput2serial.py` and what it calls: by the backend asked for,
a slot or an index given or detected, it opens a controller or returns `None`.

What the operating system answers is a parameter (`Devices`).  The answers stay the
same during one call: detecting a controller and then opening it ask the same
questions twice.

`createController_isSome_iff` says when a call succeeds without mentioning the order
in which the possibilities are tried.
-/
namespace XInputSwitch

/-- `--backend`. -/
inductive Backend where
  | auto
  | xinput
  | pygame
  | socket
deriving DecidableEq, Repr

/-- `--inactive-action` and `--disconnect-action`. -/
inductive Action where
  | neutral
  | home
  | none
deriving DecidableEq, Repr

/-- The command line, as far as controllers and the main loop read it. -/
structure Args where
  keyboard : Bool
  controller : Option Int
  backend : Backend
  window : Option String
  auto : Bool
  inactiveAction : Action
  disconnectAction : Action
  homeDuration : ℚ
  homeCooldown : ℚ
  exitChordSignalFile : Option String
deriving DecidableEq

/-- Python's truth value of an optional string. -/
def given (s : Option String) : Bool := s.any (· ≠ "")

/-- The controller classes, by what they hold on to. -/
inductive Pad where
  | padX (slot : Int)
  | padSDL (index : Int)
  | padSocket
  | padK
deriving DecidableEq, Repr

/-- What the system answers during one call. -/
structure Devices where
  /-- an XInput DLL could be loaded -/
  xinputLoaded : Bool
  /-- `XInputGetState` succeeds for a slot -/
  xinputState : Int → Bool
  /-- `init_sdl` -/
  initSdl : Bool
  /-- `sdl_controller.get_count` -/
  sdlCount : Nat
  /-- `sdl_controller.is_controller` -/
  sdlIsController : Int → Bool
  /-- the controller can be opened without an exception -/
  sdlOpens : Int → Bool
  /-- `attached`, once it is open -/
  sdlAttached : Int → Bool

namespace Devices

/-- `PadX(slot).ok()`. -/
def padXOk (d : Devices) (slot : Int) : Bool := d.xinputLoaded && d.xinputState slot

/-- Whether the constructor of `PadSDL` returns. -/
def padSDLOpens (d : Devices) (index : Int) : Bool :=
  d.initSdl && !(index < 0 || (d.sdlCount : Int) ≤ index) && d.sdlIsController index &&
    d.sdlOpens index

/-- `PadSDL(index).ok()`, false also where the constructor raises: both callers catch
the exception and go on as if there were no controller. -/
def padSDLOk (d : Devices) (index : Int) : Bool := d.padSDLOpens index && d.sdlAttached index

/-- `detect_controller_slot`. -/
def detectControllerSlot (d : Devices) : Option Int :=
  if !d.xinputLoaded then none
  else ((List.range 4).map Int.ofNat).find? d.padXOk

/-- `detect_sdl_controller_index`. -/
def detectSdlControllerIndex (d : Devices) : Option Int :=
  if !d.initSdl then none
  else ((List.range d.sdlCount).map Int.ofNat).find? fun index =>
    d.sdlIsController index && d.padSDLOk index

end Devices

/-- The slot or index to try: the one given, or with `--auto` the one detected. -/
def chosen (args : Args) (detected : Option Int) : Option Int :=
  match args.controller with
  | some n => some n
  | none => if args.auto then detected else none

/-- The part of `create_controller` for XInput. -/
def createXInput (args : Args) (d : Devices) : Option Pad :=
  if args.backend = .xinput ∨ args.backend = .auto then
    match chosen args d.detectControllerSlot with
    | some slot => if d.padXOk slot then some (.padX slot) else none
    | none => none
  else none

/-- The part of `create_controller` for SDL. -/
def createSDL (args : Args) (d : Devices) : Option Pad :=
  if args.backend = .pygame ∨ args.backend = .auto then
    match chosen args d.detectSdlControllerIndex with
    | some index => if d.padSDLOk index then some (.padSDL index) else none
    | none => none
  else none

def createController (args : Args) (d : Devices) : Option Pad :=
  if args.backend = .socket then some .padSocket
  else
    match createXInput args d with
    | some pad => some pad
    | none => createSDL args d

/-! ## When it succeeds -/

/-- The controller asked for is there; without one asked for, `--auto` is given and one
of the first `n` is. -/
def Present (args : Args) (n : Nat) (there : Int → Bool) : Prop :=
  match args.controller with
  | some k => there k = true
  | none => args.auto = true ∧ ∃ k < n, there (Int.ofNat k) = true

/-- **A controller the backend can open is available.**  The socket backend needs
none; with `auto` either of the other two will do. -/
def Available (args : Args) (d : Devices) : Prop :=
  args.backend = .socket ∨
    ((args.backend = .xinput ∨ args.backend = .auto) ∧ Present args 4 d.padXOk) ∨
    ((args.backend = .pygame ∨ args.backend = .auto) ∧ Present args d.sdlCount d.padSDLOk)

/-- A detection that finds the first of `n` candidates that is there. -/
structure Detects (n : Nat) (there : Int → Bool) (detected : Option Int) : Prop where
  found : ∀ k, detected = some k → there k = true
  complete : (∃ k < n, there (Int.ofNat k) = true) → detected.isSome = true
  sound : detected.isSome = true → ∃ k < n, there (Int.ofNat k) = true

theorem detects_find (n : Nat) (there : Int → Bool) :
    Detects n there (((List.range n).map Int.ofNat).find? there) where
  found k hk := List.find?_some hk
  complete := by
    rintro ⟨k, hk, hthere⟩
    rw [List.find?_isSome]
    exact ⟨Int.ofNat k, List.mem_map_of_mem (List.mem_range.mpr hk), hthere⟩
  sound := by
    rw [List.find?_isSome]
    rintro ⟨x, hx, hthere⟩
    obtain ⟨k, hk, rfl⟩ := List.mem_map.mp hx
    exact ⟨k, List.mem_range.mp hk, hthere⟩

/-- With nothing there, there is nothing to find. -/
theorem detects_none (n : Nat) {there : Int → Bool} (hno : ∀ k, there k = false) :
    Detects n there none where
  found k hk := by cases hk
  complete := by
    rintro ⟨k, -, hthere⟩
    rw [hno] at hthere
    cases hthere
  sound h := by cases h

theorem detectControllerSlot_detects (d : Devices) :
    Detects 4 d.padXOk d.detectControllerSlot := by
  unfold Devices.detectControllerSlot
  cases hx : d.xinputLoaded with
  | true => exact detects_find 4 d.padXOk
  | false =>
    -- without the DLL no slot answers
    have hno : ∀ k, d.padXOk k = false := fun k => by simp [Devices.padXOk, hx]
    exact detects_none 4 hno

theorem detectSdlControllerIndex_detects (d : Devices) :
    Detects d.sdlCount d.padSDLOk d.detectSdlControllerIndex := by
  unfold Devices.detectSdlControllerIndex
  cases hi : d.initSdl with
  | true =>
    -- a pad that is ok is a controller, so the test before opening it is implied
    have htest : (fun index => d.sdlIsController index && d.padSDLOk index) = d.padSDLOk := by
      funext index
      cases hc : d.sdlIsController index <;> simp [Devices.padSDLOk, Devices.padSDLOpens, hc]
    rw [htest]
    exact detects_find d.sdlCount d.padSDLOk
  | false =>
    have hno : ∀ k, d.padSDLOk k = false := fun k => by
      simp [Devices.padSDLOk, Devices.padSDLOpens, hi]
    exact detects_none d.sdlCount hno

/-- What a backend opens is present, and what is present is opened. -/
theorem open_isSome_iff {args : Args} {n : Nat} {there : Int → Bool} {detected : Option Int}
    (h : Detects n there detected) (pad : Int → Pad) :
    (match chosen args detected with
      | some k => if there k then some (pad k) else none
      | none => none).isSome = true ↔ Present args n there := by
  unfold chosen Present
  cases args.controller with
  | some k => by_cases hk : there k = true <;> simp [hk]
  | none =>
    cases args.auto with
    | false => simp
    | true =>
      cases hd : detected with
      | some k =>
        have hk := h.found k hd
        have := h.sound (by rw [hd]; rfl)
        simpa [hk] using this
      | none =>
        have hno : ¬ ∃ k < n, there (Int.ofNat k) = true := by
          intro hex
          have := h.complete hex
          rw [hd] at this
          cases this
        simpa using hno

theorem createXInput_isSome_iff (args : Args) (d : Devices) :
    (createXInput args d).isSome = true ↔
      (args.backend = .xinput ∨ args.backend = .auto) ∧ Present args 4 d.padXOk := by
  unfold createXInput
  by_cases hb : args.backend = .xinput ∨ args.backend = .auto
  · rw [if_pos hb, open_isSome_iff (detectControllerSlot_detects d), and_iff_right hb]
  · rw [if_neg hb]
    exact ⟨fun h => (Bool.false_ne_true h).elim, fun h => absurd h.1 hb⟩

theorem createSDL_isSome_iff (args : Args) (d : Devices) :
    (createSDL args d).isSome = true ↔
      (args.backend = .pygame ∨ args.backend = .auto) ∧ Present args d.sdlCount d.padSDLOk := by
  unfold createSDL
  by_cases hb : args.backend = .pygame ∨ args.backend = .auto
  · rw [if_pos hb, open_isSome_iff (detectSdlControllerIndex_detects d), and_iff_right hb]
  · rw [if_neg hb]
    exact ⟨fun h => (Bool.false_ne_true h).elim, fun h => absurd h.1 hb⟩

/-- **When `create_controller` returns a controller.** -/
theorem createController_isSome_iff (args : Args) (d : Devices) :
    (createController args d).isSome = true ↔ Available args d := by
  unfold createController Available
  rw [← createXInput_isSome_iff, ← createSDL_isSome_iff]
  by_cases hs : args.backend = .socket
  · rw [if_pos hs]
    exact ⟨fun _ => .inl hs, fun _ => rfl⟩
  · rw [if_neg hs]
    cases createXInput args d with
    | some pad => simp
    | none => simp [hs]

end XInputSwitch
