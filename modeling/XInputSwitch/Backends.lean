import XInputSwitch.Gamepads
import XInputSwitch.MouseAim
import XInputSwitch.SocketPresses

/-! # What controllers can answer

The readings that each class of controllers can give `build_packet` (`Answers`): any state of
a gamepad, any keys and any place of the cursor for the keyboard, and for a socket what is
left after any events.  Two things hold for all of them: a packet can be built
(`Answers.buildPacket`), and every axis is in the range the packet is made for
(`Answers.axis_range`).
-/
namespace XInputSwitch

open Python (Value Runtime Exception)

/-- What a controller answers while one packet is built. -/
inductive Answers : Pad → Readings → Prop
  | padX (slot : Int) (g : Gamepad) : Answers (.padX slot) (PadX.readings g)
  | padSDL (index : Int) (c : SdlController) : Answers (.padSDL index) (PadSDL.readings c)
  | padK (mouse : Bool) (pressed : String → Bool) (d : Desk) :
    Answers .padK (d.readings mouse pressed).1
  /-- every question has its own moment, after steps of its own -/
  | padSocket (py : Runtime) (steps : Query → List SocketStep) (now : Query → ℚ) :
    Answers .padSocket
      (PadSocket.readings fun q => (Trace.run (PadSocket.next py) .initial (steps q), now q))

/-- **No controller makes `build_packet` raise.** -/
theorem Answers.buildPacket {pad : Pad} {r : Readings} (h : Answers pad r) :
    ∃ p, buildPacket pad r = some p := by
  cases h with
  | padX slot g => exact exists_buildPacket (hatMap_direction _ _ _ _)
  | padSDL index c => exact exists_buildPacket (hatMap_direction _ _ _ _)
  | padK mouse pressed d => exact exists_buildPacket rfl
  | padSocket py steps now => exact PadSocket.run_buildPacket py steps now .padSocket

/-! ## The keyboard and the mouse -/

theorem clampUnit_bounds (x : ℚ) : -1 ≤ clampUnit x ∧ clampUnit x ≤ 1 :=
  ⟨le_max_left _ _, max_le (by norm_num) (min_le_left _ _)⟩

theorem axisRange_clampUnit (x : ℚ) : AxisRange (clampUnit x) :=
  .of_unit (clampUnit_bounds x).1 (clampUnit_bounds x).2

/-- Two keys for the two ends. -/
theorem axisRange_keys (up down : Bool) : AxisRange (if up then 1 else if down then -1 else 0) := by
  cases up <;> cases down <;> apply AxisRange.of_unit <;> norm_num

theorem Desk.axis_range (mouse : Bool) (pressed : String → Bool) (d : Desk) (i : Nat) :
    AxisRange (d.axis mouse pressed i).1 := by
  unfold axis
  split
  · exact axisRange_keys _ _
  split
  · exact axisRange_keys _ _
  split
  · dsimp only
    split
    · exact axisRange_clampUnit _
    split
    · exact axisRange_clampUnit _
    · exact axisRange_zero
  · exact axisRange_zero

theorem Desk.readings_range (mouse : Bool) (pressed : String → Bool) (d : Desk) (i : Nat) :
    AxisRange ((d.readings mouse pressed).1.axis i) := by
  -- every question but the first is put to the desk the one before has left
  let d₁ := (d.axis mouse pressed 0).2
  let d₃ := (d₁.axis mouse pressed 1).2
  let d₄ := (d₃.axis mouse pressed 3).2
  have haxis : (d.readings mouse pressed).1.axis i =
      ([(0, (d.axis mouse pressed 0).1), (1, (d₁.axis mouse pressed 1).1),
        (3, (d₃.axis mouse pressed 3).1), (4, (d₄.axis mouse pressed 4).1)].lookup i).getD 0 := rfl
  rw [haxis]
  simp only [List.lookup_cons]
  split
  · exact d.axis_range mouse pressed 0
  split
  · exact d₁.axis_range mouse pressed 1
  split
  · exact d₃.axis_range mouse pressed 3
  split
  · exact d₄.axis_range mouse pressed 4
  · exact axisRange_zero

/-! ## The socket -/

namespace PadSocket

theorem clampAxis_range {py : Runtime} {value : Value} {x : ℚ} (h : clampAxis py value = .ok x) :
    AxisRange x := by
  unfold clampAxis at h
  split at h
  · rename_i y _
    obtain ⟨z, hz, hlow, hhigh⟩ := Python.Double.clamp_min_second (show (-1 : ℚ) ≤ 1 by norm_num) y
    rw [hz] at h
    cases h
    exact .of_unit hlow hhigh
  · cases h
    exact axisRange_zero
  · cases h
    exact axisRange_zero
  · cases h

/-- Every value entered for an axis is in range. -/
def AxesInRange (s : PadSocket) : Prop :=
  ExpiryTable.EveryEntry (fun v : ℚ × ℚ => AxisRange v.1) s.axisUntil

theorem applyCommand_axesInRange (py : Runtime) (deadline : ℚ) {s : PadSocket}
    (h : s.AxesInRange) (command : String) : (applyCommand py deadline s command).AxesInRange := by
  unfold applyCommand
  dsimp only
  split
  · exact h
  split
  · exact h
  split
  · exact h
  split
  · exact ExpiryTable.EveryEntry.insert h (.of_unit (by norm_num) le_rfl) _
  · exact h

theorem assignAxes_axesInRange (py : Runtime) (deadline : ℚ) (axes : List (Nat × Value))
    {s : PadSocket} (h : s.AxesInRange) : (assignAxes py deadline s axes).1.AxesInRange := by
  induction axes generalizing s with
  | nil => exact h
  | cons a axes ih =>
    unfold assignAxes
    cases hclamp : clampAxis py a.2 with
    | error e => exact h
    | ok x => exact ih (ExpiryTable.EveryEntry.insert h (clampAxis_range hclamp) _)

theorem next_axesInRange (py : Runtime) (s : PadSocket) (step : SocketStep) (h : s.AxesInRange) :
    (s.next py step).AxesInRange := by
  cases step with
  | expire now => exact ExpiryTable.EveryEntry.expire h now
  | apply reading event =>
    show (applyEvent py reading s event).1.AxesInRange
    rcases applyEvent_cases py reading s event with heq | ⟨d, -, commands, axes, -, heq⟩
    · rw [heq]
      exact h
    · rw [heq]
      apply assignAxes_axesInRange
      exact List.foldlRecOn commands _ h fun s hs command _ => applyCommand_axesInRange py _ hs _

theorem initial_axesInRange : initial.AxesInRange := ExpiryTable.everyEntry_empty

theorem run_axesInRange (py : Runtime) (steps : List SocketStep) :
    (Trace.run (next py) initial steps).AxesInRange :=
  Trace.run_invariant (next_axesInRange py) initial_axesInRange steps

theorem AxesInRange.axis {s : PadSocket} (h : s.AxesInRange) (now : ℚ) (i : Nat) :
    AxisRange (s.axis now i) := by
  unfold PadSocket.axis
  cases hi : s.axisUntil.lookup i with
  | none => simp [axisRange_zero]
  | some v =>
    simp only [Option.getD_some]
    split
    · exact h i v hi
    · exact axisRange_zero

end PadSocket

/-! ## All of them -/

/-- **Every axis of every controller is in range.** -/
theorem Answers.axis_range {pad : Pad} {r : Readings} (h : Answers pad r) (i : Nat) :
    AxisRange (r.axis i) := by
  cases h with
  | padX slot g =>
    cases hi : PadX.axis g i with
    | none => simp [PadX.readings, hi, axisRange_zero]
    | some v => simpa [PadX.readings, hi] using PadX.axis_range hi
  | padSDL index c =>
    cases hi : PadSDL.axis c i with
    | none => simp [PadSDL.readings, hi, axisRange_zero]
    | some v => simpa [PadSDL.readings, hi] using PadSDL.axis_range hi
  | padK mouse pressed d => exact d.readings_range mouse pressed i
  | padSocket py steps now => exact (PadSocket.run_axesInRange py _).axis _ _

end XInputSwitch
