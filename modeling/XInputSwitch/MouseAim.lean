import Mathlib.Tactic.Linarith
import XInputSwitch.BuildPacket
import XInputSwitch.Trace

/-! # Aiming with the mouse

`PadK` of `xinput2serial.py`: the keyboard for the left stick and the buttons, the mouse
for the right stick.  `axis` looks like a question and is not: whenever it is asked for
anything but the left stick, it puts the cursor back to the centre of the window, so that
the next question finds it there.  `build_packet` asks for the two coordinates of the right
stick one after the other, and the second is always zero (`mouse_aiming`).

The cursor is part of the state (`Desk`): `SetCursorPos` sets it, `get_position` reads it,
and the user moves it between frames.  What the keyboard answers stays the same while one
packet is built.
-/
namespace XInputSwitch

/-- `KEY_MAPPING`. -/
def keyMapping : List (Nat × String) :=
  [(0, "ctrl"), (1, "space"), (2, "r"), (3, "e"), (4, "q"), (5, "f"), (6, "tab"), (7, "enter"),
   (9, "v"), (10, "x")]

/-- The name of a key that `build_packet` looks up itself. -/
def Key.name : Key → String
  | .h => "h"
  | .c => "c"
  | .shift => "shift"
  | .ctrl => "ctrl"

/-- `PadK.SENS`. -/
def sens : ℚ := 30

structure PadK where
  prevX : Int
  prevY : Int
  center : Option (Int × Int)
deriving DecidableEq, Repr

/-- The controller and the cursor it moves. -/
structure Desk where
  pad : PadK
  cursor : Int × Int
deriving DecidableEq, Repr

/-- `max(-1, min(1, x))`. -/
def clampUnit (x : ℚ) : ℚ := max (-1) (min 1 x)

/-- What happens before a packet is built: the user moves the cursor and holds keys. -/
structure MouseFrame where
  dx : Int
  dy : Int
  pressed : String → Bool

namespace Desk

/-- The constructor of `PadK`, if it does not raise: the library for the keyboard must be
there, and if the one for the mouse is, the centre must be known. -/
def create (keyboard mouse : Bool) (center : Option (Int × Int)) (cursor : Int × Int) :
    Option Desk :=
  if !keyboard then none
  else if mouse then center.map fun c => ⟨⟨c.1, c.2, some c⟩, c⟩
  else some ⟨⟨0, 0, center⟩, cursor⟩

/-- `PadK.axis`. -/
def axis (mouse : Bool) (pressed : String → Bool) (d : Desk) (i : Nat) : ℚ × Desk :=
  if i = 0 then (if pressed "d" then 1 else if pressed "a" then -1 else 0, d)
  else if i = 1 then (if pressed "w" then 1 else if pressed "s" then -1 else 0, d)
  else
    match mouse, d.pad.center with
    | true, some c =>
      let dx : Int := d.cursor.1 - d.pad.prevX
      let dy : Int := d.cursor.2 - d.pad.prevY
      -- the cursor is put back whichever coordinate is asked for
      let recentered : Desk := ⟨{ d.pad with prevX := c.1, prevY := c.2 }, c⟩
      if i = 3 then (clampUnit (dx / sens), recentered)
      else if i = 4 then (clampUnit (-dy / sens), recentered)
      else (0, recentered)
    | _, _ => (0, d)

/-- `PadK.btn`. -/
def btn (pressed : String → Bool) (i : Nat) : Bool :=
  match keyMapping.lookup i with
  | some key => pressed key
  | none => false

/-- What `build_packet` is told, with the axes asked for in its order. -/
def readings (mouse : Bool) (pressed : String → Bool) (d : Desk) : Readings × Desk :=
  let (lx, d) := d.axis mouse pressed 0
  let (ly, d) := d.axis mouse pressed 1
  let (rx, d) := d.axis mouse pressed 3
  let (ry, d) := d.axis mouse pressed 4
  ({ btn := btn pressed
     axis := fun i => ([(0, lx), (1, ly), (3, rx), (4, ry)].lookup i).getD 0
     hat := (0, 0)
     extraButtons := 0
     isPressed := fun key => pressed key.name }, d)

/-- The user moves the cursor, and a packet is built. -/
def frame (mouse : Bool) (d : Desk) (f : MouseFrame) : Option Packet × Desk :=
  let moved : Desk := { d with cursor := (d.cursor.1 + f.dx, d.cursor.2 + f.dy) }
  let (r, d) := moved.readings mouse f.pressed
  (buildPacket .padK r, d)

def next (mouse : Bool) (d : Desk) (f : MouseFrame) : Desk := (d.frame mouse f).2

/-! ## One frame -/

/-- The cursor is at the centre, and moves are counted from there. -/
def centered (c : Int × Int) : Desk := ⟨⟨c.1, c.2, some c⟩, c⟩

section Frame
variable (c : Int × Int) (pressed : String → Bool)

/-- The right stick, asked for its first coordinate: the cursor is at the centre again. -/
theorem axis_three (dx dy : Int) :
    axis true pressed { centered c with cursor := (c.1 + dx, c.2 + dy) } 3 =
      (clampUnit (dx / sens), centered c) := by
  have hdx : c.1 + dx - c.1 = dx := by omega
  show (clampUnit ((c.1 + dx - c.1 : Int) / sens), centered c) = _
  rw [hdx]

/-- Asked for its second coordinate with the cursor at the centre, it has nothing to tell. -/
theorem axis_four : axis true pressed (centered c) 4 = (0, centered c) := by
  have hdy : c.2 - c.2 = 0 := by omega
  show (clampUnit (-(c.2 - c.2 : Int) / sens), centered c) = _
  rw [hdy]
  norm_num [clampUnit]

/-- The four questions, one after the other. -/
theorem readings_of_axes {mouse : Bool} {pressed : String → Bool} {d d₀ d₁ d₃ d₄ : Desk}
    {lx ly rx ry : ℚ} (h₀ : d.axis mouse pressed 0 = (lx, d₀))
    (h₁ : d₀.axis mouse pressed 1 = (ly, d₁)) (h₃ : d₁.axis mouse pressed 3 = (rx, d₃))
    (h₄ : d₃.axis mouse pressed 4 = (ry, d₄)) :
    d.readings mouse pressed =
      ({ btn := btn pressed
         axis := fun i => ([(0, lx), (1, ly), (3, rx), (4, ry)].lookup i).getD 0
         hat := (0, 0)
         extraButtons := 0
         isPressed := fun key => pressed key.name }, d₄) := by
  simp only [readings, h₀, h₁, h₃, h₄]

/-- **What a frame is worth**: the horizontal move, and no vertical one.  The cursor is back
at the centre. -/
theorem frame_centered (f : MouseFrame) :
    ∃ packet, (centered c).frame true f = (some packet, centered c) ∧
      packet.rx = clampUnit (f.dx / sens) ∧ packet.ry = 0 := by
  let moved : Desk := { centered c with cursor := (c.1 + f.dx, c.2 + f.dy) }
  have hlx : moved.axis true f.pressed 0 = (_, moved) := rfl
  have hly : moved.axis true f.pressed 1 = (_, moved) := rfl
  have hreadings := readings_of_axes hlx hly (axis_three c f.pressed f.dx f.dy)
    (axis_four c f.pressed)
  have hframe : (centered c).frame true f = (buildPacket .padK (moved.readings true f.pressed).1,
      (moved.readings true f.pressed).2) := rfl
  rw [hframe, hreadings]
  exact ⟨_, rfl, rfl, rfl⟩

theorem run_centered (frames : List MouseFrame) :
    Trace.run (next true) (centered c) frames = centered c := by
  refine Trace.run_invariant (I := fun d => d = centered c) ?_ rfl frames
  rintro d f rfl
  obtain ⟨packet, hframe, -, -⟩ := frame_centered c f
  rw [next, hframe]

end Frame
end Desk

theorem clampUnit_eq_zero_iff (x : ℚ) : clampUnit x = 0 ↔ x = 0 := by
  unfold clampUnit
  constructor
  · intro h
    rcases le_total 1 x with h₁ | h₁
    · rw [min_eq_left h₁] at h
      norm_num at h
    · rw [min_eq_right h₁] at h
      rcases le_total x (-1) with h₂ | h₂
      · rw [max_eq_left h₂] at h
        norm_num at h
      · rwa [max_eq_right h₂] at h
  · rintro rfl
    norm_num

/-- **Mouse aiming keeps one axis.**  In every frame of every run with a known centre, the
packet has the move of the cursor on both axes of the right stick, and the cursor is back
at the centre, if and only if the cursor was not moved vertically. -/
theorem mouse_aiming (center cursor : Int × Int) (frames : List MouseFrame) (f : MouseFrame) :
    ∃ start, Desk.create true true (some center) cursor = some start ∧
      let d := Trace.run (Desk.next true) start frames
      ∃ packet, (d.frame true f).1 = some packet ∧
        ((packet.rx = clampUnit (f.dx / 30) ∧ packet.ry = clampUnit (-f.dy / 30) ∧
          (d.frame true f).2.cursor = center) ↔ f.dy = 0) := by
  refine ⟨Desk.centered center, rfl, ?_⟩
  obtain ⟨packet, hframe, hrx, hry⟩ := Desk.frame_centered center f
  rw [Desk.run_centered]
  intro d
  rw [hframe]
  refine ⟨packet, rfl, ?_⟩
  have hzero : clampUnit (-f.dy / 30) = 0 ↔ f.dy = 0 := by
    rw [clampUnit_eq_zero_iff, div_eq_zero_iff, neg_eq_zero, Int.cast_eq_zero]
    exact or_iff_left (by norm_num)
  constructor
  · rintro ⟨-, hy, -⟩
    exact hzero.mp (hy.symm.trans hry)
  · intro hdy
    exact ⟨hrx, hry.trans (hzero.mpr hdy).symm, rfl⟩

/-- The cursor 60 pixels further down: the stick stays in the middle. -/
theorem mouse_aiming_down :
    let f : MouseFrame := ⟨0, 60, fun _ => false⟩
    ((Desk.create true true (some (960, 540)) (3, 3)).bind fun d => (d.frame true f).1) =
        some Packet.neutral ∧
      clampUnit (-f.dy / 30) = -1 := by
  refine ⟨by decide +kernel, ?_⟩
  norm_num [clampUnit]

end XInputSwitch
