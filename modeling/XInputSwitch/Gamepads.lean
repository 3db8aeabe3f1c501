import Mathlib.Tactic.Linarith
import Mathlib.Tactic.NormNum
import XInputSwitch.BuildPacket

/-! # Gamepads

`PadX` and `PadSDL` of `xinput2serial.py`: how the readings of a gamepad become buttons, a
hat and axes.  XInput fills in a record (`Gamepad`) of whose fields the sticks are signed
and the triggers unsigned; SDL is asked for every button and axis separately
(`SdlController`), and what it answers for an axis is an integer of unknown range.

An index outside the lists is an `IndexError`: the methods are partial.  `build_packet` asks
for none, so for its `readings` the missing entries do not matter.

Whatever the device answers, the hat is one that `build_packet` knows (`hatMap_direction`),
and an axis is in a range (`AxisRange`) that goes beyond the unit at its lower end only.
-/
namespace XInputSwitch

/-! ## XInput -/

/-- `_GP`: what `XInputGetState` fills in. -/
structure Gamepad where
  wButtons : BitVec 16
  bLT : Byte
  bRT : Byte
  sLX : BitVec 16
  sLY : BitVec 16
  sRX : BitVec 16
  sRY : BitVec 16
deriving DecidableEq, Repr

/-- `BTN_MASKS`. -/
def btnMasks : List (BitVec 16) :=
  [0x1000, 0x2000, 0x4000, 0x8000, 0x0100, 0x0200, 0x0020, 0x0010, 0x0400, 0x0040, 0x0080]

/-- A direction from two buttons: pressed together they cancel. -/
def buttonDirection (positive negative : Bool) : Int :=
  (if positive then 1 else 0) + (if negative then -1 else 0)

namespace PadX

def btn (g : Gamepad) (i : Nat) : Option Bool :=
  btnMasks[i]?.map fun mask => g.wButtons &&& mask != 0

def axis (g : Gamepad) (i : Nat) : Option ℚ :=
  [(g.sLX.toInt : ℚ) / 32767, (g.sLY.toInt : ℚ) / 32767, (g.bLT.toNat : ℚ) / 255,
   (g.sRX.toInt : ℚ) / 32767, (g.sRY.toInt : ℚ) / 32767, (g.bRT.toNat : ℚ) / 255][i]?

def hat (g : Gamepad) : Int × Int :=
  let w := g.wButtons
  (buttonDirection (w &&& 0x0008 != 0) (w &&& 0x0004 != 0),
   buttonDirection (w &&& 0x0001 != 0) (w &&& 0x0002 != 0))

/-- What `build_packet` is told. -/
def readings (g : Gamepad) : Readings where
  btn i := (btn g i).getD false
  axis i := (axis g i).getD 0
  hat := hat g
  extraButtons := 0
  isPressed _ := false

end PadX

/-! ## SDL -/

/-- The `CONTROLLER_BUTTON` constants that are used. -/
inductive SdlButton where
  | a
  | b
  | x
  | y
  | leftShoulder
  | rightShoulder
  | back
  | start
  | guide
  | leftStick
  | rightStick
  | dpadUp
  | dpadDown
  | dpadLeft
  | dpadRight
deriving DecidableEq, Repr

/-- The `CONTROLLER_AXIS` constants. -/
inductive SdlAxis where
  | leftX
  | leftY
  | triggerLeft
  | rightX
  | rightY
  | triggerRight
deriving DecidableEq, Repr

/-- `SDL_BUTTONS`. -/
def sdlButtons : List SdlButton :=
  [.a, .b, .x, .y, .leftShoulder, .rightShoulder, .back, .start, .guide, .leftStick, .rightStick]

/-- `SDL_AXES`. -/
def sdlAxes : List SdlAxis := [.leftX, .leftY, .triggerLeft, .rightX, .rightY, .triggerRight]

/-- What an open controller answers. -/
structure SdlController where
  getButton : SdlButton → Bool
  getAxis : SdlAxis → Int

/-- `norm_sdl_axis`. -/
def normSdlAxis (value : Int) : ℚ :=
  if value < 0 then max (-1) (value / 32768) else min 1 (value / 32767)

/-- `norm_sdl_trigger`. -/
def normSdlTrigger (value : Int) : ℚ :=
  if value < 0 then max 0 (min 1 ((value + 32768) / 65535)) else max 0 (min 1 (value / 32767))

namespace PadSDL

def btn (c : SdlController) (i : Nat) : Option Bool := sdlButtons[i]?.map c.getButton

def axis (c : SdlController) (i : Nat) : Option ℚ :=
  sdlAxes[i]?.map fun a =>
    let value := c.getAxis a
    if i = 2 ∨ i = 5 then normSdlTrigger value
    else
      let normalized := normSdlAxis value
      if i = 1 ∨ i = 4 then -normalized else normalized

def hat (c : SdlController) : Int × Int :=
  (buttonDirection (c.getButton .dpadRight) (c.getButton .dpadLeft),
   buttonDirection (c.getButton .dpadUp) (c.getButton .dpadDown))

/-- What `build_packet` is told. -/
def readings (c : SdlController) : Readings where
  btn i := (btn c i).getD false
  axis i := (axis c i).getD 0
  hat := hat c
  extraButtons := 0
  isPressed _ := false

end PadSDL

/-- The directions of a hat cancel, and every pair that is left is in `HAT_MAP`. -/
theorem hatMap_direction (right left up down : Bool) :
    (hatMap.lookup (buttonDirection right left, buttonDirection up down)).isSome = true := by
  revert right left up down
  decide

/-! ## The range of an axis -/

/-- The values of an axis: an XInput stick is divided by the greatest reading, and so goes a
little below `-1`. -/
def AxisRange (v : ℚ) : Prop := -32768 / 32767 ≤ v ∧ v ≤ 1

instance (v : ℚ) : Decidable (AxisRange v) := inferInstanceAs (Decidable (_ ∧ _))

/-- Values within the unit are in range. -/
theorem AxisRange.of_unit {v : ℚ} (hlow : -1 ≤ v) (hhigh : v ≤ 1) : AxisRange v :=
  ⟨by linarith, hhigh⟩

theorem axisRange_zero : AxisRange 0 := .of_unit (by norm_num) (by norm_num)

/-- A signed reading. -/
theorem axisRange_stick (s : BitVec 16) : AxisRange ((s.toInt : ℚ) / 32767) := by
  have hlow : (-32768 : ℚ) ≤ s.toInt := by exact_mod_cast s.le_toInt
  have hhigh : (s.toInt : ℚ) ≤ 32767 := by exact_mod_cast Int.le_of_lt_add_one s.toInt_lt
  constructor <;> linarith

/-- An unsigned reading. -/
theorem axisRange_trigger (b : Byte) : AxisRange ((b.toNat : ℚ) / 255) := by
  have hlow : (0 : ℚ) ≤ b.toNat := Nat.cast_nonneg _
  have hhigh : (b.toNat : ℚ) ≤ 255 := by exact_mod_cast Nat.le_of_lt_succ b.isLt
  apply AxisRange.of_unit <;> linarith

theorem PadX.axis_range {g : Gamepad} {i : Nat} {v : ℚ} (h : PadX.axis g i = some v) :
    AxisRange v := by
  have hmem := List.mem_of_getElem? h
  simp only [List.mem_cons, List.not_mem_nil, or_false] at hmem
  rcases hmem with rfl | rfl | rfl | rfl | rfl | rfl
  · exact axisRange_stick _
  · exact axisRange_stick _
  · exact axisRange_trigger _
  · exact axisRange_stick _
  · exact axisRange_stick _
  · exact axisRange_trigger _

/-- Whatever SDL answers, the two ends are those of the unit. -/
theorem normSdlAxis_bounds (value : Int) : -1 ≤ normSdlAxis value ∧ normSdlAxis value ≤ 1 := by
  unfold normSdlAxis
  split
  · rename_i hneg
    have hneg : (value : ℚ) < 0 := by exact_mod_cast hneg
    exact ⟨le_max_left _ _, max_le (by norm_num) (by linarith)⟩
  · rename_i hneg
    have hpos : (0 : ℚ) ≤ value := by exact_mod_cast not_lt.mp hneg
    exact ⟨le_min (by norm_num) (by linarith), min_le_left _ _⟩

theorem normSdlTrigger_bounds (value : Int) :
    0 ≤ normSdlTrigger value ∧ normSdlTrigger value ≤ 1 := by
  unfold normSdlTrigger
  split <;> exact ⟨le_max_left _ _, max_le zero_le_one (min_le_left _ _)⟩

theorem PadSDL.axis_range {c : SdlController} {i : Nat} {v : ℚ} (h : PadSDL.axis c i = some v) :
    AxisRange v := by
  obtain ⟨a, -, rfl⟩ := Option.map_eq_some_iff.mp h
  obtain ⟨hlow, hhigh⟩ := normSdlAxis_bounds (c.getAxis a)
  obtain ⟨htlow, hthigh⟩ := normSdlTrigger_bounds (c.getAxis a)
  dsimp only
  split
  · exact .of_unit (by linarith) hthigh
  · split
    · exact .of_unit (by linarith) (by linarith)
    · exact .of_unit hlow hhigh

end XInputSwitch
