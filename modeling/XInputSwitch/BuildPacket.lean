import XInputSwitch.Controllers
import XInputSwitch.SerialHost

/-! # From readings to a packet

`build_packet` of `xinput2serial.py`.  What a controller answers while a packet is
built is a record of `Readings`; the class of the controller decides which of them
are asked for, beyond the buttons of `BTN_MAP`, the hat and the sticks.

A hat position that `HAT_MAP` does not have is a `KeyError`: `buildPacket` is `none`.
-/
namespace XInputSwitch

/-- `BTN_MAP`: the mask of the Switch button for each button index. -/
def btnMap : List (Nat × Nat) :=
  [(0, 1 <<< 1), (1, 1 <<< 2), (2, 1 <<< 0), (3, 1 <<< 3), (4, 1 <<< 4), (5, 1 <<< 5),
   (6, 1 <<< 8), (7, 1 <<< 9), (9, 1 <<< 10), (10, 1 <<< 11)]

/-- `HAT_MAP`: the hat value of each direction. -/
def hatMap : List ((Int × Int) × Nat) :=
  [((0, 1), 0), ((1, 1), 1), ((1, 0), 2), ((1, -1), 3), ((0, -1), 4), ((-1, -1), 5),
   ((-1, 0), 6), ((-1, 1), 7), ((0, 0), 8)]

/-- The keys `build_packet` looks up itself for the keyboard. -/
inductive Key where
  | h
  | c
  | shift
  | ctrl
deriving DecidableEq, Repr

/-- What a controller answers while one packet is built. -/
structure Readings where
  btn : Nat → Bool
  axis : Nat → ℚ
  hat : Int × Int
  /-- `extra_buttons`, which only `PadSocket` has -/
  extraButtons : Nat
  /-- `keyboard and keyboard.is_pressed(...)` -/
  isPressed : Key → Bool

/-- `isinstance(p, (PadX, PadSDL))`. -/
def Pad.isGamepad : Pad → Bool
  | .padX _ => true
  | .padSDL _ => true
  | .padSocket => false
  | .padK => false

/-- The loop over `BTN_MAP`. -/
def mappedButtons (r : Readings) : Nat :=
  btnMap.foldl (fun b im => if r.btn im.1 then b ||| im.2 else b) 0

/-- The button mask `b` of `build_packet`. -/
def buttonMask (p : Pad) (r : Readings) : Nat :=
  let b := mappedButtons r
  let b := if p = .padK ∧ r.isPressed .h then b ||| 1 <<< 12 else b
  let b := if p = .padK ∧ r.isPressed .c then b ||| 1 <<< 13 else b
  let b := if p = .padSocket then b ||| r.extraButtons else b
  let b := if p.isGamepad ∧ ((r.btn 6 ∧ r.btn 7) ∨ r.btn 8) then b ||| 1 <<< 12 else b
  if p.isGamepad then
    let b := if 1 / 2 < r.axis 2 then b ||| 1 <<< 6 else b
    if 1 / 2 < r.axis 5 then b ||| 1 <<< 7 else b
  else if p = .padK then
    let b := if r.isPressed .shift then b ||| 1 <<< 6 else b
    if r.isPressed .ctrl then b ||| 1 <<< 7 else b
  else b

/-- `build_packet`. -/
def buildPacket (p : Pad) (r : Readings) : Option Packet :=
  (hatMap.lookup r.hat).map fun d =>
    ⟨buttonMask p r, d, r.axis 0, r.axis 1, r.axis 3, r.axis 4⟩

/-- A packet is built whenever the hat is a direction of `HAT_MAP`. -/
theorem exists_buildPacket {p : Pad} {r : Readings} (h : (hatMap.lookup r.hat).isSome = true) :
    ∃ packet, buildPacket p r = some packet := by
  obtain ⟨d, hd⟩ := Option.isSome_iff_exists.mp h
  exact ⟨_, Option.map_eq_some_iff.mpr ⟨d, hd, rfl⟩⟩

theorem buildPacket_mask {p : Pad} {r : Readings} {packet : Packet}
    (h : buildPacket p r = some packet) : packet.b = buttonMask p r := by
  obtain ⟨d, -, rfl⟩ := Option.map_eq_some_iff.mp h
  rfl

/-! ## The bits of the mask -/

theorem testBit_ite_or (c : Prop) [Decidable c] (b mask j : Nat) :
    (if c then b ||| mask else b).testBit j = (b.testBit j || (decide c && mask.testBit j)) := by
  split <;> simp [*]

/-- Masks collected by a loop: a bit is set if one of the masks taken has it. -/
theorem testBit_foldl_or {α : Type} (taken : α → Bool) (mask : α → Nat) (l : List α) (b j : Nat) :
    (l.foldl (fun b e => if taken e then b ||| mask e else b) b).testBit j =
      (b.testBit j || l.any fun e => taken e && (mask e).testBit j) := by
  induction l generalizing b with
  | nil => simp
  | cons e l ih =>
    rw [List.foldl_cons, ih, List.any_cons, ← Bool.or_assoc]
    cases taken e <;> simp

theorem testBit_mappedButtons (r : Readings) (j : Nat) :
    (mappedButtons r).testBit j = btnMap.any fun im => r.btn im.1 && im.2.testBit j := by
  rw [mappedButtons, testBit_foldl_or (fun im : Nat × Nat => r.btn im.1) Prod.snd]
  simp

/-- A bit is not set if no pressed button has it. -/
theorem testBit_mappedButtons_eq_false {r : Readings} {j : Nat}
    (h : ∀ im ∈ btnMap, im.2.testBit j = true → r.btn im.1 = false) :
    (mappedButtons r).testBit j = false := by
  rw [testBit_mappedButtons, List.any_eq_false]
  intro im him htaken
  rw [Bool.and_eq_true] at htaken
  rw [h im him htaken.2] at htaken
  exact Bool.false_ne_true htaken.1

/-- The mask of a socket controller: no trigger is looked at. -/
theorem buttonMask_padSocket (r : Readings) :
    buttonMask .padSocket r = mappedButtons r ||| r.extraButtons := by
  simp [buttonMask, Pad.isGamepad]

end XInputSwitch
