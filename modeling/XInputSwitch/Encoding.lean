import XInputSwitch.BuildPacket
import XInputSwitch.Joystick

/-! # From the bridge's packet to the console's report

A press travels through three tables written separately: the masks the bridge sets
(`BTN_MAP`, `HAT_MAP`), the masks and hat values the firmware tests, and the order of
the bit-fields in the report.  In between are the fourteen buttons, a direction and
four stick positions (`ControllerInput`), whatever they are called on either side.

`populateReportFromSerial_layout` says that the firmware turns the payload of an input
into the report of that input; reading the image of the report back
gives the input again.
-/
namespace XInputSwitch

/-! ## Inputs -/

inductive Button where
  | y
  | b
  | a
  | x
  | l
  | r
  | zl
  | zr
  | minus
  | plus
  | lclick
  | rclick
  | home
  | capture
deriving DecidableEq, Repr

/-- The mask the firmware tests. -/
def Button.mask : Button → BitVec 16
  | .y => switchY
  | .b => switchB
  | .a => switchA
  | .x => switchX
  | .l => switchL
  | .r => switchR
  | .zl => switchZl
  | .zr => switchZr
  | .minus => switchMinus
  | .plus => switchPlus
  | .lclick => switchLclick
  | .rclick => switchRclick
  | .home => switchHome
  | .capture => switchCapture

/-- The bit of a button in the mask `b` of a packet. -/
def Button.bit : Button → Nat
  | .y => 0
  | .b => 1
  | .a => 2
  | .x => 3
  | .l => 4
  | .r => 5
  | .zl => 6
  | .zr => 7
  | .minus => 8
  | .plus => 9
  | .lclick => 10
  | .rclick => 11
  | .home => 12
  | .capture => 13

/-- Where the flag of a button is in the image of a report: byte and bit. -/
def Button.place : Button → Nat × Nat
  | .y => (1, 0)
  | .x => (1, 1)
  | .b => (1, 2)
  | .a => (1, 3)
  | .r => (1, 6)
  | .zr => (1, 7)
  | .minus => (2, 0)
  | .plus => (2, 1)
  | .rclick => (2, 2)
  | .lclick => (2, 3)
  | .home => (2, 4)
  | .capture => (2, 5)
  | .l => (3, 6)
  | .zl => (3, 7)

/-- What is held on a controller. -/
structure ControllerInput where
  pressed : Button → Bool
  /-- as in `HAT_MAP`: to the right and up are positive -/
  direction : Int × Int
  lx : Byte
  ly : Byte
  rx : Byte
  ry : Byte

/-- The direction `HAT_MAP` has for a hat value; values it does not have are no
direction. -/
def hatDirection (d : Nat) : Int × Int :=
  ((hatMap.find? fun e => e.2 = d).map Prod.fst).getD (0, 0)

/-- The input that a payload of `Packet.pack` stands for, the hat value being cut to a
byte. -/
def ControllerInput.ofPacket (b d : Nat) (lx ly rx ry : Byte) : ControllerInput :=
  ⟨fun k => b.testBit k.bit, hatDirection (d % 256), lx, ly, rx, ry⟩

/-! ## Reports -/

/-- A stick byte as a 12-bit position: in the middle of its sixteenth. -/
def stickWord (v : Byte) : BitVec 16 := (v.setWidth 16 <<< 4) ||| 0x08

/-- The report of an input. -/
def ControllerInput.report (i : ControllerInput) : StandardReport :=
  let (l₀, l₁, l₂) := packSticks (stickWord i.lx) (stickWord i.ly)
  let (r₀, r₁, r₂) := packSticks (stickWord i.rx) (stickWord i.ry)
  { connectionInfo := 1
    batteryLevel := batteryFull ||| batteryCharging
    buttonY := i.pressed .y
    buttonX := i.pressed .x
    buttonB := i.pressed .b
    buttonA := i.pressed .a
    buttonRightSr := false
    buttonRightSl := false
    buttonR := i.pressed .r
    buttonZr := i.pressed .zr
    buttonMinus := i.pressed .minus
    buttonPlus := i.pressed .plus
    buttonThumbR := i.pressed .rclick
    buttonThumbL := i.pressed .lclick
    buttonHome := i.pressed .home
    buttonCapture := i.pressed .capture
    dummy := false
    chargingGrip := true
    dpadDown := i.direction.2 = -1
    dpadUp := i.direction.2 = 1
    dpadRight := i.direction.1 = 1
    dpadLeft := i.direction.1 = -1
    buttonLeftSr := false
    buttonLeftSl := false
    buttonL := i.pressed .l
    buttonZl := i.pressed .zl
    analog := #v[l₀, l₁, l₂] ++ #v[r₀, r₁, r₂]
    vibratorInputReport := 0 }

theorem Button.mask_eq (k : Button) : k.mask = BitVec.twoPow 16 k.bit := by
  cases k <;> rfl

theorem and_twoPow_beq (w : BitVec 16) {n : Nat} (hn : n < 16) :
    (w &&& BitVec.twoPow 16 n == BitVec.twoPow 16 n) = w.getLsbD n := by
  have hne : (0 : BitVec 16) ≠ BitVec.twoPow 16 n := by
    intro h
    have := congrArg (fun v => v.getLsbD n) h
    simp [hn] at this
  rw [BitVec.and_twoPow]
  split
  · rename_i h
    simp [h]
  · rename_i h
    rw [Bool.not_eq_true] at h
    rw [h, beq_eq_false_iff_ne]
    exact hne

/-- The two button bytes of a payload, put together again. -/
theorem button_word (b : Nat) :
    ((BitVec.ofNat 8 ((b >>> 8) &&& 0xFF)).setWidth 16 <<< 8 |||
      (BitVec.ofNat 8 (b &&& 0xFF)).setWidth 16) = BitVec.ofNat 16 b := by
  apply BitVec.eq_of_getLsbD_eq
  intro i hi
  have h255 : 0xFF = 2 ^ 8 - 1 := rfl
  simp only [BitVec.getLsbD_or, BitVec.getLsbD_shiftLeft, BitVec.getLsbD_setWidth,
    BitVec.getLsbD_ofNat, h255, Nat.testBit_and, Nat.testBit_shiftRight,
    Nat.testBit_two_pow_sub_one]
  by_cases h8 : i < 8
  · simp [h8, hi]
  · have hadd : 8 + (i - 8) = i := by omega
    have hsub : i - 8 < 8 ∧ i - 8 < 16 := by omega
    simp [h8, hi, hadd, hsub]

theorem Button.mask_beq (k : Button) (b : Nat) :
    (BitVec.ofNat 16 b &&& k.mask == k.mask) = b.testBit k.bit := by
  have hbit : k.bit < 16 := by cases k <;> decide
  rw [k.mask_eq, and_twoPow_beq _ hbit, BitVec.getLsbD_ofNat, decide_eq_true hbit, Bool.true_and]

/-- The hat values the firmware tests for each flag, against `HAT_MAP`. -/
theorem hat_flags : ∀ x : Byte,
    (x == hatBottomRight || x == hatBottom || x == hatBottomLeft) =
        decide ((hatDirection x.toNat).2 = -1) ∧
      (x == hatTop || x == hatTopRight || x == hatTopLeft) =
        decide ((hatDirection x.toNat).2 = 1) ∧
      (x == hatTopRight || x == hatRight || x == hatBottomRight) =
        decide ((hatDirection x.toNat).1 = 1) ∧
      (x == hatBottomLeft || x == hatLeft || x == hatTopLeft) =
        decide ((hatDirection x.toNat).1 = -1) := by
  decide +kernel

/-- The payload that `Packet.pack` lays out, for any stick bytes. -/
def Packet.layout (b d : Nat) (lx ly rx ry : Byte) : Vector Byte 8 :=
  #v[BitVec.ofNat 8 ((b >>> 8) &&& 0xFF), BitVec.ofNat 8 (b &&& 0xFF), BitVec.ofNat 8 (d &&& 0xFF),
     lx, ly, rx, ry, 0]

theorem Packet.pack_eq_layout (p : Packet) :
    p.pack = layout p.b p.d (deadZone (norm p.lx)) (deadZone (norm p.ly)) (deadZone (norm p.rx))
      (deadZone (norm p.ry)) := rfl

/-- **The firmware reports the input that the payload stands for.** -/
theorem populateReportFromSerial_layout (b d : Nat) (lx ly rx ry : Byte) :
    populateReportFromSerial (Packet.layout b d lx ly rx ry) =
      (ControllerInput.ofPacket b d lx ly rx ry).report := by
  have hword : ((Packet.layout b d lx ly rx ry)[0].setWidth 16 <<< 8 |||
      (Packet.layout b d lx ly rx ry)[1].setWidth 16) = BitVec.ofNat 16 b := button_word b
  have hhat : ((Packet.layout b d lx ly rx ry)[2]).toNat = d % 256 := by
    have : ((Packet.layout b d lx ly rx ry)[2]).toNat = (d &&& (2 ^ 8 - 1)) % 2 ^ 8 := rfl
    rw [this, Nat.and_two_pow_sub_one_eq_mod, Nat.mod_mod]
  obtain ⟨hdown, hup, hright, hleft⟩ := hat_flags (Packet.layout b d lx ly rx ry)[2]
  rw [hhat] at hdown hup hright hleft
  have hflag := fun k : Button => k.mask_beq b
  unfold populateReportFromSerial ControllerInput.report
  simp only [hword, hdown, hup, hright, hleft]
  congr 1
  exacts [hflag .y, hflag .x, hflag .b, hflag .a, hflag .r, hflag .zr, hflag .minus, hflag .plus,
    hflag .rclick, hflag .lclick, hflag .home, hflag .capture, hflag .l, hflag .zl]

/-! ## The image of a report -/

/-- A bit of the image, by byte and bit. -/
def imageBit (image : List Byte) (place : Nat × Nat) : Bool :=
  (image.getD place.1 0).getLsbD place.2

/-- Two 12-bit positions in three bytes: the low byte of the first, its high bits beside
the low bits of the second, the high byte of the second. -/
def unpackSticks (a₀ a₁ a₂ : Byte) : Nat × Nat :=
  (a₀.toNat + 256 * (a₁.toNat % 16), a₁.toNat / 16 + 16 * a₂.toNat)

/-- The two positions of a stick, from the byte `start` of the image on. -/
def imageSticks (image : List Byte) (start : Nat) : Nat × Nat :=
  unpackSticks (image.getD start 0) (image.getD (start + 1) 0) (image.getD (start + 2) 0)

theorem ControllerInput.report_button (i : ControllerInput) (k : Button) :
    imageBit i.report.toBytes k.place = i.pressed k := by
  cases k <;> exact packBits_getLsbD ..

/-- The two positions share the second byte, but the lower half of a stick word is
always the same. -/
theorem packSticks_stickWord (v w : Byte) :
    packSticks (stickWord v) (stickWord w) =
      ((stickWord v &&& 0xFF).setWidth 8,
       ((0x80 : BitVec 16) ||| ((stickWord v &&& 0xF00) >>> 8)).setWidth 8, w) := by
  have hlow : ∀ w : Byte, (stickWord w &&& 0x0F) <<< 4 = 0x80 := by decide +kernel
  have hhigh : ∀ w : Byte, ((stickWord w &&& 0xFF0) >>> 4).setWidth 8 = w := by decide +kernel
  rw [packSticks, hlow, hhigh]

theorem unpackSticks_stickWord (v w : Byte) :
    let p := packSticks (stickWord v) (stickWord w)
    unpackSticks p.1 p.2.1 p.2.2 = (16 * v.toNat + 8, 16 * w.toNat + 8) := by
  have hfirst : ∀ v : Byte,
      ((stickWord v &&& 0xFF).setWidth 8 : Byte).toNat +
          256 * ((((0x80 : BitVec 16) |||
            ((stickWord v &&& 0xF00) >>> 8)).setWidth 8 : Byte).toNat % 16) =
        16 * v.toNat + 8 := by decide +kernel
  have hsecond : ∀ v : Byte,
      (((0x80 : BitVec 16) ||| ((stickWord v &&& 0xF00) >>> 8)).setWidth 8 : Byte).toNat / 16 =
        8 := by
    decide +kernel
  intro p
  simp only [p, packSticks_stickWord, unpackSticks, hfirst, hsecond, Prod.mk.injEq, true_and]
  omega

theorem ControllerInput.report_sticks (i : ControllerInput) :
    imageSticks i.report.toBytes 4 = (16 * i.lx.toNat + 8, 16 * i.ly.toNat + 8) ∧
      imageSticks i.report.toBytes 7 = (16 * i.rx.toNat + 8, 16 * i.ry.toNat + 8) :=
  ⟨unpackSticks_stickWord i.lx i.ly, unpackSticks_stickWord i.rx i.ry⟩

/-- The four flags of the directional pad. -/
inductive Dpad where
  | down
  | up
  | right
  | left
deriving DecidableEq, Repr

/-- Where a flag of the pad is in the image of a report. -/
def Dpad.place : Dpad → Nat × Nat
  | .down => (3, 0)
  | .up => (3, 1)
  | .right => (3, 2)
  | .left => (3, 3)

/-- Whether a direction has a flag set. -/
def Dpad.shows (direction : Int × Int) : Dpad → Bool
  | .down => direction.2 = -1
  | .up => direction.2 = 1
  | .right => direction.1 = 1
  | .left => direction.1 = -1

theorem ControllerInput.report_dpad (i : ControllerInput) (k : Dpad) :
    imageBit i.report.toBytes k.place = k.shows i.direction := by
  cases k <;> exact packBits_getLsbD ..

/-- Hat values from 8 on are no direction. -/
theorem hatDirection_of_le {n : Nat} (h : 8 ≤ n) : hatDirection n = (0, 0) := by
  rcases Nat.eq_or_lt_of_le h with rfl | h
  · rfl
  · have hnone : hatMap.find? (fun e => e.2 = n) = none := by
      rw [List.find?_eq_none]
      intro e he
      have hle : ∀ e ∈ hatMap, e.2 ≤ 8 := by decide
      have := hle e he
      simp only [decide_eq_true_eq]
      omega
    rw [hatDirection, hnone]
    rfl

/-- The flags tell the directions of `HAT_MAP` apart. -/
theorem hatDirection_eq_of_shows {n m : Nat}
    (h : ∀ k : Dpad, k.shows (hatDirection n) = k.shows (hatDirection m)) :
    hatDirection n = hatDirection m := by
  have hof : ∀ n, hatDirection n =
      ((if Dpad.right.shows (hatDirection n) then 1 else
          if Dpad.left.shows (hatDirection n) then -1 else 0),
       (if Dpad.up.shows (hatDirection n) then 1 else
          if Dpad.down.shows (hatDirection n) then -1 else 0)) := by
    intro n
    rcases Nat.lt_or_ge n 8 with hn | hn
    · revert n
      decide
    · rw [hatDirection_of_le hn]
      rfl
  rw [hof n, hof m, h, h, h, h]

/-- **Controller input reaches the console unchanged.**  In the image of the report that
the firmware makes of a payload, each of the fourteen button flags is the bit of its
button in the mask, the pad shows the direction of the hat value (none from 8 on), and
unpacking the sticks gives `16 * v + 8` for each of the four stick bytes; so two
payloads give the same report exactly if they agree on all of that. -/
theorem controller_encoding (b d : Nat) (lx ly rx ry : Byte) :
    let image := (populateReportFromSerial (Packet.layout b d lx ly rx ry)).toBytes
    image.length = 11 ∧
      (∀ k : Button, imageBit image k.place = b.testBit k.bit) ∧
      (∀ k : Dpad, imageBit image k.place = k.shows (hatDirection (d % 256))) ∧
      (8 ≤ d % 256 → ∀ k : Dpad, imageBit image k.place = false) ∧
      imageSticks image 4 = (16 * lx.toNat + 8, 16 * ly.toNat + 8) ∧
      imageSticks image 7 = (16 * rx.toNat + 8, 16 * ry.toNat + 8) ∧
      ∀ (b' d' : Nat) (lx' ly' rx' ry' : Byte),
        (populateReportFromSerial (Packet.layout b' d' lx' ly' rx' ry')).toBytes = image ↔
          (∀ k : Button, b'.testBit k.bit = b.testBit k.bit) ∧
            hatDirection (d' % 256) = hatDirection (d % 256) ∧
            lx' = lx ∧ ly' = ly ∧ rx' = rx ∧ ry' = ry := by
  intro image
  have himage : image = (ControllerInput.ofPacket b d lx ly rx ry).report.toBytes :=
    congrArg StandardReport.toBytes (populateReportFromSerial_layout b d lx ly rx ry)
  have hbutton : ∀ k : Button, imageBit image k.place = b.testBit k.bit := by
    intro k
    rw [himage, ControllerInput.report_button]
    rfl
  have hdpad : ∀ k : Dpad, imageBit image k.place = k.shows (hatDirection (d % 256)) := by
    intro k
    rw [himage, ControllerInput.report_dpad]
    rfl
  obtain ⟨hleft, hright⟩ := (ControllerInput.ofPacket b d lx ly rx ry).report_sticks
  rw [← himage] at hleft hright
  refine ⟨StandardReport.toBytes_length _, hbutton, hdpad, ?_, hleft, hright, ?_⟩
  · intro h k
    rw [hdpad, hatDirection_of_le h]
    cases k <;> rfl
  · intro b' d' lx' ly' rx' ry'
    rw [populateReportFromSerial_layout]
    constructor
    · intro heq
      -- everything is read back from the image
      have hbutton' := (ControllerInput.ofPacket b' d' lx' ly' rx' ry').report_button
      have hdpad' := (ControllerInput.ofPacket b' d' lx' ly' rx' ry').report_dpad
      obtain ⟨hleft', hright'⟩ := (ControllerInput.ofPacket b' d' lx' ly' rx' ry').report_sticks
      rw [heq] at hbutton' hdpad' hleft' hright'
      have hl := hleft'.symm.trans hleft
      have hr := hright'.symm.trans hright
      simp only [ControllerInput.ofPacket, Prod.mk.injEq] at hl hr
      refine ⟨fun k => (hbutton' k).symm.trans (hbutton k),
        hatDirection_eq_of_shows fun k => (hdpad' k).symm.trans (hdpad k), ?_, ?_, ?_, ?_⟩ <;>
      · apply BitVec.eq_of_toNat_eq
        omega
    · rintro ⟨hb, hd, rfl, rfl, rfl, rfl⟩
      have hinput : ControllerInput.ofPacket b' d' lx' ly' rx' ry' =
          ControllerInput.ofPacket b d lx' ly' rx' ry' := by
        simp only [ControllerInput.ofPacket, hb, hd]
      rw [himage, hinput]

end XInputSwitch
