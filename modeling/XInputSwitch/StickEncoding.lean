import XInputSwitch.Backends
import XInputSwitch.Encoding

/-! # The byte of a stick

`Packet.pack` scales a stick position to `0 … 255`, truncates towards zero, keeps the low
eight bits and snaps what is near the centre to it.  A position below `-1` scales to
something below zero; that the byte is not that of the other end rests on how far below
`-1` a controller can go (`AxisRange`), and on `int` rounding up there.

Every class of controllers stays in that range (`Answers.axis_range`).  Within it the mask
changes nothing (`norm_toNat`), and the byte grows with the position, across both edges of
the snapped zone (`stickByte_mono`).  The firmware keeps that order on the way to the
console (`console_sticks_in_order`).
-/
namespace XInputSwitch

/-! ## Truncation -/

@[simp] theorem truncate_intCast (n : ℤ) : truncate n = n := by
  unfold truncate
  split
  · exact Int.floor_intCast n
  · exact Int.ceil_intCast n

theorem truncate_mono {x y : ℚ} (hxy : x ≤ y) : truncate x ≤ truncate y := by
  unfold truncate
  by_cases hx : 0 ≤ x
  · rw [if_pos hx, if_pos (hx.trans hxy)]
    exact Int.floor_le_floor hxy
  · rw [if_neg hx]
    split
    · rename_i hy
      have hceil : ⌈x⌉ ≤ 0 := Int.ceil_le.mpr (by simpa using (not_le.mp hx).le)
      exact hceil.trans (Int.floor_nonneg.mpr hy)
    · exact Int.ceil_le_ceil hxy

/-- Just below zero it is zero. -/
theorem truncate_eq_zero {x : ℚ} (hlow : -1 < x) (hhigh : x ≤ 0) : truncate x = 0 := by
  apply le_antisymm
  · exact (truncate_mono hhigh).trans_eq (truncate_intCast 0)
  · unfold truncate
    split
    · rename_i hx
      exact Int.floor_nonneg.mpr hx
    · have hceil : -1 < ⌈x⌉ := Int.lt_ceil.mpr (by simpa using hlow)
      omega

/-! ## One stick -/

namespace Packet

/-- A position between the ends of the byte, before `int`. -/
def scaled (v : ℚ) : ℚ := (v + 1) / 2 * 255

theorem scaled_mono {v w : ℚ} (h : v ≤ w) : scaled v ≤ scaled w := by
  unfold scaled
  linarith

/-- **The lower end**: less than one step below zero. -/
theorem scaled_gt {v : ℚ} (h : AxisRange v) : -1 < scaled v := by
  have hlow := h.1
  unfold scaled
  linarith

theorem truncate_scaled_low {v : ℚ} (h : AxisRange v) (hv : v ≤ -1) : truncate (scaled v) = 0 := by
  refine truncate_eq_zero (scaled_gt h) ?_
  unfold scaled
  linarith

theorem truncate_scaled_bounds {v : ℚ} (h : AxisRange v) :
    0 ≤ truncate (scaled v) ∧ truncate (scaled v) ≤ 255 := by
  constructor
  · rcases le_total v (-1) with hv | hv
    · exact (truncate_scaled_low h hv).ge
    · have hmono := truncate_mono (scaled_mono hv)
      have hleft : scaled (-1) = (0 : ℤ) := by norm_num [scaled]
      rwa [hleft, truncate_intCast] at hmono
  · have hmono := truncate_mono (scaled_mono h.2)
    have hright : scaled 1 = (255 : ℤ) := by norm_num [scaled]
    rwa [hright, truncate_intCast] at hmono

/-- **The mask changes nothing** in range. -/
theorem norm_toNat {v : ℚ} (h : AxisRange v) : ((norm v).toNat : ℤ) = truncate (scaled v) := by
  obtain ⟨hlow, hhigh⟩ := truncate_scaled_bounds h
  have hmask : (norm v).toNat = (truncate (scaled v) % 256).toNat :=
    BitVec.toNat_ofInt _
  omega

theorem norm_mono {v w : ℚ} (hv : AxisRange v) (hw : AxisRange w) (h : v ≤ w) :
    (norm v).toNat ≤ (norm w).toNat := by
  have hmono := truncate_mono (scaled_mono h)
  rw [← norm_toNat hv, ← norm_toNat hw] at hmono
  exact_mod_cast hmono

/-! ### The centre -/

theorem deadZone_toNat (a : Byte) :
    (deadZone a).toNat = if 118 < a.toNat ∧ a.toNat < 138 then 128 else a.toNat := by
  unfold deadZone
  by_cases hnear : ((a.toNat : ℤ) - 0x80).natAbs < 10
  · rw [if_pos hnear, if_pos (by omega)]
    rfl
  · rw [if_neg hnear, if_neg (by omega)]

/-- Snapping keeps the order: both edges of the zone are passed in the same direction. -/
theorem deadZone_mono {a b : Byte} (h : a.toNat ≤ b.toNat) :
    (deadZone a).toNat ≤ (deadZone b).toNat := by
  rw [deadZone_toNat, deadZone_toNat]
  split <;> split <;> omega

/-- What is not at the centre is at least ten steps away from it. -/
theorem deadZone_apart (a : Byte) :
    deadZone a = 0x80 ∨ 10 ≤ (((deadZone a).toNat : ℤ) - 0x80).natAbs := by
  by_cases hnear : ((a.toNat : ℤ) - 0x80).natAbs < 10
  · exact .inl (if_pos hnear)
  · right
    rw [deadZone, if_neg hnear]
    omega

/-- The byte of a position. -/
def stickByte (v : ℚ) : Byte := deadZone (norm v)

theorem stickByte_mono {v w : ℚ} (hv : AxisRange v) (hw : AxisRange w) (h : v ≤ w) :
    (stickByte v).toNat ≤ (stickByte w).toNat :=
  deadZone_mono (norm_mono hv hw h)

theorem stickByte_low {v : ℚ} (h : AxisRange v) (hv : v ≤ -1) : stickByte v = 0 := by
  have hzero : norm v = 0 := by
    apply BitVec.eq_of_toNat_eq
    have htoNat := norm_toNat h
    rw [truncate_scaled_low h hv] at htoNat
    exact_mod_cast htoNat
  rw [stickByte, hzero]
  rfl

end Packet

/-! ## The four sticks of a packet -/

/-- The axes of the two sticks. -/
inductive Stick where
  | lx
  | ly
  | rx
  | ry
deriving DecidableEq, Repr

namespace Stick

def position : Stick → Packet → ℚ
  | .lx => Packet.lx
  | .ly => Packet.ly
  | .rx => Packet.rx
  | .ry => Packet.ry

/-- The axis `build_packet` asks for. -/
def axis : Stick → Nat
  | .lx => 0
  | .ly => 1
  | .rx => 3
  | .ry => 4

/-- Where the byte of a stick is in a packet. -/
def index : Stick → Nat
  | .lx => 3
  | .ly => 4
  | .rx => 5
  | .ry => 6

/-- The byte of a stick in the packed packet. -/
def byte (s : Stick) (p : Packet) : Byte := p.pack.toList.getD s.index 0

theorem byte_eq (s : Stick) (p : Packet) : s.byte p = Packet.stickByte (s.position p) := by
  cases s <;> rfl

/-- The position of a stick that the console reads from the image of a report. -/
def shown (image : List Byte) : Stick → Nat
  | .lx => (imageSticks image 4).1
  | .ly => (imageSticks image 4).2
  | .rx => (imageSticks image 7).1
  | .ry => (imageSticks image 7).2

/-- The firmware widens the byte of a stick to twelve bits. -/
theorem shown_pack (s : Stick) (p : Packet) :
    s.shown (populateReportFromSerial p.pack).toBytes = 16 * (s.byte p).toNat + 8 := by
  rw [Packet.pack_eq_layout, populateReportFromSerial_layout]
  obtain ⟨hleft, hright⟩ := ControllerInput.report_sticks (.ofPacket p.b p.d
    (Packet.stickByte p.lx) (Packet.stickByte p.ly) (Packet.stickByte p.rx) (Packet.stickByte p.ry))
  cases s with
  | lx => exact congrArg Prod.fst hleft
  | ly => exact congrArg Prod.snd hleft
  | rx => exact congrArg Prod.fst hright
  | ry => exact congrArg Prod.snd hright

theorem position_buildPacket {pad : Pad} {r : Readings} {p : Packet}
    (h : buildPacket pad r = some p) (s : Stick) : s.position p = r.axis s.axis := by
  obtain ⟨d, -, rfl⟩ := Option.map_eq_some_iff.mp h
  cases s <;> rfl

end Stick

/-- **Sticks keep their order and never wrap.**  Every axis a controller answers is in range;
for a packet and a stick in range, the mask of `pack` changes nothing, a position further
right or up never has a smaller byte, the ends and the centre have the bytes `0`, `255` and
`128`, and every other byte is ten or more away from the centre. -/
theorem stick_encoding :
    (∀ pad r, Answers pad r → ∀ i, AxisRange (r.axis i)) ∧
      ∀ (s : Stick) (p : Packet), AxisRange (s.position p) →
        let v := s.position p
        let a := truncate ((v + 1) / 2 * 255)
        (0 ≤ a ∧ a ≤ 255 ∧ ((Packet.norm v).toNat : ℤ) = a ∧
            s.byte p = Packet.deadZone (Packet.norm v)) ∧
          (∀ (t : Stick) (q : Packet), AxisRange (t.position q) → v ≤ t.position q →
            (s.byte p).toNat ≤ (t.byte q).toNat) ∧
          (v ≤ -1 → s.byte p = 0) ∧ (v = 0 → s.byte p = 128) ∧ (v = 1 → s.byte p = 255) ∧
          (s.byte p = 0x80 ∨ 10 ≤ (((s.byte p).toNat : ℤ) - 0x80).natAbs) := by
  refine ⟨fun pad r h i => h.axis_range i, fun s p h => ?_⟩
  have hbyte := s.byte_eq p
  obtain ⟨hlow, hhigh⟩ := Packet.truncate_scaled_bounds h
  refine ⟨⟨hlow, hhigh, Packet.norm_toNat h, hbyte⟩, ?_, ?_, ?_, ?_, ?_⟩
  · intro t q hq hle
    rw [hbyte, t.byte_eq q]
    exact Packet.stickByte_mono h hq hle
  · intro hv
    rw [hbyte]
    exact Packet.stickByte_low h hv
  · intro hv
    rw [hbyte, hv]
    decide +kernel
  · intro hv
    rw [hbyte, hv]
    decide +kernel
  · rw [hbyte]
    exact Packet.deadZone_apart _

/-- The stick of an XInput controller pushed all the way down reads `-32768`; the packet has
the byte of the lower end, not that of the upper one. -/
theorem stick_encoding_lowest :
    let r := PadX.readings ⟨0, 0, 0, 0, 0x8000, 0x7FFF, 0⟩
    let p : Packet := ⟨0, 8, r.axis 0, r.axis 1, r.axis 3, r.axis 4⟩
    buildPacket (.padX 0) r = some p ∧ AxisRange (r.axis 1) ∧ r.axis 1 < -1 ∧
      Stick.ly.byte p = 0 ∧ Stick.lx.byte p = 128 ∧ Stick.rx.byte p = 255 ∧
      (Stick.ly.byte p).toNat ≤ (Stick.rx.byte p).toNat := by
  intro r p
  have hrange := stick_encoding.1 (.padX 0) r (.padX 0 _)
  obtain ⟨-, hmono, hly, -⟩ := stick_encoding.2 .ly p (hrange 1)
  obtain ⟨-, -, -, hlx, -⟩ := stick_encoding.2 .lx p (hrange 0)
  obtain ⟨-, -, -, -, hrx, -⟩ := stick_encoding.2 .rx p (hrange 3)
  have hbelow : r.axis 1 < -1 := by decide +kernel
  refine ⟨by decide +kernel, hrange 1, hbelow, hly hbelow.le, hlx (by decide +kernel),
    hrx (by decide +kernel), ?_⟩
  exact hmono .rx p (hrange 3) (by decide +kernel)

/-- **From the controller to the console the order of positions is kept**: for any two answers,
of the same controller or of different ones, the console never reads a smaller position for
the greater axis. -/
theorem console_sticks_in_order {pad pad' : Pad} {r r' : Readings} {p p' : Packet}
    (h : Answers pad r) (h' : Answers pad' r') (hp : buildPacket pad r = some p)
    (hp' : buildPacket pad' r' = some p') {s t : Stick} (hle : r.axis s.axis ≤ r'.axis t.axis) :
    s.shown (populateReportFromSerial p.pack).toBytes ≤
      t.shown (populateReportFromSerial p'.pack).toBytes := by
  have hs := Stick.position_buildPacket hp s
  have ht := Stick.position_buildPacket hp' t
  have hbytes : (s.byte p).toNat ≤ (t.byte p').toNat := by
    rw [s.byte_eq, t.byte_eq, hs, ht]
    exact Packet.stickByte_mono (h.axis_range _) (h'.axis_range _) hle
  rw [s.shown_pack, t.shown_pack]
  omega

end XInputSwitch
