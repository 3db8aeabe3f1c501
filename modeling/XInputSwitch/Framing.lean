import XInputSwitch.Firmware

/-! # Framing

The bridge sends frames of nine bytes with nothing to mark where one begins.  From
an aligned firmware, every frame is nevertheless taken whole: after `k` bytes of a
stream of frames, `k / 9` frames have been acknowledged and `k % 9` bytes of the
next one are buffered (`run_frames`).

The firmware handles OUT packets in between, and one of them can write past the end of the
reply buffer, after which nothing is certain.  Framing holds whatever such a write leaves
behind exactly if there is none (`lossless_framing`).
-/
namespace XInputSwitch

/-- The bytes written for a list of payloads. -/
def frames (ps : List (List Byte)) : List Byte := ps.flatMap uartWrite

namespace Receiver

/-- **Where the receiver is in a stream of frames.**  By induction on the frames:
the bytes end inside the first one, or the rest starts aligned again. -/
theorem run_frames (ps : List (List Byte)) (hps : ∀ p ∈ ps, p.length = 8) (bs rest : List Byte)
    (h : bs ++ rest = frames ps) :
    (∃ buffer, buffer.length = bs.length % 9 ∧
        Trace.run next (.synced []) bs = .synced buffer) ∧
      Trace.observe next responses (.synced []) bs =
        List.replicate (bs.length / 9) .updateAck ∧
      Trace.observe next accepted (.synced []) bs = ps.take (bs.length / 9) := by
  induction ps generalizing bs with
  | nil =>
    obtain ⟨rfl, -⟩ := List.append_eq_nil_iff.mp h
    exact ⟨⟨[], rfl, rfl⟩, rfl, rfl⟩
  | cons p ps ih =>
    have hp : p.length = 8 := hps p (by simp)
    have hframe : (uartWrite p).length = 9 := by simp [uartWrite, hp]
    by_cases hlt : bs.length < 9
    · obtain ⟨hr, hs, ha⟩ := run_collect [] bs (by simp; omega)
      have hdiv : bs.length / 9 = 0 := Nat.div_eq_of_lt hlt
      rw [hs, ha, hdiv]
      exact ⟨⟨bs, (Nat.mod_eq_of_lt hlt).symm, hr⟩, rfl, rfl⟩
    · have hsplit : uartWrite p ++ bs.drop 9 = bs := by
        have htake : bs.take 9 = uartWrite p := by
          have := congrArg (List.take 9) h
          rwa [List.take_append_of_le_length (by omega), frames, List.flatMap_cons,
            List.take_left' hframe] at this
        rw [← htake, List.take_append_drop]
      have htail : bs.drop 9 ++ rest = frames ps := by
        rw [← hsplit, List.append_assoc] at h
        exact List.append_cancel_left h
      obtain ⟨⟨buffer, hlen, hr⟩, hs, ha⟩ :=
        ih (fun q hq => hps q (List.mem_cons_of_mem p hq)) (bs.drop 9) htail
      obtain ⟨hr₁, hs₁, ha₁⟩ := run_frame p hp
      have hdiv : bs.length / 9 = (bs.drop 9).length / 9 + 1 := by
        rw [List.length_drop]; omega
      have hmod : bs.length % 9 = (bs.drop 9).length % 9 := by rw [List.length_drop]; omega
      rw [hdiv, hmod]
      rw [← hsplit, Trace.run_append, Trace.observe_append, Trace.observe_append, hr₁, hs₁, ha₁,
        hsplit, hr, hs, ha]
      exact ⟨⟨buffer, hlen, rfl⟩, rfl, rfl⟩

end Receiver

/-! ## The firmware -/

namespace Joystick

/-- Synchronised, at the start of a packet. -/
structure Aligned (s : Joystick) : Prop where
  state_eq : s.state = .synced
  received_eq : s.serialInput.receivedBytes = 0
  crc_eq : s.serialInput.crc8Ccitt = 0

theorem Aligned.wellFormed {s : Joystick} (h : s.Aligned) : s.WellFormed :=
  .of_empty h.received_eq h.crc_eq

theorem Aligned.receiver_eq {s : Joystick} (h : s.Aligned) : s.receiver = .synced [] := by
  simp [receiver, h.state_eq, buffered, h.received_eq]

end Joystick

theorem length_frames (ps : List (Vector Byte 8)) :
    (frames (ps.map Vector.toList)).length = 9 * ps.length := by
  induction ps with
  | nil => rfl
  | cons p ps ih =>
    simp only [frames, List.map_cons, List.flatMap_cons, List.length_append, List.length_cons,
      uartWrite] at ih ⊢
    simp only [ih, Vector.length_toList, List.length_nil]
    omega

/-- After some of the bytes of a stream of frames, among any USB events that write inside the
reply buffer. -/
theorem run_framing {s : Firmware} (hs : s.joystick.Aligned) (ps : List (Vector Byte 8))
    {es : List FirmwareEvent} (hin : Trace.Always Firmware.next Firmware.InBounds s es)
    (rest : List Byte)
    (h : es.flatMap FirmwareEvent.byte ++ rest = frames (ps.map Vector.toList)) :
    let t := (Trace.run Firmware.next s es).joystick
    let k := (es.flatMap FirmwareEvent.byte).length
    (t.state = .synced ∧ t.serialInput.receivedBytes = k % 9 ∧ t.WellFormed) ∧
      Trace.observe Firmware.next Firmware.responses s es = List.replicate (k / 9) .updateAck ∧
      t.controllerReport = ((ps.take (k / 9)).getLast?.map populateReportFromSerial).getD
        s.joystick.controllerReport := by
  intro t k
  obtain ⟨⟨buffer, hlen, hr⟩, hresp, hacc⟩ := Receiver.run_frames (ps.map Vector.toList)
    (by simp) (es.flatMap FirmwareEvent.byte) rest h
  have ht : t = Trace.run Joystick.next s.joystick (es.flatMap FirmwareEvent.serial) :=
    s.run_joystick hin
  have hw : t.WellFormed := by rw [ht]; exact Joystick.run_wellFormed hs.wellFormed _
  have hrec : t.receiver = .synced buffer := by
    rw [ht, Joystick.run_receiver hs.wellFormed, flatMap_serial_byte, hs.receiver_eq, hr]
  obtain ⟨hst, hn, -, -⟩ := (hw.synced_iff buffer).mp hrec
  refine ⟨⟨hst, hn.trans hlen, hw⟩, ?_, ?_⟩
  · rw [s.observe_responses hin, Joystick.run_responses hs.wellFormed, flatMap_serial_byte,
      hs.receiver_eq, hresp]
  · have hps : Trace.observe Joystick.next Joystick.acceptedBy s.joystick
        (es.flatMap FirmwareEvent.serial) = ps.take (k / 9) := by
      apply List.map_injective_iff.mpr (fun _ _ h => Vector.toList_inj.mp h)
      rw [Joystick.run_accepted hs.wellFormed, flatMap_serial_byte, hs.receiver_eq, hacc,
        List.map_take]
    rw [ht, Joystick.run_controllerReport, hps]

/-- The frames of `ps`, received with other events in between, are taken whole: each is
acknowledged, nothing else is answered, and the firmware ends aligned; at every moment it is
synchronised, and the controller report is that of the last frame that arrived whole. -/
structure Framed (s : Firmware) (ps : List (Vector Byte 8)) (es : List FirmwareEvent) :
    Prop where
  responses_eq : Trace.observe Firmware.next Firmware.responses s es =
    List.replicate ps.length .updateAck
  aligned : (Trace.run Firmware.next s es).joystick.Aligned
  moments : ∀ pre post, es = pre ++ post →
    let t := (Trace.run Firmware.next s pre).joystick
    let k := (pre.flatMap FirmwareEvent.byte).length
    t.state = .synced ∧ t.serialInput.receivedBytes = k % 9 ∧
      Trace.observe Firmware.next Firmware.responses s pre =
        List.replicate (k / 9) .updateAck ∧
      (k < 9 → t.controllerReport = s.joystick.controllerReport) ∧
      ∀ i (hi : i < ps.length), k / 9 = i + 1 →
        t.controllerReport = populateReportFromSerial ps[i]

/-- **Framing, as long as replies stay inside their buffer.** -/
theorem framed_of_inBounds {s : Firmware} (hs : s.joystick.Aligned) (ps : List (Vector Byte 8))
    {es : List FirmwareEvent} (hes : es.flatMap FirmwareEvent.byte = frames (ps.map Vector.toList))
    (hin : Trace.Always Firmware.next Firmware.InBounds s es) : Framed s ps es := by
  have hlen : (es.flatMap FirmwareEvent.byte).length = 9 * ps.length := by
    rw [hes, length_frames]
  obtain ⟨⟨hst, hn, hw⟩, hresp, -⟩ := run_framing hs ps hin [] (by rw [List.append_nil, hes])
  refine ⟨?_, ?_, ?_⟩
  · rw [hresp, hlen, Nat.mul_div_cancel_left _ (by omega)]
  · rw [hlen, Nat.mul_mod_right] at hn
    refine ⟨hst, hn, ?_⟩
    rw [hw.crc_eq, Joystick.buffered, hn]
    rfl
  · rintro pre post rfl
    rw [List.flatMap_append] at hes
    intro t k
    obtain ⟨⟨hst, hn, -⟩, hresp, hrep⟩ := run_framing hs ps (Trace.always_append.mp hin).1 _ hes
    refine ⟨hst, hn, hresp, ?_, ?_⟩
    · intro hk
      have hdiv : (pre.flatMap FirmwareEvent.byte).length / 9 = 0 := Nat.div_eq_of_lt hk
      rw [hdiv] at hrep
      exact hrep
    · intro i hi hk
      have hlast : (ps.take (i + 1)).getLast? = some ps[i] := by
        rw [List.getLast?_take]
        simp [hi]
      have hdiv : (pre.flatMap FirmwareEvent.byte).length / 9 = i + 1 := hk
      rw [hdiv, hlast] at hrep
      exact hrep

/-! ## Whatever an overrun leaves -/

/-- The same event, but for what a write past the end of the reply buffer leaves behind. -/
inductive FirmwareEvent.UpToOverrun : FirmwareEvent → FirmwareEvent → Prop
  | refl (e : FirmwareEvent) : UpToOverrun e e
  | outReport (mem : Memory) (packet : List Byte) (response : ResponseManager)
      (joystick : Joystick) :
    UpToOverrun (.outReport mem packet)
      (.outReport { mem with overrunResponse := response, overrunJoystick := joystick } packet)

namespace Firmware

/-- Inside the buffer, that does not matter. -/
theorem next_upToOverrun {s : Firmware} {e e' : FirmwareEvent} (h : e.UpToOverrun e')
    (hin : s.InBounds e) : s.InBounds e' ∧ s.next e' = s.next e ∧ e'.byte = e.byte := by
  cases h with
  | refl => exact ⟨hin, rfl, rfl⟩
  | outReport mem packet response joystick =>
    have hin' : s.InBounds (.outReport
      { mem with overrunResponse := response, overrunJoystick := joystick } packet) := hin
    refine ⟨hin', ?_, rfl⟩
    rw [next_outReport hin, next_outReport hin']
    rfl

theorem run_upToOverrun {s : Firmware} {es es' : List FirmwareEvent}
    (h : List.Forall₂ FirmwareEvent.UpToOverrun es es') (hin : Trace.Always next InBounds s es) :
    Trace.Always next InBounds s es' ∧
      es'.flatMap FirmwareEvent.byte = es.flatMap FirmwareEvent.byte := by
  induction h generalizing s with
  | nil => exact ⟨trivial, rfl⟩
  | cons hsame _ ih =>
    obtain ⟨hin', hnext, hbyte⟩ := next_upToOverrun hsame hin.1
    obtain ⟨hrest, hbytes⟩ := ih hin.2
    exact ⟨⟨hin', hnext ▸ hrest⟩, by rw [List.flatMap_cons, List.flatMap_cons, hbyte, hbytes]⟩

/-- Outside, it can be a firmware that has to synchronise again. -/
theorem exists_overrun {s : Firmware} {e : FirmwareEvent} (h : ¬ s.InBounds e) :
    ∃ e', e.UpToOverrun e' ∧ (s.next e').joystick.state = .outOfSync := by
  cases e with
  | outReport mem packet =>
    refine ⟨_, .outReport mem packet mem.overrunResponse .boot, ?_⟩
    have hover : s.response.overruns { mem with overrunJoystick := .boot } s.joystick.selected
      packet = true := (ResponseManager.overruns_iff ..).mpr h
    simp only [next, if_pos hover]
    rfl
  | _ => exact absurd trivial h

end Firmware

/-- **Lossless framing.**  From an aligned firmware, let the frames of `ps` arrive
with OUT packets and sends to the console anywhere in between.  The frames are taken whole,
whatever a write past the end of the reply buffer would leave behind, exactly if no SPI
read of 45 to 250 bytes is handled while no reply is pending. -/
theorem lossless_framing {s : Firmware} (hs : s.joystick.Aligned) (ps : List (Vector Byte 8))
    (es : List FirmwareEvent)
    (hes : es.flatMap FirmwareEvent.byte = frames (ps.map Vector.toList)) :
    (∀ es', List.Forall₂ FirmwareEvent.UpToOverrun es es' → Framed s ps es') ↔
      Trace.Always Firmware.next Firmware.InBounds s es := by
  constructor
  · intro hall
    rw [Trace.always_iff]
    rintro pre e post rfl
    by_contra hover
    obtain ⟨e', he', hstate⟩ := Firmware.exists_overrun hover
    have hsame : List.Forall₂ FirmwareEvent.UpToOverrun (pre ++ e :: post) (pre ++ e' :: post) :=
      List.rel_append (List.forall₂_same.mpr fun e _ => .refl e)
        (.cons he' (List.forall₂_same.mpr fun e _ => .refl e))
    obtain ⟨hsynced, -⟩ := (hall _ hsame).moments (pre ++ [e']) post (by simp)
    rw [Trace.run_append, Trace.run_cons, Trace.run_nil, hstate] at hsynced
    cases hsynced
  · intro hin es' hsame
    obtain ⟨hin', hbytes⟩ := Firmware.run_upToOverrun hsame hin
    exact framed_of_inBounds hs ps (hbytes.trans hes) hin'

/-- A payload whose check byte is the start command, with a send after its first
byte and a request after its last. -/
theorem lossless_framing_cmdSt :
    let mem : Memory := .zero
    let s : Firmware :=
      ⟨Trace.run Joystick.next .boot (receive [cmdSt, cmd1, cmd2]), .setupResponseManager mem⟩
    let p : Vector Byte 8 := #v[0x84, 0xFF, 0xFF, 0xFF, 0xFF, 0xFF, 0xFF, 0xFF]
    let es : List FirmwareEvent :=
      [.rx 0x84, .beforeSend, .transmit mem] ++ List.replicate 8 (.rx 0xFF) ++
        [.outReport mem [0x80, 0x01]]
    es.flatMap FirmwareEvent.byte = frames [p.toList] ∧ Framed s [p] es := by
  intro mem s p es
  have hs : s.joystick.Aligned := ⟨by decide +kernel, by decide +kernel, by decide +kernel⟩
  have hes : es.flatMap FirmwareEvent.byte = frames [p.toList] := by decide +kernel
  have hin : Trace.Always Firmware.next Firmware.InBounds s es := by decide +kernel
  clear_value s p es
  exact ⟨hes, (lossless_framing hs [p] es hes).mpr hin es
    (List.forall₂_same.mpr fun e _ => .refl e)⟩

/-- A read of 250 bytes from an address where nothing is emulated, right before the neutral
frame.  It writes `0xFF` to the 206 bytes behind the buffer, the callback's address among
them; if the firmware then starts from the beginning, the frame is not acknowledged. -/
theorem framing_lost_to_overrun :
    let mem : Memory := .zero
    let s := Trace.run Firmware.next (.boot mem)
      [.rx cmdSt, .rx cmd1, .rx cmd2, .beforeSend, .transmit mem]
    let p : Vector Byte 8 := #v[0, 0, 8, 0x80, 0x80, 0x80, 0x80, 0]
    let es : List FirmwareEvent :=
      .outReport mem [0x01, 0, 0, 0, 0, 0, 0, 0, 0, 0, 0x10, 0, 0, 0, 0, 0xFA, 0] ::
        (uartWrite p.toList).map .rx
    s.joystick.Aligned ∧ es.flatMap FirmwareEvent.byte = frames [p.toList] ∧
      ¬ Framed s [p] es := by
  intro mem s p es
  have hs : s.joystick.Aligned := ⟨by decide +kernel, by decide +kernel, by decide +kernel⟩
  have hes : es.flatMap FirmwareEvent.byte = frames [p.toList] := by decide +kernel
  have hnone : Trace.observe Firmware.next Firmware.responses s es = [] := by decide +kernel
  refine ⟨hs, hes, fun hframed => ?_⟩
  have hack := hframed.responses_eq
  rw [hnone] at hack
  cases hack

end XInputSwitch
