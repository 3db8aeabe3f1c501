import Mathlib.Data.Nat.Prime.Basic
import Mathlib.Tactic.IntervalCases
import Mathlib.Tactic.NormNum.Prime
import XInputSwitch.LostByte
import XInputSwitch.Syndrome

/-! # Corrupted frames

A frame of 72 bits, some of them flipped on the line.  The firmware takes nine bytes
either way, so all that stands between a corrupted frame and the console is its check
byte: the polynomial is `x + 1` times a primitive one of degree seven, whose order 127
exceeds the length of a frame.

Bits are numbered in the order they are checked, the most significant bit of a byte
first.

A frame that fails its check is dropped, and the next one is taken as if nothing had
happened, unless its last byte has become the start command: then the firmware leaves
the stream to wait for a handshake that the bridge never repeats
(`damaged_frame_costs_itself`).
-/
namespace XInputSwitch

/-! ## Flipped bits -/

/-- The bits of the `n`-th byte of a frame that are flipped by the errors `E`. -/
def flips (E : Finset (Fin 72)) (n : Nat) : Byte :=
  let hit (j : Nat) : Bool := decide (∃ i ∈ E, i.val = 8 * n + j)
  packBits (hit 7) (hit 6) (hit 5) (hit 4) (hit 3) (hit 2) (hit 1) (hit 0)

def errorBytes (E : Finset (Fin 72)) : List Byte := (List.range 9).map (flips E)

/-- A frame with the bits `E` flipped. -/
def corrupted (E : Finset (Fin 72)) (frame : List Byte) : List Byte :=
  List.zipWith (fun b e => b ^^^ e) frame (errorBytes E)

/-- The errors that are promised to be detected: some, but at most three or all within
eight consecutive bits. -/
structure Detectable (E : Finset (Fin 72)) : Prop where
  nonempty : E.Nonempty
  few_or_close : E.card ≤ 3 ∨ ∃ k, ∀ i ∈ E, k ≤ i.val ∧ i.val < k + 8

theorem packBits_xor (a₀ a₁ a₂ a₃ a₄ a₅ a₆ a₇ b₀ b₁ b₂ b₃ b₄ b₅ b₆ b₇ : Bool) :
    packBits (a₀ ^^ b₀) (a₁ ^^ b₁) (a₂ ^^ b₂) (a₃ ^^ b₃) (a₄ ^^ b₄) (a₅ ^^ b₅) (a₆ ^^ b₆)
        (a₇ ^^ b₇) =
      packBits a₀ a₁ a₂ a₃ a₄ a₅ a₆ a₇ ^^^ packBits b₀ b₁ b₂ b₃ b₄ b₅ b₆ b₇ := by
  apply BitVec.eq_of_getLsbD_eq
  intro i hi
  rw [BitVec.getLsbD_xor, packBits_getLsbD, packBits_getLsbD, packBits_getLsbD]
  interval_cases i <;> rfl

theorem flips_insert {a : Fin 72} {E : Finset (Fin 72)} (ha : a ∉ E) (n : Nat) :
    flips (insert a E) n = flips {a} n ^^^ flips E n := by
  have hit : ∀ m : Nat, decide (∃ i ∈ insert a E, i.val = m) =
      (decide (∃ i ∈ ({a} : Finset (Fin 72)), i.val = m) ^^ decide (∃ i ∈ E, i.val = m)) := by
    intro m
    by_cases ham : a.val = m
    · have hnone : ¬ ∃ i ∈ E, i.val = m := by
        rintro ⟨i, hi, him⟩
        exact ha (Fin.ext (ham.trans him.symm) ▸ hi)
      simp [ham, hnone]
    · simp [ham]
  simp only [flips, hit, packBits_xor]

theorem errorBytes_insert {a : Fin 72} {E : Finset (Fin 72)} (ha : a ∉ E) :
    errorBytes (insert a E) =
      List.zipWith (fun b e => b ^^^ e) (errorBytes {a}) (errorBytes E) := by
  simp only [errorBytes, List.zipWith_map, List.zipWith_self]
  exact List.map_congr_left fun n _ => flips_insert ha n

/-- A single error is in one byte. -/
theorem flips_singleton (a : Fin 72) (n : Nat) :
    flips {a} n = if a.val / 8 = n then BitVec.twoPow 8 (7 - a.val % 8) else 0 := by
  apply BitVec.eq_of_getLsbD_eq
  intro i hi
  simp only [flips, packBits_getLsbD, Finset.mem_singleton, exists_eq_left]
  by_cases hn : a.val / 8 = n
  · have hbit : 7 - a.val % 8 < 8 := by omega
    rw [if_pos hn, BitVec.getLsbD_twoPow, decide_eq_true hbit, Bool.true_and]
    interval_cases i <;>
    · simp only [List.getD_cons_zero, List.getD_cons_succ, decide_eq_decide]
      omega
  · have hzero : (0 : Byte).getLsbD i = false := BitVec.getLsbD_zero
    rw [if_neg hn, hzero]
    interval_cases i <;>
    · simp only [List.getD_cons_zero, List.getD_cons_succ, decide_eq_false_iff_not]
      omega

/-! ## The polynomial -/

theorem crc8Shift_iterate_one : ∀ n < 8, crc8Shift^[n] 1 = BitVec.twoPow 8 n := by decide +kernel

/-- **The remainder of the errors** is the syndrome of their places, counted from the end
of the frame and past the check byte. -/
theorem crc_errorBytes (E : Finset (Fin 72)) :
    ccitt.crc 0#8 (errorBytes E) = shift.syndrome 1 (fun i : Fin 72 => 79 - i.val) E := by
  induction E using Finset.induction_on with
  | empty => decide +kernel
  | insert a E ha ih =>
    have hone : ccitt.crc 0#8 (errorBytes {a}) = crc8Shift^[79 - a.val] 1 := by
      have hlt := a.isLt
      have hsplit : 79 - a.val = 8 * (9 - a.val / 8) + (7 - a.val % 8) := by omega
      have hflips : flips {a} = fun n =>
          if a.val / 8 = n then BitVec.twoPow 8 (7 - a.val % 8) else 0#8 :=
        funext (flips_singleton a)
      rw [errorBytes, hflips, ccitt.crc_single, if_pos (by omega),
        ← crc8Shift_iterate_one _ (by omega), ccitt_apply, ← Function.iterate_mul,
        ← Function.iterate_add_apply, ← hsplit]
    have hlength : (errorBytes {a}).length = (errorBytes E).length := by
      simp only [errorBytes, List.length_map]
    have hxor := ccitt.crc_zipWith_xor 0#8 0#8 hlength
    rw [hone] at hxor
    rw [shift.syndrome_insert _ _ ha, ← ih, errorBytes_insert ha]
    exact hxor

/-- The parity of the lowest `n` bits. -/
def lowParity (c : Byte) : Nat → Bool
  | 0 => false
  | n + 1 => lowParity c n ^^ c.getLsbD n

theorem lowParity_xor (a b : Byte) (n : Nat) :
    lowParity (a ^^^ b) n = (lowParity a n ^^ lowParity b n) := by
  induction n with
  | zero => rfl
  | succ n ih =>
    simp only [lowParity, ih, BitVec.getLsbD_xor]
    cases lowParity b n <;> cases a.getLsbD n <;> cases b.getLsbD n <;> simp

/-- The factor `x + 1` of the polynomial preserves the parity of a remainder. -/
theorem lowParity_crc8Shift : ∀ a : Byte, lowParity (crc8Shift a) 8 = lowParity a 8 := by
  decide +kernel

/-- The order of the shift is 127, a prime: fewer shifts move the unit. -/
theorem crc8Shift_order {d : Nat} (hpos : 0 < d) (hlt : d < 127) : crc8Shift^[d] 1 ≠ 1 := by
  intro h
  have hd : Function.IsPeriodicPt crc8Shift d 1 := h
  have hgcd := hd.gcd (crc8Shift_period 1)
  have hprime : Nat.Prime 127 := by norm_num
  have hcop : d.gcd 127 = 1 := Nat.Coprime.symm (hprime.coprime_iff_not_dvd.mpr fun hdvd =>
    absurd (Nat.le_of_dvd hpos hdvd) (by omega))
  rw [hcop] at hgcd
  exact absurd hgcd.eq (by decide)

/-- **Errors that are promised to be detected leave a remainder.** -/
theorem Detectable.crc_ne_zero {E : Finset (Fin 72)} (h : Detectable E) :
    ccitt.crc 0#8 (errorBytes E) ≠ 0#8 := by
  rw [crc_errorBytes]
  have hodd : E.card % 2 = 1 → shift.syndrome 1 (fun i : Fin 72 => 79 - i.val) E ≠ 0 :=
    shift.syndrome_ne_zero_of_odd (χ := fun c => lowParity c 8) (fun a b => lowParity_xor a b 8)
      lowParity_crc8Shift rfl
  rcases h.few_or_close with hcard | ⟨k, hk⟩
  · have hpos := h.nonempty.card_pos
    by_cases htwo : E.card = 2
    · obtain ⟨a, b, hne, rfl⟩ := Finset.card_eq_two.mp htwo
      have hpair : ∀ a b : Fin 72, a.val < b.val →
          shift.syndrome 1 (fun i : Fin 72 => 79 - i.val) {b, a} ≠ 0 := by
        intro a b hlt
        have hb := b.isLt
        have horder : ∀ d, 0 < d → d < 127 → crc8Shift^[d] 1 ≠ 1 := fun d => crc8Shift_order
        exact shift.syndrome_pair_ne_zero crc8Shift_injective horder (by omega) (by omega)
      rcases Nat.lt_or_gt_of_ne (fun heq => hne (Fin.ext heq)) with hlt | hlt
      · rw [Finset.pair_comm]
        exact hpair a b hlt
      · exact hpair b a hlt
    · exact hodd (by omega)
  · obtain ⟨a, ha⟩ := h.nonempty
    have hka := hk a ha
    have hlt := a.isLt
    have hinj : Set.InjOn (fun i : Fin 72 => 79 - i.val) E := by
      intro i _ j _ hij
      have hij' : 79 - i.val = 79 - j.val := hij
      exact Fin.ext (by omega)
    refine shift.syndrome_burst_ne_zero crc8Shift_injective crc8Shift_iterate_one h.nonempty hinj
      (k := 72 - k) fun i hi => ?_
    have := hk i hi
    omega

/-! ## The firmware -/

/-- Nine bytes that fail the check are not acknowledged, and change nothing but the
receive buffer and the state of the link. -/
theorem Joystick.window_refused {s : Joystick} (hs : s.Aligned) {q : List Byte} {b : Byte}
    (hq : q.length = 8) (hc : check q ≠ b) :
    (∃ input state,
      Trace.run next s (receive (q ++ [b])) = { s with serialInput := input, state := state }) ∧
      Response.updateAck ∉ Trace.observe next responses s (receive (q ++ [b])) := by
  obtain ⟨-, hresp, hacc⟩ := Receiver.run_window q b hq
  rw [if_neg hc] at hacc hresp
  constructor
  · apply receive_of_not_accepted
    have h := receive_accepted hs.wellFormed (q ++ [b])
    rw [hs.receiver_eq, hacc] at h
    exact List.map_eq_nil_iff.mp h
  · rw [receive_responses hs.wellFormed, hs.receiver_eq, hresp]
    split <;> decide

/-- A corrupted frame fails the check. -/
theorem corrupted_fails {E : Finset (Fin 72)} (h : Detectable E) {p : List Byte}
    (hp : p.length = 8) :
    ∃ q b, q.length = 8 ∧ check q ≠ b ∧ corrupted E (uartWrite p) = q ++ [b] := by
  have hlen : (uartWrite p).length = (errorBytes E).length := by
    simp [uartWrite, errorBytes, hp]
  have hframe : ccitt.crc 0#8 (uartWrite p) = 0#8 := by
    rw [uartWrite_eq]
    exact ccitt.crc_self p
  have hcrc : ccitt.crc 0#8 (corrupted E (uartWrite p)) = ccitt.crc 0#8 (errorBytes E) := by
    have hxor := ccitt.crc_zipWith_xor 0#8 0#8 hlen
    rwa [hframe, BitVec.zero_xor, BitVec.zero_xor] at hxor
  have hlast : (corrupted E (uartWrite p)).length = 9 := by
    simp [corrupted, uartWrite, errorBytes, hp]
  obtain ⟨q, b, hqb⟩ := List.eq_nil_or_concat' _ |>.resolve_left
    (List.ne_nil_of_length_pos (by omega : 0 < (corrupted E (uartWrite p)).length))
  refine ⟨q, b, ?_, ?_, hqb⟩
  · rw [hqb, List.length_append] at hlast
    simpa using hlast
  · intro hc
    apply h.crc_ne_zero
    rw [← hcrc, hqb]
    exact (ccitt.crc_concat_eq_zero_iff ccitt_injective q b).mpr hc

/-- **Corruption is detected.**  On a synchronised firmware with an empty buffer, a frame
with one to three bits flipped, or with any bits flipped within eight consecutive ones,
is not acknowledged and leaves the controller report, the selection and the timer as
they were. -/
theorem corruption_detected {s : Joystick} (hs : s.Aligned) (p : Vector Byte 8)
    {E : Finset (Fin 72)} (hE : Detectable E) :
    let bytes := receive (corrupted E (uartWrite p.toList))
    let t := Trace.run Joystick.next s bytes
    t.controllerReport = s.controllerReport ∧ t.selectedReport = s.selectedReport ∧
      t.millis = s.millis ∧
      Response.updateAck ∉ Trace.observe Joystick.next Joystick.responses s bytes := by
  intro bytes t
  obtain ⟨q, b, hq, hc, hqb⟩ := corrupted_fails hE p.length_toList
  obtain ⟨⟨input, state, hrun⟩, hack⟩ := Joystick.window_refused hs hq hc
  have hbytes : bytes = receive (q ++ [b]) := congrArg receive hqb
  have ht : t = { s with serialInput := input, state := state } := by
    rw [← hrun, ← hbytes]
  rw [ht, hbytes]
  exact ⟨rfl, rfl, rfl, hack⟩

/-- Three bits of the neutral packet, far apart. -/
theorem corruption_detected_neutral :
    let s := Trace.run Joystick.next .boot (receive [cmdSt, cmd1, cmd2])
    let E : Finset (Fin 72) := {3, 30, 71}
    let bytes := receive (corrupted E (uartWrite Packet.neutral.pack.toList))
    (Trace.run Joystick.next s bytes).controllerReport = s.controllerReport ∧
      Response.updateAck ∉ Trace.observe Joystick.next Joystick.responses s bytes := by
  intro s E bytes
  have hs : s.Aligned := ⟨by decide +kernel, by decide +kernel, by decide +kernel⟩
  have hE : Detectable E := ⟨⟨3, by decide⟩, .inl (by decide)⟩
  obtain ⟨hreport, -, -, hack⟩ := corruption_detected hs Packet.neutral.pack hE
  exact ⟨hreport, hack⟩

/-! ## The frame after a damaged one -/

namespace Receiver

/-- How much of a packet is collected. -/
def collected : Receiver → Nat
  | .synced buffer => buffer.length
  | _ => 0

theorem collected_next_le (r : Receiver) (b : Byte) :
    (r.next b).collected ≤ r.collected + 1 := by
  unfold next restart
  repeat' split
  all_goals simp [collected]

/-- A packet takes a byte more than it has room for, wherever the receiver is. -/
theorem accepted_of_short {r : Receiver} {bs : List Byte} (h : r.collected + bs.length ≤ 8) :
    Trace.observe next accepted r bs = [] := by
  induction bs generalizing r with
  | nil => rfl
  | cons b bs ih =>
    rw [List.length_cons] at h
    have hb : r.accepted b = [] := by
      cases r with
      | synced buffer =>
        have hlt : buffer.length < 8 := by
          have : buffer.length + (bs.length + 1) ≤ 8 := h
          omega
        exact if_pos hlt
      | _ => rfl
    have hle := r.collected_next_le b
    rw [Trace.observe_cons, hb, ih (by omega)]
    rfl

/-- From the handshake, nine bytes are not enough for a packet. -/
theorem accepted_syncStart {bs : List Byte} (h : bs.length = 9) :
    Trace.observe next accepted .syncStart bs = [] := by
  cases bs with
  | nil => rfl
  | cons b bs =>
    have hstart : (next .syncStart b).collected = 0 := by
      show (if b = Command.sync1.code then sync1 else restart b).collected = 0
      unfold restart
      split
      · rfl
      · split <;> rfl
    rw [List.length_cons] at h
    rw [Trace.observe_cons, accepted_of_short (by omega)]
    rfl

/-- After a start command nothing is accepted until the handshake is complete. -/
theorem accepted_of_no_handshake {bs : List Byte} (h : ¬ handshake <:+: cmdSt :: bs) :
    Trace.observe next accepted .syncStart bs = [] :=
  (run_scanned _ h).2

end Receiver

/-- A frame, damaged or not, on an aligned firmware. -/
theorem Firmware.run_window {s : Firmware} (hs : s.joystick.Aligned) {q : List Byte} {b : Byte}
    (hq : q.length = 8) {es : List FirmwareEvent} (hin : Trace.Always next InBounds s es)
    (hes : es.flatMap FirmwareEvent.byte = q ++ [b]) :
    let t := (Trace.run next s es).joystick
    t.WellFormed ∧
      t.receiver = (if check q = b then .synced []
        else if b = Command.syncStart.code then .syncStart else .synced []) ∧
      (Trace.observe Joystick.next Joystick.acceptedBy s.joystick
        (es.flatMap FirmwareEvent.serial)).map Vector.toList = if check q = b then [q] else [] := by
  intro t
  have ht : t = Trace.run Joystick.next s.joystick (es.flatMap FirmwareEvent.serial) :=
    s.run_joystick hin
  obtain ⟨hr, -, ha⟩ := Receiver.run_window q b hq
  refine ⟨?_, ?_, ?_⟩
  · rw [ht]
    exact Joystick.run_wellFormed hs.wellFormed _
  · rw [ht, Joystick.run_receiver hs.wellFormed, flatMap_serial_byte, hs.receiver_eq, hes, hr]
  · rw [Joystick.run_accepted hs.wellFormed, flatMap_serial_byte, hs.receiver_eq, hes, ha]

theorem Joystick.WellFormed.aligned {s : Joystick} (h : s.WellFormed)
    (hr : s.receiver = .synced []) : s.Aligned := by
  obtain ⟨hst, hn, -, hc⟩ := (h.synced_iff []).mp hr
  exact ⟨hst, hn, hc⟩

/-- **A damaged frame costs only itself**, unless its last byte is the start command.  On a
synchronised firmware with an empty buffer, with sends to the console and OUT packets that
write inside the reply buffer anywhere in between: nine bytes that fail the check leave the
controller report alone, and the frame that follows is accepted whole. -/
theorem damaged_frame_costs_itself {s : Firmware} (hs : s.joystick.Aligned) (q p : Vector Byte 8)
    {b : Byte} (hb : check q.toList ≠ b) (damaged following : List FirmwareEvent)
    (hin : Trace.Always Firmware.next Firmware.InBounds s (damaged ++ following))
    (hdamaged : damaged.flatMap FirmwareEvent.byte = q.toList ++ [b])
    (hfollowing : following.flatMap FirmwareEvent.byte = uartWrite p.toList) :
    let t := Trace.run Firmware.next s damaged
    let u := Trace.run Firmware.next t following
    (t.joystick.controllerReport = s.joystick.controllerReport ∧
      Trace.observe Joystick.next Joystick.acceptedBy t.joystick
        (following.flatMap FirmwareEvent.serial) = [p] ∧
      u.joystick.Aligned ∧ u.joystick.controllerReport = populateReportFromSerial p) ↔
    b ≠ Command.syncStart.code := by
  intro t u
  obtain ⟨hind, hinf⟩ := Trace.always_append.mp hin
  obtain ⟨hw, hr, ha⟩ := s.run_window hs q.length_toList hind hdamaged
  rw [if_neg hb] at hr ha
  have hlen : (uartWrite p.toList).length = 9 := by simp [uartWrite]
  constructor
  · rintro ⟨-, haccepted, -, -⟩ hstart
    rw [if_pos hstart] at hr
    have hnone := Joystick.run_accepted hw (following.flatMap FirmwareEvent.serial)
    rw [haccepted, flatMap_serial_byte, hfollowing, hr, Receiver.accepted_syncStart hlen] at hnone
    cases hnone
  · intro hne
    rw [if_neg hne] at hr
    have ht : t.joystick.Aligned := hw.aligned hr
    have hframe : following.flatMap FirmwareEvent.byte = p.toList ++ [check p.toList] := by
      rw [hfollowing, uartWrite_eq]
    obtain ⟨hw', hr', ha'⟩ := t.run_window ht p.length_toList hinf hframe
    rw [if_pos rfl] at hr' ha'
    have haccepted : Trace.observe Joystick.next Joystick.acceptedBy t.joystick
        (following.flatMap FirmwareEvent.serial) = [p] :=
      List.map_injective_iff.mpr (fun _ _ h => Vector.toList_inj.mp h) ha'
    refine ⟨?_, haccepted, hw'.aligned hr', ?_⟩
    · show (Trace.run Firmware.next s damaged).joystick.controllerReport = _
      rw [s.run_joystick hind, Joystick.run_controllerReport, List.map_eq_nil_iff.mp ha]
      rfl
    · show (Trace.run Firmware.next t following).joystick.controllerReport = _
      rw [t.run_joystick hinf, Joystick.run_controllerReport, haccepted]
      rfl

/-- One wrong bit in the buttons: the next frame, with A pressed, is accepted. -/
theorem damaged_frame_costs_itself_button :
    let s : Firmware :=
      ⟨Trace.run Joystick.next .boot (receive [cmdSt, cmd1, cmd2]),
        .setupResponseManager .zero⟩
    let q : Vector Byte 8 := #v[1, 0, 8, 0x80, 0x80, 0x80, 0x80, 0]
    let p : Vector Byte 8 := #v[0, 4, 8, 0x80, 0x80, 0x80, 0x80, 0]
    let events (bs : List Byte) : List FirmwareEvent := bs.map .rx
    (Trace.run Firmware.next s
        (events (q.toList ++ [0]) ++ events (uartWrite p.toList))).joystick.controllerReport =
      populateReportFromSerial p := by
  intro s q p events
  have hs : s.joystick.Aligned := ⟨by decide +kernel, by decide +kernel, by decide +kernel⟩
  have hq : check q.toList ≠ 0 := by decide +kernel
  have hbytes : ∀ bs, (events bs).flatMap FirmwareEvent.byte = bs := by
    intro bs
    rw [List.flatMap_map]
    exact List.flatMap_singleton' bs
  have hin : Trace.Always Firmware.next Firmware.InBounds s
      (events (q.toList ++ [0]) ++ events (uartWrite p.toList)) := by decide +kernel
  obtain ⟨-, -, -, hreport⟩ :=
    (damaged_frame_costs_itself hs q p hq _ _ hin (hbytes _) (hbytes _)).mpr (by decide)
  rw [Trace.run_append]
  exact hreport

/-- The neutral frame with its last byte damaged into a start command: no neutral frame
after it is accepted, however many there are. -/
theorem damaged_frame_silences :
    let s := Trace.run Joystick.next .boot (receive [cmdSt, cmd1, cmd2])
    let p := Packet.neutral.pack.toList
    let t := Trace.run Joystick.next s (receive (p ++ [cmdSt]))
    s.Aligned ∧ check p ≠ cmdSt ∧
      ∀ n, Trace.observe Joystick.next Joystick.acceptedBy t
        (receive (stream n (uartWrite p))) = [] := by
  intro s p t
  have hs : s.Aligned := ⟨by decide +kernel, by decide +kernel, by decide +kernel⟩
  have hc : check p ≠ cmdSt := by decide +kernel
  have hw : t.WellFormed := Joystick.run_wellFormed hs.wellFormed _
  have hr : t.receiver = .syncStart := by
    obtain ⟨hr, -, -⟩ := Receiver.run_window p cmdSt (Packet.neutral.pack.length_toList)
    rw [Joystick.receive_receiver hs.wellFormed, hs.receiver_eq, hr, if_neg hc]
    rfl
  have hframe : cmd1 ∉ uartWrite p := by decide +kernel
  refine ⟨hs, hc, fun n => ?_⟩
  have hstream : ¬ handshake <:+: cmdSt :: stream n (uartWrite p) := by
    intro hinfix
    have hmem : cmd1 ∈ cmdSt :: stream n (uartWrite p) := hinfix.subset (by simp [handshake])
    rcases List.mem_cons.mp hmem with h | h
    · exact absurd h (by decide)
    · obtain ⟨w, hw, hmem⟩ := List.mem_flatten.mp h
      exact hframe (List.eq_of_mem_replicate hw ▸ hmem)
  have hnone := Joystick.receive_accepted hw (stream n (uartWrite p))
  rw [hr, Receiver.accepted_of_no_handshake hstream] at hnone
  exact List.map_eq_nil_iff.mp hnone

end XInputSwitch
