import XInputSwitch.PacketCrc

/-! # What the receiver is for

The handler keeps a partial packet as an array, an index and a running remainder,
and resets the last two in one branch only.  The receiver it implements has no
such bookkeeping: it is somewhere in the handshake, or collecting a list of bytes
(`Receiver`).  A collected list of eight is a packet when the next byte is its
check byte.

`Joystick.WellFormed` is the representation invariant: at most eight bytes are
buffered, the remainder is that of the buffered bytes, and nothing is buffered
outside `SYNCED`.  Under it every byte moves the handler as it moves the receiver,
with the same responses and the same accepted payloads (`isr_refines`); it holds
at boot and every event keeps it (`wellFormed_of_reachable`).
-/
namespace XInputSwitch

/-- The receiver: a stage of the handshake, or the bytes of the packet collected
so far. -/
inductive Receiver where
  | synced (buffer : List Byte)
  | syncStart
  | sync1
  | outOfSync
deriving DecidableEq, Repr

namespace Receiver

/-- Outside packets only the start command matters: it restarts the handshake. -/
def restart (b : Byte) : Receiver := if b = Command.syncStart.code then .syncStart else .outOfSync

def next : Receiver → Byte → Receiver
  | .synced buffer, b =>
    if buffer.length < 8 then .synced (buffer ++ [b])
    else if check buffer = b then .synced []
    else if b = Command.syncStart.code then .syncStart
    else .synced []
  | .syncStart, b => if b = Command.sync1.code then .sync1 else restart b
  | .sync1, b => if b = Command.sync2.code then .synced [] else restart b
  | .outOfSync, b => restart b

/-- The response to a byte outside packets. -/
def restartResponse (b : Byte) : List Response :=
  if b = Command.syncStart.code then [.syncStart] else []

def responses : Receiver → Byte → List Response
  | .synced buffer, b =>
    if buffer.length < 8 then []
    else if check buffer = b then [.updateAck]
    else if b = Command.syncStart.code then [.syncStart]
    else [.updateNack]
  | .syncStart, b => if b = Command.sync1.code then [.sync1] else restartResponse b
  | .sync1, b => if b = Command.sync2.code then [.syncOk] else restartResponse b
  | .outOfSync, b => restartResponse b

/-- The payload a byte completes. -/
def accepted : Receiver → Byte → List (List Byte)
  | .synced buffer, b => if buffer.length < 8 then [] else if check buffer = b then [buffer] else []
  | _, _ => []

/-- The receiver at a stage, with nothing collected. -/
def atStage : SyncState → Receiver
  | .synced => .synced []
  | .syncStart => .syncStart
  | .sync1 => .sync1
  | .outOfSync => .outOfSync

/-- The receiver never holds more than a payload. -/
def Bounded : Receiver → Prop
  | .synced buffer => buffer.length ≤ 8
  | _ => True

end Receiver

/-! ## Collecting -/

namespace Receiver

theorem next_bounded (r : Receiver) (b : Byte) (h : r.Bounded) : (r.next b).Bounded := by
  unfold next restart
  repeat' split
  all_goals simp [Bounded]
  omega

/-- Up to eight bytes are collected in silence. -/
theorem run_collect (buffer bs : List Byte) (h : buffer.length + bs.length ≤ 8) :
    Trace.run next (.synced buffer) bs = .synced (buffer ++ bs) ∧
      Trace.observe next responses (.synced buffer) bs = [] ∧
      Trace.observe next accepted (.synced buffer) bs = [] := by
  induction bs generalizing buffer with
  | nil => simp
  | cons b bs ih =>
    rw [List.length_cons] at h
    have hlt : buffer.length < 8 := by omega
    obtain ⟨hr, hs, ha⟩ := ih (buffer ++ [b]) (by simp; omega)
    simp [next, responses, accepted, hlt, hr, hs, ha]

/-- A full buffer is judged by the next byte. -/
theorem next_full {q : List Byte} (hq : q.length = 8) (b : Byte) :
    next (.synced q) b =
      if check q = b then .synced []
      else if b = Command.syncStart.code then .syncStart else .synced [] :=
  if_neg (by omega)

theorem responses_full {q : List Byte} (hq : q.length = 8) (b : Byte) :
    responses (.synced q) b =
      if check q = b then [.updateAck]
      else if b = Command.syncStart.code then [.syncStart] else [.updateNack] :=
  if_neg (by omega)

theorem accepted_full {q : List Byte} (hq : q.length = 8) (b : Byte) :
    accepted (.synced q) b = if check q = b then [q] else [] :=
  if_neg (by omega)

/-- **A window of nine bytes**, from an empty buffer. -/
theorem run_window (q : List Byte) (b : Byte) (hq : q.length = 8) :
    Trace.run next (.synced []) (q ++ [b]) =
        (if check q = b then .synced []
          else if b = Command.syncStart.code then .syncStart else .synced []) ∧
      Trace.observe next responses (.synced []) (q ++ [b]) =
        (if check q = b then [.updateAck]
          else if b = Command.syncStart.code then [.syncStart] else [.updateNack]) ∧
      Trace.observe next accepted (.synced []) (q ++ [b]) = (if check q = b then [q] else []) := by
  obtain ⟨hr, hs, ha⟩ := run_collect [] q (by simp [hq])
  rw [Trace.run_append, Trace.observe_append, Trace.observe_append, hr, hs, ha, List.nil_append]
  simp [next_full hq, responses_full hq, accepted_full hq]

/-- A frame written by the bridge is acknowledged, and its payload accepted. -/
theorem run_frame (p : List Byte) (hp : p.length = 8) :
    Trace.run next (.synced []) (uartWrite p) = .synced [] ∧
      Trace.observe next responses (.synced []) (uartWrite p) = [.updateAck] ∧
      Trace.observe next accepted (.synced []) (uartWrite p) = [p] := by
  rw [uartWrite_eq]
  simpa using run_window p (check p) hp

end Receiver

/-! ## The handler implements the receiver -/

namespace Joystick

/-- The bytes buffered. -/
def buffered (s : Joystick) : List Byte :=
  s.serialInput.input.toList.take s.serialInput.receivedBytes

/-- The receiver a state of the firmware stands for. -/
def receiver (s : Joystick) : Receiver :=
  match s.state with
  | .synced => .synced s.buffered
  | .syncStart => .syncStart
  | .sync1 => .sync1
  | .outOfSync => .outOfSync

/-- The representation invariant of the receive buffer. -/
structure WellFormed (s : Joystick) : Prop where
  received_le : s.serialInput.receivedBytes ≤ 8
  crc_eq : s.serialInput.crc8Ccitt = check s.buffered
  empty_of_not_synced : s.state ≠ .synced → s.serialInput.receivedBytes = 0

theorem WellFormed.buffered_length {s : Joystick} (h : s.WellFormed) :
    s.buffered.length = s.serialInput.receivedBytes := by
  simp [buffered, h.received_le]

theorem WellFormed.bounded {s : Joystick} (h : s.WellFormed) : s.receiver.Bounded := by
  unfold receiver
  cases s.state <;> simp [Receiver.Bounded, h.buffered_length, h.received_le]

theorem boot_wellFormed : boot.WellFormed := ⟨by decide, by decide, by decide⟩

/-- A state whose buffer is empty and remainder zero is well formed. -/
theorem WellFormed.of_empty {s : Joystick} (hr : s.serialInput.receivedBytes = 0)
    (hc : s.serialInput.crc8Ccitt = 0) : s.WellFormed :=
  ⟨by omega, by simp [buffered, hr, hc], fun _ => hr⟩

/-- What a synchronised receiver says about the variables of the firmware. -/
theorem WellFormed.synced_iff {s : Joystick} (h : s.WellFormed) (buffer : List Byte) :
    s.receiver = .synced buffer ↔
      s.state = .synced ∧ s.serialInput.receivedBytes = buffer.length ∧ s.buffered = buffer ∧
        s.serialInput.crc8Ccitt = check buffer := by
  constructor
  · intro hr
    have hst : s.state = .synced := by
      cases hs : s.state <;> simp [receiver, hs] at hr ⊢
    have hbuf : s.buffered = buffer := by simpa [receiver, hst] using hr
    exact ⟨hst, by rw [← hbuf, h.buffered_length], hbuf, hbuf ▸ h.crc_eq⟩
  · rintro ⟨hst, -, rfl, -⟩
    simp only [receiver, hst]

/-- Outside `SYNCED` the buffer is empty and the remainder zero. -/
theorem WellFormed.syncStart_of {s : Joystick} (h : s.WellFormed) (hr : s.receiver = .syncStart) :
    s.state = .syncStart ∧ s.serialInput.receivedBytes = 0 ∧ s.serialInput.crc8Ccitt = 0 := by
  have hst : s.state = .syncStart := by
    cases hs : s.state <;> simp [receiver, hs] at hr ⊢
  have h0 := h.empty_of_not_synced (by rw [hst]; decide)
  exact ⟨hst, h0, by rw [h.crc_eq, buffered, h0]; rfl⟩

/-- The handler as the receiver sees it: after one byte the invariant holds, the
receiver has moved, and the responses and accepted payloads are its own. -/
structure Refines (s : Joystick) (b : Byte) : Prop where
  wellFormed : (s.isr b).1.WellFormed
  receiver : (s.isr b).1.receiver = s.receiver.next b
  responses : (s.isr b).2 = s.receiver.responses b
  accepted : (s.accepted b).toList.map Vector.toList = s.receiver.accepted b

theorem buffered_store (s : Joystick) (b : Byte) (h : s.serialInput.receivedBytes < 8) :
    (s.serialInput.input.set s.serialInput.receivedBytes b).toList.take
        (s.serialInput.receivedBytes + 1) = s.buffered ++ [b] := by
  rw [Vector.toList_set, List.take_succ_eq_append_getElem (by simpa using h),
    List.getElem_set_self, List.take_set_of_le (Nat.le_refl _)]
  rfl

/-- While the packet is incomplete, the handler collects. -/
theorem refines_collect {s : Joystick} (h : s.WellFormed) (hst : s.state = .synced)
    (hlt : s.serialInput.receivedBytes < 8) (b : Byte) : s.Refines b := by
  have hlen : s.buffered.length < 8 := by rw [h.buffered_length]; exact hlt
  have hisr : s.isr b =
      ({ s with serialInput :=
          { input := s.serialInput.input.set s.serialInput.receivedBytes b
            crc8Ccitt := crc8CcittUpdate s.serialInput.crc8Ccitt b
            receivedBytes := s.serialInput.receivedBytes + 1 } }, []) := by
    simp [isr, isrDispatch, isrSynced, hst, hlt]
  have hbuf : (s.isr b).1.buffered = s.buffered ++ [b] := by
    rw [hisr]; exact s.buffered_store b hlt
  have hrec : s.receiver = .synced s.buffered := by simp [Joystick.receiver, hst]
  refine ⟨⟨?_, ?_, ?_⟩, ?_, ?_, ?_⟩
  · rw [hisr]; exact hlt
  · rw [hbuf, check_concat, ← h.crc_eq, hisr]
  · rw [hisr]; exact fun hne => absurd hst hne
  · have : (s.isr b).1.state = .synced := by rw [hisr]; exact hst
    simp [Joystick.receiver, this, hbuf, hst, Receiver.next, hlen]
  · rw [hrec, hisr]; simp [Receiver.responses, hlen]
  · rw [hrec]; simp [Joystick.accepted, Receiver.accepted, hlen, Nat.not_le.mpr hlt]

/-- With nothing buffered, a state stands for the receiver of its stage. -/
theorem receiver_of_empty {s : Joystick} (hr : s.serialInput.receivedBytes = 0) :
    s.receiver = .atStage s.state := by
  cases hs : s.state <;> simp [receiver, Receiver.atStage, buffered, hs, hr]

/-- On the ninth byte the packet is judged, and the buffer is empty again. -/
theorem refines_judge {s : Joystick} (h : s.WellFormed) (hst : s.state = .synced)
    (hge : ¬ s.serialInput.receivedBytes < 8) (b : Byte) : s.Refines b := by
  have h8 : s.serialInput.receivedBytes = 8 := Nat.le_antisymm h.received_le (Nat.le_of_not_lt hge)
  have hbuf : s.serialInput.input.toList = s.buffered := by
    rw [buffered, h8]; exact (List.take_of_length_le (by simp)).symm
  have hlen : ¬ s.buffered.length < 8 := by rw [h.buffered_length]; exact hge
  have hrec : s.receiver = .synced s.buffered := by simp only [receiver, hst]
  by_cases hcrc : s.serialInput.crc8Ccitt = b
  · have hacc : s.accepted b = some s.serialInput.input :=
      if_pos ⟨hst, Nat.le_of_not_lt hge, hcrc⟩
    have hck : check s.buffered = b := h.crc_eq ▸ hcrc
    have hisr := isr_of_accepted hacc
    refine ⟨?_, ?_, ?_, ?_⟩
    · rw [hisr]; exact .of_empty rfl rfl
    · rw [hrec, receiver_of_empty (by rw [hisr]), hisr, hst]
      simp only [Receiver.next, Receiver.atStage, hlen, hck, if_true, if_false]
    · rw [hrec, hisr]; simp only [Receiver.responses, hlen, hck, if_true, if_false]
    · rw [hrec, hacc]
      simp only [Receiver.accepted, hlen, hck, if_true, if_false, Option.toList_some,
        List.map_cons, List.map_nil, hbuf]
  · have hck : ¬ check s.buffered = b := h.crc_eq ▸ hcrc
    have hacc : s.accepted b = none := if_neg fun hc => hcrc hc.2.2
    have haccepted : (s.accepted b).toList.map Vector.toList = s.receiver.accepted b := by
      rw [hrec, hacc]; simp only [Receiver.accepted, hck, if_false, ite_self]; rfl
    by_cases hff : b = Command.syncStart.code
    · have hisr : s.isr b =
          ({ s with
              state := .syncStart
              serialInput := { s.serialInput with receivedBytes := 0, crc8Ccitt := 0 } },
            [.syncStart]) := by
        simp [isr, isrDispatch, isrSynced, hst, hge, hcrc, if_pos hff]
      refine ⟨?_, ?_, ?_, haccepted⟩
      · rw [hisr]; exact .of_empty rfl rfl
      · rw [hrec, hisr]; simp only [receiver, Receiver.next, hlen, hck, if_pos hff, if_false]
      · rw [hrec, hisr]; simp only [Receiver.responses, hlen, hck, if_pos hff, if_false]
    · have hisr : s.isr b =
          ({ s with serialInput := { s.serialInput with receivedBytes := 0, crc8Ccitt := 0 } },
            [.updateNack]) := by
        simp [isr, isrDispatch, isrSynced, hst, hge, hcrc, hff]
      refine ⟨?_, ?_, ?_, haccepted⟩
      · rw [hisr]; exact .of_empty rfl rfl
      · rw [hrec, receiver_of_empty (by rw [hisr]), hisr, hst]
        simp only [Receiver.next, Receiver.atStage, hlen, hck, hff, if_false]
      · rw [hrec, hisr]; simp only [Receiver.responses, hlen, hck, hff, if_false]

/-- A branch that leaves the link in sync or in the handshake ends the handler. -/
theorem isr_of_advance {s : Joystick} {b : Byte} {stage : SyncState} {sent : List Response}
    (h : s.isrDispatch b = ({ s with state := stage }, sent)) (hne : stage ≠ .outOfSync) :
    s.isr b = ({ s with state := stage }, sent) := by
  simp only [isr, h, hne, false_and, if_false]

/-- A branch that loses sync has its byte looked at once more. -/
theorem isr_of_restart {s : Joystick} {b : Byte}
    (h : s.isrDispatch b = ({ s with state := .outOfSync }, [])) :
    s.isr b = ({ s with state := if b = Command.syncStart.code then .syncStart else .outOfSync },
      Receiver.restartResponse b) := by
  simp only [isr, h, true_and, Receiver.restartResponse]
  split <;> rfl

/-- A step that only changes the stage refines the receiver as soon as the stage
and the responses are the receiver's. -/
theorem refines_of_stage {s : Joystick} (h : s.WellFormed) (hst : s.state ≠ .synced) {b : Byte}
    {stage : SyncState} {sent : List Response} (hisr : s.isr b = ({ s with state := stage }, sent))
    (hnext : Receiver.atStage stage = (Receiver.atStage s.state).next b)
    (hsent : sent = (Receiver.atStage s.state).responses b) : s.Refines b := by
  have hr := h.empty_of_not_synced hst
  have hc : s.serialInput.crc8Ccitt = 0 := by rw [h.crc_eq, buffered, hr]; rfl
  have hacc : s.accepted b = none := if_neg fun hc => hst hc.1
  refine ⟨?_, ?_, ?_, ?_⟩
  · rw [hisr]; exact .of_empty hr hc
  · rw [receiver_of_empty hr, ← hnext, hisr]; exact receiver_of_empty hr
  · rw [receiver_of_empty hr, ← hsent, hisr]
  · rw [receiver_of_empty hr, hacc]
    cases hs : s.state with
    | synced => exact absurd hs hst
    | _ => rfl

theorem atStage_restart (b : Byte) :
    Receiver.atStage (if b = Command.syncStart.code then .syncStart else .outOfSync) =
      Receiver.restart b := by
  unfold Receiver.restart
  split <;> rfl

/-- In the handshake, the expected command advances the stage and any other byte is
looked at again. -/
theorem refines_of_expected {s : Joystick} (h : s.WellFormed) (hst : s.state ≠ .synced) {b : Byte}
    (command : Byte) (stage : SyncState) (response : Response) (hne : stage ≠ .outOfSync)
    (hd : s.isrDispatch b =
      if b = command then ({ s with state := stage }, [response])
      else ({ s with state := .outOfSync }, []))
    (hnext : (Receiver.atStage s.state).next b =
      if b = command then .atStage stage else .restart b)
    (hsent : (Receiver.atStage s.state).responses b =
      if b = command then [response] else Receiver.restartResponse b) : s.Refines b := by
  by_cases hb : b = command
  · rw [if_pos hb] at hd hnext hsent
    exact refines_of_stage h hst (isr_of_advance hd hne) hnext.symm hsent.symm
  · rw [if_neg hb] at hd hnext hsent
    refine refines_of_stage h hst (isr_of_restart hd) ?_ hsent.symm
    rw [hnext, atStage_restart]

theorem refines_handshake {s : Joystick} (h : s.WellFormed) (hst : s.state ≠ .synced) (b : Byte) :
    s.Refines b := by
  cases hs : s.state with
  | synced => exact absurd hs hst
  | syncStart =>
    exact refines_of_expected h hst Command.sync1.code .sync1 .sync1 (by decide)
      (by simp only [isrDispatch, hs]) (by rw [hs]; rfl) (by rw [hs]; rfl)
  | sync1 =>
    exact refines_of_expected h hst Command.sync2.code .synced .syncOk (by decide)
      (by simp only [isrDispatch, hs]) (by rw [hs]; rfl) (by rw [hs]; rfl)
  | outOfSync =>
    have hself : s.isrDispatch b = ({ s with state := .outOfSync }, []) := by
      simp only [isrDispatch, hs]; rw [← hs]
    refine refines_of_stage h hst (isr_of_restart hself) ?_ (by rw [hs]; rfl)
    rw [atStage_restart, hs]
    rfl

/-- **The handler implements the receiver**, byte by byte. -/
theorem isr_refines {s : Joystick} (h : s.WellFormed) (b : Byte) : s.Refines b := by
  by_cases hst : s.state = .synced
  · by_cases hlt : s.serialInput.receivedBytes < 8
    · exact refines_collect h hst hlt b
    · exact refines_judge h hst hlt b
  · exact refines_handshake h hst b

/-! ## Sends do not disturb the receiver -/

/-- The callback leaves the receive buffer, the stage and the controller report
alone. -/
theorem callbackBeforeSend_frame (s : Joystick) :
    s.callbackBeforeSend.serialInput = s.serialInput ∧ s.callbackBeforeSend.state = s.state ∧
      s.callbackBeforeSend.controllerReport = s.controllerReport := by
  obtain ⟨leds, millis, hcb | ⟨home, hcb⟩⟩ := s.callbackBeforeSend_cases
  · rw [hcb]
    exact ⟨rfl, rfl, rfl⟩
  · rw [hcb]
    exact ⟨rfl, rfl, rfl⟩

theorem callbackBeforeSend_wellFormed {s : Joystick} (h : s.WellFormed) :
    s.callbackBeforeSend.WellFormed := by
  obtain ⟨hi, hst, -⟩ := s.callbackBeforeSend_frame
  refine ⟨by rw [hi]; exact h.received_le, ?_, ?_⟩
  · rw [buffered, hi]; exact h.crc_eq
  · rw [hi, hst]; exact h.empty_of_not_synced

theorem callbackBeforeSend_receiver (s : Joystick) :
    s.callbackBeforeSend.receiver = s.receiver := by
  obtain ⟨hi, hst, -⟩ := s.callbackBeforeSend_frame
  simp only [receiver, buffered, hi, hst]

/-! ## Runs -/

theorem next_wellFormed (s : Joystick) (e : SerialEvent) (h : s.WellFormed) :
    (s.next e).WellFormed := by
  cases e with
  | rx b => exact (isr_refines h b).wellFormed
  | beforeSend => exact callbackBeforeSend_wellFormed h

/-- The invariant holds in every reachable state. -/
theorem wellFormed_of_reachable {s : Joystick} (h : Trace.Reachable next boot s) : s.WellFormed :=
  h.invariant boot_wellFormed next_wellFormed

end Joystick

/-- The byte an event delivers. -/
def SerialEvent.byte : SerialEvent → List Byte
  | .rx b => [b]
  | .beforeSend => []

/-- The bytes `bs` arrive, with no send in between. -/
def receive (bs : List Byte) : List SerialEvent := bs.map .rx

@[simp] theorem flatMap_byte_receive (bs : List Byte) :
    (receive bs).flatMap SerialEvent.byte = bs := by
  induction bs with
  | nil => rfl
  | cons b bs ih => simpa [receive, SerialEvent.byte] using ih

namespace Joystick

theorem next_receiver (s : Joystick) (e : SerialEvent) (h : s.WellFormed) :
    (s.next e).receiver = Trace.run Receiver.next s.receiver e.byte := by
  cases e with
  | rx b => exact (isr_refines h b).receiver
  | beforeSend => exact s.callbackBeforeSend_receiver

theorem run_wellFormed {s : Joystick} (h : s.WellFormed) (es : List SerialEvent) :
    (Trace.run next s es).WellFormed :=
  Trace.run_invariant next_wellFormed h es

/-- **Runs of the firmware are runs of the receiver** on the bytes received. -/
theorem run_receiver {s : Joystick} (h : s.WellFormed) (es : List SerialEvent) :
    (Trace.run next s es).receiver =
      Trace.run Receiver.next s.receiver (es.flatMap SerialEvent.byte) :=
  Trace.run_simulates next_wellFormed next_receiver h es

theorem run_responses {s : Joystick} (h : s.WellFormed) (es : List SerialEvent) :
    Trace.observe next responses s es =
      Trace.observe Receiver.next Receiver.responses s.receiver (es.flatMap SerialEvent.byte) := by
  refine Trace.observe_simulates next_wellFormed next_receiver ?_ h es
  intro s e h
  cases e with
  | rx b => simpa [SerialEvent.byte, responses] using (isr_refines h b).responses
  | beforeSend => rfl

theorem run_accepted {s : Joystick} (h : s.WellFormed) (es : List SerialEvent) :
    (Trace.observe next acceptedBy s es).map Vector.toList =
      Trace.observe Receiver.next Receiver.accepted s.receiver (es.flatMap SerialEvent.byte) := by
  rw [← Trace.observe_map]
  refine Trace.observe_simulates next_wellFormed next_receiver ?_ h es
  intro s e h
  cases e with
  | rx b => simpa [SerialEvent.byte, acceptedBy] using (isr_refines h b).accepted
  | beforeSend => rfl

/-- The same for bytes with no send in between. -/
theorem receive_receiver {s : Joystick} (h : s.WellFormed) (bs : List Byte) :
    (Trace.run next s (receive bs)).receiver = Trace.run Receiver.next s.receiver bs := by
  rw [run_receiver h, flatMap_byte_receive]

theorem receive_responses {s : Joystick} (h : s.WellFormed) (bs : List Byte) :
    Trace.observe next responses s (receive bs) =
      Trace.observe Receiver.next Receiver.responses s.receiver bs := by
  rw [run_responses h, flatMap_byte_receive]

theorem receive_accepted {s : Joystick} (h : s.WellFormed) (bs : List Byte) :
    (Trace.observe next acceptedBy s (receive bs)).map Vector.toList =
      Trace.observe Receiver.next Receiver.accepted s.receiver bs := by
  rw [run_accepted h, flatMap_byte_receive]

/-- Bytes that complete no packet change nothing but the receive buffer and the state of
the link. -/
theorem receive_of_not_accepted {s : Joystick} {bs : List Byte}
    (h : Trace.observe next acceptedBy s (receive bs) = []) :
    ∃ input state,
      Trace.run next s (receive bs) = { s with serialInput := input, state := state } := by
  induction bs generalizing s with
  | nil => exact ⟨s.serialInput, s.state, rfl⟩
  | cons b bs ih =>
    obtain ⟨hb, hbs⟩ := List.append_eq_nil_iff.mp h
    have hnone : s.accepted b = none := Option.toList_eq_nil_iff.mp hb
    obtain ⟨input, state, hisr⟩ := isr_of_not_accepted hnone
    obtain ⟨input', state', hrun⟩ := ih hbs
    have hnext : s.next (.rx b) = { s with serialInput := input, state := state } := hisr
    refine ⟨input', state', hrun.trans ?_⟩
    rw [hnext]

/-- The controller report is that of the last payload accepted. -/
theorem run_controllerReport (s : Joystick) (es : List SerialEvent) :
    (Trace.run next s es).controllerReport =
      ((Trace.observe next acceptedBy s es).getLast?.map populateReportFromSerial).getD
        s.controllerReport := by
  induction es generalizing s with
  | nil => rfl
  | cons e es ih =>
    rw [Trace.run_cons, ih, Trace.observe_cons, List.getLast?_append]
    cases hl : (Trace.observe next acceptedBy (s.next e) es).getLast? with
    | some p => rfl
    | none =>
      cases e with
      | rx b =>
        cases ha : s.accepted b with
        | some p => simp [next, acceptedBy, ha, isr_of_accepted ha]
        | none =>
          obtain ⟨input, stage, hisr⟩ := isr_of_not_accepted ha
          simp [next, acceptedBy, ha, hisr]
      | beforeSend => exact s.callbackBeforeSend_frame.2.2

end Joystick
end XInputSwitch
