import XInputSwitch.SyncProtocol
import XInputSwitch.Framing
import XInputSwitch.Failsafe
import XInputSwitch.BridgeGating

/-! # A session of the bridge

`xinput2serial.py` from the attempt loop on, with the firmware at the other end of the line:
when an attempt has returned `True`, the main loop runs and its packets go over the same
channels as the handshake did.  Actions of the two sides interleave in any order
(`SessionEvent`).

One law covers all that goes over the line.  Whatever is recorded of the firmware's
receiver, what has been recorded and what the bytes under way will still add grows exactly
by what the receiver, once drained, makes of the bytes written (`owed_next`).  With
what is written where (`writes_cases`) this gives `session_stream`: the packets accepted are
those written by the loop, in order, without loss or addition.

Requests of the console are left out.  They touch nothing of this unless they overrun the reply
buffer (`Firmware.run_joystick`); what they change is which packets show the report that the
callback selects (`Session.selects`).
-/
namespace XInputSwitch

/-- The packet written. -/
def Written.packet : Written → Packet
  | .home => .home
  | .neutral => .neutral
  | .fromPad packet => packet

/-- The handshake, the line and the firmware; and the main loop. -/
structure Session where
  sync : SyncSystem
  bridge : Bridge

inductive SessionEvent where
  /-- an action of the attempt loop, or of the firmware -/
  | sync (e : SyncEvent)
  /-- an event of the main loop -/
  | loop (e : LoopEvent)

namespace SyncSystem

/-- The bytes an event puts on the line. -/
def writes (c : SyncSystem) : SyncEvent → List Byte
  | .start _ => if c.pc = .attempt ∧ c.attemptsLeft ≠ 0 then startCommands else []
  | .read => if c.pc = .readExpected1 ∧ c.toHost.head? = some rsp1 then [cmd2] else []
  | .timeout => if c.timeout.pc = .readExpected1 then [cmd1] else []
  | .receive | .beforeSend => []

/-- What an event is on the serial side of the firmware. -/
def serial (c : SyncSystem) : SyncEvent → List SerialEvent
  | .receive => receive (c.toFirmware.take 1)
  | .beforeSend => [.beforeSend]
  | .start _ | .read | .timeout => []

/-- An event of the bridge adds its bytes to those under way, and leaves the firmware
alone. -/
theorem next_bridge (c : SyncSystem) (e : SyncEvent) (he : c.serial e = []) :
    (c.next e).toFirmware = c.toFirmware ++ c.writes e ∧ (c.next e).firmware = c.firmware := by
  cases e with
  | receive =>
    cases hto : c.toFirmware with
    | nil => simp [next, hto, writes]
    | cons b rest => simp [serial, hto, receive] at he
  | beforeSend => cases he
  | start discard =>
    by_cases hpc : c.pc = .attempt
    · cases hleft : c.attemptsLeft with
      | zero => simp [next, writes, hpc, start, hleft]
      | succ n => simp [next, writes, hpc, start, hleft, write, startCommands]
    · simp [next, writes, hpc]
  | timeout =>
    cases hpc : c.pc with
    | readUntilQuiet data =>
      by_cases hmem : rspSt ∈ data <;> simp [next, timeout, writes, hpc, hmem, write]
    | _ => simp [next, timeout, writes, hpc]
  | read =>
    cases hto : c.toHost with
    | nil => simp [next, writes, hto]
    | cons b rest =>
      cases hpc : c.pc with
      | readExpected1 =>
        by_cases hb : b = rsp1 <;> simp [next, writes, hto, hpc, reading, consume, hb, write]
      | readExpectedOk =>
        by_cases hb : b = rspOk <;> simp [next, writes, hto, hpc, reading, consume, hb]
      | _ => simp [next, writes, hto, hpc, reading, consume]

theorem next_firmware (c : SyncSystem) (e : SyncEvent) :
    (c.next e).firmware = Trace.run Joystick.next c.firmware (c.serial e) := by
  cases e with
  | receive => cases hto : c.toFirmware <;> simp [next, serial, hto, receive, Joystick.next]
  | beforeSend => rfl
  | start _ | read | timeout => exact (c.next_bridge _ rfl).2

/-- The head of the attempt loop is reached from itself, or by an attempt that has just
failed; nothing is written then. -/
theorem pc_eq_attempt {c : SyncSystem} {e : SyncEvent} (h : (c.next e).pc = .attempt) :
    c.writes e = [] ∧ (c.pc = .attempt ∨ c.pc = .readExpected1 ∨ c.pc = .readExpectedOk ∨
      ∃ data, c.pc = .readUntilQuiet data ∧ rspSt ∉ data) := by
  cases e with
  | receive =>
    refine ⟨rfl, .inl ?_⟩
    cases hto : c.toFirmware <;> simpa [next, hto] using h
  | beforeSend => exact ⟨rfl, .inl h⟩
  | start discard =>
    by_cases hpc : c.pc = .attempt
    · cases hleft : c.attemptsLeft <;> simp [next, hpc, start, hleft, write] at h
    · rw [next, if_neg hpc] at h
      exact absurd h hpc
  | timeout =>
    cases hpc : c.pc with
    | readUntilQuiet data =>
      by_cases hmem : rspSt ∈ data
      · simp [next, timeout, hpc, hmem, write] at h
      · simp [writes, timeout, hpc, hmem]
    | attempt | readExpected1 | readExpectedOk => simp [writes, timeout, hpc]
    | synced | failed => simp [next, timeout, hpc] at h
  | read =>
    cases hto : c.toHost with
    | nil =>
      rw [next, hto] at h
      exact ⟨by simp [writes, hto], .inl h⟩
    | cons b rest =>
      cases hpc : c.pc with
      | attempt => exact ⟨by simp [writes, hpc], .inl rfl⟩
      | readExpected1 =>
        by_cases hb : b = rsp1 <;> simp [next, hto, reading, hpc, consume, hb, write] at h
      | readExpectedOk =>
        by_cases hb : b = rspOk <;> simp [next, hto, reading, hpc, consume, hb] at h
      | readUntilQuiet data => simp [next, hto, reading, hpc, consume] at h
      | synced | failed => simp [next, hto, reading, hpc] at h

/-- An attempt that has returned `True` is the last. -/
theorem pc_next_of_synced {c : SyncSystem} (h : c.pc = .synced) (e : SyncEvent) :
    (c.next e).pc = .synced := by
  cases e with
  | receive => cases hto : c.toFirmware <;> simp [next, hto, h]
  | read => cases hto : c.toHost <;> simp [next, hto, reading, h]
  | _ => simp [next, timeout, h]

end SyncSystem

namespace Session

def initial (firmware : Joystick) (attempts : Nat) (pad : Pad) : Session :=
  ⟨.initial firmware attempts, .initial pad⟩

/-- The payloads the main loop writes; it runs once an attempt has returned `True`. -/
def written (args : Args) (s : Session) : SessionEvent → List (Vector Byte 8)
  | .sync _ => []
  | .loop e =>
    if s.sync.pc = .synced then (s.bridge.step args e).2.map fun w => w.packet.pack else []

def next (args : Args) (s : Session) (e : SessionEvent) : Session :=
  match e with
  | .sync e => { s with sync := s.sync.next e }
  | .loop e' =>
    if s.sync.pc = .synced then
      ⟨s.sync.write (frames ((s.written args e).map Vector.toList)), s.bridge.next args e'⟩
    else s

/-- The byte the firmware handles in an event. -/
def handled (s : Session) : SessionEvent → List Byte
  | .sync .receive => s.sync.toFirmware.take 1
  | _ => []

/-- The payloads the firmware accepts in an event. -/
def accepted (s : Session) (e : SessionEvent) : List (Vector Byte 8) :=
  (s.handled e).flatMap fun b => (s.sync.firmware.accepted b).toList

/-- The responses it sends. -/
def responses (s : Session) (e : SessionEvent) : List Response :=
  (s.handled e).flatMap fun b => (s.sync.firmware.isr b).2

/-- The bytes an event puts on the line. -/
def writes (args : Args) (s : Session) (e : SessionEvent) : List Byte :=
  match e with
  | .sync e => s.sync.writes e
  | .loop _ => frames ((s.written args e).map Vector.toList)

/-! ## The line -/

section Line
variable {γ : Type} (reply : Receiver → Byte → List γ)

/-- The line with a record of what the receiver has done. -/
def line (s : Session) (shown : List γ) : Link Receiver Byte γ :=
  ⟨s.sync.toFirmware, s.sync.firmware.receiver, shown⟩

/-- What an event adds to the record. -/
def served (s : Session) (e : SessionEvent) : List γ :=
  (s.handled e).flatMap (reply s.sync.firmware.receiver)

theorem drained_line (s : Session) (shown : List γ) :
    (s.line shown).drained Receiver.next = s.sync.drained := rfl

theorem line_next_of_ne (args : Args) (s : Session) {e : SessionEvent} (he : e ≠ .sync .receive)
    (shown : List γ) :
    (s.next args e).line (shown ++ s.served reply e) = (s.line shown).write (s.writes args e) := by
  have hserved : s.served reply e = [] := by
    rcases e with (_ | _ | _ | _ | _) | _ <;> first | rfl | exact absurd rfl he
  rw [hserved, List.append_nil]
  cases e with
  | sync e =>
    cases e with
    | receive => exact absurd rfl he
    | beforeSend =>
      simp [line, next, SyncSystem.next, Link.write, writes, SyncSystem.writes,
        Joystick.callbackBeforeSend_receiver]
    | start discard =>
      obtain ⟨hto, hfirmware⟩ := s.sync.next_bridge (.start discard) rfl
      simp only [line, next, Link.write, writes, hto, hfirmware]
    | read =>
      obtain ⟨hto, hfirmware⟩ := s.sync.next_bridge .read rfl
      simp only [line, next, Link.write, writes, hto, hfirmware]
    | timeout =>
      obtain ⟨hto, hfirmware⟩ := s.sync.next_bridge .timeout rfl
      simp only [line, next, Link.write, writes, hto, hfirmware]
  | loop e =>
    by_cases hpc : s.sync.pc = .synced
    · simp [line, next, Link.write, writes, hpc, SyncSystem.write]
    · simp [line, next, Link.write, writes, written, hpc, frames]

theorem line_receive (args : Args) {s : Session} (h : s.sync.firmware.WellFormed)
    (shown : List γ) :
    (s.next args (.sync .receive)).line (shown ++ s.served reply (.sync .receive)) =
      (s.line shown).serve Receiver.next reply := by
  cases hto : s.sync.toFirmware with
  | nil => simp [line, next, SyncSystem.next, served, handled, Link.serve, hto]
  | cons b rest =>
    simp [line, next, SyncSystem.next, served, handled, Link.serve, hto,
      (Joystick.isr_refines h b).receiver]

/-- **What is written decides what the receiver will have been**, and what it will have
done. -/
theorem drained_next (args : Args) {s : Session} (h : s.sync.firmware.WellFormed)
    (e : SessionEvent) :
    (s.next args e).sync.drained = Trace.run Receiver.next s.sync.drained (s.writes args e) := by
  by_cases he : e = .sync .receive
  · have hline := line_receive Receiver.responses args h []
    rw [← drained_line _ ([] ++ _), he, hline, Link.drained_serve, drained_line]
    rfl
  · have hline := s.line_next_of_ne Receiver.responses args he []
    rw [← drained_line _ ([] ++ _), hline, Link.drained_write, drained_line]

theorem owed_next (args : Args) {s : Session} (h : s.sync.firmware.WellFormed) (e : SessionEvent)
    (shown : List γ) :
    Link.owed Receiver.next reply ((s.next args e).line (shown ++ s.served reply e)) =
      Link.owed Receiver.next reply (s.line shown) ++
        Trace.observe Receiver.next reply s.sync.drained (s.writes args e) := by
  by_cases he : e = .sync .receive
  · have hwrites : s.writes args e = [] := by rw [he]; rfl
    rw [hwrites, he, line_receive reply args h, Link.owed_serve, Trace.observe_nil,
      List.append_nil]
  · rw [line_next_of_ne reply args s he, Link.owed_write, drained_line]

end Line

theorem served_accepted {s : Session} (h : s.sync.firmware.WellFormed) (e : SessionEvent) :
    (s.accepted e).map Vector.toList = s.served Receiver.accepted e := by
  rw [accepted, served, List.map_flatMap]
  congr 1
  funext b
  exact (Joystick.isr_refines h b).accepted

theorem served_responses {s : Session} (h : s.sync.firmware.WellFormed) (e : SessionEvent) :
    s.responses e = s.served Receiver.responses e := by
  rw [responses, served]
  congr 1
  funext b
  exact (Joystick.isr_refines h b).responses

/-! ## What is written where -/

/-- The frames of a loop are taken whole by a receiver at the start of a packet. -/
theorem run_frames_whole (ps : List (Vector Byte 8)) :
    Trace.run Receiver.next (.synced []) (frames (ps.map Vector.toList)) = .synced [] ∧
      Trace.observe Receiver.next Receiver.responses (.synced [])
        (frames (ps.map Vector.toList)) = List.replicate ps.length .updateAck ∧
      Trace.observe Receiver.next Receiver.accepted (.synced [])
        (frames (ps.map Vector.toList)) = ps.map Vector.toList := by
  have hlen := length_frames ps
  obtain ⟨⟨buffer, hbuffer, hr⟩, hs, ha⟩ := Receiver.run_frames (ps.map Vector.toList) (by simp)
    (frames (ps.map Vector.toList)) [] (List.append_nil _)
  rw [hlen, Nat.mul_mod_right] at hbuffer
  rw [hlen, Nat.mul_div_cancel_left _ (by decide)] at hs ha
  obtain rfl := List.length_eq_zero_iff.mp hbuffer
  refine ⟨hr, hs, ha.trans ?_⟩
  rw [List.take_of_length_le (by simp)]

/-- What an event writes, by where the bridge is and what the receiver is about to be. -/
inductive WritesTo : HostPc → Receiver → List Byte → List (Vector Byte 8) → Prop
  | nothing (pc : HostPc) (d : Receiver) : WritesTo pc d [] []
  | start (d : Receiver) : WritesTo .attempt d startCommands []
  | first (pc : HostPc) : WritesTo pc .syncStart [cmd1] []
  | second (pc : HostPc) : WritesTo pc .sync1 [cmd2] []
  | packets (ps : List (Vector Byte 8)) :
    WritesTo .synced (.synced []) (frames (ps.map Vector.toList)) ps

theorem writesTo_next (args : Args) {s : Session} (h : s.sync.Inv) (e : SessionEvent) :
    WritesTo s.sync.pc s.sync.drained (s.writes args e) (s.written args e) := by
  have hag := h.agrees
  cases e with
  | loop e =>
    by_cases hpc : s.sync.pc = .synced
    · rw [hpc] at hag ⊢
      rw [show s.sync.drained = .synced [] from hag]
      exact .packets _
    · simp only [writes, written, hpc, if_false]
      exact .nothing _ _
  | sync e =>
    cases e with
    | receive | beforeSend => exact .nothing _ _
    | start discard =>
      simp only [writes, written, SyncSystem.writes]
      split
      · rename_i hstart
        rw [hstart.1]
        exact .start _
      · exact .nothing _ _
    | timeout =>
      cases hpc : s.sync.pc with
      | readUntilQuiet data =>
        rw [hpc] at hag
        by_cases hmem : rspSt ∈ data
        · rw [show s.sync.drained = .syncStart from hag.resolve_right fun hn => hn.2.1 hmem]
          simp only [writes, written, SyncSystem.writes, SyncSystem.timeout, hpc, hmem, if_true,
            SyncSystem.write]
          exact .first _
        · simp only [writes, written, SyncSystem.writes, SyncSystem.timeout, hpc, hmem, if_false,
            reduceCtorEq]
          exact .nothing _ _
      | _ =>
        simp only [writes, written, SyncSystem.writes, SyncSystem.timeout, hpc, reduceCtorEq,
          if_false]
        exact .nothing _ _
    | read =>
      simp only [writes, written, SyncSystem.writes]
      split
      · rename_i hread
        rw [hread.1] at hag
        rw [show s.sync.drained = .sync1 from hag]
        exact .second _
      · exact .nothing _ _

theorem next_inv (args : Args) (s : Session) (e : SessionEvent) (h : s.sync.Inv) :
    (s.next args e).sync.Inv := by
  cases e with
  | sync e => exact s.sync.next_inv e h
  | loop e =>
    by_cases hpc : s.sync.pc = .synced
    · have hag := h.agrees
      rw [hpc] at hag
      have hd := drained_next args h.wellFormed (.loop e)
      rw [show s.sync.drained = .synced [] from hag] at hd
      have hnext : (s.next args (.loop e)).sync.pc = .synced ∧
          (s.next args (.loop e)).sync.firmware = s.sync.firmware := by
        simp [next, hpc, SyncSystem.write]
      refine ⟨hnext.2 ▸ h.wellFormed, ?_⟩
      rw [hnext.1, hd]
      exact (run_frames_whole _).1
    · simpa [next, hpc] using h

end Session

/-! ## What the receiver makes of it -/

namespace Receiver

/-- The packet that nine start commands make of the bytes left over from before, if they
vanish into one. -/
def abandoned : Receiver → List (List Byte)
  | .synced buffer =>
    if (synced buffer).Swallows then [buffer ++ List.replicate (8 - buffer.length) cmdSt] else []
  | _ => []

theorem abandoned_of_not_swallows {r : Receiver} (h : ¬ r.Swallows) : r.abandoned = [] := by
  cases r with
  | synced buffer => exact if_neg h
  | _ => rfl

theorem observe_accepted_startCommands {r : Receiver} (hb : r.Bounded) :
    Trace.observe next accepted r startCommands = r.abandoned := by
  by_cases hsw : r.Swallows
  · cases r with
    | synced buffer =>
      rw [(run_startCommands_swallowed hb hsw).2.2, abandoned, if_pos hsw]
    | _ => exact absurd hsw id
  · rw [(run_startCommands hb hsw).2, abandoned_of_not_swallows hsw]

/-- A start command is never refused. -/
theorem updateNack_not_mem_responses (r : Receiver) : .updateNack ∉ r.responses cmdSt := by
  have hcode : cmdSt = Command.syncStart.code := rfl
  cases r with
  | synced buffer =>
    simp only [responses, hcode, if_true]
    split
    · exact List.not_mem_nil
    · split <;> decide
  | _ => decide

theorem updateNack_not_mem_startCommands (r : Receiver) (n : Nat) :
    .updateNack ∉ Trace.observe next responses r (List.replicate n cmdSt) := by
  induction n generalizing r with
  | zero => exact List.not_mem_nil
  | succ n ih =>
    rw [List.replicate_succ, Trace.observe_cons, List.mem_append, not_or]
    exact ⟨r.updateNack_not_mem_responses, ih _⟩

end Receiver

namespace Session

section WritesTo
variable {pc : HostPc} {d : Receiver} {bs : List Byte} {ps : List (Vector Byte 8)}

/-- Only start commands can add to what the loop writes. -/
theorem WritesTo.observe_accepted (h : WritesTo pc d bs ps) (hb : d.Bounded) :
    Trace.observe Receiver.next Receiver.accepted d bs = ps.map Vector.toList ∨
      pc = .attempt ∧ ps = [] ∧
        Trace.observe Receiver.next Receiver.accepted d bs = d.abandoned := by
  cases h with
  | nothing => exact .inl rfl
  | start => exact .inr ⟨rfl, rfl, Receiver.observe_accepted_startCommands hb⟩
  | first => exact .inl rfl
  | second => exact .inl rfl
  | packets => exact .inl (run_frames_whole ps).2.2

theorem WritesTo.updateNack_not_mem (h : WritesTo pc d bs ps) :
    .updateNack ∉ Trace.observe Receiver.next Receiver.responses d bs := by
  cases h with
  | nothing => exact List.not_mem_nil
  | start => exact d.updateNack_not_mem_startCommands 9
  | first => decide
  | second => decide
  | packets =>
    rw [(run_frames_whole ps).2.1, List.mem_replicate]
    simp

end WritesTo

/-! ## The stream -/

/-- An event that ends at the head of the attempt loop writes nothing; it was there before, or
the attempt has just failed. -/
theorem attempt_of_next (args : Args) {s : Session} (h : s.sync.Inv) {e : SessionEvent}
    (hnext : (s.next args e).sync.pc = .attempt) :
    s.writes args e = [] ∧ (s.sync.pc = .attempt ∨ ¬ s.sync.drained.Swallows) := by
  have hag := h.agrees
  cases e with
  | loop e =>
    by_cases hpc : s.sync.pc = .synced
    · simp [next, hpc, SyncSystem.write] at hnext
    · simp only [next, hpc, if_false] at hnext
      exact ⟨by simp [writes, written, hpc, frames], .inl hnext⟩
  | sync e =>
    obtain ⟨hwrites, hpc⟩ := SyncSystem.pc_eq_attempt hnext
    refine ⟨hwrites, ?_⟩
    rcases hpc with hpc | hpc | hpc | ⟨data, hpc, hmem⟩
    · exact .inl hpc
    all_goals rw [hpc] at hag; right
    · rw [show s.sync.drained = .sync1 from hag]
      exact id
    · rw [show s.sync.drained = .synced [] from hag]
      exact SyncSystem.not_swallows_synced_nil
    · rcases hag with hd | hsw
      · rw [hd]
        exact id
      · exact hsw.1

/-- What has been accepted and will be accepted of the bytes under way is what the loop
has written, possibly after one packet made of bytes left over from before (`before` is the
receiver at the start). -/
structure Carries (before : Receiver) (s : Session) (written accepted : List (Vector Byte 8)) :
    Prop where
  inv : s.sync.Inv
  conserved : ∃ left, (left = [] ∨ left = before.abandoned) ∧
    Link.owed Receiver.next Receiver.accepted (s.line (accepted.map Vector.toList)) =
      left ++ written.map Vector.toList
  attempt : s.sync.pc = .attempt → ¬ s.sync.drained.Swallows ∨
    (s.sync.drained = before ∧
      Link.owed Receiver.next Receiver.accepted (s.line (accepted.map Vector.toList)) = [])
  written_nil : s.sync.pc ≠ .synced → written = []

theorem next_carries (args : Args) {before : Receiver} {s : Session}
    {written accepted : List (Vector Byte 8)} (h : Carries before s written accepted)
    (e : SessionEvent) :
    Carries before (s.next args e) (written ++ s.written args e) (accepted ++ s.accepted e) := by
  have hw := h.inv.wellFormed
  have hwrites := writesTo_next args h.inv e
  have hbounded := SyncSystem.drained_bounded hw
  have howed := owed_next Receiver.accepted args hw e (accepted.map Vector.toList)
  rw [← served_accepted hw, ← List.map_append] at howed
  obtain ⟨left, hleft, hconserved⟩ := h.conserved
  refine ⟨next_inv args s e h.inv, ?_, ?_, ?_⟩
  · rw [howed]
    rcases hwrites.observe_accepted hbounded with hobs | ⟨hpc, hps, hobs⟩
    · exact ⟨left, hleft, by rw [hconserved, hobs, List.map_append, List.append_assoc]⟩
    · rw [hps, List.append_nil, hobs]
      rcases h.attempt hpc with hsw | ⟨hbefore, hnil⟩
      · rw [Receiver.abandoned_of_not_swallows hsw, List.append_nil]
        exact ⟨left, hleft, hconserved⟩
      · rw [hnil, hbefore, h.written_nil (by simp [hpc])]
        exact ⟨before.abandoned, .inr rfl, by simp⟩
  · intro hpc
    obtain ⟨hnone, hattempt⟩ := attempt_of_next args h.inv hpc
    rw [drained_next args hw, howed, hnone, Trace.run_nil, Trace.observe_nil, List.append_nil]
    rcases hattempt with hattempt | hsw
    · exact h.attempt hattempt
    · exact .inl hsw
  · intro hpc
    cases e with
    | sync e =>
      have hsynced : s.sync.pc ≠ .synced := fun h => hpc (SyncSystem.pc_next_of_synced h e)
      simp [h.written_nil hsynced, Session.written]
    | loop e =>
      by_cases hsynced : s.sync.pc = .synced
      · simp [next, hsynced, SyncSystem.write] at hpc
      · simp [h.written_nil hsynced, Session.written, hsynced]

theorem initial_carries {firmware : Joystick} (h : firmware.WellFormed) (attempts : Nat)
    (pad : Pad) : Carries firmware.receiver (initial firmware attempts pad) [] [] where
  inv := SyncSystem.initial_inv h attempts
  conserved := ⟨[], .inl rfl, rfl⟩
  attempt _ := .inr ⟨rfl, rfl⟩
  written_nil _ := rfl

/-- No response refuses a packet, made or still to come. -/
theorem next_updateNack (args : Args) {s : Session} (h : s.sync.Inv) {shown : List Response}
    (hshown : .updateNack ∉ Link.owed Receiver.next Receiver.responses (s.line shown))
    (e : SessionEvent) :
    .updateNack ∉ Link.owed Receiver.next Receiver.responses
      ((s.next args e).line (shown ++ s.responses e)) := by
  rw [served_responses h.wellFormed, owed_next Receiver.responses args h.wellFormed,
    List.mem_append, not_or]
  exact ⟨hshown, (writesTo_next args h e).updateNack_not_mem⟩

/-! ## The firmware in a session -/

/-- What an event is on the serial side of the firmware. -/
def serial (s : Session) : SessionEvent → List SerialEvent
  | .sync e => s.sync.serial e
  | .loop _ => []

theorem next_firmware (args : Args) (s : Session) (e : SessionEvent) :
    (s.next args e).sync.firmware = Trace.run Joystick.next s.sync.firmware (s.serial e) := by
  cases e with
  | sync e => exact s.sync.next_firmware e
  | loop e => by_cases hpc : s.sync.pc = .synced <;> simp [next, hpc, serial, SyncSystem.write]

theorem run_firmware (args : Args) (s : Session) (es : List SessionEvent) :
    (Trace.run (next args) s es).sync.firmware =
      Trace.run Joystick.next s.sync.firmware (Trace.observe (next args) serial s es) :=
  @Trace.run_component _ _ _ _ (next args) Joystick.next (fun s => s.sync.firmware) serial
    (next_firmware args) s es

theorem serial_accepted (s : Session) (e : SessionEvent) :
    Trace.observe Joystick.next Joystick.acceptedBy s.sync.firmware (s.serial e) =
      s.accepted e := by
  cases e with
  | loop e => rfl
  | sync e =>
    cases e with
    | receive =>
      cases hto : s.sync.toFirmware <;>
        simp [serial, SyncSystem.serial, hto, receive, Session.accepted, handled,
          Joystick.acceptedBy]
    | _ => rfl

/-- The controller report is made of the last packet accepted. -/
theorem run_controllerReport (args : Args) (s : Session) (es : List SessionEvent) :
    (Trace.run (next args) s es).sync.firmware.controllerReport =
      ((Trace.observe (next args) accepted s es).getLast?.map populateReportFromSerial).getD
        s.sync.firmware.controllerReport := by
  rw [run_firmware, Joystick.run_controllerReport]
  have haccepted := @Trace.observe_component _ _ _ _ _ (next args) Joystick.next
    (fun s => s.sync.firmware) serial accepted _ (next_firmware args) serial_accepted s es
  rw [haccepted]

theorem run_carries (args : Args) {firmware : Joystick} (h : firmware.WellFormed)
    (attempts : Nat) (pad : Pad) (es : List SessionEvent) :
    let s₀ := initial firmware attempts pad
    Carries firmware.receiver (Trace.run (next args) s₀ es)
      (Trace.observe (next args) (written args) s₀ es)
      (Trace.observe (next args) accepted s₀ es) :=
  Trace.run_observe_invariant₂ (J := Carries firmware.receiver)
    (fun _ _ _ e h => next_carries args h e) (initial_carries h attempts pad) es

/-- The report that the callback selects in an event.  A packet that answers no request shows it;
a reply that is pending shows the one selected when its request was handled. -/
def selects (s : Session) : SessionEvent → List StandardReport
  | .sync .beforeSend => [s.sync.firmware.callbackBeforeSend.selected]
  | _ => []

end Session

/-- **A session delivers what the loop writes.**  Start from any reachable firmware, and let
attempts, main loop, line and firmware interleave in any way.  At every moment the
packets accepted so far are the first ones of those the loop has written so far, each once
and in order, the rest being under way; only a packet made of bytes left over from before by
the start commands of the first attempt may come in front.  Nothing is written before an
attempt has returned `True`, no packet is refused, and the report that the callback selects is
made of the last packet accepted, or idle. -/
theorem session_stream (args : Args) {firmware : Joystick}
    (hf : Trace.Reachable Joystick.next .boot firmware) (attempts : Nat) (pad : Pad)
    (es : List SessionEvent) :
    let s₀ := Session.initial firmware attempts pad
    let s := Trace.run (Session.next args) s₀ es
    let written := Trace.observe (Session.next args) (Session.written args) s₀ es
    let accepted := Trace.observe (Session.next args) Session.accepted s₀ es
    (∃ left coming, (left = [] ∨ left = firmware.receiver.abandoned) ∧
        accepted.map Vector.toList ++ coming = left ++ written.map Vector.toList ∧
        (s.sync.toFirmware = [] → coming = [])) ∧
      (s.sync.pc ≠ .synced → written = []) ∧
      .updateNack ∉ Trace.observe (Session.next args) Session.responses s₀ es ∧
      ∀ report ∈ s.selects (.sync .beforeSend),
        report = (accepted.getLast?.map populateReportFromSerial).getD firmware.controllerReport ∨
          ∃ home, report = idleReportWith home := by
  intro s₀ s written accepted
  have hw := Joystick.wellFormed_of_reachable hf
  have hcarries : Session.Carries firmware.receiver s written accepted :=
    Session.run_carries args hw attempts pad es
  have hnack : s.sync.Inv ∧ .updateNack ∉ Link.owed Receiver.next Receiver.responses
      (s.line (Trace.observe (Session.next args) Session.responses s₀ es)) :=
    Trace.run_observe_invariant
      (J := fun s shown => s.sync.Inv ∧
        .updateNack ∉ Link.owed Receiver.next Receiver.responses (s.line shown))
      (fun s _ e h => ⟨Session.next_inv args s e h.1, Session.next_updateNack args h.1 h.2 e⟩)
      ⟨(Session.initial_carries hw attempts pad).inv, List.not_mem_nil⟩ es
  refine ⟨?_, hcarries.written_nil, fun hmem => hnack.2 (List.mem_append_left _ hmem), ?_⟩
  · obtain ⟨left, hleft, hconserved⟩ := hcarries.conserved
    refine ⟨left, _, hleft, hconserved, fun hnil => ?_⟩
    simp [Session.line, hnil]
  · intro report hreport
    have hidle : s.sync.firmware.IdleInv := by
      rw [show s.sync.firmware = _ from Session.run_firmware args s₀ es]
      exact Trace.run_invariant Joystick.next_idleInv
        (hf.invariant Joystick.boot_idleInv Joystick.next_idleInv) _
    have hcontroller := Session.run_controllerReport args s₀ es
    obtain rfl : report = _ := List.mem_singleton.mp hreport
    exact hidle.callbackBeforeSend_selected.imp_left fun hselected => hselected.trans hcontroller

/-- A handshake with a firmware that has just booted, and one packet. -/
theorem session_stream_one_packet :
    let args : Args := ⟨false, some 0, .xinput, none, false, .neutral, .neutral, 1 / 4, 5, none⟩
    let i : Iteration := ⟨1, true, ⟨true, fun _ => true, false, 0, fun _ => false, fun _ => false,
      fun _ => false⟩, true, false, 0, .home⟩
    let handshake : List SyncEvent := [.start 0] ++ List.replicate 9 .receive ++
      [.read, .timeout, .receive] ++ List.replicate 9 .read ++ [.receive, .read]
    let es : List SessionEvent := handshake.map .sync ++ [.loop (.iteration i)] ++
      List.replicate 9 (.sync .receive)
    let s₀ := Session.initial .boot 1 (.padX 0)
    (Trace.run (Session.next args) s₀ es).sync.pc = .synced ∧
      Trace.observe (Session.next args) (Session.written args) s₀ es = [Packet.home.pack] ∧
      (Trace.observe (Session.next args) Session.accepted s₀ es).map Vector.toList =
        [Packet.home.pack.toList] := by
  intro args i handshake es s₀
  have hpc : (Trace.run (Session.next args) s₀ es).sync.pc = .synced := by decide +kernel
  have hnil : (Trace.run (Session.next args) s₀ es).sync.toFirmware = [] := by decide +kernel
  have hwritten : Trace.observe (Session.next args) (Session.written args) s₀ es =
      [Packet.home.pack] := by decide +kernel
  have hboot : Trace.Reachable Joystick.next .boot .boot := ⟨[], rfl⟩
  clear_value es
  obtain ⟨⟨left, coming, hleft, hall, hcoming⟩, -⟩ := session_stream args hboot 1 (.padX 0) es
  have hleft : left = [] := hleft.elim id id
  rw [hcoming hnil, hleft, List.append_nil, hwritten] at hall
  exact ⟨hpc, hwritten, hall⟩

end XInputSwitch
