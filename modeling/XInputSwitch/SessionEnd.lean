import XInputSwitch.Session

/-! # The end of a session

When the main loop has been left, by the exit chord, an interrupt or a missing controller,
nothing more is written, but the firmware goes on selecting reports.  Once the line has run
empty, what it will ever select is fixed (`session_end`): the last packet fifteen times at most,
then idle reports, and among them HOME for the sends numbered 101 to 125.

The exit chord writes a pulse of HOME packets and a neutral one.  The failsafe knows nothing of
it, and presses HOME again (`exit_chord_end`).
-/
namespace XInputSwitch

/-- What the `n`th synchronised send after a packet selects, `report` being made of it. -/
def timeline (report : StandardReport) (n : Nat) : StandardReport :=
  if n ≤ 15 then report else idleReportWith (decide (101 ≤ n ∧ n ≤ 125))

/-- The report that a send selects. -/
def Joystick.selects (s : Joystick) : SerialEvent → List StandardReport
  | .rx _ => []
  | .beforeSend => [s.callbackBeforeSend.selected]

namespace Watched

theorem selected_callbackBeforeSend {w : Watched} (h : w.TimerInv) (hidle : w.joystick.IdleInv)
    (hst : w.joystick.state = .synced) :
    w.joystick.callbackBeforeSend.selected =
      timeline w.joystick.controllerReport (w.syncedSends + 1) := by
  rcases callbackBeforeSend_shows h hst with ⟨hlt, hsel⟩ | ⟨hge, hsel, hhome⟩
  · rw [timeline, if_pos (by omega), Joystick.selected, hsel]
    obtain ⟨leds, millis, hcb | ⟨home, hcb⟩⟩ := w.joystick.callbackBeforeSend_cases
    · rw [hcb]
    · rw [hcb]
      rfl
  · have hwindow : (101 ≤ w.syncedSends + 1 ∧ w.syncedSends + 1 ≤ 125) ↔
        (100 ≤ w.syncedSends ∧ w.syncedSends < 125) := by omega
    have hnext : w.joystick.callbackBeforeSend.IdleInv :=
      w.joystick.next_idleInv .beforeSend hidle
    rw [timeline, if_neg (by omega), Joystick.selected, hsel, decide_eq_decide.mpr hwindow, ← hhome]
    exact hnext

/-- Synchronised sends, one after the other. -/
theorem selects_sends {w : Watched} (h : w.TimerInv) (hidle : w.joystick.IdleInv)
    (hst : w.joystick.state = .synced) (n : Nat) :
    Trace.observe Joystick.next Joystick.selects w.joystick (List.replicate n .beforeSend) =
      (List.range' (w.syncedSends + 1) n).map (timeline w.joystick.controllerReport) := by
  induction n generalizing w with
  | zero => rfl
  | succ n ih =>
    have hnext : (w.next .beforeSend).joystick.state = .synced ∧
        (w.next .beforeSend).joystick.controllerReport = w.joystick.controllerReport := by
      obtain ⟨leds, millis, hcb | ⟨home, hcb⟩⟩ := w.joystick.callbackBeforeSend_cases
      · simp only [next, Joystick.next, hcb, hst, and_self]
      · simp only [next, Joystick.next, hcb, Joystick.selectIdle, hst, and_self]
    have hrest := ih (next_timerInv w .beforeSend h) (w.joystick.next_idleInv .beforeSend hidle)
      hnext.1
    have hsends : (w.next .beforeSend).syncedSends = w.syncedSends + 1 := if_pos hst
    rw [hnext.2, hsends] at hrest
    rw [List.replicate_succ, Trace.observe_cons, List.range'_succ, List.map_cons, ← hrest,
      Joystick.selects, selected_callbackBeforeSend h hidle hst]
    rfl

end Watched

namespace Session

theorem serial_selects (s : Session) (e : SessionEvent) :
    Trace.observe Joystick.next Joystick.selects s.sync.firmware (s.serial e) = s.selects e := by
  cases e with
  | loop e => rfl
  | sync e =>
    cases e with
    | receive =>
      cases hto : s.sync.toFirmware <;>
        simp [serial, SyncSystem.serial, hto, receive, Session.selects, Joystick.selects]
    | _ => rfl

theorem observe_selects (args : Args) (s : Session) (es : List SessionEvent) :
    Trace.observe (next args) selects s es = Trace.observe Joystick.next Joystick.selects
      s.sync.firmware (Trace.observe (next args) serial s es) :=
  (@Trace.observe_component _ _ _ _ _ (next args) Joystick.next (fun s => s.sync.firmware) serial
    selects _ (next_firmware args) serial_selects s es).symm

/-! ## After the loop -/

/-- The loop has been left, and what it wrote has arrived. -/
structure Over (s : Session) : Prop where
  pc : s.sync.pc = .synced
  status : s.bridge.status ≠ .running
  empty : s.sync.toFirmware = []

theorem step_of_not_running (args : Args) {b : Bridge} (h : b.status ≠ .running) (e : LoopEvent) :
    b.step args e = (b, []) := by
  cases hst : b.status with
  | running => exact absurd hst h
  | ended => simp only [Bridge.step, hst]
  | missingPad => simp only [Bridge.step, hst]

theorem written_of_not_running (args : Args) {s : Session} (h : s.bridge.status ≠ .running)
    (e : SessionEvent) : s.written args e = [] := by
  cases e with
  | sync e => rfl
  | loop e => simp [written, step_of_not_running args h]

theorem next_status (args : Args) {s : Session} (h : s.bridge.status ≠ .running)
    (e : SessionEvent) : (s.next args e).bridge.status = s.bridge.status := by
  cases e with
  | sync e => rfl
  | loop e =>
    by_cases hpc : s.sync.pc = .synced <;>
      simp [next, hpc, Bridge.next, step_of_not_running args h]

theorem run_of_not_running (args : Args) {s : Session} (h : s.bridge.status ≠ .running)
    (es : List SessionEvent) :
    (Trace.run (next args) s es).bridge.status = s.bridge.status ∧
      Trace.observe (next args) (written args) s es = [] := by
  induction es generalizing s with
  | nil => exact ⟨rfl, rfl⟩
  | cons e es ih =>
    have hstatus := next_status args h e
    obtain ⟨hrun, hobs⟩ := ih (by rw [hstatus]; exact h)
    rw [Trace.run_cons, Trace.observe_cons, written_of_not_running args h, hobs]
    exact ⟨hrun.trans hstatus, rfl⟩

/-- The console polls. -/
def isSend : SessionEvent → Bool
  | .sync .beforeSend => true
  | _ => false

theorem Over.next (args : Args) {s : Session} (h : s.Over) (e : SessionEvent) :
    (s.next args e).Over ∧ s.serial e = if isSend e then [.beforeSend] else [] := by
  have hstatus : (s.next args e).bridge.status ≠ .running := by
    rw [next_status args h.status e]
    exact h.status
  cases e with
  | loop e =>
    have hw := written_of_not_running args h.status (.loop e)
    refine ⟨⟨?_, hstatus, ?_⟩, rfl⟩ <;>
      simp [Session.next, h.pc, hw, SyncSystem.write, frames, h.empty]
  | sync e =>
    have hpc : (s.next args (.sync e)).sync.pc = .synced := SyncSystem.pc_next_of_synced h.pc e
    have hempty : (s.next args (.sync e)).sync.toFirmware = [] := by
      cases e with
      | receive => simp [Session.next, SyncSystem.next, h.empty]
      | beforeSend => exact h.empty
      | start _ | read | timeout =>
        refine (s.sync.next_bridge _ rfl).1.trans ?_
        simp [h.empty, SyncSystem.writes, SyncSystem.timeout, h.pc]
    refine ⟨⟨hpc, hstatus, hempty⟩, ?_⟩
    cases e with
    | receive => simp [serial, SyncSystem.serial, h.empty, receive, isSend]
    | _ => rfl

/-- From then on the firmware only sends. -/
theorem Over.serial_run (args : Args) {s : Session} (h : s.Over) (es : List SessionEvent) :
    Trace.observe (Session.next args) serial s es =
      List.replicate (es.countP isSend) .beforeSend := by
  induction es generalizing s with
  | nil => rfl
  | cons e es ih =>
    obtain ⟨hnext, hserial⟩ := h.next args e
    rw [Trace.observe_cons, hserial, ih hnext, List.countP_cons, Nat.add_comm]
    cases isSend e
    · rw [if_neg Bool.false_ne_true, if_neg Bool.false_ne_true, Nat.zero_add, List.nil_append]
    · rw [if_pos rfl, if_pos rfl, Nat.add_comm, List.replicate_succ, List.singleton_append]

/-- What was written last has been accepted last. -/
theorem Carries.getLast?_accepted {before : Receiver} {s : Session}
    {written accepted : List (Vector Byte 8)} (h : Carries before s written accepted)
    (hempty : s.sync.toFirmware = []) {p : Vector Byte 8} (hp : written.getLast? = some p) :
    accepted.getLast? = some p := by
  obtain ⟨left, -, hconserved⟩ := h.conserved
  rw [Link.owed, line, hempty, Trace.observe_nil, List.append_nil] at hconserved
  have hlast := congrArg List.getLast? hconserved
  rw [List.getLast?_map, List.getLast?_append, List.getLast?_map, hp, Option.map_some,
    Option.some_or, Option.map_eq_some_iff] at hlast
  obtain ⟨q, hq, hqp⟩ := hlast
  rw [hq, Vector.toList_inj.mp hqp]

/-- A packet is written only once an attempt has returned `True`. -/
theorem Carries.over {before : Receiver} {s : Session} {written accepted : List (Vector Byte 8)}
    (h : Carries before s written accepted) {p : Vector Byte 8} (hp : written.getLast? = some p)
    (hstatus : s.bridge.status ≠ .running) (hempty : s.sync.toFirmware = []) : s.Over := by
  refine ⟨?_, hstatus, hempty⟩
  by_contra hpc
  rw [h.written_nil hpc] at hp
  cases hp

/-- The firmware at the end of a session, watched since it booted, `es₀` being its events
before the session. -/
def watched (args : Args) (es₀ : List SerialEvent) (s₀ : Session) (es : List SessionEvent) :
    Watched :=
  Trace.run Watched.next .boot (es₀ ++ Trace.observe (next args) serial s₀ es)

/-- What a session that is over shows, `p` being the last packet written. -/
theorem selects_run (args : Args) (es₀ : List SerialEvent) (attempts : Nat) (pad : Pad)
    (es : List SessionEvent) {p : Vector Byte 8} :
    let s₀ := initial (Trace.run Joystick.next .boot es₀) attempts pad
    let s := Trace.run (next args) s₀ es
    s.bridge.status ≠ .running →
    (Trace.observe (next args) (written args) s₀ es).getLast? = some p →
    s.sync.toFirmware = [] →
    ∀ fs, Trace.observe (next args) selects s fs =
      (List.range' ((watched args es₀ s₀ es).syncedSends + 1) (fs.countP isSend)).map
        (timeline (populateReportFromSerial p)) := by
  intro s₀ s hstatus hp hempty fs
  have hcarries := run_carries args (Joystick.wellFormed_of_reachable ⟨es₀, rfl⟩) attempts pad es
  have hover : s.Over := hcarries.over hp hstatus hempty
  -- the receiver is at the start of a packet
  have hagrees : SyncSystem.Agrees s.sync.pc s.sync.drained s.sync.owed := hcarries.inv.agrees
  rw [hover.pc] at hagrees
  have hreceiver : s.sync.firmware.receiver = .synced [] := by
    have hd : s.sync.drained = .synced [] := hagrees
    rwa [SyncSystem.drained, SyncSystem.link, hempty] at hd
  have hstate : s.sync.firmware.state = .synced := by
    unfold Joystick.receiver at hreceiver
    split at hreceiver
    · assumption
    all_goals cases hreceiver
  -- the last packet has been accepted
  have hlast : s.sync.firmware.controllerReport = populateReportFromSerial p := by
    rw [show s.sync.firmware.controllerReport = _ from run_controllerReport args s₀ es,
      hcarries.getLast?_accepted hempty hp]
    rfl
  have hw : (watched args es₀ s₀ es).joystick = s.sync.firmware := by
    rw [watched, Watched.run_joystick, Trace.run_append]
    exact (run_firmware args s₀ es).symm
  have hidle : (watched args es₀ s₀ es).joystick.IdleInv := by
    rw [watched, Watched.run_joystick]
    exact Joystick.idleInv_run _
  have htimer : (watched args es₀ s₀ es).TimerInv := Watched.timerInv_run _
  rw [observe_selects, hover.serial_run, ← hlast, ← hw]
  exact Watched.selects_sends htimer hidle (by rw [hw]; exact hstate) _

/-- The exit chord ends the loop with a neutral packet. -/
theorem next_exit_chord (args : Args) {s : Session} {i : Iteration} (hpc : s.sync.pc = .synced)
    (hconnected : s.bridge.connected i = true) (hfocused : i.focused args = true)
    (hexits : s.bridge.exits args i = true) :
    (s.next args (.loop (.iteration i))).bridge.status = .ended ∧
      s.written args (.loop (.iteration i)) =
        List.replicate i.pulse Packet.home.pack ++ [Packet.neutral.pack] := by
  obtain ⟨hwritten, -⟩ := Bridge.step_active hconnected hfocused
  obtain ⟨pad, last, hpad, hstep⟩ := Bridge.step_connected args hconnected
  refine ⟨?_, ?_⟩
  · have hchord : (given args.exitChordSignalFile && pad.exitChordPressed i) = true := by
      rw [← hexits, Bridge.exits, hpad, Option.any_some]
    simp [Session.next, hpc, Bridge.next, hstep, hfocused, Bridge.iterateActive, hchord]
  · simp [written, hpc, hwritten, hexits, Written.packet]

end Session

/-- **The end of a session.**  After any run in which the loop was left and has written a
packet, once the line is empty, nothing more is written, and every report that the callback
selects from then on is fixed, whatever happens: the `n`th after the last packet shows that
packet for `n ≤ 15`, HOME for `n` from 101 to 125, and nothing pressed otherwise. -/
theorem session_end (args : Args) (es₀ : List SerialEvent) (attempts : Nat) (pad : Pad)
    (es : List SessionEvent) {p : Vector Byte 8} :
    let s₀ := Session.initial (Trace.run Joystick.next .boot es₀) attempts pad
    let s := Trace.run (Session.next args) s₀ es
    let k := (Session.watched args es₀ s₀ es).syncedSends
    s.bridge.status ≠ .running →
    (Trace.observe (Session.next args) (Session.written args) s₀ es).getLast? = some p →
    s.sync.toFirmware = [] →
    ∀ fs, Trace.observe (Session.next args) (Session.written args) s fs = [] ∧
      Trace.observe (Session.next args) Session.selects s fs =
        (List.range' (k + 1) (fs.countP Session.isSend)).map
          (timeline (populateReportFromSerial p)) := by
  intro s₀ s k hstatus hp hempty fs
  exact ⟨(Session.run_of_not_running args hstatus fs).2,
    Session.selects_run args es₀ attempts pad es hstatus hp hempty fs⟩

/-- A session of one packet, left by an interrupt: the sixteenth send is idle. -/
theorem session_end_interrupt :
    let args : Args := ⟨false, some 0, .xinput, none, false, .neutral, .neutral, 1 / 4, 5, none⟩
    let i : Iteration := ⟨1, true, ⟨true, fun _ => true, false, 0, fun _ => false, fun _ => false,
      fun _ => false⟩, true, false, 0, .home⟩
    let handshake : List SyncEvent := [.start 0] ++ List.replicate 9 .receive ++
      [.read, .timeout, .receive] ++ List.replicate 9 .read ++ [.receive, .read]
    let es : List SessionEvent := handshake.map .sync ++ [.loop (.iteration i)] ++
      List.replicate 9 (.sync .receive) ++ [.loop .keyboardInterrupt]
    let s := Trace.run (Session.next args) (Session.initial .boot 1 (.padX 0)) es
    Trace.observe (Session.next args) Session.selects s (List.replicate 16 (.sync .beforeSend)) =
      List.replicate 15 (populateReportFromSerial Packet.home.pack) ++ [idleReportWith false] := by
  intro args i handshake es s
  have hstatus : s.bridge.status ≠ .running := by decide +kernel
  have hempty : s.sync.toFirmware = [] := by decide +kernel
  have hp : (Trace.observe (Session.next args) (Session.written args)
      (Session.initial .boot 1 (.padX 0)) es).getLast? = some Packet.home.pack := by
    decide +kernel
  have hk : (Session.watched args [] (Session.initial .boot 1 (.padX 0)) es).syncedSends = 0 := by
    decide +kernel
  clear_value es
  have hend := (session_end args [] 1 (.padX 0) es hstatus hp hempty
    (List.replicate 16 (.sync .beforeSend))).2
  simp only [Trace.run_nil, hk] at hend
  exact hend.trans rfl

/-- **The exit chord presses HOME twice.**  If an iteration ends the session by the
exit chord, then its HOME packets and a neutral one are the last to be written; once they
have arrived, the reports that the callback selects are neutral up to the hundredth, and press
HOME from the 101st to the 125th. -/
theorem exit_chord_end (args : Args) (es₀ : List SerialEvent) (attempts : Nat) (pad : Pad)
    (es fs : List SessionEvent) (i : Iteration) :
    let s₀ := Session.initial (Trace.run Joystick.next .boot es₀) attempts pad
    let s₁ := Trace.run (Session.next args) s₀ es
    let all := es ++ .loop (.iteration i) :: fs
    let s := Trace.run (Session.next args) s₀ all
    let k := (Session.watched args es₀ s₀ all).syncedSends
    s₁.sync.pc = .synced → s₁.bridge.connected i = true → i.focused args = true →
    s₁.bridge.exits args i = true →
    s.bridge.status = .ended ∧
      Trace.observe (Session.next args) (Session.written args) s₁ (.loop (.iteration i) :: fs) =
        List.replicate i.pulse Packet.home.pack ++ [Packet.neutral.pack] ∧
      (s.sync.toFirmware = [] →
        ∀ gs, Trace.observe (Session.next args) Session.selects s gs =
          (List.range' (k + 1) (gs.countP Session.isSend)).map
            (timeline (populateReportFromSerial Packet.neutral.pack))) := by
  intro s₀ s₁ all s k hpc hconnected hfocused hexits
  obtain ⟨hended, hchord⟩ := Session.next_exit_chord args hpc hconnected hfocused hexits
  have hnot : (s₁.next args (.loop (.iteration i))).bridge.status ≠ .running := by
    rw [hended]
    decide
  obtain ⟨hstatus, hnothing⟩ := Session.run_of_not_running args hnot fs
  have hs : s = Trace.run (Session.next args) (s₁.next args (.loop (.iteration i))) fs :=
    Trace.run_append _ _ _ _
  have hwritten : Trace.observe (Session.next args) (Session.written args) s₁
      (.loop (.iteration i) :: fs) =
        List.replicate i.pulse Packet.home.pack ++ [Packet.neutral.pack] := by
    rw [Trace.observe_cons, hnothing, List.append_nil, hchord]
  rw [← hs, hended] at hstatus
  have hlast : (Trace.observe (Session.next args) (Session.written args) s₀ all).getLast? =
      some Packet.neutral.pack := by
    rw [Trace.observe_append, hwritten]
    simp
  exact ⟨hstatus, hwritten, Session.selects_run args es₀ attempts pad all
    (fun hrun => nomatch hstatus.symm.trans hrun) hlast⟩

/-- A session of one iteration, in which the exit chord is pressed. -/
theorem exit_chord_end_at_once :
    let args : Args :=
      ⟨false, some 0, .xinput, none, false, .neutral, .neutral, 1 / 4, 5, some "signal"⟩
    let i : Iteration := ⟨1, true, ⟨true, fun _ => true, false, 0, fun _ => false, fun _ => false,
      fun _ => false⟩, true, true, 2, .home⟩
    let handshake : List SyncEvent := [.start 0] ++ List.replicate 9 .receive ++
      [.read, .timeout, .receive] ++ List.replicate 9 .read ++ [.receive, .read]
    let s₁ := Trace.run (Session.next args) (Session.initial .boot 1 (.padX 0))
      (handshake.map .sync)
    s₁.sync.pc = .synced ∧ Trace.observe (Session.next args) (Session.written args) s₁
      (.loop (.iteration i) :: List.replicate 27 (.sync .receive)) =
        [Packet.home.pack, Packet.home.pack, Packet.neutral.pack] := by
  intro args i handshake s₁
  have hpc : s₁.sync.pc = .synced := by decide +kernel
  have hconnected : s₁.bridge.connected i = true := by decide +kernel
  have hexits : s₁.bridge.exits args i = true := by decide +kernel
  exact ⟨hpc, (exit_chord_end args [] 1 (.padX 0) (handshake.map .sync) _ i hpc hconnected rfl
    hexits).2.1⟩

end XInputSwitch
