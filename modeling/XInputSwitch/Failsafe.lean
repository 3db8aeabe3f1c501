import Mathlib.Data.List.Perm.Subperm
import XInputSwitch.Receiver

/-! # Losing the connection

The firmware counts the reports it sends without a new packet.  It repeats the last
packet for 120 ms, then sends nothing, presses HOME from 800 ms to one second, and
sends nothing from then on.

A run is watched by two counters that are not part of the firmware (`Watched`): the
sends made while synchronised, and all sends, since the last packet was accepted.
The timer is a function of the first one (`TimerInv`, kept by every event), from which
the whole timeline can be read off (`connection_lost_timeline`).  The second one is the delay
the timeline is documented to measure; the two differ after a send out of sync
(`stale_input`).

With the receive buffer's invariant this gives every variable of the firmware its range
between events (`firmware_variables`).
-/
namespace XInputSwitch

/-- A firmware, with counters of the sends since the last accepted packet. -/
structure Watched where
  joystick : Joystick
  /-- sends made in `SYNCED` since the last accepted packet, or since boot -/
  syncedSends : Nat
  /-- all sends since the last accepted packet, if there was one -/
  sends : Option Nat
deriving DecidableEq

namespace Watched

def boot : Watched := ⟨.boot, 0, none⟩

def next (w : Watched) (e : SerialEvent) : Watched where
  joystick := w.joystick.next e
  syncedSends :=
    match e with
    | .rx b => if (w.joystick.accepted b).isSome then 0 else w.syncedSends
    | .beforeSend => if w.joystick.state = .synced then w.syncedSends + 1 else w.syncedSends
  sends :=
    match e with
    | .rx b => if (w.joystick.accepted b).isSome then some 0 else w.sends
    | .beforeSend => w.sends.map (· + 1)

/-- Watching changes nothing. -/
theorem run_joystick (w : Watched) (es : List SerialEvent) :
    (Trace.run next w es).joystick = Trace.run Joystick.next w.joystick es := by
  induction es generalizing w with
  | nil => rfl
  | cons e es ih => rw [Trace.run_cons, ih, Trace.run_cons]; rfl

/-! ## What an event does to the counters -/

theorem next_rx_accepted {w : Watched} {b : Byte} {p : Vector Byte 8}
    (h : w.joystick.accepted b = some p) :
    (w.next (.rx b)).joystick.millis = 0 ∧ (w.next (.rx b)).syncedSends = 0 ∧
      (w.next (.rx b)).sends = some 0 := by
  simp [next, h, Joystick.next, Joystick.isr_of_accepted h]

theorem next_rx_other {w : Watched} {b : Byte} (h : w.joystick.accepted b = none) :
    (w.next (.rx b)).joystick.millis = w.joystick.millis ∧
      (w.next (.rx b)).syncedSends = w.syncedSends ∧ (w.next (.rx b)).sends = w.sends := by
  obtain ⟨input, state, hisr⟩ := Joystick.isr_of_not_accepted h
  simp [next, h, Joystick.next, hisr]

/-- The timer in terms of the sends made while synchronised. -/
def TimerInv (w : Watched) : Prop := w.joystick.millis = min (8 * w.syncedSends) 1000

theorem boot_timerInv : boot.TimerInv := rfl

/-- **The step of the timer.** -/
theorem next_timerInv (w : Watched) (e : SerialEvent) (h : w.TimerInv) : (w.next e).TimerInv := by
  unfold TimerInv at h ⊢
  cases e with
  | rx b =>
    cases ha : w.joystick.accepted b with
    | some p =>
      obtain ⟨hm, hk, -⟩ := next_rx_accepted ha
      rw [hm, hk]
      rfl
    | none =>
      obtain ⟨hm, hk, -⟩ := next_rx_other ha
      rw [hm, hk, h]
  | beforeSend =>
    by_cases hst : w.joystick.state = .synced
    · simp only [next, Joystick.next, if_pos hst]
      by_cases hm : w.joystick.millis < Joystick.millisUntilPause
      · have hlt : w.joystick.millis < 120 := hm
        rw [Joystick.callbackBeforeSend_fresh hst hm]
        simp only
        omega
      · obtain ⟨leds, hcb⟩ := Joystick.callbackBeforeSend_paused hst (Nat.le_of_not_lt hm)
        rw [hcb]
        simp only
        split <;> omega
    · simp only [next, Joystick.next, if_neg hst]
      rw [Joystick.callbackBeforeSend_unsynced hst]
      exact h

theorem timerInv_run (es : List SerialEvent) : (Trace.run next boot es).TimerInv :=
  Trace.run_invariant next_timerInv boot_timerInv es

end Watched

/-! ## The timeline -/

namespace Joystick

/-- Whether a state sends the idle report with HOME pressed. -/
def sendsHome (s : Joystick) : Bool :=
  s.selectedReport = .idleReport && s.idleReport.buttonHome

/-- For each send made while synchronised, whether it sends HOME. -/
def homeSends (s : Joystick) : SerialEvent → List Bool
  | .rx _ => []
  | .beforeSend => if s.state = .synced then [s.callbackBeforeSend.sendsHome] else []

end Joystick

namespace Watched

/-- **What a send shows**, by the number of synchronised sends before it. -/
theorem callbackBeforeSend_shows {w : Watched} (h : w.TimerInv)
    (hst : w.joystick.state = .synced) :
    let t := w.joystick.callbackBeforeSend
    (w.syncedSends < 15 ∧ t.selectedReport = .controllerReport) ∨
      (15 ≤ w.syncedSends ∧ t.selectedReport = .idleReport ∧
        t.idleReport.buttonHome = decide (100 ≤ w.syncedSends ∧ w.syncedSends < 125)) := by
  intro t
  unfold TimerInv at h
  by_cases hm : w.joystick.millis < Joystick.millisUntilPause
  · have hlt : w.joystick.millis < 120 := hm
    refine .inl ⟨by omega, ?_⟩
    change w.joystick.callbackBeforeSend.selectedReport = _
    rw [Joystick.callbackBeforeSend_fresh hst hm]
  · have hge : 120 ≤ w.joystick.millis := Nat.le_of_not_lt hm
    obtain ⟨leds, hcb⟩ := Joystick.callbackBeforeSend_paused hst (Nat.le_of_not_lt hm)
    have hwindow : (800 ≤ w.joystick.millis ∧ w.joystick.millis < 1000) ↔
        (100 ≤ w.syncedSends ∧ w.syncedSends < 125) := by omega
    refine .inr ⟨by omega, ?_, ?_⟩
    · change w.joystick.callbackBeforeSend.selectedReport = _
      rw [hcb]
      rfl
    · change w.joystick.callbackBeforeSend.idleReport.buttonHome = _
      rw [hcb, ← decide_eq_decide.mpr hwindow]
      rfl

/-- The synchronised sends of a stretch without an accepted packet, in order: HOME is
sent by those numbered 101 to 125. -/
theorem homeSends_run {w : Watched} (h : w.TimerInv) (es : List SerialEvent)
    (hacc : Trace.observe Joystick.next Joystick.acceptedBy w.joystick es = []) :
    ∃ n, Trace.observe Joystick.next Joystick.homeSends w.joystick es =
      (List.range' (w.syncedSends + 1) n).map fun k => decide (101 ≤ k ∧ k ≤ 125) := by
  induction es generalizing w with
  | nil => exact ⟨0, rfl⟩
  | cons e es ih =>
    rw [Trace.observe_cons, List.append_eq_nil_iff] at hacc
    obtain ⟨n, hn⟩ := ih (next_timerInv w e h) hacc.2
    have hn' : Trace.observe Joystick.next Joystick.homeSends (w.joystick.next e) es = _ := hn
    rw [Trace.observe_cons, hn']
    cases e with
    | rx b =>
      have ha : w.joystick.accepted b = none := Option.toList_eq_nil_iff.mp hacc.1
      rw [(next_rx_other ha).2.1]
      exact ⟨n, rfl⟩
    | beforeSend =>
      by_cases hst : w.joystick.state = .synced
      · refine ⟨n + 1, ?_⟩
        rw [List.range'_succ, List.map_cons]
        simp only [Joystick.homeSends, if_pos hst, next, List.singleton_append, List.cons.injEq,
          and_true]
        rcases callbackBeforeSend_shows h hst with ⟨hlt, hsel⟩ | ⟨hge, hsel, hhome⟩
        · simp only [Joystick.sendsHome, hsel]
          rw [decide_eq_false (by omega : ¬ (101 ≤ w.syncedSends + 1 ∧ w.syncedSends + 1 ≤ 125))]
          rfl
        · simp only [Joystick.sendsHome, hsel, hhome, decide_true, Bool.true_and]
          exact decide_eq_decide.mpr (by omega)
      · refine ⟨n, ?_⟩
        simp only [Joystick.homeSends, if_neg hst, next, List.nil_append]

/-- At most 25 numbers of an interval lie in the window. -/
theorem count_window_le (k n : Nat) :
    ((List.range' k n).map fun i => decide (101 ≤ i ∧ i ≤ 125)).count true ≤ 25 := by
  rw [List.count_eq_countP, List.countP_map, List.countP_eq_length_filter]
  have hsub : (List.range' k n).filter ((· == true) ∘ fun i => decide (101 ≤ i ∧ i ≤ 125)) ⊆
      List.range' 101 25 := by
    intro i hi
    simp only [List.mem_filter, Function.comp, beq_true, decide_eq_true_eq] at hi
    simp only [List.mem_range'_1]
    omega
  have hnodup := (List.nodup_range' (s := k) (n := n)).filter
    ((· == true) ∘ fun i => decide (101 ≤ i ∧ i ≤ 125))
  simpa using (List.subperm_of_subset hnodup hsub).length_le

end Watched

/-- **The timeline of a lost connection.**  After any run from boot, let the next send
be number `k` among those made while synchronised since the last accepted packet.
Synchronised, it sends the controller report up to `k = 15`, HOME from 101 to 125, and
an empty report otherwise; out of sync it sends an empty report.  So the sends of any
stretch without an accepted packet show HOME in one block, of at most 25, however
often synchronisation is lost and regained; and the timer stays within a second. -/
theorem connection_lost_timeline (es : List SerialEvent) :
    let w := Trace.run Watched.next Watched.boot es
    let t := w.joystick.callbackBeforeSend
    let k := w.syncedSends + 1
    w.joystick = Trace.run Joystick.next .boot es ∧
      (if w.joystick.state = .synced then
        (t.selectedReport = .controllerReport ↔ k ≤ 15) ∧
          (t.selectedReport = .idleReport ∧ t.idleReport.buttonHome = true ↔
            101 ≤ k ∧ k ≤ 125) ∧
          (t.selectedReport = .idleReport ∧ t.idleReport.buttonHome = false ↔
            15 < k ∧ ¬ (101 ≤ k ∧ k ≤ 125))
      else t.selectedReport = .idleReport ∧ t.idleReport.buttonHome = false) ∧
      w.joystick.millis ≤ 1000 ∧
      ∀ fs, Trace.observe Joystick.next Joystick.acceptedBy w.joystick fs = [] →
        let shown := Trace.observe Joystick.next Joystick.homeSends w.joystick fs
        (∃ n, shown = (List.range' k n).map fun i => decide (101 ≤ i ∧ i ≤ 125)) ∧
          shown.count true ≤ 25 := by
  intro w t k
  have hinv : w.TimerInv := Watched.timerInv_run es
  refine ⟨Watched.run_joystick _ es, ?_, ?_, ?_⟩
  · by_cases hst : w.joystick.state = .synced
    · rw [if_pos hst]
      rcases Watched.callbackBeforeSend_shows hinv hst with ⟨hlt, hsel⟩ | ⟨hge, hsel, hhome⟩
      · have hsel' : t.selectedReport = .controllerReport := hsel
        simp only [hsel', reduceCtorEq, false_and, true_iff, false_iff]
        omega
      · have hsel' : t.selectedReport = .idleReport := hsel
        have hhome' : t.idleReport.buttonHome = _ := hhome
        simp only [hsel', hhome', reduceCtorEq, true_and, false_iff, decide_eq_true_eq,
          decide_eq_false_iff_not]
        omega
    · rw [if_neg hst]
      have ht : t = w.joystick.selectIdle false .notSynced :=
        Joystick.callbackBeforeSend_unsynced hst
      rw [ht]
      exact ⟨rfl, rfl⟩
  · have hm : w.joystick.millis = _ := hinv
    omega
  · intro fs hacc shown
    obtain ⟨n, hn⟩ := Watched.homeSends_run hinv fs hacc
    have hshown : shown = _ := hn
    exact ⟨⟨n, hn⟩, by rw [hshown]; exact Watched.count_window_le k n⟩

/-! ## The variables between events -/

namespace Joystick

/-- The idle report is the one `main` sets up, but for the HOME button. -/
def IdleInv (s : Joystick) : Prop :=
  s.idleReport = { initializeIdleReport with buttonHome := s.idleReport.buttonHome }

theorem IdleInv.selectIdle {s : Joystick} (h : s.IdleInv) (home : Bool) (leds : LedMask) :
    (s.selectIdle home leds).IdleInv := by
  show { s.idleReport with buttonHome := home } = { initializeIdleReport with buttonHome := home }
  rw [h]

theorem next_idleInv (s : Joystick) (e : SerialEvent) (h : s.IdleInv) : (s.next e).IdleInv := by
  cases e with
  | rx b =>
    show (s.isr b).1.IdleInv
    cases ha : s.accepted b with
    | some p =>
      rw [isr_of_accepted ha]
      exact h
    | none =>
      obtain ⟨input, state, hisr⟩ := isr_of_not_accepted ha
      rw [hisr]
      exact h
  | beforeSend =>
    show s.callbackBeforeSend.IdleInv
    obtain ⟨leds, millis, hcb | ⟨home, hcb⟩⟩ := s.callbackBeforeSend_cases
    · rw [hcb]
      exact h
    · rw [hcb]
      exact h.selectIdle home leds

theorem boot_idleInv : boot.IdleInv := rfl

theorem idleInv_run (es : List SerialEvent) : (Trace.run next boot es).IdleInv :=
  Trace.run_invariant next_idleInv boot_idleInv es

end Joystick

/-- The idle report, with HOME pressed or not. -/
def idleReportWith (home : Bool) : StandardReport :=
  { initializeIdleReport with buttonHome := home }

namespace Joystick

/-- A send shows the controller report, or the idle report with or without HOME. -/
theorem IdleInv.callbackBeforeSend_selected {s : Joystick} (h : s.IdleInv) :
    s.callbackBeforeSend.selected = s.controllerReport ∨
      ∃ home, s.callbackBeforeSend.selected = idleReportWith home := by
  obtain ⟨leds, millis, hcb | ⟨home, hcb⟩⟩ := s.callbackBeforeSend_cases
  · left
    rw [hcb]
    rfl
  · refine .inr ⟨home, ?_⟩
    rw [hcb]
    exact h.selectIdle home leds

/-- The buffer is written at the count of received bytes, and only below eight. -/
theorem isr_input (s : Joystick) (b : Byte) :
    (s.isr b).1.serialInput.input = s.serialInput.input ∨
      ∃ h : s.serialInput.receivedBytes < 8,
        (s.isr b).1.serialInput.input =
          s.serialInput.input.set s.serialInput.receivedBytes b h := by
  -- the last test of the handler does not touch the buffer
  have hlast : (s.isr b).1.serialInput = (s.isrDispatch b).1.serialInput := by
    simp only [isr]
    split <;> rfl
  rw [hlast]
  cases hst : s.state with
  | synced =>
    simp only [isrDispatch, hst, isrSynced]
    split
    · rename_i hr
      exact .inr ⟨hr, rfl⟩
    · left
      split
      · split <;> rfl
      · rfl
  | syncStart =>
    simp only [isrDispatch, hst]
    split <;> exact .inl rfl
  | sync1 =>
    simp only [isrDispatch, hst]
    split <;> exact .inl rfl
  | outOfSync => exact .inl (by simp only [isrDispatch, hst])

end Joystick

/-- **The variables of the firmware**, after any bytes and sends since boot.  At most eight
bytes are buffered, so that the next one is stored inside the buffer, and the check is that
of the buffered bytes; outside `SYNCED` both are empty.  The timer is a multiple of eight
within a second, and nothing but HOME changes in the idle report. -/
theorem firmware_variables (es : List SerialEvent) :
    let s := Trace.run Joystick.next .boot es
    let received := s.serialInput.receivedBytes
    received ≤ 8 ∧
      (∀ b, (s.isr b).1.serialInput.input = s.serialInput.input ∨
        ∃ h : received < 8,
          (s.isr b).1.serialInput.input = s.serialInput.input.set received b h) ∧
      s.serialInput.crc8Ccitt = check (s.serialInput.input.toList.take received) ∧
      (s.state ≠ .synced → received = 0 ∧ s.serialInput.crc8Ccitt = 0) ∧
      8 ∣ s.millis ∧ s.millis ≤ 1000 ∧
      (s.selected = s.controllerReport ∨ s.selected = s.idleReport) ∧
      s.idleReport = { initializeIdleReport with buttonHome := s.idleReport.buttonHome } := by
  intro s received
  have hs : s.WellFormed := Joystick.run_wellFormed Joystick.boot_wellFormed es
  have htimer : s.millis = min (8 * (Trace.run Watched.next .boot es).syncedSends) 1000 := by
    rw [← Watched.timerInv_run es, Watched.run_joystick]
    rfl
  refine ⟨hs.received_le, s.isr_input, hs.crc_eq, ?_, ?_, ?_, ?_, Joystick.idleInv_run es⟩
  · intro hst
    have hempty : received = 0 := hs.empty_of_not_synced hst
    refine ⟨hempty, ?_⟩
    have hbuffered : s.buffered = [] := by
      show s.serialInput.input.toList.take received = []
      rw [hempty, List.take_zero]
    rw [hs.crc_eq, hbuffered, check_nil]
  · omega
  · omega
  · rw [Joystick.selected]
    cases s.selectedReport with
    | controllerReport => exact .inl rfl
    | idleReport => exact .inr rfl

/-! ## Stale input -/

namespace Watched

/-- A send that shows the last packet is among the first 15 since it was accepted, in
whatever state those were made. -/
def Fresh (w : Watched) (e : SerialEvent) : Prop :=
  e = .beforeSend → w.joystick.callbackBeforeSend.selectedReport = .controllerReport →
    ∀ m, w.sends = some m → m + 1 ≤ 15

/-- A send out of sync finds the timer past the pause, or no packet to repeat. -/
def Expired (w : Watched) (e : SerialEvent) : Prop :=
  e = .beforeSend →
    w.joystick.state = .synced ∨ w.sends = none ∨ Joystick.millisUntilPause ≤ w.joystick.millis

/-- While the last packet may still be repeated, the two counters agree. -/
structure FreshInv (w : Watched) : Prop where
  timer : w.TimerInv
  agree : ∀ m, w.sends = some m → w.syncedSends < 15 → m = w.syncedSends

theorem boot_freshInv : boot.FreshInv := ⟨boot_timerInv, fun _ h => by cases h⟩

/-- **The step of the counters**: only a send out of sync tells them apart. -/
theorem next_freshInv (w : Watched) (e : SerialEvent) (h : w.FreshInv) (he : w.Expired e) :
    (w.next e).FreshInv := by
  refine ⟨next_timerInv w e h.timer, ?_⟩
  cases e with
  | rx b =>
    cases ha : w.joystick.accepted b with
    | some p =>
      obtain ⟨-, hk, hs⟩ := next_rx_accepted ha
      intro m hm _
      rw [hs] at hm
      rw [hk, ← Option.some.inj hm]
    | none =>
      obtain ⟨-, hk, hs⟩ := next_rx_other ha
      rw [hk, hs]
      exact h.agree
  | beforeSend =>
    intro m hm hlt
    obtain ⟨m₀, hm₀, rfl⟩ := Option.map_eq_some_iff.mp hm
    by_cases hst : w.joystick.state = .synced
    · simp only [next, if_pos hst] at hlt ⊢
      rw [h.agree m₀ hm₀ (by omega)]
    · simp only [next, if_neg hst] at hlt
      rcases he rfl with hst' | hnone | hge
      · exact absurd hst' hst
      · rw [hnone] at hm₀
        cases hm₀
      · have hm : w.joystick.millis = min (8 * w.syncedSends) 1000 := h.timer
        have hge' : 120 ≤ w.joystick.millis := hge
        omega

theorem fresh_of_freshInv (w : Watched) (e : SerialEvent) (h : w.FreshInv) : w.Fresh e := by
  rintro rfl hsel m hm
  by_cases hst : w.joystick.state = .synced
  · rcases callbackBeforeSend_shows h.timer hst with ⟨hlt, -⟩ | ⟨-, hsel', -⟩
    · rw [h.agree m hm hlt]
      exact hlt
    · rw [hsel] at hsel'
      cases hsel'
  · rw [Joystick.callbackBeforeSend_unsynced hst] at hsel
    cases hsel

/-! ### Every other send out of sync can be followed by a stale one -/

/-- The handshake restores synchronisation and nothing else. -/
theorem run_resync {w : Watched} (hst : w.joystick.state ≠ .synced) :
    let w' := Trace.run next w (receive [0xFF, 0x33, 0xCC])
    w'.joystick.state = .synced ∧ w'.joystick.millis = w.joystick.millis ∧ w'.sends = w.sends := by
  obtain ⟨s, k, m⟩ := w
  cases hs : s.state with
  | synced => exact absurd hs hst
  | _ =>
    simp [receive, next, Joystick.next, Joystick.accepted, Joystick.isr, Joystick.isrDispatch, hs,
      Command.code]

/-- Synchronised sends while the last packet is repeated. -/
theorem run_sends {w : Watched} (hst : w.joystick.state = .synced) {m : Nat}
    (hm : w.sends = some m) (n : Nat) (hn : w.joystick.millis + 8 * n ≤ 120) :
    let w' := Trace.run next w (List.replicate n .beforeSend)
    w'.joystick.state = .synced ∧ w'.joystick.millis = w.joystick.millis + 8 * n ∧
      w'.sends = some (m + n) := by
  induction n generalizing w m with
  | zero => exact ⟨hst, rfl, hm⟩
  | succ n ih =>
    have hlt : w.joystick.millis < Joystick.millisUntilPause := by
      change _ < 120
      omega
    have hcb := Joystick.callbackBeforeSend_fresh hst hlt
    have hstep : (w.next .beforeSend).joystick.state = .synced ∧
        (w.next .beforeSend).joystick.millis = w.joystick.millis + 8 ∧
        (w.next .beforeSend).sends = some (m + 1) := by
      simp only [next, Joystick.next, hcb, hm, Option.map_some, and_true]
      exact hst
    obtain ⟨h₁, h₂, h₃⟩ := ih hstep.1 hstep.2.2 (by rw [hstep.2.1]; omega)
    refine ⟨h₁, ?_, ?_⟩
    · change (Trace.run next (w.next .beforeSend) _).joystick.millis = _
      rw [h₂, hstep.2.1]
      omega
    · change (Trace.run next (w.next .beforeSend) _).sends = _
      rw [h₃]
      congr 1
      omega

/-- No send escapes the second counter. -/
def CountInv (w : Watched) : Prop := ∀ m, w.sends = some m → w.syncedSends ≤ m

theorem next_countInv (w : Watched) (e : SerialEvent) (h : w.CountInv) : (w.next e).CountInv := by
  cases e with
  | rx b =>
    cases ha : w.joystick.accepted b with
    | some p =>
      obtain ⟨-, hk, -⟩ := next_rx_accepted ha
      intro m _
      rw [hk]
      exact Nat.zero_le m
    | none =>
      obtain ⟨-, hk, hs⟩ := next_rx_other ha
      unfold CountInv
      rw [hk, hs]
      exact h
  | beforeSend =>
    intro m hm
    obtain ⟨m₀, hm₀, rfl⟩ := Option.map_eq_some_iff.mp hm
    have hle := h m₀ hm₀
    simp only [next]
    split <;> omega

/-- Regain synchronisation, and send until the timer is about to expire: the packet is
still shown, one send later than it should be. -/
theorem exists_stale {w : Watched} (htimer : w.TimerInv) (hcount : w.CountInv)
    (h : ¬ w.Expired .beforeSend) :
    ∃ fs, ¬ Trace.Always next Fresh w (.beforeSend :: fs) := by
  simp only [Expired, true_imp_iff, not_or] at h
  obtain ⟨hst, hsome, hlt⟩ := h
  obtain ⟨m, hm⟩ := Option.ne_none_iff_exists'.mp hsome
  have hlt' : w.joystick.millis < 120 := Nat.lt_of_not_le hlt
  have hmillis : w.joystick.millis = min (8 * w.syncedSends) 1000 := htimer
  have hk := hcount m hm
  have hcb := Joystick.callbackBeforeSend_unsynced hst
  have hst₁ : (w.next .beforeSend).joystick.state ≠ .synced := by
    simp only [next, Joystick.next, hcb]
    exact hst
  obtain ⟨hst₂, hm₂, hs₂⟩ := run_resync hst₁
  have hmillis₁ : (w.next .beforeSend).joystick.millis = w.joystick.millis := by
    simp only [next, Joystick.next, hcb]
    rfl
  have hs₁ : (w.next .beforeSend).sends = some (m + 1) := by simp [next, hm]
  rw [hmillis₁] at hm₂
  rw [hs₁] at hs₂
  obtain ⟨hst₃, hm₃, hs₃⟩ := run_sends hst₂ hs₂ (14 - w.syncedSends) (by rw [hm₂]; omega)
  refine ⟨receive [0xFF, 0x33, 0xCC] ++
    (List.replicate (14 - w.syncedSends) .beforeSend ++ [.beforeSend]), fun hall => ?_⟩
  have hlast := (Trace.always_append.mp (Trace.always_append.mp hall.2).2).2.1
  have hfresh : (Trace.run next (Trace.run next (w.next .beforeSend) (receive [0xFF, 0x33, 0xCC]))
      (List.replicate (14 - w.syncedSends) .beforeSend)).joystick.millis <
        Joystick.millisUntilPause := by
    rw [hm₃, hm₂]
    change _ < 120
    omega
  have hsel := Joystick.callbackBeforeSend_fresh hst₃ hfresh
  have hbound := hlast rfl (by rw [hsel]) _ hs₃
  omega

end Watched

/-- **Stale input.**  In a run whose sends out of sync all find the timer past the
pause, or no packet accepted yet, every send that shows the last packet is among the
first 15 since it was accepted.  After any other send out of sync this can fail: the
timer stood still, and the packet is shown again if synchronisation is regained too late. -/
theorem stale_input (es : List SerialEvent) :
    (Trace.Always Watched.next Watched.Expired .boot es →
      Trace.Always Watched.next Watched.Fresh .boot es) ∧
    (¬ (Trace.run Watched.next .boot es).Expired .beforeSend →
      ∃ fs, ¬ Trace.Always Watched.next Watched.Fresh .boot (es ++ .beforeSend :: fs)) := by
  constructor
  · exact Trace.Always.imp Watched.next_freshInv (fun w e h _ => w.fresh_of_freshInv e h)
      Watched.boot_freshInv
  · intro h
    have hcount : (Trace.run Watched.next .boot es).CountInv :=
      Trace.run_invariant Watched.next_countInv (fun _ hm => by cases hm) es
    obtain ⟨fs, hfs⟩ := Watched.exists_stale (Watched.timerInv_run es) hcount h
    exact ⟨fs, fun hall => hfs (Trace.always_append.mp hall).2⟩

/-- A packet is accepted, synchronisation is lost, 16 reports are sent and
synchronisation is regained: the next report shows the packet, 17 sends after it was
accepted. -/
theorem stale_input_replayed :
    let w := Trace.run Watched.next .boot
      (receive ([0xFF, 0x33, 0xCC] ++ uartWrite Packet.home.pack.toList ++
          List.replicate 8 0x00 ++ [0xFF]) ++
        List.replicate 16 .beforeSend ++ receive [0x33, 0xCC])
    w.sends = some 16 ∧
      w.joystick.controllerReport = populateReportFromSerial Packet.home.pack ∧
      w.joystick.callbackBeforeSend.selectedReport = .controllerReport ∧
      ¬ w.Fresh .beforeSend := by
  intro w
  have hs : w.sends = some 16 := by decide +kernel
  have hrep : w.joystick.controllerReport = populateReportFromSerial Packet.home.pack := by
    decide +kernel
  have hsel : w.joystick.callbackBeforeSend.selectedReport = .controllerReport := by
    decide +kernel
  exact ⟨hs, hrep, hsel, fun h => absurd (h rfl hsel 16 hs) (by omega)⟩

end XInputSwitch
