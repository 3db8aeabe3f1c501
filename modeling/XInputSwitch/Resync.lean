import XInputSwitch.Receiver

/-! # Nine start commands bring the link back

The bridge opens the handshake with nine start commands, enough to complete any
half-received packet and then be heard as a command.  They are not heard when the
packet they complete happens to have the start command as its check byte
(`Receiver.Swallows`): the packet is then accepted and the rest of the nine is
collected as the beginning of another.  A second run of nine is always heard,
because eight start commands do not check to a start command.
-/
namespace XInputSwitch

/-- What `UART.sync` writes first. -/
def startCommands : List Byte := List.replicate 9 cmdSt

namespace Receiver

/-- The buffered bytes, completed by start commands, check to a start command. -/
def Swallows : Receiver → Prop
  | .synced buffer =>
    1 ≤ buffer.length ∧
      check (buffer ++ List.replicate (8 - buffer.length) cmdSt) = cmdSt
  | _ => False

instance : DecidablePred Swallows
  | .synced buffer => inferInstanceAs (Decidable (1 ≤ buffer.length ∧
      check (buffer ++ List.replicate (8 - buffer.length) cmdSt) = cmdSt))
  | .syncStart | .sync1 | .outOfSync => inferInstanceAs (Decidable False)

/-- Once heard, start commands keep the handshake at its start. -/
theorem run_syncStart (n : Nat) :
    Trace.run next .syncStart (List.replicate n cmdSt) = .syncStart ∧
      Trace.observe next accepted .syncStart (List.replicate n cmdSt) = [] := by
  induction n with
  | zero => exact ⟨rfl, rfl⟩
  | succ n ih => exact ih

/-- Outside `SYNCED` the first start command is heard. -/
theorem run_startCommands_handshake {r : Receiver} (hr : ∀ buffer, r ≠ .synced buffer) :
    Trace.run next r startCommands = .syncStart ∧
      Trace.observe next accepted r startCommands = [] := by
  have hfirst : r.next cmdSt = .syncStart ∧ r.accepted cmdSt = [] := by
    cases r with
    | synced buffer => exact absurd rfl (hr buffer)
    | _ => exact ⟨rfl, rfl⟩
  rw [startCommands, List.replicate_succ, Trace.run_cons, Trace.observe_cons, hfirst.1, hfirst.2]
  exact run_syncStart 8

/-- The nine commands around a partial packet: those that complete it, the one
judged as its check byte, and the rest. -/
theorem startCommands_split {k : Nat} (hk : k ≤ 8) :
    startCommands = List.replicate (8 - k) cmdSt ++ cmdSt :: List.replicate k cmdSt := by
  rw [← List.replicate_succ, List.replicate_append_replicate, startCommands,
    show 8 - k + (k + 1) = 9 by omega]

theorem run_startCommands_synced (buffer : List Byte) (hk : buffer.length ≤ 8) :
    let packet := buffer ++ List.replicate (8 - buffer.length) cmdSt
    if check packet = cmdSt then
      Trace.run next (.synced buffer) startCommands =
          .synced (List.replicate buffer.length cmdSt) ∧
        Trace.observe next responses (.synced buffer) startCommands = [.updateAck] ∧
        Trace.observe next accepted (.synced buffer) startCommands = [packet]
    else
      Trace.run next (.synced buffer) startCommands = .syncStart ∧
        Trace.observe next accepted (.synced buffer) startCommands = [] := by
  intro packet
  have hlen : packet.length = 8 := by simp [packet]; omega
  obtain ⟨hr, hs, ha⟩ := run_collect buffer (List.replicate (8 - buffer.length) cmdSt)
    (by simp; omega)
  change _ = synced packet at hr
  rw [startCommands_split hk, Trace.run_append, Trace.observe_append, Trace.observe_append,
    hr, hs, ha, Trace.run_cons, Trace.observe_cons, Trace.observe_cons, next_full hlen,
    responses_full hlen, accepted_full hlen]
  by_cases hck : check packet = cmdSt
  · obtain ⟨hr', hs', ha'⟩ := run_collect [] (List.replicate buffer.length cmdSt)
      (by simpa using hk)
    rw [if_pos hck, if_pos hck, if_pos hck, if_pos hck, hr', hs', ha']
    exact ⟨rfl, rfl, rfl⟩
  · have hheard : cmdSt = Command.syncStart.code := rfl
    rw [if_neg hck, if_neg hck, if_pos hheard, if_neg hck, (run_syncStart _).1, (run_syncStart _).2]
    exact ⟨rfl, rfl⟩

/-- Eight start commands do not check to a start command. -/
theorem check_startCommands : check (List.replicate 8 cmdSt) ≠ cmdSt := by
  decide +kernel

/-- **Nine start commands are heard**, unless they are swallowed. -/
theorem run_startCommands {r : Receiver} (hb : r.Bounded) (hsw : ¬ r.Swallows) :
    Trace.run next r startCommands = .syncStart ∧
      Trace.observe next accepted r startCommands = [] := by
  cases r with
  | synced buffer =>
    have h := run_startCommands_synced buffer hb
    by_cases hck : check (buffer ++ List.replicate (8 - buffer.length) cmdSt) = cmdSt
    · have hempty : buffer = [] := by
        apply List.length_eq_zero_iff.mp
        apply Classical.byContradiction
        exact fun hne => hsw ⟨by omega, hck⟩
      subst hempty
      exact absurd hck check_startCommands
    · simpa only [if_neg hck] using h
  | _ => exact run_startCommands_handshake (by simp)

/-- When they are swallowed, a packet is accepted, none of them is answered as a
command, and as many as there were bytes buffered are left over. -/
theorem run_startCommands_swallowed {buffer : List Byte} (hb : buffer.length ≤ 8)
    (hsw : (synced buffer).Swallows) :
    Trace.run next (.synced buffer) startCommands =
        .synced (List.replicate buffer.length cmdSt) ∧
      Trace.observe next responses (.synced buffer) startCommands = [.updateAck] ∧
      Trace.observe next accepted (.synced buffer) startCommands =
        [buffer ++ List.replicate (8 - buffer.length) cmdSt] := by
  have h := run_startCommands_synced buffer hb
  simpa only [if_pos hsw.2] using h

/-- What nine swallowed start commands leave behind swallows none. -/
theorem not_swallows_replicate (k : Nat) (hk : k ≤ 8) :
    ¬ (synced (List.replicate k cmdSt)).Swallows := by
  rintro ⟨-, hck⟩
  rw [List.length_replicate, List.replicate_append_replicate, show k + (8 - k) = 8 by omega] at hck
  exact check_startCommands hck

/-- **Eighteen start commands are always heard.** -/
theorem run_startCommands_twice {r : Receiver} (hb : r.Bounded) :
    Trace.run next r (startCommands ++ startCommands) = .syncStart := by
  rw [Trace.run_append]
  by_cases hsw : r.Swallows
  · cases r with
    | synced buffer =>
      rw [(run_startCommands_swallowed hb hsw).1]
      exact (run_startCommands (r := .synced (List.replicate buffer.length cmdSt))
        (by simpa [Bounded] using hb) (not_swallows_replicate _ hb)).1
    | _ => exact absurd hsw id
  · rw [(run_startCommands hb hsw).1]
    exact (run_syncStart 9).1

end Receiver

/-! ## The firmware -/

/-- **Re-synchronisation from any state.**  Nine start commands end at the start of
the handshake with an empty buffer and no packet accepted, except when they are
swallowed by a partial packet of `k ≥ 1` bytes; that packet is then accepted, `k`
start commands are buffered, and none is answered.  In both cases nine more are
heard, and the two remaining commands of the handshake complete it. -/
theorem resynchronisation {s : Joystick} (hs : Trace.Reachable Joystick.next Joystick.boot s) :
    let k := s.serialInput.receivedBytes
    let packet := s.buffered ++ List.replicate (8 - k) 0xFF
    let s₁ := Trace.run Joystick.next s (receive (List.replicate 9 0xFF))
    let s₂ := Trace.run Joystick.next s₁ (receive (List.replicate 9 0xFF))
    let s₃ := Trace.run Joystick.next s₂ (receive [0x33, 0xCC])
    let accepted := Trace.observe Joystick.next Joystick.acceptedBy s
      (receive (List.replicate 9 0xFF))
    let sent := Trace.observe Joystick.next Joystick.responses s (receive (List.replicate 9 0xFF))
    (if s.state = .synced ∧ 1 ≤ k ∧ check packet = 0xFF then
        accepted.map Vector.toList = [packet] ∧ s₁.state = .synced ∧
          s₁.serialInput.receivedBytes = k ∧ s₁.buffered = List.replicate k 0xFF ∧
          Response.syncStart ∉ sent
      else
        accepted = [] ∧ s₁.state = .syncStart ∧ s₁.serialInput.receivedBytes = 0 ∧
          s₁.serialInput.crc8Ccitt = 0) ∧
      s₂.state = .syncStart ∧ s₃.state = .synced ∧ s₃.serialInput.receivedBytes = 0 ∧
      s₃.serialInput.crc8Ccitt = 0 := by
  intro k packet s₁ s₂ s₃ accepted sent
  have hw := Joystick.wellFormed_of_reachable hs
  have hw₁ : s₁.WellFormed := Joystick.run_wellFormed hw _
  have hw₂ : s₂.WellFormed := Joystick.run_wellFormed hw₁ _
  have hw₃ : s₃.WellFormed := Joystick.run_wellFormed hw₂ _
  have hr₁ : s₁.receiver = Trace.run Receiver.next s.receiver startCommands :=
    Joystick.receive_receiver hw startCommands
  have hacc : accepted.map Vector.toList =
      Trace.observe Receiver.next Receiver.accepted s.receiver startCommands :=
    Joystick.receive_accepted hw startCommands
  have hsent : sent = Trace.observe Receiver.next Receiver.responses s.receiver startCommands :=
    Joystick.receive_responses hw startCommands
  have hr₂ : s₂.receiver = .syncStart := by
    rw [← Receiver.run_startCommands_twice hw.bounded, Trace.run_append, ← hr₁]
    exact Joystick.receive_receiver hw₁ startCommands
  have hr₃ : s₃.receiver = .synced [] := by
    have h : s₃.receiver = _ := Joystick.receive_receiver hw₂ [cmd1, cmd2]
    rw [h, hr₂]
    rfl
  obtain ⟨hst₂, -, -⟩ := hw₂.syncStart_of hr₂
  obtain ⟨hst₃, hn₃, -, hc₃⟩ := (hw₃.synced_iff []).mp hr₃
  refine ⟨?_, hst₂, hst₃, hn₃, hc₃⟩
  by_cases hsw : s.state = .synced ∧ 1 ≤ k ∧ check packet = 0xFF
  · obtain ⟨hst, hk, hck⟩ := hsw
    have hrec : s.receiver = .synced s.buffered := by simp only [Joystick.receiver, hst]
    have hlen : s.buffered.length = k := hw.buffered_length
    have hle : s.buffered.length ≤ 8 := by rw [hlen]; exact hw.received_le
    obtain ⟨hrun, hresp, hacc'⟩ := Receiver.run_startCommands_swallowed hle
      ⟨by rw [hlen]; exact hk, by rw [hlen]; exact hck⟩
    rw [if_pos ⟨hst, hk, hck⟩]
    rw [hrec, hrun, hlen] at hr₁
    rw [hrec, hacc', hlen] at hacc
    rw [hrec, hresp] at hsent
    obtain ⟨hst₁, hn₁, hb₁, -⟩ := (hw₁.synced_iff _).mp hr₁
    exact ⟨hacc, hst₁, by simpa using hn₁, hb₁, by rw [hsent]; decide⟩
  · rw [if_neg hsw]
    have hns : ¬ s.receiver.Swallows := by
      intro h
      apply hsw
      cases hs : s.state with
      | synced =>
        simp only [Joystick.receiver, hs, Receiver.Swallows, hw.buffered_length] at h
        exact ⟨rfl, h.1, h.2⟩
      | _ => simp [Joystick.receiver, hs, Receiver.Swallows] at h
    obtain ⟨hrun, hacc'⟩ := Receiver.run_startCommands hw.bounded hns
    rw [hacc', List.map_eq_nil_iff] at hacc
    obtain ⟨hst₁, hn₁, hc₁⟩ := hw₁.syncStart_of (hr₁.trans hrun)
    exact ⟨hacc, hst₁, hn₁, hc₁⟩

/-- A single buffered byte `0x84` makes the nine start commands vanish into a packet. -/
theorem resynchronisation_swallowed :
    let s := Trace.run Joystick.next .boot (receive [0xFF, 0x33, 0xCC, 0x84])
    (Trace.run Joystick.next s (receive (List.replicate 9 0xFF))).state = .synced ∧
      (Trace.run Joystick.next s (receive (List.replicate 9 0xFF))).serialInput.receivedBytes =
        s.serialInput.receivedBytes ∧
      (Trace.run Joystick.next (Trace.run Joystick.next s (receive (List.replicate 9 0xFF)))
        (receive (List.replicate 9 0xFF))).state = .syncStart := by
  intro s
  have hs : Trace.Reachable Joystick.next .boot s := ⟨_, rfl⟩
  have hsw : s.state = .synced ∧ 1 ≤ s.serialInput.receivedBytes ∧
      check (s.buffered ++ List.replicate (8 - s.serialInput.receivedBytes) 0xFF) = 0xFF := by
    decide +kernel
  -- the rest holds of any such state, and is not to be found by running this one
  clear_value s
  obtain ⟨h, hst₂, -⟩ := resynchronisation hs
  rw [if_pos hsw] at h
  obtain ⟨-, hst, hn, -⟩ := h
  exact ⟨hst, hn, hst₂⟩

end XInputSwitch
