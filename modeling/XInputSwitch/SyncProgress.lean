import XInputSwitch.SyncProtocol

/-! # The handshake completes

`sync_agreement` says that an attempt that returns `True` can be trusted.  Here is the other
half: when do the attempts come to an end, and with what result?

The bridge is patient if the loop around a read ends only when nothing is under way any more,
which is what the time limits of `UART.sync` are for (`Patient`).  `Move` says once what a
step can do.  Each step that does anything lowers a rank, so runs are finite whatever the
time limits; and what is owed to a patient bridge tells how the attempt will end
(`Hopeful`).  The first attempt may be lost to a packet that swallows the start
commands; the second cannot be.
-/
namespace XInputSwitch

namespace Receiver

/-- At most one response is made to a byte. -/
theorem length_responses_le (r : Receiver) (b : Byte) : (r.responses b).length ≤ 1 := by
  unfold responses restartResponse
  repeat' split
  all_goals simp

/-- A start command that is heard is answered. -/
theorem syncStart_mem_responses {r : Receiver} (h : r.next cmdSt = .syncStart) :
    .syncStart ∈ r.responses cmdSt := by
  cases r with
  | synced buffer =>
    unfold next at h
    unfold responses
    repeat' split at h
    all_goals simp_all
  | _ => decide

theorem syncStart_mem_startCommands {r : Receiver}
    (h : Trace.run next r startCommands = .syncStart) :
    .syncStart ∈ Trace.observe next responses r startCommands := by
  have hsplit : startCommands = List.replicate 8 cmdSt ++ [cmdSt] := rfl
  rw [hsplit, Trace.run_append] at h
  rw [hsplit, Trace.observe_append]
  refine List.mem_append_right _ ?_
  rw [Trace.observe_cons, Trace.observe_nil, List.append_nil]
  exact syncStart_mem_responses h

end Receiver

namespace SyncSystem

/-- The loop around a read ends only when nothing is under way. -/
def Patient (c : SyncSystem) (e : SyncEvent) : Prop :=
  e = .timeout → c.toFirmware = [] ∧ c.toHost = []

/-- An event that does something to the bridge or the line. -/
def effective (c : SyncSystem) : SyncEvent → Bool
  | .start _ => c.pc = .attempt
  | .read => c.reading && !c.toHost.isEmpty
  | .timeout => c.reading
  | .receive => !c.toFirmware.isEmpty
  | .beforeSend => false

/-- **What a step does** to the bridge and to the line. -/
inductive Move (c : SyncSystem) : SyncEvent → HostPc → Nat → Link Receiver Byte Byte → Prop
  | idle (e : SyncEvent) (h : c.effective e = false) : Move c e c.pc c.attemptsLeft c.link
  | receive (h : c.toFirmware ≠ []) :
    Move c .receive c.pc c.attemptsLeft (c.link.serve Receiver.next replyBytes)
  | exhausted (discard : Nat) (hpc : c.pc = .attempt) (hleft : c.attemptsLeft = 0) :
    Move c (.start discard) .failed 0 c.link
  | start (discard n : Nat) (hpc : c.pc = .attempt) (hleft : c.attemptsLeft = n + 1) :
    Move c (.start discard) (.readUntilQuiet []) n ((c.link.discard discard).write startCommands)
  | collect (data : List Byte) (b : Byte) (rest : List Byte) (hpc : c.pc = .readUntilQuiet data)
    (hto : c.toHost = b :: rest) :
    Move c .read (.readUntilQuiet (data ++ [b])) c.attemptsLeft (c.link.discard 1)
  | heard (data : List Byte) (hpc : c.pc = .readUntilQuiet data) (hmem : rspSt ∈ data) :
    Move c .timeout .readExpected1 c.attemptsLeft (c.link.write [cmd1])
  | unheard (data : List Byte) (hpc : c.pc = .readUntilQuiet data) (hmem : rspSt ∉ data) :
    Move c .timeout .attempt c.attemptsLeft c.link
  | first (rest : List Byte) (hpc : c.pc = .readExpected1) (hto : c.toHost = rsp1 :: rest) :
    Move c .read .readExpectedOk c.attemptsLeft ((c.link.discard 1).write [cmd2])
  | second (rest : List Byte) (hpc : c.pc = .readExpectedOk) (hto : c.toHost = rspOk :: rest) :
    Move c .read .synced c.attemptsLeft (c.link.discard 1)
  | ignored1 (b : Byte) (rest : List Byte) (hpc : c.pc = .readExpected1)
    (hto : c.toHost = b :: rest) (hb : b ≠ rsp1) :
    Move c .read .readExpected1 c.attemptsLeft (c.link.discard 1)
  | ignoredOk (b : Byte) (rest : List Byte) (hpc : c.pc = .readExpectedOk)
    (hto : c.toHost = b :: rest) (hb : b ≠ rspOk) :
    Move c .read .readExpectedOk c.attemptsLeft (c.link.discard 1)
  | late (hpc : c.pc = .readExpected1 ∨ c.pc = .readExpectedOk) :
    Move c .timeout .attempt c.attemptsLeft c.link

theorem move_next {c : SyncSystem} (h : c.firmware.WellFormed) (e : SyncEvent) :
    Move c e (c.next e).pc (c.next e).attemptsLeft (c.next e).link := by
  cases e with
  | beforeSend =>
    have hlink : (c.next .beforeSend).link = c.link := by
      simp only [next, link, Joystick.callbackBeforeSend_receiver]
    rw [hlink]
    exact .idle _ rfl
  | receive =>
    rw [link_receive h]
    cases hto : c.toFirmware with
    | nil =>
      have hserve : c.link.serve Receiver.next replyBytes = c.link := by
        simp [link, Link.serve, hto]
      rw [hserve]
      simp only [next, hto]
      exact .idle _ (by simp [effective, hto])
    | cons b rest =>
      simp only [next, hto]
      exact .receive (by simp [hto])
  | start discard =>
    by_cases hpc : c.pc = .attempt
    · cases hleft : c.attemptsLeft with
      | zero =>
        simp only [next, hpc, if_true, start, hleft]
        exact .exhausted discard hpc hleft
      | succ n =>
        simp only [next, hpc, if_true, start, hleft]
        exact .start discard n hpc hleft
    · simp only [next, hpc, if_false]
      exact .idle _ (by simp [effective, hpc])
  | timeout =>
    cases hpc : c.pc with
    | readUntilQuiet data =>
      by_cases hmem : rspSt ∈ data
      · simp only [next, timeout, hpc, hmem, if_true]
        exact .heard data hpc hmem
      · simp only [next, timeout, hpc, hmem, if_false]
        exact .unheard data hpc hmem
    | readExpected1 =>
      simp only [next, timeout, hpc]
      exact .late (.inl hpc)
    | readExpectedOk =>
      simp only [next, timeout, hpc]
      exact .late (.inr hpc)
    | attempt | synced | failed =>
      simp only [next, timeout, hpc]
      exact hpc ▸ .idle _ (by simp [effective, reading, hpc])
  | read =>
    cases hto : c.toHost with
    | nil =>
      simp only [next, hto]
      exact .idle _ (by simp [effective, hto])
    | cons b rest =>
      -- whatever becomes of the bridge, the byte is gone from the line
      have hdiscard : c.link.discard 1 = ⟨c.toFirmware, c.firmware.receiver, rest⟩ := by
        simp [link, Link.discard, hto]
      cases hpc : c.pc with
      | readUntilQuiet data =>
        simp only [next, hto, reading, hpc, if_true, consume]
        have hmove := Move.collect data b rest hpc hto
        rw [hdiscard] at hmove
        exact hmove
      | readExpected1 =>
        simp only [next, hto, reading, hpc, if_true, consume]
        by_cases hb : b = rsp1
        · rw [if_pos hb]
          have hmove := Move.first rest hpc (hb ▸ hto)
          rw [hdiscard] at hmove
          exact hmove
        · rw [if_neg hb]
          have hmove := Move.ignored1 b rest hpc hto hb
          rw [hdiscard] at hmove
          exact hpc ▸ hmove
      | readExpectedOk =>
        simp only [next, hto, reading, hpc, if_true, consume]
        by_cases hb : b = rspOk
        · rw [if_pos hb]
          have hmove := Move.second rest hpc (hb ▸ hto)
          rw [hdiscard] at hmove
          exact hmove
        · rw [if_neg hb]
          have hmove := Move.ignoredOk b rest hpc hto hb
          rw [hdiscard] at hmove
          exact hpc ▸ hmove
      | attempt | synced | failed =>
        simp only [next, hto, reading, hpc, Bool.false_eq_true, if_false]
        exact hpc ▸ .idle _ (by simp [effective, reading, hpc])

/-! ## Runs are finite -/

/-- How far the bridge is from its end, with `n` attempts left. -/
def weight : HostPc → Nat → Nat
  | .attempt, n => 25 * n + 1
  | .readUntilQuiet _, n => 25 * n + 7
  | .readExpected1, n => 25 * n + 4
  | .readExpectedOk, n => 25 * n + 2
  | .synced, _ | .failed, _ => 0

/-- A byte under way counts for itself, and for its response. -/
def rankOf (pc : HostPc) (n : Nat) (l : Link Receiver Byte Byte) : Nat :=
  weight pc n + 2 * l.inbox.length + l.outbox.length

def rank (c : SyncSystem) : Nat := rankOf c.pc c.attemptsLeft c.link

/-- The events that do something. -/
def effect (c : SyncSystem) (e : SyncEvent) : List SyncEvent := if c.effective e then [e] else []

theorem length_effect_le (c : SyncSystem) (e : SyncEvent) : (c.effect e).length ≤ 1 := by
  unfold effect
  split <;> simp

/-- **Every effective step lowers the rank.** -/
theorem Move.rank_le {c : SyncSystem} {e : SyncEvent} {pc : HostPc} {n : Nat}
    {l : Link Receiver Byte Byte} (h : Move c e pc n l) :
    rankOf pc n l + (c.effect e).length ≤ c.rank := by
  have heffect := c.length_effect_le e
  cases h with
  | idle e hidle =>
    rw [effect, if_neg (by simp [hidle])]
    exact Nat.le_refl _
  | receive hto =>
    obtain ⟨b, rest, hto⟩ := List.exists_cons_of_ne_nil hto
    have hreply := c.firmware.receiver.length_responses_le b
    simp only [rank, rankOf, link, Link.serve, replyBytes, hto, List.length_cons,
      List.length_append, List.length_map]
    omega
  | exhausted discard hpc hleft =>
    simp only [rank, rankOf, weight, hpc, hleft]
    omega
  | start discard n hpc hleft =>
    simp only [rank, rankOf, weight, hpc, hleft, link, Link.write, Link.discard, startCommands,
      List.length_append, List.length_replicate, List.length_drop]
    omega
  | heard data hpc hmem =>
    simp only [rank, rankOf, weight, hpc, link, Link.write, List.length_append, List.length_cons,
      List.length_nil]
    omega
  | unheard data hpc hmem =>
    simp only [rank, rankOf, weight, hpc]
    omega
  | late hpc =>
    rcases hpc with hpc | hpc <;> simp only [rank, rankOf, weight, hpc] <;> omega
  | collect data b rest hpc hto | first rest hpc hto | second rest hpc hto
  | ignored1 b rest hpc hto hb | ignoredOk b rest hpc hto hb =>
    simp only [rank, rankOf, weight, hpc, link, Link.write, Link.discard, hto, List.drop_one,
      List.tail_cons, List.length_append, List.length_cons, List.length_nil]
    omega

/-- A patient bridge that is not done can go on. -/
theorem exists_effective {c : SyncSystem} (hsynced : c.pc ≠ .synced) (hfailed : c.pc ≠ .failed) :
    ∃ e, c.effective e = true ∧ c.Patient e := by
  by_cases hattempt : c.pc = .attempt
  · exact ⟨.start 0, by simp [effective, hattempt], fun h => nomatch h⟩
  have hreading : c.reading = true := by
    cases hpc : c.pc <;> simp_all [reading]
  by_cases hto : c.toFirmware = []
  · by_cases hhost : c.toHost = []
    · exact ⟨.timeout, hreading, fun _ => ⟨hto, hhost⟩⟩
    · exact ⟨.read, by simp [effective, hreading, hhost], fun h => nomatch h⟩
  · exact ⟨.receive, by simp [effective, hto], fun h => nomatch h⟩

/-! ## The result -/

/-- What makes a patient bridge succeed in the end, by where it is: `n` attempts are left, `d`
is the receiver once drained and `o` are the bytes still to be read. -/
def Hopeful : HostPc → Nat → Receiver → List Byte → Prop
  | .attempt, n, d, _ => 2 ≤ n ∨ (1 ≤ n ∧ ¬ d.Swallows)
  | .readUntilQuiet data, n, d, o => (rspSt ∈ data ∨ rspSt ∈ o) ∨ (1 ≤ n ∧ ¬ d.Swallows)
  | .readExpected1, _, _, o => rsp1 ∈ o
  | .readExpectedOk, _, _, o => rspOk ∈ o
  | .synced, _, _, _ => True
  | .failed, _, _, _ => False

/-- What makes it fail: no attempt is left, or one, whose start commands will be swallowed. -/
def Doomed : HostPc → Nat → Receiver → List Byte → Prop
  | .attempt, n, d, o => n = 0 ∨ (n = 1 ∧ d.Swallows ∧ rspSt ∉ o)
  | .readUntilQuiet data, n, _, o => n = 0 ∧ rspSt ∉ data ∧ rspSt ∉ o
  | .failed, _, _, _ => True
  | _, _, _, _ => False

/-- The start commands are swallowed, without an answer, or heard. -/
theorem replyBytes_startCommands {d : Receiver} (hb : d.Bounded) :
    (d.Swallows ∧ ¬ (Trace.run Receiver.next d startCommands).Swallows ∧
        rspSt ∉ Trace.observe Receiver.next replyBytes d startCommands) ∨
      (¬ d.Swallows ∧ rspSt ∈ Trace.observe Receiver.next replyBytes d startCommands) := by
  by_cases hsw : d.Swallows
  · cases d with
    | synced buffer =>
      obtain ⟨hrun, hresp, -⟩ := Receiver.run_startCommands_swallowed hb hsw
      rw [hrun, observe_replyBytes, hresp]
      exact .inl ⟨hsw, Receiver.not_swallows_replicate _ hb, by decide⟩
    | _ => exact absurd hsw id
  · refine .inr ⟨hsw, ?_⟩
    rw [observe_replyBytes]
    exact List.mem_map.mpr ⟨.syncStart,
      Receiver.syncStart_mem_startCommands (Receiver.run_startCommands hb hsw).1, rfl⟩

/-- What is owed begins with what has arrived. -/
theorem owed_cons {c : SyncSystem} {b : Byte} {rest : List Byte} (hto : c.toHost = b :: rest) :
    c.owed = b :: Link.owed Receiver.next replyBytes (c.link.discard 1) := by
  simp [owed, Link.owed, link, Link.discard, hto]

theorem owed_eq_nil {c : SyncSystem} (h : c.Patient .timeout) : c.owed = [] := by
  obtain ⟨hto, hhost⟩ := h rfl
  simp [owed, Link.owed, link, hto, hhost]

/-- **A step of a patient bridge keeps the hope.** -/
theorem Move.hopeful {c : SyncSystem} {e : SyncEvent} {pc : HostPc} {n : Nat}
    {l : Link Receiver Byte Byte} (h : Move c e pc n l) (hinv : c.Inv) (hpatient : c.Patient e)
    (hhope : Hopeful c.pc c.attemptsLeft c.drained c.owed) :
    Hopeful pc n (l.drained Receiver.next) (l.owed Receiver.next replyBytes) := by
  have hagrees := hinv.agrees
  cases h with
  | idle => exact hhope
  | receive =>
    rw [Link.drained_serve, Link.owed_serve]
    exact hhope
  | exhausted discard hpc hleft =>
    rw [hpc, hleft] at hhope
    rcases hhope with hhope | ⟨hhope, -⟩ <;> omega
  | start discard n hpc hleft =>
    rw [hpc, hleft] at hhope
    rw [Link.drained_write, Link.owed_write]
    rcases replyBytes_startCommands (drained_bounded hinv.wellFormed) with
      ⟨hsw, hsw', -⟩ | ⟨-, hmem⟩
    · refine .inr ⟨?_, hsw'⟩
      rcases hhope with hhope | ⟨-, hnot⟩
      · omega
      · exact absurd hsw hnot
    · exact .inl (.inr (List.mem_append_right _ hmem))
  | collect data b rest hpc hto =>
    rw [hpc, owed_cons hto] at hhope
    refine hhope.imp_left fun hmem => ?_
    rcases hmem with hmem | hmem
    · exact .inl (List.mem_append_left _ hmem)
    · rcases List.mem_cons.mp hmem with rfl | hmem
      · exact .inl (List.mem_append_right _ List.mem_cons_self)
      · exact .inr hmem
  | heard data hpc hmem =>
    rw [hpc] at hagrees
    have hd : c.drained = .syncStart := hagrees.resolve_right fun hn => hn.2.1 hmem
    rw [Link.owed_write, show c.link.drained Receiver.next = .syncStart from hd]
    exact List.mem_append_right _ (by decide)
  | unheard data hpc hmem =>
    rw [hpc, owed_eq_nil hpatient] at hhope
    refine .inr (hhope.resolve_left fun hn => ?_)
    exact hn.elim hmem List.not_mem_nil
  | first rest hpc hto =>
    rw [hpc] at hagrees
    have hd : c.drained = .sync1 := hagrees
    rw [Link.owed_write, show (c.link.discard 1).drained Receiver.next = .sync1 from hd]
    exact List.mem_append_right _ (by decide)
  | second => exact trivial
  | ignored1 b rest hpc hto hb =>
    rw [hpc, owed_cons hto] at hhope
    exact (List.mem_cons.mp hhope).resolve_left fun h => hb h.symm
  | ignoredOk b rest hpc hto hb =>
    rw [hpc, owed_cons hto] at hhope
    exact (List.mem_cons.mp hhope).resolve_left fun h => hb h.symm
  | late hpc =>
    rw [owed_eq_nil hpatient] at hhope
    rcases hpc with hpc | hpc <;> rw [hpc] at hhope <;> exact absurd hhope List.not_mem_nil

/-- **And no step, patient or not, averts the doom.** -/
theorem Move.doomed {c : SyncSystem} {e : SyncEvent} {pc : HostPc} {n : Nat}
    {l : Link Receiver Byte Byte} (h : Move c e pc n l) (hinv : c.Inv)
    (hdoom : Doomed c.pc c.attemptsLeft c.drained c.owed) :
    Doomed pc n (l.drained Receiver.next) (l.owed Receiver.next replyBytes) := by
  cases h with
  | idle => exact hdoom
  | receive =>
    rw [Link.drained_serve, Link.owed_serve]
    exact hdoom
  | exhausted => exact trivial
  | start discard n hpc hleft =>
    rw [hpc, hleft] at hdoom
    rw [Link.owed_write]
    obtain ⟨hone, hsw, hmem⟩ := hdoom.resolve_left (by omega)
    refine ⟨by omega, List.not_mem_nil, fun hnew => ?_⟩
    rcases List.mem_append.mp hnew with hnew | hnew
    · exact hmem (Link.mem_owed_of_discard hnew)
    · rcases replyBytes_startCommands (drained_bounded hinv.wellFormed) with ⟨-, -, hno⟩ | ⟨hno, -⟩
      · exact hno hnew
      · exact hno hsw
  | collect data b rest hpc hto =>
    rw [hpc, owed_cons hto] at hdoom
    obtain ⟨hleft, hdata, howed⟩ := hdoom
    refine ⟨hleft, fun hmem => ?_, fun hmem => howed (List.mem_cons_of_mem _ hmem)⟩
    rcases List.mem_append.mp hmem with hmem | hmem
    · exact hdata hmem
    · exact howed (List.mem_singleton.mp hmem ▸ List.mem_cons_self)
  | heard data hpc hmem =>
    rw [hpc] at hdoom
    exact absurd hmem hdoom.2.1
  | unheard data hpc hmem =>
    rw [hpc] at hdoom
    exact .inl hdoom.1
  | first rest hpc hto | second rest hpc hto | ignored1 b rest hpc hto hb
  | ignoredOk b rest hpc hto hb =>
    rw [hpc] at hdoom
    exact hdoom.elim
  | late hpc =>
    rcases hpc with hpc | hpc <;> rw [hpc] at hdoom <;> exact hdoom.elim

/-! ## Runs -/

/-- A state in which a patient bridge will succeed. -/
structure WillSync (c : SyncSystem) : Prop where
  inv : c.Inv
  hopeful : Hopeful c.pc c.attemptsLeft c.drained c.owed

/-- A state in which the bridge will fail. -/
structure WillFail (c : SyncSystem) : Prop where
  inv : c.Inv
  doomed : Doomed c.pc c.attemptsLeft c.drained c.owed

theorem next_rank (c : SyncSystem) (e : SyncEvent) (h : c.Inv) :
    (c.next e).rank + (c.effect e).length ≤ c.rank :=
  (move_next h.wellFormed e).rank_le

theorem next_willSync (c : SyncSystem) (e : SyncEvent) (h : c.WillSync) (hp : c.Patient e) :
    (c.next e).WillSync :=
  ⟨c.next_inv e h.inv, (move_next h.inv.wellFormed e).hopeful h.inv hp h.hopeful⟩

theorem next_willFail (c : SyncSystem) (e : SyncEvent) (h : c.WillFail) : (c.next e).WillFail :=
  ⟨c.next_inv e h.inv, (move_next h.inv.wellFormed e).doomed h.inv h.doomed⟩

end SyncSystem

/-- **The handshake completes.**  Start from any reachable firmware, over empty channels, and
let bridge and firmware run in any order.

* At most `25 * attempts + 1` events do anything to the bridge or to the line; the reports that
  the firmware sends in between are not counted.
* Until the attempts are over, a patient bridge, or the firmware, can do something.
* With two attempts, or with one unless the firmware holds bytes that swallow the
  start commands, a patient bridge never fails.
* Otherwise it never succeeds, patient or not. -/
theorem sync_completes {firmware : Joystick}
    (hf : Trace.Reachable Joystick.next Joystick.boot firmware) (attempts : Nat)
    (es : List SyncEvent) :
    let c₀ := SyncSystem.initial firmware attempts
    let c := Trace.run SyncSystem.next c₀ es
    (Trace.observe SyncSystem.next SyncSystem.effect c₀ es).length ≤ 25 * attempts + 1 ∧
      (c.pc = .synced ∨ c.pc = .failed ∨ ∃ e, c.effective e = true ∧ c.Patient e) ∧
      if 2 ≤ attempts ∨ (attempts = 1 ∧ ¬ firmware.receiver.Swallows) then
        Trace.Always SyncSystem.next SyncSystem.Patient c₀ es → c.pc ≠ .failed
      else c.pc ≠ .synced := by
  intro c₀ c
  have hinv₀ : c₀.Inv := SyncSystem.initial_inv (Joystick.wellFormed_of_reachable hf) attempts
  refine ⟨?_, ?_, ?_⟩
  · have hrank := Trace.observe_length_le_rank SyncSystem.next_inv SyncSystem.next_rank hinv₀ es
    exact Nat.le_trans (Nat.le_add_left _ _) hrank
  · by_cases hsynced : c.pc = .synced
    · exact .inl hsynced
    · by_cases hfailed : c.pc = .failed
      · exact .inr (.inl hfailed)
      · exact .inr (.inr (SyncSystem.exists_effective hsynced hfailed))
  · split
    · rename_i henough
      intro hpatient hfailed
      have hhope : SyncSystem.Hopeful .attempt attempts firmware.receiver [] :=
        henough.imp_right fun h => ⟨Nat.le_of_eq h.1.symm, h.2⟩
      have hsync : c.WillSync :=
        hpatient.run_invariant SyncSystem.next_willSync ⟨hinv₀, hhope⟩
      have hno := hsync.hopeful
      rw [hfailed] at hno
      exact hno
    · rename_i henough
      intro hsynced
      have hdoom : SyncSystem.Doomed .attempt attempts firmware.receiver [] := by
        have htwo : ¬ 2 ≤ attempts := fun h => henough (.inl h)
        by_cases hsw : firmware.receiver.Swallows
        · have hle : attempts = 0 ∨ attempts = 1 := by omega
          exact hle.imp_right fun h => ⟨h, hsw, List.not_mem_nil⟩
        · have hone : ¬ attempts = 1 := fun h => henough (.inr ⟨h, hsw⟩)
          exact .inl (by omega)
      have hfail : c.WillFail :=
        Trace.run_invariant SyncSystem.next_willFail ⟨hinv₀, hdoom⟩ es
      have hno := hfail.doomed
      rw [hsynced] at hno
      exact hno

/-- A firmware with one byte of an abandoned packet: one attempt is lost whatever happens, two
are enough. -/
theorem sync_completes_second_attempt :
    let firmware := Trace.run Joystick.next .boot (receive [0xFF, 0x33, 0xCC, 0x84])
    (∀ es, (Trace.run SyncSystem.next (.initial firmware 1) es).pc ≠ .synced) ∧
      ∀ es, Trace.Always SyncSystem.next SyncSystem.Patient (.initial firmware 2) es →
        (Trace.run SyncSystem.next (.initial firmware 2) es).pc ≠ .failed := by
  intro firmware
  have hf : Trace.Reachable Joystick.next .boot firmware := ⟨_, rfl⟩
  have hsw : firmware.receiver.Swallows := by decide +kernel
  clear_value firmware
  refine ⟨fun es => ?_, fun es => ?_⟩
  · have hone := (sync_completes hf 1 es).2.2
    rwa [if_neg (by simp [hsw])] at hone
  · have htwo := (sync_completes hf 2 es).2.2
    rwa [if_pos (.inl (Nat.le_refl 2))] at htwo

end XInputSwitch
