import XInputSwitch.Link
import XInputSwitch.Resync

/-! # The synchronisation handshake

The bridge tries to synchronise a number of times (the attempt loop of
`xinput2serial.py`); each attempt is a call of `UART.sync`.  Bridge and firmware run
side by side, joined by the two directions of the serial line: a step
(`SyncEvent`) is one action of either side, in any order.

* `start n`: the bridge begins an attempt.  `reset_input_buffer` drops whatever has
  been delivered, some `n` of the bytes under way, and nine start commands are
  written.
* `read`: one `h.read(1)` of `read_until_quiet` or `read_expected`; it returns
  nothing when nothing is there.
* `timeout`: the loop around the read ends, by its deadline or by the quiet period.
* `receive`, `beforeSend`: the firmware handles one byte, or is about to send a
  report to the console.

`sync_agreement`: if an attempt returns `True`, the firmware is at the start of a
packet once it has consumed what was written, however late either side is.
-/
namespace XInputSwitch

/-- Where the bridge is. -/
inductive HostPc where
  /-- at the head of the attempt loop -/
  | attempt
  /-- in `read_until_quiet`, with the bytes read so far -/
  | readUntilQuiet (data : List Byte)
  /-- in `read_expected(RSP1)` -/
  | readExpected1
  /-- in `read_expected(RSP_OK)` -/
  | readExpectedOk
  /-- an attempt returned `True` -/
  | synced
  /-- every attempt failed -/
  | failed
deriving DecidableEq, Repr

/-- Bridge, firmware, and the bytes under way between them, oldest first. -/
structure SyncSystem where
  pc : HostPc
  attemptsLeft : Nat
  toFirmware : List Byte
  firmware : Joystick
  toHost : List Byte
deriving DecidableEq, Repr

inductive SyncEvent where
  | start (discard : Nat)
  | read
  | timeout
  | receive
  | beforeSend
deriving DecidableEq, Repr

namespace SyncSystem

/-- The attempt loop begins over empty channels. -/
def initial (firmware : Joystick) (attempts : Nat) : SyncSystem :=
  ⟨.attempt, attempts, [], firmware, []⟩

/-- `self.h.write`. -/
def write (c : SyncSystem) (bs : List Byte) : SyncSystem :=
  { c with toFirmware := c.toFirmware ++ bs }

/-- The beginning of `sync`, up to the first read. -/
def start (c : SyncSystem) (discard : Nat) : SyncSystem :=
  match c.attemptsLeft with
  | 0 => { c with pc := .failed }
  | n + 1 =>
    { c with
      pc := .readUntilQuiet []
      attemptsLeft := n
      toHost := c.toHost.drop discard }.write (List.replicate 9 cmdSt)

/-- What the loop around a read does with a byte. -/
def consume (c : SyncSystem) (b : Byte) : SyncSystem :=
  match c.pc with
  | .readUntilQuiet data => { c with pc := .readUntilQuiet (data ++ [b]) }
  | .readExpected1 => if b = rsp1 then { c with pc := .readExpectedOk }.write [cmd2] else c
  | .readExpectedOk => if b = rspOk then { c with pc := .synced } else c
  | _ => c

/-- What follows when the loop around a read ends without the byte it wants.  A
failed attempt returns to the attempt loop. -/
def timeout (c : SyncSystem) : SyncSystem :=
  match c.pc with
  | .readUntilQuiet data =>
    if rspSt ∈ data then { c with pc := .readExpected1 }.write [cmd1]
    else { c with pc := .attempt }
  | .readExpected1 | .readExpectedOk => { c with pc := .attempt }
  | _ => c

/-- Whether the bridge is in a read. -/
def reading (c : SyncSystem) : Bool :=
  match c.pc with
  | .readUntilQuiet _ | .readExpected1 | .readExpectedOk => true
  | _ => false

def next (c : SyncSystem) : SyncEvent → SyncSystem
  | .start discard => if c.pc = .attempt then c.start discard else c
  | .read =>
    match c.toHost with
    | b :: rest => if c.reading then { c with toHost := rest }.consume b else c
    | [] => c
  | .timeout => c.timeout
  | .receive =>
    match c.toFirmware with
    | b :: rest =>
      { c with
        toFirmware := rest
        firmware := (c.firmware.isr b).1
        toHost := c.toHost ++ (c.firmware.isr b).2.map Response.code }
    | [] => c
  | .beforeSend => { c with firmware := c.firmware.callbackBeforeSend }

/-! ## The firmware as a server -/

/-- The bytes a receiver answers with. -/
def replyBytes (r : Receiver) (b : Byte) : List Byte := (r.responses b).map Response.code

theorem observe_replyBytes (r : Receiver) (bs : List Byte) :
    Trace.observe Receiver.next replyBytes r bs =
      (Trace.observe Receiver.next Receiver.responses r bs).map Response.code :=
  Trace.observe_map Receiver.responses Response.code r bs

/-- Receiver and channels, without the bridge. -/
def link (c : SyncSystem) : Link Receiver Byte Byte :=
  ⟨c.toFirmware, c.firmware.receiver, c.toHost⟩

/-- The receiver once it has consumed everything written. -/
def drained (c : SyncSystem) : Receiver := c.link.drained Receiver.next

/-- The bytes the bridge may still read. -/
def owed (c : SyncSystem) : List Byte := c.link.owed Receiver.next replyBytes

/-! ## The invariant -/

/-- What the bridge may rely on, by where it is: `d` is the receiver once drained
and `o` are the bytes still to be read.

Before an attempt, the nine start commands will be heard, or no answer to an
earlier start command is under way that could be taken for one to these.  An answer
read afterwards then means that they were heard; from there on the receiver goes
through the handshake with the bridge. -/
def Agrees : HostPc → Receiver → List Byte → Prop
  | .attempt, d, o => ¬ d.Swallows ∨ rspSt ∉ o
  | .readUntilQuiet data, d, o => d = .syncStart ∨ (¬ d.Swallows ∧ rspSt ∉ data ∧ rspSt ∉ o)
  | .readExpected1, d, _ => d = .sync1
  | .readExpectedOk, d, _ => d = .synced []
  | .synced, d, _ => d = .synced []
  | .failed, _, _ => True

structure Inv (c : SyncSystem) : Prop where
  wellFormed : c.firmware.WellFormed
  agrees : Agrees c.pc c.drained c.owed

/-- Reading, or dropping, bytes only leaves fewer to be read. -/
theorem Agrees.mono {pc : HostPc} {d : Receiver} {o o' : List Byte} (h : Agrees pc d o)
    (ho : ∀ b ∈ o', b ∈ o) : Agrees pc d o' := by
  cases pc with
  | attempt => exact h.imp_right fun hn hm => hn (ho _ hm)
  | readUntilQuiet data => exact h.imp_right fun ⟨hs, hd, hn⟩ => ⟨hs, hd, fun hm => hn (ho _ hm)⟩
  | _ => exact h

theorem not_swallows_synced_nil : ¬ (Receiver.synced []).Swallows := by
  rintro ⟨h, -⟩
  exact absurd h (by decide)

theorem initial_inv {firmware : Joystick} (h : firmware.WellFormed) (attempts : Nat) :
    (initial firmware attempts).Inv :=
  ⟨h, Or.inr (by simp [owed, link, Link.owed, initial])⟩

theorem drained_bounded {c : SyncSystem} (h : c.firmware.WellFormed) : c.drained.Bounded :=
  Trace.run_invariant Receiver.next_bounded h.bounded c.toFirmware

/-! ### Steps of the firmware -/

theorem link_receive {c : SyncSystem} (h : c.firmware.WellFormed) :
    (c.next .receive).link = c.link.serve Receiver.next replyBytes := by
  obtain ⟨pc, left, toFirmware, firmware, toHost⟩ := c
  cases toFirmware with
  | nil => rfl
  | cons b rest =>
    have href := Joystick.isr_refines h b
    simp only [next, link, Link.serve, replyBytes, href.receiver, href.responses]

theorem receive_inv {c : SyncSystem} (h : c.Inv) : (c.next .receive).Inv := by
  have hlink := link_receive h.wellFormed
  have hpc : (c.next .receive).pc = c.pc := by
    simp only [next]; split <;> rfl
  refine ⟨?_, ?_⟩
  · simp only [next]
    split
    · exact (Joystick.isr_refines h.wellFormed _).wellFormed
    · exact h.wellFormed
  · rw [hpc, drained, owed, hlink, Link.drained_serve, Link.owed_serve]
    exact h.agrees

theorem beforeSend_inv {c : SyncSystem} (h : c.Inv) : (c.next .beforeSend).Inv := by
  have hlink : (c.next .beforeSend).link = c.link := by
    simp only [next, link, Joystick.callbackBeforeSend_receiver]
  refine ⟨Joystick.callbackBeforeSend_wellFormed h.wellFormed, ?_⟩
  rw [drained, owed, hlink]
  exact h.agrees

/-! ### Steps of the bridge -/

/-- An attempt begins: the start commands are heard, or swallowed without an answer
that could be mistaken. -/
theorem start_inv {c : SyncSystem} (h : c.Inv) (hpc : c.pc = .attempt) (discard : Nat) :
    (c.start discard).Inv := by
  have hag := h.agrees
  rw [hpc] at hag
  unfold start
  split
  · exact ⟨h.wellFormed, trivial⟩
  · refine ⟨h.wellFormed, ?_⟩
    have hb := drained_bounded h.wellFormed
    -- the link after the bytes are dropped and the commands written
    have hd : Link.drained Receiver.next ((c.link.discard discard).write startCommands) =
        Trace.run Receiver.next c.drained startCommands := Link.drained_write _ _
    have ho : ∀ b ∈ Link.owed Receiver.next replyBytes
        ((c.link.discard discard).write startCommands),
        b ∈ c.owed ∨ b ∈ Trace.observe Receiver.next replyBytes c.drained startCommands := by
      intro b hm
      rw [Link.owed_write] at hm
      exact (List.mem_append.mp hm).imp_left Link.mem_owed_of_discard
    by_cases hsw : c.drained.Swallows
    · -- the commands vanish into a packet: nothing is answered that could be mistaken
      have hno := hag.resolve_left (not_not_intro hsw)
      obtain ⟨buffer, hbuf⟩ : ∃ buffer, c.drained = .synced buffer := by
        cases hr : c.drained <;> simp_all [Receiver.Swallows]
      rw [hbuf] at hsw hb
      obtain ⟨hrun, hresp, -⟩ := Receiver.run_startCommands_swallowed hb hsw
      refine Or.inr ⟨?_, List.not_mem_nil, fun hm => ?_⟩
      · change ¬ (Link.drained Receiver.next
          ((c.link.discard discard).write startCommands)).Swallows
        rw [hd, hbuf, hrun]
        exact Receiver.not_swallows_replicate _ hb
      · rcases ho _ hm with hm | hm
        · exact hno hm
        · rw [hbuf, observe_replyBytes, hresp] at hm
          exact absurd hm (by decide)
    · left
      exact hd.trans (Receiver.run_startCommands hb hsw).1

/-- A read takes the oldest byte under way. -/
theorem consume_inv {c : SyncSystem} (h : c.Inv) {b : Byte} {rest : List Byte}
    (hto : c.toHost = b :: rest) : ({ c with toHost := rest }.consume b).Inv := by
  have hag := h.agrees
  have hlink : ({ c with toHost := rest } : SyncSystem).link = c.link.discard 1 := by
    simp only [link, Link.discard, hto, List.drop_one, List.tail_cons]
  have hmono : ∀ x ∈ ({ c with toHost := rest } : SyncSystem).owed, x ∈ c.owed := by
    intro x hx
    rw [owed, hlink] at hx
    exact Link.mem_owed_of_discard hx
  have hmem : b ∈ c.owed := by
    refine List.mem_append_left _ ?_
    rw [link, hto]
    exact List.mem_cons_self
  -- with the bridge where it was, nothing else has changed
  have hstay : ({ c with toHost := rest } : SyncSystem).Inv := ⟨h.wellFormed, hag.mono hmono⟩
  unfold consume
  split
  · rename_i data hpc
    change c.pc = _ at hpc
    rw [hpc] at hag
    refine ⟨h.wellFormed, ?_⟩
    rcases hag with hs | ⟨hs, hd, ho⟩
    · exact Or.inl hs
    · refine Or.inr ⟨hs, fun hm => ?_, fun hm => ho (hmono _ hm)⟩
      rcases List.mem_append.mp hm with hm | hm
      · exact hd hm
      · exact ho (List.mem_singleton.mp hm ▸ hmem)
  · rename_i hpc
    change c.pc = _ at hpc
    rw [hpc] at hag
    split
    · refine ⟨h.wellFormed, ?_⟩
      change Link.drained Receiver.next (c.link.write [cmd2]) = _
      rw [Link.drained_write, show c.link.drained Receiver.next = .sync1 from hag]
      rfl
    · exact hstay
  · rename_i hpc
    change c.pc = _ at hpc
    rw [hpc] at hag
    split
    · exact ⟨h.wellFormed, hag⟩
    · exact hstay
  · exact hstay

theorem read_inv {c : SyncSystem} (h : c.Inv) : (c.next .read).Inv := by
  simp only [next]
  split
  · rename_i b rest hto
    split
    · exact consume_inv h hto
    · exact h
  · exact h

/-- An attempt that fails leaves a receiver that hears the next start commands. -/
theorem timeout_inv {c : SyncSystem} (h : c.Inv) : (c.next .timeout).Inv := by
  have hag := h.agrees
  simp only [next, timeout]
  split
  · rename_i data hpc
    rw [hpc] at hag
    split
    · rename_i hmem
      have hd : c.drained = .syncStart := hag.resolve_right fun hn => hn.2.1 hmem
      refine ⟨h.wellFormed, ?_⟩
      change Link.drained Receiver.next (c.link.write [cmd1]) = _
      rw [Link.drained_write, show c.link.drained Receiver.next = .syncStart from hd]
      rfl
    · refine ⟨h.wellFormed, Or.inl ?_⟩
      rcases hag with hd | hn
      · change ¬ c.drained.Swallows
        rw [hd]; exact id
      · exact hn.1
  · rename_i hpc
    rw [hpc] at hag
    refine ⟨h.wellFormed, Or.inl ?_⟩
    change ¬ c.drained.Swallows
    rw [show c.drained = .sync1 from hag]; exact id
  · rename_i hpc
    rw [hpc] at hag
    refine ⟨h.wellFormed, Or.inl ?_⟩
    change ¬ c.drained.Swallows
    rw [show c.drained = .synced [] from hag]; exact not_swallows_synced_nil
  · exact h

theorem next_inv (c : SyncSystem) (e : SyncEvent) (h : c.Inv) : (c.next e).Inv := by
  cases e with
  | start discard =>
    simp only [next]
    split
    · exact start_inv h ‹_› discard
    · exact h
  | read => exact read_inv h
  | timeout => exact timeout_inv h
  | receive => exact receive_inv h
  | beforeSend => exact beforeSend_inv h

end SyncSystem

/-- **Sync agreement.**  Start from any reachable firmware, over empty channels, with
any number of attempts, and let bridge and firmware run in any order.  If an attempt
has returned `True`, then the firmware, once it has consumed every byte written, is
synchronised with an empty buffer, so that the next byte is byte 0 of a packet. -/
theorem sync_agreement {firmware : Joystick}
    (hf : Trace.Reachable Joystick.next Joystick.boot firmware) (attempts : Nat)
    (es : List SyncEvent) :
    let c := Trace.run SyncSystem.next (SyncSystem.initial firmware attempts) es
    c.pc = .synced →
      let fw := Trace.run Joystick.next c.firmware (receive c.toFirmware)
      (fw.state = .synced ∧ fw.serialInput.receivedBytes = 0 ∧ fw.serialInput.crc8Ccitt = 0) ∧
        (c.toFirmware = [] → fw = c.firmware) ∧
        ∀ b, (fw.isr b).1.serialInput.receivedBytes = 1 ∧
          (fw.isr b).1.serialInput.input.get 0 = b := by
  intro c hpc fw
  have hinv : c.Inv := Trace.run_invariant SyncSystem.next_inv
    (SyncSystem.initial_inv (Joystick.wellFormed_of_reachable hf) attempts) es
  have hd : c.drained = .synced [] := by
    have hag := hinv.agrees
    rw [hpc] at hag
    exact hag
  have hw : fw.WellFormed := Joystick.run_wellFormed hinv.wellFormed _
  have hrec : fw.receiver = .synced [] :=
    (Joystick.receive_receiver hinv.wellFormed c.toFirmware).trans hd
  obtain ⟨hst, hn, -, hc⟩ := (hw.synced_iff []).mp hrec
  refine ⟨⟨hst, hn, hc⟩, fun hnil => ?_, fun b => ?_⟩
  · change Trace.run Joystick.next c.firmware (receive c.toFirmware) = _
    rw [hnil]; rfl
  · have hfirst : (fw.isr b).1.serialInput.receivedBytes = 1 ∧
        (fw.isr b).1.serialInput.input[0] = b := by
      simp [Joystick.isr, Joystick.isrDispatch, Joystick.isrSynced, hst, hn]
    exact hfirst

/-- A firmware with one byte of an abandoned packet: the first attempt fails, the
second succeeds. -/
theorem sync_agreement_second_attempt :
    let firmware := Trace.run Joystick.next .boot (receive [0xFF, 0x33, 0xCC, 0x84])
    let es : List SyncEvent := [SyncEvent.start 0] ++ List.replicate 9 SyncEvent.receive ++
      [SyncEvent.read, SyncEvent.timeout, SyncEvent.start 0] ++
      List.replicate 9 SyncEvent.receive ++
      [SyncEvent.read, SyncEvent.timeout, SyncEvent.receive, SyncEvent.read, SyncEvent.read,
        SyncEvent.receive, SyncEvent.read]
    let c := Trace.run SyncSystem.next (SyncSystem.initial firmware 2) es
    c.pc = .synced ∧ c.firmware.state = .synced ∧ c.firmware.serialInput.receivedBytes = 0 := by
  intro firmware es c
  have hf : Trace.Reachable Joystick.next .boot firmware :=
    ⟨_, rfl⟩
  have hpc : c.pc = .synced := by decide +kernel
  have hnil : c.toFirmware = [] := by decide +kernel
  clear_value firmware es
  obtain ⟨⟨hst, hn, -⟩, hfw, -⟩ := sync_agreement hf 2 es hpc
  rw [hfw hnil] at hst hn
  exact ⟨hpc, hst, hn⟩

end XInputSwitch
