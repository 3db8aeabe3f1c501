import XInputSwitch.Replies

/-! # The discipline of replies

What holds of every order of OUT reports and IN packets, from start-up on.

A write outside the buffer happens exactly when an SPI read of 45 to 250 bytes is handled
with no reply pending (`reply_bounds`).  Without them, every IN packet is a complete answer to
the first request since the one before, or a standard report (`pending_reply_discipline`),
and the timer bytes never skip (`timer_continuity`).
-/
namespace XInputSwitch

/-! ## Bounds -/

namespace ResponseManager

/-- Every index written so far is inside the buffer. -/
def WritesInside (r : ResponseManager) : Prop := ∀ j ∈ r.replyBuffer.touched, j < joystickEpsize

theorem Prepared.writesInside_iff {r r' : ResponseManager} {answer : Byte × List Byte}
    (h : r.Prepared answer r') :
    r'.WritesInside ↔ r.WritesInside ∧ answer.2.length ≤ joystickEpsize := by
  constructor
  · intro hall
    refine ⟨fun j hj => hall j ((h.touched_iff j).mpr (.inl hj)), ?_⟩
    by_contra hlt
    have := hall joystickEpsize ((h.touched_iff _).mpr (.inr (.inr (Nat.lt_of_not_le hlt))))
    exact absurd this (Nat.lt_irrefl _)
  · rintro ⟨hall, hlen⟩ j hj
    rcases (h.touched_iff j).mp hj with hj | hj | hj
    · exact hall j hj
    · exact hj
    · exact Nat.lt_of_lt_of_le hj hlen

/-- The record outlasts an overrun. -/
theorem overrun_writesInside (mem : Memory) (r : ResponseManager) :
    (overrun mem r).WritesInside ↔ r.WritesInside := Iff.rfl

theorem handleOut_writesInside_iff (r : ResponseManager) (mem : Memory)
    (selected : StandardReport) (packet : List Byte) :
    (handleOut mem selected r packet).WritesInside ↔
      r.WritesInside ∧ r.InBounds (.out mem selected packet) := by
  cases h : r.nextPacketReady with
  | true => simp [handleOut_pending h, InBounds, h]
  | false =>
    cases hq : request packet with
    | none => simp [handleOut_unanswerable r mem selected hq, InBounds, hq]
    | some q =>
      rw [(handleOut_prepared h mem selected hq).writesInside_iff, answer_length_le_iff]
      simp [InBounds, h, hq]

/-- **The step**: the writes of an event. -/
theorem next_writesInside_iff (r : ResponseManager) (e : UsbEvent) :
    (r.next e).WritesInside ↔ r.WritesInside ∧ r.InBounds e := by
  cases e with
  | out mem selected packet =>
    have hhandled := handleOut_writesInside_iff r mem selected packet
    by_cases hin : r.InBounds (.out mem selected packet)
    · rw [next_out hin, hhandled]
    · rw [next_out_overrun hin, overrun_writesInside, hhandled]
  | poll mem selected =>
    have hsend : (r.next (.poll mem selected)).WritesInside ↔
        (readyToSend mem selected r).WritesInside := Iff.rfl
    rw [hsend]
    cases h : r.nextPacketReady with
    | true => simp [readyToSend_pending h, InBounds]
    | false =>
      rw [(readyToSend_prepared h mem selected).writesInside_iff]
      simp [InBounds, standardReply, joystickEpsize]

theorem run_writesInside_iff (r : ResponseManager) (es : List UsbEvent) :
    (Trace.run next r es).WritesInside ↔
      r.WritesInside ∧ Trace.Always next InBounds r es := by
  induction es generalizing r with
  | nil => simp [Trace.Always]
  | cons e es ih => rw [Trace.run_cons, ih, next_writesInside_iff, Trace.Always, and_assoc]

theorem setupResponseManager_prepared (mem : Memory) :
    Prepared ⟨Buffer.blank 0, 0, false⟩ (0, [0x81, 0x01, 0x00, 0x03] ++ macAddress)
      (setupResponseManager mem) :=
  prepare8101_prepared rfl mem

theorem setupResponseManager_writesInside (mem : Memory) :
    (setupResponseManager mem).WritesInside := by
  rw [(setupResponseManager_prepared mem).writesInside_iff]
  exact ⟨fun _ hj => (List.not_mem_nil hj).elim, by decide⟩

end ResponseManager

/-- **Replies inside the buffer.**  From start-up, in any order of OUT reports and IN
packets, every index written in the IN buffer is inside it exactly if no SPI read of
45 to 250 bytes is handled while no reply is pending. -/
theorem reply_bounds (mem : Memory) (es : List UsbEvent) :
    (∀ j ∈ (Trace.run ResponseManager.next (.setupResponseManager mem) es).replyBuffer.touched,
        j < joystickEpsize) ↔
      Trace.Always ResponseManager.next ResponseManager.InBounds (.setupResponseManager mem)
        es := by
  have h := ResponseManager.run_writesInside_iff (.setupResponseManager mem) es
  exact h.trans (and_iff_right (ResponseManager.setupResponseManager_writesInside mem))

/-- A read of 45 bytes writes one past the end. -/
theorem reply_bounds_spiRead :
    let mem : Memory := .zero
    let packet : List Byte :=
      [0x01, 0, 0, 0, 0, 0, 0, 0, 0, 0, 0x10, 0x80, 0x60, 0x00, 0x00, 45, 0x00]
    packet.length ≤ joystickEpsize ∧
      joystickEpsize ∈ (Trace.run ResponseManager.next (.setupResponseManager mem)
        [.poll mem initializeIdleReport,
          .out mem initializeIdleReport packet]).replyBuffer.touched := by
  decide +kernel

/-! ## Pending replies -/

/-- The packets that are answered: first byte `0x80`, or first byte `0x01` and more
than 16 bytes. -/
def answerable (packet : List Byte) : Bool :=
  packet.head? = some 0x80 || (packet.head? = some 0x01 && 16 < packet.length)

theorem switchResponseBuffer_zero (packet : List Byte) :
    (switchResponseBuffer packet)[0] = packet.head?.getD 0 := by
  rw [switchResponseBuffer, Buffer.getElem_padded, List.getD_eq_getElem?_getD,
    List.head?_eq_getElem?]

theorem request_isSome_iff (packet : List Byte) :
    (request packet).isSome = true ↔ (switchResponseBuffer packet)[0] = 0x80 ∨
      ((switchResponseBuffer packet)[0] = 0x01 ∧ 16 < reportSize packet) := by
  by_cases h₀ : (switchResponseBuffer packet)[0] = 0x80
  · rw [request, Request.ofReport_command h₀]
    exact ⟨fun _ => .inl h₀, fun _ => Option.isSome_some⟩
  · by_cases h₁ : (switchResponseBuffer packet)[0] = 0x01 ∧ 16 < reportSize packet
    · rw [request, Request.ofReport_subcommand h₀ h₁]
      exact ⟨fun _ => .inr h₁, fun _ => Option.isSome_some⟩
    · rw [request, Request.ofReport_other h₀ h₁]
      exact ⟨fun h => (Bool.false_ne_true h).elim, fun h => (h.elim h₀ h₁).elim⟩

theorem request_isSome (packet : List Byte) : (request packet).isSome = answerable packet := by
  rw [Bool.eq_iff_iff, request_isSome_iff, switchResponseBuffer_zero, answerable, Bool.or_eq_true,
    Bool.and_eq_true, decide_eq_true_eq, decide_eq_true_eq, decide_eq_true_eq]
  cases packet with
  | nil =>
    -- the buffer is cleared before it is filled
    refine ⟨fun h => ?_, fun h => ?_⟩
    · rcases h with h | ⟨h, -⟩ <;> exact absurd h (by decide)
    · rcases h with h | ⟨h, -⟩ <;> cases h
  | cons b bs =>
    have hsize : 16 < reportSize (b :: bs) ↔ 16 < (b :: bs).length := by
      simp only [reportSize, joystickEpsize]
      omega
    rw [hsize, List.head?_cons, Option.getD_some, Option.some_inj, Option.some_inj]

/-- An OUT packet, with what it finds when it is handled. -/
structure OutReport where
  mem : Memory
  selected : StandardReport
  packet : List Byte

def OutReport.event (o : OutReport) : UsbEvent := .out o.mem o.selected o.packet

/-- The same as a request to the mailbox. -/
def OutReport.asked (o : OutReport) : Memory × StandardReport × List Byte :=
  (o.mem, o.selected, o.packet)

/-- Reads of the emulated flash memory ask for at most 44 bytes. -/
def UsbEvent.SmallRead : UsbEvent → Prop
  | .out _ _ packet => ∀ address size,
      request packet = some (.subcommand subcommandSpiFlashRead address size) → size.toNat ≤ 44
  | .poll _ _ => True

theorem UsbEvent.SmallRead.not_oversized {mem : Memory} {selected : StandardReport}
    {packet : List Byte} (h : (UsbEvent.out mem selected packet).SmallRead) {q : Request}
    (hq : request packet = some q) : ¬ q.Oversized := by
  cases q with
  | command c => exact id
  | subcommand sub address size =>
    rintro ⟨rfl, hge, -⟩
    have := h address size hq
    omega

/-- A command reads nothing. -/
theorem UsbEvent.smallRead_of_command {packet : List Byte} {c : Byte}
    (h : request packet = some (.command c)) (mem : Memory) (selected : StandardReport) :
    (UsbEvent.out mem selected packet).SmallRead := by
  intro address size hread
  rw [h] at hread
  cases hread

/-- Small reads never leave the buffer. -/
theorem ResponseManager.always_inBounds {es : List UsbEvent} (hes : ∀ e ∈ es, e.SmallRead)
    (r : ResponseManager) : Trace.Always next InBounds r es := by
  refine Trace.always_of_forall (fun e he r => ?_) r
  have hsmall := hes e he
  cases e with
  | out mem selected packet => exact .inr fun q hq => hsmall.not_oversized hq
  | poll mem selected => exact trivial

/-- Contents that fit are transmitted whole. -/
theorem inPacket_toList {contents : List Byte} (h : contents.length ≤ joystickEpsize) :
    (inPacket contents).toList =
      contents ++ List.replicate (joystickEpsize - contents.length) 0 :=
  Buffer.toList_padded 0 h

namespace ResponseManager

/-- A pending reply outlasts any number of OUT reports. -/
theorem run_outs_pending {r : ResponseManager} (h : r.nextPacketReady = true)
    (outs : List OutReport) : Trace.run next r (outs.map OutReport.event) = r := by
  induction outs with
  | nil => rfl
  | cons o outs ih =>
    rw [List.map_cons, Trace.run_cons, OutReport.event, out_pending h, ih]

end ResponseManager

/-- The bytes that answer an OUT packet. -/
def OutReport.reply (o : OutReport) (counter : Byte) : List Byte :=
  match request o.packet with
  | some q => (q.answer o.mem o.selected counter).2
  | none => []

/-- What an IN packet carries after the OUT packets `outs`, with nothing pending
before them. -/
def replyAfter (counter : Byte) (outs : List OutReport) (selected : StandardReport) : List Byte :=
  match outs.find? (fun o => answerable o.packet) with
  | some o => o.reply counter
  | none => standardReply (counter + counterIncrement) selected

theorem replyAfter_length_le {outs : List OutReport} (h : ∀ o ∈ outs, o.event.SmallRead)
    (counter : Byte) (selected : StandardReport) :
    (replyAfter counter outs selected).length ≤ joystickEpsize := by
  unfold replyAfter
  cases ho : outs.find? (fun o => answerable o.packet) with
  | none => simp [standardReply, joystickEpsize]
  | some o =>
    have hmem := h o (List.mem_of_find?_eq_some ho)
    simp only [OutReport.reply]
    split
    · rename_i q hq
      exact (answer_length_le_iff q o.mem o.selected counter).mpr
        (UsbEvent.SmallRead.not_oversized hmem hq)
    · exact Nat.zero_le _

namespace ResponseManager

/-- **The packet between two polls**, read off the mailbox. -/
theorem transmitted_after_poll (r : ResponseManager) (mem₁ mem₂ : Memory)
    (selected₁ selected₂ : StandardReport) {outs : List OutReport}
    (houts : ∀ o ∈ outs, o.event.SmallRead) :
    let r' := r.next (.poll mem₁ selected₁)
    (Trace.run next r' (outs.map OutReport.event)).transmitted (.poll mem₂ selected₂) =
      [inPacket (replyAfter r'.counter outs selected₂)] := by
  intro r'
  have hevents : (outs.map OutReport.event).map UsbEvent.toMailbox =
      (outs.map OutReport.asked).map .request := by
    rw [List.map_map, List.map_map]
    exact List.map_congr_left fun _ _ => rfl
  have hfind : (outs.map OutReport.asked).find? mailbox.answerable =
      (outs.find? fun o => answerable o.packet).map OutReport.asked := by
    rw [List.find?_map]
    simp only [Function.comp_def, mailbox_answerable, OutReport.asked, request_isSome]
  have hnext : mailbox.next r.toMailbox (.poll selected₁) = r'.toMailbox :=
    (r.next_refines (.poll mem₁ selected₁) trivial).symm
  have hsmall : ∀ e ∈ outs.map OutReport.event, e.SmallRead := by
    intro e he
    obtain ⟨o, ho, rfl⟩ := List.mem_map.mp he
    exact houts o ho
  have hsent := mailbox.sent_after_poll r.toMailbox selected₁ selected₂ (outs.map OutReport.asked)
  rw [Trace.run_cons, hnext, hfind] at hsent
  rw [transmitted_refines, run_refines (always_inBounds hsmall r'), hevents]
  refine hsent.trans ?_
  unfold replyAfter
  cases ho : outs.find? (fun o => answerable o.packet) with
  | none => simp only [Option.map_none, mailbox_idle, toMailbox]
  | some o =>
    have ha := List.find?_some ho
    rw [← request_isSome] at ha
    obtain ⟨q, hq⟩ := Option.isSome_iff_exists.mp ha
    have hreply := mailbox_reply (r := o.asked) hq r'.counter
    simp only [Option.map_some, toMailbox, hreply, OutReport.reply, hq]
    rfl

end ResponseManager

/-- **The discipline of pending replies.**  From start-up, in any order of OUT reports
and IN packets with SPI reads of at most 44 bytes:

* an IN packet that follows another is the whole answer to the first answerable OUT
  report in between, made from the report selected when that one was handled, or else
  a standard report of the one selected now;
* OUT reports handled while a reply is pending change nothing;
* sending takes the pending reply as it was prepared, and leaves none pending. -/
theorem pending_reply_discipline (mem : Memory) (es : List UsbEvent)
    (hes : ∀ e ∈ es, e.SmallRead) :
    (∀ pre mem₁ selected₁ (outs : List OutReport) mem₂ selected₂ post,
      es = pre ++ .poll mem₁ selected₁ ::
        (outs.map OutReport.event ++ .poll mem₂ selected₂ :: post) →
      let r := Trace.run ResponseManager.next (.setupResponseManager mem)
        (pre ++ [.poll mem₁ selected₁])
      let reply := replyAfter r.counter outs selected₂
      reply.length ≤ joystickEpsize ∧
        ((Trace.run ResponseManager.next r (outs.map OutReport.event)).transmitted
            (.poll mem₂ selected₂)).map Vector.toList =
          [reply ++ List.replicate (joystickEpsize - reply.length) 0]) ∧
    (∀ pre (outs : List OutReport) post, es = pre ++ outs.map OutReport.event ++ post →
      let r := Trace.run ResponseManager.next (.setupResponseManager mem) pre
      r.nextPacketReady = true →
        Trace.run ResponseManager.next r (outs.map OutReport.event) = r) ∧
    (∀ pre mem' selected post, es = pre ++ .poll mem' selected :: post →
      let r := Trace.run ResponseManager.next (.setupResponseManager mem) pre
      (r.nextPacketReady = true →
        r.transmitted (.poll mem' selected) = [r.replyBuffer.cells]) ∧
      (r.next (.poll mem' selected)).nextPacketReady = false) := by
  refine ⟨?_, ?_, ?_⟩
  · rintro pre mem₁ selected₁ outs mem₂ selected₂ post rfl
    intro r reply
    have hsmall : ∀ o ∈ outs, o.event.SmallRead := by
      intro o ho
      apply hes
      simp only [List.mem_append, List.mem_cons, List.mem_map]
      exact .inr (.inr (.inl ⟨o, ho, rfl⟩))
    have hlen : reply.length ≤ joystickEpsize := replyAfter_length_le hsmall _ _
    have hr : r = (Trace.run ResponseManager.next (.setupResponseManager mem) pre).next
        (.poll mem₁ selected₁) := Trace.run_append _ _ _ _
    refine ⟨hlen, ?_⟩
    have hsent := ResponseManager.transmitted_after_poll
      (Trace.run ResponseManager.next (.setupResponseManager mem) pre) mem₁ mem₂ selected₁
      selected₂ hsmall
    simp only [← hr] at hsent
    rw [hsent, List.map_singleton, inPacket_toList hlen]
  · rintro pre outs post rfl r hready
    exact ResponseManager.run_outs_pending hready outs
  · rintro pre mem' selected post rfl r
    refine ⟨fun hready => ?_, ResponseManager.poll_nextPacketReady r mem' selected⟩
    rw [ResponseManager.transmitted, ResponseManager.readyToSend_pending hready]

/-- Two requests between two IN packets: the first is answered. -/
theorem pending_reply_discipline_first :
    let mem : Memory := .zero
    let outs : List OutReport :=
      [⟨mem, initializeIdleReport, [0x80, 0x02]⟩, ⟨mem, initializeIdleReport, [0x80, 0x01]⟩]
    let r := Trace.run ResponseManager.next (.setupResponseManager mem)
      ([] ++ [.poll mem initializeIdleReport])
    ((Trace.run ResponseManager.next r (outs.map OutReport.event)).transmitted
        (.poll mem initializeIdleReport)).map Vector.toList =
      [[0x81, 0x02] ++ List.replicate 62 0] := by
  intro mem outs r
  have hes : ∀ e ∈ [] ++ UsbEvent.poll mem initializeIdleReport ::
      (outs.map OutReport.event ++ [.poll mem initializeIdleReport]), e.SmallRead := by
    intro e he
    simp only [outs, List.map_cons, List.map_nil, List.nil_append, List.cons_append, List.mem_cons,
      List.not_mem_nil, or_false] at he
    rcases he with rfl | rfl | rfl | rfl
    · exact trivial
    · exact UsbEvent.smallRead_of_command (c := 0x02) (by decide +kernel) _ _
    · exact UsbEvent.smallRead_of_command (c := 0x01) (by decide +kernel) _ _
    · exact trivial
  have hreply : replyAfter r.counter outs initializeIdleReport = [0x81, 0x02] := by decide +kernel
  obtain ⟨hall, -, -⟩ := pending_reply_discipline mem _ hes
  have h := (hall [] mem initializeIdleReport outs mem initializeIdleReport [] rfl).2
  rw [h, hreply]
  rfl

/-! ## Timer bytes -/

/-- The timer byte of a packet with id `0x30` or `0x21`. -/
def timerByte (packet : Vector Byte joystickEpsize) : Option Byte :=
  if packet[0]? = some 0x30 ∨ packet[0]? = some 0x21 then packet[1]? else none

theorem timerByte_inPacket (id timer : Byte) (rest : List Byte) :
    timerByte (inPacket ([id, timer] ++ rest)) =
      if id = 0x30 ∨ id = 0x21 then some timer else none := by
  have h₀ : (inPacket ([id, timer] ++ rest))[0]? = some id := by
    rw [Vector.getElem?_eq_getElem (by decide), inPacket, Buffer.getElem_padded]
    rfl
  have h₁ : (inPacket ([id, timer] ++ rest))[1]? = some timer := by
    rw [Vector.getElem?_eq_getElem (by decide), inPacket, Buffer.getElem_padded]
    rfl
  rw [timerByte, h₀, h₁]
  simp only [Option.some.injEq]

/-- Either an answer carries no timer byte and leaves the counter alone, or it carries
the value the counter was advanced to. -/
theorem answer_timer (q : Request) (mem : Memory) (selected : StandardReport) (counter : Byte) :
    let answer := q.answer mem selected counter
    (timerByte (inPacket answer.2) = none ∧ answer.1 = counter) ∨
      (timerByte (inPacket answer.2) = some (counter + counterIncrement) ∧
        answer.1 = counter + counterIncrement) := by
  intro answer
  cases q with
  | command c =>
    by_cases h₁ : c = 0x01
    · have ha : answer = (counter, [0x81, 0x01] ++ ([0x00, 0x03] ++ macAddress)) := if_pos h₁
      rw [ha, timerByte_inPacket]
      exact .inl ⟨rfl, rfl⟩
    · by_cases h₄ : c = 0x04
      · have ha : answer = (counter + counterIncrement,
            [0x30, counter + counterIncrement] ++ selected.toBytes) :=
          (if_neg h₁).trans (if_pos h₄)
        rw [ha, timerByte_inPacket]
        exact .inr ⟨rfl, rfl⟩
      · have ha : answer = (counter, [0x81, c] ++ []) := (if_neg h₁).trans (if_neg h₄)
        rw [ha, timerByte_inPacket]
        exact .inl ⟨rfl, rfl⟩
  | subcommand sub address size =>
    right
    have ha : answer.2 = [0x21, counter + counterIncrement] ++ (selected.toBytes ++
        [(acknowledgement mem sub address size).1, sub] ++
        (acknowledgement mem sub address size).2) := by
      simp only [answer, Request.answer, List.append_assoc]
    rw [ha, timerByte_inPacket]
    exact ⟨rfl, rfl⟩

/-- The packets of the mailbox are stamped by the counter. -/
theorem mailbox_stamped :
    mailbox.Stamped timerByte (fun counter => counter + counterIncrement) id where
  reply counter r ha := by
    rw [mailbox_answerable] at ha
    obtain ⟨q, hq⟩ := Option.isSome_iff_exists.mp ha
    rw [mailbox_reply hq]
    exact answer_timer q r.1 r.2.1 counter
  idle counter selected := by
    right
    rw [mailbox_idle, standardReply, timerByte_inPacket]
    exact ⟨rfl, rfl⟩

/-- The values of the counter are the multiples of three. -/
theorem iterate_counter (n : Nat) :
    (fun counter : Byte => counter + counterIncrement)^[n] 0 = BitVec.ofNat 8 (3 * n) := by
  induction n with
  | zero => rfl
  | succ n ih =>
    rw [Function.iterate_succ_apply', ih, Nat.mul_succ, BitVec.ofNat_add]
    rfl

/-- **Timer bytes are continuous.**  From start-up, in any order of OUT reports and IN
packets with SPI reads of at most 44 bytes, the timer bytes transmitted are 3, 6, 9
and so on modulo 256, and no write leaves the buffer. -/
theorem timer_continuity (mem : Memory) (es : List UsbEvent) (hes : ∀ e ∈ es, e.SmallRead) :
    let timers := (Trace.observe ResponseManager.next ResponseManager.transmitted
      (.setupResponseManager mem) es).filterMap timerByte
    timers = (List.range timers.length).map (fun i => BitVec.ofNat 8 (3 * (i + 1))) ∧
      ∀ j ∈ (Trace.run ResponseManager.next (.setupResponseManager mem) es).replyBuffer.touched,
        j < joystickEpsize := by
  intro timers
  have hsetup := ResponseManager.setupResponseManager_prepared mem
  have howed : Mailbox.owed timerByte
      (ResponseManager.setupResponseManager mem).toMailbox = [] := by
    rw [hsetup.toMailbox]
    decide +kernel
  obtain ⟨n, hn⟩ := mailbox.stamps_run mailbox_stamped howed (es.map UsbEvent.toMailbox)
  rw [← ResponseManager.observe_transmitted (ResponseManager.always_inBounds hes _),
    hsetup.toMailbox] at hn
  constructor
  · have htimers : timers = (List.range n).map fun i => BitVec.ofNat 8 (3 * (i + 1)) := by
      refine hn.trans (List.map_congr_left fun i _ => ?_)
      exact iterate_counter (i + 1)
    have hlen : timers.length = n := by rw [htimers, List.length_map, List.length_range]
    rw [hlen, htimers]
  · exact (ResponseManager.run_writesInside_iff _ es).mpr
      ⟨ResponseManager.setupResponseManager_writesInside mem,
        ResponseManager.always_inBounds hes _⟩

/-- The preloaded packet, the answer to `80 04` and an unasked report. -/
theorem timer_continuity_three :
    let mem : Memory := .zero
    let es : List UsbEvent :=
      [.poll mem initializeIdleReport, .out mem initializeIdleReport [0x80, 0x04],
        .poll mem initializeIdleReport, .poll mem initializeIdleReport]
    (Trace.observe ResponseManager.next ResponseManager.transmitted
      (.setupResponseManager mem) es).filterMap timerByte = [3, 6] := by
  intro mem es
  have hes : ∀ e ∈ es, e.SmallRead := by
    intro e he
    simp only [es, List.mem_cons, List.not_mem_nil, or_false] at he
    rcases he with rfl | rfl | rfl | rfl
    · exact trivial
    · exact UsbEvent.smallRead_of_command (c := 0x04) (by decide +kernel) _ _
    · exact trivial
    · exact trivial
  have hlen : ((Trace.observe ResponseManager.next ResponseManager.transmitted
      (.setupResponseManager mem) es).filterMap timerByte).length = 2 := by decide +kernel
  have h := (timer_continuity mem es hes).1
  rw [hlen] at h
  exact h.trans rfl

end XInputSwitch
