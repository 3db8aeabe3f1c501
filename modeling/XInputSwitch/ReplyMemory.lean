import XInputSwitch.ReplyDiscipline

/-! # What a reply tells about the memory

Two runs of the reply manager on the same OUT reports and the same selected reports,
but with different contents of the rest of the memory.  The arrays that a reply is copied
from are all as long as the length that goes with them, or longer, so nothing behind them is
read.  Of all the pointers one is not to an array of the firmware: the
acknowledgement of a manual pairing request takes its byte from address 3, where the
constant 3 was meant.  And an SPI read too long for the buffer overwrites variables.
Other requests are answered alike in both runs (`next_sameRequest`), and so are whole
runs without such requests (`observe_sameRequests`).
-/
namespace XInputSwitch

/-- The same event, whatever the memory holds. -/
inductive UsbEvent.SameRequest : UsbEvent → UsbEvent → Prop
  | out (mem mem' : Memory) (selected : StandardReport) (packet : List Byte) :
    SameRequest (.out mem selected packet) (.out mem' selected packet)
  | poll (mem mem' : Memory) (selected : StandardReport) :
    SameRequest (.poll mem selected) (.poll mem' selected)

/-! ## Manual pairing -/

/-- A subcommand report that asks for manual pairing over Bluetooth. -/
def AsksPairing (packet : List Byte) : Prop :=
  16 < packet.length ∧ packet[0]? = some 0x01 ∧
    packet[10]? = some subcommandBluetoothManualPairing

instance (packet : List Byte) : Decidable (AsksPairing packet) :=
  inferInstanceAs (Decidable (_ ∧ _ ∧ _))

theorem getElem?_eq_switchResponseBuffer {packet : List Byte} {i : Nat} (hi : i < joystickEpsize)
    (hlen : i < packet.length) : packet[i]? = some (switchResponseBuffer packet)[i] := by
  rw [switchResponseBuffer, Buffer.getElem_padded, List.getD_eq_getElem?_getD,
    List.getElem?_eq_getElem hlen, Option.getD_some]

/-- The reports that reach the case of their own in `process_OUT_report`. -/
theorem asksPairing_iff (packet : List Byte) :
    AsksPairing packet ↔ 16 < reportSize packet ∧ (switchResponseBuffer packet)[0] = 0x01 ∧
      (switchResponseBuffer packet)[10] = subcommandBluetoothManualPairing := by
  have hsize : 16 < reportSize packet ↔ 16 < packet.length := by
    simp only [reportSize, joystickEpsize]
    omega
  rw [AsksPairing, hsize]
  refine and_congr_right fun hlen => ?_
  rw [getElem?_eq_switchResponseBuffer (i := 0) (by decide) (by omega),
    getElem?_eq_switchResponseBuffer (i := 10) (by decide) (by omega), Option.some_inj,
    Option.some_inj]

theorem AsksPairing.request {packet : List Byte} (h : AsksPairing packet) :
    ∃ address size,
      request packet = some (.subcommand subcommandBluetoothManualPairing address size) := by
  obtain ⟨hsize, hid, hsub⟩ := (asksPairing_iff packet).mp h
  have hne : ¬ (switchResponseBuffer packet)[0] = 0x80 := by rw [hid]; decide
  have hrequest := Request.ofReport_subcommand hne ⟨hid, hsize⟩
  rw [hsub] at hrequest
  exact ⟨_, _, hrequest⟩

/-! ## Two memories -/

namespace ResponseManager

section Copies
variable (mem mem' : Memory) (selected : StandardReport) (r : ResponseManager)

/-! A reply copied from an array that is long enough, or with nothing to copy, is the same
in both. -/

theorem prepareReply_array (code command : Byte) {bytes : List Byte} {length : Nat}
    (h : length ≤ bytes.length) :
    prepareReply mem' r code command (.array bytes) length =
      prepareReply mem r code command (.array bytes) length := by
  rw [prepareReply, prepareReply, DataPtr.read_array mem h, DataPtr.read_array mem' h]

theorem prepareReply_null (code command : Byte) :
    prepareReply mem' r code command .null 0 = prepareReply mem r code command .null 0 := rfl

theorem prepareUartReply_array (code subcommand : Byte) {bytes : List Byte} {length : Nat}
    (h : length ≤ bytes.length) :
    prepareUartReply mem' selected r code subcommand (.array bytes) length =
      prepareUartReply mem selected r code subcommand (.array bytes) length := by
  rw [prepareUartReply, prepareUartReply, DataPtr.read_array mem h, DataPtr.read_array mem' h]

theorem prepareUartReply_null (code subcommand : Byte) :
    prepareUartReply mem' selected r code subcommand .null 0 =
      prepareUartReply mem selected r code subcommand .null 0 := rfl

/-- The length is cut to eight bits, so it is at most that of the array. -/
theorem prepareSpiReply_mem (address : BitVec 16) (size : Nat) :
    prepareSpiReply mem' selected r address size = prepareSpiReply mem selected r address size :=
  prepareUartReply_array mem mem' selected r _ _ (Nat.mod_le _ _)

theorem prepareStandardReport_mem :
    prepareStandardReport mem' r selected = prepareStandardReport mem r selected := by
  simp only [prepareStandardReport, prepareReply_array mem mem' _ _ _ (Nat.le_refl _)]

theorem prepare8101_mem : prepare8101 mem' r = prepare8101 mem r := by
  simp only [prepare8101, prepareReply_array mem mem' _ _ _ (Nat.le_refl _)]

theorem processSubcommand_mem {data : Vector Byte joystickEpsize}
    (h : data[10] ≠ subcommandBluetoothManualPairing) :
    processSubcommand mem' selected r data = processSubcommand mem selected r data := by
  simp only [processSubcommand, if_neg h, prepareUartReply_null mem mem',
    prepareUartReply_array mem mem' _ _ _ _ (Nat.le_refl _), prepareSpiReply_mem mem mem']

theorem processOutReport_mem {data : Vector Byte joystickEpsize} {size : Nat}
    (h : ¬ (16 < size ∧ data[0] = 0x01 ∧ data[10] = subcommandBluetoothManualPairing)) :
    processOutReport mem' selected r data size = processOutReport mem selected r data size := by
  simp only [processOutReport, prepare8101_mem mem mem', prepareReply_null mem mem',
    prepareStandardReport_mem mem mem']
  by_cases hsub : data[0] = 0x01 ∧ 16 < size
  · have hne : data[10] ≠ subcommandBluetoothManualPairing :=
      fun hpair => h ⟨hsub.2, hsub.1, hpair⟩
    rw [processSubcommand_mem mem mem' selected r hne]
  · rw [if_neg hsub, if_neg hsub]

theorem readyToSend_mem : readyToSend mem' selected r = readyToSend mem selected r := by
  simp only [readyToSend, prepareStandardReport_mem mem mem']

end Copies

/-- No pairing request is handled, or it meets a pending reply. -/
def PairingFree (r : ResponseManager) : UsbEvent → Prop
  | .out _ _ packet => r.nextPacketReady = true ∨ ¬ AsksPairing packet
  | .poll _ _ => True

/-- **The step**: without a pairing request or an oversized read, the memory does not
matter. -/
theorem next_sameRequest {r : ResponseManager} {e e' : UsbEvent} (h : e.SameRequest e')
    (hfree : r.PairingFree e) (hin : r.InBounds e) :
    r.next e' = r.next e ∧ r.transmitted e' = r.transmitted e := by
  cases h with
  | out mem mem' selected packet =>
    refine ⟨?_, rfl⟩
    have hin' : r.InBounds (.out mem' selected packet) := hin
    rw [next_out hin, next_out hin']
    rcases hfree with hpending | hask
    · rw [handleOut_pending hpending, handleOut_pending hpending]
    · rw [asksPairing_iff] at hask
      exact processOutReport_mem mem mem' selected r hask
  | poll mem mem' selected =>
    simp only [next, transmitted, sendInReport, readyToSend_mem mem mem' selected r]
    exact ⟨trivial, trivial⟩

/-- The byte after the acknowledgement of a pairing request is the one at address 3. -/
theorem out_asksPairing {r : ResponseManager} (h : r.nextPacketReady = false) (mem : Memory)
    (selected selected' : StandardReport) {packet : List Byte} (hask : AsksPairing packet) :
    ∃ reply, (r.next (.out mem selected packet)).transmitted (.poll mem selected') = [reply] ∧
      reply[15] = mem.byte 0x03 := by
  obtain ⟨address, size, hq⟩ := hask.request
  have hprepared := handleOut_prepared h mem selected hq
  have hanswer : ((Request.subcommand subcommandBluetoothManualPairing address size).answer mem
      selected r.counter).2 = ([0x21, r.counter + counterIncrement] ++ selected.toBytes ++
        [0x81, subcommandBluetoothManualPairing]) ++ [mem.byte 0x03] := rfl
  have hin : r.InBounds (.out mem selected packet) := by
    refine .inr fun q hq' => ?_
    obtain rfl := Option.some.inj (hq.symm.trans hq')
    exact fun hread => absurd hread.1 (by decide)
  refine ⟨(handleOut mem selected r packet).replyBuffer.cells, ?_, ?_⟩
  · rw [next_out hin, transmitted, readyToSend_pending hprepared.ready]
  · rw [hprepared.cells_eq, hanswer, inPacket, Buffer.getElem_padded,
      List.getD_append_right _ _ _ _ (by simp)]
    simp

/-- After an overrun any packet may be sent. -/
theorem out_overrun {r : ResponseManager} {selected : StandardReport} {packet : List Byte}
    {mem : Memory} (hin : ¬ r.InBounds (.out mem selected packet))
    (hready : mem.overrunResponse.nextPacketReady = true) (selected' : StandardReport) :
    (r.next (.out mem selected packet)).transmitted (.poll mem selected') =
      [mem.overrunResponse.replyBuffer.cells] := by
  rw [next_out_overrun hin, transmitted, readyToSend_pending, overrun_cells]
  rw [overrun_nextPacketReady, hready]

end ResponseManager

/-- A packet that is full of one byte waits after an overrun. -/
def Memory.filled (b : Byte) : Memory :=
  { Memory.zero with
    byte := fun _ => b
    overrunResponse := ⟨Buffer.blank b, 0, true⟩ }

/-- **Replies depend only on the protocol**, manual pairing and oversized reads apart.  The
IN packet sent after an OUT report is the same for all contents of the memory exactly if a
reply was pending before, or the report is neither a manual pairing request nor an SPI read
of 45 to 250 bytes. -/
theorem reply_protocol_only (r : ResponseManager) (selected : StandardReport)
    (packet : List Byte) :
    (∀ (mem mem' : Memory) (selected' : StandardReport),
      (r.next (.out mem selected packet)).transmitted (.poll mem selected') =
        (r.next (.out mem' selected packet)).transmitted (.poll mem' selected')) ↔
      r.nextPacketReady = true ∨
        (¬ AsksPairing packet ∧ ∀ q, request packet = some q → ¬ q.Oversized) := by
  constructor
  · intro hsame
    have hfilled := hsame (.filled 0) (.filled 1) selected
    cases hready : r.nextPacketReady with
    | true => exact .inl rfl
    | false =>
      refine .inr ⟨fun hask => ?_, ?_⟩
      · obtain ⟨reply, hsent, hbyte⟩ := r.out_asksPairing hready (.filled 0) selected selected hask
        obtain ⟨reply', hsent', hbyte'⟩ :=
          r.out_asksPairing hready (.filled 1) selected selected hask
        rw [hsent, hsent', List.cons_eq_cons] at hfilled
        rw [hfilled.1, hbyte'] at hbyte
        exact absurd hbyte (by decide)
      · by_contra hover
        have hout : ∀ mem, ¬ r.InBounds (.out mem selected packet) := by
          rintro mem (hpending | hin)
          · rw [hready] at hpending
            cases hpending
          · exact hover hin
        rw [r.out_overrun (hout _) rfl, r.out_overrun (hout _) rfl] at hfilled
        exact absurd hfilled (by decide)
  · intro hcond mem mem' selected'
    have hfree : r.PairingFree (.out mem' selected packet) := hcond.imp_right And.left
    have hin : r.InBounds (.out mem' selected packet) := hcond.imp_right And.right
    have hout := (ResponseManager.next_sameRequest (.out mem' mem selected packet) hfree hin).1
    rw [hout]
    exact (ResponseManager.next_sameRequest (.poll mem' mem selected') trivial trivial).2

/-- A pairing request right after the first IN packet: two memories, two replies. -/
theorem reply_shows_address_three :
    let r := Trace.run ResponseManager.next (.setupResponseManager .zero)
      [.poll .zero initializeIdleReport]
    let packet : List Byte :=
      [0x01, 0, 0, 0, 0, 0, 0, 0, 0, 0, 0x01, 0, 0, 0, 0, 0, 0]
    let mem : Memory := .zero
    let mem' : Memory := { Memory.zero with byte := fun a => if a = 3 then 0x5A else 0 }
    (r.next (.out mem initializeIdleReport packet)).transmitted
        (.poll mem initializeIdleReport) ≠
      (r.next (.out mem' initializeIdleReport packet)).transmitted
        (.poll mem' initializeIdleReport) := by
  decide +kernel

/-- **Runs without such requests.**  On the same requests, and whatever the memory holds
at each of them, the same packets are sent. -/
theorem ResponseManager.observe_sameRequests {r : ResponseManager} {es es' : List UsbEvent}
    (h : List.Forall₂ UsbEvent.SameRequest es es') (hfree : Trace.Always next PairingFree r es)
    (hin : Trace.Always next InBounds r es) :
    Trace.observe next transmitted r es' = Trace.observe next transmitted r es := by
  induction h generalizing r with
  | nil => rfl
  | cons hsame _ ih =>
    obtain ⟨hnext, hsent⟩ := next_sameRequest hsame hfree.1 hin.1
    rw [Trace.observe_cons, Trace.observe_cons, hnext, hsent, ih hfree.2 hin.2]

end XInputSwitch
