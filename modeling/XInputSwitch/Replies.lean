import XInputSwitch.Mailbox
import XInputSwitch.Response

/-! # What the reply manager is for

Five functions prepare packets, each testing `nextPacketReady`, and some call one
another.  Behind them is a mailbox with room for one packet: an OUT report asks for
something (`request`), the answer is a list of bytes and possibly a new value of the
counter (`Request.answer`), and the packet is that list, padded with zeros.

An answer fits the IN buffer unless it is that to an SPI read of 45 to 250 bytes;
the longest reads wrap around the 8-bit length and fit again (`answer_length_le_iff`).

`Prepared` says what preparing a packet does to the static variables, the indices
written included; there is one such lemma for each function.  From them, every
event that writes inside the buffer (`InBounds`) moves the reply manager as it moves the
mailbox (`next_refines`, `transmitted_refines`), from any state.
-/
namespace XInputSwitch

/-! ## Requests and answers -/

inductive Request where
  /-- an OUT report that starts with `0x80` -/
  | command (c : Byte)
  /-- one that starts with `0x01`; the last two are read from the place where an SPI
  read has its address and size -/
  | subcommand (sub : Byte) (address : BitVec 16) (size : Byte)
deriving DecidableEq, Repr

/-- What a report of a given size asks for, if it is to be answered. -/
def Request.ofReport (size : Nat) (data : Vector Byte joystickEpsize) : Option Request :=
  if data.get 0 = 0x80 then some (.command (data.get 1))
  else if data.get 0 = 0x01 ∧ 16 < size then
    some (.subcommand (data.get 10)
      (((data.get 12).setWidth 16 <<< 8) ||| (data.get 11).setWidth 16) (data.get 15))
  else none

/-- The address that a report asks to read from: 32 bits, least significant byte first. -/
def requestedAddress (data : Vector Byte joystickEpsize) : Nat :=
  (data.get 11).toNat + 0x100 * (data.get 12).toNat + 0x10000 * (data.get 13).toNat +
    0x1000000 * (data.get 14).toNat

def request (packet : List Byte) : Option Request :=
  Request.ofReport (reportSize packet) (switchResponseBuffer packet)

section OfReport
variable {size : Nat} {data : Vector Byte joystickEpsize}

theorem Request.ofReport_command (h : data[0] = 0x80) :
    Request.ofReport size data = some (.command data[1]) :=
  if_pos h

theorem Request.ofReport_subcommand (h₀ : ¬ data[0] = 0x80) (h₁ : data[0] = 0x01 ∧ 16 < size) :
    Request.ofReport size data = some (.subcommand data[10]
      ((data[12].setWidth 16 <<< 8) ||| data[11].setWidth 16) data[15]) :=
  (if_neg h₀).trans (if_pos h₁)

theorem Request.ofReport_other (h₀ : ¬ data[0] = 0x80) (h₁ : ¬ (data[0] = 0x01 ∧ 16 < size)) :
    Request.ofReport size data = none :=
  (if_neg h₀).trans (if_neg h₁)

end OfReport

/-- The answer to an SPI read, cut as the length argument is. -/
def spiAnswer (address : BitVec 16) (size : Byte) : List Byte :=
  let answer := [address.setWidth 8, (address >>> 8).setWidth 8, 0x00, 0x00, size] ++
    (spiRead address size.toNat).cells.toList
  answer.take (answer.length % 2 ^ 8)

/-- How a subcommand is acknowledged: a code, and data. -/
def acknowledgement (mem : Memory) (sub : Byte) (address : BitVec 16) (size : Byte) :
    Byte × List Byte :=
  if sub = subcommandBluetoothManualPairing then (0x81, [mem.byte 0x03])
  else if sub = subcommandRequestDeviceInfo then (0x82, ResponseManager.deviceInfo)
  else if sub = subcommandTriggerButtonsElapsedTime then (0x83, [])
  else if sub = subcommandSetNfcIrMcuConfig then (0xA0, ResponseManager.nfcIrMcuConfig)
  else if sub = subcommandSpiFlashRead then (0x90, spiAnswer address size)
  else (0x80, [])

/-- A standard report with its timer byte. -/
def standardReply (counter : Byte) (selected : StandardReport) : List Byte :=
  [0x30, counter] ++ selected.toBytes

/-- The counter after a request is answered, and the bytes of the answer. -/
def Request.answer (mem : Memory) (selected : StandardReport) (counter : Byte) :
    Request → Byte × List Byte
  | .command c =>
    if c = 0x01 then (counter, [0x81, 0x01, 0x00, 0x03] ++ macAddress)
    else if c = 0x04 then
      (counter + counterIncrement, standardReply (counter + counterIncrement) selected)
    else (counter, [0x81, c])
  | .subcommand sub address size =>
    let ack := acknowledgement mem sub address size
    (counter + counterIncrement,
      [0x21, counter + counterIncrement] ++ selected.toBytes ++ [ack.1, sub] ++ ack.2)

/-- The packet that carries an answer. -/
def inPacket (contents : List Byte) : Vector Byte joystickEpsize := Buffer.padded 0 contents

/-! ## The length of an answer -/

/-- An SPI read whose answer does not fit. -/
def Request.Oversized : Request → Prop
  | .command _ => False
  | .subcommand sub _ size => sub = subcommandSpiFlashRead ∧ 45 ≤ size.toNat ∧ size.toNat ≤ 250

instance : DecidablePred Request.Oversized
  | .command _ => inferInstanceAs (Decidable False)
  | .subcommand sub _ size => inferInstanceAs (Decidable
      (sub = subcommandSpiFlashRead ∧ 45 ≤ size.toNat ∧ size.toNat ≤ 250))

theorem spiAnswer_length (address : BitVec 16) (size : Byte) :
    (spiAnswer address size).length = (5 + size.toNat) % 256 := by
  simp only [spiAnswer, List.length_take, List.length_append, List.length_cons, List.length_nil,
    Vector.length_toList]
  omega

/-- Data of an acknowledgement other than an SPI read's are short. -/
theorem acknowledgement_length {sub : Byte} (h : sub ≠ subcommandSpiFlashRead) (mem : Memory)
    (address : BitVec 16) (size : Byte) : (acknowledgement mem sub address size).2.length ≤ 12 := by
  unfold acknowledgement
  repeat' split
  all_goals first | contradiction | exact Nat.zero_le _ | decide | simp

/-- **Which answers fit the buffer.** -/
theorem answer_length_le_iff (q : Request) (mem : Memory) (selected : StandardReport)
    (counter : Byte) :
    (q.answer mem selected counter).2.length ≤ joystickEpsize ↔ ¬ q.Oversized := by
  cases q with
  | command c =>
    simp only [Request.Oversized, not_false_eq_true, iff_true, Request.answer]
    split
    · simp [macAddress, joystickEpsize]
    · split <;> simp [standardReply, joystickEpsize]
  | subcommand sub address size =>
    simp only [Request.answer, Request.Oversized, List.length_append, List.length_cons,
      List.length_nil, StandardReport.toBytes_length]
    by_cases hsub : sub = subcommandSpiFlashRead
    · have hack : (acknowledgement mem sub address size).2 = spiAnswer address size := by
        rw [hsub]; rfl
      have hsize := size.isLt
      rw [hack, spiAnswer_length]
      simp only [hsub, true_and, joystickEpsize]
      omega
    · have hlen := acknowledgement_length hsub mem address size
      simp only [hsub, false_and, not_false_eq_true, iff_true, joystickEpsize]
      omega

/-! ## Preparing a packet -/

namespace ResponseManager

/-- `r'` is `r` with a packet prepared. -/
structure Prepared (r : ResponseManager) (answer : Byte × List Byte) (r' : ResponseManager) :
    Prop where
  ready : r'.nextPacketReady = true
  counter_eq : r'.counter = answer.1
  cells_eq : r'.replyBuffer.cells = inPacket answer.2
  touched_iff : ∀ j, j ∈ r'.replyBuffer.touched ↔
    j ∈ r.replyBuffer.touched ∨ j < joystickEpsize ∨ j < answer.2.length

section Prepare
variable {r : ResponseManager} (h : r.nextPacketReady = false) (mem : Memory)
include h

theorem prepareReply_prepared (code command : Byte) (data : DataPtr) (length : Nat) :
    r.Prepared (r.counter, [code, command] ++ data.read mem length)
      (prepareReply mem r code command data length) := by
  rw [prepareReply, if_neg (Bool.eq_false_iff.mp h)]
  refine ⟨rfl, rfl, ?_, ?_⟩
  · have h₀ := r.replyBuffer.fill_cells 0
    have h₁ := Buffer.store_padded h₀ code
    have h₂ := Buffer.store_padded h₁ command
    exact Buffer.copy_padded h₂ (data.read mem length)
  · intro j
    simp only [Buffer.mem_touched_copy, Buffer.mem_touched_store, Buffer.mem_touched_fill,
      List.length_append, List.length_cons, List.length_nil, joystickEpsize]
    by_cases hj : j ∈ r.replyBuffer.touched <;> simp only [hj, or_true, true_or, false_or]
    omega

theorem prepareUartReply_prepared (selected : StandardReport) (code subcommand : Byte)
    (data : DataPtr) (length : Nat) :
    r.Prepared
      (r.counter + counterIncrement,
        [0x21, r.counter + counterIncrement] ++ selected.toBytes ++ [code, subcommand] ++
          data.read mem length)
      (prepareUartReply mem selected r code subcommand data length) := by
  rw [prepareUartReply, if_neg (Bool.eq_false_iff.mp h)]
  refine ⟨rfl, rfl, ?_, ?_⟩
  · have h₀ := r.replyBuffer.fill_cells 0
    have h₁ := Buffer.store_padded h₀ 0x21
    have h₂ := Buffer.store_padded h₁ (r.counter + counterIncrement)
    have h₃ := Buffer.copy_padded h₂ selected.toBytes
    have h₄ := Buffer.store_padded h₃ code
    have h₅ := Buffer.store_padded h₄ subcommand
    have h₆ := Buffer.copy_padded h₅ (data.read mem length)
    simpa [inPacket] using h₆
  · intro j
    simp only [Buffer.mem_touched_copy, Buffer.mem_touched_store, Buffer.mem_touched_fill,
      List.length_append, List.length_cons, List.length_nil, StandardReport.toBytes_length,
      joystickEpsize]
    by_cases hj : j ∈ r.replyBuffer.touched <;> simp only [hj, or_true, true_or, false_or]
    omega

theorem prepareSpiReply_prepared (selected : StandardReport) (address : BitVec 16) (size : Byte) :
    r.Prepared
      (r.counter + counterIncrement,
        [0x21, r.counter + counterIncrement] ++ selected.toBytes ++
          [0x90, subcommandSpiFlashRead] ++ spiAnswer address size)
      (prepareSpiReply mem selected r address size.toNat) := by
  have := prepareUartReply_prepared h mem selected 0x90 subcommandSpiFlashRead
    (.array ([address.setWidth 8, (address >>> 8).setWidth 8, 0x00, 0x00,
      BitVec.ofNat 8 size.toNat] ++ (spiRead address size.toNat).cells.toList))
    (([address.setWidth 8, (address >>> 8).setWidth 8, 0x00, 0x00, BitVec.ofNat 8 size.toNat] ++
      (spiRead address size.toNat).cells.toList).length % 2 ^ 8)
  -- cut to eight bits, the length is at most that of the array
  rw [DataPtr.read_array mem (Nat.mod_le _ _), BitVec.ofNat_toNat, BitVec.setWidth_eq] at this
  rw [prepareSpiReply, BitVec.ofNat_toNat, BitVec.setWidth_eq]
  exact this

theorem prepareStandardReport_prepared (selected : StandardReport) :
    r.Prepared
      (r.counter + counterIncrement, standardReply (r.counter + counterIncrement) selected)
      (prepareStandardReport mem r selected) := by
  rw [prepareStandardReport, if_neg (Bool.eq_false_iff.mp h)]
  have hp := prepareReply_prepared (r := { r with counter := r.counter + counterIncrement }) h mem
    0x30 (r.counter + counterIncrement) (.array selected.toBytes) selected.toBytes.length
  rw [DataPtr.read_array mem (Nat.le_refl _), List.take_length] at hp
  exact ⟨hp.ready, hp.counter_eq, hp.cells_eq, hp.touched_iff⟩

theorem prepare8101_prepared :
    r.Prepared (r.counter, [0x81, 0x01, 0x00, 0x03] ++ macAddress) (prepare8101 mem r) := by
  rw [prepare8101, if_neg (Bool.eq_false_iff.mp h)]
  exact prepareReply_prepared h mem 0x81 0x01 (.array ([0x00, 0x03] ++ macAddress)) 8

end Prepare

/-! ## OUT reports -/

/-- The subcommands acknowledged without data. -/
theorem acknowledgement_plain {mem : Memory} {sub : Byte} {address : BitVec 16} {size : Byte}
    (h : sub = subcommandSetInputReportMode ∨ sub = subcommandSetShipmentLowPowerState ∨
      sub = subcommandSetPlayerLights ∨ sub = subcommandSetHomeLights ∨
      sub = subcommandEnableImu ∨ sub = subcommandEnableVibration) :
    acknowledgement mem sub address size = (0x80, []) := by
  rcases h with rfl | rfl | rfl | rfl | rfl | rfl <;> rfl

theorem processSubcommand_prepared {r : ResponseManager} (h : r.nextPacketReady = false)
    (mem : Memory) (selected : StandardReport) (data : Vector Byte joystickEpsize) :
    r.Prepared
      ((Request.subcommand data[10]
        ((data[12].setWidth 16 <<< 8) ||| data[11].setWidth 16) data[15]).answer mem selected
          r.counter)
      (processSubcommand mem selected r data) := by
  have huart : ∀ code (ptr : DataPtr) length,
      acknowledgement mem data[10] ((data[12].setWidth 16 <<< 8) ||| data[11].setWidth 16)
          data[15] = (code, ptr.read mem length) →
      r.Prepared
        ((Request.subcommand data[10]
          ((data[12].setWidth 16 <<< 8) ||| data[11].setWidth 16) data[15]).answer mem selected
            r.counter)
        (prepareUartReply mem selected r code data[10] ptr length) := by
    intro code ptr length hack
    simp only [Request.answer, hack]
    exact prepareUartReply_prepared h mem selected code data[10] ptr length
  -- one case for each branch of the source, in its order
  unfold processSubcommand
  by_cases h₁ : data[10] = subcommandBluetoothManualPairing
  · rw [if_pos h₁]
    exact huart _ (.address 0x03) 1 (by rw [h₁]; rfl)
  by_cases h₂ : data[10] = subcommandRequestDeviceInfo
  · rw [if_neg h₁, if_pos h₂]
    exact huart _ (.array deviceInfo) _ (by rw [h₂]; rfl)
  by_cases h₃ : data[10] = subcommandSetInputReportMode ∨
      data[10] = subcommandSetShipmentLowPowerState ∨ data[10] = subcommandSetPlayerLights ∨
      data[10] = subcommandSetHomeLights ∨ data[10] = subcommandEnableImu ∨
      data[10] = subcommandEnableVibration
  · rw [if_neg h₁, if_neg h₂, if_pos h₃]
    exact huart _ .null 0 (acknowledgement_plain h₃)
  by_cases h₄ : data[10] = subcommandTriggerButtonsElapsedTime
  · rw [if_neg h₁, if_neg h₂, if_neg h₃, if_pos h₄]
    exact huart _ .null 0 (by rw [h₄]; rfl)
  by_cases h₅ : data[10] = subcommandSetNfcIrMcuConfig
  · rw [if_neg h₁, if_neg h₂, if_neg h₃, if_neg h₄, if_pos h₅]
    exact huart _ (.array nfcIrMcuConfig) _ (by rw [h₅]; rfl)
  by_cases h₆ : data[10] = subcommandSpiFlashRead
  · rw [if_neg h₁, if_neg h₂, if_neg h₃, if_neg h₄, if_neg h₅, if_pos h₆]
    have hack : ∀ address size, acknowledgement mem subcommandSpiFlashRead address size =
        (0x90, spiAnswer address size) := fun _ _ => rfl
    simp only [Request.answer, h₆, hack]
    exact prepareSpiReply_prepared h mem selected _ data[15]
  · rw [if_neg h₁, if_neg h₂, if_neg h₃, if_neg h₄, if_neg h₅, if_neg h₆]
    refine huart _ .null 0 ?_
    rw [acknowledgement, if_neg h₁, if_neg h₂, if_neg h₄, if_neg h₅, if_neg h₆]
    rfl

/-- **An answerable OUT report prepares its answer** when nothing waits. -/
theorem handleOut_prepared {r : ResponseManager} (h : r.nextPacketReady = false) (mem : Memory)
    (selected : StandardReport) {packet : List Byte} {q : Request}
    (hq : request packet = some q) :
    r.Prepared (q.answer mem selected r.counter) (handleOut mem selected r packet) := by
  simp only [handleOut, processOutReport]
  by_cases h₀ : (switchResponseBuffer packet)[0] = 0x80
  · rw [request, Request.ofReport_command h₀] at hq
    rw [if_pos h₀]
    obtain rfl := Option.some.inj hq
    by_cases h₁ : (switchResponseBuffer packet)[1] = 0x01
    · rw [if_pos h₁, Request.answer, if_pos h₁]
      exact prepare8101_prepared h mem
    · rw [if_neg h₁, Request.answer, if_neg h₁]
      by_cases h₂ : (switchResponseBuffer packet)[1] = 0x02 ∨
          (switchResponseBuffer packet)[1] = 0x03
      · have h₄ : ¬ (switchResponseBuffer packet)[1] = 0x04 := by
          rcases h₂ with h₂ | h₂ <;> rw [h₂] <;> decide
        rw [if_pos h₂, if_neg h₄]
        exact prepareReply_prepared h mem 0x81 _ .null 0
      · rw [if_neg h₂]
        by_cases h₄ : (switchResponseBuffer packet)[1] = 0x04
        · rw [if_pos h₄, if_pos h₄]
          exact prepareStandardReport_prepared h mem selected
        · rw [if_neg h₄, if_neg h₄]
          exact prepareReply_prepared h mem 0x81 _ .null 0
  · rw [if_neg h₀]
    by_cases h₁ : (switchResponseBuffer packet)[0] = 0x01 ∧ 16 < reportSize packet
    · rw [request, Request.ofReport_subcommand h₀ h₁] at hq
      rw [if_pos h₁]
      obtain rfl := Option.some.inj hq
      exact processSubcommand_prepared h mem selected _
    · rw [request, Request.ofReport_other h₀ h₁] at hq
      cases hq

/-- Any other OUT report does nothing. -/
theorem handleOut_unanswerable (r : ResponseManager) (mem : Memory) (selected : StandardReport)
    {packet : List Byte} (hq : request packet = none) :
    handleOut mem selected r packet = r := by
  have h₀ : ¬ (switchResponseBuffer packet)[0] = 0x80 := by
    intro h₀
    rw [request, Request.ofReport_command h₀] at hq
    cases hq
  have h₁ : ¬ ((switchResponseBuffer packet)[0] = 0x01 ∧ 16 < reportSize packet) := by
    intro h₁
    rw [request, Request.ofReport_subcommand h₀ h₁] at hq
    cases hq
  simp only [handleOut, processOutReport, if_neg h₀, if_neg h₁]

/-- **A pending reply is left alone** by every OUT report. -/
theorem handleOut_pending {r : ResponseManager} (h : r.nextPacketReady = true) (mem : Memory)
    (selected : StandardReport) (packet : List Byte) :
    handleOut mem selected r packet = r := by
  have hreply : ∀ code command data length,
      prepareReply mem r code command data length = r := fun _ _ _ _ => if_pos h
  have huart : ∀ code sub data length,
      prepareUartReply mem selected r code sub data length = r := fun _ _ _ _ => if_pos h
  have hspi : ∀ address size, prepareSpiReply mem selected r address size = r :=
    fun _ _ => huart _ _ _ _
  have hstandard : prepareStandardReport mem r selected = r := if_pos h
  have h8101 : prepare8101 mem r = r := if_pos h
  simp only [handleOut, processOutReport, processSubcommand, hreply, huart, hspi, hstandard,
    h8101, ite_self]

/-! ## Inside the buffer -/

/-- No oversized read is handled, or it meets a pending reply. -/
def InBounds (r : ResponseManager) : UsbEvent → Prop
  | .out _ _ packet => r.nextPacketReady = true ∨ ∀ q, request packet = some q → ¬ q.Oversized
  | .poll _ _ => True

instance (r : ResponseManager) (e : UsbEvent) : Decidable (r.InBounds e) :=
  match e with
  | .out _ _ packet =>
    inferInstanceAs (Decidable (r.nextPacketReady = true ∨ ∀ q ∈ request packet, ¬ q.Oversized))
  | .poll _ _ => .isTrue trivial

/-- **When a packet makes a write leave the buffer.** -/
theorem overruns_iff (r : ResponseManager) (mem : Memory) (selected : StandardReport)
    (packet : List Byte) :
    overruns mem selected r packet = true ↔ ¬ r.InBounds (.out mem selected packet) := by
  have hrecord : r.unrecorded.replyBuffer.touched = [] := rfl
  rw [overruns, List.any_eq_true, InBounds, not_or, Bool.not_eq_true]
  cases h : r.nextPacketReady with
  | true =>
    rw [handleOut_pending (r := r.unrecorded) h, hrecord]
    simp
  | false =>
    cases hq : request packet with
    | none =>
      rw [handleOut_unanswerable r.unrecorded mem selected hq, hrecord]
      simp
    | some q =>
      have htouched := (handleOut_prepared (r := r.unrecorded) h mem selected hq).touched_iff
      have hlen := answer_length_le_iff q mem selected r.unrecorded.counter
      constructor
      · rintro ⟨j, hj, hge⟩
        refine ⟨rfl, fun hno => ?_⟩
        have hge : joystickEpsize ≤ j := of_decide_eq_true hge
        have hfits := hlen.mpr (hno q rfl)
        rcases (htouched j).mp hj with hj | hj | hj
        · rw [hrecord] at hj
          cases hj
        · omega
        · omega
      · rintro ⟨-, hover⟩
        have hlong : ¬ (q.answer mem selected r.unrecorded.counter).2.length ≤ joystickEpsize := by
          intro hfits
          exact hover fun q' hq' => Option.some.inj hq' ▸ hlen.mp hfits
        refine ⟨joystickEpsize, (htouched _).mpr (.inr (.inr (Nat.lt_of_not_le hlong))), ?_⟩
        exact decide_eq_true (Nat.le_refl _)

theorem next_out {r : ResponseManager} {mem : Memory} {selected : StandardReport}
    {packet : List Byte} (h : r.InBounds (.out mem selected packet)) :
    r.next (.out mem selected packet) = handleOut mem selected r packet := by
  have hno : ¬ overruns mem selected r packet = true := fun ho => (overruns_iff ..).mp ho h
  simp only [next, if_neg hno]

theorem next_out_overrun {r : ResponseManager} {mem : Memory} {selected : StandardReport}
    {packet : List Byte} (h : ¬ r.InBounds (.out mem selected packet)) :
    r.next (.out mem selected packet) = overrun mem (handleOut mem selected r packet) := by
  simp only [next, if_pos ((overruns_iff ..).mpr h)]

/-- A pending reply is left alone. -/
theorem out_pending {r : ResponseManager} (h : r.nextPacketReady = true) (mem : Memory)
    (selected : StandardReport) (packet : List Byte) :
    r.next (.out mem selected packet) = r := by
  rw [next_out (.inl h), handleOut_pending h]

/-! ## IN packets -/

theorem readyToSend_pending {r : ResponseManager} (h : r.nextPacketReady = true) (mem : Memory)
    (selected : StandardReport) : readyToSend mem selected r = r := by
  simp only [readyToSend, h, Bool.not_true, Bool.false_eq_true, if_false]

theorem readyToSend_prepared {r : ResponseManager} (h : r.nextPacketReady = false) (mem : Memory)
    (selected : StandardReport) :
    r.Prepared
      (r.counter + counterIncrement, standardReply (r.counter + counterIncrement) selected)
      (readyToSend mem selected r) := by
  simp only [readyToSend, h, Bool.not_false, if_true]
  exact prepareStandardReport_prepared h mem selected

/-- Sending clears the flag. -/
theorem poll_nextPacketReady (r : ResponseManager) (mem : Memory) (selected : StandardReport) :
    (r.next (.poll mem selected)).nextPacketReady = false := rfl

end ResponseManager

/-! ## The mailbox -/

/-- Answers as packets: a request comes with the memory and the report it finds. -/
def mailbox : Mailbox Byte (Memory × StandardReport × List Byte) StandardReport
    (Vector Byte joystickEpsize) where
  answerable r := (request r.2.2).isSome
  reply counter r :=
    match request r.2.2 with
    | some q => ((q.answer r.1 r.2.1 counter).1, inPacket (q.answer r.1 r.2.1 counter).2)
    | none => (counter, inPacket [])
  idle counter selected :=
    (counter + counterIncrement, inPacket (standardReply (counter + counterIncrement) selected))

theorem mailbox_answerable (r : Memory × StandardReport × List Byte) :
    mailbox.answerable r = (request r.2.2).isSome := by
  simp only [mailbox]

theorem mailbox_reply {r : Memory × StandardReport × List Byte} {q : Request}
    (h : request r.2.2 = some q) (counter : Byte) :
    mailbox.reply counter r =
      ((q.answer r.1 r.2.1 counter).1, inPacket (q.answer r.1 r.2.1 counter).2) := by
  simp only [mailbox, h]

theorem mailbox_idle (counter : Byte) (selected : StandardReport) :
    mailbox.idle counter selected =
      (counter + counterIncrement,
        inPacket (standardReply (counter + counterIncrement) selected)) :=
  rfl

/-- An event of the USB side as the mailbox sees it. -/
def UsbEvent.toMailbox :
    UsbEvent → Mailbox.Event (Memory × StandardReport × List Byte) StandardReport
  | .out mem selected packet => .request (mem, selected, packet)
  | .poll _ selected => .poll selected

namespace ResponseManager

/-- The packet waits in `replyBuffer` while the flag says so. -/
def toMailbox (r : ResponseManager) : Mailbox.State Byte (Vector Byte joystickEpsize) :=
  ⟨r.counter, if r.nextPacketReady then some r.replyBuffer.cells else none⟩

theorem toMailbox_of_pending {r : ResponseManager} (h : r.nextPacketReady = true) :
    r.toMailbox = ⟨r.counter, some r.replyBuffer.cells⟩ := by
  rw [toMailbox, if_pos h]

theorem toMailbox_of_empty {r : ResponseManager} (h : r.nextPacketReady = false) :
    r.toMailbox = ⟨r.counter, none⟩ := by
  rw [toMailbox, if_neg (Bool.eq_false_iff.mp h)]

theorem Prepared.toMailbox {r r' : ResponseManager} {answer : Byte × List Byte}
    (h : r.Prepared answer r') : r'.toMailbox = ⟨answer.1, some (inPacket answer.2)⟩ := by
  rw [toMailbox_of_pending h.ready, h.counter_eq, h.cells_eq]

/-- **The step of the refinement.** -/
theorem next_refines (r : ResponseManager) (e : UsbEvent) (hin : r.InBounds e) :
    (r.next e).toMailbox = mailbox.next r.toMailbox e.toMailbox := by
  cases e with
  | out mem selected packet =>
    rw [next_out hin]
    cases h : r.nextPacketReady with
    | true => rw [handleOut_pending h, toMailbox_of_pending h]; rfl
    | false =>
      rw [toMailbox_of_empty h]
      cases hq : request packet with
      | none =>
        rw [handleOut_unanswerable r mem selected hq, toMailbox_of_empty h]
        simp [Mailbox.next, UsbEvent.toMailbox, mailbox, hq]
      | some q =>
        rw [(handleOut_prepared h mem selected hq).toMailbox]
        simp [Mailbox.next, UsbEvent.toMailbox, mailbox, hq]
  | poll mem selected =>
    rw [toMailbox_of_empty (poll_nextPacketReady r mem selected)]
    cases h : r.nextPacketReady with
    | true =>
      rw [toMailbox_of_pending h]
      simp [next, sendInReport, readyToSend_pending h, Mailbox.next, UsbEvent.toMailbox]
    | false =>
      rw [toMailbox_of_empty h]
      simp [next, sendInReport, (readyToSend_prepared h mem selected).counter_eq, Mailbox.next,
        UsbEvent.toMailbox, mailbox]

theorem transmitted_refines (r : ResponseManager) (e : UsbEvent) :
    r.transmitted e = mailbox.sent r.toMailbox e.toMailbox := by
  cases e with
  | out mem selected packet => rfl
  | poll mem selected =>
    cases h : r.nextPacketReady with
    | true =>
      rw [toMailbox_of_pending h]
      simp [transmitted, readyToSend_pending h, Mailbox.sent, UsbEvent.toMailbox]
    | false =>
      rw [toMailbox_of_empty h]
      simp [transmitted, (readyToSend_prepared h mem selected).cells_eq, Mailbox.sent,
        UsbEvent.toMailbox, mailbox]

/-- **Runs of the reply manager are runs of the mailbox**, as long as no write leaves the
buffer. -/
theorem run_refines {r : ResponseManager} {es : List UsbEvent}
    (hes : Trace.Always next InBounds r es) :
    (Trace.run next r es).toMailbox =
      Trace.run mailbox.next r.toMailbox (es.map UsbEvent.toMailbox) := by
  rw [List.map_eq_flatMap, ← Trace.observe_events next _ r es]
  exact hes.run_simulates (I := fun _ => True) (fun _ _ _ _ => trivial)
    (fun r e _ hin => r.next_refines e hin) trivial

theorem observe_transmitted {r : ResponseManager} {es : List UsbEvent}
    (hes : Trace.Always next InBounds r es) :
    Trace.observe next transmitted r es =
      Trace.observe mailbox.next mailbox.sent r.toMailbox (es.map UsbEvent.toMailbox) := by
  have hview : ∀ (r : ResponseManager) (e : UsbEvent), True → r.InBounds e →
      [] ++ Trace.observe mailbox.next mailbox.sent r.toMailbox [e.toMailbox] =
        r.transmitted e ++ [] := by
    intro r e _ _
    rw [transmitted_refines, Trace.observe_cons, Trace.observe_nil]
    rfl
  have h := hes.observe_simulates (I := fun _ => True) (fun _ _ _ _ => trivial)
    (fun r e _ hin => r.next_refines e hin) hview trivial
  rw [Trace.observe_events, ← List.map_eq_flatMap, List.nil_append, List.append_nil] at h
  exact h.symm

end ResponseManager
end XInputSwitch
