import XInputSwitch.TornRead
import XInputSwitch.Firmware

/-! # Interrupts in the middle of a copy

The main program copies the selected report into `replyBuffer` byte by byte, with
interrupts on, and the receive interrupt writes `controllerReport` as a whole.  Here the
main program is cut into operations (`Op`) and the interrupt may come between any two of
them, also while a report is copied.  Operations on the variables of `Response.c` alone
are kept together: the interrupt handler neither reads nor writes these, as long as no reply
is written past the end of its buffer.  That is a condition of both results (`InBounds`).

If no packet is completed while a report is copied, every run is a run of the firmware with
atomic events, on the same tasks, with some bytes received a little earlier or later
(`linearizable`).  In general the reply manager runs as it does on reports put together from
those that were held during the copy, each byte from the one held at its moment
(`interrupted_reports`).

The load of the pointer `*selectedReportPtr` is one operation, although it takes the
processor two instructions.
-/
namespace XInputSwitch

/-! ## Reports from bytes -/

/-- The report with a given image. -/
def StandardReport.ofBytes (image : List Byte) : StandardReport :=
  let bit (i j : Nat) : Bool := (image.getD i 0).getLsbD j
  { connectionInfo := (image.getD 0 0).extractLsb' 0 4
    batteryLevel := (image.getD 0 0).extractLsb' 4 4
    buttonY := bit 1 0, buttonX := bit 1 1, buttonB := bit 1 2, buttonA := bit 1 3
    buttonRightSr := bit 1 4, buttonRightSl := bit 1 5, buttonR := bit 1 6, buttonZr := bit 1 7
    buttonMinus := bit 2 0, buttonPlus := bit 2 1, buttonThumbR := bit 2 2, buttonThumbL := bit 2 3
    buttonHome := bit 2 4, buttonCapture := bit 2 5, dummy := bit 2 6, chargingGrip := bit 2 7
    dpadDown := bit 3 0, dpadUp := bit 3 1, dpadRight := bit 3 2, dpadLeft := bit 3 3
    buttonLeftSr := bit 3 4, buttonLeftSl := bit 3 5, buttonL := bit 3 6, buttonZl := bit 3 7
    analog := Vector.ofFn fun i : Fin 6 => image.getD (4 + i) 0
    vibratorInputReport := image.getD 10 0 }

inductive Op where
  /-- `CALLBACK_beforeSend`, which masks the receive interrupt -/
  | beforeSend
  /-- instructions on the variables of `Response.c` -/
  | compute (f : ResponseManager → ResponseManager)
  /-- the value of `*selectedReportPtr` is read -/
  | loadPointer
  /-- one byte of the `memcpy` from the report, to `replyBuffer[2 + i]` -/
  | copyByte (i : Nat)
  /-- `replyBuffer` is written to the endpoint, and the flag cleared -/
  | transmit

/-- An operation without the function it computes. -/
inductive OpKind where
  | beforeSend
  | compute
  | loadPointer
  | copyByte (i : Nat)
  | transmit
deriving DecidableEq, Repr

def Op.kind : Op → OpKind
  | .beforeSend => .beforeSend
  | .compute _ => .compute
  | .loadPointer => .loadPointer
  | .copyByte i => .copyByte i
  | .transmit => .transmit

/-- The byte of the report that an operation copies. -/
def OpKind.index : OpKind → Option Nat
  | .copyByte i => some i
  | _ => none

/-- The operations that settle which report is copied. -/
def OpKind.setup : OpKind → Bool
  | .beforeSend | .loadPointer => true
  | _ => false

/-- `memcpy(&replyBuffer[2], report, sizeof(USB_StandardReport_t))`. -/
def copyReport : List Op := (List.range 11).map .copyByte

namespace ResponseManager

def prepareStandardReportOps (r : ResponseManager) : List Op :=
  if r.nextPacketReady then []
  else
    [.compute fun r => { r with counter := r.counter + counterIncrement },
     .compute fun r =>
      { r with replyBuffer := ((r.replyBuffer.fill 0).store 0 0x30).store 1 r.counter }] ++
    copyReport ++ [.compute fun r => { r with nextPacketReady := true }]

def prepareUartReplyOps (mem : Memory) (r : ResponseManager) (code subcommand : Byte)
    (data : DataPtr) (length : Nat) : List Op :=
  if r.nextPacketReady then []
  else
    [.compute fun r => { r with replyBuffer := (r.replyBuffer.fill 0).store 0 0x21 },
     .compute fun r => { r with counter := r.counter + counterIncrement },
     .compute fun r => { r with replyBuffer := r.replyBuffer.store 1 r.counter },
     .loadPointer] ++
    copyReport ++
    [.compute fun r =>
      { r with
        replyBuffer := ((r.replyBuffer.store 13 code).store 14 subcommand).copy 15
          (data.read mem length) },
     .compute fun r => { r with nextPacketReady := true }]

def prepareSpiReplyOps (mem : Memory) (r : ResponseManager) (address : BitVec 16) (size : Nat) :
    List Op :=
  let data := (spiRead address size).cells.toList
  let spiReplyBuffer : List Byte :=
    [address.setWidth 8, (address >>> 8).setWidth 8, 0x00, 0x00, BitVec.ofNat 8 size] ++ data
  prepareUartReplyOps mem r 0x90 subcommandSpiFlashRead (.array spiReplyBuffer)
    (spiReplyBuffer.length % 2 ^ 8)

/-- The subcommands of a report with first byte `0x01`. -/
def processSubcommandOps (mem : Memory) (r : ResponseManager) (reportData : List Byte) :
    List Op :=
  let subcommand := reportData.getD 10 0
  if subcommand = subcommandBluetoothManualPairing then
    prepareUartReplyOps mem r 0x81 subcommand (.address 0x03) 1
  else if subcommand = subcommandRequestDeviceInfo then
    prepareUartReplyOps mem r 0x82 subcommand (.array deviceInfo) deviceInfo.length
  else if subcommand = subcommandSetInputReportMode ∨
      subcommand = subcommandSetShipmentLowPowerState ∨
      subcommand = subcommandSetPlayerLights ∨ subcommand = subcommandSetHomeLights ∨
      subcommand = subcommandEnableImu ∨ subcommand = subcommandEnableVibration then
    prepareUartReplyOps mem r 0x80 subcommand .null 0
  else if subcommand = subcommandTriggerButtonsElapsedTime then
    prepareUartReplyOps mem r 0x83 subcommand .null 0
  else if subcommand = subcommandSetNfcIrMcuConfig then
    prepareUartReplyOps mem r 0xA0 subcommand (.array nfcIrMcuConfig) nfcIrMcuConfig.length
  else if subcommand = subcommandSpiFlashRead then
    let address : BitVec 16 :=
      ((reportData.getD 12 0).setWidth 16 <<< 8) ||| (reportData.getD 11 0).setWidth 16
    prepareSpiReplyOps mem r address (reportData.getD 15 0).toNat
  else
    prepareUartReplyOps mem r 0x80 subcommand .null 0

/-- `process_OUT_report`. -/
def processOutReportOps (mem : Memory) (r : ResponseManager) (reportData : List Byte)
    (reportSize : Nat) : List Op :=
  let command := reportData.getD 1 0
  if reportData.getD 0 0 = 0x80 then
    if command = 0x01 then [.compute (prepare8101 mem)]
    else if command = 0x02 ∨ command = 0x03 then
      [.compute fun r => prepareReply mem r 0x81 command .null 0]
    else if command = 0x04 then .loadPointer :: prepareStandardReportOps r
    else [.compute fun r => prepareReply mem r 0x81 command .null 0]
  else if reportData.getD 0 0 = 0x01 ∧ 16 < reportSize then
    processSubcommandOps mem r reportData
  else []

/-- `send_IN_report`. -/
def sendInReportOps (r : ResponseManager) : List Op :=
  [.beforeSend] ++
    (if !r.nextPacketReady then .loadPointer :: prepareStandardReportOps r else []) ++ [.transmit]

end ResponseManager

/-- What `HID_Task` does: handle an OUT packet, or send an IN packet. -/
inductive Task where
  | outReport (mem : Memory) (packet : List Byte)
  | inReport (mem : Memory)

def Task.ops (r : ResponseManager) : Task → List Op
  | .outReport mem packet =>
    r.processOutReportOps mem (switchResponseBuffer packet).toList (reportSize packet)
  | .inReport _ => r.sendInReportOps

/-! ## What a list of operations does to the reply manager -/

namespace Op

/-- The reply manager after `ops`, if the bytes copied from the report are `bytes`. -/
def exec : List Op → ResponseManager → List Byte → ResponseManager
  | [], r, _ => r
  | .beforeSend :: ops, r, bytes => exec ops r bytes
  | .compute f :: ops, r, bytes => exec ops (f r) bytes
  | .loadPointer :: ops, r, bytes => exec ops r bytes
  | .copyByte i :: ops, r, bytes =>
    exec ops { r with replyBuffer := r.replyBuffer.store (2 + i) (bytes.headD 0) } bytes.tail
  | .transmit :: ops, r, bytes => exec ops { r with nextPacketReady := false } bytes

/-- The bytes of the report that `ops` copies, by index. -/
def indices (ops : List Op) : List Nat := ops.filterMap fun op => op.kind.index

theorem exec_append (ops₁ ops₂ : List Op) (r : ResponseManager) (bytes : List Byte) :
    exec (ops₁ ++ ops₂) r bytes =
      exec ops₂ (exec ops₁ r bytes) (bytes.drop (indices ops₁).length) := by
  induction ops₁ generalizing r bytes with
  | nil => rfl
  | cons op ops ih =>
    cases op with
    | copyByte i => simp [exec, ih, indices, kind, OpKind.index]
    | _ => exact ih _ _

/-- Nothing copied, the bytes do not matter. -/
theorem exec_of_indices_nil {ops : List Op} (h : indices ops = []) (r : ResponseManager)
    (bytes bytes' : List Byte) : exec ops r bytes = exec ops r bytes' := by
  induction ops generalizing r with
  | nil => rfl
  | cons op ops ih =>
    cases op with
    | copyByte i => cases h
    | _ => exact ih h _

theorem exec_copyBytes (k n : Nat) (r : ResponseManager) {bytes : List Byte}
    (h : bytes.length = n) :
    exec ((List.range' k n).map .copyByte) r bytes =
      { r with replyBuffer := r.replyBuffer.copy (2 + k) bytes } := by
  induction n generalizing k r bytes with
  | zero =>
    obtain rfl := List.length_eq_zero_iff.mp h
    rfl
  | succ n ih =>
    obtain ⟨b, bytes, rfl⟩ := List.exists_cons_of_length_eq_add_one h
    rw [List.range'_succ, List.map_cons, exec, List.tail_cons, ih _ _ (by simpa using h)]
    rfl

/-- **The copy as one operation.** -/
theorem exec_copyReport (r : ResponseManager) {bytes : List Byte} (h : bytes.length = 11) :
    exec copyReport r bytes = { r with replyBuffer := r.replyBuffer.copy 2 bytes } := by
  rw [copyReport, List.range_eq_range']
  exact exec_copyBytes 0 11 r h

end Op

namespace ResponseManager
open Op (exec exec_append exec_copyReport)

theorem exec_prepareStandardReportOps (mem : Memory) (selected : StandardReport)
    (r : ResponseManager) :
    exec r.prepareStandardReportOps r selected.toBytes = prepareStandardReport mem r selected := by
  cases h : r.nextPacketReady with
  | true => simp [prepareStandardReportOps, prepareStandardReport, h, exec]
  | false =>
    simp [prepareStandardReportOps, prepareStandardReport, prepareReply, h, exec, exec_append,
      exec_copyReport, DataPtr.read_array, List.take_of_length_le]

theorem exec_prepareUartReplyOps (mem : Memory) (selected : StandardReport) (r : ResponseManager)
    (code subcommand : Byte) (data : DataPtr) (length : Nat) :
    exec (prepareUartReplyOps mem r code subcommand data length) r selected.toBytes =
      prepareUartReply mem selected r code subcommand data length := by
  cases h : r.nextPacketReady with
  | true => simp [prepareUartReplyOps, prepareUartReply, h, exec]
  | false =>
    simp [prepareUartReplyOps, prepareUartReply, h, exec, exec_append, exec_copyReport]

theorem getD_toList (data : Vector Byte joystickEpsize) (i : Nat) (h : i < joystickEpsize) :
    data.toList.getD i 0 = data[i] := by
  simp [h]

theorem exec_prepareSpiReplyOps (mem : Memory) (selected : StandardReport) (r : ResponseManager)
    (address : BitVec 16) (size : Nat) :
    exec (prepareSpiReplyOps mem r address size) r selected.toBytes =
      prepareSpiReply mem selected r address size :=
  exec_prepareUartReplyOps ..

theorem exec_processSubcommandOps (mem : Memory) (selected : StandardReport) (r : ResponseManager)
    (data : Vector Byte joystickEpsize) :
    exec (processSubcommandOps mem r data.toList) r selected.toBytes =
      processSubcommand mem selected r data := by
  simp only [processSubcommandOps, processSubcommand, apply_ite (exec · r selected.toBytes),
    exec_prepareUartReplyOps, exec_prepareSpiReplyOps,
    getD_toList data 10 (by decide), getD_toList data 11 (by decide),
    getD_toList data 12 (by decide), getD_toList data 15 (by decide)]

theorem exec_processOutReportOps (mem : Memory) (selected : StandardReport) (r : ResponseManager)
    (data : Vector Byte joystickEpsize) (size : Nat) :
    exec (processOutReportOps mem r data.toList size) r selected.toBytes =
      processOutReport mem selected r data size := by
  simp only [processOutReportOps, processOutReport, apply_ite (exec · r selected.toBytes),
    exec_processSubcommandOps, exec, exec_prepareStandardReportOps mem,
    getD_toList data 0 (by decide), getD_toList data 1 (by decide)]

theorem exec_sendInReportOps (mem : Memory) (selected : StandardReport) (r : ResponseManager) :
    exec r.sendInReportOps r selected.toBytes = sendInReport mem selected r := by
  cases h : r.nextPacketReady with
  | true => simp [sendInReportOps, sendInReport, readyToSend, h, exec]
  | false =>
    simp [sendInReportOps, sendInReport, readyToSend, h, exec, exec_append,
      exec_prepareStandardReportOps mem]

end ResponseManager

def Task.event (selected : StandardReport) : Task → UsbEvent
  | .outReport mem packet => .out mem selected packet
  | .inReport mem => .poll mem selected

/-- Whether a task writes inside the buffer does not depend on the report it finds. -/
theorem Task.inBounds_event {task : Task} {r : ResponseManager} {selected : StandardReport}
    (h : r.InBounds (task.event selected)) (selected' : StandardReport) :
    r.InBounds (task.event selected') := by
  cases task <;> exact h

/-- **The operations of a task amount to the task**, with the bytes they copy in the place of
the selected report. -/
theorem Task.exec_ops {task : Task} {r : ResponseManager} {selected : StandardReport}
    (h : r.InBounds (task.event selected)) :
    Op.exec (task.ops r) r selected.toBytes = r.next (task.event selected) := by
  cases task with
  | outReport mem packet =>
    have hin : r.InBounds (.out mem selected packet) := h
    rw [Task.ops, Task.event, ResponseManager.next_out hin,
      ResponseManager.exec_processOutReportOps, ResponseManager.handleOut]
  | inReport mem =>
    rw [Task.ops, Task.event, r.exec_sendInReportOps mem]
    rfl

/-! ## The order of the operations -/

/-- The copy of a report, with what comes before and after it. -/
def copyShape (before after : List OpKind) : List OpKind :=
  before ++ (List.range 11).map .copyByte ++ after

/-- The orders in which a task can have its operations. -/
def outShapes : List (List OpKind) :=
  [[], [.compute], [.loadPointer],
   copyShape [.loadPointer, .compute, .compute] [.compute],
   copyShape [.compute, .compute, .compute, .loadPointer] [.compute, .compute]]

def inShapes : List (List OpKind) :=
  [[.beforeSend, .transmit],
   copyShape [.beforeSend, .loadPointer, .compute, .compute] [.compute, .transmit]]

theorem copyReport_kind : copyReport.map Op.kind = (List.range 11).map .copyByte := by
  simp [copyReport, Op.kind]

namespace ResponseManager

theorem prepareStandardReportOps_kind (r : ResponseManager) :
    r.prepareStandardReportOps.map Op.kind = if r.nextPacketReady then [] else
      copyShape [.compute, .compute] [.compute] := by
  unfold prepareStandardReportOps
  split
  · rfl
  · simp only [List.map_append, copyReport_kind]
    rfl

theorem prepareUartReplyOps_kind (mem : Memory) (r : ResponseManager) (code subcommand : Byte)
    (data : DataPtr) (length : Nat) :
    (prepareUartReplyOps mem r code subcommand data length).map Op.kind ∈ outShapes := by
  unfold prepareUartReplyOps
  split
  · exact .head _
  · simp only [List.map_append, copyReport_kind]
    exact .tail _ (.tail _ (.tail _ (.tail _ (.head _))))

theorem processOutReportOps_kind (mem : Memory) (r : ResponseManager) (data : List Byte)
    (size : Nat) : (processOutReportOps mem r data size).map Op.kind ∈ outShapes := by
  simp only [processOutReportOps]
  split
  · split
    · exact .tail _ (.head _)
    · split
      · exact .tail _ (.head _)
      · split
        · rw [List.map_cons, prepareStandardReportOps_kind]
          split
          · exact .tail _ (.tail _ (.head _))
          · exact .tail _ (.tail _ (.tail _ (.head _)))
        · exact .tail _ (.head _)
  · split
    · simp only [processSubcommandOps, prepareSpiReplyOps]
      split_ifs <;> exact prepareUartReplyOps_kind ..
    · exact .head _

theorem sendInReportOps_kind (r : ResponseManager) :
    r.sendInReportOps.map Op.kind ∈ inShapes := by
  simp only [sendInReportOps]
  cases h : r.nextPacketReady with
  | true => exact .head _
  | false =>
    have hkind := r.prepareStandardReportOps_kind
    simp only [Bool.not_false, if_true, List.map_append, List.map_cons, hkind, h]
    exact .tail _ (.head _)

end ResponseManager

/-- What the proofs need to know of these orders. -/
structure OpKind.Ordered (kinds : List OpKind) : Prop where
  /-- a report is copied whole or not at all -/
  index_eq : kinds.filterMap OpKind.index = [] ∨ kinds.filterMap OpKind.index = List.range 11
  /-- no byte is copied before the report is settled -/
  setup_before : kinds.Pairwise fun a b => a.index ≠ none → b.setup = false
  /-- and none without that, also after the callback -/
  setup_mem : kinds.any OpKind.setup = false → kinds.filterMap OpKind.index = []
  setup_after : ∀ t ∈ kinds.tails, t.head? = some .beforeSend →
    t.tail.any OpKind.setup = false → t.filterMap OpKind.index = []
  /-- `send_IN_report` begins with the callback -/
  before_first : kinds.Pairwise fun _ b => b ≠ .beforeSend
  /-- and ends with its packet -/
  transmit_last : kinds.Pairwise fun a _ => a ≠ .transmit

instance (kinds : List OpKind) : Decidable (OpKind.Ordered kinds) :=
  decidable_of_iff
    ((kinds.filterMap OpKind.index = [] ∨ kinds.filterMap OpKind.index = List.range 11) ∧
      (kinds.Pairwise fun a b => a.index ≠ none → b.setup = false) ∧
      (kinds.any OpKind.setup = false → kinds.filterMap OpKind.index = []) ∧
      (∀ t ∈ kinds.tails, t.head? = some .beforeSend →
        t.tail.any OpKind.setup = false → t.filterMap OpKind.index = []) ∧
      (kinds.Pairwise fun _ b => b ≠ .beforeSend) ∧
      kinds.Pairwise fun a _ => a ≠ .transmit)
    ⟨fun ⟨h₁, h₂, h₃, h₄, h₅, h₆⟩ => ⟨h₁, h₂, h₃, h₄, h₅, h₆⟩,
      fun ⟨h₁, h₂, h₃, h₄, h₅, h₆⟩ => ⟨h₁, h₂, h₃, h₄, h₅, h₆⟩⟩

theorem outShapes_ordered : ∀ kinds ∈ outShapes,
    OpKind.Ordered kinds ∧ .beforeSend ∉ kinds ∧ .transmit ∉ kinds := by
  decide +kernel

theorem inShapes_ordered : ∀ kinds ∈ inShapes,
    OpKind.Ordered kinds ∧ kinds.getLast? = some .transmit := by
  decide +kernel

theorem Task.ops_ordered (task : Task) (r : ResponseManager) :
    OpKind.Ordered ((task.ops r).map Op.kind) := by
  cases task with
  | outReport mem packet =>
    rw [Task.ops]
    exact (outShapes_ordered _ (r.processOutReportOps_kind mem _ _)).1
  | inReport mem =>
    rw [Task.ops]
    exact (inShapes_ordered _ r.sendInReportOps_kind).1

theorem Op.indices_eq (ops : List Op) : indices ops = (ops.map kind).filterMap OpKind.index := by
  rw [List.filterMap_map]
  rfl

/-! ## The machine -/

/-- `*report`. -/
def Joystick.report (s : Joystick) : Selected → StandardReport
  | .controllerReport => s.controllerReport
  | .idleReport => s.idleReport

theorem Joystick.report_selectedReport (s : Joystick) : s.report s.selectedReport = s.selected := by
  unfold report selected
  cases s.selectedReport <;> rfl

/-- The firmware between two operations of the main program. -/
structure Preemptible where
  joystick : Joystick
  response : ResponseManager
  /-- the report the copy reads from -/
  pointer : Selected
  /-- what is left of the task at hand -/
  todo : List Op

inductive PreemptEvent where
  /-- the receive interrupt -/
  | rx (b : Byte)
  /-- `HID_Task` turns to a task; it has to be done with the one before -/
  | task (task : Task)
  /-- the next operation of the task -/
  | op

/-- The byte an event delivers. -/
def PreemptEvent.byte : PreemptEvent → List Byte
  | .rx b => [b]
  | _ => []

namespace Preemptible

/-- `main`, up to its loop. -/
def boot (mem : Memory) : Preemptible := ⟨.boot, .setupResponseManager mem, .idleReport, []⟩

/-- The report a copy reads from, as it is now. -/
def pointed (s : Preemptible) : StandardReport := s.joystick.report s.pointer

def perform (s : Preemptible) : Op → Preemptible
  | .beforeSend => { s with joystick := s.joystick.callbackBeforeSend }
  | .compute f => { s with response := f s.response }
  | .loadPointer => { s with pointer := s.joystick.selectedReport }
  | .copyByte i =>
    { s with
      response :=
        { s.response with
          replyBuffer := s.response.replyBuffer.store (2 + i) (s.pointed.toBytes.getD i 0) } }
  | .transmit => { s with response := { s.response with nextPacketReady := false } }

def next (s : Preemptible) : PreemptEvent → Preemptible
  | .rx b => { s with joystick := (s.joystick.isr b).1 }
  | .task task => if s.todo.isEmpty then { s with todo := task.ops s.response } else s
  | .op =>
    match s.todo with
    | [] => s
    | op :: rest => { s.perform op with todo := rest }

/-- The responses sent to the bridge by one event. -/
def responses (s : Preemptible) : PreemptEvent → List Response
  | .rx b => (s.joystick.isr b).2
  | .task _ | .op => []

/-- The payloads accepted by one event. -/
def acceptedBy (s : Preemptible) : PreemptEvent → List (Vector Byte 8)
  | .rx b => (s.joystick.accepted b).toList
  | .task _ | .op => []

/-- The IN packets transmitted by one event. -/
def transmitted (s : Preemptible) : PreemptEvent → List (Vector Byte joystickEpsize)
  | .rx _ | .task _ => []
  | .op =>
    match s.todo with
    | .transmit :: _ => [s.response.replyBuffer.cells]
    | _ => []

/-- The task an event turns to. -/
def begun (s : Preemptible) : PreemptEvent → List Task
  | .task task => if s.todo.isEmpty then [task] else []
  | .rx _ | .op => []

/-- A task that is begun makes no write leave the buffer. -/
def InBounds (s : Preemptible) (e : PreemptEvent) : Prop :=
  ∀ task ∈ s.begun e, s.response.InBounds (task.event s.joystick.selected)

instance (s : Preemptible) (e : PreemptEvent) : Decidable (s.InBounds e) :=
  inferInstanceAs (Decidable (∀ task ∈ s.begun e, _))

/-- A report is being copied: it is settled which, and some of its bytes are still to be
read. -/
def copying (s : Preemptible) : Bool :=
  !s.todo.any (fun op => op.kind.setup) && !(Op.indices s.todo).isEmpty

/-- **An operation does its part of the list it heads**, if it copies a byte with the byte
that is there. -/
theorem exec_perform (s : Preemptible) (op : Op) (rest : List Op) (bytes : List Byte) :
    Op.exec (op :: rest) s.response
        ((op.kind.index.map fun i => s.pointed.toBytes.getD i 0).toList ++ bytes) =
      Op.exec rest (s.perform op).response bytes := by
  cases op <;> rfl

end Preemptible

/-! ## Following a task

Beside the machine are kept the task at hand, the reply manager as the task found it, the
bytes copied so far, the reports that the one being copied has been since it was settled,
and all that the controller report has been. -/

structure Followed where
  machine : Preemptible
  task : Task
  start : ResponseManager
  taken : List Byte
  history : List StandardReport
  held : List StandardReport

namespace Followed

def boot (mem : Memory) : Followed :=
  ⟨.boot mem, .outReport mem [], .setupResponseManager mem, [], [initializeIdleReport],
    [initializeIdleReport]⟩

def next (w : Followed) : PreemptEvent → Followed
  | .rx b =>
    let new := (w.machine.joystick.accepted b).toList.map populateReportFromSerial
    { w with
      machine := w.machine.next (.rx b)
      history := if w.machine.pointer = .controllerReport then w.history ++ new else w.history
      held := w.held ++ new }
  | .task task =>
    if w.machine.todo.isEmpty then
      { w with
        machine := w.machine.next (.task task)
        task := task
        start := w.machine.response
        taken := []
        history := [w.machine.pointed] }
    else w
  | .op =>
    match w.machine.todo with
    | [] => w
    | op :: _ =>
      let machine := w.machine.next .op
      { w with
        machine := machine
        taken := w.taken ++ (op.kind.index.map fun i => w.machine.pointed.toBytes.getD i 0).toList
        history := if op.kind.setup then [machine.pointed] else w.history }

@[simp] theorem boot_machine (mem : Memory) : (boot mem).machine = .boot mem := rfl

@[simp] theorem next_machine (w : Followed) (e : PreemptEvent) :
    (w.next e).machine = w.machine.next e := by
  cases e with
  | rx b => rfl
  | task task =>
    by_cases h : w.machine.todo.isEmpty
    · simp [next, h]
    · simp [next, Preemptible.next, h]
  | op =>
    cases h : w.machine.todo with
    | nil => simp [next, Preemptible.next, h]
    | cons op rest => simp [next, h]

theorem run_machine (w : Followed) (es : List PreemptEvent) :
    (Trace.run next w es).machine = Trace.run Preemptible.next w.machine es := by
  induction es generalizing w with
  | nil => rfl
  | cons e es ih => rw [Trace.run_cons, ih, next_machine, Trace.run_cons]

/-- What is seen of the machine alone. -/
theorem observe_machine {ω : Type*} (view : Preemptible → PreemptEvent → List ω) (w : Followed)
    (es : List PreemptEvent) :
    Trace.observe next (fun w e => view w.machine e) w es =
      Trace.observe Preemptible.next view w.machine es := by
  induction es generalizing w with
  | nil => rfl
  | cons e es ih => rw [Trace.observe_cons, ih, next_machine, Trace.observe_cons]

/-- The operations left are the last ones of the task, and amount to the whole of it from
where it began. -/
structure Inv (w : Followed) : Prop where
  suffix : w.machine.todo <:+ w.task.ops w.start
  exec_eq : ∀ rest, Op.exec w.machine.todo w.machine.response rest =
    Op.exec (w.task.ops w.start) w.start (w.taken ++ rest)
  indices_eq : List.range w.taken.length ++ Op.indices w.machine.todo =
    Op.indices (w.task.ops w.start)
  taken_eq : w.machine.todo.any (fun op => op.kind.setup) = true → w.taken = []

/-- A task begins with all of its operations, and nothing copied. -/
theorem Inv.of_begin {w : Followed} (htodo : w.machine.todo = w.task.ops w.start)
    (hstart : w.machine.response = w.start) (htaken : w.taken = []) : w.Inv where
  suffix := htodo ▸ List.suffix_refl _
  exec_eq rest := by rw [htodo, hstart, htaken, List.nil_append]
  indices_eq := by rw [htodo, htaken, List.length_nil, List.range_zero, List.nil_append]
  taken_eq _ := htaken

theorem boot_inv (mem : Memory) : (boot mem).Inv := by
  refine .of_begin ?_ rfl rfl
  have hbyte : ∀ i, (switchResponseBuffer []).toList.getD i 0 = 0 := by
    intro i
    simp only [switchResponseBuffer, Buffer.padded]
    simp
    split <;> rfl
  simp only [boot, Task.ops, ResponseManager.processOutReportOps, hbyte]
  rfl

/-- The task at hand writes inside the buffer. -/
def Fits (w : Followed) : Prop := ∀ selected, w.start.InBounds (w.task.event selected)

/-- A reply is pending at start-up. -/
theorem boot_fits (mem : Memory) : (boot mem).Fits := fun _ => .inl rfl

theorem next_fits (w : Followed) (e : PreemptEvent) (h : w.Fits) (hin : w.machine.InBounds e) :
    (w.next e).Fits := by
  cases e with
  | rx b => exact h
  | task task =>
    by_cases hidle : w.machine.todo.isEmpty
    · simp only [next, hidle, if_true]
      exact Task.inBounds_event (hin task (by simp [Preemptible.begun, hidle]))
    · simp only [next, if_neg hidle]
      exact h
  | op =>
    cases htodo : w.machine.todo with
    | nil => simpa only [next, htodo] using h
    | cons op rest =>
      simp only [next, htodo]
      exact h

variable {w : Followed}

/-- The next byte to be copied is the one after those copied so far. -/
theorem Inv.index_eq (h : w.Inv) {i : Nat} {rest : List Op}
    (htodo : w.machine.todo = .copyByte i :: rest) : i = w.taken.length ∧ i < 11 := by
  have hindices := h.indices_eq
  rw [htodo] at hindices
  have hi : (Op.indices (w.task.ops w.start))[w.taken.length]? = some i := by
    rw [← hindices, List.getElem?_append_right (by simp), List.length_range, Nat.sub_self]
    rfl
  rcases (w.task.ops_ordered w.start).index_eq with hnil | hrange
  · rw [Op.indices_eq, hnil] at hi
    cases hi
  · rw [Op.indices_eq, hrange] at hi
    obtain ⟨hlt, hget⟩ := List.getElem?_eq_some_iff.mp hi
    rw [List.getElem_range] at hget
    rw [List.length_range] at hlt
    exact ⟨hget.symm, hget ▸ hlt⟩

/-- Once the copy has begun, which report it is has been settled. -/
theorem Inv.not_setup (h : w.Inv) {i : Nat} {rest : List Op}
    (htodo : w.machine.todo = .copyByte i :: rest) :
    rest.any (fun op => op.kind.setup) = false := by
  have hpair := (w.task.ops_ordered w.start).setup_before
  rw [List.pairwise_map] at hpair
  have hpair := hpair.sublist h.suffix.sublist
  rw [htodo, List.pairwise_cons] at hpair
  rw [List.any_eq_false]
  intro op hop
  have := hpair.1 op hop (by simp [Op.kind, OpKind.index])
  simp [this]

theorem next_inv (w : Followed) (e : PreemptEvent) (h : w.Inv) : (w.next e).Inv := by
  cases e with
  | rx b => exact ⟨h.suffix, h.exec_eq, h.indices_eq, h.taken_eq⟩
  | task task =>
    by_cases hidle : w.machine.todo.isEmpty
    · simp only [next, hidle, if_true]
      exact .of_begin (by simp [Preemptible.next, hidle]) (by simp [Preemptible.next, hidle]) rfl
    · simp only [next, if_neg hidle]
      exact h
  | op =>
    cases htodo : w.machine.todo with
    | nil => simpa only [next, htodo] using h
    | cons op rest =>
      simp only [next, htodo, Preemptible.next]
      refine ⟨(List.suffix_cons op rest).trans (htodo ▸ h.suffix), fun bytes => ?_, ?_, ?_⟩
      · show Op.exec rest (w.machine.perform op).response bytes = _
        rw [← Preemptible.exec_perform, List.append_assoc, ← h.exec_eq, htodo]
      · rw [← h.indices_eq, htodo]
        cases op with
        | copyByte i =>
          obtain ⟨rfl, -⟩ := h.index_eq htodo
          simp [Op.kind, OpKind.index, Op.indices, List.range_succ]
        | _ => simp [Op.kind, OpKind.index, Op.indices]
      · intro hany
        have htaken : w.taken = [] := by
          apply h.taken_eq
          rw [htodo, List.any_cons, hany, Bool.or_true]
        cases op with
        | copyByte i =>
          rw [h.not_setup htodo] at hany
          cases hany
        | _ => rw [htaken]; rfl

end Followed

end XInputSwitch
