import XInputSwitch.EmulatedSPI
import XInputSwitch.Joystick

/-! # The reply manager

`Response.c`: the console's requests (OUT reports) are answered by packets it polls
for (IN reports).  One packet can be prepared at a time; `nextPacketReady` says
that the one in `replyBuffer` has not been sent.

A reply copies its data from a C pointer.  Most point to an array the firmware
owns, some are null with length zero, and one is an integer cast to a pointer
(`DataPtr`); what such an address holds, and what lies behind the end of an array, is
up to the rest of the memory, which is a parameter.  Lengths are 8-bit arguments,
whatever the size of the array.

Nothing keeps a reply inside `replyBuffer`.  A write past its end hits the variables that
lie behind it, in the order of the source `counter`, `nextPacketReady` and the pointers
`before_send` and `selectedReportPtr`, and a call through an overwritten pointer can do
anything.  The functions below say what becomes of the variables as long as this does not
happen; `next` lets a packet that makes it happen (`overruns`) leave any state at all.
-/
namespace XInputSwitch

/-- `JOYSTICK_EPSIZE`. -/
abbrev joystickEpsize : Nat := 64

/-- The static variables of `Response.c`. -/
structure ResponseManager where
  replyBuffer : Buffer Byte joystickEpsize
  counter : Byte
  nextPacketReady : Bool
deriving DecidableEq

/-- What the rest of the memory decides. -/
structure Memory where
  /-- data memory, by address -/
  byte : Nat → Byte
  /-- where the array lies that a reply is copied from -/
  array : Nat
  /-- the variables of `Response.c` after a write past the end of `replyBuffer` -/
  overrunResponse : ResponseManager
  /-- those of `Joystick.c` -/
  overrunJoystick : Joystick

/-- A memory full of zeros. -/
def Memory.zero : Memory := ⟨fun _ => 0, 0, ⟨Buffer.blank 0, 0, false⟩, .boot⟩

/-- The `data` argument of the prepare functions. -/
inductive DataPtr where
  | null
  | address (a : Nat)
  | array (bytes : List Byte)

/-- The bytes `memcpy` reads from a pointer: behind the end of an array it reads on. -/
def DataPtr.read (mem : Memory) (length : Nat) : DataPtr → List Byte
  | .null => (List.range length).map mem.byte
  | .address a => (List.range length).map fun i => mem.byte (a + i)
  | .array bytes => (List.range length).map fun i => bytes.getD i (mem.byte (mem.array + i))

/-- No more is read than the array has. -/
theorem DataPtr.read_array (mem : Memory) {bytes : List Byte} {length : Nat}
    (h : length ≤ bytes.length) : (DataPtr.array bytes).read mem length = bytes.take length := by
  apply List.ext_getElem
  · simp [read, h]
  · intro i hi hi'
    have hlt : i < length := by simpa [read] using hi
    simp [read, Nat.lt_of_lt_of_le hlt h]

def macAddress : List Byte := [0x79, 0x05, 0x44, 0xC6, 0xB5, 0x65]

/-- `COUNTER_INCREMENT`. -/
def counterIncrement : Byte := 3

/-! Subcommands that have a case of their own. -/

def subcommandBluetoothManualPairing : Byte := 0x01
def subcommandRequestDeviceInfo : Byte := 0x02
def subcommandSetInputReportMode : Byte := 0x03
def subcommandTriggerButtonsElapsedTime : Byte := 0x04
def subcommandSetShipmentLowPowerState : Byte := 0x08
def subcommandSpiFlashRead : Byte := 0x10
def subcommandSetNfcIrMcuConfig : Byte := 0x21
def subcommandSetPlayerLights : Byte := 0x30
def subcommandSetHomeLights : Byte := 0x38
def subcommandEnableImu : Byte := 0x40
def subcommandEnableVibration : Byte := 0x48

namespace ResponseManager

/-! ## Preparing a packet -/

def prepareReply (mem : Memory) (r : ResponseManager) (code command : Byte) (data : DataPtr)
    (length : Nat) : ResponseManager :=
  if r.nextPacketReady then r
  else
    { r with
      replyBuffer :=
        (((r.replyBuffer.fill 0).store 0 code).store 1 command).copy 2 (data.read mem length)
      nextPacketReady := true }

def prepareUartReply (mem : Memory) (selected : StandardReport) (r : ResponseManager)
    (code subcommand : Byte) (data : DataPtr) (length : Nat) : ResponseManager :=
  if r.nextPacketReady then r
  else
    let counter := r.counter + counterIncrement
    let n := selected.toBytes.length
    { replyBuffer :=
        (((((((r.replyBuffer.fill 0).store 0 0x21).store 1 counter).copy 2 selected.toBytes).store
          (n + 2) code).store (n + 3) subcommand).copy (n + 4) (data.read mem length))
      counter := counter
      nextPacketReady := true }

/-- The length of the reply is passed as a `uint8_t`. -/
def prepareSpiReply (mem : Memory) (selected : StandardReport) (r : ResponseManager)
    (address : BitVec 16) (size : Nat) : ResponseManager :=
  let data := (spiRead address size).cells.toList
  let spiReplyBuffer : List Byte :=
    [address.setWidth 8, (address >>> 8).setWidth 8, 0x00, 0x00, BitVec.ofNat 8 size] ++ data
  prepareUartReply mem selected r 0x90 subcommandSpiFlashRead (.array spiReplyBuffer)
    (spiReplyBuffer.length % 2 ^ 8)

def prepareStandardReport (mem : Memory) (r : ResponseManager) (standardReport : StandardReport) :
    ResponseManager :=
  if r.nextPacketReady then r
  else
    let r := { r with counter := r.counter + counterIncrement }
    prepareReply mem r 0x30 r.counter (.array standardReport.toBytes) standardReport.toBytes.length

def prepare8101 (mem : Memory) (r : ResponseManager) : ResponseManager :=
  if r.nextPacketReady then r
  else
    let buf := [0x00, 0x03] ++ macAddress
    prepareReply mem r 0x81 0x01 (.array buf) buf.length

/-! ## The interface -/

/-- `setup_response_manager`: the first IN packet is prepared before anything is
asked. -/
def setupResponseManager (mem : Memory) : ResponseManager :=
  prepare8101 mem ⟨Buffer.blank 0, 0, false⟩

/-- The device information: firmware version, controller type, the MAC address in
reverse, and two bytes about colours. -/
def deviceInfo : List Byte := [0x03, 0x48, 0x03, 0x02] ++ macAddress.reverse ++ [0x03, 0x02]

def nfcIrMcuConfig : List Byte := [0x01, 0x00, 0xFF, 0x00, 0x03, 0x00, 0x05, 0x01]

/-- The subcommands of a report with first byte `0x01`. -/
def processSubcommand (mem : Memory) (selected : StandardReport) (r : ResponseManager)
    (reportData : Vector Byte joystickEpsize) : ResponseManager :=
  let subcommand := reportData[10]
  if subcommand = subcommandBluetoothManualPairing then
    prepareUartReply mem selected r 0x81 subcommand (.address 0x03) 1
  else if subcommand = subcommandRequestDeviceInfo then
    prepareUartReply mem selected r 0x82 subcommand (.array deviceInfo) deviceInfo.length
  else if subcommand = subcommandSetInputReportMode ∨
      subcommand = subcommandSetShipmentLowPowerState ∨
      subcommand = subcommandSetPlayerLights ∨ subcommand = subcommandSetHomeLights ∨
      subcommand = subcommandEnableImu ∨ subcommand = subcommandEnableVibration then
    prepareUartReply mem selected r 0x80 subcommand .null 0
  else if subcommand = subcommandTriggerButtonsElapsedTime then
    prepareUartReply mem selected r 0x83 subcommand .null 0
  else if subcommand = subcommandSetNfcIrMcuConfig then
    prepareUartReply mem selected r 0xA0 subcommand (.array nfcIrMcuConfig) nfcIrMcuConfig.length
  else if subcommand = subcommandSpiFlashRead then
    -- addresses are little-endian; the two high bytes of the request are not read
    let address : BitVec 16 := (reportData[12].setWidth 16 <<< 8) ||| reportData[11].setWidth 16
    prepareSpiReply mem selected r address reportData[15].toNat
  else
    prepareUartReply mem selected r 0x80 subcommand .null 0

/-- `process_OUT_report`. -/
def processOutReport (mem : Memory) (selected : StandardReport) (r : ResponseManager)
    (reportData : Vector Byte joystickEpsize) (reportSize : Nat) : ResponseManager :=
  if reportData[0] = 0x80 then
    if reportData[1] = 0x01 then prepare8101 mem r
    else if reportData[1] = 0x02 ∨ reportData[1] = 0x03 then
      prepareReply mem r 0x81 reportData[1] .null 0
    else if reportData[1] = 0x04 then prepareStandardReport mem r selected
    else prepareReply mem r 0x81 reportData[1] .null 0
  else if reportData[0] = 0x01 ∧ 16 < reportSize then
    processSubcommand mem selected r reportData
  else r

/-- The packet `send_IN_report` is about to write to the endpoint, after the
callback: the prepared one, or a standard report. -/
def readyToSend (mem : Memory) (selected : StandardReport) (r : ResponseManager) :
    ResponseManager :=
  if !r.nextPacketReady then prepareStandardReport mem r selected else r

/-- The rest of `send_IN_report`, once the packet is written. -/
def sendInReport (mem : Memory) (selected : StandardReport) (r : ResponseManager) :
    ResponseManager :=
  { readyToSend mem selected r with nextPacketReady := false }

end ResponseManager

/-! ## Runs -/

/-- How `HID_Task` presents an OUT packet: copied into a cleared buffer, cut to its
size. -/
def switchResponseBuffer (packet : List Byte) : Vector Byte joystickEpsize :=
  Buffer.padded 0 packet

def reportSize (packet : List Byte) : Nat := min packet.length joystickEpsize

/-- What happens on the USB side: the console sends an OUT packet, or takes an IN
packet.  Either finds some report selected, and some contents of the memory. -/
inductive UsbEvent where
  | out (mem : Memory) (selected : StandardReport) (packet : List Byte)
  | poll (mem : Memory) (selected : StandardReport)

namespace ResponseManager

/-- `HID_Task` on an OUT packet. -/
def handleOut (mem : Memory) (selected : StandardReport) (r : ResponseManager)
    (packet : List Byte) : ResponseManager :=
  processOutReport mem selected r (switchResponseBuffer packet) (reportSize packet)

/-- The same variables, with an empty record of writes. -/
def unrecorded (r : ResponseManager) : ResponseManager :=
  { r with replyBuffer := { r.replyBuffer with touched := [] } }

/-- Handling a packet writes past the end of `replyBuffer`. -/
def overruns (mem : Memory) (selected : StandardReport) (r : ResponseManager)
    (packet : List Byte) : Bool :=
  (handleOut mem selected r.unrecorded packet).replyBuffer.touched.any fun j => joystickEpsize ≤ j

/-- After such a write only the record is what it was. -/
def overrun (mem : Memory) (r : ResponseManager) : ResponseManager :=
  { mem.overrunResponse with
    replyBuffer :=
      { mem.overrunResponse.replyBuffer with touched := r.replyBuffer.touched } }

@[simp] theorem overrun_nextPacketReady (mem : Memory) (r : ResponseManager) :
    (overrun mem r).nextPacketReady = mem.overrunResponse.nextPacketReady := rfl

@[simp] theorem overrun_cells (mem : Memory) (r : ResponseManager) :
    (overrun mem r).replyBuffer.cells = mem.overrunResponse.replyBuffer.cells := rfl

def next (r : ResponseManager) : UsbEvent → ResponseManager
  | .out mem selected packet =>
    let r' := handleOut mem selected r packet
    if overruns mem selected r packet then overrun mem r' else r'
  | .poll mem selected => sendInReport mem selected r

/-- The IN packets transmitted by one event. -/
def transmitted (r : ResponseManager) : UsbEvent → List (Vector Byte joystickEpsize)
  | .out _ _ _ => []
  | .poll mem selected => [(readyToSend mem selected r).replyBuffer.cells]

end ResponseManager
end XInputSwitch
