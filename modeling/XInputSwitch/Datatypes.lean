import Mathlib.Data.Vector.Basic

/-! # The data types of the firmware

`datatypes.h`, and the `State_t` of `Joystick.c`, with the enumerations as inductive
types, the bit-field record of a standard input report as a structure, and its image in
memory (`StandardReport.toBytes`): bit-fields are allocated from the least significant
bit on, and the record is packed, so the image has eleven bytes.

Left out: the extended report with motion data, which no function of the firmware
uses, and the battery levels and stick constants that are never read.
-/
namespace XInputSwitch

abbrev Byte := BitVec 8

/-- `State_t`: where the serial link is in the synchronisation handshake. -/
inductive SyncState where
  | synced
  | syncStart
  | sync1
  | outOfSync
deriving DecidableEq, Repr

/-- `Command_t`: the bytes the host sends outside packets. -/
inductive Command where
  | nop
  | sync1
  | sync2
  | syncStart
deriving DecidableEq, Repr

def Command.code : Command → Byte
  | .nop => 0x00
  | .sync1 => 0x33
  | .sync2 => 0xCC
  | .syncStart => 0xFF

/-- `Response_t`: the bytes the firmware sends back. -/
inductive Response where
  | usbAck
  | updateAck
  | updateNack
  | syncStart
  | sync1
  | syncOk
deriving DecidableEq, Repr

def Response.code : Response → Byte
  | .usbAck => 0x90
  | .updateAck => 0x91
  | .updateNack => 0x92
  | .syncStart => 0xFF
  | .sync1 => 0xCC
  | .syncOk => 0x33

/-- The LED masks of `datatypes.h`. -/
inductive LedMask where
  | notSynced
  | synced
  | pauseEmptyBuffer
  | pauseHomeBuffer
deriving DecidableEq, Repr

/-! ## Buttons and directions -/

def switchY : BitVec 16 := 0x01
def switchB : BitVec 16 := 0x02
def switchA : BitVec 16 := 0x04
def switchX : BitVec 16 := 0x08
def switchL : BitVec 16 := 0x10
def switchR : BitVec 16 := 0x20
def switchZl : BitVec 16 := 0x40
def switchZr : BitVec 16 := 0x80
def switchMinus : BitVec 16 := 0x100
def switchPlus : BitVec 16 := 0x200
def switchLclick : BitVec 16 := 0x400
def switchRclick : BitVec 16 := 0x800
def switchHome : BitVec 16 := 0x1000
def switchCapture : BitVec 16 := 0x2000

def hatTop : Byte := 0x00
def hatTopRight : Byte := 0x01
def hatRight : Byte := 0x02
def hatBottomRight : Byte := 0x03
def hatBottom : Byte := 0x04
def hatBottomLeft : Byte := 0x05
def hatLeft : Byte := 0x06
def hatTopLeft : Byte := 0x07

def batteryFull : BitVec 4 := 0x08
def batteryCharging : BitVec 4 := 0x01

/-! ## The standard input report -/

/-- `USB_StandardReport_t`, fields in the order of their declaration. -/
structure StandardReport where
  connectionInfo : BitVec 4
  batteryLevel : BitVec 4
  buttonY : Bool
  buttonX : Bool
  buttonB : Bool
  buttonA : Bool
  buttonRightSr : Bool
  buttonRightSl : Bool
  buttonR : Bool
  buttonZr : Bool
  buttonMinus : Bool
  buttonPlus : Bool
  buttonThumbR : Bool
  buttonThumbL : Bool
  buttonHome : Bool
  buttonCapture : Bool
  dummy : Bool
  chargingGrip : Bool
  dpadDown : Bool
  dpadUp : Bool
  dpadRight : Bool
  dpadLeft : Bool
  buttonLeftSr : Bool
  buttonLeftSl : Bool
  buttonL : Bool
  buttonZl : Bool
  analog : Vector Byte 6
  vibratorInputReport : Byte
deriving DecidableEq, Repr

/-- Eight one-bit fields in one byte, the first declared in the lowest bit. -/
def packBits (b₀ b₁ b₂ b₃ b₄ b₅ b₆ b₇ : Bool) : Byte :=
  BitVec.ofBoolListLE [b₀, b₁, b₂, b₃, b₄, b₅, b₆, b₇]

theorem packBits_getLsbD (b₀ b₁ b₂ b₃ b₄ b₅ b₆ b₇ : Bool) (n : Nat) :
    (packBits b₀ b₁ b₂ b₃ b₄ b₅ b₆ b₇).getLsbD n =
      [b₀, b₁, b₂, b₃, b₄, b₅, b₆, b₇].getD n false :=
  BitVec.getLsbD_ofBoolListLE

/-- The image of a report in memory. -/
def StandardReport.toBytes (r : StandardReport) : List Byte :=
  [r.batteryLevel ++ r.connectionInfo,
   packBits r.buttonY r.buttonX r.buttonB r.buttonA
     r.buttonRightSr r.buttonRightSl r.buttonR r.buttonZr,
   packBits r.buttonMinus r.buttonPlus r.buttonThumbR r.buttonThumbL
     r.buttonHome r.buttonCapture r.dummy r.chargingGrip,
   packBits r.dpadDown r.dpadUp r.dpadRight r.dpadLeft
     r.buttonLeftSr r.buttonLeftSl r.buttonL r.buttonZl]
    ++ r.analog.toList ++ [r.vibratorInputReport]

/-- `sizeof(USB_StandardReport_t)`. -/
@[simp] theorem StandardReport.toBytes_length (r : StandardReport) : r.toBytes.length = 11 := by
  simp [StandardReport.toBytes]

/-! ## The packet being received -/

/-- `Serial_Input_Packet_t`. -/
structure SerialInput where
  input : Vector Byte 8
  crc8Ccitt : Byte
  receivedBytes : Nat
deriving DecidableEq, Repr

end XInputSwitch
