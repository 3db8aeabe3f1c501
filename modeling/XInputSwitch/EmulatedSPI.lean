import XInputSwitch.Buffer
import XInputSwitch.Datatypes

/-! # The emulated flash memory

`EmulatedSPI.c`: the console reads the controller's flash memory by address and
size, and `spiRead` makes up the answer.  The caller's buffer is a `Buffer` of the
size asked for, so that a write past its end would be recorded.
-/
namespace XInputSwitch

/-! `SPI_Address_t`, which holds any 16-bit value.  The serial number is read as every address
that is not listed here. -/

def addressControllerColor : BitVec 16 := 0x6050
def addressFactoryParameters1 : BitVec 16 := 0x6080
def addressFactoryParameters2 : BitVec 16 := 0x6098
def addressFactoryCalibration1 : BitVec 16 := 0x6020
def addressFactoryCalibration2 : BitVec 16 := 0x603D
def addressSticksCalibration : BitVec 16 := 0x8010
def addressImuCalibration : BitVec 16 := 0x8028

def controllerColor : List Byte := [0x0A, 0xB9, 0xE6]
def buttonColor : List Byte := [0xDD, 0xDD, 0xDD]
def leftGripColor : List Byte := [0xAA, 0xAA, 0xAA]
def rightGripColor : List Byte := [0xAA, 0xAA, 0xAA]

def factoryParameters1 : List Byte :=
  [0x50, 0xfd, 0x00, 0x00, 0xc6, 0x0f, 0x0f, 0x30, 0x61, 0x96, 0x30, 0xf3,
   0xd4, 0x14, 0x54, 0x41, 0x15, 0x54, 0xc7, 0x79, 0x9c, 0x33, 0x36, 0x63]

def factoryParameters2 : List Byte :=
  [0x0f, 0x30, 0x61, 0x96, 0x30, 0xf3, 0xd4, 0x14, 0x54,
   0x41, 0x15, 0x54, 0xc7, 0x79, 0x9c, 0x33, 0x36, 0x63]

def factoryCalibration1 : List Byte :=
  [0xE6, 0xFF, 0x3A, 0x00, 0x39, 0x00, 0x00, 0x40, 0x00, 0x40, 0x00, 0x40,
   0xF7, 0xFF, 0xFC, 0xFF, 0x00, 0x00, 0xE7, 0x3B, 0xE7, 0x3B, 0xE7, 0x3B]

def factoryCalibration2 : List Byte :=
  [0xba, 0x15, 0x62, 0x11, 0xb8, 0x7f, 0x29, 0x06, 0x5b, 0xff, 0xe7, 0x7e,
   0x0e, 0x36, 0x56, 0x9e, 0x85, 0x60, 0xff, 0x32, 0x32, 0x32, 0xff, 0xff,
   0xff]

def imuCalibration : List Byte :=
  [0xbe, 0xff, 0x3e, 0x00, 0xf0, 0x01, 0x00, 0x40, 0x00, 0x40, 0x00, 0x40,
   0xfe, 0xff, 0xfe, 0xff, 0x08, 0x00, 0xe7, 0x3b, 0xe7, 0x3b, 0xe7, 0x3b]

def minSize (s₁ s₂ : Nat) : Nat := if s₁ > s₂ then s₂ else s₁

/-- The copy of a table at the front of the buffer, cut to the size asked for. -/
def copyPrefix {size : Nat} (buf : Buffer Byte size) (table : List Byte) : Buffer Byte size :=
  buf.copy 0 (table.take (minSize size table.length))

/-- A table copied at an offset only if the size asked for covers it. -/
def copyWhole {size : Nat} (buf : Buffer Byte size) (offset : Nat) (table : List Byte) :
    Buffer Byte size :=
  if offset + table.length ≤ size then buf.copy offset table else buf

/-- A single byte patched at an offset only if the size asked for covers it. -/
def patch {size : Nat} (buf : Buffer Byte size) (offset : Nat) (b : Byte) : Buffer Byte size :=
  if offset < size then buf.store offset b else buf

/-- `spi_read`. -/
def spiRead (address : BitVec 16) (size : Nat) : Buffer Byte size :=
  let buf : Buffer Byte size := (Buffer.blank 0).fill 0xFF
  if address = addressControllerColor then
    copyWhole (copyWhole (copyWhole (copyWhole buf 0 controllerColor) 3 buttonColor)
      6 leftGripColor) 9 rightGripColor
  else if address = addressFactoryParameters1 then copyPrefix buf factoryParameters1
  else if address = addressFactoryParameters2 then copyPrefix buf factoryParameters2
  else if address = addressFactoryCalibration1 then copyPrefix buf factoryCalibration1
  else if address = addressFactoryCalibration2 then copyPrefix buf factoryCalibration2
  else if address = addressSticksCalibration then patch (patch buf 22 0xB2) 23 0xA1
  else if address = addressImuCalibration then copyPrefix buf imuCalibration
  -- the serial number and every other address: left as it is
  else buf

end XInputSwitch
