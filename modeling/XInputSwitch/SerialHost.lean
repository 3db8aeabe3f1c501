import Mathlib.Data.Rat.Floor
import XInputSwitch.Datatypes

/-! # The bridge's side of the serial line

The protocol helpers of `xinput2serial.py`: the check byte of a packet (`crc8`),
what `UART.write` puts on the line, and the layout of a packet (`Packet.pack`).

Python's integers are natural numbers here, its bytes are `Byte`, and stick
positions are rationals: the rounding of Python's floats is not modelled.
-/
namespace XInputSwitch

/-! ## Protocol bytes -/

def cmd1 : Byte := 0x33
def cmd2 : Byte := 0xCC
def cmdSt : Byte := 0xFF
def rspSt : Byte := 0xFF
def rsp1 : Byte := 0xCC
def rspOk : Byte := 0x33

/-- The body of the inner loop of `crc8`. -/
def crc8Step (c : Nat) : Nat :=
  if c &&& 0x80 ≠ 0 then ((c <<< 1) ^^^ 0x07) &&& 0xFF else (c <<< 1) &&& 0xFF

def crc8 (data : List Byte) : Nat :=
  data.foldl (fun c b => Nat.repeat crc8Step 8 (c ^^^ b.toNat)) 0

/-- The bytes `UART.write` puts on the line for the payload `p`. -/
def uartWrite (p : List Byte) : List Byte := p ++ [BitVec.ofNat 8 (crc8 p)]

/-! ## Packets -/

/-- Python's `int` on a number: truncation towards zero. -/
def truncate (x : ℚ) : ℤ := if 0 ≤ x then ⌊x⌋ else ⌈x⌉

structure Packet where
  b : Nat
  d : Nat
  lx : ℚ
  ly : ℚ
  rx : ℚ
  ry : ℚ
deriving DecidableEq

namespace Packet

/-- A stick position as a byte. -/
def norm (v : ℚ) : Byte := BitVec.ofInt 8 (truncate ((v + 1) / 2 * 255))

/-- Positions near the centre are snapped to it. -/
def deadZone (a : Byte) : Byte := if ((a.toNat : ℤ) - 0x80).natAbs < 10 then 0x80 else a

/-- The eight bytes of a packet: buttons, hat, four stick positions and a zero. -/
def pack (p : Packet) : Vector Byte 8 :=
  #v[BitVec.ofNat 8 ((p.b >>> 8) &&& 0xFF), BitVec.ofNat 8 (p.b &&& 0xFF),
     BitVec.ofNat 8 (p.d &&& 0xFF),
     deadZone (norm p.lx), deadZone (norm p.ly), deadZone (norm p.rx), deadZone (norm p.ry), 0]

/-- The last byte of a packet is unused. -/
@[simp] theorem pack_last (p : Packet) : p.pack[7] = 0 := rfl

/-- The packet sent while there is nothing to say. -/
def neutral : Packet := ⟨0, 8, 0, 0, 0, 0⟩

/-- The packet that presses HOME only. -/
def home : Packet := ⟨1 <<< 12, 8, 0, 0, 0, 0⟩

example : neutral.pack.toList = [0, 0, 8, 0x80, 0x80, 0x80, 0x80, 0] := by decide +kernel

end Packet
end XInputSwitch
