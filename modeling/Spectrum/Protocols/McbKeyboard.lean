import Spectrum.Utils.McbPortAddresses
import Mathlib.Algebra.Order.Ring.Int
import Mathlib.Algebra.BigOperators.Group.List.Basic

/-! Framing and parsing of MCB frames (`protocols/mcb_keyboard/mcb_keyboard_protocol.cpp`).
A frame is STX, a length byte that counts command and data, the command, the data,
a checksum and ETX. -/
namespace Spectrum.Protocols
open Utils

/-- A decoded frame. -/
structure MCBFrame where
  command : MCBCommand
  data : List UInt8
  deriving DecidableEq, Repr

namespace MCBProtocol

/-- Conversion of an `int` to `size_t` (64 bits). -/
def toSizeT (i : ℤ) : ℕ := (i % 2 ^ 64).toNat

def toMCBCommand (b : UInt8) : MCBCommand :=
  match b with
  | 0x51 => MCBCommand.Enumerator.readFirmware
  | 0x52 => MCBCommand.Enumerator.readStatus
  | 0x54 => MCBCommand.Enumerator.readAnalogInput
  | 0x5A => MCBCommand.Enumerator.readChaveLiga
  | 0x5B => MCBCommand.Enumerator.readDataHora
  | 0x63 => MCBCommand.Enumerator.writeDigitalOut
  | _ => MCBCommand.Enumerator.unknown

/-- The accumulator is 32 bits wide and wraps. -/
def calculateChecksum (cmd : MCBCommand) (payload : List UInt8) : UInt8 :=
  let sum : UInt32 := payload.foldl (fun sum b => sum + b.toUInt32) cmd.value.toUInt32
  (sum &&& 0xFF).toUInt8

namespace Impl

/-- The length byte is `1 + payload.size()` cut to eight bits. -/
def buildFrame (cmd : MCBCommand) (payload : List UInt8) : List UInt8 :=
  let length : UInt8 := UInt8.ofNat (1 + payload.length)
  let chksum := calculateChecksum cmd payload
  [stx] ++ [length] ++ [cmd.value] ++ payload ++ [chksum] ++ [etx]

/-- An index is read as 0 outside the buffer; no read falls outside. -/
def parseFrame (buffer : List UInt8) : Option MCBFrame :=
  if buffer.length < mcbMinFrameSize ∨ buffer.head? ≠ some stx ∨ buffer.getLast? ≠ some etx then
    none
  else
    let length := buffer.getD 1 0
    let expected := length.toNat + 4
    if buffer.length ≠ expected then none
    else
      let cmdByte := buffer.getD 2 0
      let cmd := toMCBCommand cmdByte
      -- `length` is promoted to `int` before the subtraction
      let dataSize := toSizeT ((length.toNat : ℤ) - 1)
      let data := if dataSize ≠ 0 then (buffer.drop 3).take dataSize else []
      let recvChk := buffer.getD (3 + dataSize) 0
      -- the checksum is taken over the command after its way through the table
      let calcChk := calculateChecksum cmd data
      if recvChk ≠ calcChk then none else some ⟨cmd, data⟩

end Impl

def buildFrame (cmd : UInt8) (payload : List UInt8) : List UInt8 :=
  Impl.buildFrame ⟨cmd⟩ payload

/-- The public parser gives the data and drops the command. -/
def parseFrame (buffer : List UInt8) : Option (List UInt8) :=
  (Impl.parseFrame buffer).map (·.data)

end MCBProtocol

end Spectrum.Protocols
