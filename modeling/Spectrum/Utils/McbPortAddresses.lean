import Mathlib.Data.List.Basic

/-! Wire constants and command codes of the MCB board (`utils/enum_/mcb_port_addresses.h`). -/
namespace Spectrum.Utils

def stx : UInt8 := 0x02
def etx : UInt8 := 0x03

/-- STX, length, command, checksum, ETX. -/
def mcbMinFrameSize : ℕ := 5

namespace MCBCommand

/-- The enumerators, in the order of the source. -/
inductive Enumerator
  | readFirmware | readStatus | readInputDigital | readAnalogInput | readSensorDistance
  | readStatusSpecial | readChaveLiga | readDataHora | readMacPc | readInfo1 | readInfo2 | readInfo3
  | writeSpecial | writeConfig | writeDigitalOut | writeAnalogOut | writeNetworkConfig | writeMac
  | writeBaudUart1 | writeBaudUart2 | writeDigitalTimer | desligaMcb | writeDataHora | writeMacPc
  | writeInfo1 | writeInfo2 | writeInfo3
  | cmdKeyPressed | cmdVersion | cmdKeyReleased | cmdLedTecla | cmdBuzzer | cmdBeepTecla
  | cmdPiscaTecla | unknown
  deriving DecidableEq, Repr

def Enumerator.value : Enumerator → UInt8
  | .readFirmware => 0x51
  | .readStatus => 0x52
  | .readInputDigital => 0x53
  | .readAnalogInput => 0x54
  | .readSensorDistance => 0x55
  | .readStatusSpecial => 0x56
  | .readChaveLiga => 0x5A
  | .readDataHora => 0x5B
  | .readMacPc => 0x5C
  | .readInfo1 => 0x5D
  | .readInfo2 => 0x5E
  | .readInfo3 => 0x5F
  | .writeSpecial => 0x61
  | .writeConfig => 0x62
  | .writeDigitalOut => 0x63
  | .writeAnalogOut => 0x64
  | .writeNetworkConfig => 0x65
  | .writeMac => 0x66
  | .writeBaudUart1 => 0x67
  | .writeBaudUart2 => 0x68
  | .writeDigitalTimer => 0x69
  | .desligaMcb => 0x6A
  | .writeDataHora => 0x6B
  | .writeMacPc => 0x6C
  | .writeInfo1 => 0x6D
  | .writeInfo2 => 0x6E
  | .writeInfo3 => 0x6F
  | .cmdKeyPressed => 0x70
  | .cmdVersion => 0x71
  | .cmdKeyReleased => 0x72
  | .cmdLedTecla => 0x78
  | .cmdBuzzer => 0x79
  | .cmdBeepTecla => 0x7A
  | .cmdPiscaTecla => 0x7B
  | .unknown => 0xFF

end MCBCommand

/-- A value of `enum class MCBCommand : uint8_t`. The underlying type is fixed, so every byte
is a value, and `static_cast` from a byte never changes it; the enumerators are the named ones. -/
structure MCBCommand where
  value : UInt8
  deriving DecidableEq, Repr

instance : Coe MCBCommand.Enumerator MCBCommand := ⟨fun e => ⟨e.value⟩⟩

/-- The other enumerations, each with `uint8_t` below it: every byte is a value of each. -/
structure DigitalInputPort where
  value : UInt8
  deriving DecidableEq, Repr

structure AnalogInputPort where
  value : UInt8
  deriving DecidableEq, Repr

structure SensorDistanceMode where
  value : UInt8
  deriving DecidableEq, Repr

structure DigitalOutputPort where
  value : UInt8
  deriving DecidableEq, Repr

structure ConfigAddress where
  value : UInt8
  deriving DecidableEq, Repr

def ConfigAddress.shutdownTimeout : ConfigAddress := ⟨0x04⟩

end Spectrum.Utils
