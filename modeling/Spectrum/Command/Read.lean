import Spectrum.Command.ICommand

/-! The read commands (`command/mcb/read_*_command.cpp`, `command/keyboard/read_*_command.cpp`):
a request, a size check on the response, and a decoder behind it. The accesses to the response are
checked ones. -/
namespace Spectrum.Command
open Foundation Utils

variable {σ : Type}

/-- `static_cast<bool>(b & mask)`. -/
def flag (b mask : UInt8) : Bool := b &&& mask ≠ 0

/-- High byte first. -/
def word (high low : UInt8) : UInt16 := high.toUInt16 <<< 8 ||| low.toUInt16

structure FirmwareInfo where
  version : UInt8
  revision : UInt8
  build : UInt8
  deriving DecidableEq, Repr

namespace ReadFirmwareCommand

def decode (data : List UInt8) : Except Fault FirmwareInfo := do
  let version ← readAt data 0
  let revision ← readAt data 1
  let build ← readAt data 2
  pure ⟨version, revision, build⟩

def run (sendCommand : SendCommand σ) (s : σ) :
    Except Fault (Except String FirmwareInfo) × σ :=
  ask sendCommand s .readFirmware []
    (guarded (·.length < 3) "READ_FIRMWARE: payload inesperado, esperado >= 3 bytes" decode)

theorem within_decode : Within 3 decode :=
  within_readAt_bind (by omega) fun _ => within_readAt_bind (by omega) fun _ =>
    within_readAt_bind (by omega) fun _ => within_pure _ _

end ReadFirmwareCommand

structure StatusInfo where
  interlockEmergency0 : Bool
  interlockEmergency1 : Bool
  xrayOn : Bool
  tunnelSensor1 : Bool
  tunnelSensor2 : Bool
  tunnelSensor3 : Bool
  tunnelSensor4 : Bool
  exp2In : Bool
  exp0 : Bool
  exp1 : Bool
  exp2 : Bool
  exp3 : Bool
  exp4 : Bool
  conveyorOn : Bool
  exp6 : Bool
  exp7 : Bool
  deriving DecidableEq, Repr

namespace ReadStatusCommand

def decode (data : List UInt8) : Except Fault StatusInfo := do
  let b0 ← readAt data 0
  let b1 ← readAt data 1
  pure {
    interlockEmergency0 := flag b0 0x01
    interlockEmergency1 := flag b0 0x02
    xrayOn := flag b0 0x04
    tunnelSensor1 := flag b0 0x08
    tunnelSensor2 := flag b0 0x10
    tunnelSensor3 := flag b0 0x20
    tunnelSensor4 := flag b0 0x40
    exp2In := flag b0 0x80
    exp0 := flag b1 0x01
    exp1 := flag b1 0x02
    exp2 := flag b1 0x04
    exp3 := flag b1 0x08
    exp4 := flag b1 0x10
    conveyorOn := flag b1 0x20
    exp6 := flag b1 0x40
    exp7 := flag b1 0x80 }

def run (sendCommand : SendCommand σ) (s : σ) :
    Except Fault (Except String StatusInfo) × σ :=
  ask sendCommand s .readStatus []
    (guarded (·.length < 2) "READ_STATUS: payload inesperado, esperado >=2 bytes" decode)

theorem within_decode : Within 2 decode :=
  within_readAt_bind (by omega) fun _ => within_readAt_bind (by omega) fun _ => within_pure _ _

end ReadStatusCommand

structure DigitalInputInfo where
  isOn : Bool
  deriving DecidableEq, Repr

namespace ReadInputDigitalCommand

def decode (data : List UInt8) : Except Fault DigitalInputInfo := do
  let b ← readAt data 0
  pure ⟨b ≠ 0⟩

def run (address : DigitalInputPort) (sendCommand : SendCommand σ) (s : σ) :
    Except Fault (Except String DigitalInputInfo) × σ :=
  ask sendCommand s .readInputDigital [address.value]
    (guarded List.isEmpty "READ_INPUT_DIGITAL: payload vazio (esperado 1 byte)" decode)

theorem within_decode : Within 1 decode :=
  within_readAt_bind (by omega) fun _ => within_pure _ _

end ReadInputDigitalCommand

structure AnalogInputInfo where
  value : UInt16
  deriving DecidableEq, Repr

namespace ReadAnalogInputCommand

def decode (data : List UInt8) : Except Fault AnalogInputInfo := do
  let high ← readAt data 0
  let low ← readAt data 1
  pure ⟨word high low⟩

def run (address : AnalogInputPort) (sendCommand : SendCommand σ) (s : σ) :
    Except Fault (Except String AnalogInputInfo) × σ :=
  ask sendCommand s .readAnalogInput [address.value]
    (guarded (·.length < 2) "READ_ANALOG_INPUT: payload inesperado, esperado >=2 bytes" decode)

theorem within_decode : Within 2 decode :=
  within_readAt_bind (by omega) fun _ => within_readAt_bind (by omega) fun _ => within_pure _ _

end ReadAnalogInputCommand

structure SensorDistanceInfo where
  value : UInt16
  deriving DecidableEq, Repr

namespace ReadSensorDistanceCommand

def decode (data : List UInt8) : Except Fault SensorDistanceInfo := do
  let high ← readAt data 0
  let low ← readAt data 1
  pure ⟨word high low⟩

def run (mode : SensorDistanceMode) (sendCommand : SendCommand σ) (s : σ) :
    Except Fault (Except String SensorDistanceInfo) × σ :=
  ask sendCommand s .readSensorDistance [mode.value]
    (guarded (·.length < 2) "READ_SENSOR_DISTANCE: payload inesperado, esperado 2 bytes" decode)

theorem within_decode : Within 2 decode :=
  within_readAt_bind (by omega) fun _ => within_readAt_bind (by omega) fun _ => within_pure _ _

end ReadSensorDistanceCommand

structure StatusSpecialInfo where
  radioxOff : Bool
  inverter0 : Bool
  deriving DecidableEq, Repr

namespace ReadStatusSpecialCommand

def decode (data : List UInt8) : Except Fault StatusSpecialInfo := do
  let b0 ← readAt data 0
  pure ⟨flag b0 0x01, flag b0 0x02⟩

def run (sendCommand : SendCommand σ) (s : σ) :
    Except Fault (Except String StatusSpecialInfo) × σ :=
  ask sendCommand s .readStatusSpecial []
    (guarded List.isEmpty "READ_STATUS_SPECIAL: payload vazio (esperado 1 byte)" decode)

theorem within_decode : Within 1 decode :=
  within_readAt_bind (by omega) fun _ => within_pure _ _

end ReadStatusSpecialCommand

structure ChaveLigaInfo where
  ligado : Bool
  deriving DecidableEq, Repr

namespace ReadChaveLigaCommand

def decode (data : List UInt8) : Except Fault ChaveLigaInfo := do
  let b ← readAt data 0
  pure ⟨b ≠ 0⟩

def run (sendCommand : SendCommand σ) (s : σ) :
    Except Fault (Except String ChaveLigaInfo) × σ :=
  ask sendCommand s .readChaveLiga []
    (guarded (·.length < 1) "READ_CHAVE_LIGA: payload inesperado, esperado >=1 byte" decode)

theorem within_decode : Within 1 decode :=
  within_readAt_bind (by omega) fun _ => within_pure _ _

end ReadChaveLigaCommand

/-- The year is wider than the byte it has on the wire. -/
structure DataHoraInfo where
  second : UInt8
  minute : UInt8
  hour : UInt8
  weekday : UInt8
  day : UInt8
  month : UInt8
  year : UInt16
  control : UInt8
  deriving DecidableEq, Repr

namespace ReadDataHoraCommand

def decode (data : List UInt8) : Except Fault DataHoraInfo := do
  -- byte 0 is reserved
  let second ← readAt data 1
  let minute ← readAt data 2
  let hour ← readAt data 3
  let weekday ← readAt data 4
  let day ← readAt data 5
  let month ← readAt data 6
  let year ← readAt data 7
  let control ← readAt data 8
  pure ⟨second, minute, hour, weekday, day, month, year.toUInt16, control⟩

def run (sendCommand : SendCommand σ) (s : σ) :
    Except Fault (Except String DataHoraInfo) × σ :=
  ask sendCommand s .readDataHora []
    (guarded (·.length < 9) "READ_DATA_HORA: payload inesperado, esperado >=9 bytes" decode)

theorem within_decode : Within 9 decode :=
  within_readAt_bind (by omega) fun _ => within_readAt_bind (by omega) fun _ =>
    within_readAt_bind (by omega) fun _ => within_readAt_bind (by omega) fun _ =>
    within_readAt_bind (by omega) fun _ => within_readAt_bind (by omega) fun _ =>
    within_readAt_bind (by omega) fun _ => within_readAt_bind (by omega) fun _ =>
    within_pure _ _

end ReadDataHoraCommand

structure MacPcInfo where
  mac : Vector UInt8 6
  deriving DecidableEq, Repr

namespace ReadMacPcCommand

def decode (data : List UInt8) : Except Fault MacPcInfo := do
  let mac ← copyN data 6
  pure ⟨mac⟩

def run (sendCommand : SendCommand σ) (s : σ) :
    Except Fault (Except String MacPcInfo) × σ :=
  ask sendCommand s .readMacPc []
    (guarded (·.length < 6) "READ_MAC_PC: payload inesperado, esperado >=6 bytes" decode)

theorem within_decode : Within 6 decode :=
  (within_copyN 6).bind fun _ => within_pure _ _

end ReadMacPcCommand

structure Info1Info where
  info : Vector UInt8 15
  deriving DecidableEq, Repr

namespace ReadInfo1Command

def decode (data : List UInt8) : Except Fault Info1Info := do
  let info ← copyN data 15
  pure ⟨info⟩

def run (sendCommand : SendCommand σ) (s : σ) :
    Except Fault (Except String Info1Info) × σ :=
  ask sendCommand s .readInfo1 []
    (guarded (·.length < 15) "READ_INFO1: payload inesperado, esperado >=15 bytes" decode)

theorem within_decode : Within 15 decode :=
  (within_copyN 15).bind fun _ => within_pure _ _

end ReadInfo1Command

structure Info2Info where
  info : Vector UInt8 15
  deriving DecidableEq, Repr

namespace ReadInfo2Command

def decode (data : List UInt8) : Except Fault Info2Info := do
  let info ← copyN data 15
  pure ⟨info⟩

def run (sendCommand : SendCommand σ) (s : σ) :
    Except Fault (Except String Info2Info) × σ :=
  ask sendCommand s .readInfo2 []
    (guarded (·.length < 15) "READ_INFO2: payload inesperado, esperado >=15 bytes" decode)

theorem within_decode : Within 15 decode :=
  (within_copyN 15).bind fun _ => within_pure _ _

end ReadInfo2Command

structure Info3Info where
  info : Vector UInt8 15
  deriving DecidableEq, Repr

namespace ReadInfo3Command

def decode (data : List UInt8) : Except Fault Info3Info := do
  let info ← copyN data 15
  pure ⟨info⟩

def run (sendCommand : SendCommand σ) (s : σ) :
    Except Fault (Except String Info3Info) × σ :=
  ask sendCommand s .readInfo3 []
    (guarded (·.length < 15) "READ_INFO3: payload inesperado, esperado >=15 bytes" decode)

theorem within_decode : Within 15 decode :=
  (within_copyN 15).bind fun _ => within_pure _ _

end ReadInfo3Command

/-- A value of `enum class KeyCode : uint8_t` (`utils/enum_/keyboard_keycodes.h`). -/
structure KeyCode where
  value : UInt8
  deriving DecidableEq, Repr

structure KeyPressedInfo where
  code : KeyCode
  shift : Bool
  deriving DecidableEq, Repr

namespace ReadKeyPressedCommand

def decode (data : List UInt8) : Except Fault KeyPressedInfo := do
  let b ← readAt data 0
  pure ⟨⟨b &&& 0x7F⟩, flag b 0x80⟩

def run (sendCommand : SendCommand σ) (s : σ) :
    Except Fault (Except String KeyPressedInfo) × σ :=
  ask sendCommand s .cmdKeyPressed []
    (guarded List.isEmpty "CMD_KEY_PRESSED: payload inesperado, esperado 1 byte" decode)

theorem within_decode : Within 1 decode :=
  within_readAt_bind (by omega) fun _ => within_pure _ _

end ReadKeyPressedCommand

structure KeyReleasedInfo where
  code : KeyCode
  deriving DecidableEq, Repr

namespace ReadKeyReleasedCommand

def decode (data : List UInt8) : Except Fault KeyReleasedInfo := do
  let b ← readAt data 0
  pure ⟨⟨b &&& 0x7F⟩⟩

def run (sendCommand : SendCommand σ) (s : σ) :
    Except Fault (Except String KeyReleasedInfo) × σ :=
  ask sendCommand s .cmdKeyReleased []
    (guarded List.isEmpty "CMD_KEY_RELEASED: payload inesperado, esperado 1 byte" decode)

theorem within_decode : Within 1 decode :=
  within_readAt_bind (by omega) fun _ => within_pure _ _

end ReadKeyReleasedCommand

structure VersionInfo where
  version : UInt8
  revision : UInt8
  deriving DecidableEq, Repr

namespace ReadVersionCommand

def decode (data : List UInt8) : Except Fault VersionInfo := do
  let version ← readAt data 0
  let revision ← readAt data 1
  pure ⟨version, revision⟩

def run (sendCommand : SendCommand σ) (s : σ) :
    Except Fault (Except String VersionInfo) × σ :=
  ask sendCommand s .cmdVersion []
    (guarded (·.length < 2) "CMD_VERSION: payload inesperado, esperado >=2 bytes" decode)

theorem within_decode : Within 2 decode :=
  within_readAt_bind (by omega) fun _ => within_readAt_bind (by omega) fun _ => within_pure _ _

end ReadVersionCommand

/-- The read commands, with what their constructors take. -/
inductive ReadCommand
  | readFirmware | readStatus
  | readInputDigital (address : DigitalInputPort)
  | readAnalogInput (address : AnalogInputPort)
  | readSensorDistance (mode : SensorDistanceMode)
  | readStatusSpecial | readChaveLiga | readDataHora | readMacPc
  | readInfo1 | readInfo2 | readInfo3
  | readKeyPressed | readKeyReleased | readVersion
  deriving DecidableEq, Repr

namespace ReadCommand

def Info : ReadCommand → Type
  | .readFirmware => FirmwareInfo
  | .readStatus => StatusInfo
  | .readInputDigital _ => DigitalInputInfo
  | .readAnalogInput _ => AnalogInputInfo
  | .readSensorDistance _ => SensorDistanceInfo
  | .readStatusSpecial => StatusSpecialInfo
  | .readChaveLiga => ChaveLigaInfo
  | .readDataHora => DataHoraInfo
  | .readMacPc => MacPcInfo
  | .readInfo1 => Info1Info
  | .readInfo2 => Info2Info
  | .readInfo3 => Info3Info
  | .readKeyPressed => KeyPressedInfo
  | .readKeyReleased => KeyReleasedInfo
  | .readVersion => VersionInfo

def command : ReadCommand → MCBCommand.Enumerator
  | .readFirmware => .readFirmware
  | .readStatus => .readStatus
  | .readInputDigital _ => .readInputDigital
  | .readAnalogInput _ => .readAnalogInput
  | .readSensorDistance _ => .readSensorDistance
  | .readStatusSpecial => .readStatusSpecial
  | .readChaveLiga => .readChaveLiga
  | .readDataHora => .readDataHora
  | .readMacPc => .readMacPc
  | .readInfo1 => .readInfo1
  | .readInfo2 => .readInfo2
  | .readInfo3 => .readInfo3
  | .readKeyPressed => .cmdKeyPressed
  | .readKeyReleased => .cmdKeyReleased
  | .readVersion => .cmdVersion

/-- The payload of the request. -/
def request : ReadCommand → List UInt8
  | .readInputDigital address => [address.value]
  | .readAnalogInput address => [address.value]
  | .readSensorDistance mode => [mode.value]
  | _ => []

/-- The bytes that a response has to have. -/
def minimum : ReadCommand → ℕ
  | .readFirmware => 3
  | .readStatus => 2
  | .readInputDigital _ => 1
  | .readAnalogInput _ => 2
  | .readSensorDistance _ => 2
  | .readStatusSpecial => 1
  | .readChaveLiga => 1
  | .readDataHora => 9
  | .readMacPc => 6
  | .readInfo1 => 15
  | .readInfo2 => 15
  | .readInfo3 => 15
  | .readKeyPressed => 1
  | .readKeyReleased => 1
  | .readVersion => 2

def run (sendCommand : SendCommand σ) (s : σ) :
    (c : ReadCommand) → Except Fault (Except String c.Info) × σ
  | .readFirmware => ReadFirmwareCommand.run sendCommand s
  | .readStatus => ReadStatusCommand.run sendCommand s
  | .readInputDigital address => ReadInputDigitalCommand.run address sendCommand s
  | .readAnalogInput address => ReadAnalogInputCommand.run address sendCommand s
  | .readSensorDistance mode => ReadSensorDistanceCommand.run mode sendCommand s
  | .readStatusSpecial => ReadStatusSpecialCommand.run sendCommand s
  | .readChaveLiga => ReadChaveLigaCommand.run sendCommand s
  | .readDataHora => ReadDataHoraCommand.run sendCommand s
  | .readMacPc => ReadMacPcCommand.run sendCommand s
  | .readInfo1 => ReadInfo1Command.run sendCommand s
  | .readInfo2 => ReadInfo2Command.run sendCommand s
  | .readInfo3 => ReadInfo3Command.run sendCommand s
  | .readKeyPressed => ReadKeyPressedCommand.run sendCommand s
  | .readKeyReleased => ReadKeyReleasedCommand.run sendCommand s
  | .readVersion => ReadVersionCommand.run sendCommand s

/-- All of them ask, check the size of the response, and decode what they checked for. -/
theorem run_eq (c : ReadCommand) : ∃ (short : List UInt8 → Bool) (message : String)
    (decode : List UInt8 → Except Fault c.Info),
    (∀ v, short v = true ↔ v.length < c.minimum) ∧ Within c.minimum decode ∧
      ∀ {σ : Type} (sendCommand : SendCommand σ) (s : σ),
        c.run sendCommand s =
          ask sendCommand s c.command c.request (guarded short message decode) := by
  have hless (n : ℕ) (v : List UInt8) : decide (v.length < n) = true ↔ v.length < n :=
    decide_eq_true_iff
  have hempty (v : List UInt8) : v.isEmpty = true ↔ v.length < 1 := by
    rw [List.isEmpty_iff_length_eq_zero, Nat.lt_one_iff]
  cases c with
  | readFirmware => exact ⟨_, _, _, hless 3, ReadFirmwareCommand.within_decode, fun _ _ => rfl⟩
  | readStatus => exact ⟨_, _, _, hless 2, ReadStatusCommand.within_decode, fun _ _ => rfl⟩
  | readInputDigital address =>
    exact ⟨_, _, _, hempty, ReadInputDigitalCommand.within_decode, fun _ _ => rfl⟩
  | readAnalogInput address =>
    exact ⟨_, _, _, hless 2, ReadAnalogInputCommand.within_decode, fun _ _ => rfl⟩
  | readSensorDistance mode =>
    exact ⟨_, _, _, hless 2, ReadSensorDistanceCommand.within_decode, fun _ _ => rfl⟩
  | readStatusSpecial =>
    exact ⟨_, _, _, hempty, ReadStatusSpecialCommand.within_decode, fun _ _ => rfl⟩
  | readChaveLiga => exact ⟨_, _, _, hless 1, ReadChaveLigaCommand.within_decode, fun _ _ => rfl⟩
  | readDataHora => exact ⟨_, _, _, hless 9, ReadDataHoraCommand.within_decode, fun _ _ => rfl⟩
  | readMacPc => exact ⟨_, _, _, hless 6, ReadMacPcCommand.within_decode, fun _ _ => rfl⟩
  | readInfo1 => exact ⟨_, _, _, hless 15, ReadInfo1Command.within_decode, fun _ _ => rfl⟩
  | readInfo2 => exact ⟨_, _, _, hless 15, ReadInfo2Command.within_decode, fun _ _ => rfl⟩
  | readInfo3 => exact ⟨_, _, _, hless 15, ReadInfo3Command.within_decode, fun _ _ => rfl⟩
  | readKeyPressed => exact ⟨_, _, _, hempty, ReadKeyPressedCommand.within_decode, fun _ _ => rfl⟩
  | readKeyReleased => exact ⟨_, _, _, hempty, ReadKeyReleasedCommand.within_decode, fun _ _ => rfl⟩
  | readVersion => exact ⟨_, _, _, hless 2, ReadVersionCommand.within_decode, fun _ _ => rfl⟩

/-- A response too short is an exception, and no other response is. Nothing outside of the response
is ever read, and what stands behind the part asked for changes nothing. -/
theorem run_in_bounds {σ : Type} (c : ReadCommand) (sendCommand : SendCommand σ) (s t : σ)
    (data : List UInt8) (hdata : sendCommand s c.command.value c.request = (.ok data, t)) :
    ((∃ message, c.run sendCommand s = (.ok (.error message), t)) ↔ data.length < c.minimum) ∧
      (c.minimum ≤ data.length → ∃ info, c.run sendCommand s = (.ok (.ok info), t) ∧
        ∀ (sendCommand' : SendCommand σ) (s' t' : σ) (data' : List UInt8),
          sendCommand' s' c.command.value c.request = (.ok data', t') →
          data'.take c.minimum = data.take c.minimum →
          c.run sendCommand' s' = (.ok (.ok info), t')) := by
  obtain ⟨short, message, decode, hshort, hdecode, hrun⟩ := c.run_eq
  have hasked {sendCommand' : SendCommand σ} {s' t' : σ} {data' : List UInt8}
      (h : sendCommand' s' c.command.value c.request = (.ok data', t')) :
      c.run sendCommand' s' = (guarded short message decode data', t') := by
    rw [hrun, ask_of_ok h]
  have hlong (hmin : c.minimum ≤ data.length) :
      ∃ info, guarded short message decode data = .ok (.ok info) ∧
        ∀ w, w.take c.minimum = data.take c.minimum →
          guarded short message decode w = .ok (.ok info) :=
    hdecode.guarded hshort hmin
  constructor
  · constructor
    · intro h
      obtain ⟨text, hthrown⟩ := h
      by_contra hmin
      obtain ⟨info, hinfo, -⟩ := hlong (Nat.le_of_not_lt hmin)
      rw [hasked hdata, hinfo] at hthrown
      cases hthrown
    · intro hmin
      rw [hasked hdata, guarded_of_short ((hshort data).mpr hmin)]
      exact ⟨message, rfl⟩
  · intro hmin
    obtain ⟨info, hinfo, hfront⟩ := hlong hmin
    refine ⟨info, by rw [hasked hdata, hinfo], ?_⟩
    intro sendCommand' s' t' data' hdata' htake
    rw [hasked hdata', hfront data' htake]

theorem run_in_bounds_firmware :
    let board : SendCommand Unit := fun _ _ _ => (.ok [0x01, 0x02, 0x04, 0x09], ())
    (∃ message, run board () .readFirmware = (.ok (.error message), ())) ↔
      [0x01, 0x02, 0x04, 0x09].length < minimum .readFirmware :=
  (run_in_bounds .readFirmware (fun _ _ _ => (.ok [0x01, 0x02, 0x04, 0x09], ())) () () _ rfl).1

end ReadCommand

end Spectrum.Command
