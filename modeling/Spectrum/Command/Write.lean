import Spectrum.Command.Read

/-! The write commands (`command/mcb/write_*_command.cpp`, `command/mcb/desliga_mcb_command.cpp` and
`command/keyboard/write_*_command.cpp`). Some constructors throw on arguments that the header
rules out, and what they let through is a field of the class; three constructors check less than
the header says, and the classes behind `WriteBuzzerCommand` have nothing to check. -/
namespace Spectrum.Command
open Utils

variable {σ : Type}

structure WriteSpecialCommand where
  address : UInt8
  value : UInt8
  deriving DecidableEq, Repr

namespace WriteSpecialCommand

/-- Nothing is checked. -/
def new (address value : UInt8) : Except String WriteSpecialCommand := .ok ⟨address, value⟩

def execute (c : WriteSpecialCommand) (sendCommand : SendCommand σ) (s : σ) :
    Except String Unit × σ :=
  tell sendCommand s .writeSpecial [c.address, c.value]

end WriteSpecialCommand

structure WriteConfigCommand where
  address : ConfigAddress
  values : List UInt8
  valid : values ≠ [] ∧ values.length ≤ 2
  deriving DecidableEq, Repr

namespace WriteConfigCommand

/-- One or two bytes, whatever the address. -/
def new (address : ConfigAddress) (values : List UInt8) : Except String WriteConfigCommand :=
  if h : values = [] ∨ 2 < values.length then
    .error "WRITE_CONFIG: valores inválidos, deve ter 1 ou 2 bytes"
  else .ok ⟨address, values, not_or.mp h |>.imp_right Nat.le_of_not_lt⟩

def execute (c : WriteConfigCommand) (sendCommand : SendCommand σ) (s : σ) :
    Except String Unit × σ :=
  tell sendCommand s .writeConfig ([c.address.value] ++ c.values)

end WriteConfigCommand

structure WriteDigitalOutCommand where
  port : DigitalOutputPort
  value : UInt8
  valid : value ≤ 1
  deriving DecidableEq, Repr

namespace WriteDigitalOutCommand

def new (port : DigitalOutputPort) (value : UInt8) : Except String WriteDigitalOutCommand :=
  if h : 1 < value then .error "WRITE_DIGITAL_OUT: valor inválido, deve ser 0 ou 1"
  else .ok ⟨port, value, UInt8.not_lt.mp h⟩

def execute (c : WriteDigitalOutCommand) (sendCommand : SendCommand σ) (s : σ) :
    Except String Unit × σ :=
  tell sendCommand s .writeDigitalOut [c.port.value, c.value]

end WriteDigitalOutCommand

structure WriteDataHoraCommand where
  data : DataHoraInfo
  deriving DecidableEq, Repr

namespace WriteDataHoraCommand

/-- Nothing is checked. -/
def new (dataHora : DataHoraInfo) : Except String WriteDataHoraCommand := .ok ⟨dataHora⟩

/-- The year is cut to its low byte. -/
def payload (data : DataHoraInfo) : List UInt8 :=
  [0, data.second, data.minute, data.hour, data.weekday, data.day, data.month, data.year.toUInt8,
    data.control]

def execute (c : WriteDataHoraCommand) (sendCommand : SendCommand σ) (s : σ) :
    Except String Unit × σ :=
  tell sendCommand s .writeDataHora (payload c.data)

end WriteDataHoraCommand

/-- `WriteBaudUart1Command` and `WriteBaudUart2Command`. -/
structure WriteBaudUartCommand where
  speedCode : UInt8
  parityCode : UInt8
  valid : speedCode ≤ 0x08 ∧ parityCode ≤ 0x03
  deriving DecidableEq, Repr

/-- The two constructors, by the texts they throw. -/
def WriteBaudUartCommand.new (badSpeed badParity : String) (speedCode parityCode : UInt8) :
    Except String WriteBaudUartCommand :=
  if hs : 0x08 < speedCode then .error badSpeed
  else if hp : 0x03 < parityCode then .error badParity
  else .ok ⟨speedCode, parityCode, UInt8.not_lt.mp hs, UInt8.not_lt.mp hp⟩

namespace WriteBaudUart1Command

def new : UInt8 → UInt8 → Except String WriteBaudUartCommand :=
  WriteBaudUartCommand.new "WRITE_BAUD_UART1: speedCode inválido"
    "WRITE_BAUD_UART1: parityCode inválido"

def execute (c : WriteBaudUartCommand) (sendCommand : SendCommand σ) (s : σ) :
    Except String Unit × σ :=
  tell sendCommand s .writeBaudUart1 [c.speedCode, c.parityCode]

end WriteBaudUart1Command

namespace WriteBaudUart2Command

def new : UInt8 → UInt8 → Except String WriteBaudUartCommand :=
  WriteBaudUartCommand.new "WRITE_BAUD_UART2: speedCode inválido"
    "WRITE_BAUD_UART2: parityCode inválido"

def execute (c : WriteBaudUartCommand) (sendCommand : SendCommand σ) (s : σ) :
    Except String Unit × σ :=
  tell sendCommand s .writeBaudUart2 [c.speedCode, c.parityCode]

end WriteBaudUart2Command

/-- `WriteInfo1Command`, `WriteInfo2Command` and `WriteInfo3Command`. -/
structure WriteInfoCommand where
  data : Vector UInt8 15
  valid : ¬ data.toList.all (· = 0) = true
  deriving DecidableEq, Repr

/-- The three constructors, by the text they throw. -/
def WriteInfoCommand.new (zeros : String) (data : Vector UInt8 15) :
    Except String WriteInfoCommand :=
  if h : data.toList.all (· = 0) = true then .error zeros else .ok ⟨data, h⟩

namespace WriteInfo1Command

def new : Vector UInt8 15 → Except String WriteInfoCommand :=
  WriteInfoCommand.new "WRITE_INFO1: dado inválido, não pode ser todos zeros"

def execute (c : WriteInfoCommand) (sendCommand : SendCommand σ) (s : σ) :
    Except String Unit × σ :=
  tell sendCommand s .writeInfo1 c.data.toList

end WriteInfo1Command

namespace WriteInfo2Command

def new : Vector UInt8 15 → Except String WriteInfoCommand :=
  WriteInfoCommand.new "WRITE_INFO2: dado inválido, não pode ser todos zeros"

def execute (c : WriteInfoCommand) (sendCommand : SendCommand σ) (s : σ) :
    Except String Unit × σ :=
  tell sendCommand s .writeInfo2 c.data.toList

end WriteInfo2Command

namespace WriteInfo3Command

def new : Vector UInt8 15 → Except String WriteInfoCommand :=
  WriteInfoCommand.new "WRITE_INFO3: dado inválido, não pode ser todos zeros"

def execute (c : WriteInfoCommand) (sendCommand : SendCommand σ) (s : σ) :
    Except String Unit × σ :=
  tell sendCommand s .writeInfo3 c.data.toList

end WriteInfo3Command

structure WriteBuzzerCommand where
  duration : UInt16
  valid : duration ≤ 16000
  deriving DecidableEq, Repr

namespace WriteBuzzerCommand

def new (durationMs : UInt16) : Except String WriteBuzzerCommand :=
  if h : 16000 < durationMs then .error "CMD_BUZZER: durationMs inválido, deve ser 0-16000"
  else .ok ⟨durationMs, UInt16.not_lt.mp h⟩

def execute (c : WriteBuzzerCommand) (sendCommand : SendCommand σ) (s : σ) :
    Except String Unit × σ :=
  let high := (c.duration >>> 8 &&& 0xFF).toUInt8
  let low := (c.duration &&& 0xFF).toUInt8
  tell sendCommand s .cmdBuzzer [high, low]

end WriteBuzzerCommand

structure WriteAnalogOutCommand where
  address : AnalogInputPort
  dacValue : UInt8
  deriving DecidableEq, Repr

def WriteAnalogOutCommand.execute (c : WriteAnalogOutCommand) (sendCommand : SendCommand σ)
    (s : σ) : Except String Unit × σ :=
  tell sendCommand s .writeAnalogOut [c.address.value, c.dacValue]

structure NetworkConfig where
  ip : Vector UInt8 4
  mask : Vector UInt8 4
  gateway : Vector UInt8 4
  dns : Vector UInt8 4
  deriving DecidableEq, Repr

structure WriteNetworkConfigCommand where
  cfg : NetworkConfig
  deriving DecidableEq, Repr

namespace WriteNetworkConfigCommand

def payload (cfg : NetworkConfig) : List UInt8 :=
  cfg.ip.toList ++ cfg.mask.toList ++ cfg.gateway.toList ++ cfg.dns.toList

def execute (c : WriteNetworkConfigCommand) (sendCommand : SendCommand σ) (s : σ) :
    Except String Unit × σ :=
  tell sendCommand s .writeNetworkConfig (payload c.cfg)

end WriteNetworkConfigCommand

structure MacAddr where
  mac : Vector UInt8 6
  deriving DecidableEq, Repr

structure WriteMacCommand where
  addr : MacAddr
  deriving DecidableEq, Repr

def WriteMacCommand.execute (c : WriteMacCommand) (sendCommand : SendCommand σ) (s : σ) :
    Except String Unit × σ :=
  tell sendCommand s .writeMac c.addr.mac.toList

structure WriteMacPcCommand where
  info : MacPcInfo
  deriving DecidableEq, Repr

def WriteMacPcCommand.execute (c : WriteMacPcCommand) (sendCommand : SendCommand σ) (s : σ) :
    Except String Unit × σ :=
  tell sendCommand s .writeMacPc c.info.mac.toList

structure WriteDigitalTimerCommand where
  port : DigitalOutputPort
  timeout : UInt16
  deriving DecidableEq, Repr

def WriteDigitalTimerCommand.execute (c : WriteDigitalTimerCommand) (sendCommand : SendCommand σ)
    (s : σ) : Except String Unit × σ :=
  let high := (c.timeout >>> 8 &&& 0xFF).toUInt8
  let low := (c.timeout &&& 0xFF).toUInt8
  tell sendCommand s .writeDigitalTimer [c.port.value, high, low]

def DesligaMcbCommand.execute (sendCommand : SendCommand σ) (s : σ) : Except String Unit × σ :=
  tell sendCommand s .desligaMcb []

structure WriteLedTeclaCommand where
  key : KeyCode
  on : Bool
  deriving DecidableEq, Repr

def WriteLedTeclaCommand.execute (c : WriteLedTeclaCommand) (sendCommand : SendCommand σ)
    (s : σ) : Except String Unit × σ :=
  tell sendCommand s .cmdLedTecla [c.key.value, if c.on then 1 else 0]

structure WriteBeepTeclaCommand where
  enabled : Bool
  deriving DecidableEq, Repr

def WriteBeepTeclaCommand.execute (c : WriteBeepTeclaCommand) (sendCommand : SendCommand σ)
    (s : σ) : Except String Unit × σ :=
  tell sendCommand s .cmdBeepTecla [if c.enabled then 1 else 0]

end Spectrum.Command
