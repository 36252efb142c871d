import Spectrum.Foundation.Ledger
import Spectrum.Transport.Interface
import Mathlib.Data.Int.Notation

/-! The serial transports (`transport/serial`): `SerialTransport`, `RS232Transport` and
`RS485Transport`. They differ in the codes they log. -/
namespace Spectrum.Transport.Serial
open Foundation Utils

/-- `speed_t`. -/
inductive Speed
  | b4800 | b9600 | b19200 | b38400 | b57600 | b115200
  deriving DecidableEq, Repr

def toSpeedT : BaudRate → Speed
  | .br4800 => .b4800
  | .br9600 => .b9600
  | .br19200 => .b19200
  | .br38400 => .b38400
  | .br57600 => .b57600
  | .br115200 => .b115200

inductive CharSize
  | cs5 | cs6 | cs7 | cs8
  deriving DecidableEq, Repr

/-- The fields of `struct termios` that `connect` changes. -/
structure Termios where
  ospeed : Speed
  ispeed : Speed
  clocal : Bool
  cread : Bool
  parenb : Bool
  cstopb : Bool
  csize : CharSize
  deriving DecidableEq, Repr

/-- What `::open`, `::tcgetattr` and `::tcsetattr` give in one call of `connect()`. -/
structure PortEnv where
  openPort : Bool
  tcgetattr : Option Termios
  tcsetattr : Bool
  deriving DecidableEq, Repr

/-- All three system calls of the attempt succeed. -/
def PortEnv.succeeds (env : PortEnv) : Bool := env.openPort && env.tcgetattr.isSome && env.tcsetattr

/-- The error codes of a class, by what failed. -/
structure Codes where
  openPort : ErrorCode
  tcgetattr : ErrorCode
  tcsetattr : ErrorCode
  notConnected : ErrorCode
  write : ErrorCode
  deriving DecidableEq, Repr

/-- The fields of `Impl`, then the kernel's ledger of descriptors, the attributes set and the
bytes written on each, and the codes logged. -/
structure Impl where
  device : String
  baudRate : BaudRate
  fd : Option ℕ
  status : TransportStatus
  fds : Ledger
  attributes : List (ℕ × Termios)
  written : List (ℕ × List UInt8)
  log : List ErrorCode
  deriving DecidableEq, Repr

namespace Impl

def new (device : String) (baudRate : BaudRate) : Impl where
  device := device
  baudRate := baudRate
  fd := none
  status := .disconnected
  fds := .empty
  attributes := []
  written := []
  log := []

def logCode (s : Impl) (code : ErrorCode) : Impl := { s with log := s.log ++ [code] }

def connect (codes : Codes) (s : Impl) (env : PortEnv) : Bool × Impl :=
  if s.status = .connected then (true, s)
  else if !env.openPort then
    (false, { s.logCode codes.openPort with fd := none, status := .error })
  else
    let fd := s.fds.opened
    let s := { s with fd := some fd, fds := s.fds.acquire }
    match env.tcgetattr with
    -- the descriptor stays in `fd_`, here and below
    | none => (false, { s.logCode codes.tcgetattr with status := .error })
    | some tty =>
      let speed := toSpeedT s.baudRate
      let tty := { tty with ospeed := speed, ispeed := speed }
      let tty := { tty with clocal := true, cread := true, parenb := false, cstopb := false,
                            csize := .cs8 }
      if !env.tcsetattr then (false, { s.logCode codes.tcsetattr with status := .error })
      else (true, { s with attributes := s.attributes ++ [(fd, tty)], status := .connected })

def disconnect (s : Impl) : Bool × Impl :=
  match s.fd with
  | some fd => (true, { s with fds := s.fds.close fd, fd := none, status := .disconnected })
  | none => (true, { s with status := .disconnected })

/-- `bytesWritten` is the result of `::write`. -/
def send (codes : Codes) (s : Impl) (data : List UInt8) (bytesWritten : ℤ) : Bool × Impl :=
  match s.status, s.fd with
  | .connected, some fd =>
    let s := { s with written := s.written ++ [(fd, data.take bytesWritten.toNat)] }
    if bytesWritten < 0 ∨ bytesWritten.toNat ≠ data.length then (false, s.logCode codes.write)
    else (true, s)
  | _, _ => (false, s.logCode codes.notConnected)

/-- `~Impl`. -/
def destroy (s : Impl) : Impl := s.disconnect.2

end Impl

namespace SerialTransport

def codes : Codes where
  openPort := .generatorConnectionError
  tcgetattr := .generatorConnectionError
  tcsetattr := .generatorConnectionError
  notConnected := .generatorConnectionError
  write := .generatorConnectionError

def connect : Impl → PortEnv → Bool × Impl := Impl.connect codes
def disconnect : Impl → Bool × Impl := Impl.disconnect
def send : Impl → List UInt8 → ℤ → Bool × Impl := Impl.send codes

end SerialTransport

namespace RS232Transport

def codes : Codes where
  openPort := .rs232ConnectionFailure
  tcgetattr := .rs232ConfigurationFailure
  tcsetattr := .rs232ConfigurationFailure
  notConnected := .rs232DataSendFailure
  write := .rs232DataSendFailure

def connect : Impl → PortEnv → Bool × Impl := Impl.connect codes
def disconnect : Impl → Bool × Impl := Impl.disconnect
def send : Impl → List UInt8 → ℤ → Bool × Impl := Impl.send codes

end RS232Transport

namespace RS485Transport

def codes : Codes where
  openPort := .rs485ConfigurationFailure
  tcgetattr := .rs485ConnectionFailure
  tcsetattr := .rs485ConfigurationFailure
  notConnected := .rs485ConnectionFailure
  write := .rs485DataSendFailure

def connect : Impl → PortEnv → Bool × Impl := Impl.connect codes
def disconnect : Impl → Bool × Impl := Impl.disconnect
def send : Impl → List UInt8 → ℤ → Bool × Impl := Impl.send codes

end RS485Transport

/-- The three serial classes. -/
inductive Kind
  | serialTransport | rs232Transport | rs485Transport
  deriving DecidableEq, Repr

def Kind.connect : Kind → Impl → PortEnv → Bool × Impl
  | .serialTransport => SerialTransport.connect
  | .rs232Transport => RS232Transport.connect
  | .rs485Transport => RS485Transport.connect

def Kind.disconnect : Kind → Impl → Bool × Impl
  | .serialTransport => SerialTransport.disconnect
  | .rs232Transport => RS232Transport.disconnect
  | .rs485Transport => RS485Transport.disconnect

def Kind.send : Kind → Impl → List UInt8 → ℤ → Bool × Impl
  | .serialTransport => SerialTransport.send
  | .rs232Transport => RS232Transport.send
  | .rs485Transport => RS485Transport.send

def Kind.codes : Kind → Codes
  | .serialTransport => SerialTransport.codes
  | .rs232Transport => RS232Transport.codes
  | .rs485Transport => RS485Transport.codes

theorem Kind.connect_eq (k : Kind) : k.connect = Impl.connect k.codes := by cases k <;> rfl

theorem Kind.disconnect_eq (k : Kind) : k.disconnect = Impl.disconnect := by cases k <;> rfl

theorem Kind.send_eq (k : Kind) : k.send = Impl.send k.codes := by cases k <;> rfl

end Spectrum.Transport.Serial
