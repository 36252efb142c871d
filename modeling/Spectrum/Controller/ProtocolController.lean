import Spectrum.Receiver.Awaiter

/-! The controller of a board: one command at a time over a TCP transport
(`controller/protocol_controller.cpp`), and its assembly by the factory. -/
namespace Spectrum.Controller
open Protocols Transport.Network Receiver

namespace ProtocolController

def sendFailure : String := "ProtocolController::sendCommand: envio falhou"

/-- `sends` are the results of the `::send` calls. `none` means that `send` still waits for
one of them. -/
def sendCommand (l : Link) (cmd : UInt8) (payload : List UInt8) (sends : List ℤ) :
    Option (Except String (List UInt8) × Link) :=
  let frame := MCBProtocol.buildFrame cmd payload
  (l.impl.send frame sends).map fun (sent, impl) =>
    let l := { l with impl := impl }
    if !sent then (.error sendFailure, l)
    else MCBFrameVectorAwaiter.waitForFrame l

end ProtocolController

/-- `controller::DeviceController`: its transport. The protocol and the awaiter keep no
state of their own. -/
structure DeviceController where
  transport : Impl
  deriving DecidableEq, Repr

def DeviceController.connect (d : DeviceController) (env : ConnectEnv) :
    Except Abort (Bool × DeviceController) :=
  (d.transport.connect env).map fun (ok, transport) => (ok, ⟨transport⟩)

/-- `none` is the default-initialised configuration, with an indeterminate port. -/
structure ControllerFactory where
  tcpConfig : Option TCPConfig
  deriving DecidableEq, Repr

namespace ControllerFactory

def buildMCB : ControllerFactory := ⟨none⟩

def withTCP (_ : ControllerFactory) (ip : String) (port : UInt16) : ControllerFactory :=
  ⟨some ⟨ip, port⟩⟩

/-- Nothing subscribes to the transport: frames are taken by `receive` alone. -/
def build (f : ControllerFactory) : Except String DeviceController :=
  match f.tcpConfig with
  | none => .error "ControllerFactory::build: TCP config não definido"
  | some config => .ok ⟨.new config⟩

end ControllerFactory

end Spectrum.Controller
