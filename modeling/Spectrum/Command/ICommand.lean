import Spectrum.Foundation.Prefix
import Spectrum.Utils.McbPortAddresses

/-! What the command classes share (`command/i_command.h`): `execute()` calls the `sendCommand` of
the object the command was made with, once. -/
namespace Spectrum.Command
open Foundation Utils

/-- `sendCommand` of a board in some state: the response or the exception, and the state after. -/
abbrev SendCommand (σ : Type) := σ → UInt8 → List UInt8 → Except String (List UInt8) × σ

variable {σ β : Type}

/-- `run()` of a read command. An exception of `sendCommand` passes through. -/
def ask (sendCommand : SendCommand σ) (s : σ) (cmd : MCBCommand.Enumerator) (payload : List UInt8)
    (decode : List UInt8 → Except Fault (Except String β)) : Except Fault (Except String β) × σ :=
  match sendCommand s cmd.value payload with
  | (.error error, s) => (.ok (.error error), s)
  | (.ok data, s) => (decode data, s)

/-- `run()` of a write command, which looks at no response. -/
def tell (sendCommand : SendCommand σ) (s : σ) (cmd : MCBCommand.Enumerator)
    (payload : List UInt8) : Except String Unit × σ :=
  match sendCommand s cmd.value payload with
  | (.error error, s) => (.error error, s)
  | (.ok _, s) => (.ok (), s)

theorem ask_of_ok {sendCommand : SendCommand σ} {s t : σ} {cmd : MCBCommand.Enumerator}
    {payload data : List UInt8} (h : sendCommand s cmd.value payload = (.ok data, t))
    (decode : List UInt8 → Except Fault (Except String β)) :
    ask sendCommand s cmd payload decode = (decode data, t) := by
  unfold ask
  rw [h]

theorem tell_of_ok {sendCommand : SendCommand σ} {s t : σ} {cmd : MCBCommand.Enumerator}
    {payload data : List UInt8} (h : sendCommand s cmd.value payload = (.ok data, t)) :
    tell sendCommand s cmd payload = (.ok (), t) := by
  unfold tell
  rw [h]

end Spectrum.Command
