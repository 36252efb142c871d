import Spectrum.Command.Documented
import Spectrum.Protocols.Layout

/-! Every command as the request it makes, and the way back: what is read in a request by the
payload formats of the headers. -/
namespace Spectrum.Command
open Utils Protocols

/-- An object of one of the command classes, so its constructor has not thrown. -/
inductive ICommand
  | read (c : ReadCommand)
  | writeSpecial (c : WriteSpecialCommand)
  | writeConfig (c : WriteConfigCommand)
  | writeDigitalOut (c : WriteDigitalOutCommand)
  | writeAnalogOut (c : WriteAnalogOutCommand)
  | writeNetworkConfig (c : WriteNetworkConfigCommand)
  | writeMac (c : WriteMacCommand)
  | writeBaudUart1 (c : WriteBaudUartCommand)
  | writeBaudUart2 (c : WriteBaudUartCommand)
  | writeDigitalTimer (c : WriteDigitalTimerCommand)
  | desligaMcb
  | writeDataHora (c : WriteDataHoraCommand)
  | writeMacPc (c : WriteMacPcCommand)
  | writeInfo1 (c : WriteInfoCommand)
  | writeInfo2 (c : WriteInfoCommand)
  | writeInfo3 (c : WriteInfoCommand)
  | writeLedTecla (c : WriteLedTeclaCommand)
  | writeBuzzer (c : WriteBuzzerCommand)
  | writeBeepTecla (c : WriteBeepTeclaCommand)
  deriving DecidableEq, Repr

namespace ICommand

/-- What `execute()` asks of `sendCommand`, as a board writes it down that answers every request
with an empty payload. -/
def sent : ICommand → List (UInt8 × List UInt8)
  | .read c => (c.run recorder []).2
  | .writeSpecial c => (c.execute recorder []).2
  | .writeConfig c => (c.execute recorder []).2
  | .writeDigitalOut c => (c.execute recorder []).2
  | .writeAnalogOut c => (c.execute recorder []).2
  | .writeNetworkConfig c => (c.execute recorder []).2
  | .writeMac c => (c.execute recorder []).2
  | .writeBaudUart1 c => (WriteBaudUart1Command.execute c recorder []).2
  | .writeBaudUart2 c => (WriteBaudUart2Command.execute c recorder []).2
  | .writeDigitalTimer c => (c.execute recorder []).2
  | .desligaMcb => (DesligaMcbCommand.execute recorder []).2
  | .writeDataHora c => (c.execute recorder []).2
  | .writeMacPc c => (c.execute recorder []).2
  | .writeInfo1 c => (WriteInfo1Command.execute c recorder []).2
  | .writeInfo2 c => (WriteInfo2Command.execute c recorder []).2
  | .writeInfo3 c => (WriteInfo3Command.execute c recorder []).2
  | .writeLedTecla c => (c.execute recorder []).2
  | .writeBuzzer c => (c.execute recorder []).2
  | .writeBeepTecla c => (c.execute recorder []).2

def command : ICommand → MCBCommand.Enumerator
  | .read c => c.command
  | .writeSpecial _ => .writeSpecial
  | .writeConfig _ => .writeConfig
  | .writeDigitalOut _ => .writeDigitalOut
  | .writeAnalogOut _ => .writeAnalogOut
  | .writeNetworkConfig _ => .writeNetworkConfig
  | .writeMac _ => .writeMac
  | .writeBaudUart1 _ => .writeBaudUart1
  | .writeBaudUart2 _ => .writeBaudUart2
  | .writeDigitalTimer _ => .writeDigitalTimer
  | .desligaMcb => .desligaMcb
  | .writeDataHora _ => .writeDataHora
  | .writeMacPc _ => .writeMacPc
  | .writeInfo1 _ => .writeInfo1
  | .writeInfo2 _ => .writeInfo2
  | .writeInfo3 _ => .writeInfo3
  | .writeLedTecla _ => .cmdLedTecla
  | .writeBuzzer _ => .cmdBuzzer
  | .writeBeepTecla _ => .cmdBeepTecla

def payload : ICommand → List UInt8
  | .read c => c.request
  | .writeSpecial c => [c.address, c.value]
  | .writeConfig c => c.address.value :: c.values
  | .writeDigitalOut c => [c.port.value, c.value]
  | .writeAnalogOut c => [c.address.value, c.dacValue]
  | .writeNetworkConfig c => WriteNetworkConfigCommand.payload c.cfg
  | .writeMac c => c.addr.mac.toList
  | .writeBaudUart1 c | .writeBaudUart2 c => [c.speedCode, c.parityCode]
  | .writeDigitalTimer c =>
    [c.port.value, (c.timeout >>> 8 &&& 0xFF).toUInt8, (c.timeout &&& 0xFF).toUInt8]
  | .desligaMcb => []
  | .writeDataHora c => WriteDataHoraCommand.payload c.data
  | .writeMacPc c => c.info.mac.toList
  | .writeInfo1 c | .writeInfo2 c | .writeInfo3 c => c.data.toList
  | .writeLedTecla c => [c.key.value, if c.on then 1 else 0]
  | .writeBuzzer c => [(c.duration >>> 8 &&& 0xFF).toUInt8, (c.duration &&& 0xFF).toUInt8]
  | .writeBeepTecla c => [if c.enabled then 1 else 0]

theorem sent_eq (c : ICommand) : c.sent = [(c.command.value, c.payload)] := by
  cases c with
  | read c =>
    obtain ⟨short, message, decode, -, -, hrun⟩ := c.run_eq
    show (c.run recorder []).2 = _
    rw [hrun]
    rfl
  | _ => rfl

theorem payload_length_le (c : ICommand) : c.payload.length ≤ 16 := by
  cases c with
  | read c =>
    show c.request.length ≤ 16
    cases c <;> simp [ReadCommand.request]
  | writeConfig c =>
    have hvalues := c.valid.2
    simp only [payload, List.length_cons]
    omega
  | writeNetworkConfig c => simp [payload, WriteNetworkConfigCommand.payload]
  | writeDataHora c => simp [payload, WriteDataHoraCommand.payload]
  | _ => simp [payload]

/-- The command with what a request cannot carry cut off: the high byte of a year. -/
def onWire : ICommand → ICommand
  | .writeDataHora c => .writeDataHora ⟨{ c.data with year := c.data.year.toUInt8.toUInt16 }⟩
  | c => c

end ICommand

/-- An array of bytes, when the payload is as long. -/
def toArray (n : ℕ) (payload : List UInt8) : Option (Vector UInt8 n) :=
  if h : payload.length = n then some ⟨payload.toArray, h⟩ else none

theorem toArray_toList {n : ℕ} (v : Vector UInt8 n) : toArray n v.toList = some v := by
  unfold toArray
  rw [dif_pos v.length_toList]
  exact congrArg some (Vector.toArray_inj.mp v.toArray_toList)

/-- An array of bytes at the beginning of the payload, and what stands behind it. -/
def takeArray (n : ℕ) (payload : List UInt8) : Option (Vector UInt8 n × List UInt8) :=
  (toArray n (payload.take n)).map fun v => (v, payload.drop n)

theorem takeArray_append {n : ℕ} (v : Vector UInt8 n) (rest : List UInt8) :
    takeArray n (v.toList ++ rest) = some (v, rest) := by
  unfold takeArray
  rw [List.take_left' v.length_toList, List.drop_left' v.length_toList, toArray_toList]
  rfl

/-- The text in the payload of the three `WRITE_INFO` commands. -/
def receivedInfo (payload : List UInt8) : Option WriteInfoCommand :=
  (toArray 15 payload).bind fun data =>
    if h : ¬ data.toList.all (· = 0) = true then some ⟨data, h⟩ else none

theorem receivedInfo_toList (c : WriteInfoCommand) : receivedInfo c.data.toList = some c := by
  unfold receivedInfo
  rw [toArray_toList, Option.bind_some, dif_pos c.valid]

def receivedNetwork (payload : List UInt8) : Option WriteNetworkConfigCommand := do
  let (ip, rest) ← takeArray 4 payload
  let (mask, rest) ← takeArray 4 rest
  let (gateway, rest) ← takeArray 4 rest
  let dns ← toArray 4 rest
  pure ⟨⟨ip, mask, gateway, dns⟩⟩

theorem receivedNetwork_payload (c : WriteNetworkConfigCommand) :
    receivedNetwork (ICommand.writeNetworkConfig c).payload = some c := by
  obtain ⟨⟨ip, mask, gateway, dns⟩⟩ := c
  have hpayload : (ICommand.writeNetworkConfig ⟨⟨ip, mask, gateway, dns⟩⟩).payload =
      ip.toList ++ (mask.toList ++ (gateway.toList ++ dns.toList)) := by
    simp only [ICommand.payload, WriteNetworkConfigCommand.payload, List.append_assoc]
  unfold receivedNetwork
  rw [hpayload]
  simp only [takeArray_append, toArray_toList, Option.bind_eq_bind, Option.bind_some]
  rfl

theorem word_toNat (high low : UInt8) :
    (word high low).toNat = 256 * high.toNat + low.toNat := by
  have hhigh := high.toNat_lt
  have hlow := low.toNat_lt
  have hsum : high.toNat <<< 8 + low.toNat = high.toNat <<< 8 ||| low.toNat :=
    Nat.shiftLeft_add_eq_or_of_lt hlow high.toNat
  have hshift : high.toNat <<< 8 = high.toNat * 256 := Nat.shiftLeft_eq high.toNat 8
  unfold word
  rw [UInt16.toNat_or, UInt16.toNat_shiftLeft, UInt8.toNat_toUInt16, UInt8.toNat_toUInt16]
  show high.toNat <<< 8 % 65536 ||| low.toNat = _
  rw [Nat.mod_eq_of_lt (by omega), ← hsum, hshift]
  omega

theorem word_bytes (n : UInt16) :
    word (n >>> 8 &&& 0xFF).toUInt8 (n &&& 0xFF).toUInt8 = n := by
  apply UInt16.toNat_inj.mp
  rw [word_toNat, buzzer_bytes]

/-- What is read in a request by the formats of the headers. -/
def received : MCBCommand.Enumerator → List UInt8 → Option ICommand
  | .readFirmware, [] => some (.read .readFirmware)
  | .readStatus, [] => some (.read .readStatus)
  | .readInputDigital, [address] => some (.read (.readInputDigital ⟨address⟩))
  | .readAnalogInput, [address] => some (.read (.readAnalogInput ⟨address⟩))
  | .readSensorDistance, [mode] => some (.read (.readSensorDistance ⟨mode⟩))
  | .readStatusSpecial, [] => some (.read .readStatusSpecial)
  | .readChaveLiga, [] => some (.read .readChaveLiga)
  | .readDataHora, [] => some (.read .readDataHora)
  | .readMacPc, [] => some (.read .readMacPc)
  | .readInfo1, [] => some (.read .readInfo1)
  | .readInfo2, [] => some (.read .readInfo2)
  | .readInfo3, [] => some (.read .readInfo3)
  | .writeSpecial, [address, value] => some (.writeSpecial ⟨address, value⟩)
  | .writeConfig, address :: values =>
    if h : values ≠ [] ∧ values.length ≤ 2 then some (.writeConfig ⟨⟨address⟩, values, h⟩) else none
  | .writeDigitalOut, [port, value] =>
    if h : value ≤ 1 then some (.writeDigitalOut ⟨⟨port⟩, value, h⟩) else none
  | .writeAnalogOut, [address, dacValue] => some (.writeAnalogOut ⟨⟨address⟩, dacValue⟩)
  | .writeNetworkConfig, payload => (receivedNetwork payload).map .writeNetworkConfig
  | .writeMac, payload => (toArray 6 payload).map fun mac => .writeMac ⟨⟨mac⟩⟩
  | .writeBaudUart1, [speedCode, parityCode] =>
    if h : speedCode ≤ 0x08 ∧ parityCode ≤ 0x03 then
      some (.writeBaudUart1 ⟨speedCode, parityCode, h⟩)
    else none
  | .writeBaudUart2, [speedCode, parityCode] =>
    if h : speedCode ≤ 0x08 ∧ parityCode ≤ 0x03 then
      some (.writeBaudUart2 ⟨speedCode, parityCode, h⟩)
    else none
  | .writeDigitalTimer, [port, high, low] => some (.writeDigitalTimer ⟨⟨port⟩, word high low⟩)
  | .desligaMcb, [] => some .desligaMcb
  | .writeDataHora, [_, second, minute, hour, weekday, day, month, year, control] =>
    some (.writeDataHora ⟨⟨second, minute, hour, weekday, day, month, year.toUInt16, control⟩⟩)
  | .writeMacPc, payload => (toArray 6 payload).map fun mac => .writeMacPc ⟨⟨mac⟩⟩
  | .writeInfo1, payload => (receivedInfo payload).map .writeInfo1
  | .writeInfo2, payload => (receivedInfo payload).map .writeInfo2
  | .writeInfo3, payload => (receivedInfo payload).map .writeInfo3
  | .cmdKeyPressed, [] => some (.read .readKeyPressed)
  | .cmdVersion, [] => some (.read .readVersion)
  | .cmdKeyReleased, [] => some (.read .readKeyReleased)
  | .cmdLedTecla, [key, on] => some (.writeLedTecla ⟨⟨key⟩, on ≠ 0⟩)
  | .cmdBuzzer, [high, low] =>
    if h : word high low ≤ 16000 then some (.writeBuzzer ⟨word high low, h⟩) else none
  | .cmdBeepTecla, [enabled] => some (.writeBeepTecla ⟨enabled ≠ 0⟩)
  | _, _ => none

/-- Of every request the command comes back, but for the high byte of a year. -/
theorem received_payload (c : ICommand) : received c.command c.payload = some c.onWire := by
  cases c with
  | read c => cases c <;> rfl
  | writeConfig c => exact dif_pos c.valid
  | writeDigitalOut c => exact dif_pos c.valid
  | writeBaudUart1 c => exact dif_pos c.valid
  | writeBaudUart2 c => exact dif_pos c.valid
  | writeNetworkConfig c =>
    show (receivedNetwork (ICommand.writeNetworkConfig c).payload).map _ = _
    rw [receivedNetwork_payload]
    rfl
  | writeMac c =>
    show (toArray 6 c.addr.mac.toList).map _ = _
    rw [toArray_toList]
    rfl
  | writeMacPc c =>
    show (toArray 6 c.info.mac.toList).map _ = _
    rw [toArray_toList]
    rfl
  | writeDigitalTimer c =>
    show some (ICommand.writeDigitalTimer ⟨_, word _ _⟩) = _
    rw [word_bytes]
    rfl
  | writeInfo1 c =>
    show (receivedInfo c.data.toList).map _ = _
    rw [receivedInfo_toList]
    rfl
  | writeInfo2 c =>
    show (receivedInfo c.data.toList).map _ = _
    rw [receivedInfo_toList]
    rfl
  | writeInfo3 c =>
    show (receivedInfo c.data.toList).map _ = _
    rw [receivedInfo_toList]
    rfl
  | writeLedTecla c =>
    obtain ⟨key, on⟩ := c
    cases on <;> rfl
  | writeBuzzer c =>
    obtain ⟨duration, valid⟩ := c
    have hvalid : word (duration >>> 8 &&& 0xFF).toUInt8 (duration &&& 0xFF).toUInt8 ≤ 16000 := by
      rw [word_bytes]
      exact valid
    show dite _ _ _ = _
    rw [dif_pos hvalid]
    simp only [word_bytes]
    rfl
  | writeBeepTecla c =>
    obtain ⟨enabled⟩ := c
    cases enabled <;> rfl
  | _ => rfl

def enumerators : List MCBCommand.Enumerator :=
  [.readFirmware, .readStatus, .readInputDigital, .readAnalogInput, .readSensorDistance,
    .readStatusSpecial, .readChaveLiga, .readDataHora, .readMacPc, .readInfo1, .readInfo2,
    .readInfo3, .writeSpecial, .writeConfig, .writeDigitalOut, .writeAnalogOut,
    .writeNetworkConfig, .writeMac, .writeBaudUart1, .writeBaudUart2, .writeDigitalTimer,
    .desligaMcb, .writeDataHora, .writeMacPc, .writeInfo1, .writeInfo2, .writeInfo3,
    .cmdKeyPressed, .cmdVersion, .cmdKeyReleased, .cmdLedTecla, .cmdBuzzer, .cmdBeepTecla,
    .cmdPiscaTecla, .unknown]

/-- The command with this byte. -/
def withValue (b : UInt8) : Option MCBCommand.Enumerator := enumerators.find? (·.value = b)

theorem withValue_value (e : MCBCommand.Enumerator) : withValue e.value = some e := by
  cases e <;> rfl

/-- What is read in a frame, its command and its payload taken from where the encoder puts them. -/
def receivedFrame (frame : List UInt8) : Option ICommand :=
  (withValue (frame.getD 2 0)).bind fun cmd =>
    received cmd ((frame.drop 3).take (frame.length - 5))

theorem receivedFrame_buildFrame (c : ICommand) :
    receivedFrame (MCBProtocol.buildFrame c.command.value c.payload) = some c.onWire := by
  have hframe : MCBProtocol.buildFrame c.command.value c.payload =
      MCBProtocol.wire c.command.value c.payload
        (MCBProtocol.calculateChecksum ⟨c.command.value⟩ c.payload) :=
    MCBProtocol.buildFrame_eq_wire ⟨c.command.value⟩ c.payload
  have hpayload (chk : UInt8) :
      ((MCBProtocol.wire c.command.value c.payload chk).drop 3).take c.payload.length =
        c.payload := List.take_left
  unfold receivedFrame
  rw [hframe, MCBProtocol.wire_length, Nat.add_sub_cancel, hpayload]
  show (withValue c.command.value).bind _ = _
  rw [withValue_value, Option.bind_some, received_payload]

end Spectrum.Command
