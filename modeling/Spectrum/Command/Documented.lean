import Spectrum.Command.Write

/-! What the write commands put on the wire, against the formats that their headers document. -/
namespace Spectrum.Command
open Utils

/-- A write command as it is asked for: its class, and what the constructor is given. -/
inductive WriteCommand
  | special (address value : UInt8)
  | config (address : ConfigAddress) (values : List UInt8)
  | digitalOut (port : DigitalOutputPort) (value : UInt8)
  | dataHora (data : DataHoraInfo)
  | baudUart1 (speedCode parityCode : UInt8)
  | baudUart2 (speedCode parityCode : UInt8)
  | info1 (data : Vector UInt8 15)
  | info2 (data : Vector UInt8 15)
  | info3 (data : Vector UInt8 15)
  | buzzer (durationMs : UInt16)
  deriving DecidableEq, Repr

/-- A `sendCommand` that acknowledges everything and writes it down. -/
def recorder : SendCommand (List (UInt8 × List UInt8)) :=
  fun sent cmd payload => (.ok [], sent ++ [(cmd, payload)])

/-- The format of a payload, by its command. -/
def Documented : MCBCommand.Enumerator → List UInt8 → Prop
  | .writeSpecial, payload =>
    ∃ address value, payload = [address, value] ∧ address ≤ 0x0F ∧ value ≤ 1
  | .writeConfig, payload =>
    ∃ address values, payload = address :: values ∧ (values.length = 1 ∨ values.length = 2) ∧
      (address = ConfigAddress.shutdownTimeout.value → values.length = 2)
  | .writeDigitalOut, payload => ∃ port value, payload = [port, value] ∧ value ≤ 1
  | .writeDataHora, payload =>
    ∃ second minute hour weekday day month year control,
      payload = [0, second, minute, hour, weekday, day, month, year, control] ∧
        second ≤ 59 ∧ minute ≤ 59 ∧ (1 ≤ weekday ∧ weekday ≤ 7) ∧ (1 ≤ day ∧ day ≤ 31) ∧
        (1 ≤ month ∧ month ≤ 12) ∧ year ≤ 99
  | .writeBaudUart1, payload | .writeBaudUart2, payload =>
    ∃ speedCode parityCode, payload = [speedCode, parityCode] ∧ speedCode ≤ 8 ∧ parityCode ≤ 3
  | .writeInfo1, payload | .writeInfo2, payload | .writeInfo3, payload =>
    payload.length = 15 ∧ ∃ b ∈ payload, b ≠ 0
  | .cmdBuzzer, payload =>
    ∃ high low, payload = [high, low] ∧ 256 * high.toNat + low.toNat ≤ 16000
  | _, _ => True

/-- If the constructor did not throw, one request was sent, with a documented payload. -/
def Conforms (cmd : MCBCommand.Enumerator) (outcome : Except String (List (UInt8 × List UInt8))) :
    Prop :=
  ∀ sent, outcome = .ok sent → ∃ payload, sent = [(cmd.value, payload)] ∧ Documented cmd payload

theorem conforms_error (cmd : MCBCommand.Enumerator) (message : String) :
    Conforms cmd (.error message) := by
  intro sent h
  cases h

theorem conforms_ok_iff {cmd : MCBCommand.Enumerator} {payload : List UInt8} :
    Conforms cmd (.ok [(cmd.value, payload)]) ↔ Documented cmd payload := by
  constructor
  · intro h
    obtain ⟨payload', hsent, hdoc⟩ := h _ rfl
    have hsame : payload = payload' := (Prod.mk.inj (List.cons.inj hsent).1).2
    rwa [hsame]
  · intro hdoc sent hsent
    cases hsent
    exact ⟨payload, rfl, hdoc⟩

theorem buzzer_bytes (duration : UInt16) :
    256 * (duration >>> 8 &&& 0xFF).toUInt8.toNat + (duration &&& 0xFF).toUInt8.toNat =
      duration.toNat := by
  have hmask (n : ℕ) : n &&& 255 = n % 256 := Nat.and_two_pow_sub_one_eq_mod n 8
  have hlt := duration.toNat_lt
  rw [UInt16.toNat_toUInt8, UInt16.toNat_toUInt8, UInt16.toNat_and, UInt16.toNat_and,
    UInt16.toNat_shiftRight]
  rw [show (0xFF : UInt16).toNat = 255 from rfl, show (8 : UInt16).toNat % 16 = 8 from rfl, hmask,
    hmask, Nat.shiftRight_eq_div_pow]
  omega

namespace WriteCommand

def command : WriteCommand → MCBCommand.Enumerator
  | .special _ _ => .writeSpecial
  | .config _ _ => .writeConfig
  | .digitalOut _ _ => .writeDigitalOut
  | .dataHora _ => .writeDataHora
  | .baudUart1 _ _ => .writeBaudUart1
  | .baudUart2 _ _ => .writeBaudUart2
  | .info1 _ => .writeInfo1
  | .info2 _ => .writeInfo2
  | .info3 _ => .writeInfo3
  | .buzzer _ => .cmdBuzzer

/-- The constructor, then `execute()`: the exception of the constructor, or what was sent. -/
def outcome : WriteCommand → Except String (List (UInt8 × List UInt8))
  | .special address value =>
    (WriteSpecialCommand.new address value).map fun c => (c.execute recorder []).2
  | .config address values =>
    (WriteConfigCommand.new address values).map fun c => (c.execute recorder []).2
  | .digitalOut port value =>
    (WriteDigitalOutCommand.new port value).map fun c => (c.execute recorder []).2
  | .dataHora data =>
    (WriteDataHoraCommand.new data).map fun c => (c.execute recorder []).2
  | .baudUart1 speedCode parityCode =>
    (WriteBaudUart1Command.new speedCode parityCode).map fun c =>
      (WriteBaudUart1Command.execute c recorder []).2
  | .baudUart2 speedCode parityCode =>
    (WriteBaudUart2Command.new speedCode parityCode).map fun c =>
      (WriteBaudUart2Command.execute c recorder []).2
  | .info1 data =>
    (WriteInfo1Command.new data).map fun c => (WriteInfo1Command.execute c recorder []).2
  | .info2 data =>
    (WriteInfo2Command.new data).map fun c => (WriteInfo2Command.execute c recorder []).2
  | .info3 data =>
    (WriteInfo3Command.new data).map fun c => (WriteInfo3Command.execute c recorder []).2
  | .buzzer durationMs =>
    (WriteBuzzerCommand.new durationMs).map fun c => (c.execute recorder []).2

/-- What the three constructors that check too little would have to check. -/
def Fits : WriteCommand → Prop
  | .special address value => address ≤ 0x0F ∧ value ≤ 1
  | .config address values => address = .shutdownTimeout → values.length ≠ 1
  | .dataHora data =>
    data.second ≤ 59 ∧ data.minute ≤ 59 ∧ (1 ≤ data.weekday ∧ data.weekday ≤ 7) ∧
      (1 ≤ data.day ∧ data.day ≤ 31) ∧ (1 ≤ data.month ∧ data.month ≤ 12) ∧
      data.year.toNat % 256 ≤ 99
  | _ => True

theorem conforms_special_iff (address value : UInt8) :
    Conforms .writeSpecial (special address value).outcome ↔ address ≤ 0x0F ∧ value ≤ 1 := by
  have hsent : (special address value).outcome =
      .ok [(MCBCommand.Enumerator.writeSpecial.value, [address, value])] := rfl
  rw [hsent, conforms_ok_iff]
  constructor
  · intro h
    obtain ⟨address', value', hpayload, hformat⟩ := h
    cases hpayload
    exact hformat
  · exact fun h => ⟨address, value, rfl, h⟩

theorem conforms_config_iff (address : ConfigAddress) (values : List UInt8) :
    Conforms .writeConfig (config address values).outcome ↔
      (address = .shutdownTimeout → values.length ≠ 1) := by
  change Conforms _ ((WriteConfigCommand.new address values).map fun c =>
    (c.execute recorder []).2) ↔ _
  unfold WriteConfigCommand.new
  split
  · next hsize =>
    have hlength : values.length ≠ 1 := by
      rcases hsize with hnil | hlong
      · simp [hnil]
      · omega
    exact iff_of_true (conforms_error _ _) fun _ => hlength
  · next hsize =>
    rw [not_or, Nat.not_lt] at hsize
    have hpos := List.length_pos_iff.mpr hsize.1
    have hcode : address.value = ConfigAddress.shutdownTimeout.value ↔
        address = .shutdownTimeout :=
      ⟨fun h => by cases address; exact congrArg _ h, fun h => by rw [h]⟩
    change Conforms .writeConfig (.ok [(MCBCommand.Enumerator.writeConfig.value,
      address.value :: values)]) ↔ _
    rw [conforms_ok_iff]
    constructor
    · intro h haddress
      obtain ⟨address', values', hpayload, -, htwo⟩ := h
      cases hpayload
      have hlength := htwo (hcode.mpr haddress)
      omega
    · intro h
      refine ⟨address.value, values, rfl, by omega, ?_⟩
      intro haddress
      have hlength := h (hcode.mp haddress)
      omega

theorem conforms_digitalOut (port : DigitalOutputPort) (value : UInt8) :
    Conforms .writeDigitalOut (digitalOut port value).outcome := by
  change Conforms _ ((WriteDigitalOutCommand.new port value).map fun c =>
    (c.execute recorder []).2)
  unfold WriteDigitalOutCommand.new
  split
  · exact conforms_error _ _
  · next h =>
    apply conforms_ok_iff.mpr
    exact ⟨port.value, value, rfl, UInt8.not_lt.mp h⟩

theorem conforms_dataHora_iff (data : DataHoraInfo) :
    Conforms .writeDataHora (dataHora data).outcome ↔ (dataHora data).Fits := by
  have hsent : (dataHora data).outcome =
      .ok [(MCBCommand.Enumerator.writeDataHora.value, WriteDataHoraCommand.payload data)] := rfl
  have hyear : data.year.toUInt8 ≤ 99 ↔ data.year.toNat % 256 ≤ 99 := by
    rw [UInt8.le_iff_toNat_le, UInt16.toNat_toUInt8]
    rfl
  rw [hsent, conforms_ok_iff]
  simp only [Fits]
  rw [← hyear]
  constructor
  · intro h
    obtain ⟨second, minute, hour, weekday, day, month, year, control, hpayload, hformat⟩ := h
    cases hpayload
    exact hformat
  · exact fun h => ⟨_, _, _, _, _, _, _, _, rfl, h⟩

/-- The constructors of the two UART classes let documented codes through only. -/
theorem conforms_baudUart {cmd : MCBCommand.Enumerator}
    (hcmd : cmd = .writeBaudUart1 ∨ cmd = .writeBaudUart2) (badSpeed badParity : String)
    (speedCode parityCode : UInt8) :
    Conforms cmd ((WriteBaudUartCommand.new badSpeed badParity speedCode parityCode).map fun c =>
      (tell recorder [] cmd [c.speedCode, c.parityCode]).2) := by
  unfold WriteBaudUartCommand.new
  split
  · exact conforms_error _ _
  · next hspeed =>
    split
    · exact conforms_error _ _
    · next hparity =>
      apply conforms_ok_iff.mpr
      have hcodes : ∃ speed parity, [speedCode, parityCode] = [speed, parity] ∧ speed ≤ 8 ∧
          parity ≤ 3 :=
        ⟨speedCode, parityCode, rfl, UInt8.not_lt.mp hspeed, UInt8.not_lt.mp hparity⟩
      rcases hcmd with rfl | rfl <;> exact hcodes

theorem conforms_info {cmd : MCBCommand.Enumerator}
    (hcmd : cmd = .writeInfo1 ∨ cmd = .writeInfo2 ∨ cmd = .writeInfo3) (zeros : String)
    (data : Vector UInt8 15) :
    Conforms cmd ((WriteInfoCommand.new zeros data).map fun c =>
      (tell recorder [] cmd c.data.toList).2) := by
  unfold WriteInfoCommand.new
  split
  · exact conforms_error _ _
  · next h =>
    apply conforms_ok_iff.mpr
    have hbyte : ∃ b ∈ data.toList, b ≠ 0 := by
      rw [List.all_eq_true, not_forall] at h
      obtain ⟨b, hb⟩ := h
      simp only [Classical.not_imp, decide_eq_true_eq] at hb
      exact ⟨b, hb⟩
    have htext : data.toList.length = 15 ∧ ∃ b ∈ data.toList, b ≠ 0 :=
      ⟨data.length_toList, hbyte⟩
    rcases hcmd with rfl | rfl | rfl <;> exact htext

theorem conforms_buzzer (durationMs : UInt16) :
    Conforms .cmdBuzzer (buzzer durationMs).outcome := by
  change Conforms _ ((WriteBuzzerCommand.new durationMs).map fun c => (c.execute recorder []).2)
  unfold WriteBuzzerCommand.new
  split
  · exact conforms_error _ _
  · next h =>
    have htime : durationMs.toNat ≤ 16000 := UInt16.le_iff_toNat_le.mp (UInt16.not_lt.mp h)
    rw [← buzzer_bytes] at htime
    apply conforms_ok_iff.mpr
    exact ⟨_, _, rfl, htime⟩

/-- The payloads are the documented ones exactly for the arguments that fit. -/
theorem documented_iff (w : WriteCommand) : Conforms w.command w.outcome ↔ w.Fits := by
  cases w with
  | special address value => exact conforms_special_iff address value
  | config address values => exact conforms_config_iff address values
  | digitalOut port value => exact iff_of_true (conforms_digitalOut port value) trivial
  | dataHora data => exact conforms_dataHora_iff data
  | baudUart1 speedCode parityCode =>
    exact iff_of_true (conforms_baudUart (.inl rfl) _ _ speedCode parityCode) trivial
  | baudUart2 speedCode parityCode =>
    exact iff_of_true (conforms_baudUart (.inr rfl) _ _ speedCode parityCode) trivial
  | info1 data => exact iff_of_true (conforms_info (.inl rfl) _ data) trivial
  | info2 data => exact iff_of_true (conforms_info (.inr (.inl rfl)) _ data) trivial
  | info3 data => exact iff_of_true (conforms_info (.inr (.inr rfl)) _ data) trivial
  | buzzer durationMs => exact iff_of_true (conforms_buzzer durationMs) trivial

/-- `WriteSpecialCommand(proto, 0x10, 2)` sends both bytes as they are. -/
theorem not_documented_special :
    (special 0x10 2).outcome = .ok [(0x61, [0x10, 2])] ∧
      ¬ Conforms (special 0x10 2).command (special 0x10 2).outcome := by
  refine ⟨rfl, ?_⟩
  intro h
  have hfits := (conforms_special_iff 0x10 2).mp h
  exact absurd hfits.1 (by decide)

end WriteCommand

end Spectrum.Command
