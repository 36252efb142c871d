import Spectrum.Command.Write

/-! Setting the clock of the board and reading it back. -/
namespace Spectrum.Command
open Foundation Utils

variable {σ : Type}

/-- In this state the board stores a clock payload, and then gives it back. -/
def StoresClock (sendCommand : SendCommand σ) (s : σ) : Prop :=
  ∀ payload : List UInt8, payload.length = 9 → ∃ ack t t',
    sendCommand s MCBCommand.Enumerator.writeDataHora.value payload = (.ok ack, t) ∧
      sendCommand t MCBCommand.Enumerator.readDataHora.value [] = (.ok payload, t')

/-- The decoder finds every field where the encoder put it, but the year is one byte there. -/
theorem decode_payload (info : DataHoraInfo) :
    ReadDataHoraCommand.decode (WriteDataHoraCommand.payload info) =
      .ok { info with year := info.year.toUInt8.toUInt16 } := rfl

theorem toUInt16_toUInt8_eq_iff (year : UInt16) :
    year.toUInt8.toUInt16 = year ↔ year.toNat < 256 := by
  have hcut : year.toUInt8.toUInt16.toNat = year.toNat % 256 := by
    rw [UInt8.toNat_toUInt16, UInt16.toNat_toUInt8]
  constructor
  · intro h
    rw [h] at hcut
    omega
  · intro h
    apply UInt16.toNat_inj.mp
    omega

theorem run_after_execute {sendCommand : SendCommand σ} {s : σ} (h : StoresClock sendCommand s)
    (info : DataHoraInfo) : ∃ t,
      (WriteDataHoraCommand.mk info).execute sendCommand s = (.ok (), t) ∧
        (ReadDataHoraCommand.run sendCommand t).1 =
          .ok (.ok { info with year := info.year.toUInt8.toUInt16 }) := by
  obtain ⟨ack, t, t', hwrite, hread⟩ := h (WriteDataHoraCommand.payload info) rfl
  refine ⟨t, tell_of_ok hwrite, ?_⟩
  unfold ReadDataHoraCommand.run
  rw [ask_of_ok hread]
  dsimp only
  apply guarded_of_long _ (decode_payload info)
  exact Bool.false_ne_true

/-- The constructor accepts every date, the board takes it, and what it gives back is the date
itself exactly when the year fits the byte it is sent in. -/
theorem clock_agrees_iff (sendCommand : SendCommand σ) (s : σ) (h : StoresClock sendCommand s)
    (info : DataHoraInfo) : ∃ c t, WriteDataHoraCommand.new info = .ok c ∧
      c.execute sendCommand s = (.ok (), t) ∧
      ((ReadDataHoraCommand.run sendCommand t).1 = .ok (.ok info) ↔ info.year.toNat < 256) := by
  obtain ⟨t, hwritten, hread⟩ := run_after_execute h info
  refine ⟨⟨info⟩, t, rfl, hwritten, ?_⟩
  rw [hread, ← toUInt16_toUInt8_eq_iff]
  constructor
  · intro hsame
    have hinfo := Except.ok.inj (Except.ok.inj hsame)
    exact congrArg DataHoraInfo.year hinfo
  · intro hyear
    rw [hyear]

/-- A board whose state is the clock payload it was sent last. -/
def clockBoard : SendCommand (List UInt8) := fun stored cmd payload =>
  if cmd = MCBCommand.Enumerator.writeDataHora.value then (.ok [], payload)
  else (.ok stored, stored)

theorem storesClock_clockBoard (stored : List UInt8) : StoresClock clockBoard stored :=
  fun payload _ => ⟨[], payload, payload, rfl, rfl⟩

/-- 15:30:45 on a Wednesday, 15 September of the year given. -/
def september (year : UInt16) : DataHoraInfo := ⟨45, 30, 15, 3, 15, 9, year, 0⟩

theorem clock_agrees_year25 : ∃ c t, WriteDataHoraCommand.new (september 25) = .ok c ∧
    c.execute clockBoard [] = (.ok (), t) ∧
    ((ReadDataHoraCommand.run clockBoard t).1 = .ok (.ok (september 25)) ↔
      (september 25).year.toNat < 256) :=
  clock_agrees_iff clockBoard [] (storesClock_clockBoard []) (september 25)

/-- 2025 comes back as 233. -/
theorem clock_disagrees_year2025 : StoresClock clockBoard [] ∧
    ∃ c t, WriteDataHoraCommand.new (september 2025) = .ok c ∧
      c.execute clockBoard [] = (.ok (), t) ∧
      (ReadDataHoraCommand.run clockBoard t).1 = .ok (.ok (september 233)) ∧
      september 233 ≠ september 2025 :=
  ⟨storesClock_clockBoard [], ⟨september 2025⟩, WriteDataHoraCommand.payload (september 2025),
    rfl, rfl, rfl, by decide⟩

end Spectrum.Command
