import Spectrum.Protocols.Layout

/-! Decoding against encoding. The encoder sums over the command byte, the decoder over the
command that its table makes of it, so the two meet on the bytes the table fixes. -/
namespace Spectrum.Protocols.MCBProtocol
open Utils

/-- The bytes that `toMCBCommand` maps to themselves. -/
def recognised : List UInt8 := [0x51, 0x52, 0x54, 0x5A, 0x5B, 0x63, 0xFF]

theorem toMCBCommand_of_mem {b : UInt8} (hb : b ∈ recognised) : toMCBCommand b = ⟨b⟩ := by
  simp only [recognised, List.mem_cons, List.not_mem_nil, or_false] at hb
  rcases hb with rfl | rfl | rfl | rfl | rfl | rfl | rfl <;> rfl

theorem toMCBCommand_of_not_mem {b : UInt8} (hb : b ∉ recognised) :
    toMCBCommand b = MCBCommand.Enumerator.unknown := by
  unfold toMCBCommand
  split <;> first | rfl | exact absurd (by decide) hb

theorem toMCBCommand_eq_iff {b : UInt8} : toMCBCommand b = ⟨b⟩ ↔ b ∈ recognised := by
  constructor
  · intro h
    by_contra hb
    rw [toMCBCommand_of_not_mem hb] at h
    have hunknown : MCBCommand.Enumerator.unknown.value = b := MCBCommand.mk.inj h
    apply hb
    rw [← hunknown]
    decide
  · exact toMCBCommand_of_mem

theorem parse_buildFrame (cmd : UInt8) {payload : List UInt8} (hp : payload.length ≤ 254) :
    parseFrame (buildFrame cmd payload) = if cmd ∈ recognised then some payload else none := by
  have hiff : calculateChecksum ⟨cmd⟩ payload = calculateChecksum (toMCBCommand cmd) payload ↔
      cmd ∈ recognised := by
    rw [calculateChecksum_inj, eq_comm, toMCBCommand_eq_iff]
  rw [parseFrame, buildFrame, buildFrame_eq_wire, parseFrame_wire hp]
  simp only [hiff]
  split <;> rfl

/-- Decoding undoes encoding exactly for the six commands of the decoder's table and `UNKNOWN`. -/
theorem parseFrame_buildFrame_iff (cmd : MCBCommand.Enumerator) (payload : List UInt8)
    (hp : payload.length ≤ 254) :
    parseFrame (buildFrame cmd.value payload) = some payload ↔
      cmd ∈ [.readFirmware, .readStatus, .readAnalogInput, .readChaveLiga, .readDataHora,
        .writeDigitalOut, .unknown] := by
  have htable : cmd.value ∈ recognised ↔ cmd ∈ [.readFirmware, .readStatus, .readAnalogInput,
      .readChaveLiga, .readDataHora, .writeDigitalOut, .unknown] := by
    cases cmd <;> decide
  rw [parse_buildFrame _ hp, ← htable]
  simp

theorem parseFrame_buildFrame_firmware :
    parseFrame (buildFrame MCBCommand.Enumerator.readFirmware.value [1, 2, 3]) =
      some [1, 2, 3] :=
  (parseFrame_buildFrame_iff .readFirmware [1, 2, 3] (by decide)).mpr (by decide)

/-- A read of the digital inputs does not survive the round trip. -/
theorem parseFrame_buildFrame_inputDigital :
    [0x10].length ≤ 254 ∧
      parseFrame (buildFrame MCBCommand.Enumerator.readInputDigital.value [0x10]) = none := by
  decide

/-- A frame with a command outside the table, its checksum taken over `UNKNOWN`. -/
def Forged (buffer : List UInt8) : Prop :=
  ∃ (b : UInt8) (d : List UInt8), b ∉ recognised ∧ d.length ≤ 254 ∧
    buffer = [stx, UInt8.ofNat (1 + d.length), b] ++ d ++
      [UInt8.ofNat (0xFF + (d.map UInt8.toNat).sum), etx]

theorem forged_iff {buffer : List UInt8} :
    Forged buffer ↔ ∃ b d, b ∉ recognised ∧ d.length ≤ 254 ∧
      buffer = wire b d (calculateChecksum MCBCommand.Enumerator.unknown d) := by
  have hchk (d : List UInt8) : calculateChecksum MCBCommand.Enumerator.unknown d =
      UInt8.ofNat (0xFF + (d.map UInt8.toNat).sum) := calculateChecksum_eq_ofNat _ d
  simp only [Forged, wire, hchk, List.cons_append, List.nil_append]

/-- What the parser accepts comes from the encoder, with the checksum of the bytes present,
exactly for the buffers that are not forged. -/
theorem parseFrame_sound_iff (buffer : List UInt8) :
    (∀ d, parseFrame buffer = some d → buffer = buildFrame (buffer.getD 2 0) d ∧
      (buffer.getD (3 + d.length) 0).toNat =
        ((buffer.getD 2 0).toNat + (d.map UInt8.toNat).sum) % 256) ↔ ¬ Forged buffer := by
  rw [forged_iff]
  constructor
  · rintro h ⟨b, d, hb, hd, rfl⟩
    have hparse : parseFrame (wire b d (calculateChecksum MCBCommand.Enumerator.unknown d)) =
        some d := by
      rw [parseFrame, parseFrame_wire hd, toMCBCommand_of_not_mem hb, if_pos rfl]
      rfl
    obtain ⟨hbuild, -⟩ := h d hparse
    rw [show (wire b d _).getD 2 0 = b from rfl, buildFrame, buildFrame_eq_wire, wire_inj,
      calculateChecksum_inj] at hbuild
    exact hb (toMCBCommand_eq_iff.mp ((toMCBCommand_of_not_mem hb).trans hbuild.2.2))
  · intro h d hparse
    obtain ⟨f, hf, rfl⟩ := Option.map_eq_some_iff.mp hparse
    obtain ⟨b, hd, -, rfl⟩ := parseFrame_eq_some_iff.mp hf
    by_cases hb : b ∈ recognised
    · have hcmd : (wire b f.data (calculateChecksum ⟨b⟩ f.data)).getD 2 0 = b := rfl
      have hchk : (wire b f.data (calculateChecksum ⟨b⟩ f.data)).getD (3 + f.data.length) 0 =
          calculateChecksum ⟨b⟩ f.data := by
        simp [wire, Nat.add_comm 3]
      rw [toMCBCommand_of_mem hb, hcmd, hchk, buildFrame, buildFrame_eq_wire]
      exact ⟨rfl, calculateChecksum_toNat _ _⟩
    · rw [toMCBCommand_of_not_mem hb] at h
      exact absurd ⟨b, f.data, hb, hd, rfl⟩ h

/-- An acknowledgement of `READ_INPUT_DIGITAL` with checksum 0xFF is accepted, though the
encoder writes 0x53 there. -/
theorem parseFrame_accepts_forged :
    parseFrame [0x02, 0x01, 0x53, 0xFF, 0x03] = some [] ∧
      [0x02, 0x01, 0x53, 0xFF, 0x03] ≠ buildFrame 0x53 [] := by
  decide

end Spectrum.Protocols.MCBProtocol
