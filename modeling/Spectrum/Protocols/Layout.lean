import Spectrum.Protocols.Checksum

/-! The byte layout of a frame, and the exact set of buffers that the parser accepts. -/
namespace Spectrum.Protocols.MCBProtocol
open Utils

/-- A frame with any command and checksum byte, its length byte as the encoder sets it. -/
def wire (cmd : UInt8) (data : List UInt8) (chk : UInt8) : List UInt8 :=
  stx :: UInt8.ofNat (1 + data.length) :: cmd :: (data ++ [chk, etx])

theorem buildFrame_eq_wire (cmd : MCBCommand) (payload : List UInt8) :
    Impl.buildFrame cmd payload = wire cmd.value payload (calculateChecksum cmd payload) := by
  simp [Impl.buildFrame, wire]

@[simp] theorem wire_length (cmd : UInt8) (data : List UInt8) (chk : UInt8) :
    (wire cmd data chk).length = data.length + 5 := by
  simp [wire]

theorem wire_getLast? (cmd : UInt8) (data : List UInt8) (chk : UInt8) :
    (wire cmd data chk).getLast? = some etx := by
  rw [wire, show data ++ [chk, etx] = (data ++ [chk]) ++ [etx] by simp, ← List.cons_append,
    ← List.cons_append, ← List.cons_append, List.getLast?_concat]

theorem wire_inj {b c : UInt8} {d e : List UInt8} {x y : UInt8} :
    wire b d x = wire c e y ↔ b = c ∧ d = e ∧ x = y := by
  constructor
  · intro h
    simp only [wire, List.cons.injEq, true_and] at h
    obtain ⟨-, hb, htail⟩ := h
    obtain ⟨hd, hx⟩ := List.append_inj' htail rfl
    exact ⟨hb, hd, (List.cons.inj hx).1⟩
  · intro h
    obtain ⟨rfl, rfl, rfl⟩ := h
    rfl

theorem lengthByte_toNat {n : ℕ} (hn : n ≤ 254) : (UInt8.ofNat (1 + n)).toNat = 1 + n := by
  rw [UInt8.toNat_ofNat']
  omega

/-- The second byte counts the bytes of the frame, but for four of them. -/
def SelfDescribing (frame : List UInt8) : Prop := (frame.getD 1 0).toNat + 4 = frame.length

instance : DecidablePred SelfDescribing := fun _ => inferInstanceAs (Decidable (_ = _))

/-- The length byte wraps behind a payload of 254 bytes, and no payload is refused. -/
theorem selfDescribing_buildFrame_iff (cmd : UInt8) (payload : List UInt8) :
    SelfDescribing (buildFrame cmd payload) ↔ payload.length ≤ 254 := by
  have hframe : buildFrame cmd payload =
      wire cmd payload (calculateChecksum ⟨cmd⟩ payload) := buildFrame_eq_wire ⟨cmd⟩ payload
  have hbyte : (buildFrame cmd payload).getD 1 0 = UInt8.ofNat (1 + payload.length) := by
    rw [hframe]
    rfl
  unfold SelfDescribing
  rw [hbyte, hframe, wire_length, UInt8.toNat_ofNat']
  omega

/-- With a payload of 255 bytes the length byte is 0. -/
theorem not_selfDescribing_long :
    (buildFrame 0x51 (List.replicate 255 0x00)).getD 1 0 = 0 ∧
      (buildFrame 0x51 (List.replicate 255 0x00)).length = 260 ∧
      ¬ SelfDescribing (buildFrame 0x51 (List.replicate 255 0x00)) := by
  have hframe : buildFrame 0x51 (List.replicate 255 0x00) =
      wire 0x51 (List.replicate 255 0x00) (calculateChecksum ⟨0x51⟩ (List.replicate 255 0x00)) :=
    buildFrame_eq_wire ⟨0x51⟩ _
  have hlength : (buildFrame 0x51 (List.replicate 255 0x00)).length = 260 := by
    rw [hframe, wire_length, List.length_replicate]
  have hbyte : (buildFrame 0x51 (List.replicate 255 0x00)).getD 1 0 = 0 := by
    rw [hframe]
    simp only [wire, List.getD_cons_succ, List.getD_cons_zero, List.length_replicate]
    decide
  refine ⟨hbyte, hlength, ?_⟩
  unfold SelfDescribing
  rw [hbyte, hlength]
  decide

theorem toSizeT_pred {n : ℕ} (hn : n ≤ 254) : toSizeT (((1 + n : ℕ) : ℤ) - 1) = n := by
  unfold toSizeT
  omega

theorem exists_eq_wire {buffer : List UInt8} (hmin : mcbMinFrameSize ≤ buffer.length)
    (hstx : buffer.head? = some stx) (hetx : buffer.getLast? = some etx)
    (hlen : buffer.length = (buffer.getD 1 0).toNat + 4) :
    ∃ b data chk, data.length ≤ 254 ∧ buffer = wire b data chk := by
  match buffer, hmin with
  | s :: n :: b :: y :: z :: rest, _ =>
    -- the tail is the data, the checksum and the last byte
    obtain ⟨init, e, he⟩ : ∃ init e, y :: z :: rest = init ++ [e] :=
      ⟨_, _, (List.dropLast_append_getLast (List.cons_ne_nil y (z :: rest))).symm⟩
    have hinit : init ≠ [] := by
      rintro rfl
      simp at he
    obtain ⟨data, chk, rfl⟩ : ∃ data chk, init = data ++ [chk] :=
      ⟨_, _, (List.dropLast_append_getLast hinit).symm⟩
    rw [he] at hetx hlen ⊢
    have hs : s = stx := by simpa using hstx
    have hee : e = etx := by
      rw [← List.cons_append, ← List.cons_append, ← List.cons_append, List.getLast?_concat] at hetx
      exact Option.some.inj hetx
    have hn : n.toNat = 1 + data.length := by
      simp at hlen
      omega
    have hlt := n.toNat_lt
    have hle : data.length ≤ 254 := by omega
    have hb : n = UInt8.ofNat (1 + data.length) := by
      apply UInt8.toNat_inj.mp
      rw [lengthByte_toNat hle, hn]
    exact ⟨b, data, chk, hle, by simp [wire, hs, hb, hee]⟩

/-- On a frame whose length byte is true, only the checksum decides. -/
theorem parseFrame_wire {b : UInt8} {data : List UInt8} {chk : UInt8} (hd : data.length ≤ 254) :
    Impl.parseFrame (wire b data chk) =
      if chk = calculateChecksum (toMCBCommand b) data then some ⟨toMCBCommand b, data⟩
      else none := by
  have hguard : ¬ ((wire b data chk).length < mcbMinFrameSize ∨ (wire b data chk).head? ≠ some stx ∨
      (wire b data chk).getLast? ≠ some etx) := by
    rw [wire_length, wire_getLast?]
    simp [mcbMinFrameSize, wire]
  have hlen : (wire b data chk).getD 1 0 = UInt8.ofNat (1 + data.length) := rfl
  have hcmd : (wire b data chk).getD 2 0 = b := rfl
  have hdata : (if data.length ≠ 0 then ((wire b data chk).drop 3).take data.length else []) =
      data := by
    split
    · simp [wire]
    · next h => exact (List.length_eq_zero_iff.mp (not_not.mp h)).symm
  have hchk : (wire b data chk).getD (3 + data.length) 0 = chk := by
    simp [wire, Nat.add_comm 3]
  unfold Impl.parseFrame
  rw [if_neg hguard]
  simp only [hlen, hcmd, lengthByte_toNat hd, toSizeT_pred hd, hdata, hchk, wire_length]
  rw [if_neg (by omega)]
  simp only [ne_eq, ite_not]

/-- The buffers the parser accepts: a frame with a true length byte, whose checksum is taken
over the command after its way through the table. -/
theorem parseFrame_eq_some_iff {buffer : List UInt8} {f : MCBFrame} :
    Impl.parseFrame buffer = some f ↔ ∃ b, f.data.length ≤ 254 ∧ f.command = toMCBCommand b ∧
      buffer = wire b f.data (calculateChecksum (toMCBCommand b) f.data) := by
  constructor
  · intro h
    have hshape : ∃ b data chk, data.length ≤ 254 ∧ buffer = wire b data chk := by
      by_cases hguard : buffer.length < mcbMinFrameSize ∨ buffer.head? ≠ some stx ∨
          buffer.getLast? ≠ some etx
      · simp [Impl.parseFrame, hguard] at h
      · by_cases hlen : buffer.length = (buffer.getD 1 0).toNat + 4
        · simp only [not_or, not_lt, not_not] at hguard
          exact exists_eq_wire hguard.1 hguard.2.1 hguard.2.2 hlen
        · unfold Impl.parseFrame at h
          rw [if_neg hguard] at h
          simp only [if_pos hlen, reduceCtorEq, ne_eq] at h
    obtain ⟨b, data, chk, hd, rfl⟩ := hshape
    rw [parseFrame_wire hd] at h
    split at h
    · next hchk =>
      have hsame := Option.some.inj h
      subst hsame
      exact ⟨b, hd, rfl, by rw [hchk]⟩
    · cases h
  · intro h
    obtain ⟨b, hd, hcmd, rfl⟩ := h
    rw [parseFrame_wire hd, if_pos rfl, ← hcmd]

/-- Nothing shorter than a frame passes for one at its start: the length byte gives it away. -/
theorem parseFrame_of_prefix {raw rest : List UInt8} {cmd : UInt8} {data : List UInt8}
    {chk : UInt8} {f : MCBFrame} (hd : data.length ≤ 254) (hw : raw ++ rest = wire cmd data chk)
    (hf : Impl.parseFrame raw = some f) : rest = [] := by
  obtain ⟨b, hfits, -, rfl⟩ := parseFrame_eq_some_iff.mp hf
  have hbyte : UInt8.ofNat (1 + f.data.length) = UInt8.ofNat (1 + data.length) :=
    (List.cons.inj (List.cons.inj hw).2).1
  have hsame : f.data.length = data.length := by
    have hnat := congrArg UInt8.toNat hbyte
    rw [lengthByte_toNat hfits, lengthByte_toNat hd] at hnat
    omega
  have hlen := congrArg List.length hw
  rw [List.length_append, wire_length, wire_length, hsame] at hlen
  exact List.length_eq_zero_iff.mp (by omega)

end Spectrum.Protocols.MCBProtocol
