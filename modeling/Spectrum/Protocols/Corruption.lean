import Spectrum.Protocols.RoundTrip

/-! Corruption of a frame of one of the decoder's six commands: one byte changed, bytes missing
at the end, bytes behind the end. The parser rejects all of it. -/
namespace Spectrum.Protocols.MCBProtocol
open Utils

/-- The six commands that have an entry of their own in `toMCBCommand`. -/
def tabulated : List UInt8 := [0x51, 0x52, 0x54, 0x5A, 0x5B, 0x63]

theorem mem_recognised_of_tabulated {c : UInt8} (hc : c ∈ tabulated) : c ∈ recognised :=
  List.mem_append_left [0xFF] hc

theorem toMCBCommand_eq_tabulated_iff {b c : UInt8} (hc : c ∈ tabulated) :
    toMCBCommand b = ⟨c⟩ ↔ b = c := by
  constructor
  · intro h
    by_cases hb : b ∈ recognised
    · rw [toMCBCommand_of_mem hb] at h
      exact MCBCommand.mk.inj h
    · rw [toMCBCommand_of_not_mem hb] at h
      have hdefault : MCBCommand.Enumerator.unknown.value = c := MCBCommand.mk.inj h
      subst hdefault
      exact absurd hc (by decide)
  · intro h
    rw [h]
    exact toMCBCommand_of_mem (mem_recognised_of_tabulated hc)

/-- A payload byte moves the checksum by less than a full turn. -/
theorem calculateChecksum_byte_inj {cmd : MCBCommand} {u v : List UInt8} {x y : UInt8} :
    calculateChecksum cmd (u ++ x :: v) = calculateChecksum cmd (u ++ y :: v) ↔ x = y := by
  constructor
  · intro h
    have hn := calculateChecksum_eq_iff.mp h
    simp only [List.map_append, List.map_cons, List.sum_append, List.sum_cons] at hn
    have hx := x.toNat_lt
    have hy := y.toNat_lt
    exact UInt8.toNat_inj.mp (by omega)
  · intro h
    rw [h]

theorem calculateChecksum_set_ne {cmd : MCBCommand} {payload : List UInt8} {k : ℕ} {x : UInt8}
    (hk : k < payload.length) (hx : payload[k] ≠ x) :
    calculateChecksum cmd (payload.set k x) ≠ calculateChecksum cmd payload := by
  have hold : payload.take k ++ payload[k] :: payload.drop (k + 1) = payload := by simp
  have hnew : payload.set k x = payload.take k ++ x :: payload.drop (k + 1) :=
    List.set_eq_take_append_cons_drop.trans (if_pos hk)
  intro h
  rw [hnew] at h
  exact hx (calculateChecksum_byte_inj.mp (h.trans (congrArg _ hold.symm))).symm

theorem wire_set_tail (cmd : UInt8) (data : List UInt8) (chk x : UInt8) (k : ℕ) :
    (wire cmd data chk).set (k + 3) x =
      stx :: UInt8.ofNat (1 + data.length) :: cmd :: (data ++ [chk, etx]).set k x := rfl

theorem tail_set_ne {cmd : MCBCommand} {data d : List UInt8} {k : ℕ} {x : UInt8}
    (hd : d.length = data.length) (hk : k < data.length + 2)
    (hx : (data ++ [calculateChecksum cmd data, etx])[k]? ≠ some x) :
    (data ++ [calculateChecksum cmd data, etx]).set k x ≠ d ++ [calculateChecksum cmd d, etx] := by
  intro h
  by_cases hpayload : k < data.length
  · rw [List.set_append_left k x hpayload] at h
    obtain ⟨hdata, hchk⟩ := List.append_inj h (by simpa using hd.symm)
    subst hdata
    have hbyte : data[k] ≠ x := by
      intro hsame
      rw [List.getElem?_append_left hpayload, List.getElem?_eq_getElem hpayload, hsame] at hx
      exact hx rfl
    exact calculateChecksum_set_ne hpayload hbyte (List.cons.inj hchk).1.symm
  · rw [List.getElem?_append_right (by omega)] at hx
    rw [List.set_append_right k x (by omega)] at h
    obtain ⟨hdata, hlast⟩ := List.append_inj h hd.symm
    subst hdata
    have hplace : k - data.length = 0 ∨ k - data.length = 1 := by omega
    rcases hplace with hzero | hone
    · rw [hzero] at hlast hx
      exact hx (congrArg some (List.cons.inj hlast).1.symm)
    · rw [hone] at hlast hx
      exact hx (congrArg some (List.cons.inj (List.cons.inj hlast).2).1.symm)

theorem length_of_parseFrame {buffer : List UInt8} {f : MCBFrame}
    (hf : Impl.parseFrame buffer = some f) : buffer.length = f.data.length + 5 := by
  obtain ⟨b, -, -, hbuffer⟩ := parseFrame_eq_some_iff.mp hf
  rw [hbuffer, wire_length]

/-- One changed byte. Every position has a reason of its own: the delimiters and the length byte
are compared with a fixed value, the command with the table, payload and checksum with the sum. -/
theorem parseFrame_set_eq_none {cmd : UInt8} {payload : List UInt8} (hcmd : cmd ∈ tabulated)
    {i : ℕ} {x : UInt8} (hi : i < (buildFrame cmd payload).length)
    (hx : (buildFrame cmd payload)[i] ≠ x) :
    Impl.parseFrame ((buildFrame cmd payload).set i x) = none := by
  have hframe : buildFrame cmd payload =
      wire cmd payload (calculateChecksum ⟨cmd⟩ payload) := buildFrame_eq_wire ⟨cmd⟩ payload
  have hold : (buildFrame cmd payload)[i]? ≠ some x := by
    rw [List.getElem?_eq_getElem hi]
    simpa using hx
  rw [hframe, wire_length] at hi
  rw [hframe] at hold ⊢
  rw [Option.eq_none_iff_forall_ne_some]
  intro f hf
  have hlen := length_of_parseFrame hf
  rw [List.length_set, wire_length, Nat.add_right_cancel_iff] at hlen
  obtain ⟨b, -, -, hwire⟩ := parseFrame_eq_some_iff.mp hf
  match i with
  | 0 =>
    have hstx : x = stx := (List.cons.inj hwire).1
    exact hold (congrArg some hstx.symm)
  | 1 =>
    have hlength : x = UInt8.ofNat (1 + f.data.length) :=
      (List.cons.inj (List.cons.inj hwire).2).1
    rw [← hlen] at hlength
    exact hold (congrArg some hlength.symm)
  | 2 =>
    have hmoved : wire x payload (calculateChecksum ⟨cmd⟩ payload) =
        wire b f.data (calculateChecksum (toMCBCommand b) f.data) := hwire
    obtain ⟨hb, hdata, hchk⟩ := wire_inj.mp hmoved
    subst hb
    rw [← hdata, calculateChecksum_inj, eq_comm, toMCBCommand_eq_tabulated_iff hcmd] at hchk
    exact hold (congrArg some hchk.symm)
  | k + 3 =>
    rw [wire_set_tail] at hwire
    obtain ⟨-, htail⟩ := List.cons.inj hwire
    obtain ⟨-, htail⟩ := List.cons.inj htail
    obtain ⟨hb, htail⟩ := List.cons.inj htail
    rw [← hb, (toMCBCommand_eq_tabulated_iff hcmd).mpr rfl] at htail
    exact tail_set_ne hlen.symm (by omega) hold htail

/-- Whatever the change of a frame of a tabulated command, a changed byte, a missing end or a
longer end, the parser rejects it. -/
theorem parseFrame_detects_corruption (cmd : UInt8) (payload : List UInt8)
    (hcmd : cmd ∈ [0x51, 0x52, 0x54, 0x5A, 0x5B, 0x63]) (hp : payload.length ≤ 254) :
    (∀ (i : ℕ) (hi : i < (buildFrame cmd payload).length) (x : UInt8),
      x ≠ (buildFrame cmd payload)[i] →
        Impl.parseFrame ((buildFrame cmd payload).set i x) = none) ∧
    (∀ w, w <+: buildFrame cmd payload → w ≠ buildFrame cmd payload →
      Impl.parseFrame w = none) ∧
    (∀ w, w ≠ [] → Impl.parseFrame (buildFrame cmd payload ++ w) = none) := by
  have hframe : buildFrame cmd payload =
      wire cmd payload (calculateChecksum ⟨cmd⟩ payload) := buildFrame_eq_wire ⟨cmd⟩ payload
  refine ⟨?_, ?_, ?_⟩
  · intro i hi x hx
    exact parseFrame_set_eq_none hcmd hi hx.symm
  · intro w hfront hne
    obtain ⟨rest, hrest⟩ := hfront
    rw [Option.eq_none_iff_forall_ne_some]
    intro f hf
    have hnil := parseFrame_of_prefix hp (hrest.trans hframe) hf
    rw [hnil, List.append_nil] at hrest
    exact hne hrest
  · intro w hne
    rw [Option.eq_none_iff_forall_ne_some]
    intro f hf
    obtain ⟨b, hfits, -, hwire⟩ := parseFrame_eq_some_iff.mp hf
    have hself : Impl.parseFrame (buildFrame cmd payload) = some ⟨⟨cmd⟩, payload⟩ := by
      have htable := toMCBCommand_of_mem (mem_recognised_of_tabulated hcmd)
      rw [hframe, parseFrame_wire hp, htable, if_pos rfl]
    have hnil := parseFrame_of_prefix hfits hwire hself
    exact hne hnil

theorem parseFrame_detects_corruption_firmware :
    Impl.parseFrame ((buildFrame 0x51 [1, 2, 4]).set 2 0xFF) = none ∧
      Impl.parseFrame ((buildFrame 0x51 [1, 2, 4]).take 5) = none ∧
      Impl.parseFrame (buildFrame 0x51 [1, 2, 4] ++ [0x03]) = none := by
  obtain ⟨hset, hfront, hextended⟩ :=
    parseFrame_detects_corruption 0x51 [1, 2, 4] (by decide) (by decide)
  exact ⟨hset 2 (by decide) 0xFF (by decide), hfront _ (List.take_prefix 5 _) (by decide),
    hextended [0x03] (by decide)⟩

end Spectrum.Protocols.MCBProtocol
