import Spectrum.Tests.TesteEsteira

/-! The parsers of the repository on the same bytes: `parseFrame` takes a buffer for one frame, and
the two loops under `tests/` cut frames off a stream. -/
namespace Spectrum.Tests
open Foundation Utils Protocols MCBProtocol

/-- However the bytes are cut into chunks, the loop gives these frames to the decoder and keeps
nothing exactly when each is delimited and the last is not one of four bytes, without a command,
behind which it waits for more. So no stream falls into such frames in two ways. -/
theorem frames_received_iff (frames chunks : List (List UInt8))
    (hchunks : chunks.flatten = frames.flatten) :
    feed onMCBDataReceived [] chunks = (frames, []) ↔
      (∀ f ∈ frames, Delimited f) ∧ ∀ f ∈ frames.getLast?, mcbMinFrameSize ≤ f.length := by
  constructor
  · intro hall
    have hframes : (feed onMCBDataReceived [] chunks).1 = frames := congrArg Prod.fst hall
    have hdelimited := delimited_of_feed chunks
    rw [hframes] at hdelimited
    rw [feed_frames, hchunks] at hframes
    exact ⟨hdelimited, (drain_flatten_iff hdelimited).mp hframes⟩
  · rintro ⟨hdelimited, hlast⟩
    exact feed_flatten hdelimited hlast hchunks

/-- A frame of four bytes is given to the decoder when more comes behind it. -/
theorem frames_received_iff_empty :
    let empty : List UInt8 := [0x02, 0x00, 0x07, 0x03]
    let status : List UInt8 := [0x02, 0x01, 0x52, 0x52, 0x03]
    feed onMCBDataReceived [] [empty, [0x02], status.tail] = ([empty, status], []) ∧
      feed onMCBDataReceived [] [status, empty] ≠ ([status, empty], []) := by
  intro empty status
  have hdelimited : ∀ f ∈ [empty, status], Delimited f := by decide
  have hlast : ∀ f ∈ [empty, status].getLast?, mcbMinFrameSize ≤ f.length := by decide
  have hfour : ¬ ∀ f ∈ [status, empty].getLast?, mcbMinFrameSize ≤ f.length := by decide
  constructor
  · exact (frames_received_iff [empty, status] [empty, [0x02], status.tail] rfl).mpr
      ⟨hdelimited, hlast⟩
  · exact fun hall => hfour ((frames_received_iff [status, empty] _ rfl).mp hall).2

/-- No part of a frame strands the loop that has no second test. -/
theorem Delimited.not_stranded {frame part : List UInt8} (h : Delimited frame)
    (hpart : part <+: frame) : ¬ TesteEsteira.Stranded (reassembler.last part) := by
  intro hstranded
  by_cases hmin : mcbMinFrameSize ≤ part.length
  · obtain ⟨rest, rfl⟩ := hpart
    by_cases hwhole : rest = []
    · subst hwhole
      rw [List.append_nil] at h
      rw [Reassembler.last_record (h.turn_self hmin), TesteEsteira.last_nil] at hstranded
      exact absurd hstranded.1 (by decide)
    · -- the loop waits for the rest of the frame
      obtain ⟨hhead, -, hsize⟩ := h
      unfold mcbMinFrameSize at hmin
      have hne : part ≠ [] := List.ne_nil_of_length_pos (by omega)
      have hpos := List.length_pos_iff.mpr hwhole
      rw [List.head?_append_of_ne_nil part hne] at hhead
      rw [List.getD_append part rest 0 1 (by omega), List.length_append] at hsize
      have hresync := resync_of_head hhead
      have hmany : ¬ (resync part).length < mcbMinFrameSize := by
        rw [hresync]
        exact not_lt.mpr hmin
      have hwait : cutFrame part = .leave part := if_pos (by omega)
      have hturn := turn_of_many hmany
      rw [hresync, hwait] at hturn
      rw [Reassembler.last_leave hturn] at hstranded
      rw [hstranded.2] at hmany
      exact absurd (by decide) hmany
  · have hfew := (resync_length_le part).trans_lt (not_le.mp hmin)
    rw [TesteEsteira.last_of_few hfew] at hstranded
    exact hmin hstranded.1

theorem not_stranded_flatten {frames : List (List UInt8)} (h : ∀ f ∈ frames, Delimited f)
    {part : List UInt8} (hpart : part <+: frames.flatten) :
    ¬ TesteEsteira.Stranded (reassembler.last part) := by
  induction frames generalizing part with
  | nil =>
    have hnil : part = [] := List.prefix_nil.mp hpart
    rw [hnil, TesteEsteira.last_nil]
    exact fun hstranded => absurd hstranded.1 (by decide)
  | cons f frames ih =>
    obtain ⟨hf, hframes⟩ := List.forall_mem_cons.mp h
    rw [List.flatten_cons] at hpart
    rcases List.prefix_or_prefix_of_prefix hpart (List.prefix_append f _) with
      hinside | ⟨more, rfl⟩
    · exact hf.not_stranded hinside
    · have hmore := (List.prefix_append_right_inj _).mp hpart
      by_cases hmin : mcbMinFrameSize ≤ (f ++ more).length
      · rw [Reassembler.last_record (hf.turn_append more hmin)]
        exact ih hframes hmore
      · have hfew := (resync_length_le (f ++ more)).trans_lt (not_le.mp hmin)
        rw [TesteEsteira.last_of_few hfew]
        exact fun hstranded => hmin hstranded.1

theorem received_flatten {frames chunks : List (List UInt8)} (h : ∀ f ∈ frames, Delimited f)
    (hlast : ∀ f ∈ frames.getLast?, mcbMinFrameSize ≤ f.length)
    (hchunks : chunks.flatten = frames.flatten) :
    TesteEsteira.received [] chunks = .ok (frames, []) := by
  have hfeed := feed_flatten h hlast hchunks
  rcases TesteEsteira.received_agrees (.even []) chunks with
    ⟨hstrands, -⟩ | ⟨-, given, early, rest, hok, hgiven, hahead⟩
  · obtain ⟨part, hpart, hstranded⟩ :=
      (TesteEsteira.strands_iff_part chunks.flatten).mp ⟨chunks, rfl, hstrands⟩
    rw [hchunks] at hpart
    exact absurd hstranded (not_stranded_flatten h hpart)
  · rw [hfeed] at hgiven hahead
    cases hahead with
    | even =>
      rw [List.nil_append, List.append_nil] at hgiven
      rw [hok, hgiven]
    | again hhead => cases hhead
    | record hhead => cases hhead

/-- The byte in front of ETX is the checksum of the data and of the command that the parser takes
the third byte for. -/
def Summed (frame : List UInt8) : Prop :=
  frame.getD (frame.length - 2) 0 =
    calculateChecksum (toMCBCommand (frame.getD 2 0)) ((frame.drop 3).take (frame.length - 5))

instance (frame : List UInt8) : Decidable (Summed frame) := inferInstanceAs (Decidable (_ = _))

theorem summed_wire {cmd : UInt8} {data : List UInt8} {chk : UInt8} :
    Summed (wire cmd data chk) ↔ chk = calculateChecksum (toMCBCommand cmd) data := by
  have hchk : (wire cmd data chk).getD (data.length + 5 - 2) 0 = chk := by
    simp [wire]
  have hdata : ((wire cmd data chk).drop 3).take data.length = data := by
    simp [wire]
  unfold Summed
  rw [wire_length, hchk, Nat.add_sub_cancel, hdata]
  rfl

theorem delimited_wire {cmd : UInt8} {data : List UInt8} {chk : UInt8} (hd : data.length ≤ 254) :
    Delimited (wire cmd data chk) := by
  have hbyte : (wire cmd data chk).getD 1 0 = UInt8.ofNat (1 + data.length) := rfl
  refine ⟨rfl, wire_getLast? cmd data chk, ?_⟩
  rw [hbyte, lengthByte_toNat hd, wire_length]
  omega

theorem parseFrame_isSome_iff {frame : List UInt8} : (parseFrame frame).isSome = true ↔
    Delimited frame ∧ mcbMinFrameSize ≤ frame.length ∧ Summed frame := by
  unfold parseFrame
  rw [Option.isSome_map, Option.isSome_iff_exists]
  constructor
  · rintro ⟨f, hf⟩
    obtain ⟨b, hd, -, rfl⟩ := parseFrame_eq_some_iff.mp hf
    refine ⟨delimited_wire hd, ?_, summed_wire.mpr rfl⟩
    rw [wire_length]
    unfold mcbMinFrameSize
    omega
  · rintro ⟨⟨hhead, hlast, hsize⟩, hmin, hsummed⟩
    obtain ⟨b, data, chk, hd, rfl⟩ := exists_eq_wire hmin hhead hlast hsize
    rw [summed_wire] at hsummed
    exact ⟨_, (parseFrame_wire hd).trans (if_pos hsummed)⟩

/-- The parser of the library accepts each of these buffers exactly when both loops, however the
bytes are cut into chunks, give them to the decoder with nothing left, and each has a command and
the right checksum. So in framing the three agree. -/
theorem parsers_agree (frames chunks : List (List UInt8))
    (hchunks : chunks.flatten = frames.flatten) :
    (∀ f ∈ frames, (parseFrame f).isSome = true) ↔
      feed onMCBDataReceived [] chunks = (frames, []) ∧
      TesteEsteira.received [] chunks = .ok (frames, []) ∧
      ∀ f ∈ frames, mcbMinFrameSize ≤ f.length ∧ Summed f := by
  constructor
  · intro haccepted
    have hdelimited : ∀ f ∈ frames, Delimited f := fun f hf =>
      (parseFrame_isSome_iff.mp (haccepted f hf)).1
    have hlast : ∀ f ∈ frames.getLast?, mcbMinFrameSize ≤ f.length := fun f hf =>
      (parseFrame_isSome_iff.mp (haccepted f (List.mem_of_getLast? hf))).2.1
    exact ⟨feed_flatten hdelimited hlast hchunks, received_flatten hdelimited hlast hchunks,
      fun f hf => (parseFrame_isSome_iff.mp (haccepted f hf)).2⟩
  · rintro ⟨hfeed, -, hright⟩ f hf
    have hdelimited := delimited_of_feed chunks
    rw [hfeed] at hdelimited
    exact parseFrame_isSome_iff.mpr ⟨hdelimited f hf, hright f hf⟩

/-- A frame with a command that the parser does not know, and one that it does. -/
theorem parsers_agree_unknown :
    let unknown : List UInt8 := [0x02, 0x02, 0x33, 0x02, 0x01, 0x03]
    let status : List UInt8 := [0x02, 0x01, 0x52, 0x52, 0x03]
    feed onMCBDataReceived [] [[0x02, 0x02, 0x33], [0x02, 0x01, 0x03, 0x02], status.tail] =
        ([unknown, status], []) ∧
      TesteEsteira.received [] [[0x02, 0x02, 0x33], [0x02, 0x01, 0x03, 0x02], status.tail] =
        .ok ([unknown, status], []) ∧
      ∀ f ∈ [unknown, status], mcbMinFrameSize ≤ f.length ∧ Summed f := by
  intro unknown status
  have haccepted : ∀ f ∈ [unknown, status], (parseFrame f).isSome = true := by decide
  exact (parsers_agree [unknown, status]
    [[0x02, 0x02, 0x33], [0x02, 0x01, 0x03, 0x02], status.tail] rfl).mp haccepted

end Spectrum.Tests
