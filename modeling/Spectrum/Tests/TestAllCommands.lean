import Spectrum.Foundation.Reassembly
import Spectrum.Protocols.Layout
import Mathlib.Data.List.GetD

/-! The callback of `tests/test_all_commands.cpp` that puts frames together from the chunks the
transport hands over, by their length byte. -/
namespace Spectrum.Tests
open Foundation Utils Protocols MCBProtocol

/-- What a turn does once the buffer starts with STX. -/
def cutFrame (buffer : List UInt8) : Turn UInt8 :=
  let length := buffer.getD 1 0
  let totalSize := length.toNat + 4
  if buffer.length < totalSize then .leave buffer
  else if buffer.getD (totalSize - 1) 0 ≠ etx then .again (buffer.drop 1)
  else .record (buffer.take totalSize) (buffer.drop totalSize)

/-- The body of `while`, with its test. -/
def turn (buffer : List UInt8) : Turn UInt8 :=
  if buffer.length < mcbMinFrameSize then .leave buffer
  else if buffer.head? ≠ some stx then
    -- `std::find` from the second byte on
    let found := (buffer.drop 1).dropWhile (· ≠ stx)
    if found = [] then .leave []
    else if found.length < mcbMinFrameSize then .leave found
    else cutFrame found
  else cutFrame buffer

/-- The buffer without what stands before its first STX. -/
def resync (buffer : List UInt8) : List UInt8 := buffer.dropWhile (· ≠ stx)

theorem resync_length_le (buffer : List UInt8) : (resync buffer).length ≤ buffer.length :=
  (List.dropWhile_suffix _).length_le

theorem resync_of_head {buffer : List UInt8} (h : buffer.head? = some stx) :
    resync buffer = buffer := by
  cases buffer with
  | nil => rfl
  | cons b buffer =>
    have hb : b = stx := Option.some.inj h
    simp [resync, hb]

theorem resync_of_not_head {buffer : List UInt8} (h : buffer.head? ≠ some stx) :
    resync buffer = (buffer.drop 1).dropWhile (· ≠ stx) := by
  cases buffer with
  | nil => rfl
  | cons b buffer =>
    have hb : b ≠ stx := fun hb => h (congrArg some hb)
    simp [resync, hb]

theorem turn_eq (buffer : List UInt8) : turn buffer =
    if buffer.length < mcbMinFrameSize then .leave buffer
    else if (resync buffer).length < mcbMinFrameSize then .leave (resync buffer)
    else cutFrame (resync buffer) := by
  unfold turn
  by_cases hmin : buffer.length < mcbMinFrameSize
  · rw [if_pos hmin, if_pos hmin]
  · rw [if_neg hmin, if_neg hmin]
    by_cases hhead : buffer.head? = some stx
    · rw [if_neg (not_not.mpr hhead), resync_of_head hhead, if_neg hmin]
    · rw [if_pos hhead, ← resync_of_not_head hhead]
      by_cases hnil : resync buffer = []
      · simp [hnil, mcbMinFrameSize]
      · simp only [if_neg hnil]

theorem head_resync {buffer : List UInt8} (h : resync buffer ≠ []) :
    (resync buffer).head? = some stx := by
  have hstop := List.head_dropWhile_not (fun b : UInt8 => decide (b ≠ stx)) h
  rw [List.head?_eq_some_head h]
  exact congrArg some (not_not.mp (of_decide_eq_false hstop))

theorem resync_garbage {garbage : List UInt8} (hquiet : stx ∉ garbage) (rest : List UInt8) :
    resync (garbage ++ rest) = resync rest := by
  apply List.dropWhile_append_of_pos
  intro b hb
  exact decide_eq_true fun hstx => hquiet (hstx ▸ hb)

theorem cutFrame_leave {buffer rest : List UInt8} (h : cutFrame buffer = .leave rest) :
    rest = buffer := by
  unfold cutFrame at h
  simp only at h
  split at h
  · exact (Turn.leave.inj h).symm
  · split at h <;> cases h

theorem cutFrame_again {buffer rest : List UInt8} (h : cutFrame buffer = .again rest) :
    rest = buffer.drop 1 := by
  unfold cutFrame at h
  simp only at h
  split at h
  · cases h
  · split at h
    · exact (Turn.again.inj h).symm
    · cases h

theorem cutFrame_record {buffer r rest : List UInt8} (h : cutFrame buffer = .record r rest) :
    ∃ n, 0 < n ∧ r = buffer.take n ∧ rest = buffer.drop n := by
  unfold cutFrame at h
  simp only at h
  split at h
  · cases h
  · split at h
    · cases h
    · obtain ⟨hr, hrest⟩ := Turn.record.inj h
      exact ⟨_, Nat.succ_pos _, hr.symm, hrest.symm⟩

theorem turn_eq_cutFrame {buffer : List UInt8} {t : Turn UInt8} (h : turn buffer = t)
    (ht : ∀ rest, t ≠ .leave rest) :
    cutFrame (resync buffer) = t ∧ mcbMinFrameSize ≤ (resync buffer).length := by
  rw [turn_eq] at h
  split at h
  · exact absurd h.symm (ht _)
  · split at h
    · exact absurd h.symm (ht _)
    · next hmin => exact ⟨h, not_lt.mp hmin⟩

/-- The loop of `onMCBDataReceived`. -/
def reassembler : Reassembler UInt8 where
  turn := turn
  again_length := by
    intro b b' h
    obtain ⟨hcut, hmin⟩ := turn_eq_cutFrame h (by simp)
    have hle := resync_length_le b
    rw [cutFrame_again hcut, List.length_drop]
    unfold mcbMinFrameSize at hmin
    omega
  record_length := by
    intro b r b' h
    obtain ⟨hcut, hmin⟩ := turn_eq_cutFrame h (by simp)
    obtain ⟨n, hn, -, hrest⟩ := cutFrame_record hcut
    have hle := resync_length_le b
    rw [hrest, List.length_drop]
    unfold mcbMinFrameSize at hmin
    omega
  leave_again := by
    intro b b' h
    rw [turn_eq] at h
    split at h
    · next hmin =>
      rw [← Turn.leave.inj h, turn_eq, if_pos hmin]
    · split at h
      · next hmin =>
        rw [← Turn.leave.inj h, turn_eq, if_pos hmin]
      · next hmin =>
        have hsame := cutFrame_leave h
        have hne : resync b ≠ [] := by
          intro hnil
          rw [hnil] at hmin
          exact hmin (by decide)
        rw [hsame, turn_eq, resync_of_head (head_resync hne), if_neg hmin, if_neg hmin]
        rw [hsame] at h
        exact h

/-- `onMCBDataReceived`: the frames given to the decoder, in order, and what stays in `buffer`. -/
def onMCBDataReceived (buffer incoming : List UInt8) : List (List UInt8) × List UInt8 :=
  reassembler.receive buffer incoming

/-- A frame of the encoder, with garbage in front of it. -/
structure Segment where
  garbage : List UInt8
  cmd : UInt8
  payload : List UInt8
  quiet : stx ∉ garbage
  fits : payload.length ≤ 254

namespace Segment

def frame (s : Segment) : List UInt8 := buildFrame s.cmd s.payload

def bytes (s : Segment) : List UInt8 := s.garbage ++ s.frame

theorem frame_eq_wire (s : Segment) :
    s.frame = wire s.cmd s.payload (calculateChecksum ⟨s.cmd⟩ s.payload) :=
  buildFrame_eq_wire ⟨s.cmd⟩ s.payload

theorem frame_length (s : Segment) : s.frame.length = s.payload.length + 5 := by
  rw [frame_eq_wire, wire_length]

theorem head_frame (s : Segment) : s.frame.head? = some stx := by
  rw [frame_eq_wire]
  rfl

theorem totalSize_frame (s : Segment) : (s.frame.getD 1 0).toNat + 4 = s.frame.length := by
  have hfits := s.fits
  have hbyte : s.frame.getD 1 0 = UInt8.ofNat (1 + s.payload.length) := by
    rw [frame_eq_wire]
    rfl
  rw [hbyte, lengthByte_toNat hfits, frame_length]
  omega

theorem last_frame (s : Segment) : s.frame.getD (s.frame.length - 1) 0 = etx := by
  rw [List.getD_eq_getElem?_getD, ← List.getLast?_eq_getElem?, frame_eq_wire, wire_getLast?]
  rfl

/-- With its length byte there, a frame is waited for until it is whole, and then cut off. -/
theorem cutFrame_eq (s : Segment) {buffer rest after : List UInt8}
    (hmin : mcbMinFrameSize ≤ buffer.length) (h : buffer ++ rest = s.frame ++ after) :
    (buffer.length < s.frame.length ∧ cutFrame buffer = .leave buffer) ∨
      ∃ more, after = more ++ rest ∧ cutFrame buffer = .record s.frame more := by
  unfold mcbMinFrameSize at hmin
  have hbyte : buffer.getD 1 0 = s.frame.getD 1 0 := by
    have hlen := s.frame_length
    rw [← List.getD_append buffer rest 0 1 (by omega), h,
      List.getD_append s.frame after 0 1 (by omega)]
  have htotal : (buffer.getD 1 0).toNat + 4 = s.frame.length := by
    rw [hbyte, s.totalSize_frame]
  unfold cutFrame
  simp only [htotal]
  by_cases hshort : buffer.length < s.frame.length
  · rw [if_pos hshort]
    exact .inl ⟨hshort, rfl⟩
  · obtain ⟨more, hbuffer⟩ : s.frame <+: buffer :=
      List.prefix_of_prefix_length_le ⟨after, h.symm⟩ (List.prefix_append buffer rest)
        (not_lt.mp hshort)
    have hafter : after = more ++ rest := by
      rw [← hbuffer, List.append_assoc] at h
      exact (List.append_cancel_left h).symm
    have hlast : buffer.getD (s.frame.length - 1) 0 = etx := by
      have hlen := s.frame_length
      rw [← hbuffer, List.getD_append _ _ _ _ (by omega), last_frame]
    rw [if_neg hshort, if_neg (not_not.mpr hlast), ← hbuffer, List.take_left, List.drop_left]
    exact .inr ⟨more, hafter, rfl⟩

end Segment

/-- The frames that are still to come in a stream of segments. -/
def Pending (frames : List (List UInt8)) (stream : List UInt8) : Prop :=
  ∃ segments : List Segment, frames = segments.map Segment.frame ∧
    stream = (segments.map Segment.bytes).flatten

theorem Pending.of_head {frames : List (List UInt8)} {buffer rest : List UInt8}
    (h : Pending frames (buffer ++ rest)) (hhead : buffer.head? = some stx) :
    ∃ (s : Segment) (after : List UInt8) (frames' : List (List UInt8)),
      frames = s.frame :: frames' ∧ buffer ++ rest = s.frame ++ after ∧ Pending frames' after := by
  obtain ⟨segments, hframes, hstream⟩ := h
  have hstx : (buffer ++ rest).head? = some stx := by
    rw [List.head?_append, hhead]
    rfl
  cases segments with
  | nil =>
    rw [hstream] at hstx
    cases hstx
  | cons s segments =>
    have hquiet := s.quiet
    rw [List.map_cons, List.flatten_cons, Segment.bytes] at hstream
    have hgarbage : s.garbage = [] := by
      cases hg : s.garbage with
      | nil => rfl
      | cons b garbage =>
        rw [hstream, hg] at hstx
        rw [hg, Option.some.inj hstx] at hquiet
        exact absurd List.mem_cons_self hquiet
    rw [hgarbage, List.nil_append] at hstream
    exact ⟨s, _, _, hframes, hstream, segments, rfl, rfl⟩

theorem Pending.resync {frames : List (List UInt8)} {buffer rest : List UInt8}
    (h : Pending frames (buffer ++ rest)) : Pending frames (resync buffer ++ rest) := by
  obtain ⟨segments, hframes, hstream⟩ := h
  cases segments with
  | nil =>
    obtain ⟨hbuffer, -⟩ := List.append_eq_nil_iff.mp hstream
    rw [hbuffer] at hstream ⊢
    exact ⟨[], hframes, hstream⟩
  | cons s segments =>
    have hquiet := s.quiet
    rw [List.map_cons, List.flatten_cons, Segment.bytes, List.append_assoc] at hstream
    rcases List.append_eq_append_iff.mp hstream with ⟨g, hg, hrest⟩ | ⟨more, hbuffer, hframe⟩
    · -- all of the buffer is garbage, and goes
      rw [hg, List.mem_append, not_or] at hquiet
      have hnil : Tests.resync buffer = [] := by
        have hall := resync_garbage hquiet.1 []
        rwa [List.append_nil] at hall
      refine ⟨⟨g, s.cmd, s.payload, hquiet.2, s.fits⟩ :: segments, hframes, ?_⟩
      rw [hnil, List.nil_append, hrest, List.map_cons, List.flatten_cons, Segment.bytes,
        List.append_assoc]
      rfl
    · -- the garbage goes, and a frame starts there
      have hmore : Tests.resync buffer = more := by
        rw [hbuffer, resync_garbage hquiet]
        cases hm : more with
        | nil => rfl
        | cons b more =>
          apply resync_of_head
          have hhead := congrArg List.head? hframe
          rw [hm, List.head?_append, s.head_frame] at hhead
          exact hhead.symm
      refine ⟨⟨[], s.cmd, s.payload, by simp, s.fits⟩ :: segments, hframes, ?_⟩
      rw [hmore, ← hframe]
      rfl

theorem turn_leave {buffer rest : List UInt8} (h : turn buffer = .leave rest) :
    rest = buffer ∨ rest = resync buffer := by
  rw [turn_eq] at h
  split at h
  · exact .inl (Turn.leave.inj h).symm
  · split at h
    · exact .inr (Turn.leave.inj h).symm
    · exact .inr (cutFrame_leave h)

theorem Pending.record {frames : List (List UInt8)} {buffer rest : List UInt8} {t : Turn UInt8}
    (h : Pending frames (buffer ++ rest)) (hturn : turn buffer = t)
    (ht : ∀ left, t ≠ .leave left) :
    ∃ r more frames', t = .record r more ∧ frames = r :: frames' ∧
      Pending frames' (more ++ rest) := by
  obtain ⟨hcut, hmin⟩ := turn_eq_cutFrame hturn ht
  have hne : Tests.resync buffer ≠ [] := by
    intro hnil
    rw [hnil] at hmin
    exact absurd hmin (by decide)
  obtain ⟨s, after, frames', hframes, hstream, hafter⟩ := h.resync.of_head (head_resync hne)
  rcases s.cutFrame_eq hmin hstream with ⟨-, hwait⟩ | ⟨more, hmore, hrecord⟩
  · exact absurd (hcut.symm.trans hwait) (ht _)
  · refine ⟨s.frame, more, frames', hcut.symm.trans hrecord, hframes, ?_⟩
    rw [← hmore]
    exact hafter

theorem follows_pending : reassembler.Follows Pending where
  leave := by
    intro b b' w rs hturn h
    rcases turn_leave hturn with hsame | hsame
    · rw [hsame]
      exact h
    · rw [hsame]
      exact h.resync
  again := by
    intro b b' w rs hturn h
    obtain ⟨r, more, frames', hrecord, -⟩ := h.record hturn (by simp)
    cases hrecord
  record := by
    intro b r b' w rs hturn h
    obtain ⟨r', more, frames', hrecord, hframes, hafter⟩ := h.record hturn (by simp)
    obtain ⟨hr, hmore⟩ := Turn.record.inj hrecord
    rw [hr, hmore]
    exact ⟨frames', hframes, hafter⟩

theorem Pending.done {frames : List (List UInt8)} {buffer : List UInt8}
    (h : Pending frames buffer) (hturn : turn buffer = .leave buffer) :
    frames = [] ∧ buffer = [] := by
  obtain ⟨segments, hframes, hstream⟩ := h
  cases segments with
  | nil => exact ⟨hframes, hstream⟩
  | cons s segments =>
    rw [List.map_cons, List.flatten_cons, Segment.bytes, List.append_assoc] at hstream
    have hlen := s.frame_length
    have hmin : mcbMinFrameSize ≤ (s.frame ++ (segments.map Segment.bytes).flatten).length := by
      rw [List.length_append, hlen]
      unfold mcbMinFrameSize
      omega
    have hhead : (s.frame ++ (segments.map Segment.bytes).flatten).head? = some stx := by
      rw [List.head?_append, s.head_frame]
      rfl
    have hresync : Tests.resync buffer = s.frame ++ (segments.map Segment.bytes).flatten := by
      rw [hstream, resync_garbage s.quiet, resync_of_head hhead]
    have hbuffer : mcbMinFrameSize ≤ buffer.length :=
      hmin.trans (hresync ▸ resync_length_le buffer)
    rw [turn_eq, if_neg (not_lt.mpr hbuffer), hresync, if_neg (not_lt.mpr hmin)] at hturn
    have hwhole : (s.frame ++ (segments.map Segment.bytes).flatten) ++ [] =
        s.frame ++ (segments.map Segment.bytes).flatten := List.append_nil _
    rcases s.cutFrame_eq hmin hwhole with ⟨hshort, -⟩ | ⟨more, -, hcut⟩
    · rw [List.length_append] at hshort
      omega
    · rw [hcut] at hturn
      cases hturn

/-- Whatever the garbage between the frames and however the stream is cut into chunks, the
decoder gets the frames, all of them and in order, and nothing is left over. -/
theorem onMCBDataReceived_exact (segments : List Segment) (chunks : List (List UInt8))
    (hchunks : chunks.flatten = (segments.map Segment.bytes).flatten) :
    feed onMCBDataReceived [] chunks = (segments.map Segment.frame, []) := by
  have hrest : reassembler.turn [] = .leave [] := rfl
  exact follows_pending.feed_eq hrest (fun rs rest hturn h => h.done hturn)
    ⟨segments, rfl, hchunks⟩

theorem onMCBDataReceived_exact_firmware :
    feed onMCBDataReceived [] [[0x07, 0x02, 0x03, 0x51], [0x02, 0x03, 0x56, 0x03, 0x03, 0x02],
      [0x01, 0x52, 0x52, 0x03]] = ([buildFrame 0x51 [0x02, 0x03], buildFrame 0x52 []], []) :=
  onMCBDataReceived_exact
    [⟨[0x07], 0x51, [0x02, 0x03], by decide, by decide⟩, ⟨[0x03], 0x52, [], by decide, by decide⟩]
    [[0x07, 0x02, 0x03, 0x51], [0x02, 0x03, 0x56, 0x03, 0x03, 0x02], [0x01, 0x52, 0x52, 0x03]]
    (by decide)

end Spectrum.Tests
