import Mathlib.Data.List.Flatten
import Spectrum.Foundation.Rechunk
import Spectrum.Tests.TestAllCommands

/-! `onMCBDataReceived` on any stream: the frames it cuts off do not depend on the chunks, they are
delimited pieces of the stream in its order, it takes apart again the frames it is given, and after
garbage of any kind it finds back to the frames that are sent. -/
namespace Spectrum.Tests
open Foundation Utils Protocols MCBProtocol

theorem resync_append (buffer more : List UInt8) : resync (buffer ++ more) =
    if resync buffer = [] then resync more else resync buffer ++ more := by
  unfold resync
  rw [List.dropWhile_append]
  simp only [List.isEmpty_iff]

theorem resync_resync (buffer : List UInt8) : resync (resync buffer) = resync buffer := by
  by_cases hnil : resync buffer = []
  · rw [hnil]
    rfl
  · exact resync_of_head (head_resync hnil)

theorem resync_resync_append (buffer more : List UInt8) :
    resync (resync buffer ++ more) = resync (buffer ++ more) := by
  rw [resync_append, resync_append, resync_resync]

/-- What stands before the first STX changes nothing that the loop cuts off. -/
theorem drain_resync (buffer : List UInt8) :
    (reassembler.drain buffer).1 = (reassembler.drain (resync buffer)).1 ∧
      resync (reassembler.drain buffer).2 = resync (reassembler.drain (resync buffer)).2 := by
  have hle := resync_length_le buffer
  by_cases hshort : (resync buffer).length < mcbMinFrameSize
  · have hafter : reassembler.turn (resync buffer) = .leave (resync buffer) := by
      show turn (resync buffer) = _
      rw [turn_eq, if_pos hshort]
    by_cases hmin : buffer.length < mcbMinFrameSize
    · have hbefore : reassembler.turn buffer = .leave buffer := by
        show turn buffer = _
        rw [turn_eq, if_pos hmin]
      rw [Reassembler.drain_leave hbefore, Reassembler.drain_leave hafter]
      exact ⟨rfl, (resync_resync buffer).symm⟩
    · have hbefore : reassembler.turn buffer = .leave (resync buffer) := by
        show turn buffer = _
        rw [turn_eq, if_neg hmin, if_pos hshort]
      rw [Reassembler.drain_leave hbefore, Reassembler.drain_leave hafter]
      exact ⟨rfl, rfl⟩
  · have hmin : ¬ buffer.length < mcbMinFrameSize := fun hmin => hshort (hle.trans_lt hmin)
    have hsame : reassembler.turn buffer = reassembler.turn (resync buffer) := by
      show turn buffer = turn (resync buffer)
      rw [turn_eq, turn_eq (resync buffer), resync_resync, if_neg hmin]
      simp only [if_neg hshort]
    cases hturn : reassembler.turn (resync buffer) with
    | leave rest =>
      rw [Reassembler.drain_leave (hsame.trans hturn), Reassembler.drain_leave hturn]
      exact ⟨rfl, rfl⟩
    | again rest =>
      rw [Reassembler.drain_again (hsame.trans hturn), Reassembler.drain_again hturn]
      exact ⟨rfl, rfl⟩
    | record r rest =>
      rw [Reassembler.drain_record (hsame.trans hturn), Reassembler.drain_record hturn]
      exact ⟨rfl, rfl⟩

theorem cutFrame_append {buffer : List UInt8} {t : Turn UInt8} (h : cutFrame buffer = t)
    (ht : ∀ rest, t ≠ .leave rest) (more : List UInt8) :
    (∀ rest, t = .again rest → cutFrame (buffer ++ more) = .again (rest ++ more)) ∧
      ∀ r rest, t = .record r rest → cutFrame (buffer ++ more) = .record r (rest ++ more) := by
  unfold cutFrame at h
  simp only at h
  split at h
  · exact absurd h.symm (ht _)
  · next hwhole =>
    have hlen : (buffer.getD 1 0).toNat + 4 ≤ buffer.length := not_lt.mp hwhole
    have hlen' : (buffer.getD 1 0).toNat + 4 ≤ (buffer ++ more).length := by
      rw [List.length_append]
      omega
    have hbyte : (buffer ++ more).getD 1 0 = buffer.getD 1 0 :=
      List.getD_append buffer more 0 1 (by omega)
    have hlast : (buffer ++ more).getD ((buffer.getD 1 0).toNat + 4 - 1) 0 =
        buffer.getD ((buffer.getD 1 0).toNat + 4 - 1) 0 :=
      List.getD_append buffer more 0 _ (by omega)
    unfold cutFrame
    simp only [hbyte, hlast, if_neg (not_lt.mpr hlen')]
    split at h
    · next hetx =>
      subst h
      rw [if_pos hetx]
      refine ⟨fun rest hrest => ?_, by simp⟩
      rw [← Turn.again.inj hrest, List.drop_append_of_le_length (by omega)]
    · next hetx =>
      subst h
      rw [if_neg hetx]
      refine ⟨by simp, fun r rest hrecord => ?_⟩
      obtain ⟨hr, hrest⟩ := Turn.record.inj hrecord
      rw [← hr, ← hrest, List.take_append_of_le_length hlen, List.drop_append_of_le_length hlen]

theorem turn_append {buffer : List UInt8} {t : Turn UInt8} (h : turn buffer = t)
    (ht : ∀ rest, t ≠ .leave rest) (more : List UInt8) :
    turn (buffer ++ more) = cutFrame (resync buffer ++ more) := by
  obtain ⟨-, hmin⟩ := turn_eq_cutFrame h ht
  have hle := resync_length_le buffer
  have hne : resync buffer ≠ [] := by
    intro hnil
    rw [hnil] at hmin
    exact absurd hmin (by decide)
  rw [turn_eq, resync_append, if_neg hne, if_neg, if_neg]
  · rw [List.length_append]
    omega
  · rw [List.length_append]
    omega

theorem rechunks : reassembler.Rechunks fun b c => resync b = resync c where
  refl b := rfl
  trans h h' := h.trans h'
  append := by
    intro b c w h
    rw [← resync_resync_append, h, resync_resync_append]
  drain := by
    intro b c h
    obtain ⟨hb, hb'⟩ := drain_resync b
    obtain ⟨hc, hc'⟩ := drain_resync c
    rw [hb, hb', hc, hc', h]
    exact ⟨rfl, rfl⟩
  leave := by
    intro b rest h
    rcases turn_leave h with hsame | hsame
    · rw [hsame]
    · rw [hsame, resync_resync]
  again := by
    intro b rest w h
    obtain ⟨hcut, -⟩ := turn_eq_cutFrame h (by simp)
    show turn (b ++ w) = _
    rw [turn_append h (by simp) w]
    exact (cutFrame_append hcut (by simp) w).1 rest rfl
  record := by
    intro b r rest w h
    obtain ⟨hcut, -⟩ := turn_eq_cutFrame h (by simp)
    show turn (b ++ w) = _
    rw [turn_append h (by simp) w]
    exact (cutFrame_append hcut (by simp) w).2 r rest rfl

/-- Whatever the bytes, well formed or not, the frames given to the decoder depend on the stream
only and not on how the transport cut it, and so does what is kept from the next STX on. -/
theorem onMCBDataReceived_rechunk {chunks chunks' : List (List UInt8)}
    (hflatten : chunks.flatten = chunks'.flatten) :
    (feed onMCBDataReceived [] chunks).1 = (feed onMCBDataReceived [] chunks').1 ∧
      resync (feed onMCBDataReceived [] chunks).2 =
        resync (feed onMCBDataReceived [] chunks').2 := by
  have hrest : reassembler.turn [] = .leave [] := rfl
  obtain ⟨hrecords, hleft⟩ := rechunks.feed hrest chunks
  obtain ⟨hrecords', hleft'⟩ := rechunks.feed hrest chunks'
  rw [hflatten] at hrecords hleft
  exact ⟨hrecords.trans hrecords'.symm, hleft.symm.trans hleft'⟩

theorem onMCBDataReceived_rechunk_false_start :
    [[0x02, 0x00, 0x07, 0x03], [0x02, 0x01, 0x52, 0x52, 0x03, 0x02]].flatten =
        [[0x02], [0x00, 0x07, 0x03, 0x02, 0x01, 0x52, 0x52, 0x03, 0x02]].flatten ∧
      (feed onMCBDataReceived [] [[0x02, 0x00, 0x07, 0x03],
        [0x02, 0x01, 0x52, 0x52, 0x03, 0x02]]).1 = (feed onMCBDataReceived []
        [[0x02], [0x00, 0x07, 0x03, 0x02, 0x01, 0x52, 0x52, 0x03, 0x02]]).1 ∧
      resync (feed onMCBDataReceived [] [[0x02, 0x00, 0x07, 0x03],
        [0x02, 0x01, 0x52, 0x52, 0x03, 0x02]]).2 = resync (feed onMCBDataReceived []
        [[0x02], [0x00, 0x07, 0x03, 0x02, 0x01, 0x52, 0x52, 0x03, 0x02]]).2 :=
  ⟨by decide, onMCBDataReceived_rechunk (by decide)⟩

/-- STX in front, ETX at the end, and a length byte that says how many bytes there are. -/
def Delimited (frame : List UInt8) : Prop :=
  frame.head? = some stx ∧ frame.getLast? = some etx ∧
    frame.length = (frame.getD 1 0).toNat + 4

instance (frame : List UInt8) : Decidable (Delimited frame) :=
  inferInstanceAs (Decidable (_ ∧ _ ∧ _))

theorem cutFrame_delimited {buffer r rest : List UInt8} (hhead : buffer.head? = some stx)
    (h : cutFrame buffer = .record r rest) : Delimited r ∧ buffer = r ++ rest := by
  unfold cutFrame at h
  simp only at h
  split at h
  · cases h
  · next hwhole =>
    split at h
    · cases h
    · next hetx =>
      obtain ⟨hr, hrest⟩ := Turn.record.inj h
      have hlen : (buffer.getD 1 0).toNat + 4 ≤ buffer.length := not_lt.mp hwhole
      have hsize : r.length = (buffer.getD 1 0).toNat + 4 := by
        rw [← hr, List.length_take, Nat.min_eq_left hlen]
      have hsplit : buffer = r ++ rest := by
        rw [← hr, ← hrest, List.take_append_drop]
      have hbyte : r.getD 1 0 = buffer.getD 1 0 := by
        rw [hsplit, List.getD_append r rest 0 1 (by omega)]
      refine ⟨⟨?_, ?_, ?_⟩, hsplit⟩
      · have hne : r ≠ [] := by
          intro hnil
          rw [hnil] at hsize
          cases hsize
        rw [← hhead, hsplit, List.head?_append_of_ne_nil r hne]
      · have hlast : r.getD (r.length - 1) 0 = etx := by
          rw [hsize, ← List.getD_append r rest 0 _ (by omega), ← hsplit]
          exact not_not.mp hetx
        have hless : r.length - 1 < r.length := by omega
        rw [List.getD_eq_getElem?_getD, List.getElem?_eq_getElem hless] at hlast
        rw [List.getLast?_eq_getElem?, List.getElem?_eq_getElem hless]
        exact congrArg some hlast
      · rw [hbyte, hsize]

theorem turn_record {buffer r rest : List UInt8} (h : turn buffer = .record r rest) :
    Delimited r ∧ resync buffer = r ++ rest := by
  obtain ⟨hcut, hmin⟩ := turn_eq_cutFrame h (by simp)
  have hne : resync buffer ≠ [] := by
    intro hnil
    rw [hnil] at hmin
    exact absurd hmin (by decide)
  exact cutFrame_delimited (head_resync hne) hcut

theorem cuts : reassembler.Cuts where
  leave := by
    intro b rest h
    rcases turn_leave h with hsame | hsame
    · exact ⟨[], hsame ▸ rfl⟩
    · obtain ⟨gap, hgap⟩ := List.dropWhile_suffix (l := b) (· ≠ stx)
      exact ⟨gap, by rw [hsame]; exact hgap.symm⟩
  again := by
    intro b rest h
    obtain ⟨hcut, -⟩ := turn_eq_cutFrame h (by simp)
    obtain ⟨gap, hgap⟩ : resync b <:+ b := List.dropWhile_suffix _
    refine ⟨gap ++ (resync b).take 1, ?_⟩
    rw [cutFrame_again hcut, List.append_assoc, List.take_append_drop, hgap]
  record := by
    intro b r rest h
    obtain ⟨-, hsplit⟩ := turn_record h
    obtain ⟨gap, hgap⟩ : resync b <:+ b := List.dropWhile_suffix _
    exact ⟨gap, by rw [← hsplit, hgap]⟩

theorem delimited_of_feed (chunks : List (List UInt8)) :
    ∀ frame ∈ (feed onMCBDataReceived [] chunks).1, Delimited frame :=
  Reassembler.feed_forall (R := reassembler) (fun _ _ _ h => (turn_record h).1) [] chunks

/-- Whatever the bytes, each frame given to the decoder has its delimiters and its length byte
right, and the frames and what is kept are pieces of the stream in its order. -/
theorem onMCBDataReceived_sound (chunks : List (List UInt8)) :
    (∀ frame ∈ (feed onMCBDataReceived [] chunks).1, Delimited frame) ∧
      Pieces (feed onMCBDataReceived [] chunks).1 (feed onMCBDataReceived [] chunks).2
        chunks.flatten := by
  constructor
  · exact delimited_of_feed chunks
  · exact cuts.feed [] chunks

theorem drain_nil : (reassembler.drain []).1 = [] := by
  have hnil : reassembler.turn [] = .leave [] := rfl
  rw [Reassembler.drain_leave hnil]

theorem feed_frames (chunks : List (List UInt8)) :
    (feed onMCBDataReceived [] chunks).1 = (reassembler.drain chunks.flatten).1 := by
  have hnil : reassembler.turn [] = .leave [] := rfl
  have hfeed := (rechunks.feed hnil chunks).1
  rwa [List.nil_append] at hfeed

theorem turn_of_many {b : List UInt8} (hmany : ¬ (resync b).length < mcbMinFrameSize) :
    reassembler.turn b = cutFrame (resync b) := by
  have hmin : ¬ b.length < mcbMinFrameSize := fun hmin => hmany ((resync_length_le b).trans_lt hmin)
  show turn b = _
  rw [turn_eq, if_neg hmin, if_neg hmany]

theorem Delimited.turn_append {frame : List UInt8} (h : Delimited frame) (more : List UInt8)
    (hmin : mcbMinFrameSize ≤ (frame ++ more).length) :
    reassembler.turn (frame ++ more) = .record frame more := by
  obtain ⟨hhead, hlast, hsize⟩ := h
  have hne : frame ≠ [] := List.ne_nil_of_length_pos (by omega)
  have hstart : (frame ++ more).head? = some stx := by
    rw [List.head?_append_of_ne_nil frame hne, hhead]
  have hbyte : (frame ++ more).getD 1 0 = frame.getD 1 0 :=
    List.getD_append frame more 0 1 (by omega)
  have hfinal : (frame ++ more).getD (frame.length - 1) 0 = etx := by
    rw [List.getD_append frame more 0 _ (by omega), List.getD_eq_getElem?_getD,
      ← List.getLast?_eq_getElem?, hlast]
    rfl
  have hmany : ¬ (resync (frame ++ more)).length < mcbMinFrameSize := by
    rw [resync_of_head hstart]
    exact not_lt.mpr hmin
  have hwhole : ¬ (frame ++ more).length < frame.length := by
    rw [List.length_append]
    omega
  rw [turn_of_many hmany, resync_of_head hstart]
  unfold cutFrame
  simp only [hbyte, ← hsize]
  rw [if_neg hwhole, if_neg (not_not.mpr hfinal), List.take_left, List.drop_left]

theorem Delimited.turn_self {frame : List UInt8} (h : Delimited frame)
    (hmin : mcbMinFrameSize ≤ frame.length) : reassembler.turn frame = .record frame [] := by
  have hturn := h.turn_append [] (by rwa [List.append_nil])
  rwa [List.append_nil] at hturn

theorem drain_delimited {frames : List (List UInt8)} (h : ∀ f ∈ frames, Delimited f)
    {tail : List UInt8} (htail : tail ≠ []) :
    (reassembler.drain (frames.flatten ++ tail)).1 = frames ++ (reassembler.drain tail).1 := by
  induction frames with
  | nil => rfl
  | cons f frames ih =>
    obtain ⟨hf, hframes⟩ := List.forall_mem_cons.mp h
    have hpos := List.length_pos_iff.mpr htail
    have hsize := hf.2.2
    have hmin : mcbMinFrameSize ≤ (f ++ (frames.flatten ++ tail)).length := by
      rw [List.length_append, List.length_append]
      unfold mcbMinFrameSize
      omega
    rw [List.flatten_cons, List.append_assoc, Reassembler.drain_record (hf.turn_append _ hmin),
      ih hframes, List.cons_append]

/-- The loop takes frames apart again, but for one of four bytes at the end. -/
theorem drain_flatten_iff {frames : List (List UInt8)} (h : ∀ f ∈ frames, Delimited f) :
    (reassembler.drain frames.flatten).1 = frames ↔
      ∀ f ∈ frames.getLast?, mcbMinFrameSize ≤ f.length := by
  rcases List.eq_nil_or_concat frames with rfl | ⟨init, f, hconcat⟩
  · exact iff_of_true drain_nil (by simp)
  · rw [List.concat_eq_append] at hconcat
    subst hconcat
    obtain ⟨hinit, hsingle⟩ := List.forall_mem_append.mp h
    have hf := hsingle f List.mem_cons_self
    have hsize := hf.2.2
    have hne : f ≠ [] := List.ne_nil_of_length_pos (by omega)
    have hlast : (∀ g ∈ (init ++ [f]).getLast?, mcbMinFrameSize ≤ g.length) ↔
        mcbMinFrameSize ≤ f.length := by simp
    rw [List.flatten_append, List.flatten_singleton, drain_delimited hinit hne, hlast,
      List.append_cancel_left_eq]
    by_cases hmin : mcbMinFrameSize ≤ f.length
    · rw [Reassembler.drain_record (hf.turn_self hmin), drain_nil]
      exact iff_of_true rfl hmin
    · have hturn : reassembler.turn f = .leave f := by
        show turn f = _
        rw [turn_eq, if_pos (not_le.mp hmin)]
      rw [Reassembler.drain_leave hturn]
      exact iff_of_false (by simp) hmin

theorem feed_flatten {frames chunks : List (List UInt8)} (h : ∀ f ∈ frames, Delimited f)
    (hlast : ∀ f ∈ frames.getLast?, mcbMinFrameSize ≤ f.length)
    (hchunks : chunks.flatten = frames.flatten) :
    feed onMCBDataReceived [] chunks = (frames, []) := by
  have hframes : (feed onMCBDataReceived [] chunks).1 = frames := by
    rw [feed_frames, hchunks]
    exact (drain_flatten_iff h).mpr hlast
  have hpieces : Pieces (feed onMCBDataReceived [] chunks).1 (feed onMCBDataReceived [] chunks).2
      chunks.flatten := cuts.feed [] chunks
  have hlength := hpieces.length_le
  rw [hframes, hchunks] at hlength
  have hrest : (feed onMCBDataReceived [] chunks).2 = [] :=
    List.eq_nil_of_length_eq_zero (by omega)
  exact Prod.ext hframes hrest

theorem resync_quiet {garbage : List UInt8} (hquiet : stx ∉ garbage) : resync garbage = [] := by
  have hall := resync_garbage hquiet []
  rwa [List.append_nil] at hall

/-- Frames and garbage between them come off in front of anything. -/
theorem drain_segments_append (segments : List Segment) (tail : List UInt8) :
    (reassembler.drain ((segments.map Segment.bytes).flatten ++ tail)).1 =
      segments.map Segment.frame ++ (reassembler.drain tail).1 := by
  have hpending : Pending (segments.map Segment.frame)
      ((segments.map Segment.bytes).flatten ++ []) := by
    rw [List.append_nil]
    exact ⟨segments, rfl, rfl⟩
  obtain ⟨later, hframes, hleft⟩ := follows_pending.drain hpending
  rw [List.append_nil] at hleft
  obtain ⟨hlater, hrest⟩ := hleft.done (Reassembler.turn_drain (R := reassembler) _)
  rw [(rechunks.drain_append _ tail).1, hrest, List.nil_append, hframes, hlater, List.append_nil]

theorem drain_segments (segments : List Segment) {tail : List UInt8} (hquiet : stx ∉ tail) :
    (reassembler.drain ((segments.map Segment.bytes).flatten ++ tail)).1 =
      segments.map Segment.frame := by
  have htail : (reassembler.drain tail).1 = [] := by
    rw [(drain_resync tail).1, resync_quiet hquiet, drain_nil]
  rw [drain_segments_append, htail, List.append_nil]

theorem drain_broken (s : Segment) {part : List UInt8} (hpart : part <+: s.frame)
    (hne : part ≠ s.frame) : (reassembler.drain part).1 = [] := by
  obtain ⟨rest, hrest⟩ := hpart
  have hwait : turn part = .leave part := by
    by_cases hmin : part.length < mcbMinFrameSize
    · rw [turn_eq, if_pos hmin]
    · have hhead : part.head? = some stx := by
        have hstx := s.head_frame
        rw [← hrest, List.head?_append_of_ne_nil] at hstx
        · exact hstx
        · intro hnil
          rw [hnil] at hmin
          exact hmin (by decide)
      have hwhole : part ++ rest = s.frame ++ [] := by rw [hrest, List.append_nil]
      rw [turn_eq, resync_of_head hhead, if_neg hmin, if_neg hmin]
      rcases s.cutFrame_eq (not_lt.mp hmin) hwhole with ⟨-, hleave⟩ | ⟨more, hmore, -⟩
      · exact hleave
      · obtain ⟨-, hnil⟩ := List.append_eq_nil_iff.mp hmore.symm
        rw [hnil, List.append_nil] at hrest
        exact absurd hrest hne
  have hturn : reassembler.turn part = .leave part := hwait
  rw [Reassembler.drain_leave hturn]

namespace Segment

/-- STX stands at the start of the frame only. -/
def Clear (s : Segment) : Prop := stx ∉ s.frame.tail

instance (s : Segment) : Decidable s.Clear := inferInstanceAs (Decidable (¬ _))

theorem bytes_length_pos (s : Segment) : 0 < s.bytes.length := by
  have hlen := s.frame_length
  rw [bytes, List.length_append]
  omega

theorem Clear.drop {s : Segment} (hs : s.Clear) {n : ℕ} (hn : 0 < n) : stx ∉ s.frame.drop n := by
  obtain ⟨k, rfl⟩ : ∃ k, n = k + 1 := ⟨n - 1, by omega⟩
  have htail : s.frame.drop (k + 1) = s.frame.tail.drop k := by
    rw [← List.drop_one, List.drop_drop, Nat.add_comm]
  rw [htail]
  exact fun hmem => hs (List.mem_of_mem_drop hmem)

/-- A segment cut short inside its garbage. -/
def skip (s : Segment) (n : ℕ) : Segment :=
  ⟨s.garbage.drop n, s.cmd, s.payload, fun h => s.quiet (List.mem_of_mem_drop h), s.fits⟩

/-- A segment with more garbage in front. -/
def behind (s : Segment) (garbage : List UInt8) (hquiet : stx ∉ garbage) : Segment :=
  ⟨garbage ++ s.garbage, s.cmd, s.payload,
    fun h => (List.mem_append.mp h).elim hquiet s.quiet, s.fits⟩

end Segment

/-- A stream of clear frames without its first bytes: some frames have gone, the start of the last
of them within these bytes, and the others are whole. -/
theorem drop_segments (segments : List Segment) (hclear : ∀ s ∈ segments, s.Clear) {n : ℕ}
    (hn : 0 < n) : ∃ lost left tail, lost ≤ segments.length ∧ stx ∉ tail ∧
      ((segments.map Segment.bytes).flatten).drop n =
        ((left : List Segment).map Segment.bytes).flatten ++ tail ∧
      left.map Segment.frame = (segments.drop lost).map Segment.frame ∧
      (((segments.take (lost - 1)).map Segment.bytes).flatten).length < n := by
  induction segments generalizing n with
  | nil => exact ⟨0, [], [], by simp, by simp, by simp, rfl, by simpa using hn⟩
  | cons s segments ih =>
    obtain ⟨hs, hsegments⟩ := List.forall_mem_cons.mp hclear
    rw [List.map_cons, List.flatten_cons]
    have hpos := s.bytes_length_pos
    rcases Nat.lt_trichotomy n s.bytes.length with hless | heq | hmore
    · by_cases hgarbage : n ≤ s.garbage.length
      · -- only garbage goes
        refine ⟨0, s.skip n :: segments, [], by simp, by simp, ?_, rfl, by simpa using hn⟩
        rw [List.drop_append_of_le_length hless.le, List.append_nil, List.map_cons,
          List.flatten_cons, Segment.bytes, List.drop_append_of_le_length hgarbage]
        rfl
      · -- the frame loses its start
        have hcut : s.bytes.drop n = s.frame.drop (n - s.garbage.length) := by
          rw [Segment.bytes, List.drop_append, List.drop_of_length_le (by omega), List.nil_append]
        have hquiet := hs.drop (n := n - s.garbage.length) (by omega)
        rw [List.drop_append_of_le_length hless.le, hcut]
        cases segments with
        | nil => exact ⟨1, [], _, by simp, hquiet, by simp, rfl, by simpa using hn⟩
        | cons s' segments =>
          refine ⟨1, s'.behind _ hquiet :: segments, [], by simp, by simp, ?_, rfl,
            by simpa using hn⟩
          rw [List.append_nil, List.map_cons, List.flatten_cons, List.map_cons, List.flatten_cons,
            ← List.append_assoc]
          congr 1
          rw [Segment.bytes, ← List.append_assoc]
          rfl
    · refine ⟨1, segments, [], by simp, by simp, ?_, rfl, by simpa using hn⟩
      rw [heq, List.drop_left, List.append_nil]
    · obtain ⟨lost, left, tail, hlost, htail, hdrop, hframes, hlength⟩ :=
        ih hsegments (n := n - s.bytes.length) (by omega)
      refine ⟨lost + 1, left, tail, by simpa using hlost, htail, ?_, hframes, ?_⟩
      · rw [List.drop_append, List.drop_of_length_le hmore.le, List.nil_append, hdrop]
      · cases lost with
        | zero => simpa using hn
        | succ lost =>
          simp only [Nat.add_sub_cancel] at hlength ⊢
          rw [List.take_succ_cons, List.map_cons, List.flatten_cons, List.length_append]
          omega

theorem turn_leave_length {buffer rest : List UInt8} (hhead : buffer.head? = some stx)
    (h : turn buffer = .leave rest) : buffer.length < 259 := by
  rw [turn_eq, resync_of_head hhead] at h
  split at h
  · next hmin =>
    unfold mcbMinFrameSize at hmin
    omega
  · unfold cutFrame at h
    simp only at h
    split at h
    · next hwait =>
      have hbyte := (buffer.getD 1 0).toNat_lt
      omega
    · split at h <;> cases h

theorem resync_eq_cons {junk : List UInt8} (h : resync junk ≠ []) :
    ∃ junk', resync junk = stx :: junk' ∧ junk'.length < junk.length ∧
      junk'.count stx < junk.count stx := by
  obtain ⟨junk', hjunk⟩ : ∃ junk', resync junk = stx :: junk' :=
    ⟨_, List.eq_cons_of_mem_head? (head_resync h)⟩
  have hsuffix : stx :: junk' <:+ junk := hjunk ▸ List.dropWhile_suffix _
  have hlength := hsuffix.length_le
  have hcount := hsuffix.sublist.count_le stx
  rw [List.count_cons_self] at hcount
  exact ⟨junk', hjunk, hlength, hcount⟩

theorem drain_drop (segments : List Segment) (hclear : ∀ s ∈ segments, s.Clear) {n : ℕ}
    (hn : 0 < n) : ∃ lost, lost ≤ segments.length ∧
      (reassembler.drain ((segments.map Segment.bytes).flatten.drop n)).1 =
        (segments.drop lost).map Segment.frame ∧
      ((segments.take (lost - 1)).map Segment.bytes).flatten.length < n := by
  obtain ⟨lost, left, tail, hlost, htail, hdrop, hframes, hlength⟩ :=
    drop_segments segments hclear hn
  exact ⟨lost, hlost, by rw [hdrop, drain_segments left htail, hframes], hlength⟩

theorem drain_recovers (segments : List Segment) (hclear : ∀ s ∈ segments, s.Clear)
    (junk : List UInt8) : ∃ spurious lost, lost ≤ segments.length ∧
      (reassembler.drain (junk ++ (segments.map Segment.bytes).flatten)).1 =
        spurious ++ (segments.drop lost).map Segment.frame ∧
      spurious.length ≤ junk.count stx ∧
      ((segments.take (lost - 1)).map Segment.bytes).flatten.length < 258 := by
  induction hlen : junk.length using Nat.strongRecOn generalizing junk with
  | _ n ih =>
    rw [(drain_resync _).1, resync_append]
    by_cases hnil : resync junk = []
    · rw [if_pos hnil, ← (drain_resync _).1]
      have hframes := drain_segments segments (List.not_mem_nil (a := stx))
      rw [List.append_nil] at hframes
      exact ⟨[], 0, by simp, by simpa using hframes, by simp, by simp⟩
    rw [if_neg hnil]
    obtain ⟨junk', hjunk, hshorter, hcount⟩ := resync_eq_cons hnil
    have hhead : (stx :: junk' ++ (segments.map Segment.bytes).flatten).head? = some stx := rfl
    rw [hjunk]
    cases hturn : turn (stx :: junk' ++ (segments.map Segment.bytes).flatten) with
    | leave rest =>
      -- the rest of the stream is waited for in vain
      have hshort := turn_leave_length hhead hturn
      have htake := ((segments.take_sublist (segments.length - 1)).map Segment.bytes).flatten
      have hle := htake.length_le
      rw [List.cons_append, List.length_cons, List.length_append] at hshort
      rw [Reassembler.drain_leave (R := reassembler) hturn]
      exact ⟨[], segments.length, le_rfl, by simp, by simp, by omega⟩
    | again rest =>
      obtain ⟨hcut, -⟩ := turn_eq_cutFrame hturn (by simp)
      rw [resync_of_head hhead] at hcut
      have hrest : rest = junk' ++ (segments.map Segment.bytes).flatten := cutFrame_again hcut
      obtain ⟨spurious, lost, hlost, hframes, hspurious, hlength⟩ := ih _ (hlen ▸ hshorter) junk' rfl
      rw [Reassembler.drain_again (R := reassembler) hturn, hrest]
      exact ⟨spurious, lost, hlost, hframes, by omega, hlength⟩
    | record r rest =>
      obtain ⟨⟨-, -, hsize⟩, hsplit⟩ := turn_record hturn
      rw [resync_of_head hhead] at hsplit
      have hbyte := (r.getD 1 0).toNat_lt
      rw [Reassembler.drain_record (R := reassembler) hturn]
      rcases Nat.lt_or_ge (stx :: junk').length r.length with hlong | hinside
      · -- the spurious frame takes the first bytes of the stream with it
        have hrest : rest = ((segments.map Segment.bytes).flatten).drop
            (r.length - (stx :: junk').length) := by
          have hdrop := congrArg (List.drop r.length) hsplit
          rw [List.drop_left, List.drop_append, List.drop_of_length_le hlong.le,
            List.nil_append] at hdrop
          exact hdrop.symm
        obtain ⟨lost, hlost, hframes, hlength⟩ :=
          drain_drop segments hclear (n := r.length - (stx :: junk').length) (by omega)
        have hone : (stx :: junk').length = junk'.length + 1 := rfl
        rw [hrest, hframes]
        refine ⟨[r], lost, hlost, rfl, ?_, by omega⟩
        rw [List.length_singleton]
        omega
      · -- it lies in the garbage
        have hrest : rest = (stx :: junk').drop r.length ++
            (segments.map Segment.bytes).flatten := by
          have hdrop := congrArg (List.drop r.length) hsplit
          rw [List.drop_left, List.drop_append_of_le_length hinside] at hdrop
          exact hdrop.symm
        obtain ⟨k, hk⟩ : ∃ k, r.length = k + 1 := ⟨r.length - 1, by omega⟩
        rw [hk, List.drop_succ_cons] at hrest
        have hdropped := List.drop_sublist k junk'
        have hle := hdropped.length_le
        have hle' := hdropped.count_le stx
        obtain ⟨spurious, lost, hlost, hframes, hspurious, hlength⟩ :=
          ih (junk'.drop k).length (by omega) (junk'.drop k) rfl
        rw [hrest, hframes]
        refine ⟨r :: spurious, lost, hlost, rfl, ?_, hlength⟩
        rw [List.length_cons]
        omega

/-- After garbage of any kind, with STX in it or not, the loop finds back to the frames that are
sent: it loses only frames that start within 257 bytes behind the garbage, gives the others to the
decoder whole and in order, and takes at most one spurious frame for each STX of the garbage. -/
theorem onMCBDataReceived_recovers (junk : List UInt8) (segments : List Segment)
    (hclear : ∀ s ∈ segments, s.Clear) (chunks : List (List UInt8))
    (hchunks : chunks.flatten = junk ++ (segments.map Segment.bytes).flatten) :
    ∃ spurious lost, lost ≤ segments.length ∧
      (feed onMCBDataReceived [] chunks).1 =
        spurious ++ (segments.drop lost).map Segment.frame ∧
      spurious.length ≤ junk.count stx ∧
      ((segments.take (lost - 1)).map Segment.bytes).flatten.length < 258 := by
  have hrecords := feed_frames chunks
  rw [hchunks] at hrecords
  obtain ⟨spurious, lost, hlost, hframes, hspurious, hlength⟩ :=
    drain_recovers segments hclear junk
  exact ⟨spurious, lost, hlost, hrecords.trans hframes, hspurious, hlength⟩

/-- Garbage that makes a spurious frame with the first frame behind it. -/
theorem onMCBDataReceived_recovers_status :
    let status : Segment := ⟨[], 0x52, [], by decide, by decide⟩
    let chunks : List (List UInt8) := [[0x02, 0x04], [0x00, 0x02, 0x01, 0x52, 0x52, 0x03],
      [0x02, 0x01, 0x52, 0x52, 0x03]]
    ∃ spurious lost, lost ≤ [status, status].length ∧
      (feed onMCBDataReceived [] chunks).1 =
        spurious ++ ([status, status].drop lost).map Segment.frame ∧
      spurious.length ≤ [0x02, 0x04, 0x00].count stx ∧
      (([status, status].take (lost - 1)).map Segment.bytes).flatten.length < 258 := by
  intro status chunks
  have hclear : ∀ s ∈ [status, status], s.Clear := by decide
  exact onMCBDataReceived_recovers [0x02, 0x04, 0x00] [status, status] hclear chunks (by decide)

end Spectrum.Tests
