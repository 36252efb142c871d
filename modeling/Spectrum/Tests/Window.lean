import Spectrum.Tests.Stream
import Spectrum.Transport.Network.Handed

/-! The programs under `tests/` connect first and call `subscribe` afterwards, while `read_loop` is
already reading. Which frames of the board come out of `onMCBDataReceived` then. -/
namespace Spectrum.Tests
open Foundation Utils Protocols MCBProtocol Transport.Network

/-- The frames that lie wholly between two places of the stream. -/
def framesBetween (a b : ℕ) : List Segment → List (List UInt8)
  | [] => []
  | s :: segments =>
    let later := framesBetween (a - s.bytes.length) (b - s.bytes.length) segments
    if a ≤ s.garbage.length ∧ s.bytes.length ≤ b then s.frame :: later else later

/-- What is left of the frame that this place of the stream lies in holds no STX. -/
def QuietFrom (a : ℕ) : List Segment → Prop
  | [] => True
  | s :: segments =>
    (s.garbage.length < a → stx ∉ s.frame.drop (a - s.garbage.length)) ∧
      QuietFrom (a - s.bytes.length) segments

theorem drain_quiet_append {garbage : List UInt8} (hquiet : stx ∉ garbage) (rest : List UInt8) :
    (reassembler.drain (garbage ++ rest)).1 = (reassembler.drain rest).1 := by
  rw [(drain_resync _).1, resync_garbage hquiet, ← (drain_resync rest).1]

theorem drain_quiet {garbage : List UInt8} (hquiet : stx ∉ garbage) :
    (reassembler.drain garbage).1 = [] := by
  have hall := drain_quiet_append hquiet []
  rwa [List.append_nil, drain_nil] at hall

namespace Segment

variable (s : Segment)

theorem bytes_length : s.bytes.length = s.garbage.length + s.frame.length := List.length_append

theorem drain_take_drop {a b : ℕ} (hb : b < s.bytes.length)
    (hquiet : s.garbage.length < a → stx ∉ s.frame.drop (a - s.garbage.length)) :
    (reassembler.drain ((s.bytes.take b).drop a)).1 = [] := by
  have hlen := s.bytes_length
  rw [bytes, List.take_append, List.drop_append, List.length_take]
  by_cases ha : s.garbage.length < a
  · have hgone : (s.garbage.take b).drop a = [] := by
      apply List.drop_of_length_le
      rw [List.length_take]
      omega
    rw [hgone, List.nil_append]
    apply drain_quiet
    intro hmem
    by_cases hbg : b ≤ s.garbage.length
    · have hzero : b - s.garbage.length = 0 := by omega
      rw [hzero, List.take_zero, List.drop_nil] at hmem
      cases hmem
    · have hmin : min b s.garbage.length = s.garbage.length := by omega
      rw [hmin, List.drop_take] at hmem
      exact hquiet ha (List.mem_of_mem_take hmem)
  · have hzero : a - min b s.garbage.length = 0 ∨ b - s.garbage.length = 0 := by omega
    have hpart : (s.frame.take (b - s.garbage.length)).drop (a - min b s.garbage.length) =
        s.frame.take (b - s.garbage.length) := by
      rcases hzero with hzero | hzero
      · rw [hzero, List.drop_zero]
      · rw [hzero, List.take_zero, List.drop_nil]
    have hgarbage : stx ∉ (s.garbage.take b).drop a := fun hmem =>
      s.quiet (List.mem_of_mem_take (List.mem_of_mem_drop hmem))
    rw [hpart, drain_quiet_append hgarbage]
    apply drain_broken s (List.take_prefix _ _)
    intro hall
    have hlength := congrArg List.length hall
    rw [List.length_take] at hlength
    have hpos := s.frame_length
    omega

end Segment

theorem drain_window (segments : List Segment) {a b : ℕ} (hquiet : QuietFrom a segments) :
    (reassembler.drain ((((segments.map Segment.bytes).flatten).take b).drop a)).1 =
      framesBetween a b segments := by
  induction segments generalizing a b with
  | nil =>
    rw [List.map_nil, List.flatten_nil, List.take_nil, List.drop_nil]
    exact drain_nil
  | cons s segments ih =>
    obtain ⟨hs, hlater⟩ := hquiet
    have hlen := s.bytes_length
    have hrest := ih (b := b - s.bytes.length) hlater
    rw [List.map_cons, List.flatten_cons, List.take_append, List.drop_append, List.length_take]
    unfold framesBetween
    by_cases hb : s.bytes.length ≤ b
    · -- the segment ends inside
      have hmin : min b s.bytes.length = s.bytes.length := by omega
      rw [hmin, List.take_of_length_le hb]
      by_cases ha : a ≤ s.garbage.length
      · have hzero : a - s.bytes.length = 0 := by omega
        have hskip : s.bytes.drop a = ([s.skip a].map Segment.bytes).flatten := by
          rw [Segment.bytes, List.drop_append_of_le_length ha, List.map_singleton,
            List.flatten_singleton]
          rfl
        rw [hskip, drain_segments_append, hrest, if_pos ⟨ha, hb⟩]
        rfl
      · have hcut : s.bytes.drop a = s.frame.drop (a - s.garbage.length) := by
          rw [Segment.bytes, List.drop_append, List.drop_of_length_le (by omega), List.nil_append]
        rw [hcut, drain_quiet_append (hs (by omega)), hrest, if_neg fun h => ha h.1]
    · have hzero : b - s.bytes.length = 0 := by omega
      have hnone : (((segments.map Segment.bytes).flatten).take (b - s.bytes.length)).drop
          (a - min b s.bytes.length) = [] := by
        rw [hzero, List.take_zero, List.drop_nil]
      have hnone' : (((segments.map Segment.bytes).flatten).take (b - s.bytes.length)).drop
          (a - s.bytes.length) = [] := by
        rw [hzero, List.take_zero, List.drop_nil]
      rw [hnone', drain_nil] at hrest
      rw [hnone, List.append_nil, s.drain_take_drop (by omega) hs, if_neg fun h => hb h.2]
      exact hrest

/-- Of the frames that the board writes, `onMCBDataReceived` puts together exactly those that lie
wholly in what `read_loop` gave to it, behind the chunks that it threw away before it found a
callback, however the owner and the reader take turns. -/
theorem printed_window (config : TCPConfig) (ms : List Move) (t : Threads)
    (lost : List (List UInt8))
    (hrun : (threads.observed dropped).run (.new config, []) ms = some (t, lost))
    (segments : List Segment)
    (hstream : (arrived ms).flatten <+: (segments.map Segment.bytes).flatten)
    (hquiet : QuietFrom lost.flatten.length segments) :
    (feed onMCBDataReceived [] t.impl.handed).1 =
      framesBetween lost.flatten.length (lost ++ t.impl.handed).flatten.length segments := by
  have hprefix : (lost ++ t.impl.handed).flatten <+: (segments.map Segment.bytes).flatten := by
    refine List.IsPrefix.trans ⟨t.readLoop.inHand.flatten, ?_⟩ hstream
    rw [arrived_eq config hrun, ← List.flatten_append, List.append_assoc]
  have hwindow : t.impl.handed.flatten =
      (((segments.map Segment.bytes).flatten).take (lost ++ t.impl.handed).flatten.length).drop
        lost.flatten.length := by
    rw [← List.prefix_iff_eq_take.mp hprefix, List.flatten_append, List.drop_left]
  rw [feed_frames, hwindow]
  exact drain_window segments hquiet

/-- The first of two answers is half read when the program subscribes, and the rest of it has been
taken but not tested: only its first half is lost. -/
theorem printed_window_half :
    let config : TCPConfig := ⟨"192.168.100.1", 3000⟩
    let ms : List Move := List.flatten [[.call (.connect ⟨true, true, true⟩)],
      List.replicate 12 .owner,
      [.reader, .reader, .reader, .received (.data [0x02, 0x01, 0x52]), .reader, .reader, .reader,
        .reader, .received (.data [0x52, 0x03, 0x02, 0x01, 0x52, 0x52, 0x03]), .subscribe,
        .reader, .reader]]
    let t : Threads := ⟨{ Impl.online config with
        receiveCallback := true, handed := [[0x52, 0x03, 0x02, 0x01, 0x52, 0x52, 0x03]] }, .idle,
      .callback, [(.connect ⟨true, true, true⟩, true)]⟩
    (threads.observed dropped).run (.new config, []) ms = some (t, [[0x02, 0x01, 0x52]]) ∧
      (feed onMCBDataReceived [] t.impl.handed).1 = [buildFrame 0x52 []] := by
  intro config ms t
  have hrun : (threads.observed dropped).run (.new config, []) ms =
      some (t, [[0x02, 0x01, 0x52]]) := by decide
  let status : Segment := ⟨[], 0x52, [], by decide, by decide⟩
  have hstream : (arrived ms).flatten <+: ([status, status].map Segment.bytes).flatten :=
    ⟨[], by decide⟩
  have hquiet : QuietFrom [[(0x02 : UInt8), 0x01, 0x52]].flatten.length [status, status] :=
    ⟨fun _ => by decide, fun h => absurd h (by decide), trivial⟩
  exact ⟨hrun, printed_window config ms t _ hrun [status, status] hstream hquiet⟩

end Spectrum.Tests
