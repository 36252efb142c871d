import Spectrum.Tests.Stream
import Spectrum.Transport.Serial.Configured

/-! Calls that each write a frame, or break it off after some bytes and leave the connection as it
is. What a frame broken off costs of the frames behind it, when `onMCBDataReceived` is at the other
end. -/
namespace Spectrum.Tests
open Foundation Utils Protocols MCBProtocol

/-- The frames that begin 258 bytes or more behind the place that `gap` is counted from. -/
def late (gap : ℕ) : List Segment → List (List UInt8)
  | [] => []
  | s :: segments =>
    let later := late (gap + s.bytes.length) segments
    if 258 ≤ gap then s.frame :: later else later

theorem late_concat (gap : ℕ) (segments : List Segment) (s : Segment) :
    late gap (segments ++ [s]) = late gap segments ++
      if 258 ≤ gap + ((segments.map Segment.bytes).flatten).length then [s.frame] else [] := by
  induction segments generalizing gap with
  | nil => simp [late]
  | cons s' segments ih =>
    have hgap : gap + s'.bytes.length + ((segments.map Segment.bytes).flatten).length =
        gap + (((s' :: segments).map Segment.bytes).flatten).length := by
      rw [List.map_cons, List.flatten_cons, List.length_append]
      omega
    simp only [List.cons_append, late]
    rw [ih, hgap]
    by_cases hlate : 258 ≤ gap
    · rw [if_pos hlate, if_pos hlate, List.cons_append]
    · rw [if_neg hlate, if_neg hlate]

theorem late_sublist (gap : ℕ) (segments : List Segment) :
    (late gap segments).Sublist (segments.map Segment.frame) := by
  induction segments generalizing gap with
  | nil => exact List.Sublist.refl []
  | cons s segments ih =>
    unfold late
    rw [List.map_cons]
    split
    · exact (ih _).cons_cons _
    · exact (ih _).cons _

theorem late_sublist_drop {gap lost : ℕ} {segments : List Segment}
    (hlost : gap + ((segments.take (lost - 1)).map Segment.bytes).flatten.length < 258) :
    (late gap segments).Sublist ((segments.drop lost).map Segment.frame) := by
  induction segments generalizing gap lost with
  | nil => simp [late]
  | cons s segments ih =>
    cases lost with
    | zero => exact late_sublist gap (s :: segments)
    | succ lost =>
      have hearly : ¬ 258 ≤ gap := by omega
      unfold late
      rw [if_neg hearly, List.drop_succ_cons]
      cases lost with
      | zero =>
        rw [List.drop_zero]
        exact late_sublist _ segments
      | succ lost =>
        apply ih
        rw [Nat.add_sub_cancel, List.take_succ_cons, List.map_cons, List.flatten_cons,
          List.length_append] at hlost
        rw [Nat.add_sub_cancel]
        omega

/-- Behind garbage of any kind the late frames come out, and without garbage all of them. -/
theorem drain_late {junk : List UInt8} {gap : ℕ} (hgap : gap = 0 ∨ junk = [])
    (segments : List Segment) (hclear : ∀ s ∈ segments, s.Clear) : (late gap segments).Sublist
      (reassembler.drain (junk ++ (segments.map Segment.bytes).flatten)).1 := by
  rcases hgap with rfl | rfl
  · obtain ⟨spurious, lost, -, hframes, -, hlength⟩ := drain_recovers segments hclear junk
    rw [hframes]
    have hlate : (late 0 segments).Sublist ((segments.drop lost).map Segment.frame) := by
      apply late_sublist_drop
      rwa [Nat.zero_add]
    exact hlate.trans (List.sublist_append_right _ _)
  · have hquiet : stx ∉ ([] : List UInt8) := by simp
    have hall := drain_segments segments hquiet
    rw [List.append_nil] at hall
    rw [List.nil_append, hall]
    exact late_sublist gap segments

section Calls

variable {α : Type} (segment : α → Segment) (written : α → List UInt8)

/-- The calls that wrote their frame whole, 258 bytes or more behind the last frame broken off.
`gap` is how many bytes have been written since. -/
def settled (gap : ℕ) : List α → List α
  | [] => []
  | c :: calls =>
    if written c = (segment c).bytes then
      let later := settled (gap + (segment c).bytes.length) calls
      if 258 ≤ gap then c :: later else later
    else settled (if written c = [] then gap else 0) calls

theorem settled_behind {calls : List α}
    (hclear : ∀ c ∈ calls, written c = (segment c).bytes → (segment c).Clear)
    {junk : List UInt8} {gap : ℕ} (hgap : gap = 0 ∨ junk = []) {whole : List Segment}
    (hwhole : ∀ s ∈ whole, s.Clear) :
    (late gap whole ++ (settled segment written
      (gap + ((whole.map Segment.bytes).flatten).length) calls).map
        fun c => (segment c).frame).Sublist
      (reassembler.drain (junk ++ (whole.map Segment.bytes).flatten ++
        (calls.map written).flatten)).1 := by
  induction calls generalizing junk gap whole with
  | nil =>
    have hlate := drain_late hgap whole hwhole
    rw [List.map_nil, List.flatten_nil, List.append_nil]
    simpa [settled] using hlate
  | cons c calls ih =>
    obtain ⟨hc, hcalls⟩ := List.forall_mem_cons.mp hclear
    rw [List.map_cons, List.flatten_cons]
    unfold settled
    by_cases hall : written c = (segment c).bytes
    · -- one whole frame more
      have hmore : ∀ s ∈ whole ++ [segment c], s.Clear :=
        List.forall_mem_append.mpr ⟨hwhole, List.forall_mem_singleton.mpr (hc hall)⟩
      have hlater := ih hcalls hgap hmore
      rw [late_concat, List.map_append, List.map_singleton, List.flatten_append,
        List.flatten_singleton, List.length_append, ← Nat.add_assoc, ← List.append_assoc,
        List.append_assoc (junk ++ _), List.append_assoc (late gap whole)] at hlater
      rw [if_pos hall, hall]
      by_cases hlate : 258 ≤ gap + ((whole.map Segment.bytes).flatten).length
      · rw [if_pos hlate] at hlater ⊢
        exact hlater
      · rw [if_neg hlate] at hlater ⊢
        exact hlater
    · rw [if_neg hall]
      by_cases hnone : written c = []
      · rw [if_pos hnone, hnone, List.nil_append]
        exact ih hcalls hgap hwhole
      · -- what the loop has kept and the frame broken off are garbage for the next calls
        rw [if_neg hnone]
        have hsplit := (rechunks.drain_append (junk ++ (whole.map Segment.bytes).flatten)
          (written c ++ (calls.map written).flatten)).1
        have hnoclear : ∀ s ∈ ([] : List Segment), s.Clear := by simp
        have hstart : 0 = 0 ∨ (reassembler.drain
            (junk ++ (whole.map Segment.bytes).flatten)).2 ++ written c = [] := .inl rfl
        have hlater := ih hcalls hstart hnoclear
        rw [List.map_nil, List.flatten_nil, List.append_nil, List.length_nil] at hlater
        rw [hsplit]
        apply (drain_late hgap whole hwhole).append
        rw [← List.append_assoc]
        exact hlater

/-- A frame broken off costs frames that begin within 257 bytes behind it, and no others. -/
theorem settled_sublist {calls : List α}
    (hclear : ∀ c ∈ calls, written c = (segment c).bytes → (segment c).Clear) :
    ((settled segment written 258 calls).map fun c => (segment c).frame).Sublist
      (reassembler.drain (calls.map written).flatten).1 := by
  have hnoclear : ∀ s ∈ ([] : List Segment), s.Clear := by simp
  have hstart : 258 = 0 ∨ ([] : List UInt8) = [] := .inr rfl
  have hall := settled_behind segment written hclear hstart hnoclear
  simpa [late] using hall

end Calls

end Spectrum.Tests

namespace Spectrum.Transport.Serial
open Foundation Utils Protocols MCBProtocol Tests

/-- A frame given to `send`, and what `::write` returns. -/
structure Request where
  cmd : UInt8
  payload : List UInt8
  fits : payload.length ≤ 254
  bytesWritten : ℤ

namespace Request

def event (r : Request) : Event := .send (buildFrame r.cmd r.payload) r.bytesWritten

def segment (r : Request) : Segment := ⟨[], r.cmd, r.payload, List.not_mem_nil, r.fits⟩

/-- What `::write` takes of the frame. -/
def written (r : Request) : List UInt8 := (buildFrame r.cmd r.payload).take r.bytesWritten.toNat

end Request

namespace Impl

/-- The bytes that `::write` accepted on a descriptor. -/
def writtenOn (s : Impl) (fd : ℕ) : List UInt8 :=
  ((s.written.filter fun c => c.1 = fd).map (·.2)).flatten

theorem send_writtenOn {k : Kind} {s t : Impl} {fd : ℕ} {r : Request}
    (hs : s.status = .connected) (hfd : s.fd = some fd) (h : step k s r.event = some t) :
    t.status = .connected ∧ t.fd = some fd ∧ t.writtenOn fd = s.writtenOn fd ++ r.written := by
  rcases step_cases h with ⟨env, he, -⟩ | ⟨he, -⟩ | ⟨data, bytesWritten, he, rfl⟩
  · cases he
  · cases he
  · obtain ⟨rfl, rfl⟩ := Event.send.inj he
    have hstatus := (s.send_kept k.codes (buildFrame r.cmd r.payload) r.bytesWritten).1
    have hslot := s.send_slot k.codes (buildFrame r.cmd r.payload) r.bytesWritten
    have hwritten : (s.send k.codes (buildFrame r.cmd r.payload) r.bytesWritten).2.written =
        s.written ++ [(fd, r.written)] := by
      unfold send
      rw [hs, hfd]
      dsimp only
      split <;> rfl
    refine ⟨hstatus.trans hs, (congrArg Slot.held hslot).trans hfd, ?_⟩
    simp [writtenOn, hwritten]

theorem run_writtenOn {k : Kind} {s t : Impl} {fd : ℕ} {rs : List Request}
    (hs : s.status = .connected) (hfd : s.fd = some fd)
    (hrun : (serial k).run s (rs.map Request.event) = some t) :
    t.writtenOn fd = s.writtenOn fd ++ (rs.map Request.written).flatten := by
  induction rs generalizing s with
  | nil =>
    rw [← Option.some.inj hrun]
    exact (List.append_nil _).symm
  | cons r rs ih =>
    obtain ⟨m, hm, hrest⟩ := ((serial k).run_cons_eq_some).mp hrun
    obtain ⟨hstatus, hheld, hwritten⟩ := send_writtenOn hs hfd hm
    rw [ih hstatus hheld hrest, hwritten, List.append_assoc]
    rfl

end Impl

/-- On a serial line a short `::write` leaves the beginning of a frame behind. Of the frames that
were written whole, all that begin 258 bytes or more behind the last such beginning arrive, in
order, however the bytes are cut into chunks. -/
theorem requests_recovered (k : Kind) (s t : Impl) (fd : ℕ) (hs : s.status = .connected)
    (hfd : s.fd = some fd) (rs : List Request)
    (hrun : (serial k).run s (rs.map Request.event) = some t)
    (hclear : ∀ r ∈ rs, r.written = buildFrame r.cmd r.payload → r.segment.Clear)
    (chunks : List (List UInt8))
    (hchunks : t.writtenOn fd = s.writtenOn fd ++ chunks.flatten) :
    ((settled Request.segment Request.written 258 rs).map
      fun r => buildFrame r.cmd r.payload).Sublist (feed onMCBDataReceived [] chunks).1 := by
  have hwritten : chunks.flatten = (rs.map Request.written).flatten :=
    List.append_cancel_left (hchunks.symm.trans (Impl.run_writtenOn hs hfd hrun))
  rw [feed_frames, hwritten]
  exact settled_sublist Request.segment Request.written hclear

/-- Two bytes of a request, 273 bytes of whole ones, and one more: that one arrives. -/
theorem requests_recovered_status :
    let tty : Termios := ⟨.b9600, .b9600, false, false, false, false, .cs7⟩
    let s := (RS232Transport.connect (.new "/dev/ttyS0" .br9600) ⟨true, some tty, true⟩).2
    let torn : Request := ⟨0x52, [], by decide, 2⟩
    let network : Request := ⟨0x65, List.replicate 16 0xFF, by decide, 21⟩
    let status : Request := ⟨0x52, [], by decide, 5⟩
    let rs := torn :: List.replicate 13 network ++ [status]
    ∃ t, (serial .rs232Transport).run s (rs.map Request.event) = some t ∧
      [buildFrame 0x52 []].Sublist (feed onMCBDataReceived [] [t.writtenOn 0]).1 := by
  intro tty s torn network status rs
  have hclear : ∀ r ∈ rs, r.written = buildFrame r.cmd r.payload → r.segment.Clear := by
    intro r hr _
    have hcases : r = torn ∨ r = network ∨ r = status := by
      simpa [rs] using hr
    rcases hcases with rfl | rfl | rfl <;> decide
  have hruns : ∃ t, (serial .rs232Transport).run s (rs.map Request.event) = some t := by
    refine (serial .rs232Transport).run_total (I := fun _ => True) ?_ trivial _
    intro s e _
    cases e <;> exact ⟨_, rfl, trivial⟩
  have hsettled : (settled Request.segment Request.written 258 rs).map
      (fun r => buildFrame r.cmd r.payload) = [buildFrame 0x52 []] := by decide +kernel
  obtain ⟨t, hrun⟩ := hruns
  refine ⟨t, hrun, ?_⟩
  rw [← hsettled]
  exact requests_recovered .rs232Transport s t 0 rfl rfl rs hrun hclear [t.writtenOn 0]
    (List.append_nil _).symm

end Spectrum.Transport.Serial
