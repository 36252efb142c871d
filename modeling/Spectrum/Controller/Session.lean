import Spectrum.Controller.Acceptance
import Spectrum.Transport.Network.Lifecycle
import Mathlib.Data.List.ReduceOption

/-! Sessions of one caller with a board that answers every request with one frame. A session
is in step while no byte of an answer is left over when a call ends; once it falls behind, it
stays behind. -/
namespace Spectrum.Controller
open Foundation Utils Protocols MCBProtocol Transport.Network Receiver ProtocolController

/-- A call of `sendCommand`, with the data of the board's answer, the results of the `::send`
calls, and the number of bytes that come in before the receive timeout strikes. -/
structure Request where
  cmd : UInt8
  payload : List UInt8
  answer : List UInt8
  sends : List ℤ
  arrives : ℕ
  nonempty : answer ≠ []
  fits : answer.length ≤ 254
  deriving Repr

namespace Request

def frame (r : Request) : List UInt8 := buildFrame r.cmd r.answer

/-- The request never reached the board as a whole. -/
def Unsent (r : Request) : Prop :=
  ∃ chunks, Impl.sendLoop (buildFrame r.cmd r.payload) 0 r.sends = some (false, chunks)

/-- The answer comes in whole before the timeout, with no ETX but the last byte; or there is
no answer. -/
def Settled (r : Request) : Prop :=
  r.Unsent ∨ (r.frame.length ≤ r.arrives ∧
    etx ∉ [UInt8.ofNat (1 + r.answer.length), r.cmd] ++ r.answer ++
      [UInt8.ofNat (r.cmd.toNat + (r.answer.map UInt8.toNat).sum)])

theorem etx_mem_frame (r : Request) : etx ∈ r.frame := by
  simp [frame, buildFrame, Impl.buildFrame]

end Request

/-- The transport, the bytes in its socket, those on their way, and the calls so far. -/
structure Session where
  impl : Impl
  unread : List UInt8
  inflight : List UInt8
  returned : List (Request × Except String (List UInt8))

namespace Session

def start (impl : Impl) : Session := ⟨impl, [], [], []⟩

/-- The bytes of answers that no call has read. -/
def outstanding (s : Session) : List UInt8 := s.unread ++ s.inflight

/-- A whole call. The board answers when the request went out, and `receive` sees what comes
in before the timeout. -/
def call (s : Session) (r : Request) : Option Session :=
  (s.impl.send (buildFrame r.cmd r.payload) r.sends).bind fun (sent, _) =>
    let inflight := if sent then s.inflight ++ r.frame else s.inflight
    let l : Link := ⟨s.impl, (s.unread ++ inflight.take r.arrives).map some⟩
    (sendCommand l r.cmd r.payload r.sends).map fun (result, l) =>
      { impl := l.impl
        unread := l.incoming.reduceOption
        inflight := inflight.drop r.arrives
        returned := s.returned ++ [(r, result)] }

end Session

def session : System Session Request := ⟨Session.call⟩

namespace Session

/-- The bytes that `receive` sees when the request went out. -/
def delivered (s : Session) (r : Request) : List UInt8 :=
  s.unread ++ (s.inflight ++ r.frame).take r.arrives

theorem delivered_append_drop (s : Session) (r : Request) :
    s.delivered r ++ (s.inflight ++ r.frame).drop r.arrives = s.outstanding ++ r.frame := by
  simp only [delivered, outstanding, List.append_assoc, List.take_append_drop]

theorem call_unsent {s : Session} {r : Request} {impl : Impl}
    (hsend : s.impl.send (buildFrame r.cmd r.payload) r.sends = some (false, impl)) :
    s.call r = some ⟨impl, s.unread ++ s.inflight.take r.arrives, s.inflight.drop r.arrives,
      s.returned ++ [(r, .error sendFailure)]⟩ := by
  have hcommand (incoming : List (Option UInt8)) :=
    sendCommand_unsent (l := ⟨s.impl, incoming⟩) hsend
  simp only [call, hsend, Option.bind_some, Bool.false_eq_true, if_false, hcommand,
    Option.map_some, List.reduceOption, List.filterMap_map, Function.id_comp, List.filterMap_some]

theorem call_sent {s : Session} {r : Request} {impl : Impl}
    (hsend : s.impl.send (buildFrame r.cmd r.payload) r.sends = some (true, impl)) :
    s.call r = some ⟨impl, (readRecord etx ((s.delivered r).map some)).2.reduceOption,
      (s.inflight ++ r.frame).drop r.arrives, s.returned ++
        [(r, (Link.outcome (readRecord etx ((s.delivered r).map some)).1).bind
          MCBFrameVectorAwaiter.deliver)]⟩ := by
  have hcommand (incoming : List (Option UInt8)) :=
    sendCommand_record (l := ⟨s.impl, incoming⟩) hsend
  simp only [call, hsend, Option.bind_some, if_true, hcommand, Option.map_some, delivered]

/-- What a call can do: throw without a read, take the first record of what came in, or
throw everything that came in away. -/
theorem call_cases {s t : Session} {r : Request} (h : s.call r = some t) :
    (s.impl.send (buildFrame r.cmd r.payload) r.sends = some (false, t.impl) ∧
      t.outstanding = s.outstanding ∧ t.returned = s.returned ++ [(r, .error sendFailure)]) ∨
    (s.impl.send (buildFrame r.cmd r.payload) r.sends = some (true, t.impl) ∧
      ∃ raw result, raw <+: s.delivered r ∧ s.outstanding ++ r.frame = raw ++ t.outstanding ∧
        t.returned = s.returned ++ [(r, result)] ∧
        ((Terminated etx raw ∧ result = MCBFrameVectorAwaiter.deliver raw) ∨
          (etx ∉ raw ∧ raw = s.delivered r ∧ result = .error Link.receiveFailure))) := by
  obtain ⟨⟨sent, impl⟩, hsend, -⟩ := Option.bind_eq_some_iff.mp h
  cases sent with
  | false =>
    have hsame := Option.some.inj ((call_unsent hsend).symm.trans h)
    subst hsame
    refine .inl ⟨hsend, ?_, rfl⟩
    simp only [outstanding, List.append_assoc, List.take_append_drop]
  | true =>
    have hsame := Option.some.inj ((call_sent hsend).symm.trans h)
    subst hsame
    refine .inr ⟨hsend, ?_⟩
    rw [← delivered_append_drop]
    rcases readRecord_map_some etx (s.delivered r) with
      ⟨raw, rest, hraw, heq, hread⟩ | ⟨hnot, hread⟩
    · refine ⟨raw, _, ⟨rest, heq.symm⟩, ?_, rfl, .inl ⟨hraw, ?_⟩⟩
      · have hrest : (rest.map some).reduceOption = rest := by simp [List.reduceOption]
        simp only [outstanding, hread, hrest]
        rw [heq, List.append_assoc]
      · simp only [hread]
        rfl
    · refine ⟨s.delivered r, _, List.prefix_rfl, ?_, rfl, .inr ⟨hnot, rfl, ?_⟩⟩
      · simp only [outstanding, hread]
        rfl
      · simp only [hread]
        rfl

theorem call_own {s t : Session} {r : Request} (hs : s.outstanding = []) (h : s.call r = some t) :
    ∃ result, t.returned = s.returned ++ [(r, result)] ∧
      ∀ out, result = .ok out → out = r.answer := by
  rcases call_cases h with ⟨-, -, hret⟩ | ⟨-, raw, result, -, hsplit, hret, hresult⟩
  · exact ⟨_, hret, by simp⟩
  · refine ⟨result, hret, fun out hout => ?_⟩
    rw [hs, List.nil_append] at hsplit
    rcases hresult with ⟨-, rfl⟩ | ⟨-, -, rfl⟩
    · exact ((deliver_prefix_iff r.fits hsplit.symm).mp hout).2
    · cases hout

theorem call_settled_iff {s t : Session} {r : Request} (hs : s.outstanding = [])
    (hstatus : s.impl.status = .connected) (hsockfd : s.impl.sockfd ≠ none)
    (h : s.call r = some t) : t.outstanding = [] ↔ r.Settled := by
  rcases call_cases h with ⟨hsend, hout, -⟩ | ⟨hsend, raw, result, hpre, hsplit, -, hresult⟩
  · exact iff_of_true (hout.trans hs) (.inl (Impl.send_false hstatus hsockfd hsend))
  · have hsent : ¬ r.Unsent := by
      intro h
      obtain ⟨chunks, hloop⟩ := h
      obtain ⟨-, chunks', hloop'⟩ := Impl.send_true hsend
      exact absurd (hloop.symm.trans hloop') (by simp)
    obtain ⟨hunread, hinflight⟩ := List.append_eq_nil_iff.mp hs
    have hdelivered : s.delivered r = r.frame.take r.arrives := by
      simp [delivered, hunread, hinflight]
    rw [hs, List.nil_append] at hsplit
    rw [Request.Settled, or_iff_right hsent, ← terminated_buildFrame_iff]
    change _ ↔ _ ∧ Terminated etx r.frame
    rcases hresult with ⟨hraw, -⟩ | ⟨hnot, hall, -⟩
    · have hwhole : Terminated etx r.frame ↔ t.outstanding = [] := by
        rw [hsplit, hraw.append_iff]
      constructor
      · intro hnil
        have heq : r.frame = raw := by rw [hsplit, hnil, List.append_nil]
        have hlen := hpre.length_le
        rw [hdelivered, List.length_take, ← heq] at hlen
        exact ⟨by omega, hwhole.mpr hnil⟩
      · intro hsettled
        exact hwhole.mp hsettled.2
    · -- what the timeout threw away is not the whole answer
      have hne : r.frame ≠ raw := fun heq => hnot (heq ▸ r.etx_mem_frame)
      apply iff_of_false
      · intro hnil
        apply hne
        rw [hsplit, hnil, List.append_nil]
      · intro hsettled
        apply hne
        rw [hall, hdelivered, List.take_of_length_le hsettled.1]

/-- Bytes of earlier answers are left over, up to the end of one. -/
def Behind (s : Session) : Prop := s.outstanding.getLast? = some etx

theorem Behind.etx_mem {s : Session} (hs : s.Behind) : etx ∈ s.outstanding :=
  List.mem_of_getLast? hs

theorem behind_of_split {s t : Session} {r : Request} {raw : List UInt8}
    (hsplit : s.outstanding ++ r.frame = raw ++ t.outstanding) (hne : t.outstanding ≠ []) :
    t.Behind := by
  have hframe : r.frame.getLast? = some etx := by
    rw [Request.frame, buildFrame, Impl.buildFrame, List.getLast?_concat]
  have hlast : (s.outstanding ++ r.frame).getLast? = some etx := by
    rw [List.getLast?_append, hframe]
    rfl
  rw [Behind, ← hlast, hsplit, List.getLast?_append_of_ne_nil _ hne]

theorem call_behind {s t : Session} {r : Request} (hs : s.outstanding = [])
    (h : s.call r = some t) (hne : t.outstanding ≠ []) : t.Behind := by
  rcases call_cases h with ⟨-, hout, -⟩ | ⟨-, raw, result, -, hsplit, -, -⟩
  · exact absurd (hout.trans hs) hne
  · exact behind_of_split hsplit hne

/-- A session that is behind stays behind, and what its calls return was decoded from bytes
that were left over before the call. -/
theorem Behind.call {s t : Session} {r : Request} (hs : s.Behind) (h : s.call r = some t) :
    t.Behind ∧ ∃ result, t.returned = s.returned ++ [(r, result)] ∧
      ∀ out, result = .ok out → ∃ raw rest, s.outstanding = raw ++ rest ∧
        MCBFrameVectorAwaiter.deliver raw = .ok out := by
  obtain ⟨first, rest, hfirst, hold⟩ := exists_terminated_prefix hs.etx_mem
  rcases call_cases h with ⟨-, hout, hret⟩ | ⟨-, raw, result, -, hsplit, hret, hresult⟩
  · refine ⟨?_, _, hret, by simp⟩
    rw [Behind, hout]
    exact hs
  · rcases hresult with ⟨hraw, rfl⟩ | ⟨hnot, -, rfl⟩
    · -- the record read is the first one of the bytes left over
      have hsame : first ++ (rest ++ r.frame) = raw ++ t.outstanding := by
        rw [← hsplit, hold, List.append_assoc]
      obtain ⟨rfl, hout⟩ := hfirst.append_inj hraw hsame
      have hne : t.outstanding ≠ [] := by
        rw [← hout]
        exact List.append_ne_nil_of_right_ne_nil _ (List.ne_nil_of_mem r.etx_mem_frame)
      exact ⟨behind_of_split hsplit hne, _, hret, fun out hok => ⟨first, rest, hold, hok⟩⟩
    · have hne : t.outstanding ≠ [] := by
        intro hnil
        rw [hnil, List.append_nil] at hsplit
        exact hnot (hsplit ▸ List.mem_append_right _ r.etx_mem_frame)
      exact ⟨behind_of_split hsplit hne, _, hret, by simp⟩

theorem call_connection {s t : Session} {r : Request} (h : s.call r = some t) :
    t.impl.status = s.impl.status ∧ t.impl.sockfd = s.impl.sockfd := by
  rcases call_cases h with ⟨hsend, -, -⟩ | ⟨hsend, -⟩
  · exact ⟨(Impl.send_frame hsend).1, (Impl.send_frame hsend).2.1⟩
  · exact ⟨(Impl.send_frame hsend).1, (Impl.send_frame hsend).2.1⟩

/-- Connected, with nothing left over. -/
structure InStep (s : Session) : Prop where
  outstanding : s.outstanding = []
  status : s.impl.status = .connected
  sockfd : s.impl.sockfd ≠ none

theorem inStep_start {impl : Impl} (hup : impl.Up) : (start impl).InStep :=
  ⟨rfl, hup.status, hup.sockfd⟩

theorem InStep.call_settled_iff {s t : Session} {r : Request} (hs : s.InStep)
    (h : s.call r = some t) : t.outstanding = [] ↔ r.Settled :=
  Session.call_settled_iff hs.outstanding hs.status hs.sockfd h

theorem InStep.call {s t : Session} {r : Request} (hs : s.InStep) (hr : r.Settled)
    (h : s.call r = some t) : t.InStep := by
  obtain ⟨hstatus, hsockfd⟩ := call_connection h
  exact ⟨(hs.call_settled_iff h).mpr hr, hstatus ▸ hs.status, hsockfd ▸ hs.sockfd⟩

/-- A session on a connection is in step exactly as long as all its answers were settled. -/
theorem in_step_iff {impl : Impl} (hup : impl.Up) {rs : List Request} {t : Session}
    (hrun : session.run (start impl) rs = some t) :
    t.outstanding = [] ↔ ∀ r ∈ rs, r.Settled := by
  rw [← System.along_event_iff hrun]
  refine System.run_property_iff (I := InStep) (B := Behind) (Q := fun s => s.outstanding = [])
    ?settled ?unsettled ?behind (fun s hs => hs.outstanding) ?empty (inStep_start hup) hrun
  case settled =>
    intro s r m hs hr hstep
    exact hs.call hr hstep
  case unsettled =>
    intro s r m hs hr hstep
    exact call_behind hs.outstanding hstep fun hnil => hr ((hs.call_settled_iff hstep).mp hnil)
  case behind =>
    intro s r m hs hstep
    exact (hs.call hstep).1
  case empty =>
    intro s hs hnil
    exact List.ne_nil_of_mem hs.etx_mem hnil

/-- Every normal return so far was the answer to its own request. -/
def Correlated (s : Session) : Prop :=
  ∀ c ∈ s.returned, ∀ out, c.2 = .ok out → out = c.1.answer

theorem Correlated.call {s t : Session} {r : Request} (hc : s.Correlated)
    (hs : s.outstanding = []) (h : s.call r = some t) : t.Correlated := by
  obtain ⟨result, hret, hown⟩ := call_own hs h
  intro c hmem out hout
  rw [hret] at hmem
  rcases List.mem_append.mp hmem with hmem | hmem
  · exact hc c hmem out hout
  · have hsame := List.mem_singleton.mp hmem
    subst hsame
    exact hown out hout

theorem Correlated.run {s t : Session} {rs : List Request} (hc : s.Correlated) (hs : s.InStep)
    (hrun : session.run s rs = some t) (hsettled : ∀ r ∈ rs.dropLast, r.Settled) :
    t.Correlated := by
  induction rs generalizing s with
  | nil => exact Option.some.inj hrun ▸ hc
  | cons r rest ih =>
    obtain ⟨m, hm, hrest⟩ := (session.run_cons_eq_some).mp hrun
    have hcm : m.Correlated := hc.call hs.outstanding hm
    cases rest with
    | nil => exact Option.some.inj hrest ▸ hcm
    | cons r' rest =>
      have hr : r.Settled := hsettled r (by simp)
      exact ih hcm (hs.call hr hm) hrest fun q hq => hsettled q (List.mem_cons_of_mem r hq)

/-- While the answers to all calls before the last were settled, whatever a call returns
normally is the answer to its own request. -/
theorem run_correlated {impl : Impl} (hup : impl.Up) {rs : List Request} {t : Session}
    (hrun : session.run (start impl) rs = some t) (hsettled : ∀ r ∈ rs.dropLast, r.Settled) :
    t.Correlated :=
  Correlated.run (by simp [Correlated, start]) (inStep_start hup) hrun hsettled

theorem run_correlated_firmware :
    let first : Request := ⟨0x51, [], [1, 2, 4], [5], 9, by decide, by decide⟩
    let second : Request := ⟨0x52, [], [0x03], [2, 3], 4, by decide, by decide⟩
    ∃ t, session.run (start (.online ⟨"127.0.0.1", 3001⟩)) [first, second] = some t ∧
      t.Correlated := by
  intro first second
  have hfirst : first.Settled := .inr (by decide)
  refine ⟨_, rfl, run_correlated (Impl.online_up _)
    (show session.run _ [first, second] = some _ from rfl) ?_⟩
  intro r hr
  rwa [List.mem_singleton.mp hr]

/-- The first answer has an ETX in its data and what looks like a frame behind it. The first
call throws, and the second returns the end of the first answer. -/
theorem run_not_correlated :
    let first : Request := ⟨0x51, [], [0xA8, 0x03, 0x02, 0x02, 0x51, 0x01], [5], 20, by decide,
      by decide⟩
    let second : Request := ⟨0x51, [], [0x07], [5], 20, by decide, by decide⟩
    ∃ t, session.run (start (.online ⟨"127.0.0.1", 3001⟩)) [first, second] = some t ∧
      t.returned = [(first, .error MCBFrameAwaiter.parseFailure), (second, .ok [0x01])] ∧
      ¬ t.Correlated := by
  refine ⟨_, rfl, rfl, fun hcorrelated => ?_⟩
  have hown := hcorrelated _ (List.mem_cons_of_mem _ (List.mem_singleton_self _)) [0x01] rfl
  exact absurd hown (by decide)

-- An answer that comes after the timeout is returned by the next call.
example :
    (session.run (start (.online ⟨"127.0.0.1", 3001⟩))
      [⟨0x51, [], [0x09], [5], 0, by decide, by decide⟩,
        ⟨0x51, [], [0x07], [5], 20, by decide, by decide⟩]).map (fun t => t.returned.map (·.2)) =
      some [.error Link.receiveFailure, .ok [0x09]] := rfl

end Session

end Spectrum.Controller
