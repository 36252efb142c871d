import Spectrum.Controller.Acceptance
import Spectrum.Transport.Network.Lifecycle
import Spectrum.Transport.Network.Send
import Mathlib.Algebra.Order.BigOperators.Group.List

/-! What a sequence of commands writes on one connection. A send that fails inside a frame leaves
the transport connected, and the next command writes its frame behind the torn one. -/
namespace Spectrum.Transport.Network.Impl

theorem sendLoop_failed {data : List UInt8} {totalSent : ℕ} {results : List ℤ}
    {chunks : List (List UInt8)} (h : sendLoop data totalSent results = some (false, chunks)) :
    ∃ accepted e rest, results = accepted ++ e :: rest ∧ (∀ n ∈ accepted, 0 < n) ∧
      (totalSent : ℤ) + accepted.sum < data.length ∧ e ≤ 0 := by
  obtain ⟨e, hlast, hfail, hsum⟩ := sendLoop_stops h
  obtain ⟨hcall, hget⟩ := List.getElem?_eq_some_iff.mp hlast
  refine ⟨results.take chunks.length, e, results.drop (chunks.length + 1), ?_, ?_, hsum, hfail⟩
  · rw [← hget, ← List.drop_eq_getElem_cons hcall, List.take_append_drop]
  · intro n hn
    obtain ⟨i, hi, rfl⟩ := List.mem_iff_getElem.mp hn
    rw [List.length_take] at hi
    obtain ⟨sent, hresult, hpos, -⟩ := sendLoop_chunk h (i := i) (by omega)
    obtain ⟨hi', rfl⟩ := List.getElem?_eq_some_iff.mp hresult
    rwa [List.getElem_take]

theorem sendLoop_false_iff {data : List UInt8} {totalSent : ℕ} {results : List ℤ} :
    (∃ chunks, sendLoop data totalSent results = some (false, chunks)) ↔
      ∃ accepted e rest, results = accepted ++ e :: rest ∧ (∀ n ∈ accepted, 0 < n) ∧
        (totalSent : ℤ) + accepted.sum < data.length ∧ e ≤ 0 := by
  refine ⟨fun h => sendLoop_failed h.choose_spec, ?_⟩
  intro h
  obtain ⟨accepted, e, rest, rfl, haccepted, hsum, he⟩ := h
  induction accepted generalizing totalSent with
  | nil =>
    have hmore : totalSent < data.length := by simpa using hsum
    exact ⟨[], by simp [sendLoop, hmore, he]⟩
  | cons sent accepted ih =>
    obtain ⟨hpos, hothers⟩ := List.forall_mem_cons.mp haccepted
    have hnonneg : 0 ≤ accepted.sum := List.sum_nonneg fun n hn => (hothers n hn).le
    rw [List.sum_cons] at hsum
    have hmore : totalSent < data.length := by omega
    have hlater : ((totalSent + sent.toNat : ℕ) : ℤ) + accepted.sum < data.length := by omega
    obtain ⟨chunks, hrest⟩ := ih hothers hlater
    refine ⟨(data.drop totalSent).take sent.toNat :: chunks, ?_⟩
    simp only [List.cons_append, sendLoop, if_pos hmore, if_neg (not_le.mpr hpos), hrest,
      Option.map_some]

theorem sendLoop_silent_iff {data : List UInt8} {results : List ℤ} {ok : Bool}
    {chunks : List (List UInt8)} (hdata : data ≠ [])
    (h : sendLoop data 0 results = some (ok, chunks)) :
    chunks.flatten = [] ↔ ∃ e rest, results = e :: rest ∧ e ≤ 0 := by
  have hmore : 0 < data.length := List.length_pos_iff.mpr hdata
  cases chunks with
  | nil =>
    rcases sendLoop_eq_nil h with ⟨hdone, -⟩ | ⟨-, -, hfail⟩
    · omega
    · exact iff_of_true rfl hfail
  | cons chunk chunks =>
    obtain ⟨sent, rest, rfl, -, hpos, rfl, -⟩ := sendLoop_eq_cons h
    have hne : (data.drop 0).take sent.toNat ≠ [] := by
      apply List.ne_nil_of_length_pos
      rw [List.length_take, List.length_drop]
      omega
    apply iff_of_false
    · intro hnil
      rw [List.flatten_cons, List.append_eq_nil_iff] at hnil
      exact hne hnil.1
    · intro hrefused
      obtain ⟨e, after, hresults, he⟩ := hrefused
      obtain ⟨hsent, -⟩ := List.cons.inj hresults
      omega

/-- The bytes that `::send` accepted on a descriptor. -/
def sentOn (s : Impl) (fd : ℕ) : List UInt8 :=
  ((s.wire.filter fun c => c.1 = fd).map (·.2)).flatten

/-- `send` on a connected transport writes what its loop writes, on the transport's socket. -/
theorem send_wire {s t : Impl} {fd : ℕ} {data : List UInt8} {results : List ℤ} {ok : Bool}
    (hstatus : s.status = .connected) (hfd : s.sockfd = some fd)
    (h : s.send data results = some (ok, t)) :
    ∃ chunks, sendLoop data 0 results = some (ok, chunks) ∧
      t.wire = s.wire ++ chunks.map (fd, ·) := by
  simp only [send, hstatus, hfd] at h
  obtain ⟨⟨ok', chunks⟩, hloop, heq⟩ := Option.map_eq_some_iff.mp h
  cases ok' <;> cases heq <;> exact ⟨chunks, hloop, rfl⟩

theorem sentOn_append {s t : Impl} {fd : ℕ} {chunks : List (List UInt8)}
    (h : t.wire = s.wire ++ chunks.map (fd, ·)) :
    t.sentOn fd = s.sentOn fd ++ chunks.flatten := by
  have hall : (chunks.map (fd, ·)).filter (fun c => decide (c.1 = fd)) = chunks.map (fd, ·) := by
    rw [List.filter_eq_self]
    intro c hc
    obtain ⟨chunk, -, hchunk⟩ := List.mem_map.mp hc
    exact decide_eq_true (congrArg Prod.fst hchunk).symm
  have hbytes : (chunks.map (fd, ·)).map (·.2) = chunks := by simp
  rw [sentOn, h, List.filter_append, hall, List.map_append, hbytes, List.flatten_append, sentOn]

end Spectrum.Transport.Network.Impl

namespace Spectrum.Controller
open Foundation Utils Protocols MCBProtocol Transport.Network Receiver ProtocolController

/-- A call of `sendCommand` with the results of its `::send` calls, and what comes in until it
has its answer. -/
structure Command where
  cmd : UInt8
  payload : List UInt8
  sends : List ℤ
  arrives : List (Option UInt8)
  deriving DecidableEq, Repr

namespace Command

def frame (r : Command) : List UInt8 := buildFrame r.cmd r.payload

theorem frame_ne_nil (r : Command) : r.frame ≠ [] := by
  simp [frame, buildFrame, Impl.buildFrame]

/-- The first `::send` accepts nothing. -/
def Refused (r : Command) : Prop := ∃ e rest, r.sends = e :: rest ∧ e ≤ 0

/-- A `::send` accepts nothing after earlier ones accepted some of the frame, but not all of it. -/
def Torn (r : Command) : Prop :=
  ∃ accepted e rest, r.sends = accepted ++ e :: rest ∧ accepted ≠ [] ∧ (∀ n ∈ accepted, 0 < n) ∧
    accepted.sum < (r.frame.length : ℤ) ∧ e ≤ 0

end Command

/-- A link, and the calls made on it with the bytes of the frame that `::send` accepted. -/
structure Outgoing where
  link : Link
  calls : List (Command × List UInt8)

namespace Outgoing

def start (impl : Impl) : Outgoing := ⟨⟨impl, []⟩, []⟩

/-- A whole call. The bytes accepted are those that the wire got longer by. -/
def call (s : Outgoing) (r : Command) : Option Outgoing :=
  let l := { s.link with incoming := s.link.incoming ++ r.arrives }
  (sendCommand l r.cmd r.payload r.sends).map fun (_, l') =>
    { link := l'
      calls := s.calls ++ [(r, ((l'.impl.wire.drop l.impl.wire.length).map (·.2)).flatten)] }

end Outgoing

def outgoing : System Outgoing Command := ⟨Outgoing.call⟩

namespace Outgoing

/-- Whole frames, then at most one call that breaks its frame off, then calls that write nothing. -/
def Intact (calls : List (Command × List UInt8)) : Prop :=
  ∃ whole last silent, calls = whole ++ last ++ silent ∧ last.length ≤ 1 ∧
    (∀ c ∈ whole, c.2 = [] ∨ c.2 = c.1.frame) ∧ ∀ c ∈ silent, c.2 = []

/-- The call wrote a part of its frame. -/
def Part (c : Command × List UInt8) : Prop := c.2 ≠ [] ∧ c.2 ≠ c.1.frame

theorem intact_iff_pairwise (calls : List (Command × List UInt8)) :
    Intact calls ↔ calls.Pairwise fun c d => Part c → d.2 = [] := by
  constructor
  · intro h
    obtain ⟨whole, last, silent, hcalls, hlast, hwhole, hsilent⟩ := h
    have hpart {c : Command × List UInt8} (hc : c ∈ whole) : ¬ Part c := by
      intro hp
      rcases hwhole c hc with hnil | hframe
      · exact hp.1 hnil
      · exact hp.2 hframe
    have hone : last.Pairwise fun c d => Part c → d.2 = [] := by
      match last, hlast with
      | [], _ => exact List.Pairwise.nil
      | [c], _ => exact List.pairwise_singleton _ c
    rw [hcalls, List.pairwise_append, List.pairwise_append]
    refine ⟨⟨?_, hone, ?_⟩, ?_, ?_⟩
    · exact List.pairwise_of_forall_mem_list fun c hc d _ hp => absurd hp (hpart hc)
    · exact fun c hc d _ hp => absurd hp (hpart hc)
    · exact List.pairwise_of_forall_mem_list fun c _ d hd _ => hsilent d hd
    · exact fun c _ d hd _ => hsilent d hd
  · intro h
    induction calls with
    | nil => exact ⟨[], [], [], by simp⟩
    | cons c calls ih =>
      obtain ⟨hfirst, hrest⟩ := List.pairwise_cons.mp h
      by_cases hp : Part c
      · exact ⟨[], [c], calls, rfl, le_rfl, by simp, fun d hd => hfirst d hd hp⟩
      · obtain ⟨whole, last, silent, hcalls, hlast, hwhole, hsilent⟩ := ih hrest
        have hc : c.2 = [] ∨ c.2 = c.1.frame := by
          by_cases hnil : c.2 = []
          · exact .inl hnil
          · exact .inr (by_contra fun hframe => hp ⟨hnil, hframe⟩)
        refine ⟨c :: whole, last, silent, by rw [hcalls]; rfl, hlast, ?_, hsilent⟩
        exact List.forall_mem_cons.mpr ⟨hc, hwhole⟩

/-- What a call writes can be told from the results of its `::send` calls. -/
def Told (c : Command × List UInt8) : Prop :=
  c.2 <+: c.1.frame ∧ (c.2 = [] ↔ c.1.Refused) ∧ (Part c ↔ c.1.Torn)

theorem told_of_sendLoop {r : Command} {ok : Bool} {chunks : List (List UInt8)}
    (h : Impl.sendLoop r.frame 0 r.sends = some (ok, chunks)) : Told (r, chunks.flatten) := by
  obtain ⟨pending, hsplit, hok⟩ := Impl.sendLoop_contract h
  have hframe : r.frame = chunks.flatten ++ pending := by rwa [List.drop_zero] at hsplit
  have hsilent : chunks.flatten = [] ↔ r.Refused := Impl.sendLoop_silent_iff r.frame_ne_nil h
  have hwhole : chunks.flatten = r.frame ↔ ok = true := by
    rw [hok, hframe, eq_comm, List.append_right_eq_self]
  refine ⟨⟨pending, hframe.symm⟩, hsilent, ?_⟩
  constructor
  · intro hp
    obtain ⟨hne, hnot⟩ := hp
    have hfalse : ok = false := by
      cases ok with
      | false => rfl
      | true => exact absurd (hwhole.mpr rfl) hnot
    subst hfalse
    obtain ⟨accepted, e, rest, hsends, hpos, hsum, he⟩ := Impl.sendLoop_false_iff.mp ⟨chunks, h⟩
    have haccepted : accepted ≠ [] := by
      intro hnil
      rw [hnil, List.nil_append] at hsends
      exact hne (hsilent.mpr ⟨e, rest, hsends, he⟩)
    exact ⟨accepted, e, rest, hsends, haccepted, hpos, by simpa using hsum, he⟩
  · intro ht
    obtain ⟨accepted, e, rest, hsends, haccepted, hpos, hsum, he⟩ := ht
    have hfails : ∃ chunks, Impl.sendLoop r.frame 0 r.sends = some (false, chunks) :=
      Impl.sendLoop_false_iff.mpr ⟨accepted, e, rest, hsends, hpos, by simpa using hsum, he⟩
    have hfalse : ok = false := by
      obtain ⟨chunks', hloop⟩ := hfails
      exact (Prod.mk.inj (Option.some.inj (h.symm.trans hloop))).1
    constructor
    · intro hnil
      obtain ⟨e', rest', hsends', he'⟩ := hsilent.mp hnil
      match accepted, haccepted with
      | n :: accepted, _ =>
        rw [hsends] at hsends'
        have hsame : n = e' := (List.cons.inj hsends').1
        have hn := hpos n List.mem_cons_self
        omega
    · intro hall
      rw [hwhole.mp hall] at hfalse
      cases hfalse

theorem call_wrote {s t : Outgoing} {r : Command} {fd : ℕ}
    (hstatus : s.link.impl.status = .connected) (hfd : s.link.impl.sockfd = some fd)
    (h : s.call r = some t) :
    (∃ bytes, t.calls = s.calls ++ [(r, bytes)] ∧ Told (r, bytes) ∧
      t.link.impl.sentOn fd = s.link.impl.sentOn fd ++ bytes) ∧
    t.link.impl.status = .connected ∧ t.link.impl.sockfd = some fd := by
  obtain ⟨⟨result, l⟩, hcommand, hsame⟩ := Option.map_eq_some_iff.mp h
  subst hsame
  obtain ⟨sent, hsend, -⟩ := send_of_sendCommand hcommand
  obtain ⟨chunks, hloop, hwire⟩ := Impl.send_wire hstatus hfd hsend
  obtain ⟨hst, hsock, -⟩ := Impl.send_frame hsend
  have hbytes : ((l.impl.wire.drop s.link.impl.wire.length).map (·.2)).flatten =
      chunks.flatten := by
    rw [hwire, List.drop_left]
    simp
  refine ⟨⟨chunks.flatten, ?_, told_of_sendLoop hloop, Impl.sentOn_append hwire⟩,
    hst.trans hstatus, hsock.trans hfd⟩
  rw [← hbytes]

/-- The calls of a run are those asked for, and what they wrote is what the socket got. -/
theorem run_wrote {s t : Outgoing} {rs : List Command} {fd : ℕ}
    (hstatus : s.link.impl.status = .connected) (hfd : s.link.impl.sockfd = some fd)
    (hrun : outgoing.run s rs = some t) :
    ∃ calls, t.calls = s.calls ++ calls ∧ calls.map (·.1) = rs ∧ (∀ c ∈ calls, Told c) ∧
      t.link.impl.sentOn fd = s.link.impl.sentOn fd ++ (calls.map (·.2)).flatten := by
  induction rs generalizing s with
  | nil =>
    have hsame := Option.some.inj hrun
    subst hsame
    exact ⟨[], by simp⟩
  | cons r rs ih =>
    obtain ⟨m, hm, hrest⟩ := (outgoing.run_cons_eq_some).mp hrun
    obtain ⟨⟨bytes, hcalls, htold, hsent⟩, hstatus', hfd'⟩ := call_wrote hstatus hfd hm
    obtain ⟨calls, hmore, hasked, htolds, hsents⟩ := ih hstatus' hfd' hrest
    refine ⟨(r, bytes) :: calls, ?_, ?_, ?_, ?_⟩
    · rw [hmore, hcalls, List.append_assoc, List.singleton_append]
    · rw [List.map_cons, hasked]
    · exact List.forall_mem_cons.mpr ⟨htold, htolds⟩
    · rw [hsents, hsent, List.map_cons, List.flatten_cons, List.append_assoc]

/-- What the commands of one connection write stays a row of whole frames, with at most one broken
off at the end, exactly when every call behind a torn one has its first `::send` refused. -/
theorem intact_iff (impl : Impl) (fd : ℕ) (hup : impl.Up) (hfd : impl.sockfd = some fd)
    (rs : List Command) (t : Outgoing) (hrun : outgoing.run (start impl) rs = some t) :
    t.calls.map (·.1) = rs ∧ (∀ c ∈ t.calls, c.2 <+: c.1.frame) ∧
      t.link.impl.sentOn fd = impl.sentOn fd ++ (t.calls.map (·.2)).flatten ∧
      (Intact t.calls ↔ rs.Pairwise fun r q => r.Torn → q.Refused) := by
  obtain ⟨calls, hcalls, hasked, htold, hsent⟩ := run_wrote hup.status hfd hrun
  have hsame : t.calls = calls := hcalls
  subst hsame
  refine ⟨hasked, fun c hc => (htold c hc).1, hsent, ?_⟩
  rw [intact_iff_pairwise, ← hasked, List.pairwise_map]
  apply List.Pairwise.iff_of_mem
  intro c d hc hd
  rw [(htold c hc).2.2, (htold d hd).2.1]

theorem intact_iff_refused :
    let torn : Command := ⟨0x51, [], [1, -1], []⟩
    let refused : Command := ⟨0x52, [], [-1], []⟩
    ∃ t, outgoing.run (start (.online ⟨"127.0.0.1", 3001⟩)) [torn, refused] = some t ∧
      (Intact t.calls ↔ [torn, refused].Pairwise fun r q => r.Torn → q.Refused) := by
  intro torn refused
  refine ⟨_, rfl, ?_⟩
  have hall := intact_iff (.online ⟨"127.0.0.1", 3001⟩) 0 (Impl.online_up _) rfl [torn, refused] _
    (show outgoing.run _ [torn, refused] = some _ from rfl)
  exact hall.2.2.2

/-- One byte of a frame, an error, and the next frame behind that byte. -/
theorem not_intact_torn :
    let torn : Command := ⟨0x51, [], [1, -1], []⟩
    let next : Command := ⟨0x52, [], [5], (buildFrame 0x52 [0x07]).map some⟩
    ∃ t, outgoing.run (start (.online ⟨"127.0.0.1", 3001⟩)) [torn, next] = some t ∧
      t.link.impl.sentOn 0 = 0x02 :: buildFrame 0x52 [] ∧ ¬ Intact t.calls := by
  intro torn next
  refine ⟨_, rfl, rfl, ?_⟩
  rw [intact_iff_pairwise]
  intro hpairwise
  have hpart : Part (torn, [0x02]) := ⟨by decide, by decide⟩
  have hsilent := (List.pairwise_cons.mp hpairwise).1 _ (List.mem_singleton_self _) hpart
  exact absurd hsilent (by decide)

end Outgoing

end Spectrum.Controller
