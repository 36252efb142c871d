import Spectrum.Controller.Acceptance
import Spectrum.Foundation.Run
import Spectrum.Transport.Network.Lifecycle

/-! Several callers on one controller. A send and a whole `receive` are atomic; nothing keeps
the two halves of a `sendCommand` together. -/
namespace Spectrum.Controller
open Foundation Utils Protocols MCBProtocol Transport.Network Receiver

/-- A request and the board's answer to it, which `receive` and the parser take whole. -/
structure Exchange where
  cmd : UInt8
  payload : List UInt8
  raw : List UInt8
  data : List UInt8
  whole : Terminated etx raw
  parsed : parseFrame raw = some data

/-- What a call returns for this answer. -/
def Exchange.result (x : Exchange) : Except String (List UInt8) :=
  if x.data = [] then .error MCBFrameAwaiter.parseFailure else .ok x.data

theorem Exchange.deliver_raw (x : Exchange) :
    MCBFrameVectorAwaiter.deliver x.raw = x.result := by
  rw [MCBFrameVectorAwaiter.deliver_eq, x.parsed, Exchange.result]
  cases x.data <;> rfl

variable {κ : Type*} [DecidableEq κ]

/-- The link, the requests that went out, in order, the calls between their send and their
`receive`, and the calls that returned, in the order of their `receive`s. -/
structure Callers (κ : Type*) where
  link : Link
  sent : List (κ × Exchange)
  waiting : List (κ × Exchange)
  returned : List ((κ × Exchange) × Except String (List UInt8))

inductive Half (κ : Type*)
  | send (c : κ) (x : Exchange) (sends : List ℤ)
  | receive (c : κ)

namespace Callers

def start (impl : Impl) : Callers κ := ⟨⟨impl, []⟩, [], [], []⟩

/-- The two halves of `sendCommand`. The board answers as soon as a request is out; a send
that fails ends its call. -/
def step (s : Callers κ) : Half κ → Option (Callers κ)
  | .send c x sends =>
    if c ∈ s.waiting.map (·.1) then none
    else
      (s.link.impl.send (buildFrame x.cmd x.payload) sends).map fun (sent, impl) =>
        if !sent then { s with link := { s.link with impl := impl } }
        else
          { s with
            link := ⟨impl, s.link.incoming ++ x.raw.map some⟩
            sent := s.sent ++ [(c, x)]
            waiting := s.waiting ++ [(c, x)] }
  | .receive c =>
    (s.waiting.find? (·.1 = c)).map fun call =>
      { s with
        link := (MCBFrameVectorAwaiter.waitForFrame s.link).2
        waiting := s.waiting.eraseP (·.1 = c)
        returned := s.returned ++ [(call, (MCBFrameVectorAwaiter.waitForFrame s.link).1)] }

end Callers

def callers (κ : Type*) [DecidableEq κ] : System (Callers κ) (Half κ) := ⟨Callers.step⟩

namespace Callers

/-- The two halves of one call, with no other half in between, are `sendCommand`. -/
theorem run_call {s : Callers κ} {c : κ} {x : Exchange} {sends : List ℤ} {impl : Impl}
    (hc : c ∉ s.waiting.map (·.1))
    (hsend : s.link.impl.send (buildFrame x.cmd x.payload) sends = some (true, impl)) :
    ∃ result link, ProtocolController.sendCommand
        ⟨s.link.impl, s.link.incoming ++ x.raw.map some⟩ x.cmd x.payload sends =
          some (result, link) ∧
      (callers κ).run s [.send c x sends, .receive c] = some { s with
        link := link
        sent := s.sent ++ [(c, x)]
        returned := s.returned ++ [((c, x), result)] } := by
  have hother : ∀ call ∈ s.waiting, ¬ decide (call.1 = c) = true := by
    intro call hmem hcall
    have heq : call.1 = c := of_decide_eq_true hcall
    exact hc (heq ▸ List.mem_map_of_mem hmem)
  have hnone : s.waiting.find? (·.1 = c) = none := List.find?_eq_none.mpr hother
  have herase : (s.waiting ++ [(c, x)]).eraseP (·.1 = c) = s.waiting := by
    rw [List.eraseP_append_right _ hother]
    simp
  refine ⟨(MCBFrameVectorAwaiter.waitForFrame ⟨impl, s.link.incoming ++ x.raw.map some⟩).1,
    (MCBFrameVectorAwaiter.waitForFrame ⟨impl, s.link.incoming ++ x.raw.map some⟩).2,
    ProtocolController.sendCommand_sent hsend, ?_⟩
  have hfirst : s.step (.send c x sends) = some { s with
      link := ⟨impl, s.link.incoming ++ x.raw.map some⟩
      sent := s.sent ++ [(c, x)]
      waiting := s.waiting ++ [(c, x)] } := by
    simp [step, hc, hsend]
  rw [System.run_cons]
  change (s.step (.send c x sends)).bind _ = _
  rw [hfirst, Option.bind_some, System.run_cons]
  simp only [System.run_nil, callers, step, List.find?_append, hnone, herase]
  simp

/-- The answers in the socket are those of the requests sent and not yet received for, and the
results so far are those of the other requests, in the order of the sends. -/
structure Queued (s : Callers κ) : Prop where
  sockfd : s.link.impl.sockfd ≠ none
  count : s.returned.length + s.waiting.length = s.sent.length
  incoming : s.link.incoming =
    ((s.sent.drop s.returned.length).map (·.2.raw)).flatten.map some
  results : s.returned.map (·.2) = (s.sent.take s.returned.length).map (·.2.result)

omit [DecidableEq κ] in
theorem queued_start {impl : Impl} (hup : impl.Up) : (start impl : Callers κ).Queued :=
  ⟨hup.sockfd, rfl, rfl, rfl⟩

theorem Queued.send {s t : Callers κ} {c : κ} {x : Exchange} {sends : List ℤ} (hs : s.Queued)
    (h : s.step (.send c x sends) = some t) : t.Queued := by
  have hle : s.returned.length ≤ s.sent.length := hs.count ▸ Nat.le_add_right _ _
  simp only [step] at h
  split at h
  · cases h
  · obtain ⟨⟨sent, impl⟩, hsend, rfl⟩ := Option.map_eq_some_iff.mp h
    have hopen : impl.sockfd ≠ none := (Impl.send_frame hsend).2.1 ▸ hs.sockfd
    cases sent with
    | false => exact ⟨hopen, hs.count, hs.incoming, hs.results⟩
    | true =>
      refine ⟨hopen, ?_, ?_, ?_⟩
      · simp only [Bool.not_true, Bool.false_eq_true, if_false, List.length_append,
          List.length_singleton]
        have hcount := hs.count
        omega
      · simp only [Bool.not_true, Bool.false_eq_true, if_false, hs.incoming,
          List.drop_append_of_le_length hle, List.map_append, List.map_cons, List.map_nil,
          List.flatten_append, List.flatten_cons, List.flatten_nil, List.append_nil]
      · simp only [Bool.not_true, Bool.false_eq_true, if_false, hs.results,
          List.take_append_of_le_length hle]

theorem Queued.receive {s t : Callers κ} {c : κ} (hs : s.Queued)
    (h : s.step (.receive c) = some t) : t.Queued := by
  obtain ⟨call, hfind, rfl⟩ := Option.map_eq_some_iff.mp h
  have hmem : call ∈ s.waiting := List.mem_of_find?_eq_some hfind
  have hlen : (s.waiting.eraseP (·.1 = c)).length + 1 = s.waiting.length := by
    have herase := List.length_eraseP_of_mem hmem (List.find?_some hfind)
    have hpos := List.length_pos_of_mem hmem
    omega
  have hcount := hs.count
  have hlt : s.returned.length < s.sent.length := by omega
  -- the answer at the head of the socket is the one to the oldest request
  obtain ⟨fd, hfd⟩ := Option.ne_none_iff_exists'.mp hs.sockfd
  have hwait : MCBFrameVectorAwaiter.waitForFrame s.link =
      (s.sent[s.returned.length].2.result,
        ⟨s.link.impl, ((s.sent.drop (s.returned.length + 1)).map (·.2.raw)).flatten.map some⟩) := by
    rw [MCBFrameVectorAwaiter.waitForFrame_eq, Link.receive_eq hfd, hs.incoming,
      List.drop_eq_getElem_cons hlt, List.map_cons, List.flatten_cons, List.map_append,
      readRecord_terminated s.sent[s.returned.length].2.whole]
    exact congrArg (·, _) (s.sent[s.returned.length].2.deliver_raw)
  refine ⟨?_, ?_, ?_, ?_⟩
  · rw [hwait]
    exact hs.sockfd
  · change (s.returned ++ [_]).length + (s.waiting.eraseP _).length = s.sent.length
    rw [List.length_append, List.length_singleton]
    omega
  · rw [hwait, List.length_append, List.length_singleton]
  · rw [hwait, List.map_append, hs.results, List.length_append, List.length_singleton,
      List.take_succ_eq_append_getElem hlt, List.map_append]
    rfl

theorem Queued.step {s t : Callers κ} {e : Half κ} (hs : s.Queued) (h : s.step e = some t) :
    t.Queued := by
  cases e with
  | send c x sends => exact hs.send h
  | receive c => exact hs.receive h

/-- Each `receive` is run by the caller that has waited longest. -/
def InTurn (s : Callers κ) : Half κ → Prop
  | .send .. => True
  | .receive c => s.waiting.head?.map (·.1) = some c

/-- The calls that returned and those that wait, in the order of their sends. -/
def Ordered (s : Callers κ) : Prop := s.returned.map (·.1) ++ s.waiting = s.sent

theorem Ordered.step {s t : Callers κ} {e : Half κ} (hs : s.Ordered) (he : s.InTurn e)
    (h : s.step e = some t) : t.Ordered := by
  unfold Ordered at hs
  cases e with
  | send c x sends =>
    simp only [Callers.step] at h
    split at h
    · cases h
    · obtain ⟨⟨sent, impl⟩, -, rfl⟩ := Option.map_eq_some_iff.mp h
      cases sent with
      | false => exact hs
      | true =>
        change s.returned.map (·.1) ++ (s.waiting ++ [(c, x)]) = s.sent ++ [(c, x)]
        rw [← List.append_assoc, hs]
  | receive c =>
    obtain ⟨call, hfind, rfl⟩ := Option.map_eq_some_iff.mp h
    obtain ⟨first, hfirst, rfl⟩ := Option.map_eq_some_iff.mp he
    obtain ⟨rest, hwaiting⟩ := List.head?_eq_some_iff.mp hfirst
    have hsame : first = call := by simpa [hwaiting] using hfind
    subst hsame
    have herase : s.waiting.eraseP (·.1 = first.1) = rest := by
      rw [hwaiting, List.eraseP_cons_of_pos (by simp)]
    rw [Ordered, ← hs, herase, hwaiting, List.map_append, List.append_assoc]
    rfl

/-- The k-th `receive` takes the answer to the k-th request sent, whoever runs it. So every
call gets the answer to its own request when the `receive`s come in the order of the sends. -/
theorem run_in_order {impl : Impl} (hup : impl.Up) {es : List (Half κ)} {t : Callers κ}
    (hrun : (callers κ).run (.start impl) es = some t) :
    t.returned.map (·.2) = (t.sent.take t.returned.length).map (·.2.result) ∧
      ((callers κ).Along InTurn (.start impl) es → ∀ e ∈ t.returned, e.2 = e.1.2.result) := by
  have hqueued : t.Queued :=
    (callers κ).run_invariant (fun s e m hs hm => hs.step hm) (queued_start hup) hrun
  refine ⟨hqueued.results, fun hturn => ?_⟩
  have hstart : (start impl : Callers κ).Ordered := rfl
  have hordered : t.Ordered :=
    hturn.invariant (fun s e m hs he hm => hs.step he hm) hstart hrun
  have hcalls : t.sent.take t.returned.length = t.returned.map (·.1) := by
    rw [← hordered, List.take_left' (List.length_map ..)]
  have hresults := hqueued.results
  rw [hcalls, List.map_map] at hresults
  exact List.map_inj_left.mp hresults

end Callers

/-- The application, and the reader thread that answers events with commands of its own. -/
inductive Caller
  | application | reader
  deriving DecidableEq, Repr

def Exchange.firmware : Exchange where
  cmd := 0x51
  payload := []
  raw := buildFrame 0x51 [1, 2, 4]
  data := [1, 2, 4]
  whole := (terminated_buildFrame_iff _ _).mpr (by decide)
  parsed := by decide

def Exchange.status : Exchange where
  cmd := 0x52
  payload := []
  raw := buildFrame 0x52 [0x10]
  data := [0x10]
  whole := (terminated_buildFrame_iff _ _).mpr (by decide)
  parsed := by decide

theorem run_in_order_alternating :
    ∃ t, (callers Caller).run (.start (.online ⟨"127.0.0.1", 3001⟩))
        [.send .application .firmware [5], .send .reader .status [5], .receive .application,
          .receive .reader] = some t ∧ ∀ e ∈ t.returned, e.2 = e.1.2.result := by
  have hturn : (callers Caller).Along Callers.InTurn (.start (.online ⟨"127.0.0.1", 3001⟩))
      [.send .application .firmware [5], .send .reader .status [5], .receive .application,
        .receive .reader] := by
    refine System.along_cons ?_ rfl (System.along_cons ?_ rfl (System.along_cons ?_ rfl
      (System.along_cons ?_ rfl trivial)))
    · trivial
    · trivial
    · rfl
    · rfl
  exact ⟨_, rfl, (Callers.run_in_order (Impl.online_up _) rfl).2 hturn⟩

/-- The reader's `receive` runs first and takes the answer to the application's request. -/
theorem callers_swap :
    ∃ t, (callers Caller).run (.start (.online ⟨"127.0.0.1", 3001⟩))
        [.send .application .firmware [5], .send .reader .status [5], .receive .reader,
          .receive .application] = some t ∧
      t.returned = [((.reader, .status), .ok [1, 2, 4]), ((.application, .firmware), .ok [0x10])] ∧
      ¬ ∀ e ∈ t.returned, e.2 = e.1.2.result := by
  refine ⟨_, rfl, rfl, fun hown => ?_⟩
  have hreader := hown _ (List.mem_cons_self)
  exact absurd hreader (by decide)

end Spectrum.Controller
