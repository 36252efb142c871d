import Spectrum.Foundation.Refinement
import Spectrum.Transport.Network.Places

/-! The states of the two threads and the states of `tcp` they stand for, and the steps of
`connect` and `disconnect` between them. -/
namespace Spectrum.Transport.Network
open Foundation

/-- What a step of `tcp` returns to the owner. -/
def answer : Process → Event → List (Call × Bool)
  | .alive s, .connect env =>
    match s.connect env with
    | .ok (ok, _) => [(.connect env, ok)]
    | .error _ => []
  | .alive s, .disconnect last => [(.disconnect, (s.disconnect last).1)]
  | .alive s, .send data results =>
    ((s.send data results).map fun (ok, _) => (Call.send data, ok)).toList
  | _, _ => []

/-- Why `read_loop` ends with this result. -/
def ReaderRecv.status : ReaderRecv → TransportStatus
  | .closed => .disconnected
  | _ => .error

theorem ReaderRecv.valid_of_ends {r : ReaderRecv} (hr : (Event.readLoop r).endsLoop = true) :
    r.Valid := by
  cases r with
  | data => cases hr
  | closed | timeout | error => trivial

namespace Impl

/-- The transport after the reader saw `running_` cleared, with the result it was waiting for. -/
def stopped (s : Impl) : Option ReaderRecv → Impl
  | some r => { s with running := false }.readLoop r
  | none => { s with running := false }.readLoopExit

theorem stopped_of_ends (s : Impl) {r : ReaderRecv} (hr : (Event.readLoop r).endsLoop = true) :
    s.stopped (some r) = s.readLoop r := by
  cases r with
  | data => cases hr
  | closed | timeout | error => rfl

theorem silent_readLoop (s : Impl) {r : ReaderRecv} (hr : (Event.readLoop r).endsLoop = true) :
    (s.readLoop r).silent = { s.silent with status := r.status }.readLoopExit := by
  have hexit : s.readLoop r =
      { s.logCode .tcpReceiveError with status := r.status }.readLoopExit := by
    cases r with
    | data => cases hr
    | closed | timeout | error => rfl
  rw [hexit, silent_readLoopExit]
  rfl

theorem readLoop_status (s : Impl) {r : ReaderRecv} (hr : (Event.readLoop r).endsLoop = true) :
    (s.readLoop r).status = r.status := by
  have hexit := congrArg Impl.status (s.silent_readLoop hr)
  rw [silent_status] at hexit
  rw [hexit, readLoopExit_status]
  cases r with
  | data => cases hr
  | closed | timeout | error => rfl

/-- A chunk is given to the callback, if there is one. -/
def hands (s : Impl) (bytes : List UInt8) : Impl :=
  if s.receiveCallback then { s with handed := s.handed ++ [bytes] } else s

theorem readLoop_data_of_running {s : Impl} (hrun : s.running = true) (bytes : List UInt8) :
    s.readLoop (.data bytes) = s.hands bytes := by
  cases h : s.receiveCallback <;> simp [readLoop, hands, h, hrun]

theorem hands_frame (s : Impl) (bytes : List UInt8) :
    (s.hands bytes).receiveCallback = s.receiveCallback ∧ (s.hands bytes).sockfd = s.sockfd ∧
      (s.hands bytes).wire = s.wire := by
  cases h : s.receiveCallback <;> simp [hands, h]

theorem silent_stopped_data (s : Impl) (bytes : List UInt8) : (s.stopped (some (.data bytes))).silent
    = ({ s.silent with running := false }.hands bytes).readLoopExit := by
  unfold stopped readLoop hands
  cases h : s.receiveCallback <;> simp only [h, silent, if_true, if_false, Bool.false_eq_true] <;>
    exact silent_readLoopExit _

theorem silent_stopped (s : Impl) (last : Option ReaderRecv) :
    ∃ u : Impl, (s.stopped last).silent = u.readLoopExit := by
  have hends {r : ReaderRecv} (hr : (Event.readLoop r).endsLoop = true) :
      ∃ u : Impl, (s.stopped (some r)).silent = u.readLoopExit := by
    rw [s.stopped_of_ends hr]
    exact ⟨_, s.silent_readLoop hr⟩
  cases last with
  | none => exact ⟨_, silent_readLoopExit _⟩
  | some r =>
    cases r with
    | data bytes => exact ⟨_, s.silent_stopped_data bytes⟩
    | closed => exact hends rfl
    | timeout => exact hends rfl
    | error => exact hends rfl

theorem stopped_sockfd (s : Impl) (last : Option ReaderRecv) :
    (s.stopped last).sockfd = none := by
  obtain ⟨u, hu⟩ := s.silent_stopped last
  rw [← silent_sockfd, hu, readLoopExit_sockfd]

theorem stopped_running (s : Impl) (last : Option ReaderRecv) :
    (s.stopped last).running = false := by
  obtain ⟨u, hu⟩ := s.silent_stopped last
  rw [← silent_running, hu, readLoopExit_running]

theorem stopped_readThread (s : Impl) (last : Option ReaderRecv) :
    (s.stopped last).readThread = .finished := by
  obtain ⟨u, hu⟩ := s.silent_stopped last
  rw [← silent_readThread, hu, readLoopExit_readThread]

theorem disconnect_of_up_eq {s : Impl} (hu : s.Up) (last : Option ReaderRecv) :
    s.disconnect last =
      (true, { s.stopped last with readThread := .none, status := .disconnected }) := by
  have hjoin : { s with running := false }.join last =
      { s.stopped last with readThread := .none } := by
    cases last <;> simp [join, hu.thread, stopped]
  have hclosed : { s.stopped last with readThread := .none }.closeSocket =
      { s.stopped last with readThread := .none } := by
    simp [closeSocket, s.stopped_sockfd last]
  have heq : s.disconnect last = (true,
      { ({ s with running := false }.join last).closeSocket with status := .disconnected }) := by
    simp [disconnect, hu.status, hu.thread, ReadThread.joinable]
  rw [heq, hjoin, hclosed]

end Impl

namespace ReaderAt

/-- `read_loop` is inside its loop on a connected transport, or about to report why it ends. -/
def Looping (c : Impl) : ReaderAt → Prop
  | .test | .loadSocket | .receiving | .callback => True
  | .recv fd => fd = c.sockfd
  | .testCallback bytes => (ReaderRecv.data bytes).Valid
  | .call bytes => (ReaderRecv.data bytes).Valid ∧ c.receiveCallback = true
  | .report status => ∃ r, (Event.readLoop r).endsLoop = true ∧ status = r.status
  | _ => False

/-- It has tested `running_` and not yet done with what `::recv` brings. -/
def Turning : ReaderAt → Prop
  | .loadSocket | .recv _ | .receiving | .testCallback _ | .call _ => True
  | _ => False

theorem Looping.of_same {c u : Impl} {p : ReaderAt} (h : p.Looping c) (hsock : u.sockfd = c.sockfd)
    (hcall : u.receiveCallback = c.receiveCallback) : p.Looping u := by
  cases p <;> simp only [Looping, hsock, hcall] at h ⊢ <;> exact h

theorem Looping.subscribe {c : Impl} {p : ReaderAt} (h : p.Looping c) :
    p.Looping c.subscribe := by
  cases p with
  | call bytes => exact ⟨h.1, rfl⟩
  | _ => exact h

theorem looping_received {r : ReaderRecv} (hv : r.Valid) (c : Impl) :
    (received r).Looping c := by
  cases r with
  | data bytes => exact hv
  | closed => exact ⟨.closed, rfl, rfl⟩
  | timeout => exact ⟨.timeout, rfl, rfl⟩
  | error => exact ⟨.error, rfl, rfl⟩

/-- What a step of `read_loop` inside its loop is to the connection, with what is being sent
beside it. -/
inductive Turn (c : Impl) (w : List (ℕ × List UInt8)) (p : ReaderAt) (s : Impl) (p' : ReaderAt) :
    Prop
  | goes (impl : s = c.silent.aside c.receiveCallback w) (place : p'.Looping c)
  | hands (bytes : List UInt8) (valid : (ReaderRecv.data bytes).Valid)
      (impl : s = (c.hands bytes).silent.aside c.receiveCallback w)
      (place : p'.Looping (c.hands bytes))
  | reports (r : ReaderRecv) (ends : (Event.readLoop r).endsLoop = true)
      (place : p = .report r.status)

theorem Looping.turn {c s s' : Impl} {w : List (ℕ × List UInt8)} {p p' : ReaderAt} (hu : c.Up)
    (hk : c.Kept) (hm : s = c.silent.aside c.receiveCallback w) (hl : p.Looping c)
    (hstep : p.step s = some (s', p')) : Turn c w p s' p' := by
  have hrun : s.running = true := by rw [hm]; exact hu.running
  have hsock : s.sockfd = c.sockfd := by rw [hm]; rfl
  have hcall : s.receiveCallback = c.receiveCallback := by rw [hm]; rfl
  cases p with
  | test =>
    simp only [step, hrun, if_true] at hstep
    cases hstep
    exact .goes hm trivial
  | loadSocket =>
    cases hstep
    exact .goes hm hsock
  | recv fd =>
    have hfd : fd = c.sockfd := hl
    obtain ⟨h, hh⟩ := Option.ne_none_iff_exists'.mp hu.sockfd
    have hserves : s.Serves fd := by
      rw [hm, hfd]
      exact ⟨h, hh, hk.1.held_open h hh⟩
    simp only [step, if_pos hserves] at hstep
    cases hstep
    exact .goes hm trivial
  | receiving => cases hstep
  | testCallback bytes =>
    simp only [step, hcall] at hstep
    cases hstep
    split
    · next hset => exact .goes hm ⟨hl, hset⟩
    · next hunset =>
      refine .hands bytes hl ?_ trivial
      rw [hm, Impl.hands, if_neg hunset]
  | call bytes =>
    obtain ⟨hvalid, hset⟩ := hl
    cases hstep
    refine .hands bytes hvalid ?_ trivial
    rw [Impl.hands, if_pos hset, hm]
    rfl
  | callback =>
    cases hstep
    exact .goes hm trivial
  | report status =>
    obtain ⟨r, hr, rfl⟩ := hl
    exact .reports r hr rfl
  | clearRunning | testSocket | loadClose | close | clearSocket | testStatus | setDisconnected
    | done => exact hl.elim

end ReaderAt

namespace SendAt

/-- What `send` has been told by the kernel, and what the kernel has accepted. -/
def Told (data : List UInt8) (results : List ℤ) (chunks : List (List UInt8)) (totalSent : ℕ) :
    Prop :=
  ∀ more, Impl.sendLoop data 0 (results ++ more) =
    (Impl.sendLoop data totalSent more).map fun (ok, later) => (ok, chunks ++ later)

/-- Where `send` stands on a transport whose descriptor was `fd` when it began. -/
def Progress (fd : ℕ) (data : List UInt8) (results : List ℤ) (chunks : List (List UInt8)) :
    SendAt → Prop
  | .testStatus => False
  | .testSocket => results = [] ∧ chunks = []
  | .loop totalSent => Told data results chunks totalSent
  | .send totalSent held =>
    Told data results chunks totalSent ∧ totalSent < data.length ∧ ∀ h ∈ held, h = fd
  | .sending totalSent held =>
    Told data results chunks totalSent ∧ totalSent < data.length ∧ held = fd

end SendAt

namespace OwnerAt

/-- Nothing has been decided that a transport at rest would not allow. -/
inductive Resting (c : Impl) : OwnerAt → Prop
  | idle : Resting c .idle
  | connect (env : ConnectEnv) : Resting c (.connect env .testStatus)
  | socket (env : ConnectEnv) : Resting c (.connect env .socket)
  | disconnect : Resting c (.disconnect .testDisconnected)
  | testError (herr : c.status = .error) : Resting c (.disconnect .testError)
  | send (data : List UInt8) : Resting c (.send data .testStatus)

/-- Nothing has been done to a connected transport. -/
inductive Undecided : OwnerAt → Prop
  | idle : Undecided .idle
  | connect (env : ConnectEnv) : Undecided (.connect env .testStatus)
  | disconnect : Undecided (.disconnect .testDisconnected)
  | testError : Undecided (.disconnect .testError)
  | clearRunning : Undecided (.disconnect .clearRunning)
  | send (data : List UInt8) : Undecided (.send data .testStatus)

/-- `disconnect` is past its tests, and not past `join`. -/
inductive Joining : OwnerAt → Prop
  | clearRunning : Joining (.disconnect .clearRunning)
  | testJoinable : Joining (.disconnect .testJoinable)
  | join : Joining (.disconnect .join)

end OwnerAt

/-- The state of the threads and the process of `tcp` it stands for. -/
inductive Sim : Threads → Process → Prop
  | down {t : Threads} {c : Impl} {th : ReadThread} (hd : c.Down th) (hth : th ≠ .running)
      (hk : c.Kept) (hl : Leaving t.impl t.readLoop c.silent) (hst : t.impl.status = c.status)
      (hp : t.readLoop.Past t.impl) (ho : t.owner.Resting c) : Sim t (.alive c)
  | opened {t : Threads} {c : Impl} {th : ReadThread} {env : ConnectEnv} (hd : c.Down th)
      (hth : th ≠ .running) (hk : c.Kept) (hl : Leaving t.impl t.readLoop
        (if env.socket then c.silent.acquires else c.silent))
      (ho : t.owner = .connect env (.setSocket (if env.socket then some c.fds.opened else none))) :
      Sim t (.alive c)
  | connecting {t : Threads} {c : Impl} {th : ReadThread} {env : ConnectEnv} {place : ConnectAt}
      (hd : c.Down th) (hth : th ≠ .running) (hk : c.Kept) (hl : t.readLoop = .test)
      (ho : t.owner = .connect env place) (hm : place.Reached env c t.impl) : Sim t (.alive c)
  | up {t : Threads} {c : Impl} (hu : c.Up) (hk : c.Kept) (hm : t.impl = c.silent)
      (hl : t.readLoop.Looping c) (ho : t.owner.Undecided) : Sim t (.alive c)
  | waiting {t : Threads} {c : Impl} (hu : c.Up) (hk : c.Kept)
      (hm : t.impl = { c.silent with running := false }) (hl : t.readLoop.Looping c)
      (hp : t.readLoop.Turning)
      (ho : t.owner = .disconnect .testJoinable ∨ t.owner = .disconnect .join) : Sim t (.alive c)
  | stopped {t : Threads} {c : Impl} {last : Option ReaderRecv} (hu : c.Up) (hk : c.Kept)
      (hv : ∀ r ∈ last, r.Valid) (hl : Leaving t.impl t.readLoop (c.stopped last).silent)
      (ho : t.owner.Joining ∨ (t.owner = .disconnect .testError ∧ t.readLoop.Past t.impl ∧
        t.impl.status = .disconnected ∧ (c.stopped last).status = .disconnected)) :
      Sim t (.alive c)
  | joined {t : Threads} {c : Impl} {last : Option ReaderRecv} (hu : c.Up) (hk : c.Kept)
      (hv : ∀ r ∈ last, r.Valid)
      (hm : t.impl = { (c.stopped last).silent with readThread := .none })
      (hl : t.readLoop = .test)
      (ho : t.owner = .disconnect .testSocket ∨ t.owner = .disconnect .setDisconnected) :
      Sim t (.alive c)
  | sending {t : Threads} {c : Impl} {data : List UInt8} {place : SendAt} {fd : ℕ}
      {results : List ℤ} {chunks : List (List UInt8)} (hu : c.Up) (hk : c.Kept)
      (hfd : c.sockfd = some fd) (ho : t.owner = .send data place)
      (hprogress : place.Progress fd data results chunks) (hl : t.readLoop.Looping c)
      (hm : t.impl = c.silent.aside c.receiveCallback (c.wire ++ chunks.map (fd, ·))) :
      Sim t (.alive c)
  | sendingLost {t : Threads} {c : Impl} {data : List UInt8} {place : SendAt} {fd : ℕ}
      {results : List ℤ} {chunks : List (List UInt8)} {r : ReaderRecv} (hu : c.Up) (hk : c.Kept)
      (hfd : c.sockfd = some fd) (ho : t.owner = .send data place)
      (hprogress : place.Progress fd data results chunks) (hp : t.readLoop.Past t.impl)
      (hr : (Event.readLoop r).endsLoop = true) (hst : t.impl.status = r.status)
      (hsock : ∀ h ∈ t.impl.sockfd, h = fd) (hl : Leaving t.impl t.readLoop
        ((c.readLoop r).silent.aside c.receiveCallback (c.wire ++ chunks.map (fd, ·)))) :
      Sim t (.alive c)
  | aborted {t : Threads} (ho : t.owner = .aborted) : Sim t .terminated

/-- A run of `tcp` from `p` leads to what the threads stand for, and returns what they returned. -/
def Answered (p : Process) (returned : List (Call × Bool)) (t : Threads) : Prop :=
  ∃ es q, (tcp.observed answer).run (p, returned) es = some (q, t.returned) ∧ Sim t q

namespace Answered

variable {p q r : Process} {l : List (Call × Bool)} {t : Threads}

theorem stay (h : Sim t p) (hl : t.returned = l) : Answered p l t :=
  ⟨[], p, by rw [hl]; rfl, h⟩

theorem event {e : Event} (hstep : tcp.step p e = some q) (h : Sim t q)
    (hl : t.returned = l ++ answer p e) : Answered p l t := by
  refine ⟨[e], q, ?_, h⟩
  rw [System.run_singleton, tcp.observed_step answer hstep l, hl]

theorem events {e f : Event} (he : tcp.step p e = some q) (hf : tcp.step q f = some r)
    (h : Sim t r) (hl : t.returned = l ++ answer p e ++ answer q f) : Answered p l t := by
  refine ⟨[e, f], r, ?_, h⟩
  have hfirst : (tcp.observed answer).run (p, l) [e] = some (q, l ++ answer p e) := by
    rw [System.run_singleton, tcp.observed_step answer he l]
  have hsecond : (tcp.observed answer).run (q, l ++ answer p e) [f] = some (r, t.returned) := by
    rw [System.run_singleton, tcp.observed_step answer hf _, hl]
  exact System.run_append_eq_some _ hfirst hsecond

end Answered

/-- The result of `::socket` is about to go into `sockfd_`. -/
def OwnerAt.setsSocket : OwnerAt → Bool
  | .connect _ (.setSocket _) => true
  | _ => false

/-- `connect()` does not set `sockfd_`, to a socket or to -1, while a `read_loop` is running. -/
def Apart (t : Threads) (m : Move) : Prop :=
  ¬ (m = .owner ∧ t.owner.setsSocket = true ∧ t.impl.readThread = .running)

instance (t : Threads) (m : Move) : Decidable (Apart t m) :=
  inferInstanceAs (Decidable (¬ (_ ∧ _ ∧ _)))

namespace Sim

variable {t t' : Threads} {c : Impl}

theorem disconnect_down {th : ReadThread} (hd : c.Down th) (hth : th ≠ .running) (hk : c.Kept)
    (hl : Leaving t.impl t.readLoop c.silent) (hst : t.impl.status = c.status)
    (hp : t.readLoop.Past t.impl) : Answered (.alive c) t.returned
      { t with owner := .idle, returned := t.returned ++ [(.disconnect, true)] } := by
  have hsame := Impl.disconnect_of_down hd none
  have hstep : tcp.step (.alive c) (.disconnect none) = some (.alive c) := by
    simp [tcp, Network.step, hsame]
  refine .event hstep (.down hd hth hk hl hst hp .idle) ?_
  simp [answer, hsame]

theorem send_down {th : ReadThread} (hd : c.Down th) (hth : th ≠ .running) (hk : c.Kept)
    (hl : Leaving t.impl t.readLoop c.silent) (hst : t.impl.status = c.status)
    (hp : t.readLoop.Past t.impl) (data : List UInt8) : Answered (.alive c) t.returned
      { t with owner := .idle, returned := t.returned ++ [(.send data, false)] } := by
  have hsend : c.send data [] = some (false, c.logCode .tcpConnectionFailure) := by
    unfold Impl.send
    split
    · next hconn _ => exact absurd hconn hd.not_connected
    · rfl
  have hstep : tcp.step (.alive c) (.send data []) =
      some (.alive (c.logCode .tcpConnectionFailure)) := by
    simp [tcp, Network.step, hsend]
  have hd' : (c.logCode .tcpConnectionFailure).Down th :=
    ⟨hd.status, hd.sockfd, hd.running, hd.thread⟩
  refine .event hstep (.down hd' hth (hk.of_slot_eq rfl) hl hst hp .idle) ?_
  simp [answer, hsend]

theorem down_owner {th : ReadThread} (hd : c.Down th) (hth : th ≠ .running) (hk : c.Kept)
    (hl : Leaving t.impl t.readLoop c.silent) (hst : t.impl.status = c.status)
    (hp : t.readLoop.Past t.impl) (ho : t.owner.Resting c) (hstep : t.ownerStep = some t') :
    Answered (.alive c) t.returned t' := by
  unfold Threads.ownerStep at hstep
  generalize howner : t.owner = o at ho hstep
  cases ho with
  | idle => cases hstep
  | connect env =>
    have hne : t.impl.status ≠ .connected := hst ▸ hd.not_connected
    simp only [ConnectAt.step, if_neg hne, Threads.after] at hstep
    cases hstep
    exact .stay (.down hd hth hk hl hst hp (.socket env)) rfl
  | socket env =>
    cases hsock : env.socket with
    | true =>
      simp only [ConnectAt.step, hsock, if_true, Threads.after] at hstep
      cases hstep
      have hleft : Leaving t.impl.acquires t.readLoop
          (if env.socket then c.silent.acquires else c.silent) := by
        rw [if_pos hsock]
        exact hl.acquires
      refine .stay (.opened hd hth hk hleft ?_) rfl
      rw [if_pos hsock, hl.opened_eq]
      rfl
    | false =>
      simp only [ConnectAt.step, hsock, Bool.false_eq_true, if_false, Threads.after] at hstep
      cases hstep
      have hnot : ¬ env.socket = true := by simp [hsock]
      have hleft : Leaving t.impl t.readLoop
          (if env.socket then c.silent.acquires else c.silent) := by
        rw [if_neg hnot]
        exact hl
      refine .stay (.opened hd hth hk hleft ?_) rfl
      rw [if_neg hnot]
  | disconnect =>
    simp only [DisconnectAt.step, Option.map_some] at hstep
    split at hstep
    · cases hstep
      exact disconnect_down hd hth hk hl hst hp
    · next hne =>
      cases hstep
      have herr : c.status = .error := hd.status.resolve_left (hst ▸ hne)
      exact .stay (.down hd hth hk hl hst hp (.testError herr)) rfl
  | testError herr =>
    have hsame : t.impl.status = .error := hst.trans herr
    simp only [DisconnectAt.step, Option.map_some, if_pos hsame, Threads.after] at hstep
    cases hstep
    exact disconnect_down hd hth hk hl hst hp
  | send data =>
    have hne : t.impl.status ≠ .connected := hst ▸ hd.not_connected
    simp only [SendAt.step, Option.map_some, if_neg hne, Threads.after] at hstep
    cases hstep
    exact send_down hd hth hk hl hst hp data

/-- `sockfd_` is set when the reader of the connection before has ended. -/
theorem opened_owner {th : ReadThread} {env : ConnectEnv} (hd : c.Down th) (hth : th ≠ .running)
    (hk : c.Kept) (hl : Leaving t.impl t.readLoop
      (if env.socket then c.silent.acquires else c.silent))
    (ho : t.owner = .connect env (.setSocket (if env.socket then some c.fds.opened else none)))
    (hapart : Apart t .owner) (hstep : t.ownerStep = some t') :
    Answered (.alive c) t.returned t' := by
  have hthr : t.impl.readThread ≠ .running := by
    intro hthr
    exact hapart ⟨rfl, by rw [ho]; rfl, hthr⟩
  obtain ⟨hm, hplace⟩ := hl.of_ended hthr
  unfold Threads.ownerStep at hstep
  simp only [ho, ConnectAt.step, Threads.after] at hstep
  cases hstep
  have hreached : ConnectAt.Reached env c t.impl
      (.setSocket (if env.socket then some c.fds.opened else none)) := ⟨hm, rfl⟩
  exact .stay (.connecting hd hth hk hplace rfl (ConnectAt.step_reached hd hk hreached rfl)) rfl

theorem connected {th : ReadThread} {env : ConnectEnv} {u : Impl} {ok : Bool} (hd : c.Down th)
    (hth : th ≠ .running) (hk : c.Kept) (hu : c.connect env = .ok (ok, u))
    (hm : u.silent = t.impl) (hl : t.readLoop = .test) (ho : t.owner = .idle) :
    Sim t (.alive u) := by
  have hidle : t.owner.Undecided := ho ▸ .idle
  have hrest : t.owner.Resting u := ho ▸ .idle
  cases hall : env.succeeds with
  | true =>
    have hth' : th = .none := by
      cases th with
      | none => rfl
      | running => exact absurd rfl hth
      | finished =>
        rw [Impl.connect_terminates hd hall] at hu
        cases hu
    subst hth'
    obtain ⟨u', hu', hup, hk'⟩ := Impl.connect_succeeds hd hk hall
    rw [hu] at hu'
    cases hu'
    exact .up hup hk' hm.symm (hl ▸ trivial) hidle
  | false =>
    obtain ⟨u', hu', -, hd', hk'⟩ := Impl.connect_fails hd hk hall
    rw [hu] at hu'
    cases hu'
    have hthr : t.impl.readThread ≠ .running := by
      rw [← hm, Impl.silent_readThread, hd'.thread]
      exact hth
    refine .down hd' hth hk' (.ended hthr hl hm.symm) ?_ ?_ hrest
    · rw [← hm, Impl.silent_status]
    · rw [hl]
      exact hthr

/-- `connect` at work, with no `read_loop` next to it. -/
theorem connecting_owner {th : ReadThread} {env : ConnectEnv} {place : ConnectAt}
    (hd : c.Down th) (hth : th ≠ .running) (hk : c.Kept) (hl : t.readLoop = .test)
    (ho : t.owner = .connect env place) (hm : place.Reached env c t.impl)
    (hstep : t.ownerStep = some t') : Answered (.alive c) t.returned t' := by
  unfold Threads.ownerStep at hstep
  rw [ho] at hstep
  cases hmove : place.step env t.impl with
  | mk m next =>
    simp only [hmove] at hstep
    cases hstep
    cases next with
    | goto place' =>
      exact .stay (.connecting hd hth hk hl rfl (ConnectAt.step_reached hd hk hm hmove)) rfl
    | aborts =>
      have habort := ConnectAt.step_aborts hd hm hmove
      have hterm : tcp.step (.alive c) (.connect env) = some .terminated := by
        simp [tcp, Network.step, habort]
      refine .event hterm (.aborted rfl) ?_
      simp [Threads.after, answer, habort]
    | returns ok =>
      obtain ⟨u, hu, hsilent⟩ := ConnectAt.step_returns hd hm hmove
      have halive : tcp.step (.alive c) (.connect env) = some (.alive u) := by
        simp [tcp, Network.step, hu]
      refine .event halive (connected hd hth hk hu hsilent hl rfl) ?_
      simp [Threads.after, answer, hu]

theorem leaving_report (hu : c.Up) {r : ReaderRecv} (hr : (Event.readLoop r).endsLoop = true) :
    Leaving c.silent (.report r.status) (c.readLoop r).silent := by
  refine .exiting hu.thread trivial ?_
  rw [c.silent_readLoop hr]
  rfl

/-- `disconnect` clears `running_`: from here on the reader can only leave. -/
theorem stops (hu : c.Up) (hk : c.Kept) (hm : t.impl = c.silent) (hl : t.readLoop.Looping c) :
    Sim { t with impl := { t.impl with running := false }, owner := .disconnect .testJoinable }
      (.alive c) := by
  obtain ⟨s, owner, place, returned⟩ := t
  cases hm
  cases place with
  | loadSocket | recv | receiving | testCallback | call =>
    exact .waiting hu hk rfl hl trivial (.inl rfl)
  | test | callback =>
    have hlast : ∀ r ∈ (none : Option ReaderRecv), r.Valid := by simp
    refine .stopped hu hk hlast (.exiting hu.thread rfl ?_) (.inl .testJoinable)
    exact (Impl.silent_readLoopExit { c with running := false }).symm
  | report status =>
    obtain ⟨r, hr, rfl⟩ := hl
    have hlast : ∀ r' ∈ some r, r'.Valid := by simp [ReaderRecv.valid_of_ends hr]
    refine .stopped hu hk hlast ?_ (.inl .testJoinable)
    rw [c.stopped_of_ends hr]
    refine (leaving_report hu hr).stop ?_
    rw [c.silent_readLoop hr, Impl.readLoopExit_running]
  | clearRunning | testSocket | loadClose | close | clearSocket | testStatus | setDisconnected
    | done => exact hl.elim

theorem up_owner (hu : c.Up) (hk : c.Kept) (hm : t.impl = c.silent) (hl : t.readLoop.Looping c)
    (ho : t.owner.Undecided) (hstep : t.ownerStep = some t') :
    Answered (.alive c) t.returned t' := by
  have hst : t.impl.status = .connected := by rw [hm, Impl.silent_status, hu.status]
  unfold Threads.ownerStep at hstep
  generalize howner : t.owner = o at ho hstep
  cases ho with
  | idle => cases hstep
  | connect env =>
    simp only [ConnectAt.step, if_pos hst, Threads.after] at hstep
    cases hstep
    have hsame := Impl.connect_of_up hu env
    have hevent : tcp.step (.alive c) (.connect env) = some (.alive c) := by
      simp [tcp, Network.step, hsame]
    refine .event hevent (.up hu hk hm hl .idle) ?_
    simp [answer, hsame]
  | disconnect =>
    have hne : t.impl.status ≠ .disconnected := by simp [hst]
    simp only [DisconnectAt.step, Option.map_some, if_neg hne, Threads.after] at hstep
    cases hstep
    exact .stay (.up hu hk hm hl .testError) rfl
  | testError =>
    have hne : t.impl.status ≠ .error := by simp [hst]
    simp only [DisconnectAt.step, Option.map_some, if_neg hne, Threads.after] at hstep
    cases hstep
    exact .stay (.up hu hk hm hl .clearRunning) rfl
  | clearRunning =>
    simp only [DisconnectAt.step, Option.map_some, Threads.after] at hstep
    cases hstep
    exact .stay (stops hu hk hm hl) rfl
  | send data =>
    simp only [SendAt.step, Option.map_some, if_pos hst, Threads.after] at hstep
    cases hstep
    obtain ⟨fd, hfd⟩ := Option.ne_none_iff_exists'.mp hu.sockfd
    have hprogress : SendAt.testSocket.Progress fd data [] [] := ⟨rfl, rfl⟩
    refine .stay (.sending hu hk hfd rfl hprogress hl ?_) rfl
    rw [hm, List.map_nil, List.append_nil]
    rfl

theorem waiting_owner (hu : c.Up) (hk : c.Kept)
    (hm : t.impl = { c.silent with running := false }) (hl : t.readLoop.Looping c)
    (hp : t.readLoop.Turning) (ho : t.owner = .disconnect .testJoinable ∨ t.owner = .disconnect .join)
    (hstep : t.ownerStep = some t') : Answered (.alive c) t.returned t' := by
  have hthr : t.impl.readThread = .running := by rw [hm]; exact hu.thread
  unfold Threads.ownerStep at hstep
  rcases ho with ho | ho
  · simp only [ho, DisconnectAt.step, hthr, ReadThread.joinable, Option.map_some,
      Threads.after] at hstep
    cases hstep
    exact .stay (.waiting hu hk hm hl hp (.inr rfl)) rfl
  · simp only [ho, DisconnectAt.step, if_pos hthr] at hstep
    cases hstep

theorem stopped_owner {last : Option ReaderRecv} (hu : c.Up) (hk : c.Kept)
    (hv : ∀ r ∈ last, r.Valid) (hl : Leaving t.impl t.readLoop (c.stopped last).silent)
    (ho : t.owner.Joining) (hstep : t.ownerStep = some t') :
    Answered (.alive c) t.returned t' := by
  unfold Threads.ownerStep at hstep
  generalize howner : t.owner = o at ho hstep
  cases ho with
  | clearRunning =>
    simp only [DisconnectAt.step, Option.map_some, Threads.after] at hstep
    cases hstep
    exact .stay (.stopped hu hk hv (hl.stop (c.stopped_running last)) (.inl .testJoinable)) rfl
  | testJoinable =>
    have hjoin : t.impl.readThread.joinable = true := by
      by_cases hthr : t.impl.readThread = .running
      · rw [hthr]
        rfl
      · rw [(hl.of_ended hthr).1, Impl.silent_readThread, c.stopped_readThread last]
        rfl
    simp only [DisconnectAt.step, hjoin, if_true, Option.map_some, Threads.after] at hstep
    cases hstep
    exact .stay (.stopped hu hk hv hl (.inl .join)) rfl
  | join =>
    simp only [DisconnectAt.step] at hstep
    split at hstep
    · cases hstep
    · next hthr =>
      obtain ⟨hm, hplace⟩ := hl.of_ended hthr
      simp only [Option.map_some, Threads.after] at hstep
      cases hstep
      exact .stay (.joined hu hk hv (by rw [hm]) hplace (.inl rfl)) rfl

/-- After `join` the socket is closed already. -/
theorem joined_owner {last : Option ReaderRecv} (hu : c.Up) (hk : c.Kept)
    (hv : ∀ r ∈ last, r.Valid) (hm : t.impl = { (c.stopped last).silent with readThread := .none })
    (hl : t.readLoop = .test)
    (ho : t.owner = .disconnect .testSocket ∨ t.owner = .disconnect .setDisconnected)
    (hstep : t.ownerStep = some t') : Answered (.alive c) t.returned t' := by
  unfold Threads.ownerStep at hstep
  rcases ho with ho | ho
  · have hnone : t.impl.sockfd = none := by
      rw [hm]
      exact c.stopped_sockfd last
    simp only [ho, DisconnectAt.step, if_pos hnone, Option.map_some, Threads.after] at hstep
    cases hstep
    exact .stay (.joined hu hk hv hm hl (.inr rfl)) rfl
  · simp only [ho, DisconnectAt.step, Option.map_some, Threads.after] at hstep
    cases hstep
    have heq := Impl.disconnect_of_up_eq hu last
    obtain ⟨-, hd, hk'⟩ := Impl.disconnect_of_up hu hk last
    have hevent : tcp.step (.alive c) (.disconnect last) =
        some (.alive (c.disconnect last).2) := if_pos hv
    have hsame : (c.disconnect last).2.silent = { t.impl with status := .disconnected } := by
      rw [heq, hm]
      rfl
    have hthr : { t.impl with status := .disconnected }.readThread ≠ .running := by
      rw [hm]
      simp
    refine .event hevent (.down hd (by decide) hk' (.ended hthr hl hsame.symm) ?_ ?_ .idle) ?_
    · rw [heq]
    · rw [hl]
      exact hthr
    · simp [answer, heq]

/-- The reader reported the remote side's end between the two comparisons of `disconnect`. -/
theorem stopped_testError {last : Option ReaderRecv} (hu : c.Up) (hk : c.Kept)
    (hv : ∀ r ∈ last, r.Valid) (hl : Leaving t.impl t.readLoop (c.stopped last).silent)
    (ho : t.owner = .disconnect .testError) (hst : t.impl.status = .disconnected)
    (hstep : t.ownerStep = some t') : Answered (.alive c) t.returned t' := by
  have hne : t.impl.status ≠ .error := by simp [hst]
  unfold Threads.ownerStep at hstep
  simp only [ho, DisconnectAt.step, Option.map_some, if_neg hne, Threads.after] at hstep
  cases hstep
  exact .stay (.stopped hu hk hv hl (.inl .clearRunning)) rfl

end Sim

end Spectrum.Transport.Network
