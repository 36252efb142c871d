import Spectrum.Transport.Network.Lifecycle
import Spectrum.Transport.Network.Threads

/-! What holds where a thread stands: on the way out of `read_loop`, whatever the owner does, and
inside a `connect` that no `read_loop` runs next to. -/
namespace Spectrum.Transport.Network
open Foundation

namespace Impl

/-- Without what was logged. -/
def silent (s : Impl) : Impl := { s with log := [] }

@[simp] theorem silent_status (s : Impl) : s.silent.status = s.status := rfl
@[simp] theorem silent_sockfd (s : Impl) : s.silent.sockfd = s.sockfd := rfl
@[simp] theorem silent_running (s : Impl) : s.silent.running = s.running := rfl
@[simp] theorem silent_readThread (s : Impl) : s.silent.readThread = s.readThread := rfl
@[simp] theorem silent_receiveCallback (s : Impl) :
    s.silent.receiveCallback = s.receiveCallback := rfl

theorem silent_readLoopExit (s : Impl) : s.readLoopExit.silent = s.silent.readLoopExit := by
  cases h : s.sockfd <;> simp [readLoopExit, closeSocket, silent, h]

@[simp] theorem readLoopExit_running (s : Impl) : s.readLoopExit.running = false := by
  simp [readLoopExit]

@[simp] theorem readLoopExit_sockfd (s : Impl) : s.readLoopExit.sockfd = none := by
  simp [readLoopExit]

@[simp] theorem readLoopExit_readThread (s : Impl) : s.readLoopExit.readThread = .finished := rfl

theorem readLoopExit_status (s : Impl) :
    s.readLoopExit.status = if s.status = .error then .error else .disconnected := by
  have hclosed : { s with running := false }.closeSocket.status = s.status :=
    closeSocket_status _
  unfold readLoopExit
  split <;> simp_all

/-- The fields that the way out of `read_loop` does not look at. -/
def aside (s : Impl) (callback : Bool) (wire : List (ℕ × List UInt8)) : Impl :=
  { s with receiveCallback := callback, wire := wire }

theorem readLoopExit_aside (s : Impl) (callback : Bool) (wire : List (ℕ × List UInt8)) :
    (s.aside callback wire).readLoopExit = s.readLoopExit.aside callback wire := by
  obtain ⟨-, sockfd, -, -, -, -, -, -, -, -⟩ := s
  cases sockfd <;> rfl

/-- `::socket` has given out a descriptor that is nowhere yet. -/
def acquires (s : Impl) : Impl := { s with fds := s.fds.acquire }

theorem readLoopExit_acquires (s : Impl) : s.acquires.readLoopExit = s.readLoopExit.acquires := by
  obtain ⟨-, sockfd, -, -, -, -, -, -, -, -⟩ := s
  cases sockfd <;> rfl

theorem readLoopExit_of_closed {s : Impl} (hrun : s.running = false) (hnone : s.sockfd = none) :
    s.readLoopExit = { s with
      status := if s.status ≠ .error then .disconnected else s.status
      readThread := .finished } := by
  simp only [readLoopExit, closeSocket, hnone]
  rw [← hrun, ← hnone]

end Impl

namespace ReaderAt

/-- What `read_loop` relies on where it stands on its way out. -/
def Asserts (s : Impl) : ReaderAt → Prop
  | .loadSocket | .recv _ | .receiving | .testCallback _ | .call _ => False
  | .report _ | .clearRunning => True
  | .test | .callback | .testSocket => s.running = false
  | .loadClose => s.running = false ∧ s.sockfd ≠ none
  | .close fd => s.running = false ∧ s.sockfd ≠ none ∧ fd = s.sockfd
  | .clearSocket => s.running = false ∧ ∃ fd ∈ s.sockfd, fd ∈ s.fds.closes
  | .testStatus => s.running = false ∧ s.sockfd = none
  | .setDisconnected => s.running = false ∧ s.sockfd = none ∧ s.status ≠ .error
  | .done => s.running = false ∧ s.sockfd = none ∧ (s.status ≠ .error → s.status = .disconnected)

/-- What is left when `read_loop` has gone the rest of its way out alone. -/
def finish (s : Impl) : ReaderAt → Impl
  | .report status => { s with status := status }.readLoopExit
  | .clearSocket => { s with sockfd := none }.readLoopExit
  | _ => s.readLoopExit

/-- `read_loop` has left its loop and reported why, if a `::recv` was the reason. -/
def Past (s : Impl) : ReaderAt → Prop
  | .report _ | .callback => False
  | .test => s.readThread ≠ .running
  | _ => True

end ReaderAt

/-- `read_loop` is on its way out or has gone it, and `u` is what it leaves. -/
inductive Leaving (s : Impl) (p : ReaderAt) (u : Impl) : Prop
  | exiting (thread : s.readThread = .running) (here : p.Asserts s) (left : p.finish s = u)
  | ended (thread : s.readThread ≠ .running) (place : p = .test) (left : s = u)

namespace Leaving

variable {s u s' : Impl} {p p' : ReaderAt}

/-- Each step of `read_loop` on its way out leads to the same end. -/
theorem step (h : Leaving s p u) (hthr : s.readThread = .running)
    (hstep : p.step s = some (s', p')) : Leaving s' p' u := by
  rcases h with ⟨-, here, left⟩ | ⟨hended, -, -⟩
  · cases p with
    | loadSocket | recv | receiving | testCallback | call => exact here.elim
    | test =>
      have hrun : s.running = false := here
      simp only [ReaderAt.step, hrun] at hstep
      cases hstep
      exact .exiting hthr trivial left
    | callback | report =>
      cases hstep
      exact .exiting hthr here left
    | clearRunning =>
      cases hstep
      exact .exiting hthr rfl left
    | testSocket =>
      have hrun : s.running = false := here
      simp only [ReaderAt.step] at hstep
      cases hstep
      split
      · next hnone => exact .exiting hthr ⟨hrun, hnone⟩ left
      · next hsome => exact .exiting hthr ⟨hrun, hsome⟩ left
    | loadClose =>
      cases hstep
      exact .exiting hthr ⟨here.1, here.2, rfl⟩ left
    | close fd =>
      obtain ⟨hrun, hsome, rfl⟩ := here
      obtain ⟨fd, hfd⟩ := Option.ne_none_iff_exists'.mp hsome
      simp only [ReaderAt.step, hfd, Impl.closes] at hstep
      cases hstep
      refine .exiting hthr ⟨hrun, fd, rfl, List.mem_cons_self⟩ ?_
      rw [← left]
      simp only [ReaderAt.finish, Impl.readLoopExit, Impl.closeSocket, hfd]
      rfl
    | clearSocket =>
      cases hstep
      exact .exiting hthr ⟨here.1, rfl⟩ left
    | testStatus =>
      obtain ⟨hrun, hnone⟩ := here
      simp only [ReaderAt.step] at hstep
      cases hstep
      split
      · next herr => exact .exiting hthr ⟨hrun, hnone, fun hne => absurd herr hne⟩ left
      · next hne => exact .exiting hthr ⟨hrun, hnone, hne⟩ left
    | setDisconnected =>
      obtain ⟨hrun, hnone, hne⟩ := here
      cases hstep
      refine .exiting hthr ⟨hrun, hnone, fun _ => rfl⟩ ?_
      rw [← left]
      show { s with status := .disconnected }.readLoopExit = s.readLoopExit
      rw [Impl.readLoopExit_of_closed (s := s) hrun hnone, if_pos hne]
      exact Impl.readLoopExit_of_closed (s := { s with status := .disconnected }) hrun hnone
    | done =>
      obtain ⟨hrun, hnone, hst⟩ := here
      cases hstep
      refine .ended (by simp) rfl ?_
      rw [← left]
      show _ = s.readLoopExit
      rw [Impl.readLoopExit_of_closed hrun hnone]
      by_cases herr : s.status = .error
      · rw [if_neg (not_not.mpr herr)]
      · rw [if_pos herr, ← hst herr]
  · exact absurd hthr hended

theorem step_past (h : Leaving s p u) (hthr : s.readThread = .running) (hp : p.Past s)
    (hstep : p.step s = some (s', p')) : p'.Past s' := by
  rcases h with ⟨-, here, -⟩ | ⟨hended, -, -⟩
  · cases p with
    | loadSocket | recv | receiving | testCallback | call => exact here.elim
    | callback | report => exact hp.elim
    | test => exact absurd hthr hp
    | testSocket =>
      simp only [ReaderAt.step] at hstep
      cases hstep
      split <;> trivial
    | testStatus =>
      simp only [ReaderAt.step] at hstep
      cases hstep
      split <;> trivial
    | done =>
      cases hstep
      simp [ReaderAt.Past]
    | clearRunning | loadClose | close | clearSocket | setDisconnected =>
      cases hstep
      trivial
  · exact absurd hthr hended

/-- The status has its last value as soon as the end was reported. -/
theorem step_status (h : Leaving s p u) (hthr : s.readThread = .running) (hp : p.Past s)
    (hst : s.status = u.status) (hstep : p.step s = some (s', p')) :
    s'.status = u.status := by
  rcases h with ⟨-, here, left⟩ | ⟨hended, -, -⟩
  · cases p with
    | loadSocket | recv | receiving | testCallback | call => exact here.elim
    | callback | report => exact hp.elim
    | close fd =>
      obtain ⟨-, hsome, rfl⟩ := here
      obtain ⟨fd, hfd⟩ := Option.ne_none_iff_exists'.mp hsome
      simp only [ReaderAt.step, hfd, Impl.closes] at hstep
      cases hstep
      exact hst
    | setDisconnected =>
      obtain ⟨hrun, hnone, hne⟩ := here
      cases hstep
      rw [← left]
      show _ = s.readLoopExit.status
      rw [Impl.readLoopExit_of_closed hrun hnone, if_pos hne]
    | test | clearRunning | testSocket | loadClose | clearSocket | testStatus | done =>
      cases hstep
      exact hst
  · exact absurd hthr hended

theorem of_ended (h : Leaving s p u) (hthr : s.readThread ≠ .running) : s = u ∧ p = .test := by
  rcases h with ⟨hrunning, -, -⟩ | ⟨-, place, left⟩
  · exact absurd hrunning hthr
  · exact ⟨left, place⟩

theorem not_receiving (h : Leaving s p u) : p ≠ .receiving ∨ s.readThread ≠ .running := by
  rcases h with ⟨-, here, -⟩ | ⟨hended, -, -⟩
  · left
    intro hp
    rw [hp] at here
    exact here
  · exact .inr hended

/-- The owner may clear `running_` meanwhile. -/
theorem stop (h : Leaving s p u) (hu : u.running = false) :
    Leaving { s with running := false } p u := by
  rcases h with ⟨hthr, here, left⟩ | ⟨hended, place, left⟩
  · refine .exiting hthr ?_ ?_
    · cases p with
      | loadSocket | recv | receiving | testCallback | call => exact here
      | report | clearRunning => trivial
      | test | callback | testSocket => rfl
      | loadClose | close | clearSocket | testStatus | setDisconnected | done =>
        exact ⟨rfl, here.2⟩
    · rw [← left]
      cases p <;> rfl
  · refine .ended hended place ?_
    rw [← left] at hu ⊢
    rw [← hu]

/-- The owner may do what the way out does not look at. -/
theorem beside (h : Leaving s p u) {f : Impl → Impl}
    (hexit : ∀ v, (f v).readLoopExit = f v.readLoopExit)
    (hstatus : ∀ v status, { f v with status := status } = f { v with status := status })
    (hclear : ∀ v, { f v with sockfd := none } = f { v with sockfd := none })
    (hthread : (f s).readThread = s.readThread) (hrun : (f s).running = s.running)
    (hsock : (f s).sockfd = s.sockfd) (hst : (f s).status = s.status)
    (hcloses : (f s).fds.closes = s.fds.closes) : Leaving (f s) p (f u) := by
  rcases h with ⟨hthr, here, left⟩ | ⟨hended, place, left⟩
  · refine .exiting (hthread.trans hthr) ?_ ?_
    · cases p <;> simp only [ReaderAt.Asserts, hrun, hsock, hst, hcloses] at here ⊢ <;> exact here
    · rw [← left]
      cases p with
      | report status =>
        show { f s with status := status }.readLoopExit = _
        rw [hstatus, hexit]
        rfl
      | clearSocket =>
        show { f s with sockfd := none }.readLoopExit = _
        rw [hclear, hexit]
        rfl
      | _ => exact hexit s
  · exact .ended (hthread ▸ hended) place (congrArg f left)

theorem aside (h : Leaving s p u) (callback : Bool) (wire : List (ℕ × List UInt8)) :
    Leaving (s.aside callback wire) p (u.aside callback wire) :=
  h.beside (f := fun v => v.aside callback wire) (fun v => v.readLoopExit_aside callback wire)
    (fun _ _ => rfl) (fun _ => rfl) rfl rfl rfl rfl rfl

theorem acquires (h : Leaving s p u) : Leaving s.acquires p u.acquires :=
  h.beside Impl.readLoopExit_acquires (fun _ _ => rfl) (fun _ => rfl) rfl rfl rfl rfl rfl

/-- What the way out does not touch is as it was before. -/
theorem keeps {β : Type} (h : Leaving s p u) {g : Impl → β}
    (hexit : ∀ v : Impl, g v.readLoopExit = g v)
    (hstatus : ∀ v status, g { v with status := status } = g v)
    (hclear : ∀ v, g { v with sockfd := none } = g v) : g s = g u := by
  rcases h with ⟨-, -, left⟩ | ⟨-, -, left⟩
  · rw [← left]
    cases p with
    | report status => exact ((hexit _).trans (hstatus s status)).symm
    | clearSocket => exact ((hexit _).trans (hclear s)).symm
    | _ => exact (hexit s).symm
  · rw [left]

theorem kept (h : Leaving s p u) : s.receiveCallback = u.receiveCallback ∧ s.wire = u.wire := by
  have hexit (v : Impl) : v.readLoopExit.receiveCallback = v.receiveCallback ∧
      v.readLoopExit.wire = v.wire := by
    cases hfd : v.sockfd <;> simp [Impl.readLoopExit, Impl.closeSocket, hfd]
  constructor
  · exact h.keeps (fun v => (hexit v).1) (fun _ _ => rfl) fun _ => rfl
  · exact h.keeps (fun v => (hexit v).2) (fun _ _ => rfl) fun _ => rfl

theorem opened_eq (h : Leaving s p u) : s.fds.opened = u.fds.opened := by
  have hexit (v : Impl) : v.readLoopExit.fds.opened = v.fds.opened := by
    cases hfd : v.sockfd <;> simp [Impl.readLoopExit, Impl.closeSocket, Ledger.close, hfd]
  exact h.keeps (g := fun v => v.fds.opened) hexit (fun _ _ => rfl) fun _ => rfl

theorem step_sockfd (hstep : p.step s = some (s', p')) :
    s'.sockfd = s.sockfd ∨ s'.sockfd = none := by
  cases p with
  | receiving => cases hstep
  | clearSocket =>
    cases hstep
    exact .inr rfl
  | close fd =>
    cases hstep
    left
    cases fd <;> rfl
  | test | loadSocket | recv | testCallback | call | callback | report | clearRunning | testSocket
    | loadClose | testStatus | setDisconnected | done =>
    cases hstep
    exact .inl rfl

end Leaving

namespace Impl

/-- The socket of an attempt, before anything is done with it. -/
def opening (s : Impl) : Impl := { s.acquires with sockfd := some s.fds.opened }

theorem connect_failed {c : Impl} {t : ReadThread} (hd : c.Down t) {env : ConnectEnv}
    (he : env.succeeds = false) : ∃ u, c.connect env = .ok (false, u) ∧
      u.silent = { (if env.socket then c.silent.opening.closeSocket else c.silent) with
        status := .error } := by
  have hnone := hd.sockfd
  obtain ⟨sock, pton, conn⟩ := env
  unfold connect
  rw [if_neg hd.not_connected]
  cases sock with
  | false => exact ⟨_, rfl, by simp [silent, logCode, ← hnone]⟩
  | true =>
    cases pton with
    | false => exact ⟨_, rfl, rfl⟩
    | true =>
      have hsame : conn = false := he
      subst hsame
      exact ⟨_, rfl, rfl⟩

/-- What an attempt that gets through does is to start the reader, if it can. -/
theorem connect_succeeded {c : Impl} {t : ReadThread} (hd : c.Down t) {env : ConnectEnv}
    (he : env.succeeds = true) : c.connect env =
      if t.joinable then .error .terminate
      else .ok (true, { c.opening with
        status := .connected, running := true, readThread := .running }) := by
  have henv := ConnectEnv.eq_of_succeeds he
  subst henv
  unfold connect
  rw [if_neg hd.not_connected, ← hd.thread]
  rfl

theorem opening_serves {c : Impl} (hk : c.Kept) : c.silent.opening.Serves (some c.fds.opened) := by
  refine ⟨c.fds.opened, rfl, Nat.lt_succ_self _, fun hclosed => ?_⟩
  exact Nat.lt_irrefl _ (hk.1.closes_lt _ hclosed)

end Impl

/-- What `connect` has done where it stands, from a transport `c` at rest, with no reader running. -/
def ConnectAt.Reached (env : ConnectEnv) (c m : Impl) : ConnectAt → Prop
  | .testStatus | .socket => m = c.silent
  | .setSocket fd => m = (if env.socket then c.silent.acquires else c.silent) ∧
      fd = if env.socket then some c.fds.opened else none
  | .testSocket => m = if env.socket then c.silent.opening else c.silent
  | .inetPton => env.socket = true ∧ m = c.silent.opening
  | .setConnecting => env.socket = true ∧ env.inetPton = true ∧ m = c.silent.opening
  | .loadSocket | .connecting => env.socket = true ∧ env.inetPton = true ∧
      m = { c.silent.opening with status := .connecting }
  | .connect fd => env.socket = true ∧ env.inetPton = true ∧
      m = { c.silent.opening with status := .connecting } ∧ fd = some c.fds.opened
  | .setConnected => env.succeeds = true ∧ m = { c.silent.opening with status := .connecting }
  | .setRunning => env.succeeds = true ∧ m = { c.silent.opening with status := .connected }
  | .startReader => env.succeeds = true ∧
      m = { c.silent.opening with status := .connected, running := true }
  | .loadClose => env.succeeds = false ∧ env.socket = true ∧
      ∃ status, m = { c.silent.opening with status := status }
  | .close fd => env.succeeds = false ∧ env.socket = true ∧ fd = some c.fds.opened ∧
      ∃ status, m = { c.silent.opening with status := status }
  | .clearSocket => env.succeeds = false ∧ env.socket = true ∧
      ∃ status, m = { c.silent.opening.closes (some c.fds.opened) with status := status }
  | .setError => env.succeeds = false ∧ { m with status := .error } =
      { (if env.socket then c.silent.opening.closeSocket else c.silent) with status := .error }

namespace ConnectAt

variable {c m m' : Impl} {t : ReadThread} {env : ConnectEnv} {p p' : ConnectAt}

theorem step_reached (hd : c.Down t) (hk : c.Kept) (h : p.Reached env c m)
    (hstep : p.step env m = (m', .goto p')) : p'.Reached env c m' := by
  cases p with
  | testStatus =>
    cases h
    have hne : c.silent.status ≠ .connected := hd.not_connected
    simp only [step, if_neg hne] at hstep
    cases hstep
    rfl
  | socket =>
    cases h
    simp only [step] at hstep
    split at hstep
    · next hsock =>
      cases hstep
      simp [Reached, hsock, Impl.acquires, Impl.silent]
    · next hsock =>
      cases hstep
      simp [Reached, hsock]
  | setSocket fd =>
    obtain ⟨rfl, rfl⟩ := h
    cases hstep
    cases hsock : env.socket with
    | true => simp only [Reached, hsock, if_true]; rfl
    | false =>
      simp only [Reached, hsock, Bool.false_eq_true, if_false]
      simp [← hd.sockfd, Impl.silent]
  | testSocket =>
    cases hsock : env.socket with
    | true =>
      simp only [Reached, hsock, if_true] at h
      cases h
      cases hstep
      exact ⟨hsock, rfl⟩
    | false =>
      simp only [Reached, hsock, Bool.false_eq_true, if_false] at h
      cases h
      simp only [step, Impl.silent_sockfd, hd.sockfd, if_true] at hstep
      cases hstep
      simp [Reached, hsock, ConnectEnv.succeeds]
  | inetPton =>
    obtain ⟨hsock, rfl⟩ := h
    simp only [step] at hstep
    cases hstep
    split
    · next hpton => exact ⟨hsock, hpton, rfl⟩
    · next hpton =>
      refine ⟨?_, hsock, _, rfl⟩
      simp [ConnectEnv.succeeds, hpton]
  | setConnecting =>
    obtain ⟨hsock, hpton, rfl⟩ := h
    cases hstep
    exact ⟨hsock, hpton, rfl⟩
  | loadSocket =>
    obtain ⟨hsock, hpton, rfl⟩ := h
    cases hstep
    exact ⟨hsock, hpton, rfl, rfl⟩
  | connect fd =>
    obtain ⟨hsock, hpton, rfl, rfl⟩ := h
    simp only [step] at hstep
    cases hstep
    split
    · exact ⟨hsock, hpton, rfl⟩
    · next hserves => exact absurd (Impl.opening_serves hk) hserves
  | connecting =>
    obtain ⟨hsock, hpton, rfl⟩ := h
    simp only [step] at hstep
    cases hstep
    split
    · next hconn =>
      refine ⟨?_, rfl⟩
      simp [ConnectEnv.succeeds, hsock, hpton, hconn]
    · next hconn =>
      refine ⟨?_, hsock, _, rfl⟩
      simp [ConnectEnv.succeeds, hconn]
  | setConnected =>
    obtain ⟨hall, rfl⟩ := h
    cases hstep
    exact ⟨hall, rfl⟩
  | setRunning =>
    obtain ⟨hall, rfl⟩ := h
    cases hstep
    exact ⟨hall, rfl⟩
  | startReader =>
    simp only [step] at hstep
    split at hstep <;> cases hstep
  | loadClose =>
    obtain ⟨hfail, hsock, status, rfl⟩ := h
    cases hstep
    exact ⟨hfail, hsock, rfl, status, rfl⟩
  | close fd =>
    obtain ⟨hfail, hsock, rfl, status, rfl⟩ := h
    cases hstep
    exact ⟨hfail, hsock, status, rfl⟩
  | clearSocket =>
    obtain ⟨hfail, hsock, status, rfl⟩ := h
    cases hstep
    refine ⟨hfail, ?_⟩
    rw [if_pos hsock]
    rfl
  | setError => cases hstep

theorem readThread_eq (hd : c.Down t) (h : p.Reached env c m) : m.readThread = t := by
  rw [← hd.thread]
  cases p with
  | testStatus | socket =>
    cases h
    rfl
  | setSocket =>
    obtain ⟨rfl, -⟩ := h
    split <;> rfl
  | testSocket =>
    have hm := congrArg Impl.readThread h
    split at hm <;> exact hm
  | inetPton | setConnected | setRunning | startReader =>
    obtain ⟨-, rfl⟩ := h
    rfl
  | setConnecting | loadSocket | connecting =>
    obtain ⟨-, -, rfl⟩ := h
    rfl
  | connect =>
    obtain ⟨-, -, rfl, -⟩ := h
    rfl
  | loadClose | clearSocket =>
    obtain ⟨-, -, status, rfl⟩ := h
    rfl
  | close =>
    obtain ⟨-, -, -, status, rfl⟩ := h
    rfl
  | setError =>
    have hm := congrArg Impl.readThread h.2
    split at hm <;> exact hm

/-- The call returns what `connect` returns when nothing happens in between. -/
theorem step_returns (hd : c.Down t) (h : p.Reached env c m) {ok : Bool}
    (hstep : p.step env m = (m', .returns ok)) :
    ∃ u, c.connect env = .ok (ok, u) ∧ u.silent = m' := by
  cases p with
  | testStatus =>
    cases h
    have hne : c.silent.status ≠ .connected := hd.not_connected
    simp only [step, if_neg hne] at hstep
    cases hstep
  | startReader =>
    obtain ⟨hall, rfl⟩ := h
    have hthr : c.silent.opening.readThread = t := hd.thread
    simp only [step, hthr] at hstep
    split at hstep
    · cases hstep
    · next hjoin =>
      cases hstep
      rw [Impl.connect_succeeded hd hall, if_neg hjoin]
      exact ⟨_, rfl, rfl⟩
  | setError =>
    obtain ⟨hfail, hm⟩ := h
    cases hstep
    obtain ⟨u, hu, hsilent⟩ := Impl.connect_failed hd hfail
    exact ⟨u, hu, hsilent.trans hm.symm⟩
  | socket =>
    simp only [step] at hstep
    split at hstep <;> cases hstep
  | setSocket | testSocket | inetPton | setConnecting | loadSocket | connect | connecting
    | setConnected | setRunning | loadClose | close | clearSocket => cases hstep

theorem step_aborts (hd : c.Down t) (h : p.Reached env c m)
    (hstep : p.step env m = (m', .aborts)) : c.connect env = .error .terminate := by
  cases p with
  | startReader =>
    obtain ⟨hall, rfl⟩ := h
    have hthr : c.silent.opening.readThread = t := hd.thread
    simp only [step, hthr] at hstep
    split at hstep
    · next hjoin => rw [Impl.connect_succeeded hd hall, if_pos hjoin]
    · cases hstep
  | testStatus =>
    simp only [step] at hstep
    split at hstep <;> cases hstep
  | socket =>
    simp only [step] at hstep
    split at hstep <;> cases hstep
  | setSocket | testSocket | inetPton | setConnecting | loadSocket | connect | connecting
    | setConnected | setRunning | loadClose | close | clearSocket | setError => cases hstep

end ConnectAt

end Spectrum.Transport.Network
