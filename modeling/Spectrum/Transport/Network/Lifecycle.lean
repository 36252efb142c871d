import Spectrum.Foundation.Run
import Spectrum.Transport.Network.Tcp

/-! Runs of a TCP transport: its owner's calls interleaved with the turns of the reader's loop.
The runs follow a four-phase automaton, from which the invariant of the connection and the
exact condition for a run without `std::terminate` are read off. -/
namespace Spectrum.Transport.Network
open Foundation

/-- All three system calls of the attempt succeed. -/
def ConnectEnv.succeeds (env : ConnectEnv) : Bool := env.socket && env.inetPton && env.connect

theorem ConnectEnv.eq_of_succeeds {env : ConnectEnv} (he : env.succeeds = true) :
    env = ⟨true, true, true⟩ := by
  obtain ⟨sock, pton, conn⟩ := env
  simpa [succeeds, and_assoc] using he

inductive Event
  | connect (env : ConnectEnv)
  | disconnect (last : Option ReaderRecv)
  | send (data : List UInt8) (results : List ℤ)
  | subscribe
  | readLoop (r : ReaderRecv)
  deriving DecidableEq, Repr

/-- The reader's loop ends by itself, not because a `disconnect()` waits for it. -/
def Event.endsLoop : Event → Bool
  | .readLoop (.data _) => false
  | .readLoop _ => true
  | _ => false

/-- The process that owns the transport, until `std::terminate`. -/
inductive Process
  | alive (s : Impl)
  | terminated
  deriving DecidableEq, Repr

/-- One completed call of the owner, or one turn of the reader's loop. -/
def step : Process → Event → Option Process
  | .terminated, _ => none
  | .alive s, .connect env =>
    match s.connect env with
    | .ok (_, t) => some (.alive t)
    | .error .terminate => some .terminated
  | .alive s, .disconnect last =>
    if ∀ r ∈ last, r.Valid then some (.alive (s.disconnect last).2) else none
  | .alive s, .send data results => (s.send data results).map fun (_, t) => .alive t
  | .alive s, .subscribe => some (.alive s.subscribe)
  | .alive s, .readLoop r =>
    if s.readThread = .running ∧ r.Valid then some (.alive (s.readLoop r)) else none

def tcp : System Process Event := ⟨step⟩

/-- The process reaches the end of the destructor. -/
def Survives : Process → Option ReaderRecv → Prop
  | .alive s, last => ∃ t, s.destroy last = .ok t
  | .terminated, _ => False

namespace Impl

/-- `sockfd_` as the owner of a descriptor. -/
def slot (s : Impl) : Slot := ⟨s.fds, s.sockfd⟩

/-- No descriptor is closed twice, and none is left open but the one in `sockfd_`. -/
def Kept (s : Impl) : Prop := s.slot.Sound ∧ ¬ s.slot.Lost

structure Up (s : Impl) : Prop where
  status : s.status = .connected
  sockfd : s.sockfd ≠ none
  running : s.running = true
  thread : s.readThread = .running

structure Down (t : ReadThread) (s : Impl) : Prop where
  status : s.status = .disconnected ∨ s.status = .error
  sockfd : s.sockfd = none
  running : s.running = false
  thread : s.readThread = t

theorem Down.not_connected {t : ReadThread} {s : Impl} (hd : s.Down t) :
    s.status ≠ .connected := by
  rcases hd.status with h | h <;> rw [h] <;> decide

theorem kept_new (config : TCPConfig) : (new config).Kept := ⟨.empty, Slot.not_lost_empty⟩

theorem down_new (config : TCPConfig) : (new config).Down .none := ⟨.inl rfl, rfl, rfl, rfl⟩

theorem online_up (config : TCPConfig) : (online config).Up := ⟨rfl, by simp [online], rfl, rfl⟩

@[simp] theorem closeSocket_slot (s : Impl) : s.closeSocket.slot = s.slot.release := by
  cases h : s.sockfd <;> simp [closeSocket, slot, Slot.release, h]

@[simp] theorem closeSocket_sockfd (s : Impl) : s.closeSocket.sockfd = none := by
  cases h : s.sockfd <;> simp [closeSocket, h]

@[simp] theorem closeSocket_status (s : Impl) : s.closeSocket.status = s.status := by
  cases h : s.sockfd <;> simp [closeSocket, h]

@[simp] theorem closeSocket_running (s : Impl) : s.closeSocket.running = s.running := by
  cases h : s.sockfd <;> simp [closeSocket, h]

@[simp] theorem closeSocket_readThread (s : Impl) :
    s.closeSocket.readThread = s.readThread := by
  cases h : s.sockfd <;> simp [closeSocket, h]

theorem Kept.release {s t : Impl} (hs : s.Kept) (ht : t.slot = s.slot.release) : t.Kept := by
  unfold Kept
  rw [ht]
  exact ⟨hs.1.release, Slot.not_lost_release hs.2⟩

theorem Kept.of_slot_eq {s t : Impl} (hs : s.Kept) (ht : t.slot = s.slot) : t.Kept := by
  unfold Kept
  rw [ht]
  exact hs

theorem Kept.acquire {s t : Impl} (hs : s.Kept) (hn : s.sockfd = none)
    (ht : t.slot = s.slot.acquire) : t.Kept := by
  unfold Kept
  rw [ht]
  exact ⟨hs.1.acquire, Slot.not_lost_acquire hn hs.2⟩

theorem connect_of_up {s : Impl} (hu : s.Up) (env : ConnectEnv) :
    s.connect env = .ok (true, s) := by
  unfold connect
  rw [if_pos hu.status]

theorem failed_attempt {s u : Impl} {t : ReadThread} (hk : s.Kept) (hn : s.sockfd = none)
    (hslot : u.slot = s.slot.acquire) (hrun : u.running = false) (hthr : u.readThread = t) :
    Down t { u.closeSocket with status := .error } ∧
      Kept { u.closeSocket with status := .error } := by
  have hu : u.Kept := hk.acquire hn hslot
  have hclosed : u.closeSocket.Kept := hu.release u.closeSocket_slot
  constructor
  · refine ⟨.inr rfl, u.closeSocket_sockfd, ?_, ?_⟩
    · change u.closeSocket.running = false
      rw [closeSocket_running, hrun]
    · change u.closeSocket.readThread = t
      rw [closeSocket_readThread, hthr]
  · exact hclosed.of_slot_eq rfl

/-- Each of the three failing exits of `connect` gives back the descriptor it took. -/
theorem connect_fails {s : Impl} {t : ReadThread} (hd : s.Down t) (hk : s.Kept)
    {env : ConnectEnv} (he : env.succeeds = false) :
    ∃ u, s.connect env = .ok (false, u) ∧ u.status = .error ∧ u.Down t ∧ u.Kept := by
  obtain ⟨sock, pton, conn⟩ := env
  unfold connect
  rw [if_neg hd.not_connected]
  cases sock with
  | false =>
    have hslot : s.slot = { s.logCode .tcpConnectionFailure with
        sockfd := none, status := .error }.slot := by
      simp [slot, logCode, hd.sockfd]
    exact ⟨_, rfl, rfl, ⟨.inr rfl, rfl, hd.running, hd.thread⟩, hk.of_slot_eq hslot.symm⟩
  | true =>
    cases pton with
    | false => exact ⟨_, rfl, rfl, failed_attempt hk hd.sockfd rfl hd.running hd.thread⟩
    | true =>
      have hsame : conn = false := he
      subst hsame
      exact ⟨_, rfl, rfl, failed_attempt hk hd.sockfd rfl hd.running hd.thread⟩

theorem connect_succeeds {s : Impl} (hd : s.Down .none) (hk : s.Kept) {env : ConnectEnv}
    (he : env.succeeds = true) : ∃ u, s.connect env = .ok (true, u) ∧ u.Up ∧ u.Kept := by
  have henv := ConnectEnv.eq_of_succeeds he
  subst henv
  unfold connect
  rw [if_neg hd.not_connected]
  simp only [Bool.not_true, Bool.false_eq_true, if_false, hd.thread, ReadThread.joinable]
  exact ⟨_, rfl, ⟨rfl, by simp, rfl, rfl⟩, hk.acquire hd.sockfd rfl⟩

/-- The reader of an earlier connection was never joined. -/
theorem connect_terminates {s : Impl} (hd : s.Down .finished) {env : ConnectEnv}
    (he : env.succeeds = true) : s.connect env = .error .terminate := by
  have henv := ConnectEnv.eq_of_succeeds he
  subst henv
  unfold connect
  rw [if_neg hd.not_connected]
  simp [hd.thread, ReadThread.joinable]

theorem readLoopExit_down (s : Impl) (hs : s.status ≠ .connecting) :
    s.readLoopExit.Down .finished := by
  refine ⟨?_, ?_, ?_, rfl⟩
  · cases h : s.status <;> simp_all [readLoopExit]
  · simp [readLoopExit]
  · simp [readLoopExit]

theorem readLoopExit_kept {s : Impl} (hk : s.Kept) : s.readLoopExit.Kept :=
  hk.release (closeSocket_slot { s with running := false })

theorem readLoop_data {s : Impl} (hu : s.Up) (hk : s.Kept) (bytes : List UInt8) :
    (s.readLoop (.data bytes)).Up ∧ (s.readLoop (.data bytes)).Kept := by
  cases h : s.receiveCallback <;> simp only [readLoop, h, if_true, if_false, hu.running,
    Bool.false_eq_true]
  · exact ⟨hu, hk⟩
  · exact ⟨⟨hu.status, hu.sockfd, rfl, hu.thread⟩, hk.of_slot_eq rfl⟩

theorem logged_exit {s : Impl} (hk : s.Kept) {st : TransportStatus} (hst : st ≠ .connecting) :
    ({ s.logCode .tcpReceiveError with status := st }.readLoopExit).Down .finished ∧
      ({ s.logCode .tcpReceiveError with status := st }.readLoopExit).Kept := by
  have hkept : Kept { s.logCode .tcpReceiveError with status := st } := hk.of_slot_eq rfl
  have hdown := readLoopExit_down { s.logCode .tcpReceiveError with status := st } hst
  exact ⟨hdown, readLoopExit_kept hkept⟩

theorem readLoop_ends {s : Impl} (hk : s.Kept) {r : ReaderRecv}
    (hr : (Event.readLoop r).endsLoop = true) :
    (s.readLoop r).Down .finished ∧ (s.readLoop r).Kept := by
  cases r with
  | data => cases hr
  | closed => exact logged_exit hk (by decide)
  | timeout => exact logged_exit hk (by decide)
  | error => exact logged_exit hk (by decide)

theorem readLoop_stopped {s : Impl} (hs : s.status = .connected) (hr : s.running = false)
    (hk : s.Kept) (r : ReaderRecv) :
    (s.readLoop r).Down .finished ∧ (s.readLoop r).Kept := by
  cases r with
  | data bytes =>
    cases h : s.receiveCallback <;> simp only [readLoop, h, if_true, if_false, hr,
      Bool.false_eq_true]
    · exact ⟨readLoopExit_down s (by simp [hs]), readLoopExit_kept hk⟩
    · exact ⟨readLoopExit_down _ (by simp [hs]), readLoopExit_kept (hk.of_slot_eq rfl)⟩
  | closed => exact readLoop_ends hk rfl
  | timeout => exact readLoop_ends hk rfl
  | error => exact readLoop_ends hk rfl

theorem disconnect_of_down {s : Impl} {t : ReadThread} (hd : s.Down t) (last : Option ReaderRecv) :
    s.disconnect last = (true, s) := by
  unfold disconnect
  rw [if_pos hd.status]

theorem disconnect_of_up {s : Impl} (hu : s.Up) (hk : s.Kept) (last : Option ReaderRecv) :
    (s.disconnect last).1 = true ∧ (s.disconnect last).2.Down .none ∧
      (s.disconnect last).2.Kept := by
  have hend : ∃ u : Impl, u.Down .finished ∧ u.Kept ∧
      { s with running := false }.join last = { u with readThread := .none } := by
    have hk' : { s with running := false }.Kept := hk.of_slot_eq rfl
    cases last with
    | none =>
      refine ⟨_, readLoopExit_down { s with running := false } ?_, readLoopExit_kept hk', ?_⟩
      · simp [hu.status]
      · simp [join, hu.thread]
    | some r =>
      obtain ⟨hd, hk''⟩ := readLoop_stopped (s := { s with running := false }) hu.status rfl hk' r
      exact ⟨_, hd, hk'', by simp [join, hu.thread]⟩
  obtain ⟨u, hd, hku, hjoin⟩ := hend
  have hclosed : { u with readThread := .none }.closeSocket = { u with readThread := .none } := by
    simp [closeSocket, hd.sockfd]
  have heq : s.disconnect last = (true,
      { ({ s with running := false }.join last).closeSocket with status := .disconnected }) := by
    simp [disconnect, hu.status, hu.thread, ReadThread.joinable]
  rw [heq, hjoin, hclosed]
  exact ⟨rfl, ⟨.inl rfl, hd.sockfd, hd.running, rfl⟩, hku.of_slot_eq rfl⟩

theorem send_frame {s t : Impl} {data : List UInt8} {results : List ℤ} {ok : Bool}
    (h : s.send data results = some (ok, t)) :
    t.status = s.status ∧ t.sockfd = s.sockfd ∧ t.running = s.running ∧
      t.readThread = s.readThread ∧ t.fds = s.fds := by
  unfold send at h
  split at h
  · obtain ⟨⟨ok', chunks⟩, -, heq⟩ := Option.map_eq_some_iff.mp h
    obtain ⟨rfl, rfl⟩ := Prod.mk.inj heq
    cases ok' <;> exact ⟨rfl, rfl, rfl, rfl, rfl⟩
  · obtain ⟨rfl, rfl⟩ := Prod.mk.inj (Option.some.inj h)
    exact ⟨rfl, rfl, rfl, rfl, rfl⟩

end Impl

/-- The phases of a transport: no reader, a running one, one that ended and was not joined,
and the process aborted. -/
inductive Phase
  | idle | up | stale | dead
  deriving DecidableEq, Repr

/-- The automaton of the phases. -/
def Phase.next : Phase → Event → Phase
  | .idle, .connect env => if env.succeeds then .up else .idle
  | .stale, .connect env => if env.succeeds then .dead else .stale
  | .up, .disconnect _ => .idle
  | .up, .readLoop r => if (Event.readLoop r).endsLoop then .stale else .up
  | ph, _ => ph

/-- What a phase says about the transport. -/
def InPhase : Phase → Process → Prop
  | .idle, .alive s => s.Down .none ∧ s.Kept
  | .up, .alive s => s.Up ∧ s.Kept
  | .stale, .alive s => s.Down .finished ∧ s.Kept
  | .dead, .terminated => True
  | _, _ => False

theorem inPhase_new (config : TCPConfig) : InPhase .idle (.alive (.new config)) :=
  ⟨Impl.down_new config, Impl.kept_new config⟩

/-- The phase depends on the connection, the reader and the descriptors only. -/
theorem InPhase.frame {ph : Phase} {s t : Impl} (hs : InPhase ph (.alive s))
    (hst : t.status = s.status) (hfd : t.sockfd = s.sockfd) (hrun : t.running = s.running)
    (hthr : t.readThread = s.readThread) (hfds : t.fds = s.fds) : InPhase ph (.alive t) := by
  have hslot : t.slot = s.slot := by simp [Impl.slot, hfd, hfds]
  have hdown {r : ReadThread} (h : s.Down r) : t.Down r :=
    ⟨hst ▸ h.status, hfd ▸ h.sockfd, hrun ▸ h.running, hthr ▸ h.thread⟩
  cases ph with
  | idle => exact ⟨hdown hs.1, hs.2.of_slot_eq hslot⟩
  | up =>
    obtain ⟨hu, hk⟩ := hs
    exact ⟨⟨hst ▸ hu.status, hfd ▸ hu.sockfd, hrun ▸ hu.running, hthr ▸ hu.thread⟩,
      hk.of_slot_eq hslot⟩
  | stale => exact ⟨hdown hs.1, hs.2.of_slot_eq hslot⟩
  | dead => exact hs.elim

theorem connect_inPhase {ph : Phase} {s : Impl} {q : Process} {env : ConnectEnv}
    (hs : InPhase ph (.alive s)) (hstep : step (.alive s) (.connect env) = some q) :
    InPhase (ph.next (.connect env)) q := by
  have hfails {t : ReadThread} (hd : s.Down t) (hk : s.Kept) (he : env.succeeds = false) :
      ∃ u, q = .alive u ∧ u.Down t ∧ u.Kept := by
    obtain ⟨u, hu, -, hd', hk'⟩ := Impl.connect_fails hd hk he
    exact ⟨u, by simpa [step, hu] using hstep.symm, hd', hk'⟩
  cases ph with
  | idle =>
    obtain ⟨hd, hk⟩ := hs
    change InPhase (if env.succeeds then .up else .idle) q
    split
    · next he =>
      obtain ⟨u, hu, hup, hk'⟩ := Impl.connect_succeeds hd hk he
      have hsame : .alive u = q := by simpa [step, hu] using hstep
      subst hsame
      exact ⟨hup, hk'⟩
    · next he =>
      obtain ⟨u, rfl, hd', hk'⟩ := hfails hd hk (by simpa using he)
      exact ⟨hd', hk'⟩
  | up =>
    have hsame : .alive s = q := by simpa [step, Impl.connect_of_up hs.1] using hstep
    subst hsame
    exact hs
  | stale =>
    obtain ⟨hd, hk⟩ := hs
    change InPhase (if env.succeeds then .dead else .stale) q
    split
    · next he =>
      have hsame : .terminated = q := by simpa [step, Impl.connect_terminates hd he] using hstep
      subst hsame
      trivial
    · next he =>
      obtain ⟨u, rfl, hd', hk'⟩ := hfails hd hk (by simpa using he)
      exact ⟨hd', hk'⟩
  | dead => exact hs.elim

theorem disconnect_inPhase {ph : Phase} {s : Impl} (hs : InPhase ph (.alive s))
    (last : Option ReaderRecv) :
    InPhase (ph.next (.disconnect last)) (.alive (s.disconnect last).2) := by
  cases ph with
  | idle =>
    rw [Impl.disconnect_of_down hs.1]
    exact hs
  | up => exact (Impl.disconnect_of_up hs.1 hs.2 last).2
  | stale =>
    rw [Impl.disconnect_of_down hs.1]
    exact hs
  | dead => exact hs.elim

theorem readLoop_inPhase {ph : Phase} {s : Impl} {r : ReaderRecv} (hs : InPhase ph (.alive s))
    (hthr : s.readThread = .running) :
    InPhase (ph.next (.readLoop r)) (.alive (s.readLoop r)) := by
  cases ph with
  | idle => exact absurd (hs.1.thread.symm.trans hthr) (by decide)
  | up =>
    change InPhase (if (Event.readLoop r).endsLoop then .stale else .up) _
    split
    · next he => exact Impl.readLoop_ends hs.2 he
    · next he =>
      obtain ⟨bytes, rfl⟩ : ∃ bytes, r = .data bytes := by
        cases r <;> first | exact ⟨_, rfl⟩ | exact absurd rfl he
      exact Impl.readLoop_data hs.1 hs.2 bytes
  | stale => exact absurd (hs.1.thread.symm.trans hthr) (by decide)
  | dead => exact hs.elim

/-- Every step of the transport is a step of the automaton. -/
theorem step_inPhase {ph : Phase} {p q : Process} {e : Event} (hp : InPhase ph p)
    (hstep : step p e = some q) : InPhase (ph.next e) q := by
  cases p with
  | terminated => cases hstep
  | alive s =>
    cases e with
    | connect env => exact connect_inPhase hp hstep
    | disconnect last =>
      simp only [step] at hstep
      split at hstep
      · exact Option.some.inj hstep ▸ disconnect_inPhase hp last
      · cases hstep
    | send data results =>
      obtain ⟨⟨ok, t⟩, ht, rfl⟩ := Option.map_eq_some_iff.mp hstep
      obtain ⟨hst, hfd, hrun, hthr, hfds⟩ := Impl.send_frame ht
      have hnext : ph.next (.send data results) = ph := by cases ph <;> rfl
      rw [hnext]
      exact hp.frame hst hfd hrun hthr hfds
    | subscribe =>
      have hsame := Option.some.inj hstep
      subst hsame
      have hnext : ph.next .subscribe = ph := by cases ph <;> rfl
      rw [hnext]
      exact hp.frame rfl rfl rfl rfl rfl
    | readLoop r =>
      simp only [step] at hstep
      split at hstep
      · next hen => exact Option.some.inj hstep ▸ readLoop_inPhase hp hen.1
      · cases hstep

theorem run_inPhase {ph : Phase} {p q : Process} {es : List Event} (hp : InPhase ph p)
    (hrun : tcp.run p es = some q) : InPhase (es.foldl Phase.next ph) q := by
  induction es generalizing ph p with
  | nil => exact Option.some.inj hrun ▸ hp
  | cons e es ih =>
    obtain ⟨m, hm, hrest⟩ := (tcp.run_cons_eq_some).mp hrun
    exact ih (step_inPhase hp hm) hrest

theorem InPhase.connection {ph : Phase} {s : Impl} (hs : InPhase ph (.alive s)) :
    s.status ≠ .connecting ∧
      (s.status = .connected ↔ ∃ fd, s.sockfd = some fd ∧ s.fds.IsOpen fd) ∧
      (s.status = .connected ↔ s.running = true) ∧ s.Kept := by
  have hdown {t : ReadThread} (hd : s.Down t) : s.status ≠ .connecting ∧
      (s.status = .connected ↔ ∃ fd, s.sockfd = some fd ∧ s.fds.IsOpen fd) ∧
      (s.status = .connected ↔ s.running = true) := by
    rcases hd.status with h | h <;> simp [h, hd.sockfd, hd.running]
  cases ph with
  | idle =>
    obtain ⟨hne, hfd, hrun⟩ := hdown hs.1
    exact ⟨hne, hfd, hrun, hs.2⟩
  | up =>
    obtain ⟨hu, hk⟩ := hs
    obtain ⟨fd, hfd⟩ := Option.ne_none_iff_exists'.mp hu.sockfd
    have hopen : s.fds.IsOpen fd := hk.1.held_open fd hfd
    exact ⟨by simp [hu.status], iff_of_true hu.status ⟨fd, hfd, hopen⟩,
      iff_of_true hu.status hu.running, hk⟩
  | stale =>
    obtain ⟨hne, hfd, hrun⟩ := hdown hs.1
    exact ⟨hne, hfd, hrun, hs.2⟩
  | dead => exact hs.elim

/-- After every completed call and every turn of the reader: the status is settled, it is
`Connected` exactly with an open socket and a set `running_`, and no descriptor is lost or
closed twice. -/
theorem connection_invariant (config : TCPConfig) {es : List Event} {s : Impl}
    (hrun : tcp.run (.alive (.new config)) es = some (.alive s)) :
    s.status ≠ .connecting ∧
      (s.status = .connected ↔ ∃ fd, s.sockfd = some fd ∧ s.fds.IsOpen fd) ∧
      (s.status = .connected ↔ s.running = true) ∧
      ∀ fd < s.fds.opened, (s.sockfd = some fd ∧ s.fds.IsOpen fd) ∨
        (s.sockfd ≠ some fd ∧ s.fds.ClosedOnce fd) := by
  have hphase := run_inPhase (inPhase_new config) hrun
  obtain ⟨hne, hfd, hrunning, hkept⟩ := hphase.connection
  refine ⟨hne, hfd, hrunning, fun fd hlt => ?_⟩
  exact hkept.1.accounts hkept.2 hlt

/-- A refused address, a connection, and its loss to the remote side. -/
theorem connection_invariant_lost :
    let s : Impl := { Impl.new ⟨"192.168.0.10", 5000⟩ with
      fds := ⟨2, [1, 0]⟩
      readThread := .finished
      log := [.tcpInvalidAddress, .tcpReceiveError] }
    tcp.run (.alive (.new ⟨"192.168.0.10", 5000⟩)) [.connect ⟨true, false, true⟩,
        .connect ⟨true, true, true⟩, .readLoop .closed] = some (.alive s) ∧
      s.status ≠ .connecting ∧
      (s.status = .connected ↔ ∃ fd, s.sockfd = some fd ∧ s.fds.IsOpen fd) ∧
      (s.status = .connected ↔ s.running = true) ∧
      ∀ fd < s.fds.opened, (s.sockfd = some fd ∧ s.fds.IsOpen fd) ∨
        (s.sockfd ≠ some fd ∧ s.fds.ClosedOnce fd) := by
  have hrun : tcp.run (.alive (.new ⟨"192.168.0.10", 5000⟩)) [.connect ⟨true, false, true⟩,
      .connect ⟨true, true, true⟩, .readLoop .closed] = some (.alive
        { Impl.new ⟨"192.168.0.10", 5000⟩ with
          fds := ⟨2, [1, 0]⟩
          readThread := .finished
          log := [.tcpInvalidAddress, .tcpReceiveError] }) := rfl
  exact ⟨hrun, connection_invariant _ hrun⟩

/-- No reader is left to join: the destructor completes. -/
def Phase.Clean (ph : Phase) : Prop := ph = .idle ∨ ph = .up

/-- A reader that nobody will ever join. -/
def Phase.Doomed (ph : Phase) : Prop := ph = .stale ∨ ph = .dead

theorem Phase.Clean.next {ph : Phase} (hph : ph.Clean) {e : Event} (he : e.endsLoop = false) :
    (ph.next e).Clean := by
  rcases hph with rfl | rfl
  · cases e with
    | connect env =>
      change (if env.succeeds then Phase.up else .idle).Clean
      split
      · exact .inr rfl
      · exact .inl rfl
    | disconnect | send | subscribe | readLoop => exact .inl rfl
  · cases e with
    | disconnect => exact .inl rfl
    | readLoop r =>
      change (if (Event.readLoop r).endsLoop then Phase.stale else .up).Clean
      rw [he]
      exact .inr rfl
    | connect | send | subscribe => exact .inr rfl

/-- `connect` and `disconnect` both leave an ended reader unjoined. -/
theorem Phase.Doomed.next {ph : Phase} (hph : ph.Doomed) (e : Event) : (ph.next e).Doomed := by
  rcases hph with rfl | rfl
  · cases e with
    | connect env =>
      change (if env.succeeds then Phase.dead else .stale).Doomed
      split
      · exact .inr rfl
      · exact .inl rfl
    | disconnect | send | subscribe | readLoop => exact .inl rfl
  · cases e <;> exact .inr rfl

theorem next_doomed {ph : Phase} {p q : Process} {e : Event} (hp : InPhase ph p)
    (hph : ph.Clean) (he : ¬ e.endsLoop = false) (hstep : step p e = some q) :
    (ph.next e).Doomed := by
  cases e with
  | readLoop r =>
    rcases hph with rfl | rfl
    · cases p with
      | terminated => exact hp.elim
      | alive s =>
        have hthr : s.readThread ≠ .running := by rw [hp.1.thread]; decide
        simp [step, hthr] at hstep
    · have hends : (Event.readLoop r).endsLoop = true := by simpa using he
      change (if (Event.readLoop r).endsLoop then Phase.stale else .up).Doomed
      rw [if_pos hends]
      exact .inl rfl
  | connect | disconnect | send | subscribe => exact absurd rfl he

theorem doomed_step {p q : Process} {e : Event} (h : ∃ ph, InPhase ph p ∧ ph.Doomed)
    (hstep : step p e = some q) : ∃ ph, InPhase ph q ∧ ph.Doomed := by
  obtain ⟨ph, hp, hph⟩ := h
  exact ⟨ph.next e, step_inPhase hp hstep, hph.next e⟩

theorem survives_of_clean {ph : Phase} {p : Process} (hp : InPhase ph p) (hph : ph.Clean)
    (last : Option ReaderRecv) : Survives p last := by
  cases p with
  | terminated => rcases hph with rfl | rfl <;> exact hp.elim
  | alive s =>
    rcases hph with rfl | rfl
    · have hdown := hp.1
      refine ⟨s, ?_⟩
      simp [Impl.destroy, Impl.disconnect_of_down hdown, hdown.thread, ReadThread.joinable]
    · obtain ⟨-, hdown, -⟩ := Impl.disconnect_of_up hp.1 hp.2 last
      refine ⟨(s.disconnect last).2, ?_⟩
      simp [Impl.destroy, hdown.thread, ReadThread.joinable]

theorem not_survives_of_doomed {ph : Phase} {p : Process} (hp : InPhase ph p) (hph : ph.Doomed)
    (last : Option ReaderRecv) : ¬ Survives p last := by
  cases p with
  | terminated => exact id
  | alive s =>
    rcases hph with rfl | rfl
    · have hdown := hp.1
      intro h
      obtain ⟨t, ht⟩ := h
      simp [Impl.destroy, Impl.disconnect_of_down hdown, hdown.thread, ReadThread.joinable] at ht
    · exact hp.elim

/-- A run and the destructor after it get through without `std::terminate` exactly when the
reader's loop never ended by itself. -/
theorem survives_iff (config : TCPConfig) {es : List Event} {p : Process}
    (last : Option ReaderRecv) (hrun : tcp.run (.alive (.new config)) es = some p) :
    Survives p last ↔ ∀ e ∈ es, e.endsLoop = false := by
  rw [← System.along_event_iff hrun]
  refine System.run_property_iff (I := fun p => ∃ ph, InPhase ph p ∧ ph.Clean)
    (B := fun p => ∃ ph, InPhase ph p ∧ ph.Doomed) (Q := fun p => Survives p last)
    ?good ?bad ?stay ?clean ?doomed ⟨.idle, inPhase_new config, .inl rfl⟩ hrun
  case good =>
    intro p e q h he hstep
    obtain ⟨ph, hp, hph⟩ := h
    exact ⟨ph.next e, step_inPhase hp hstep, hph.next he⟩
  case bad =>
    intro p e q h he hstep
    obtain ⟨ph, hp, hph⟩ := h
    exact ⟨ph.next e, step_inPhase hp hstep, next_doomed hp hph he hstep⟩
  case stay =>
    intro p e q h hstep
    exact doomed_step h hstep
  case clean =>
    intro p h
    obtain ⟨ph, hp, hph⟩ := h
    exact survives_of_clean hp hph last
  case doomed =>
    intro p h
    obtain ⟨ph, hp, hph⟩ := h
    exact not_survives_of_doomed hp hph last

/-- After a receive timeout, the destructor and a second `connect` both abort. -/
theorem not_survives_timeout :
    ¬ ∀ (config : TCPConfig) (es : List Event) (p : Process) (last : Option ReaderRecv),
      tcp.run (.alive (.new config)) es = some p → Survives p last := by
  intro hall
  have hdead := hall ⟨"192.168.0.10", 5000⟩ [.connect ⟨true, true, true⟩, .readLoop .timeout,
    .disconnect none, .connect ⟨true, true, true⟩] .terminated none rfl
  exact hdead

theorem survives_iff_reconnected :
    let s : Impl := { Impl.new ⟨"192.168.0.10", 5000⟩ with
      sockfd := some 1
      status := .connected
      running := true
      readThread := .running
      fds := ⟨2, [0]⟩ }
    Survives (.alive s) (some .timeout) ↔ ∀ e ∈ [Event.connect ⟨true, true, true⟩,
      .disconnect none, .connect ⟨true, true, true⟩], e.endsLoop = false :=
  survives_iff ⟨"192.168.0.10", 5000⟩ _ rfl

end Spectrum.Transport.Network
