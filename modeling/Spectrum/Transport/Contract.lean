import Spectrum.Transport.Network.Lifecycle
import Spectrum.Transport.Serial.Serial

/-! What `connect()` and `disconnect()` are for (`transport/interface/i_transport.h`), as a machine
on the status alone, and how far the TCP transport and the three serial ones implement it. -/
namespace Spectrum.Transport
open Foundation

namespace Contract

/-- The result, and the status after the call. -/
def connect (status : TransportStatus) (succeeds : Bool) : Bool × TransportStatus :=
  if status = .connected then (true, .connected)
  else if succeeds then (true, .connected)
  else (false, .error)

/-- A transport that is told to disconnect is disconnected, whatever it was before. -/
def disconnect : Bool × TransportStatus := (true, .disconnected)

end Contract

namespace Serial

theorem Kind.connect_contract (k : Kind) (s : Impl) (env : PortEnv) :
    ((k.connect s env).1, (k.connect s env).2.status) =
      Contract.connect s.status env.succeeds := by
  obtain ⟨openPort, tcgetattr, tcsetattr⟩ := env
  rw [k.connect_eq]
  unfold Impl.connect Contract.connect
  by_cases hs : s.status = .connected
  · rw [if_pos hs, if_pos hs, hs]
  · rw [if_neg hs, if_neg hs]
    cases openPort <;> cases tcgetattr <;> cases tcsetattr <;> rfl

theorem Kind.disconnect_contract (k : Kind) (s : Impl) :
    ((k.disconnect s).1, (k.disconnect s).2.status) = Contract.disconnect := by
  rw [k.disconnect_eq]
  cases h : s.fd <;> simp [Impl.disconnect, h, Contract.disconnect]

end Serial

namespace Network

/-- The reader runs, or there is none: the loop has not ended by itself. -/
def Impl.Settled (s : Impl) : Prop := ∃ ph, InPhase ph (.alive s) ∧ ph.Clean

theorem Impl.settled_new (config : TCPConfig) : (new config).Settled :=
  ⟨.idle, inPhase_new config, .inl rfl⟩

theorem Impl.Settled.connect_contract {s : Impl} (hs : s.Settled) (env : ConnectEnv) :
    ∃ t, s.connect env = .ok ((Contract.connect s.status env.succeeds).1, t) ∧
      t.status = (Contract.connect s.status env.succeeds).2 ∧ t.Settled := by
  obtain ⟨ph, hphase, hclean⟩ := hs
  unfold Contract.connect
  rcases hclean with rfl | rfl
  · obtain ⟨hd, hk⟩ := hphase
    rw [if_neg hd.not_connected]
    cases he : env.succeeds with
    | false =>
      obtain ⟨t, ht, herror, hdown, hkept⟩ := connect_fails hd hk he
      exact ⟨t, ht, herror, .idle, ⟨hdown, hkept⟩, .inl rfl⟩
    | true =>
      obtain ⟨t, ht, hup, hkept⟩ := connect_succeeds hd hk he
      exact ⟨t, ht, hup.status, .up, ⟨hup, hkept⟩, .inr rfl⟩
  · obtain ⟨hup, hkept⟩ := hphase
    rw [if_pos hup.status]
    exact ⟨s, connect_of_up hup env, hup.status, .up, ⟨hup, hkept⟩, .inr rfl⟩

/-- `disconnect` implements the contract, but for the status `Error`, which it leaves as it is. -/
theorem Impl.Settled.disconnect_contract {s : Impl} (hs : s.Settled) (last : Option ReaderRecv) :
    (s.disconnect last).1 = true ∧ (s.disconnect last).2.Settled ∧
      (s.disconnect last).2.status = if s.status = .error then .error else .disconnected := by
  obtain ⟨ph, hphase, hclean⟩ := hs
  rcases hclean with rfl | rfl
  · obtain ⟨hd, hk⟩ := hphase
    rw [disconnect_of_down hd]
    refine ⟨rfl, ⟨.idle, ⟨hd, hk⟩, .inl rfl⟩, ?_⟩
    rcases hd.status with hst | hst <;> simp [hst]
  · obtain ⟨hup, hkept⟩ := hphase
    obtain ⟨htrue, hd, hk⟩ := disconnect_of_up hup hkept last
    refine ⟨htrue, ⟨.idle, ⟨hd, hk⟩, .inl rfl⟩, ?_⟩
    simp [disconnect, hup.status]

end Network

open Network Serial

/-- A `connect()` that is to succeed or fail on every transport alike, with the results of the
system calls that make it so. -/
structure Attempt where
  succeeds : Bool
  tcp : ConnectEnv
  port : Kind → PortEnv
  tcp_succeeds : tcp.succeeds = succeeds
  port_succeeds : ∀ k, (port k).succeeds = succeeds

/-- A call made on all four transports. `last` is what the TCP reader still receives while it is
waited for. -/
inductive Call
  | connect (a : Attempt)
  | disconnect (last : Option ReaderRecv)

/-- What a call returned, and the status after it. -/
structure Observation where
  call : Call
  tcp : Bool × TransportStatus
  serial : Kind → Bool × TransportStatus

/-- All four transports show the same, and a `disconnect()` that returned true disconnected. -/
def Observation.Uniform (o : Observation) : Prop :=
  (∀ k, o.serial k = o.tcp) ∧
    ∀ last, o.call = .disconnect last → o.tcp.1 = true → o.tcp.2 = .disconnected

structure Transports where
  tcp : Network.Impl
  serial : Kind → Serial.Impl
  seen : List Observation

namespace Transports

def start (config : TCPConfig) (device : Kind → String) (baudRate : Kind → BaudRate) : Transports :=
  ⟨.new config, fun k => .new (device k) (baudRate k), []⟩

/-- One call on each of the transports; `none` when the process aborts. -/
def step (s : Transports) : Call → Option Transports
  | .connect a =>
    match s.tcp.connect a.tcp with
    | .ok (result, tcp) =>
      let serial := fun k : Kind => k.connect (s.serial k) (a.port k)
      some ⟨tcp, fun k => (serial k).2, s.seen ++
        [⟨.connect a, (result, tcp.status), fun k => ((serial k).1, (serial k).2.status)⟩]⟩
    | .error .terminate => none
  | .disconnect last =>
    let (result, tcp) := s.tcp.disconnect last
    let serial := fun k : Kind => k.disconnect (s.serial k)
    some ⟨tcp, fun k => (serial k).2, s.seen ++
      [⟨.disconnect last, (result, tcp.status), fun k => ((serial k).1, (serial k).2.status)⟩]⟩

end Transports

def transports : System Transports Call := ⟨Transports.step⟩

namespace Transports

/-- Everything seen so far was uniform. -/
def Uniform (s : Transports) : Prop := ∀ o ∈ s.seen, o.Uniform

/-- No `disconnect()` is called while the TCP transport is in status `Error`. -/
def Careful (s : Transports) (c : Call) : Prop :=
  ∀ last, c = .disconnect last → s.tcp.status ≠ .error

/-- `t` is `s` after a call that showed `o`, with the TCP transport still settled. -/
structure Shows (s t : Transports) (o : Observation) : Prop where
  settled : t.tcp.Settled
  seen : t.seen = s.seen ++ [o]
  tcp : t.tcp.status = o.tcp.2
  serial : ∀ k, (t.serial k).status = (o.serial k).2

theorem step_connect {s t : Transports} (hs : s.tcp.Settled) {a : Attempt}
    (h : s.step (.connect a) = some t) :
    ∃ o, s.Shows t o ∧ o.call = .connect a ∧
      o.tcp = Contract.connect s.tcp.status a.succeeds ∧
      ∀ k, o.serial k = Contract.connect (s.serial k).status a.succeeds := by
  obtain ⟨u, hu, hstatus, hsettled⟩ := hs.connect_contract a.tcp
  rw [a.tcp_succeeds] at hu hstatus
  simp only [step, hu] at h
  have hsame := Option.some.inj h
  subst hsame
  refine ⟨_, ⟨hsettled, rfl, rfl, fun k => rfl⟩, rfl, ?_, ?_⟩
  · exact Prod.ext rfl hstatus
  · intro k
    rw [← a.port_succeeds k]
    exact k.connect_contract (s.serial k) (a.port k)

theorem step_disconnect {s t : Transports} (hs : s.tcp.Settled) {last : Option ReaderRecv}
    (h : s.step (.disconnect last) = some t) :
    ∃ o, s.Shows t o ∧ o.call = .disconnect last ∧
      o.tcp = (true, if s.tcp.status = .error then .error else .disconnected) ∧
      ∀ k, o.serial k = Contract.disconnect := by
  obtain ⟨htrue, hsettled, hstatus⟩ := hs.disconnect_contract last
  have hsame := Option.some.inj h
  subst hsame
  refine ⟨_, ⟨hsettled, rfl, rfl, fun k => rfl⟩, rfl, ?_, ?_⟩
  · exact Prod.ext htrue hstatus
  · exact fun k => k.disconnect_contract (s.serial k)

theorem step_shows {s t : Transports} (hs : s.tcp.Settled) {c : Call} (h : s.step c = some t) :
    ∃ o, s.Shows t o := by
  cases c with
  | connect a =>
    obtain ⟨o, hshows, -⟩ := step_connect hs h
    exact ⟨o, hshows⟩
  | disconnect last =>
    obtain ⟨o, hshows, -⟩ := step_disconnect hs h
    exact ⟨o, hshows⟩

theorem step_total {s : Transports} (hs : s.tcp.Settled) (c : Call) : ∃ t, s.step c = some t := by
  cases c with
  | connect a =>
    obtain ⟨u, hu, -⟩ := hs.connect_contract a.tcp
    simp only [step, hu]
    exact ⟨_, rfl⟩
  | disconnect last => exact ⟨_, rfl⟩

/-- The four transports are in the same status, and have shown the same after every call. -/
structure Together (s : Transports) : Prop where
  settled : s.tcp.Settled
  status : ∀ k, (s.serial k).status = s.tcp.status
  uniform : s.Uniform

theorem together_start (config : TCPConfig) (device : Kind → String) (baudRate : Kind → BaudRate) :
    (start config device baudRate).Together :=
  ⟨Network.Impl.settled_new config, fun _ => rfl, by simp [Uniform, start]⟩

theorem Together.shows {s t : Transports} {o : Observation} (hs : s.Together) (h : s.Shows t o)
    (ho : o.Uniform) : t.Together := by
  refine ⟨h.settled, ?_, ?_⟩
  · intro k
    rw [h.serial, h.tcp, ho.1 k]
  · intro o' ho'
    rw [h.seen] at ho'
    rcases List.mem_append.mp ho' with hold | hnew
    · exact hs.uniform o' hold
    · rw [List.mem_singleton.mp hnew]
      exact ho

theorem Together.step {s t : Transports} {c : Call} (hs : s.Together) (hc : s.Careful c)
    (h : s.step c = some t) : t.Together := by
  cases c with
  | connect a =>
    obtain ⟨o, hshows, hcall, htcp, hserial⟩ := step_connect hs.settled h
    refine hs.shows hshows ⟨?_, ?_⟩
    · intro k
      rw [hserial k, htcp, hs.status k]
    · intro last hlast
      rw [hcall] at hlast
      cases hlast
  | disconnect last =>
    obtain ⟨o, hshows, -, htcp, hserial⟩ := step_disconnect hs.settled h
    rw [if_neg (hc last rfl)] at htcp
    refine hs.shows hshows ⟨?_, ?_⟩
    · intro k
      rw [hserial k, htcp]
      rfl
    · intro _ _ _
      rw [htcp]

theorem Shows.not_uniform {s t : Transports} {o : Observation} (h : s.Shows t o)
    (ho : ¬ s.Uniform ∨ ¬ o.Uniform) : ¬ t.Uniform := by
  intro hall
  rw [Uniform, h.seen, List.forall_mem_append] at hall
  rcases ho with hold | hnew
  · exact hold hall.1
  · exact hnew (hall.2 o (List.mem_singleton_self o))

theorem not_uniform_step {s t : Transports} {c : Call} (hs : s.tcp.Settled) (hu : ¬ s.Uniform)
    (h : s.step c = some t) : t.tcp.Settled ∧ ¬ t.Uniform := by
  obtain ⟨o, hshows⟩ := step_shows hs h
  exact ⟨hshows.settled, hshows.not_uniform (.inl hu)⟩

/-- A `disconnect()` in status `Error` leaves the TCP transport there, and no other one. -/
theorem careless_step {s t : Transports} {c : Call} (hs : s.tcp.Settled) (hc : ¬ s.Careful c)
    (h : s.step c = some t) : t.tcp.Settled ∧ ¬ t.Uniform := by
  obtain ⟨last, hlast, herror⟩ : ∃ last, c = .disconnect last ∧ s.tcp.status = .error := by
    by_contra hnone
    exact hc fun last hlast herror => hnone ⟨last, hlast, herror⟩
  subst hlast
  obtain ⟨o, hshows, hcall, htcp, -⟩ := step_disconnect hs h
  rw [if_pos herror] at htcp
  refine ⟨hshows.settled, hshows.not_uniform (.inr ?_)⟩
  intro ho
  have hdisconnected := ho.2 last hcall (by rw [htcp])
  rw [htcp] at hdisconnected
  cases hdisconnected

/-- No sequence of calls aborts. The four transports return the same, report the same status after
every call, and are disconnected after every `disconnect()`, exactly when no `disconnect()` is
called while the TCP transport is in status `Error`. -/
theorem uniform_iff (config : TCPConfig) (device : Kind → String) (baudRate : Kind → BaudRate)
    (calls : List Call) :
    ∃ t, transports.run (start config device baudRate) calls = some t ∧
      (t.Uniform ↔ transports.Along Careful (start config device baudRate) calls) := by
  have hstart := together_start config device baudRate
  have htotal (s : Transports) (c : Call) (hs : s.tcp.Settled) :
      ∃ t, transports.step s c = some t ∧ t.tcp.Settled := by
    obtain ⟨t, ht⟩ := step_total hs c
    obtain ⟨o, hshows⟩ := step_shows hs ht
    exact ⟨t, ht, hshows.settled⟩
  obtain ⟨t, hrun⟩ := transports.run_total (I := fun s => s.tcp.Settled) htotal hstart.settled calls
  refine ⟨t, hrun, System.run_property_iff (I := Together)
    (B := fun s => s.tcp.Settled ∧ ¬ s.Uniform) (Q := Uniform) ?good ?bad ?stay
    (fun s hs => hs.uniform) (fun s hs => hs.2) hstart hrun⟩
  case good =>
    intro s c u hs hc hstep
    exact hs.step hc hstep
  case bad =>
    intro s c u hs hc hstep
    exact careless_step hs.settled hc hstep
  case stay =>
    intro s c u hs hstep
    exact not_uniform_step hs.1 hs.2 hstep

/-- After a refused connection, `disconnect()` leaves three transports disconnected and the TCP
transport in status `Error`. -/
theorem not_uniform_after_failure :
    let failing : Attempt := ⟨false, ⟨true, true, false⟩, fun _ => ⟨false, none, true⟩, rfl,
      fun _ => rfl⟩
    ∃ t, transports.run (start ⟨"192.168.0.10", 5000⟩ (fun _ => "/dev/ttyS0") (fun _ => .br9600))
        [.connect failing, .disconnect none] = some t ∧
      t.tcp.status = .error ∧ (∀ k, (t.serial k).status = .disconnected) ∧ ¬ t.Uniform := by
  intro failing
  refine ⟨_, rfl, rfl, fun k => by cases k <;> rfl, ?_⟩
  intro hall
  have huniform := hall _ (List.mem_append_right _ (List.mem_singleton_self _))
  have hsame := huniform.1 .serialTransport
  exact absurd hsame (by decide)

end Transports

end Spectrum.Transport
