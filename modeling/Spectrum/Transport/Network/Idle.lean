import Spectrum.Transport.Network.Lifecycle
import Mathlib.Data.Set.List

/-! A link on which nothing goes wrong: the peer never closes and no `::recv` fails, but the
receive timeout of `connect()` may expire. The reader's loop takes the expired timeout for an
error. -/
namespace Spectrum.Transport.Network
open Foundation

/-- What may happen on such a link until `disconnect()` is called. -/
def Event.Undisturbed : Event → Prop
  | .disconnect _ => False
  | .readLoop .closed => False
  | .readLoop .error => False
  | _ => True

/-- `get_status()` is `Connected` and the socket is open. -/
def Process.Online : Process → Prop
  | .alive s => s.status = .connected ∧ ∃ fd, s.sockfd = some fd ∧ s.fds.IsOpen fd
  | .terminated => False

theorem online_of_up {p : Process} (hp : InPhase .up p) : p.Online := by
  cases p with
  | terminated => exact hp.elim
  | alive s =>
    have hstatus : s.status = .connected := hp.1.status
    obtain ⟨-, hsockfd, -⟩ := hp.connection
    exact ⟨hstatus, hsockfd.mp hstatus⟩

theorem not_online_of_doomed {ph : Phase} {p : Process} (hp : InPhase ph p) (hph : ph.Doomed) :
    ¬ p.Online := by
  cases p with
  | terminated => exact id
  | alive s =>
    intro h
    rcases hph with rfl | rfl
    · exact hp.1.not_connected h.1
    · exact hp.elim

theorem inPhase_up_of_connect {ph : Phase} {s t : Impl} {env : ConnectEnv}
    (hs : InPhase ph (.alive s)) (hconnect : s.connect env = .ok (true, t)) :
    InPhase .up (.alive t) := by
  have hstep : step (.alive s) (.connect env) = some (.alive t) := by
    simp only [step, hconnect]
  have hnext := step_inPhase hs hstep
  have hfailed {r : ReadThread} (hd : s.Down r) (hk : s.Kept) (he : env.succeeds = false) :
      False := by
    obtain ⟨u, hu, -⟩ := Impl.connect_fails hd hk he
    rw [hu] at hconnect
    cases hconnect
  cases ph with
  | idle =>
    by_cases he : env.succeeds = true
    · change InPhase (if env.succeeds then .up else .idle) (.alive t) at hnext
      rwa [if_pos he] at hnext
    · exact (hfailed hs.1 hs.2 (by simpa using he)).elim
  | up => exact hnext
  | stale =>
    by_cases he : env.succeeds = true
    · rw [Impl.connect_terminates hs.1 he] at hconnect
      cases hconnect
    · exact (hfailed hs.1 hs.2 (by simpa using he)).elim
  | dead => exact hs.elim

theorem Phase.next_up {e : Event} (he : e.Undisturbed) (ht : e ≠ .readLoop .timeout) :
    Phase.up.next e = .up := by
  cases e with
  | disconnect => exact he.elim
  | readLoop r =>
    cases r with
    | data => rfl
    | closed => exact he.elim
    | timeout => exact absurd rfl ht
    | error => exact he.elim
  | connect | send | subscribe => rfl

/-- After any `connect()` that returned true, an undisturbed link is up for exactly as long as no
`::recv` of the reader has waited for longer than the receive timeout. -/
theorem online_iff (config : TCPConfig) (before : List Event) (s : Impl)
    (hbefore : tcp.run (.alive (.new config)) before = some (.alive s)) (env : ConnectEnv)
    (t : Impl) (hconnect : s.connect env = .ok (true, t)) (es : List Event)
    (hes : ∀ e ∈ es, e.Undisturbed) (p : Process) (hrun : tcp.run (.alive t) es = some p) :
    p.Online ↔ ∀ e ∈ es, e ≠ .readLoop .timeout := by
  have hup : InPhase .up (.alive t) :=
    inPhase_up_of_connect (run_inPhase (inPhase_new config) hbefore) hconnect
  lift es to List {e // Event.Undisturbed e} using hes
  rw [← System.run_restrict] at hrun
  rw [List.forall_mem_map, ← System.along_event_iff hrun]
  refine System.run_property_iff (I := InPhase .up)
    (B := fun p => ∃ ph, InPhase ph p ∧ ph.Doomed) (Q := Process.Online)
    ?good ?bad ?stay (fun p hp => online_of_up hp) ?lost hup hrun
  case good =>
    intro p e q hp he hstep
    rw [← Phase.next_up e.property he]
    exact step_inPhase hp hstep
  case bad =>
    intro p e q hp he hstep
    have hnext := step_inPhase hp hstep
    rw [not_not.mp he] at hnext
    exact ⟨.stale, hnext, .inl rfl⟩
  case stay =>
    intro p e q h hstep
    exact doomed_step h hstep
  case lost =>
    intro p h
    obtain ⟨ph, hp, hph⟩ := h
    exact not_online_of_doomed hp hph

/-- One expired timeout, with nothing wrong on the link, closes the socket. -/
theorem not_online_timeout :
    ¬ ∀ (config : TCPConfig) (before : List Event) (s : Impl),
      tcp.run (.alive (.new config)) before = some (.alive s) → ∀ (env : ConnectEnv) (t : Impl),
      s.connect env = .ok (true, t) → ∀ es : List Event, (∀ e ∈ es, e.Undisturbed) →
      ∀ p, tcp.run (.alive t) es = some p → p.Online := by
  intro hall
  have honline := hall ⟨"192.168.0.10", 5000⟩ [] _ rfl ⟨true, true, true⟩ _ rfl
    [.readLoop .timeout] (by simp [Event.Undisturbed]) _ rfl
  exact absurd honline.1 (by decide)

theorem online_iff_data :
    let p : Process := .alive (.online ⟨"192.168.0.10", 5000⟩)
    p.Online ↔ ∀ e ∈ [Event.readLoop (.data [0x02]), .connect ⟨false, true, true⟩,
      .readLoop (.data [0x03, 0x02])], e ≠ .readLoop .timeout :=
  online_iff ⟨"192.168.0.10", 5000⟩ [] _ rfl ⟨true, true, true⟩ _ rfl
    [.readLoop (.data [0x02]), .connect ⟨false, true, true⟩, .readLoop (.data [0x03, 0x02])]
    (by simp [Event.Undisturbed]) _ rfl

end Spectrum.Transport.Network
