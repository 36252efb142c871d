import Spectrum.Foundation.Run
import Spectrum.Transport.Serial.Serial

/-! The descriptors of a serial transport over whole runs. A `connect` that fails after
`::open` keeps its descriptor, and only `disconnect` gives it back. -/
namespace Spectrum.Transport.Serial
open Foundation

inductive Event
  | connect (env : PortEnv)
  | disconnect
  | send (data : List UInt8) (bytesWritten : ℤ)
  deriving DecidableEq, Repr

def step (k : Kind) (s : Impl) : Event → Option Impl
  | .connect env => some (k.connect s env).2
  | .disconnect => some (k.disconnect s).2
  | .send data bytesWritten => some (k.send s data bytesWritten).2

def serial (k : Kind) : System Impl Event := ⟨step k⟩

namespace Impl

/-- `fd_` as the owner of a descriptor. -/
def slot (s : Impl) : Slot := ⟨s.fds, s.fd⟩

theorem connect_cases (codes : Codes) (s : Impl) (env : PortEnv) :
    (s.status = .connected ∧ (s.connect codes env).2 = s) ∨
    (s.status ≠ .connected ∧ (s.connect codes env).2.slot = s.slot.forget) ∨
    (s.status ≠ .connected ∧ (s.connect codes env).2.slot = s.slot.acquire) := by
  obtain ⟨openPort, tcgetattr, tcsetattr⟩ := env
  by_cases hs : s.status = .connected
  · exact .inl ⟨hs, by simp [connect, hs]⟩
  · right
    cases openPort with
    | false => exact .inl ⟨hs, by simp [connect, hs, slot, Slot.forget, logCode]⟩
    | true =>
      right
      cases tcgetattr <;> cases tcsetattr <;>
        exact ⟨hs, by simp [connect, hs, slot, Slot.acquire, logCode]⟩

theorem disconnect_slot (s : Impl) : s.disconnect.2.slot = s.slot.release := by
  cases h : s.fd <;> simp [disconnect, slot, Slot.release, h]

theorem send_slot (codes : Codes) (s : Impl) (data : List UInt8) (bytesWritten : ℤ) :
    (s.send codes data bytesWritten).2.slot = s.slot := by
  unfold send
  split
  · split <;> rfl
  · rfl

/-- Every descriptor obtained was closed exactly once. -/
def AllClosed (s : Impl) : Prop := ∀ fd < s.fds.opened, s.fds.ClosedOnce fd

theorem destroy_allClosed {s : Impl} (hs : s.slot.Sound) (hl : ¬ s.slot.Lost) :
    s.destroy.AllClosed := by
  have hslot : s.destroy.slot = s.slot.release := s.disconnect_slot
  have hnone : s.destroy.slot.held = none := hslot ▸ Slot.release_held _
  intro fd hfd
  rcases (hslot ▸ hs.release : s.destroy.slot.Sound).accounts
    (hslot ▸ Slot.not_lost_release hl) hfd with ⟨hheld, -⟩ | ⟨-, hclosed⟩
  · rw [hnone] at hheld
    cases hheld
  · exact hclosed

theorem not_destroy_allClosed {s : Impl} (hl : s.slot.Lost) : ¬ s.destroy.AllClosed := by
  have hlost : s.destroy.slot.Lost := s.disconnect_slot ▸ hl.release
  obtain ⟨fd, hopen, -⟩ := hlost
  exact fun hall => hopen.not_closedOnce (hall fd hopen.1)

/-- No `connect` is made with a descriptor of an earlier one still in `fd_`. -/
def Careful (s : Impl) (e : Event) : Prop :=
  ∀ env, e = .connect env → s.status = .connected ∨ s.fd = none

theorem step_cases {k : Kind} {s t : Impl} {e : Event} (h : step k s e = some t) :
    (∃ env, e = .connect env ∧ t = (s.connect k.codes env).2) ∨
      (e = .disconnect ∧ t = s.disconnect.2) ∨
      ∃ data bytesWritten, e = .send data bytesWritten ∧
        t = (s.send k.codes data bytesWritten).2 := by
  cases e with
  | connect env =>
    rw [step, k.connect_eq] at h
    exact .inl ⟨env, rfl, (Option.some.inj h).symm⟩
  | disconnect =>
    rw [step, k.disconnect_eq] at h
    exact .inr (.inl ⟨rfl, (Option.some.inj h).symm⟩)
  | send data bytesWritten =>
    rw [step, k.send_eq] at h
    exact .inr (.inr ⟨data, bytesWritten, rfl, (Option.some.inj h).symm⟩)

theorem step_slot {k : Kind} {s t : Impl} {e : Event} (h : step k s e = some t) :
    t.slot = s.slot ∨ t.slot = s.slot.release ∨
      (∃ env, e = .connect env ∧ s.status ≠ .connected ∧
        (t.slot = s.slot.forget ∨ t.slot = s.slot.acquire)) := by
  rcases step_cases h with ⟨env, rfl, rfl⟩ | ⟨rfl, rfl⟩ | ⟨data, bytesWritten, rfl, rfl⟩
  · rcases s.connect_cases k.codes env with ⟨-, heq⟩ | ⟨hs, hslot⟩ | ⟨hs, hslot⟩
    · exact .inl (congrArg slot heq)
    · exact .inr (.inr ⟨env, rfl, hs, .inl hslot⟩)
    · exact .inr (.inr ⟨env, rfl, hs, .inr hslot⟩)
  · exact .inr (.inl s.disconnect_slot)
  · exact .inl (send_slot _ _ _ _)

theorem careful_step {k : Kind} {s t : Impl} {e : Event} (hs : s.slot.Sound)
    (hl : ¬ s.slot.Lost) (he : s.Careful e) (h : step k s e = some t) :
    t.slot.Sound ∧ ¬ t.slot.Lost := by
  rcases step_slot h with hslot | hslot | ⟨env, rfl, hconn, hslot⟩
  · rw [hslot]
    exact ⟨hs, hl⟩
  · rw [hslot]
    exact ⟨hs.release, Slot.not_lost_release hl⟩
  · have hfree : s.slot.held = none := (he env rfl).resolve_left hconn
    rcases hslot with hslot | hslot
    · rw [hslot]
      exact ⟨hs.forget, Slot.not_lost_forget hfree hl⟩
    · rw [hslot]
      exact ⟨hs.acquire, Slot.not_lost_acquire hfree hl⟩

/-- Whether the new `::open` succeeds or not, it overwrites the only copy of the descriptor. -/
theorem careless_step {k : Kind} {s t : Impl} {e : Event} (hs : s.slot.Sound)
    (he : ¬ s.Careful e) (h : step k s e = some t) : t.slot.Lost := by
  obtain ⟨env, rfl, hnot⟩ : ∃ env, e = .connect env ∧ ¬ (s.status = .connected ∨ s.fd = none) := by
    simpa only [Careful, not_forall, exists_prop] using he
  rw [not_or] at hnot
  obtain ⟨fd, hfd⟩ := Option.ne_none_iff_exists'.mp hnot.2
  have hsame := Option.some.inj h
  subst hsame
  rw [k.connect_eq]
  rcases s.connect_cases k.codes env with ⟨hconn, -⟩ | ⟨-, hslot⟩ | ⟨-, hslot⟩
  · exact absurd hconn hnot.1
  · rw [hslot]
    exact hs.lost_forget hfd
  · rw [hslot]
    exact hs.lost_acquire hfd

theorem lost_step {k : Kind} {s t : Impl} {e : Event} (hl : s.slot.Lost)
    (h : step k s e = some t) : t.slot.Lost := by
  rcases step_slot h with hslot | hslot | ⟨-, -, -, hslot | hslot⟩ <;> rw [hslot]
  · exact hl
  · exact hl.release
  · exact hl.forget
  · exact hl.acquire

theorem new_slot (device : String) (baudRate : BaudRate) :
    (new device baudRate).slot = Slot.empty := rfl

end Impl

/-- No descriptor leaks in a run exactly when none of its `connect`s is made with a descriptor
of an earlier, half-failed one still in `fd_`. -/
theorem no_leak_iff (k : Kind) (device : String) (baudRate : BaudRate) (es : List Event)
    (t : Impl) (hrun : (serial k).run (.new device baudRate) es = some t) :
    ((∀ pre, pre <+: es → ∀ m, (serial k).run (.new device baudRate) pre = some m →
        m.fds.live.length ≤ 1) ∧ t.destroy.AllClosed) ↔
      (serial k).Along Impl.Careful (.new device baudRate) es := by
  have hstart : (Impl.new device baudRate).slot.Sound ∧ ¬ (Impl.new device baudRate).slot.Lost := by
    rw [Impl.new_slot]
    exact ⟨.empty, Slot.not_lost_empty⟩
  have hclosed : t.destroy.AllClosed ↔
      (serial k).Along Impl.Careful (.new device baudRate) es := by
    refine System.run_property_iff (I := fun s => s.slot.Sound ∧ ¬ s.slot.Lost)
      (B := fun s => s.slot.Lost) (Q := fun s => s.destroy.AllClosed) ?careful ?careless
      (fun s e m hs hstep => Impl.lost_step hs hstep) (fun s hs => Impl.destroy_allClosed hs.1 hs.2)
      (fun s hs => Impl.not_destroy_allClosed hs) hstart hrun
    case careful =>
      intro s e m hs he hstep
      exact Impl.careful_step hs.1 hs.2 he hstep
    case careless =>
      intro s e m hs he hstep
      exact Impl.careless_step hs.1 he hstep
  rw [← hclosed]
  refine ⟨And.right, fun hall => ⟨?_, hall⟩⟩
  intro pre hpre m hm
  obtain ⟨suf, rfl⟩ := hpre
  have halong : (serial k).Along Impl.Careful (.new device baudRate) pre :=
    (hclosed.mp hall).of_append
  have hkept : m.slot.Sound ∧ ¬ m.slot.Lost :=
    halong.invariant (I := fun s => s.slot.Sound ∧ ¬ s.slot.Lost)
      (fun s e n hs he hstep => Impl.careful_step hs.1 hs.2 he hstep) hstart hm
  exact Slot.live_length_le_one hkept.2

theorem no_leak_reconnect :
    let tty : Termios := ⟨.b9600, .b9600, false, false, false, false, .cs7⟩
    ∃ t, (serial .rs232Transport).run (.new "/dev/ttyS0" .br115200)
        [.connect ⟨true, none, true⟩, .disconnect, .connect ⟨true, some tty, true⟩] = some t ∧
      t.destroy.AllClosed := by
  intro tty
  have hcareful : (serial .rs232Transport).Along Impl.Careful (.new "/dev/ttyS0" .br115200)
      [.connect ⟨true, none, true⟩, .disconnect, .connect ⟨true, some tty, true⟩] := by
    refine System.along_cons ?_ rfl (System.along_cons ?_ rfl (System.along_cons ?_ rfl trivial))
    · exact fun env he => .inr rfl
    · exact fun env he => by cases he
    · exact fun env he => .inr rfl
  exact ⟨_, rfl, ((no_leak_iff _ _ _ _ _ rfl).mpr hcareful).2⟩

/-- A retry after a failed `tcgetattr` has two descriptors open, and the first stays open after
the destructor. -/
theorem leak_retry :
    let tty : Termios := ⟨.b9600, .b9600, false, false, false, false, .cs7⟩
    ∃ t, (serial .rs232Transport).run (.new "/dev/ttyS0" .br9600)
        [.connect ⟨true, none, true⟩, .connect ⟨true, some tty, true⟩] = some t ∧
      t.fds.live = [0, 1] ∧ t.destroy.fds.live = [0] ∧ ¬ t.destroy.AllClosed := by
  refine ⟨_, rfl, rfl, rfl, fun hall => ?_⟩
  have hclosed := hall 0 (by decide)
  exact absurd hclosed (by decide)

end Spectrum.Transport.Serial
