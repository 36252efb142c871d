import Spectrum.Controller.ProtocolController
import Spectrum.Foundation.Fifo
import Spectrum.Foundation.Run

/-! The two readers of a connected socket: the background `read_loop` that `connect` starts,
and `receive` inside `sendCommand`. Each of their `::recv` calls is one turn. -/
namespace Spectrum.Controller
open Foundation Utils Transport.Network

inductive Reader
  | readLoop | receive
  deriving DecidableEq, Repr

/-- The transport, its socket, the buffer of the `receive` in progress, and what the
`receive` calls before it returned. -/
structure Shared where
  impl : Impl
  socket : Fifo Reader UInt8
  buffer : List UInt8
  returned : List (List UInt8)
  deriving DecidableEq, Repr

/-- The device writes, `read_loop` takes up to 1024 bytes, or `receive` takes one. -/
inductive Turn
  | device (bytes : List UInt8)
  | readLoop (received : ℕ)
  | receive
  deriving DecidableEq, Repr

def Turn.steals : Turn → Bool
  | .readLoop _ => true
  | _ => false

namespace Shared

def start (impl : Impl) : Shared := ⟨impl, .empty, [], []⟩

def step (s : Shared) : Turn → Option Shared
  | .device bytes => some { s with socket := s.socket.send bytes }
  | .readLoop received =>
    if s.impl.readThread = .running ∧ 0 < received ∧ received ≤ 1024 ∧
        received ≤ s.socket.queue.length then
      some { s with
        impl := s.impl.readLoop (.data (s.socket.queue.take received))
        socket := s.socket.take .readLoop received }
    else none
  | .receive =>
    match s.impl.sockfd, s.socket.queue with
    | some _, byte :: _ =>
      let s := { s with socket := s.socket.take .receive 1, buffer := s.buffer ++ [byte] }
      some (if byte = etx then { s with buffer := [], returned := s.returned ++ [s.buffer] } else s)
    | _, _ => none

/-- The bytes read by the `receive` calls, in order. -/
def received (s : Shared) : List UInt8 := s.returned.flatten ++ s.buffer

end Shared

def sharedSocket : System Shared Turn := ⟨Shared.step⟩

namespace Shared

theorem step_cases {s t : Shared} {e : Turn} (h : s.step e = some t) :
    (∃ bytes, e = .device bytes ∧ t = { s with socket := s.socket.send bytes }) ∨
    (∃ n, e = .readLoop n ∧ 0 < n ∧ s.socket.queue ≠ [] ∧ t = { s with
      impl := s.impl.readLoop (.data (s.socket.queue.take n))
      socket := s.socket.take .readLoop n }) ∨
    (e = .receive ∧ s.socket.queue ≠ [] ∧ t.impl = s.impl ∧
      t.socket = s.socket.take .receive 1 ∧ t.received = s.received ++ s.socket.queue.take 1) := by
  cases e with
  | device bytes => exact .inl ⟨bytes, rfl, (Option.some.inj h).symm⟩
  | readLoop n =>
    simp only [step] at h
    split at h
    · next hn =>
      obtain ⟨-, hpos, -, hle⟩ := hn
      have hne : s.socket.queue ≠ [] := List.length_pos_iff.mp (Nat.lt_of_lt_of_le hpos hle)
      exact .inr (.inl ⟨n, rfl, hpos, hne, (Option.some.inj h).symm⟩)
    · cases h
  | receive =>
    simp only [step] at h
    split at h
    · next byte rest _ hqueue =>
      have hsame := Option.some.inj h
      subst hsame
      refine .inr (.inr ⟨rfl, by simp [hqueue], ?_⟩)
      rw [hqueue]
      split
      · exact ⟨rfl, rfl, by simp [received]⟩
      · exact ⟨rfl, rfl, by simp [received]⟩
    · cases h

/-- The transport is `impl`, and the bytes received are those that `receive` took. -/
structure Listening (impl : Impl) (s : Shared) : Prop where
  conserved : s.socket.Conserved
  received_eq : s.received = s.socket.seen .receive
  impl_eq : s.impl = impl

theorem listening_start (config : TCPConfig) :
    (start (.online config)).Listening (.online config) :=
  ⟨Fifo.conserved_empty, rfl, rfl⟩

theorem readLoop_online (config : TCPConfig) (bytes : List UInt8) :
    (Impl.online config).readLoop (.data bytes) = .online config := rfl

theorem Listening.step {config : TCPConfig} {s t : Shared} {e : Turn}
    (hs : s.Listening (.online config)) (h : s.step e = some t) :
    t.Listening (.online config) := by
  obtain ⟨hconserved, hreceived, himpl⟩ := hs
  rcases step_cases h with ⟨bytes, -, rfl⟩ | ⟨n, -, hpos, hne, rfl⟩ |
    ⟨-, hne, hti, hts, htr⟩
  · exact ⟨hconserved.send bytes, hreceived, himpl⟩
  · refine ⟨hconserved.take .readLoop hpos hne, ?_, ?_⟩
    · change s.received = _
      rw [hreceived, Fifo.seen_take_of_ne _ (by decide)]
    · simp only [himpl]
      exact readLoop_online config _
  · refine ⟨hts ▸ hconserved.take .receive Nat.one_pos hne, ?_, hti.trans himpl⟩
    rw [htr, hts, Fifo.seen_take_self, hreceived]

/-- The bytes of every removal went to `receive`. -/
def Undisturbed (s : Shared) : Prop := ∀ e ∈ s.socket.taken, e.1 = Reader.receive

theorem undisturbed_step_iff {s t : Shared} {e : Turn} (h : s.step e = some t) :
    t.Undisturbed ↔ s.Undisturbed ∧ e.steals = false := by
  rcases step_cases h with ⟨bytes, rfl, rfl⟩ | ⟨n, rfl, -, -, rfl⟩ | ⟨rfl, -, -, hts, -⟩
  · exact (and_iff_left rfl).symm
  · refine (Fifo.forall_taken_take (P := (· = Reader.receive))).trans ?_
    exact and_congr_right fun _ => by simp [Turn.steals]
  · rw [Undisturbed, hts]
    refine (Fifo.forall_taken_take (P := (· = Reader.receive))).trans ?_
    exact and_congr_right fun _ => by simp [Turn.steals]

theorem run_receive_record {s : Shared} {w rest : List UInt8} (hopen : s.impl.sockfd ≠ none)
    (hw : Terminated etx (s.buffer ++ w)) (hne : w ≠ []) (hqueue : s.socket.queue = w ++ rest) :
    ∃ t, sharedSocket.run s (List.replicate w.length .receive) = some t ∧
      t.returned = s.returned ++ [s.buffer ++ w] ∧ t.buffer = [] ∧ t.socket.queue = rest := by
  obtain ⟨fd, hfd⟩ := Option.ne_none_iff_exists'.mp hopen
  induction w generalizing s with
  | nil => exact absurd rfl hne
  | cons byte w ih =>
    have hstep : s.step .receive = some
        (if byte = etx then
          { s with socket := s.socket.take .receive 1, buffer := [],
                   returned := s.returned ++ [s.buffer ++ [byte]] }
        else { s with socket := s.socket.take .receive 1, buffer := s.buffer ++ [byte] }) := by
      simp only [step, hfd, hqueue, List.cons_append]
    have hshift : s.buffer ++ byte :: w = (s.buffer ++ [byte]) ++ w := by simp
    have htail : (s.socket.take .receive 1).queue = w ++ rest := by
      simp [Fifo.take, hqueue]
    rw [List.length_cons, List.replicate_succ, System.run_cons]
    change ∃ t, (s.step .receive).bind _ = _ ∧ _
    rw [hstep, Option.bind_some]
    have hlast : byte = etx ↔ w = [] := hw.eq_delimiter_iff
    by_cases hb : byte = etx
    · have hsame := hlast.mp hb
      subst hsame
      rw [if_pos hb]
      exact ⟨_, rfl, rfl, rfl, htail⟩
    · rw [if_neg hb]
      rw [hshift] at hw ⊢
      exact ih hopen hw (fun hnil => hb (hlast.mpr hnil)) htail hfd

/-- Without other turns in between, the turns of `receive` do what the whole `receive` does. -/
theorem receive_atomic {s : Shared} {w rest : List UInt8} (hopen : s.impl.sockfd ≠ none)
    (hbuffer : s.buffer = []) (hw : Terminated etx w) (hqueue : s.socket.queue = w ++ rest) :
    Link.receive ⟨s.impl, s.socket.queue.map some⟩ = (.ok w, ⟨s.impl, rest.map some⟩) ∧
      ∃ t, sharedSocket.run s (List.replicate w.length .receive) = some t ∧
        t.returned = s.returned ++ [w] ∧ t.buffer = [] ∧ t.socket.queue = rest := by
  obtain ⟨fd, hfd⟩ := Option.ne_none_iff_exists'.mp hopen
  have hne : w ≠ [] := by
    obtain ⟨body, -, rfl⟩ := hw
    simp
  have hrest : s.buffer ++ w = w := by rw [hbuffer, List.nil_append]
  constructor
  · have hfd' : (⟨s.impl, s.socket.queue.map some⟩ : Link).impl.sockfd = some fd := hfd
    rw [Link.receive_eq hfd', hqueue, List.map_append, readRecord_terminated hw]
    rfl
  · have hw' : Terminated etx (s.buffer ++ w) := by rwa [hrest]
    have hrun := run_receive_record hopen hw' hne hqueue
    rwa [hrest] at hrun

end Shared

/-- On a controller from the factory, `receive` reads exactly what the device sent, up to what
is still in the socket, exactly in the schedules without a turn of `read_loop`. -/
theorem nothing_stolen_iff (ip : String) (port : UInt16) (d d' : DeviceController)
    (hbuild : (ControllerFactory.buildMCB.withTCP ip port).build = .ok d)
    (hconnect : d.connect ⟨true, true, true⟩ = .ok (true, d')) (turns : List Turn) (t : Shared)
    (hrun : sharedSocket.run (.start d'.transport) turns = some t) :
    t.received ++ t.socket.queue = t.socket.sent ↔ ∀ e ∈ turns, e.steals = false := by
  have hsame : ⟨.new ⟨ip, port⟩⟩ = d := Except.ok.inj hbuild
  subst hsame
  have hsame : ⟨.online ⟨ip, port⟩⟩ = d' := (Prod.mk.inj (Except.ok.inj hconnect)).2
  subst hsame
  have hseen {s : Shared} (hs : s.Listening (.online ⟨ip, port⟩)) :
      s.received ++ s.socket.queue = s.socket.sent ↔ s.Undisturbed := by
    rw [hs.received_eq]
    exact hs.conserved.seen_append_queue_iff Reader.receive
  rw [← System.along_event_iff hrun]
  refine System.run_property_iff (Q := fun s => s.received ++ s.socket.queue = s.socket.sent)
    (I := fun s => s.Listening (.online ⟨ip, port⟩) ∧ s.Undisturbed)
    (B := fun s => s.Listening (.online ⟨ip, port⟩) ∧ ¬ s.Undisturbed)
    ?kept ?stolen ?gone (fun s hs => (hseen hs.1).mpr hs.2)
    (fun s hs h => hs.2 ((hseen hs.1).mp h))
    ⟨Shared.listening_start ⟨ip, port⟩, by simp [Shared.Undisturbed, Shared.start, Fifo.empty]⟩ hrun
  case kept =>
    intro s e m h he hstep
    obtain ⟨hs, hu⟩ := h
    exact ⟨hs.step hstep, (Shared.undisturbed_step_iff hstep).mpr ⟨hu, he⟩⟩
  case stolen =>
    intro s e m h he hstep
    obtain ⟨hs, -⟩ := h
    exact ⟨hs.step hstep, fun hm => he ((Shared.undisturbed_step_iff hstep).mp hm).2⟩
  case gone =>
    intro s e m h hstep
    obtain ⟨hs, hu⟩ := h
    exact ⟨hs.step hstep, fun hm => hu ((Shared.undisturbed_step_iff hstep).mp hm).1⟩

theorem nothing_stolen_answer :
    ∃ t, sharedSocket.run (.start (.online ⟨"127.0.0.1", 3001⟩))
        [.device [0x02, 0x02, 0x51], .receive, .device [0x05, 0x56, 0x03], .receive] = some t ∧
      t.received ++ t.socket.queue = t.socket.sent :=
  ⟨_, rfl, (nothing_stolen_iff "127.0.0.1" 3001 _ _ rfl rfl
    [.device [0x02, 0x02, 0x51], .receive, .device [0x05, 0x56, 0x03], .receive] _ rfl).mpr
      (by decide)⟩

/-- The reader takes the first half of an answer, which reaches nobody, and `receive` returns
the other half. -/
theorem stolen_answer :
    ∃ t, sharedSocket.run (.start (.online ⟨"127.0.0.1", 3001⟩))
        [.device [0x02, 0x02, 0x51], .readLoop 3, .device [0x05, 0x56, 0x03], .receive, .receive,
          .receive] = some t ∧
      t.returned = [[0x05, 0x56, 0x03]] ∧ t.impl.handed = [] ∧
      t.received ++ t.socket.queue ≠ t.socket.sent :=
  ⟨_, rfl, rfl, rfl, by decide⟩

end Spectrum.Controller
