import Spectrum.Controller.SharedSocket
import Spectrum.Controller.VersaoFirmware
import Spectrum.Transport.Network.Descriptors

/-! The programs `tests/mcb_test.cpp` and `tests/mcb_testArray.cpp`: `main` connects, asks for the
version once or five times, and disconnects. It is the owner of a transport whose `read_loop` runs
beside it on the same socket. Of what the programs print, the line of each `versaoFirmware` is kept.
-/
namespace Spectrum.Tests
open Foundation Utils Protocols MCBProtocol Transport.Network Receiver Controller

/-- Where `main` stands: before or in `connect`, behind `i` calls of `versaoFirmware`, in the `send`
of the next one or in its `receive`, in `disconnect`, and before or in that of the destructor. At
`recv` it has loaded `sockfd_`, at `receiving` the kernel is at work. `killed` is the end by
SIGPIPE. -/
inductive Place
  | start | connect
  | version (i : ℕ)
  | send (i : ℕ)
  | receive (i : ℕ) (buffer : List UInt8)
  | recv (i : ℕ) (buffer : List UInt8) (fd : Option ℕ)
  | receiving (i : ℕ) (buffer : List UInt8)
  | disconnect
  | destroy (code : ℕ)
  | destroying (code : ℕ)
  | exited (code : ℕ)
  | aborted | killed
  deriving DecidableEq, Repr

/-- The process is gone. -/
def Place.Ended : Place → Prop
  | .exited _ | .aborted | .killed => True
  | _ => False

instance : DecidablePred Place.Ended := fun place =>
  match place with
  | .exited _ | .aborted | .killed => isTrue trivial
  | .start | .connect | .version _ | .send _ | .receive _ _ | .recv _ _ _ | .receiving _ _
  | .disconnect | .destroy _ | .destroying _ => isFalse id

structure Program where
  place : Place
  transport : Threads
  socket : Fifo Reader UInt8
  printed : List (Except Fault (Except String String))

/-- `main` calls `connect`, or goes on where no system call decides; the transport goes on with the
call that `main` is in; `read_loop` goes on; a `::recv` of `receive` returns; the board writes. -/
inductive Action
  | connect (env : ConnectEnv)
  | main
  | owner
  | sent (result : ℤ)
  | sigpipe
  | reader
  | received (r : ReaderRecv)
  | byte
  | receiveFails
  | device (bytes : List UInt8)
  deriving DecidableEq, Repr

/-- What the last call returned. -/
def answer (t : Threads) : Bool := (t.returned.getLast?.map (·.2)).getD false

namespace Program

def start (config : TCPConfig) : Program := ⟨.start, .new config, .empty, []⟩

def request : List UInt8 := buildFrame MCBCommand.Enumerator.readFirmware.value []

/-- The line of one `versaoFirmware`, by what came of its request. -/
def line (result : Except String (List UInt8)) : Except Fault (Except String String) :=
  (DeviceController.versaoFirmware (fun _ _ _ => (result, ())) ()).1

def goto (p : Program) (place : Place) : Program := { p with place := place }

def answered (p : Program) (i : ℕ) (result : Except String (List UInt8)) : Program :=
  { p with place := .version (i + 1), printed := p.printed ++ [line result] }

/-- A step of the two threads. -/
def moves (p : Program) (m : Move) : Option Program :=
  if p.place.Ended then none
  else (threads.step p.transport m).map fun t => { p with transport := t }

/-- `main` calls the transport. -/
def calls (p : Program) (c : Call) (place : Place) : Option Program :=
  (p.goto place).moves (.call c)

/-- `read_loop` takes the bytes that are there, and it is told that there are none only then. -/
def Offers (socket : Fifo Reader UInt8) : ReaderRecv → Prop
  | .data bytes => bytes <+: socket.queue
  | .closed | .timeout => socket.queue = []
  | .error => True

instance (socket : Fifo Reader UInt8) : DecidablePred (Offers socket) := fun r =>
  match r with
  | .data bytes => inferInstanceAs (Decidable (bytes <+: socket.queue))
  | .closed | .timeout => inferInstanceAs (Decidable (socket.queue = []))
  | .error => isTrue trivial

/-- The socket behind a `::recv` of `read_loop`. -/
def takenBy (socket : Fifo Reader UInt8) : ReaderRecv → Fifo Reader UInt8
  | .data bytes => socket.take .readLoop bytes.length
  | _ => socket

/-- `main` with no call of the transport under way. -/
def main (n : ℕ) (p : Program) : Option Program :=
  match p.place, p.transport.owner with
  | .connect, .idle => some (p.goto (if answer p.transport then .version 0 else .destroy 1))
  | .connect, .aborted => some (p.goto .aborted)
  | .version i, .idle =>
    if i < n then p.calls (.send request) (.send i) else p.calls .disconnect .disconnect
  | .send i, .idle =>
    some (if answer p.transport then p.goto (.receive i [])
      else p.answered i (.error ProtocolController.sendFailure))
  | .receive i buffer, .idle => some (p.goto (.recv i buffer p.transport.impl.sockfd))
  | .recv i buffer fd, .idle =>
    some (if p.transport.impl.Serves fd then p.goto (.receiving i buffer)
      else p.answered i (.error Link.receiveFailure))
  | .disconnect, .idle => some (p.goto (.destroy 0))
  | .destroy code, .idle => p.calls .disconnect (.destroying code)
  | .destroying code, .idle =>
    -- the destructor of a `std::thread` that was not joined
    some (p.goto (if p.transport.impl.readThread.joinable then .aborted else .exited code))
  | _, _ => none

def step (n : ℕ) (p : Program) : Action → Option Program
  | .connect env => if p.place = .start then p.calls (.connect env) .connect else none
  | .main => p.main n
  | .owner => p.moves .owner
  | .sent result => p.moves (.sent result)
  | .sigpipe =>
    match p.place, p.transport.owner with
    | .send _, .send _ (.sending _ _) => some (p.goto .killed)
    | _, _ => none
  | .reader => p.moves .reader
  | .received r =>
    if Offers p.socket r then
      (p.moves (.received r)).map fun q => { q with socket := takenBy p.socket r }
    else none
  | .byte =>
    match p.place, p.socket.queue with
    | .receiving i buffer, byte :: _ =>
      let p := { p with socket := p.socket.take .receive 1 }
      let buffer := buffer ++ [byte]
      some (if byte = etx then p.answered i (MCBFrameVectorAwaiter.deliver buffer)
        else p.goto (.receive i buffer))
    | _, _ => none
  | .receiveFails =>
    match p.place with
    | .receiving i _ => some (p.answered i (.error Link.receiveFailure))
    | _ => none
  | .device bytes => some { p with socket := p.socket.send bytes }

end Program

/-- `mcb_test` makes one call of `versaoFirmware`, `mcb_testArray` five. -/
def program (n : ℕ) : System Program Action := ⟨Program.step n⟩

namespace Program

variable {n : ℕ} {p q : Program}

theorem moves_eq_some {m : Move} (h : p.moves m = some q) : ¬ p.place.Ended ∧
    ∃ t, threads.step p.transport m = some t ∧ q = { p with transport := t } := by
  unfold moves at h
  split at h
  · cases h
  · next hgoing =>
    obtain ⟨t, ht, heq⟩ := Option.map_eq_some_iff.mp h
    exact ⟨hgoing, t, ht, heq.symm⟩

theorem calls_eq_some {c : Call} {place : Place} (h : p.calls c place = some q) :
    p.transport.owner = .idle ∧
      q = { p with place := place, transport := p.transport.begin c } := by
  obtain ⟨-, t, ht, rfl⟩ := moves_eq_some h
  have ht : (if p.transport.owner = .idle then some (p.transport.begin c) else none) = some t := ht
  split at ht
  · next hidle =>
    cases ht
    exact ⟨hidle, rfl⟩
  · cases ht

theorem step_connect {env : ConnectEnv} (h : p.step n (.connect env) = some q) :
    p.place = .start ∧ p.transport.owner = .idle ∧
      q = { p with place := .connect, transport := p.transport.begin (.connect env) } := by
  simp only [step] at h
  split at h
  · next hplace => exact ⟨hplace, calls_eq_some h⟩
  · cases h

theorem step_sigpipe (h : p.step n .sigpipe = some q) :
    ∃ i, p.place = .send i ∧ q = p.goto .killed := by
  simp only [step] at h
  split at h
  · next i _ _ _ hplace _ => exact ⟨i, hplace, (Option.some.inj h).symm⟩
  · cases h

theorem step_received {r : ReaderRecv} (h : p.step n (.received r) = some q) :
    Offers p.socket r ∧ ¬ p.place.Ended ∧ ∃ t, threads.step p.transport (.received r) = some t ∧
      q = { p with transport := t, socket := takenBy p.socket r } := by
  simp only [step] at h
  split at h
  · next hoffers =>
    obtain ⟨m, hm, heq⟩ := Option.map_eq_some_iff.mp h
    obtain ⟨hgoing, t, ht, rfl⟩ := moves_eq_some hm
    exact ⟨hoffers, hgoing, t, ht, heq.symm⟩
  · cases h

theorem step_byte (h : p.step n .byte = some q) :
    ∃ i buffer byte rest, p.place = .receiving i buffer ∧ p.socket.queue = byte :: rest ∧
      q = if byte = etx then { p with socket := p.socket.take .receive 1 }.answered i
          (MCBFrameVectorAwaiter.deliver (buffer ++ [byte]))
        else { p with socket := p.socket.take .receive 1 }.goto (.receive i (buffer ++ [byte])) := by
  simp only [step] at h
  split at h
  · next i buffer byte rest hplace hqueue =>
    exact ⟨i, buffer, byte, rest, hplace, hqueue, (Option.some.inj h).symm⟩
  · cases h

theorem step_receiveFails (h : p.step n .receiveFails = some q) :
    ∃ i buffer, p.place = .receiving i buffer ∧
      q = p.answered i (.error Link.receiveFailure) := by
  simp only [step] at h
  split at h
  · next i buffer hplace => exact ⟨i, buffer, hplace, (Option.some.inj h).symm⟩
  · cases h

/-- What `main` does between its system calls: a step that prints nothing and leaves no bytes
behind, the line of a call that failed, or the next place of its `receive`. -/
inductive MainStep (n : ℕ) (p : Program) : Program → Prop
  | connected (place : p.place = .connect) (idle : p.transport.owner = .idle) :
      MainStep n p (p.goto (if answer p.transport then .version 0 else .destroy 1))
  | unjoined (place : p.place = .connect) (aborted : p.transport.owner = .aborted) :
      MainStep n p (p.goto .aborted)
  | send (i : ℕ) (place : p.place = .version i) (more : i < n) (idle : p.transport.owner = .idle) :
      MainStep n p { p with place := .send i, transport := p.transport.begin (.send request) }
  | disconnect (i : ℕ) (place : p.place = .version i) (last : ¬ i < n)
      (idle : p.transport.owner = .idle) :
      MainStep n p { p with place := .disconnect, transport := p.transport.begin .disconnect }
  | sent (i : ℕ) (place : p.place = .send i) (idle : p.transport.owner = .idle) :
      MainStep n p (p.goto (.receive i []))
  | unsent (i : ℕ) (place : p.place = .send i) (idle : p.transport.owner = .idle) :
      MainStep n p (p.answered i (.error ProtocolController.sendFailure))
  | load (i : ℕ) (buffer : List UInt8) (place : p.place = .receive i buffer) :
      MainStep n p (p.goto (.recv i buffer p.transport.impl.sockfd))
  | recv (i : ℕ) (buffer : List UInt8) (fd : Option ℕ) (place : p.place = .recv i buffer fd) :
      MainStep n p (p.goto (.receiving i buffer))
  | closed (i : ℕ) (buffer : List UInt8) (fd : Option ℕ) (place : p.place = .recv i buffer fd) :
      MainStep n p (p.answered i (.error Link.receiveFailure))
  | disconnected (place : p.place = .disconnect) (idle : p.transport.owner = .idle) :
      MainStep n p (p.goto (.destroy 0))
  | destroy (code : ℕ) (place : p.place = .destroy code) (idle : p.transport.owner = .idle) :
      MainStep n p { p with place := .destroying code, transport := p.transport.begin .disconnect }
  | destroyed (code : ℕ) (place : p.place = .destroying code) (idle : p.transport.owner = .idle) :
      MainStep n p (p.goto (if p.transport.impl.readThread.joinable then .aborted
        else .exited code))

theorem step_main (h : p.step n .main = some q) : MainStep n p q := by
  have h : p.main n = some q := h
  unfold main at h
  split at h
  · next hplace hidle =>
    cases h
    exact .connected hplace hidle
  · next hplace haborted =>
    cases h
    exact .unjoined hplace haborted
  · next i hplace hidle =>
    split at h
    · next hmore =>
      obtain ⟨-, rfl⟩ := calls_eq_some h
      exact .send i hplace hmore hidle
    · next hlast =>
      obtain ⟨-, rfl⟩ := calls_eq_some h
      exact .disconnect i hplace hlast hidle
  · next i hplace hidle =>
    cases h
    split
    · exact .sent i hplace hidle
    · exact .unsent i hplace hidle
  · next i buffer hplace hidle =>
    cases h
    exact .load i buffer hplace
  · next i buffer fd hplace hidle =>
    cases h
    split
    · exact .recv i buffer fd hplace
    · exact .closed i buffer fd hplace
  · next hplace hidle =>
    cases h
    exact .disconnected hplace hidle
  · next code hplace hidle =>
    obtain ⟨-, rfl⟩ := calls_eq_some h
    exact .destroy code hplace hidle
  · next code hplace hidle =>
    cases h
    exact .destroyed code hplace hidle
  · cases h

end Program

end Spectrum.Tests
