import Spectrum.Foundation.Ledger
import Spectrum.Transport.Interface
import Mathlib.Data.Int.Notation

/-! The TCP transport (`transport/network/tcp_transport.cpp`): `connect`, `disconnect`, `send`,
the reader thread and the destructor. What the system calls return is an argument. -/
namespace Spectrum.Transport.Network
open Foundation Utils

structure TCPConfig where
  ip : String
  port : UInt16
  deriving DecidableEq, Repr

/-- `std::thread read_thread_`: no thread, one inside `read_loop`, or one whose `read_loop`
has returned and that nobody has joined. -/
inductive ReadThread
  | none | running | finished
  deriving DecidableEq, Repr

def ReadThread.joinable (t : ReadThread) : Bool := t ≠ .none

/-- What a `::recv` of `read_loop` gives. The last two both return -1. -/
inductive ReaderRecv
  | data (bytes : List UInt8)
  | closed
  | timeout
  | error
  deriving DecidableEq, Repr

/-- At most `BUFFER_SIZE` bytes, and at least one. -/
def ReaderRecv.Valid : ReaderRecv → Prop
  | .data bytes => bytes ≠ [] ∧ bytes.length ≤ 1024
  | _ => True

instance : DecidablePred ReaderRecv.Valid := fun r =>
  match r with
  | .data bytes => inferInstanceAs (Decidable (bytes ≠ [] ∧ bytes.length ≤ 1024))
  | .closed => isTrue trivial
  | .timeout => isTrue trivial
  | .error => isTrue trivial

/-- Whether `::socket`, `::inet_pton` and `::connect` succeed in one call of `connect()`. -/
structure ConnectEnv where
  socket : Bool
  inetPton : Bool
  connect : Bool
  deriving DecidableEq, Repr

/-- `std::terminate`: a joinable `std::thread` was assigned to or destroyed. -/
inductive Abort
  | terminate
  deriving DecidableEq, Repr

/-- The fields of `TCPTransport::Impl`, then what the object has done to its surroundings:
descriptors, bytes each `::send` accepted, chunks given to the callback, codes logged. -/
structure Impl where
  config : TCPConfig
  sockfd : Option ℕ
  status : TransportStatus
  running : Bool
  readThread : ReadThread
  receiveCallback : Bool
  fds : Ledger
  wire : List (ℕ × List UInt8)
  handed : List (List UInt8)
  log : List ErrorCode
  deriving DecidableEq, Repr

namespace Impl

def new (config : TCPConfig) : Impl where
  config := config
  sockfd := none
  status := .disconnected
  running := false
  readThread := .none
  receiveCallback := false
  fds := .empty
  wire := []
  handed := []
  log := []

def logCode (s : Impl) (code : ErrorCode) : Impl := { s with log := s.log ++ [code] }

/-- `::close(sockfd_); sockfd_ = -1`, skipped without a socket. -/
def closeSocket (s : Impl) : Impl :=
  match s.sockfd with
  | some fd => { s with fds := s.fds.close fd, sockfd := none }
  | none => s

def connect (s : Impl) (env : ConnectEnv) : Except Abort (Bool × Impl) :=
  if s.status = .connected then .ok (true, s)
  else if !env.socket then
    .ok (false, { s.logCode .tcpConnectionFailure with sockfd := none, status := .error })
  else
    let s := { s with sockfd := some s.fds.opened, fds := s.fds.acquire }
    if !env.inetPton then
      .ok (false, { (s.logCode .tcpInvalidAddress).closeSocket with status := .error })
    else
      let s := { s with status := .connecting }
      if !env.connect then
        .ok (false, { (s.logCode .tcpConnectionFailure).closeSocket with status := .error })
      else
        let s := { s with status := .connected, running := true }
        -- the assignment to `read_thread_`
        if s.readThread.joinable then .error .terminate
        else .ok (true, { s with readThread := .running })

/-- What `read_loop` does after its loop, as the last thing of the thread. -/
def readLoopExit (s : Impl) : Impl :=
  let s := { s with running := false }.closeSocket
  { s with
    status := if s.status ≠ .error then .disconnected else s.status
    readThread := .finished }

/-- One turn of `read_loop` with the result of its `::recv`, up to the next test of `running_`. -/
def readLoop (s : Impl) : ReaderRecv → Impl
  | .data bytes =>
    let s := if s.receiveCallback then { s with handed := s.handed ++ [bytes] } else s
    if s.running then s else s.readLoopExit
  | .closed => { s.logCode .tcpReceiveError with status := .disconnected }.readLoopExit
  | .timeout | .error => { s.logCode .tcpReceiveError with status := .error }.readLoopExit

/-- `read_thread_.join()`. A running reader sees `running_` cleared, after one more `::recv`
or at once (`none`). -/
def join (s : Impl) (last : Option ReaderRecv) : Impl :=
  match s.readThread, last with
  | .running, some r => { s.readLoop r with readThread := .none }
  | .running, none => { s.readLoopExit with readThread := .none }
  | _, _ => { s with readThread := .none }

def disconnect (s : Impl) (last : Option ReaderRecv) : Bool × Impl :=
  if s.status = .disconnected ∨ s.status = .error then (true, s)
  else
    let s := { s with running := false }
    let s := if s.readThread.joinable then s.join last else s
    (true, { s.closeSocket with status := .disconnected })

/-- The loop of `send` from `totalSent` on, over the results of its `::send` calls: its outcome
and the bytes each call accepted. `none` means that it waits for one more result. -/
def sendLoop (data : List UInt8) (totalSent : ℕ) : List ℤ → Option (Bool × List (List UInt8))
  | [] => if totalSent < data.length then none else some (true, [])
  | sent :: results =>
    if totalSent < data.length then
      if sent ≤ 0 then some (false, [])
      else
        (sendLoop data (totalSent + sent.toNat) results).map fun (ok, chunks) =>
          (ok, (data.drop totalSent).take sent.toNat :: chunks)
    else some (true, [])

def send (s : Impl) (data : List UInt8) (results : List ℤ) : Option (Bool × Impl) :=
  match s.status, s.sockfd with
  | .connected, some fd =>
    (sendLoop data 0 results).map fun (ok, chunks) =>
      let s := { s with wire := s.wire ++ chunks.map (fd, ·) }
      (ok, if ok then s else s.logCode .tcpDataSendFailure)
  | _, _ => some (false, s.logCode .tcpConnectionFailure)

theorem sendLoop_eq_nil {data : List UInt8} {totalSent : ℕ} {results : List ℤ} {ok : Bool}
    (h : sendLoop data totalSent results = some (ok, [])) :
    (data.length ≤ totalSent ∧ ok = true) ∨
      (totalSent < data.length ∧ ok = false ∧ ∃ e rest, results = e :: rest ∧ e ≤ 0) := by
  by_cases hmore : totalSent < data.length
  · right
    cases results with
    | nil =>
      simp only [sendLoop, if_pos hmore] at h
      cases h
    | cons sent results =>
      simp only [sendLoop, if_pos hmore] at h
      split at h
      · next hfail =>
        cases h
        exact ⟨hmore, rfl, sent, results, rfl, hfail⟩
      · obtain ⟨_, -, heq⟩ := Option.map_eq_some_iff.mp h
        cases heq
  · left
    cases results <;> simp only [sendLoop, if_neg hmore] at h <;> cases h <;>
      exact ⟨Nat.le_of_not_lt hmore, rfl⟩

theorem sendLoop_eq_cons {data : List UInt8} {totalSent : ℕ} {results : List ℤ} {ok : Bool}
    {chunk : List UInt8} {chunks : List (List UInt8)}
    (h : sendLoop data totalSent results = some (ok, chunk :: chunks)) :
    ∃ sent rest, results = sent :: rest ∧ totalSent < data.length ∧ 0 < sent ∧
      chunk = (data.drop totalSent).take sent.toNat ∧
      sendLoop data (totalSent + sent.toNat) rest = some (ok, chunks) := by
  by_cases hmore : totalSent < data.length
  · cases results with
    | nil =>
      simp only [sendLoop, if_pos hmore] at h
      cases h
    | cons sent results =>
      simp only [sendLoop, if_pos hmore] at h
      split at h
      · cases h
      · next hpos =>
        obtain ⟨⟨ok', later⟩, hloop, heq⟩ := Option.map_eq_some_iff.mp h
        cases heq
        exact ⟨sent, results, rfl, hmore, Int.not_le.mp hpos, rfl, hloop⟩
  · cases results <;> simp only [sendLoop, if_neg hmore] at h <;> cases h

/-- The bytes accepted are the next ones of the data, and `true` says that none are left. -/
theorem sendLoop_contract {data : List UInt8} {totalSent : ℕ} {results : List ℤ} {ok : Bool}
    {chunks : List (List UInt8)} (h : sendLoop data totalSent results = some (ok, chunks)) :
    ∃ pending, data.drop totalSent = chunks.flatten ++ pending ∧ (ok = true ↔ pending = []) := by
  induction chunks generalizing totalSent results with
  | nil =>
    rcases sendLoop_eq_nil h with ⟨hdone, rfl⟩ | ⟨hmore, rfl, -⟩
    · exact ⟨[], by simpa using hdone, by simp⟩
    · exact ⟨data.drop totalSent, rfl, by simpa using hmore⟩
  | cons chunk chunks ih =>
    obtain ⟨sent, rest, -, -, -, rfl, hloop⟩ := sendLoop_eq_cons h
    obtain ⟨pending, hsplit, hok⟩ := ih hloop
    refine ⟨pending, ?_, hok⟩
    rw [List.flatten_cons, List.append_assoc, ← hsplit, ← List.drop_drop, List.take_append_drop]

theorem send_true {s t : Impl} {data : List UInt8} {results : List ℤ}
    (h : s.send data results = some (true, t)) :
    (∃ fd, s.sockfd = some fd ∧ t.sockfd = some fd) ∧
      ∃ chunks, sendLoop data 0 results = some (true, chunks) := by
  unfold send at h
  split at h
  · next fd _ hfd =>
    obtain ⟨⟨ok, chunks⟩, hloop, heq⟩ := Option.map_eq_some_iff.mp h
    obtain ⟨rfl, rfl⟩ := Prod.mk.inj heq
    exact ⟨⟨fd, hfd, hfd⟩, chunks, hloop⟩
  · cases (Prod.mk.inj (Option.some.inj h)).1

/-- On a connected transport only the loop of `send` can fail. -/
theorem send_false {s t : Impl} {data : List UInt8} {results : List ℤ}
    (hstatus : s.status = .connected) (hsockfd : s.sockfd ≠ none)
    (h : s.send data results = some (false, t)) :
    ∃ chunks, sendLoop data 0 results = some (false, chunks) := by
  obtain ⟨fd, hfd⟩ := Option.ne_none_iff_exists'.mp hsockfd
  simp only [send, hstatus, hfd] at h
  obtain ⟨⟨ok, chunks⟩, hloop, heq⟩ := Option.map_eq_some_iff.mp h
  obtain ⟨rfl, -⟩ := Prod.mk.inj heq
  exact ⟨chunks, hloop⟩

def subscribe (s : Impl) : Impl := { s with receiveCallback := true }

/-- `~Impl`: `disconnect()`, then the destruction of `read_thread_`. -/
def destroy (s : Impl) (last : Option ReaderRecv) : Except Abort Impl :=
  let s := (s.disconnect last).2
  if s.readThread.joinable then .error .terminate else .ok s

/-- A transport after its first connection. -/
def online (config : TCPConfig) : Impl :=
  { new config with
    sockfd := some 0
    status := .connected
    running := true
    readThread := .running
    fds := ⟨1, []⟩ }

theorem connect_new (config : TCPConfig) :
    (new config).connect ⟨true, true, true⟩ = .ok (true, online config) := rfl

end Impl

end Spectrum.Transport.Network
