import Spectrum.Foundation.Run
import Spectrum.Transport.Network.Tcp

/-! The owner's calls and `read_loop` of a TCP transport as two threads over the same fields. A step
reads or writes one field, or makes one system call on a descriptor read before it, or is told what
a system call has come to. What the threads log and the timeout that `connect` sets are left out.
A callback returns without a call of the transport, and `subscribe` is one step. A run goes up to the
moment in which `connect` starts a reader beside one that was not joined: there `std::terminate`
is all that can follow. -/
namespace Spectrum.Transport.Network
open Foundation

namespace Impl

/-- `::close` on a descriptor that `sockfd_` held, which fails on -1. -/
def closes (s : Impl) : Option ℕ → Impl
  | some fd => { s with fds := s.fds.close fd }
  | none => s

/-- The kernel knows the descriptor. -/
def Serves (s : Impl) (fd : Option ℕ) : Prop := ∃ h ∈ fd, s.fds.IsOpen h

instance (s : Impl) : DecidablePred s.Serves := fun fd =>
  match fd with
  | some h => decidable_of_iff (s.fds.IsOpen h) (by simp [Serves])
  | none => isFalse (by simp [Serves])

end Impl

/-- How a step of a call ends: at another place of the call, or with the call. -/
inductive Next (α : Type)
  | goto (place : α)
  | returns (ok : Bool)
  | aborts
  deriving DecidableEq, Repr

/-- The places of `connect`. The last four are on its failing ways out. -/
inductive ConnectAt
  | testStatus | socket
  | setSocket (fd : Option ℕ)
  | testSocket | inetPton | setConnecting | loadSocket
  | connect (fd : Option ℕ)
  | connecting | setConnected | setRunning | startReader
  | loadClose
  | close (fd : Option ℕ)
  | clearSocket | setError
  deriving DecidableEq, Repr

def ConnectAt.step (env : ConnectEnv) (s : Impl) : ConnectAt → Impl × Next ConnectAt
  | .testStatus => (s, if s.status = .connected then .returns true else .goto .socket)
  | .socket =>
    if env.socket then ({ s with fds := s.fds.acquire }, .goto (.setSocket (some s.fds.opened)))
    else (s, .goto (.setSocket none))
  | .setSocket fd => ({ s with sockfd := fd }, .goto .testSocket)
  | .testSocket => (s, .goto (if s.sockfd = none then .setError else .inetPton))
  | .inetPton => (s, .goto (if env.inetPton then .setConnecting else .loadClose))
  | .setConnecting => ({ s with status := .connecting }, .goto .loadSocket)
  | .loadSocket => (s, .goto (.connect s.sockfd))
  | .connect fd => (s, .goto (if s.Serves fd then .connecting else .loadClose))
  | .connecting => (s, .goto (if env.connect then .setConnected else .loadClose))
  | .setConnected => ({ s with status := .connected }, .goto .setRunning)
  | .setRunning => ({ s with running := true }, .goto .startReader)
  | .startReader =>
    if s.readThread.joinable then (s, .aborts)
    else ({ s with readThread := .running }, .returns true)
  | .loadClose => (s, .goto (.close s.sockfd))
  | .close fd => (s.closes fd, .goto .clearSocket)
  | .clearSocket => ({ s with sockfd := none }, .goto .setError)
  | .setError => ({ s with status := .error }, .returns false)

/-- The places of `disconnect`. It compares `status_` twice. -/
inductive DisconnectAt
  | testDisconnected | testError | clearRunning | testJoinable | join
  | testSocket | loadClose
  | close (fd : Option ℕ)
  | clearSocket | setDisconnected
  deriving DecidableEq, Repr

/-- `none` where `join` waits for the reader. -/
def DisconnectAt.step (s : Impl) : DisconnectAt → Option (Impl × Next DisconnectAt)
  | .testDisconnected =>
    some (s, if s.status = .disconnected then .returns true else .goto .testError)
  | .testError => some (s, if s.status = .error then .returns true else .goto .clearRunning)
  | .clearRunning => some ({ s with running := false }, .goto .testJoinable)
  | .testJoinable => some (s, .goto (if s.readThread.joinable then .join else .testSocket))
  | .join =>
    if s.readThread = .running then none
    else some ({ s with readThread := .none }, .goto .testSocket)
  | .testSocket => some (s, .goto (if s.sockfd = none then .setDisconnected else .loadClose))
  | .loadClose => some (s, .goto (.close s.sockfd))
  | .close fd => some (s.closes fd, .goto .clearSocket)
  | .clearSocket => some ({ s with sockfd := none }, .goto .setDisconnected)
  | .setDisconnected => some ({ s with status := .disconnected }, .returns true)

/-- The places of `send`. In the last one the kernel is at work. -/
inductive SendAt
  | testStatus | testSocket
  | loop (totalSent : ℕ)
  | send (totalSent : ℕ) (fd : Option ℕ)
  | sending (totalSent fd : ℕ)
  deriving DecidableEq, Repr

/-- A step of `send` up to a `::send`, on a descriptor that is open or not. -/
def SendAt.step (data : List UInt8) (s : Impl) : SendAt → Option (Next SendAt)
  | .testStatus => some (if s.status = .connected then .goto .testSocket else .returns false)
  | .testSocket => some (if s.sockfd = none then .returns false else .goto (.loop 0))
  | .loop totalSent =>
    some (if totalSent < data.length then .goto (.send totalSent s.sockfd) else .returns true)
  | .send totalSent (some fd) =>
    some (if s.fds.IsOpen fd then .goto (.sending totalSent fd) else .returns false)
  | .send _ none => some (.returns false)
  | .sending _ _ => none

/-- What `::send` returns. -/
def SendAt.sent (data : List UInt8) (s : Impl) (result : ℤ) :
    SendAt → Option (Impl × Next SendAt)
  | .sending totalSent fd =>
    if result ≤ 0 then some (s, .returns false)
    else
      let accepted := (data.drop totalSent).take result.toNat
      some ({ s with wire := s.wire ++ [(fd, accepted)] },
        .goto (.loop (totalSent + result.toNat)))
  | _ => none

/-- The places of `read_loop`, from `report` on outside of its loop. At `receiving` the kernel is at
work, at `callback` the callback. -/
inductive ReaderAt
  | test | loadSocket
  | recv (fd : Option ℕ)
  | receiving
  | testCallback (bytes : List UInt8)
  | call (bytes : List UInt8)
  | callback
  | report (status : TransportStatus)
  | clearRunning | testSocket | loadClose
  | close (fd : Option ℕ)
  | clearSocket | testStatus | setDisconnected | done
  deriving DecidableEq, Repr

/-- A step of `read_loop`, `none` while a `::recv` waits. A thread that has ended is at the place
where the next one begins. -/
def ReaderAt.step (s : Impl) : ReaderAt → Option (Impl × ReaderAt)
  | .test => some (s, if s.running then .loadSocket else .clearRunning)
  | .loadSocket => some (s, .recv s.sockfd)
  | .recv fd => some (s, if s.Serves fd then .receiving else .report .error)
  | .receiving => none
  | .testCallback bytes => some (s, if s.receiveCallback then .call bytes else .test)
  | .call bytes => some ({ s with handed := s.handed ++ [bytes] }, .callback)
  | .callback => some (s, .test)
  | .report status => some ({ s with status := status }, .clearRunning)
  | .clearRunning => some ({ s with running := false }, .testSocket)
  | .testSocket => some (s, if s.sockfd = none then .testStatus else .loadClose)
  | .loadClose => some (s, .close s.sockfd)
  | .close fd => some (s.closes fd, .clearSocket)
  | .clearSocket => some ({ s with sockfd := none }, .testStatus)
  | .testStatus => some (s, if s.status = .error then .done else .setDisconnected)
  | .setDisconnected => some ({ s with status := .disconnected }, .done)
  | .done => some ({ s with readThread := .finished }, .test)

/-- Where a result of `::recv` leads. -/
def ReaderAt.received : ReaderRecv → ReaderAt
  | .data bytes => .testCallback bytes
  | .closed => .report .disconnected
  | .timeout | .error => .report .error

/-- The calls of the owner, but for `subscribe`. -/
inductive Call
  | connect (env : ConnectEnv)
  | disconnect
  | send (data : List UInt8)
  deriving DecidableEq, Repr

inductive OwnerAt
  | idle
  | connect (env : ConnectEnv) (place : ConnectAt)
  | disconnect (place : DisconnectAt)
  | send (data : List UInt8) (place : SendAt)
  | aborted
  deriving DecidableEq, Repr

/-- The fields, where each thread stands, and what the calls of the owner returned. -/
structure Threads where
  impl : Impl
  owner : OwnerAt
  readLoop : ReaderAt
  returned : List (Call × Bool)
  deriving DecidableEq, Repr

inductive Move
  | call (c : Call)
  | subscribe
  | owner
  | sent (result : ℤ)
  | reader
  | received (r : ReaderRecv)
  deriving DecidableEq, Repr

namespace Threads

def new (config : TCPConfig) : Threads := ⟨.new config, .idle, .test, []⟩

def begin (t : Threads) : Call → Threads
  | .connect env => { t with owner := .connect env .testStatus }
  | .disconnect => { t with owner := .disconnect .testDisconnected }
  | .send data => { t with owner := .send data .testStatus }

/-- The owner after a step of `call`, whose places are those of `owner`. -/
def after {α : Type} (t : Threads) (call : Call) (owner : α → OwnerAt) (s : Impl) :
    Next α → Threads
  | .goto place => { t with impl := s, owner := owner place }
  | .returns ok => { t with impl := s, owner := .idle, returned := t.returned ++ [(call, ok)] }
  | .aborts => { t with impl := s, owner := .aborted }

def ownerStep (t : Threads) : Option Threads :=
  match t.owner with
  | .connect env place =>
    let (s, next) := place.step env t.impl
    some (t.after (.connect env) (.connect env) s next)
  | .disconnect place =>
    (place.step t.impl).map fun (s, next) => t.after .disconnect .disconnect s next
  | .send data place =>
    (place.step data t.impl).map fun next => t.after (.send data) (.send data) t.impl next
  | .idle | .aborted => none

def step (t : Threads) : Move → Option Threads
  | .call c => if t.owner = .idle then some (t.begin c) else none
  | .subscribe => if t.owner = .idle then some { t with impl := t.impl.subscribe } else none
  | .owner => t.ownerStep
  | .sent result =>
    match t.owner with
    | .send data place =>
      (place.sent data t.impl result).map fun (s, next) => t.after (.send data) (.send data) s next
    | _ => none
  | .reader =>
    if t.owner ≠ .aborted ∧ t.impl.readThread = .running then
      (t.readLoop.step t.impl).map fun (s, place) => { t with impl := s, readLoop := place }
    else none
  | .received r =>
    if t.owner ≠ .aborted ∧ t.impl.readThread = .running ∧ t.readLoop = .receiving ∧ r.Valid then
      some { t with readLoop := .received r }
    else none

end Threads

def threads : System Threads Move := ⟨Threads.step⟩

end Spectrum.Transport.Network
