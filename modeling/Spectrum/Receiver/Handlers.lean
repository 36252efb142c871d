import Spectrum.Command.Read
import Spectrum.Receiver.Dispatch

/-! What the branches of `dispatch` do: each executes a read command over the receiver's protocol
and gives its information to the handler. The function subscribed catches what the command
throws. -/
namespace Spectrum.Receiver
open Foundation Utils Spectrum.Command

variable {σ : Type}

/-- A receiver, with the handlers that are set in it. -/
inductive Subscriber
  | keyboardReceiver (r : KeyboardReceiver)
  | mcbReceiver (r : McbReceiver)
  deriving DecidableEq, Repr

def Subscriber.dispatch : Subscriber → List UInt8 → Option Branch
  | .keyboardReceiver r => r.dispatch
  | .mcbReceiver r => r.dispatch

/-- What `onReceive` of a handler is called with. -/
abbrev Given := (c : ReadCommand) × c.Info

namespace Branch

def readCommand : Branch → ReadCommand
  | .keyPressed => .readKeyPressed
  | .keyReleased => .readKeyReleased
  | .status => .readStatus
  | .analogInput port => .readAnalogInput ⟨port⟩
  | .dataHora => .readDataHora

def enter (b : Branch) (sendCommand : SendCommand σ) (s : σ) : Except Fault (Option Given) × σ :=
  match b.readCommand.run sendCommand s with
  | (.error fault, s) => (.error fault, s)
  -- caught by the function subscribed
  | (.ok (.error _), s) => (.ok none, s)
  | (.ok (.ok info), s) => (.ok (some ⟨b.readCommand, info⟩), s)

end Branch

/-- The function that the constructor of a receiver subscribes. -/
def Subscriber.onFrame (r : Subscriber) (sendCommand : SendCommand σ) (s : σ) (frame : List UInt8) :
    Except Fault (Option Given) × σ :=
  match r.dispatch frame with
  | some b => b.enter sendCommand s
  | none => (.ok none, s)

/-- The chunks of a transport, each with the receiver that is subscribed when it comes and the
handlers that are set then. -/
def serve (sendCommand : SendCommand σ) : σ → List (Subscriber × List UInt8) →
    Except Fault (List Given) × σ
  | s, [] => (.ok [], s)
  | s, (r, frame) :: arrivals =>
    match r.onFrame sendCommand s frame with
    | (.error fault, s) => (.error fault, s)
    | (.ok given, s) =>
      match serve sendCommand s arrivals with
      | (.error fault, s) => (.error fault, s)
      | (.ok later, s) => (.ok (given.toList ++ later), s)

/-- A call of `sendCommand` and how it ended. -/
structure Exchange where
  cmd : UInt8
  payload : List UInt8
  response : Except String (List UInt8)

/-- The board, with its calls written down. -/
def recorded (sendCommand : SendCommand σ) : SendCommand (σ × List Exchange) :=
  fun (s, log) cmd payload =>
    let (response, t) := sendCommand s cmd payload
    (response, t, log ++ [⟨cmd, payload, response⟩])

/-- How a command ends is up to how its `sendCommand` ends: with its information after a response
that is long enough, and else with an exception. Nothing is read outside of the response. -/
theorem run_response (c : ReadCommand) (response : Except String (List UInt8)) :
    ∃ result : Except String c.Info,
      (∀ {τ : Type} {sendCommand : SendCommand τ} {s t : τ},
        sendCommand s c.command.value c.request = (response, t) →
        c.run sendCommand s = (.ok result, t)) ∧
      ((∃ info, result = .ok info) ↔
        ∃ data, response = .ok data ∧ c.minimum ≤ data.length) := by
  obtain ⟨short, message, decode, hshort, hdecode, hrun⟩ := c.run_eq
  cases response with
  | error text =>
    refine ⟨.error text, ?_, by simp⟩
    intro τ sendCommand s t hsend
    rw [hrun]
    unfold ask
    rw [hsend]
  | ok data =>
    by_cases hmin : c.minimum ≤ data.length
    · have hlong : ∃ info, guarded short message decode data = .ok (.ok info) := by
        obtain ⟨info, hinfo, -⟩ := hdecode.guarded hshort hmin
        exact ⟨info, hinfo⟩
      obtain ⟨info, hinfo⟩ := hlong
      refine ⟨.ok info, ?_, iff_of_true ⟨info, rfl⟩ ⟨data, rfl, hmin⟩⟩
      intro τ sendCommand s t hsend
      rw [hrun, ask_of_ok hsend, hinfo]
    · have hless : data.length < c.minimum := by omega
      refine ⟨.error message, ?_, iff_of_false (by simp) ?_⟩
      · intro τ sendCommand s t hsend
        rw [hrun, ask_of_ok hsend, guarded_of_short ((hshort data).mpr hless)]
      · intro h
        obtain ⟨data', hsame, hlong⟩ := h
        cases hsame
        exact hmin hlong

/-- The branches that the chunks open. -/
def opened (arrivals : List (Subscriber × List UInt8)) : List Branch :=
  arrivals.filterMap fun (r, frame) => r.dispatch frame

namespace Branch

/-- What the handler gets when `sendCommand` ends like this. -/
def given (b : Branch) (response : Except String (List UInt8)) : Option Given :=
  match (b.readCommand.run (fun _ _ _ => (response, ())) ()).1 with
  | .ok (.ok info) => some ⟨b.readCommand, info⟩
  | _ => none

theorem given_isSome_iff (b : Branch) (response : Except String (List UInt8)) :
    (b.given response).isSome = true ↔
      ∃ data, response = .ok data ∧ b.readCommand.minimum ≤ data.length := by
  obtain ⟨result, hrun, hresult⟩ := run_response b.readCommand response
  rw [← hresult]
  unfold given
  rw [hrun rfl]
  cases result with
  | error text => simp
  | ok info => simp

theorem enter_recorded (b : Branch) (sendCommand : SendCommand σ) (s : σ) (log : List Exchange) :
    ∃ response t, b.enter (recorded sendCommand) (s, log) = (.ok (b.given response), t,
      log ++ [⟨b.readCommand.command.value, b.readCommand.request, response⟩]) := by
  obtain ⟨response, t, hsend⟩ : ∃ response t, sendCommand s b.readCommand.command.value
      b.readCommand.request = (response, t) := ⟨_, _, rfl⟩
  have hrecorded : recorded sendCommand (s, log) b.readCommand.command.value
      b.readCommand.request = (response, t,
        log ++ [⟨b.readCommand.command.value, b.readCommand.request, response⟩]) := by
    simp only [recorded, hsend]
  obtain ⟨result, hrun, -⟩ := run_response b.readCommand response
  refine ⟨response, t, ?_⟩
  unfold enter given
  rw [hrun hrecorded, hrun rfl]
  cases result <;> rfl

end Branch

theorem onFrame_none {r : Subscriber} {frame : List UInt8} (h : r.dispatch frame = none)
    (sendCommand : SendCommand σ) (s : σ) :
    r.onFrame sendCommand s frame = (.ok none, s) := by
  unfold Subscriber.onFrame
  rw [h]

theorem onFrame_some {r : Subscriber} {frame : List UInt8} {b : Branch}
    (h : r.dispatch frame = some b) (sendCommand : SendCommand σ) (s : σ) :
    r.onFrame sendCommand s frame = b.enter sendCommand s := by
  unfold Subscriber.onFrame
  rw [h]

theorem serve_cons {sendCommand : SendCommand σ} {s t u : σ} {r : Subscriber} {frame : List UInt8}
    {arrivals : List (Subscriber × List UInt8)} {given : Option Given} {later : List Given}
    (hfirst : r.onFrame sendCommand s frame = (.ok given, t))
    (hlater : serve sendCommand t arrivals = (.ok later, u)) :
    serve sendCommand s ((r, frame) :: arrivals) = (.ok (given.toList ++ later), u) := by
  unfold serve
  simp only [hfirst, hlater]

/-- Over any chunks, with any board behind `sendCommand`: no access leaves a response; each chunk
that opens a branch makes one request, and no other chunk makes any; and the handlers get, in
order, what the responses say that are long enough. A response that is too short and an exception
cost the information of their own chunk only. -/
theorem handlers_served (sendCommand : SendCommand σ) (s : σ)
    (arrivals : List (Subscriber × List UInt8)) :
    ∃ givens t log, serve (recorded sendCommand) (s, []) arrivals = (.ok givens, t, log) ∧
      log.map (fun e => (e.cmd, e.payload)) =
        (opened arrivals).map (fun b => (b.readCommand.command.value, b.readCommand.request)) ∧
      givens = ((opened arrivals).zip log).filterMap (fun (b, e) => b.given e.response) ∧
      ∀ b ∈ opened arrivals, ∀ response, (b.given response).isSome = true ↔
        ∃ data, response = .ok data ∧ b.readCommand.minimum ≤ data.length := by
  suffices hall : ∀ log, ∃ givens t later,
      serve (recorded sendCommand) (s, log) arrivals = (.ok givens, t, log ++ later) ∧
        later.map (fun e => (e.cmd, e.payload)) =
          (opened arrivals).map (fun b => (b.readCommand.command.value, b.readCommand.request)) ∧
        givens = ((opened arrivals).zip later).filterMap fun (b, e) => b.given e.response by
    obtain ⟨givens, t, later, hserve, hrequests, hgivens⟩ := hall []
    exact ⟨givens, t, later, hserve, hrequests, hgivens, fun b _ => b.given_isSome_iff⟩
  induction arrivals generalizing s with
  | nil => exact fun log => ⟨[], s, [], by rw [List.append_nil]; rfl, rfl, rfl⟩
  | cons arrival arrivals ih =>
    intro log
    obtain ⟨r, frame⟩ := arrival
    cases hdispatch : r.dispatch frame with
    | none =>
      obtain ⟨givens, t, later, hserve, hrequests, hgivens⟩ := ih s log
      have hopened : opened ((r, frame) :: arrivals) = opened arrivals :=
        List.filterMap_cons_none hdispatch
      refine ⟨givens, t, later, serve_cons (onFrame_none hdispatch _ _) hserve, ?_, ?_⟩
      · rw [hopened]
        exact hrequests
      · rw [hopened]
        exact hgivens
    | some b =>
      obtain ⟨response, m, henter⟩ := b.enter_recorded sendCommand s log
      obtain ⟨givens, t, later, hserve, hrequests, hgivens⟩ :=
        ih m (log ++ [⟨b.readCommand.command.value, b.readCommand.request, response⟩])
      have hopened : opened ((r, frame) :: arrivals) = b :: opened arrivals :=
        List.filterMap_cons_some hdispatch
      have hfirst := (onFrame_some hdispatch (recorded sendCommand) (s, log)).trans henter
      refine ⟨(b.given response).toList ++ givens, t,
        ⟨b.readCommand.command.value, b.readCommand.request, response⟩ :: later, ?_, ?_, ?_⟩
      · rw [serve_cons hfirst hserve, List.append_assoc]
        rfl
      · rw [hopened, List.map_cons, List.map_cons, hrequests]
      · rw [hopened, List.zip_cons_cons, List.filterMap_cons, hgivens]
        cases hgiven : b.given response <;> simp only [hgiven] <;> rfl

end Spectrum.Receiver
