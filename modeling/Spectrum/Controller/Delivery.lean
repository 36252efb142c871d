import Spectrum.Command.DataHora
import Spectrum.Command.Requests
import Spectrum.Controller.Outgoing
import Spectrum.Tests.Stream

/-! From the commands executed on one connection to the frames put together at its other end. The
commands call a `sendCommand` that `IProtocol`, with which all classes but `ReadFirmwareCommand` are
made, does not declare. It is a parameter here; that of `ProtocolController` is one to take. -/
namespace Spectrum.Controller
open Foundation Utils Protocols MCBProtocol Transport.Network ProtocolController Tests

/-- An object with a `sendCommand`, and the transport it sends on. `none` means that the call has not
returned. -/
structure CommandSender (σ : Type) where
  impl : σ → Impl
  sendCommand : σ → Command → Option (Except String (List UInt8) × σ)

namespace CommandSender

/-- Each call gives the frame of its request to one `send` of the transport, and does nothing else
to the transport. -/
def SendsFrames {σ : Type} (proto : CommandSender σ) : Prop :=
  ∀ s r result t, proto.sendCommand s r = some (result, t) →
    ∃ sent, (proto.impl s).send r.frame r.sends = some (sent, proto.impl t)

/-- The calls made on it one after the other. -/
def calls {σ : Type} (proto : CommandSender σ) : System σ Command :=
  ⟨fun s r => (proto.sendCommand s r).map (·.2)⟩

end CommandSender

namespace ProtocolController

/-- The controller, on a link to which the bytes of the answer come during the call. -/
def sender : CommandSender Link where
  impl := Link.impl
  sendCommand l r :=
    sendCommand { l with incoming := l.incoming ++ r.arrives } r.cmd r.payload r.sends

theorem sender_sendsFrames : sender.SendsFrames := by
  intro l r result l' h
  obtain ⟨sent, hsend, -⟩ := send_of_sendCommand h
  exact ⟨sent, hsend⟩

end ProtocolController

/-- `execute()` of a command, with the results of the `::send` calls and what comes in
meanwhile. -/
structure Execution where
  command : Command.ICommand
  sends : List ℤ
  arrives : List (Option UInt8)

namespace Execution

def calls (e : Execution) : List Command :=
  e.command.sent.map fun (cmd, payload) => ⟨cmd, payload, e.sends, e.arrives⟩

def call (e : Execution) : Command :=
  ⟨e.command.command.value, e.command.payload, e.sends, e.arrives⟩

theorem calls_eq (e : Execution) : e.calls = [e.call] := by
  unfold calls
  rw [e.command.sent_eq]
  rfl

theorem flatMap_calls (es : List Execution) : es.flatMap calls = es.map call := by
  rw [← List.flatMap_singleton' (es.map call), List.flatMap_map]
  apply List.flatMap_congr
  exact fun e _ => e.calls_eq

/-- The frame went out whole. -/
def sentWhole (e : Execution) : Bool := (Impl.sendLoop e.call.frame 0 e.sends).any (·.1)

/-- The frame of the command, for the loop that puts frames together. -/
def segment (e : Execution) : Segment where
  garbage := []
  cmd := e.command.command.value
  payload := e.command.payload
  quiet := by simp
  fits := by
    have hle := e.command.payload_length_le
    omega

theorem sentWhole_eq (e : Execution) {ok : Bool} {chunks : List (List UInt8)}
    (h : Impl.sendLoop e.call.frame 0 e.call.sends = some (ok, chunks)) : e.sentWhole = ok := by
  unfold sentWhole
  show (Impl.sendLoop e.call.frame 0 e.call.sends).any (·.1) = ok
  rw [h]
  rfl

end Execution

namespace Outgoing

variable {σ : Type} {proto : CommandSender σ}

theorem call_sends {s t : σ} {r : Command} {fd : ℕ} (hproto : proto.SendsFrames)
    (hstatus : (proto.impl s).status = .connected) (hfd : (proto.impl s).sockfd = some fd)
    (h : proto.calls.step s r = some t) :
    (∃ ok chunks, Impl.sendLoop r.frame 0 r.sends = some (ok, chunks) ∧
      (proto.impl t).sentOn fd = (proto.impl s).sentOn fd ++ chunks.flatten) ∧
    (proto.impl t).status = .connected ∧ (proto.impl t).sockfd = some fd := by
  obtain ⟨⟨result, t'⟩, hcommand, hsame⟩ := Option.map_eq_some_iff.mp h
  subst hsame
  obtain ⟨sent, hsend⟩ := hproto s r result t' hcommand
  obtain ⟨chunks, hloop, hwire⟩ := Impl.send_wire hstatus hfd hsend
  obtain ⟨hst, hsock, -⟩ := Impl.send_frame hsend
  exact ⟨⟨sent, chunks, hloop, Impl.sentOn_append hwire⟩, hst.trans hstatus, hsock.trans hfd⟩

theorem sendLoop_cases {r : Command} {ok : Bool} {chunks : List (List UInt8)}
    (h : Impl.sendLoop r.frame 0 r.sends = some (ok, chunks)) :
    (ok = true ∧ chunks.flatten = r.frame) ∨ (ok = false ∧ r.Refused ∧ chunks.flatten = []) ∨
      (ok = false ∧ r.Torn ∧ chunks.flatten <+: r.frame ∧ chunks.flatten ≠ r.frame) := by
  obtain ⟨hstart, hsilent, htorn⟩ := told_of_sendLoop h
  obtain ⟨pending, hsplit, hok⟩ := Impl.sendLoop_contract h
  rw [List.drop_zero] at hsplit
  have hwhole : chunks.flatten = r.frame ↔ ok = true := by
    rw [hok, hsplit, eq_comm, List.append_right_eq_self]
  by_cases hall : chunks.flatten = r.frame
  · exact .inl ⟨hwhole.mp hall, hall⟩
  · have hfalse : ok = false := Bool.eq_false_iff.mpr fun htrue => hall (hwhole.mpr htrue)
    by_cases hnil : chunks.flatten = []
    · exact .inr (.inl ⟨hfalse, hsilent.mp hnil, hnil⟩)
    · exact .inr (.inr ⟨hfalse, htorn.mp ⟨hnil, hall⟩, hstart, hall⟩)

theorem run_refused {s t : σ} {es : List Execution} {fd : ℕ} (hproto : proto.SendsFrames)
    (hstatus : (proto.impl s).status = .connected) (hfd : (proto.impl s).sockfd = some fd)
    (hrun : proto.calls.run s (es.map Execution.call) = some t)
    (hrefused : ∀ e ∈ es, e.call.Refused) :
    (proto.impl t).sentOn fd = (proto.impl s).sentOn fd ∧ es.filter Execution.sentWhole = [] := by
  induction es generalizing s with
  | nil =>
    have hsame := Option.some.inj hrun
    rw [hsame]
    exact ⟨rfl, rfl⟩
  | cons e es ih =>
    obtain ⟨m, hm, hrest⟩ := proto.calls.run_cons_eq_some.mp hrun
    obtain ⟨hrefusal, hothers⟩ := List.forall_mem_cons.mp hrefused
    obtain ⟨⟨ok, chunks, hloop, hsent⟩, hstatus', hfd'⟩ := call_sends hproto hstatus hfd hm
    obtain ⟨hlater, hnone⟩ := ih hstatus' hfd' hrest hothers
    have hsilent : chunks.flatten = [] :=
      (Impl.sendLoop_silent_iff e.call.frame_ne_nil hloop).mpr hrefusal
    have hlost : e.sentWhole = false := by
      rw [e.sentWhole_eq hloop]
      rcases sendLoop_cases hloop with ⟨-, hall⟩ | ⟨hfalse, -⟩ | ⟨hfalse, -⟩
      · exact absurd (hall.symm.trans hsilent) e.call.frame_ne_nil
      · exact hfalse
      · exact hfalse
    constructor
    · rw [hlater, hsent, hsilent, List.append_nil]
    · rw [List.filter_cons_of_neg (by simp [hlost]), hnone]

/-- The loop at the other end cuts the frames that went out whole off what was written. -/
theorem run_delivers {s t : σ} {es : List Execution} {fd : ℕ} (hproto : proto.SendsFrames)
    (hstatus : (proto.impl s).status = .connected) (hfd : (proto.impl s).sockfd = some fd)
    (hrun : proto.calls.run s (es.map Execution.call) = some t)
    (hintact : es.Pairwise fun e f => e.call.Torn → f.call.Refused) :
    ∃ written, (proto.impl t).sentOn fd = (proto.impl s).sentOn fd ++ written ∧
      (reassembler.drain written).1 = (es.filter Execution.sentWhole).map (·.call.frame) := by
  induction es generalizing s with
  | nil =>
    have hsame := Option.some.inj hrun
    rw [hsame]
    exact ⟨[], (List.append_nil _).symm, drain_nil⟩
  | cons e es ih =>
    obtain ⟨m, hm, hrest⟩ := proto.calls.run_cons_eq_some.mp hrun
    obtain ⟨hfirst, hothers⟩ := List.pairwise_cons.mp hintact
    obtain ⟨⟨ok, chunks, hloop, hsent⟩, hstatus', hfd'⟩ := call_sends hproto hstatus hfd hm
    have hok := e.sentWhole_eq hloop
    rcases sendLoop_cases hloop with ⟨htrue, hall⟩ | ⟨hfalse, -, hnil⟩ | ⟨hfalse, htorn, hpart, hne⟩
    · obtain ⟨written, hwritten, hframes⟩ := ih hstatus' hfd' hrest hothers
      have hcut := drain_segments_append [e.segment] written
      have hbytes : ([e.segment].map Segment.bytes).flatten = e.call.frame :=
        List.append_nil e.call.frame
      rw [hbytes, hframes] at hcut
      refine ⟨e.call.frame ++ written, ?_, ?_⟩
      · rw [hwritten, hsent, hall, List.append_assoc]
      · rw [List.filter_cons_of_pos (hok.trans htrue), hcut]
        rfl
    · obtain ⟨written, hwritten, hframes⟩ := ih hstatus' hfd' hrest hothers
      refine ⟨written, ?_, ?_⟩
      · rw [hwritten, hsent, hnil, List.append_nil]
      · rw [List.filter_cons_of_neg (by simp [hok, hfalse]), hframes]
    · -- nothing is written behind a frame that was broken off
      obtain ⟨hlater, hnone⟩ := run_refused hproto hstatus' hfd' hrest fun f hf => hfirst f hf htorn
      refine ⟨chunks.flatten, hlater.trans hsent, ?_⟩
      rw [List.filter_cons_of_neg (by simp [hok, hfalse]), hnone]
      exact drain_broken e.segment hpart hne

end Outgoing

end Spectrum.Controller
