import Spectrum.Controller.Delivery
import Spectrum.Tests.Recovery

/-! Commands on one connection whose frames are broken off by failing sends, with more commands
behind them, over any `sendCommand` that sends the frames of its requests. -/
namespace Spectrum.Controller
open Foundation Utils Protocols MCBProtocol Transport.Network ProtocolController Tests

namespace Execution

/-- What the `::send` calls accept of the frame. -/
def written (e : Execution) : List UInt8 :=
  ((Impl.sendLoop e.call.frame 0 e.sends).map fun r => r.2.flatten).getD []

theorem written_eq (e : Execution) {ok : Bool} {chunks : List (List UInt8)}
    (h : Impl.sendLoop e.call.frame 0 e.call.sends = some (ok, chunks)) :
    e.written = chunks.flatten := by
  unfold written
  show ((Impl.sendLoop e.call.frame 0 e.call.sends).map fun r => r.2.flatten).getD [] = _
  rw [h]
  rfl

end Execution

namespace Outgoing

variable {σ : Type} {proto : CommandSender σ}

theorem run_sentOn {s t : σ} {es : List Execution} {fd : ℕ} (hproto : proto.SendsFrames)
    (hstatus : (proto.impl s).status = .connected) (hfd : (proto.impl s).sockfd = some fd)
    (hrun : proto.calls.run s (es.map Execution.call) = some t) :
    (proto.impl t).sentOn fd =
      (proto.impl s).sentOn fd ++ (es.map Execution.written).flatten := by
  induction es generalizing s with
  | nil =>
    rw [← Option.some.inj hrun]
    exact (List.append_nil _).symm
  | cons e es ih =>
    obtain ⟨m, hm, hrest⟩ := proto.calls.run_cons_eq_some.mp hrun
    obtain ⟨⟨ok, chunks, hloop, hsent⟩, hstatus', hfd'⟩ := call_sends hproto hstatus hfd hm
    have hwritten := e.written_eq hloop
    rw [ih hstatus' hfd' hrest, hsent, ← hwritten, List.append_assoc]
    rfl

end Outgoing

end Spectrum.Controller
