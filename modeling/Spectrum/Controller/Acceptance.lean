import Spectrum.Controller.ProtocolController

/-! Which answers a command accepts, through all the layers below it: the reader at the
delimiter, the parser and the two awaiters. -/
namespace Spectrum.Controller
open Foundation Utils Protocols MCBProtocol Transport.Network Receiver

theorem deliver_prefix_iff {raw rest : List UInt8} {rc : UInt8} {rd out : List UInt8}
    (hrd : rd.length ≤ 254) (hraw : raw ++ rest = buildFrame rc rd) :
    MCBFrameVectorAwaiter.deliver raw = .ok out ↔
      (rest = [] ∧ rc ∈ recognised ∧ rd ≠ []) ∧ out = rd := by
  rw [MCBFrameVectorAwaiter.deliver_eq_ok_iff]
  constructor
  · intro h
    obtain ⟨hparse, hne⟩ := h
    obtain ⟨f, hf, -⟩ := Option.map_eq_some_iff.mp hparse
    have hsame : rest = [] := by
      rw [buildFrame, buildFrame_eq_wire] at hraw
      exact parseFrame_of_prefix hrd hraw hf
    subst hsame
    rw [List.append_nil] at hraw
    rw [hraw, parse_buildFrame rc hrd] at hparse
    split at hparse
    · next hrc =>
      have hsame := Option.some.inj hparse
      subst hsame
      exact ⟨⟨rfl, hrc, hne⟩, rfl⟩
    · cases hparse
  · intro h
    obtain ⟨⟨rfl, hrc, hne⟩, rfl⟩ := h
    rw [List.append_nil] at hraw
    rw [hraw, parse_buildFrame rc hrd, if_pos hrc]
    exact ⟨rfl, hne⟩

namespace ProtocolController

theorem sendCommand_sent {l : Link} {cmd : UInt8} {payload : List UInt8} {sends : List ℤ}
    {impl : Impl} (hsend : l.impl.send (buildFrame cmd payload) sends = some (true, impl)) :
    sendCommand l cmd payload sends =
      some (MCBFrameVectorAwaiter.waitForFrame { l with impl := impl }) := by
  simp [sendCommand, hsend]

theorem sendCommand_unsent {l : Link} {cmd : UInt8} {payload : List UInt8} {sends : List ℤ}
    {impl : Impl} (hsend : l.impl.send (buildFrame cmd payload) sends = some (false, impl)) :
    sendCommand l cmd payload sends = some (.error sendFailure, { l with impl := impl }) := by
  simp [sendCommand, hsend]

theorem sendCommand_record {l : Link} {cmd : UInt8} {payload : List UInt8} {sends : List ℤ}
    {impl : Impl} (hsend : l.impl.send (buildFrame cmd payload) sends = some (true, impl)) :
    sendCommand l cmd payload sends =
      some ((Link.outcome (readRecord etx l.incoming).1).bind MCBFrameVectorAwaiter.deliver,
        ⟨impl, (readRecord etx l.incoming).2⟩) := by
  obtain ⟨⟨fd, -, hfd⟩, -⟩ := Impl.send_true hsend
  have hopen : ({ l with impl := impl } : Link).impl.sockfd = some fd := hfd
  rw [sendCommand_sent hsend, MCBFrameVectorAwaiter.waitForFrame_eq, Link.receive_eq hopen]

/-- The answers a command accepts are those with data, one of the seven command bytes the
decoder knows, and no ETX inside. On every other answer it throws. The request goes out as its
`send` says. -/
theorem sendCommand_acceptance (l : Link) (cmd : UInt8) (payload : List UInt8) (sends : List ℤ)
    (impl : Impl) (rc : UInt8) (rd : List UInt8)
    (hsend : l.impl.send (buildFrame cmd payload) sends = some (true, impl))
    (hrd : rd.length ≤ 254) (hincoming : l.incoming = (buildFrame rc rd).map some) :
    ∃ result l', sendCommand l cmd payload sends = some (result, l') ∧ l'.impl = impl ∧
      (result = .ok rd ↔ rd ≠ [] ∧ rc ∈ [0x51, 0x52, 0x54, 0x5A, 0x5B, 0x63, 0xFF] ∧
        etx ∉ [UInt8.ofNat (1 + rd.length), rc] ++ rd ++
          [UInt8.ofNat (rc.toNat + (rd.map UInt8.toNat).sum)]) ∧
      (result ≠ .ok rd → ∃ error, result = .error error) := by
  have hetx : etx ∈ buildFrame rc rd := by simp [buildFrame, Impl.buildFrame]
  obtain ⟨raw, rest, hraw, hframe⟩ := exists_terminated_prefix hetx
  have hread : readRecord etx l.incoming = (some raw, rest.map some) := by
    rw [hincoming, hframe, List.map_append, readRecord_terminated hraw]
  have hwhole : rest = [] ↔ Terminated etx (buildFrame rc rd) := by
    rw [hframe, hraw.append_iff]
  have hdeliver {out : List UInt8} : MCBFrameVectorAwaiter.deliver raw = .ok out ↔
      (rest = [] ∧ rc ∈ recognised ∧ rd ≠ []) ∧ out = rd := deliver_prefix_iff hrd hframe.symm
  refine ⟨MCBFrameVectorAwaiter.deliver raw, ⟨impl, rest.map some⟩, ?_, rfl, ?_, ?_⟩
  · rw [sendCommand_record hsend, hread]
    rfl
  · rw [hdeliver, hwhole, terminated_buildFrame_iff]
    constructor
    · intro h
      obtain ⟨⟨hclean, hrc, hne⟩, -⟩ := h
      exact ⟨hne, hrc, hclean⟩
    · intro h
      obtain ⟨hne, hrc, hclean⟩ := h
      exact ⟨⟨hclean, hrc, hne⟩, rfl⟩
  · intro hne
    cases hresult : MCBFrameVectorAwaiter.deliver raw with
    | error error => exact ⟨error, rfl⟩
    | ok out =>
      obtain ⟨-, rfl⟩ := hdeliver.mp hresult
      exact absurd hresult hne

theorem sendCommand_acceptance_firmware : ∃ l',
    sendCommand ⟨.online ⟨"127.0.0.1", 3001⟩, (buildFrame 0x51 [1, 2, 4]).map some⟩ 0x51 []
      [2, 3] = some (.ok [1, 2, 4], l') := by
  obtain ⟨result, l', hrun, -, haccept, -⟩ := sendCommand_acceptance
    ⟨.online ⟨"127.0.0.1", 3001⟩, (buildFrame 0x51 [1, 2, 4]).map some⟩ 0x51 [] [2, 3]
    { Impl.online ⟨"127.0.0.1", 3001⟩ with wire := [(0, [0x02, 0x01]), (0, [0x51, 0x51, 0x03])] }
    0x51 [1, 2, 4] (by decide) (by decide) rfl
  exact ⟨l', haccept.mpr (by decide) ▸ hrun⟩

theorem send_of_sendCommand {l l' : Link} {cmd : UInt8} {payload : List UInt8} {sends : List ℤ}
    {result : Except String (List UInt8)}
    (h : sendCommand l cmd payload sends = some (result, l')) :
    ∃ sent, l.impl.send (buildFrame cmd payload) sends = some (sent, l'.impl) ∧
      (sent = false → result = .error sendFailure) := by
  cases hsend : l.impl.send (buildFrame cmd payload) sends with
  | none => simp [sendCommand, hsend] at h
  | some r =>
    obtain ⟨sent, impl⟩ := r
    cases sent with
    | false =>
      rw [sendCommand_unsent hsend] at h
      cases h
      exact ⟨false, rfl, fun _ => rfl⟩
    | true =>
      rw [sendCommand_record hsend] at h
      cases h
      exact ⟨true, rfl, fun hfalse => absurd hfalse (by decide)⟩

theorem send_of_returns {l l' : Link} {cmd : UInt8} {payload out : List UInt8} {sends : List ℤ}
    (h : sendCommand l cmd payload sends = some (.ok out, l')) :
    ∃ impl, l.impl.send (buildFrame cmd payload) sends = some (true, impl) := by
  obtain ⟨sent, hsend, hfailed⟩ := send_of_sendCommand h
  cases sent with
  | false => cases hfailed rfl
  | true => exact ⟨l'.impl, hsend⟩

/-- What a command returns is the data of the first record that came in, a frame the parser
accepts. Nothing ties the frame's command to the command sent: any other request, sent in the
same place, would have returned the same bytes. -/
theorem sendCommand_returns (l l' : Link) (cmd : UInt8) (payload out : List UInt8)
    (sends : List ℤ) (h : sendCommand l cmd payload sends = some (.ok out, l')) :
    (∃ raw f, Terminated etx raw ∧ l.incoming = raw.map some ++ l'.incoming ∧
      MCBProtocol.Impl.parseFrame raw = some f ∧ out = f.data ∧ out ≠ []) ∧
    ∀ (cmd' : UInt8) (payload' : List UInt8) (sends' : List ℤ) (impl' : Impl),
      l.impl.send (buildFrame cmd' payload') sends' = some (true, impl') →
      sendCommand l cmd' payload' sends' = some (.ok out, ⟨impl', l'.incoming⟩) := by
  obtain ⟨impl, hsend⟩ := send_of_returns h
  rw [sendCommand_record hsend] at h
  obtain ⟨hresult, hlink⟩ := Prod.mk.inj (Option.some.inj h)
  have hleft : (readRecord etx l.incoming).2 = l'.incoming := congrArg Link.incoming hlink
  constructor
  · cases hread : (readRecord etx l.incoming).1 with
    | none =>
      rw [hread] at hresult
      cases hresult
    | some raw =>
      obtain ⟨hraw, hincoming⟩ := readRecord_eq_some hread
      rw [hread] at hresult
      have hdeliver : MCBFrameVectorAwaiter.deliver raw = .ok out := hresult
      obtain ⟨hparse, hne⟩ := MCBFrameVectorAwaiter.deliver_eq_ok_iff.mp hdeliver
      obtain ⟨f, hf, hdata⟩ := Option.map_eq_some_iff.mp hparse
      rw [hleft] at hincoming
      exact ⟨raw, f, hraw, hincoming, hf, hdata.symm, hne⟩
  · intro cmd' payload' sends' impl' hsend'
    rw [sendCommand_record hsend', hresult, hleft]

theorem sendCommand_returns_firmware :
    ∃ raw f, Terminated etx raw ∧ (buildFrame 0x51 [1, 2, 4]).map some = raw.map some ++ [] ∧
      MCBProtocol.Impl.parseFrame raw = some f ∧ [1, 2, 4] = f.data ∧
      ([1, 2, 4] : List UInt8) ≠ [] :=
  (sendCommand_returns
    ⟨.online ⟨"127.0.0.1", 3001⟩, (buildFrame 0x51 [1, 2, 4]).map some⟩
    ⟨{ Impl.online ⟨"127.0.0.1", 3001⟩ with
        wire := [(0, [0x02, 0x01]), (0, [0x51, 0x51, 0x03])] }, []⟩
    0x51 [] [1, 2, 4] [2, 3] (by decide)).1

/-- The state of the switch, sent instead of switching off, is returned as the answer to
`DESLIGA_MCB`. -/
theorem sendCommand_returns_other :
    ¬ ∀ (l l' : Link) (cmd : UInt8) (payload out : List UInt8) (sends : List ℤ),
      sendCommand l cmd payload sends = some (.ok out, l') →
      ∀ raw, (readRecord etx l.incoming).1 = some raw → raw.getD 2 0 = cmd := by
  intro hall
  have hsame := hall ⟨.online ⟨"127.0.0.1", 3001⟩, (buildFrame 0x5A [0x01]).map some⟩
    ⟨{ Impl.online ⟨"127.0.0.1", 3001⟩ with wire := [(0, buildFrame 0x6A [])] }, []⟩
    0x6A [] [0x01] [5] (by decide) (buildFrame 0x5A [0x01]) (by decide)
  exact absurd hsame (by decide)

end ProtocolController

end Spectrum.Controller
