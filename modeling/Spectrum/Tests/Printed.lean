import Spectrum.Tests.McbTest

/-! What `mcb_test` and `mcb_testArray` print for the calls of `versaoFirmware`, over any run: where
the bytes behind each line come from, with `read_loop` and `receive` on one socket. -/
namespace Spectrum.Tests
open Foundation Utils Protocols MCBProtocol Transport.Network Receiver Controller

/-- What a line is made of: a record that `receive` took, or a call that failed. -/
inductive Origin
  | record (raw : List UInt8)
  | sendFails
  | receiveFails
  deriving DecidableEq, Repr

namespace Origin

def result : Origin → Except String (List UInt8)
  | .record raw => MCBFrameVectorAwaiter.deliver raw
  | .sendFails => .error ProtocolController.sendFailure
  | .receiveFails => .error Link.receiveFailure

def line (o : Origin) : Except Fault (Except String String) := Program.line o.result

def bytes : Origin → List UInt8
  | .record raw => raw
  | _ => []

end Origin

/-- What the board writes. -/
def Action.bytes : Action → List UInt8
  | .device bytes => bytes
  | _ => []

/-- The bytes of the `receive` that `main` is in. -/
def Place.buffer : Place → List UInt8
  | .receive _ buffer | .recv _ buffer _ | .receiving _ buffer => buffer
  | _ => []

namespace Program

/-- No line comes from a read outside a vector. -/
theorem line_ok (result : Except String (List UInt8)) : ∃ r, line result = .ok r := by
  cases result with
  | error e => exact ⟨.error e, rfl⟩
  | ok data =>
    match data with
    | [] | [_] | [_, _] => exact ⟨_, rfl⟩
    | _ :: _ :: _ :: _ => exact ⟨_, rfl⟩

theorem line_eq_text_iff {result : Except String (List UInt8)} {text : String} :
    line result = .ok (.ok text) ↔ ∃ info rest,
      result = .ok (DeviceController.answer info ++ rest) ∧
        text = DeviceController.format info := by
  constructor
  · intro h
    cases result with
    | error e => cases h
    | ok data =>
      match data with
      | [] | [_] | [_, _] => cases h
      | v :: r :: b :: rest =>
        have htext := Except.ok.inj (Except.ok.inj h)
        exact ⟨⟨v, r, b⟩, rest, rfl, htext.symm⟩
  · rintro ⟨info, rest, rfl, rfl⟩
    rfl

/-- The lines come from these records and failures, and no byte of the board is in two places. -/
structure Printed (origins : List Origin) (sent : List UInt8) (p : Program) : Prop where
  printed : p.printed = origins.map Origin.line
  sent : p.socket.sent = sent
  sublist : (origins.flatMap Origin.bytes ++ (p.place.buffer ++ p.socket.queue)).Sublist
    p.socket.sent
  terminated : ∀ raw, .record raw ∈ origins → Terminated etx raw
  open_buffer : etx ∉ p.place.buffer

variable {n : ℕ} {p q : Program} {origins : List Origin} {sent : List UInt8}

/-- Bytes that go from one place to the next, or get lost, keep their order. -/
theorem Printed.move (hp : p.Printed origins sent) (hprinted : q.printed = p.printed)
    (hsent : q.socket.sent = p.socket.sent) (hopen : etx ∉ q.place.buffer)
    (hbytes : (q.place.buffer ++ q.socket.queue).Sublist (p.place.buffer ++ p.socket.queue)) :
    q.Printed origins sent where
  printed := hprinted.trans hp.printed
  sent := hsent.trans hp.sent
  sublist := by
    rw [hsent]
    exact (hbytes.append_left _).trans hp.sublist
  terminated := hp.terminated
  open_buffer := hopen

theorem Printed.line {o : Origin} (hp : p.Printed origins sent)
    (hprinted : q.printed = p.printed ++ [o.line]) (hsent : q.socket.sent = p.socket.sent)
    (hbuffer : q.place.buffer = [])
    (hbytes : (o.bytes ++ q.socket.queue).Sublist (p.place.buffer ++ p.socket.queue))
    (hterminated : ∀ raw, o = .record raw → Terminated etx raw) :
    q.Printed (origins ++ [o]) sent where
  printed := by
    rw [hprinted, hp.printed, List.map_append]
    rfl
  sent := hsent.trans hp.sent
  sublist := by
    rw [hsent, hbuffer, List.flatMap_append, List.flatMap_singleton, List.nil_append,
      List.append_assoc]
    exact (hbytes.append_left _).trans hp.sublist
  terminated := by
    intro raw hraw
    rcases List.mem_append.mp hraw with hold | hnew
    · exact hp.terminated raw hold
    · exact hterminated raw (List.mem_singleton.mp hnew).symm
  open_buffer := by simp [hbuffer]

theorem Printed.byte (hp : p.Printed origins sent) (h : p.step n .byte = some q) :
    ∃ more, q.Printed (origins ++ more) sent := by
  obtain ⟨i, buffer, byte, rest, hplace, hqueue, rfl⟩ := step_byte h
  have hbuffer : p.place.buffer = buffer := by rw [hplace]; rfl
  have hopen : etx ∉ buffer := hbuffer ▸ hp.open_buffer
  have htail : (p.socket.take Reader.receive 1).queue = rest := by simp [Fifo.take, hqueue]
  have hbytes : ((buffer ++ [byte]) ++ rest).Sublist (p.place.buffer ++ p.socket.queue) := by
    rw [hbuffer, hqueue, List.append_assoc]
    exact List.Sublist.refl _
  split
  · next hetx =>
    refine ⟨[.record (buffer ++ [byte])], hp.line rfl rfl rfl ?_ ?_⟩
    · show ((buffer ++ [byte]) ++ (p.socket.take Reader.receive 1).queue).Sublist _
      rw [htail]
      exact hbytes
    · intro raw hraw
      cases hraw
      rw [hetx]
      exact terminated_concat.mpr hopen
  · next hinner =>
    refine ⟨[], ?_⟩
    rw [List.append_nil]
    refine hp.move rfl rfl ?_ ?_
    · show etx ∉ buffer ++ [byte]
      simp [hopen, Ne.symm hinner]
    · show ((buffer ++ [byte]) ++ (p.socket.take Reader.receive 1).queue).Sublist _
      rw [htail]
      exact hbytes

theorem Printed.received {r : ReaderRecv} (hp : p.Printed origins sent)
    (h : p.step n (.received r) = some q) : q.Printed origins sent := by
  obtain ⟨-, -, t, -, rfl⟩ := step_received h
  have hqueue : (takenBy p.socket r).queue.Sublist p.socket.queue := by
    cases r with
    | data bytes => exact List.drop_sublist _ _
    | closed => exact List.Sublist.refl _
    | timeout => exact List.Sublist.refl _
    | error => exact List.Sublist.refl _
  have hsent : (takenBy p.socket r).sent = p.socket.sent := by cases r <;> rfl
  exact hp.move rfl hsent hp.open_buffer (hqueue.append_left _)

theorem Printed.quiet (hp : p.Printed origins sent) (hprinted : q.printed = p.printed)
    (hsocket : q.socket = p.socket) (hbuffer : q.place.buffer = p.place.buffer ∨
      q.place.buffer = []) : ∃ more, q.Printed (origins ++ more) sent := by
  refine ⟨[], ?_⟩
  rw [List.append_nil]
  rcases hbuffer with hsame | hnil
  · apply hp.move hprinted
    · rw [hsocket]
    · rw [hsame]
      exact hp.open_buffer
    · rw [hsocket, hsame]
  · apply hp.move hprinted
    · rw [hsocket]
    · simp [hnil]
    · rw [hsocket, hnil]
      exact List.sublist_append_right _ _

theorem Printed.fails {o : Origin} {i : ℕ} (hp : p.Printed origins sent) (hbytes : o.bytes = [])
    (hrecord : ∀ raw, o ≠ .record raw) :
    ∃ more, (p.answered i o.result).Printed (origins ++ more) sent := by
  refine ⟨[o], hp.line rfl rfl rfl ?_ ?_⟩
  · rw [hbytes]
    exact List.sublist_append_right _ _
  · exact fun raw hraw => absurd hraw (hrecord raw)

theorem Printed.main (hp : p.Printed origins sent) (h : p.step n .main = some q) :
    ∃ more, q.Printed (origins ++ more) sent := by
  cases step_main h with
  | connected | destroyed =>
    refine hp.quiet rfl rfl (.inr ?_)
    dsimp only [goto]
    split <;> rfl
  | unjoined | send | disconnect | sent | disconnected | destroy => exact hp.quiet rfl rfl (.inr rfl)
  | unsent i => exact hp.fails (o := .sendFails) rfl nofun
  | load i buffer hplace =>
    refine hp.quiet rfl rfl (.inl ?_)
    rw [hplace]
    rfl
  | recv i buffer fd hplace =>
    refine hp.quiet rfl rfl (.inl ?_)
    rw [hplace]
    rfl
  | closed i => exact hp.fails (o := .receiveFails) rfl nofun

theorem Printed.device {bytes : List UInt8} (hp : p.Printed origins sent) :
    Printed origins (sent ++ bytes) { p with socket := p.socket.send bytes } := by
  refine ⟨hp.printed, ?_, ?_, hp.terminated, hp.open_buffer⟩
  · show p.socket.sent ++ bytes = sent ++ bytes
    rw [hp.sent]
  · show (_ ++ (p.place.buffer ++ (p.socket.queue ++ bytes))).Sublist (p.socket.sent ++ bytes)
    rw [← List.append_assoc p.place.buffer, ← List.append_assoc]
    exact hp.sublist.append_right bytes

theorem Printed.step {a : Action} (hp : p.Printed origins sent) (h : p.step n a = some q) :
    ∃ more, q.Printed (origins ++ more) (sent ++ a.bytes) := by
  have hnothing (hbytes : a.bytes = []) (hq : ∃ more, q.Printed (origins ++ more) sent) :
      ∃ more, q.Printed (origins ++ more) (sent ++ a.bytes) := by
    rw [hbytes, List.append_nil]
    exact hq
  cases a with
  | connect env =>
    obtain ⟨-, -, rfl⟩ := step_connect h
    exact hnothing rfl (hp.quiet rfl rfl (.inr rfl))
  | main => exact hnothing rfl (hp.main h)
  | owner | sent | reader =>
    obtain ⟨-, t, -, rfl⟩ := moves_eq_some h
    exact hnothing rfl (hp.quiet rfl rfl (.inl rfl))
  | sigpipe =>
    obtain ⟨i, -, rfl⟩ := step_sigpipe h
    exact hnothing rfl (hp.quiet rfl rfl (.inr rfl))
  | received r =>
    refine hnothing rfl ⟨[], ?_⟩
    rw [List.append_nil]
    exact hp.received h
  | byte => exact hnothing rfl (hp.byte h)
  | receiveFails =>
    obtain ⟨i, buffer, -, rfl⟩ := step_receiveFails h
    exact hnothing rfl (hp.fails (o := .receiveFails) rfl nofun)
  | device bytes =>
    have hsame := Option.some.inj h
    subst hsame
    refine ⟨[], ?_⟩
    rw [List.append_nil]
    exact hp.device

theorem Printed.run {as : List Action} (hp : p.Printed origins sent)
    (hrun : (program n).run p as = some q) :
    ∃ origins, q.Printed origins (sent ++ as.flatMap Action.bytes) := by
  induction as generalizing p origins sent with
  | nil =>
    have hsame := Option.some.inj hrun
    subst hsame
    exact ⟨origins, by simpa using hp⟩
  | cons a as ih =>
    obtain ⟨s, hs, hrest⟩ := (program n).run_cons_eq_some.mp hrun
    obtain ⟨more, hmore⟩ := hp.step hs
    obtain ⟨all, hall⟩ := ih hmore hrest
    exact ⟨all, by simpa using hall⟩

end Program

/-- In any run each line of a `versaoFirmware` is made of one record that `receive` took, or of a
failed call. The records end at their first 0x03, and they are pieces of what the board wrote, in
that order and apart from each other. A version is shown only where the record parses as one. -/
theorem printed_origin (config : TCPConfig) (n : ℕ) (as : List Action) (p : Program)
    (hrun : (program n).run (.start config) as = some p) :
    ∃ origins : List Origin, p.printed = origins.map Origin.line ∧
      (origins.flatMap Origin.bytes).Sublist (as.flatMap Action.bytes) ∧
      (∀ raw, .record raw ∈ origins → Terminated etx raw) ∧
      (∀ line ∈ p.printed, ∃ r, line = .ok r) ∧
      ∀ text, .ok (.ok text) ∈ p.printed → ∃ raw info rest, .record raw ∈ origins ∧
        parseFrame raw = some (DeviceController.answer info ++ rest) ∧
        text = DeviceController.format info := by
  have hstart : (Program.start config).Printed [] [] :=
    ⟨rfl, rfl, List.Sublist.refl _, by simp, by simp [Program.start, Place.buffer]⟩
  obtain ⟨origins, hp⟩ := hstart.run hrun
  rw [List.nil_append] at hp
  have hsublist := (List.sublist_append_left _ _).trans hp.sublist
  rw [hp.sent] at hsublist
  refine ⟨origins, hp.printed, hsublist, hp.terminated, ?_, ?_⟩
  · intro line hline
    rw [hp.printed] at hline
    obtain ⟨o, -, rfl⟩ := List.mem_map.mp hline
    exact Program.line_ok o.result
  · intro text htext
    rw [hp.printed] at htext
    obtain ⟨o, ho, hline⟩ := List.mem_map.mp htext
    obtain ⟨info, rest, hresult, rfl⟩ := Program.line_eq_text_iff.mp hline
    cases o with
    | record raw =>
      have hparsed := (MCBFrameVectorAwaiter.deliver_eq_ok_iff.mp hresult).1
      exact ⟨raw, info, rest, ho, hparsed, rfl⟩
    | sendFails => cases hresult
    | receiveFails => cases hresult

/-- Firmware 0.0.96, sent twice: what `read_loop` leaves of the two answers parses as 0.0.177. -/
def mixed : List Action :=
  let receives := [Action.main, .main, .byte]
  let reads (bytes : List UInt8) := [Action.reader, .reader, .reader, .received (.data bytes), .reader]
  List.flatten [[.connect ⟨true, true, true⟩], List.replicate 12 .owner, [.main, .main],
    List.replicate 4 .owner, [.sent 5, .owner, .main,
    .device [0x02, 0x04, 0x51, 0x00, 0x00, 0x60]], (List.replicate 5 receives).flatten,
    reads [0x60], [.device [0xB1]], receives, [.device [0x03]], reads [0x03],
    [.device [0x02]], receives, [.device [0x04, 0x51, 0x00, 0x00, 0x60, 0xB1]],
    reads [0x04, 0x51, 0x00, 0x00, 0x60, 0xB1], [.device [0x03]], receives]

theorem printed_origin_mixed :
    ∃ p, (program 1).run (.start ⟨"127.0.0.1", 3000⟩) mixed = some p ∧
      mixed.flatMap Action.bytes =
        buildFrame 0x51 [0x00, 0x00, 0x60] ++ buildFrame 0x51 [0x00, 0x00, 0x60] ∧
      p.printed = [.ok (.ok "v0.0.177")] ∧
      ∃ origins : List Origin, p.printed = origins.map Origin.line ∧
        (origins.flatMap Origin.bytes).Sublist (mixed.flatMap Action.bytes) ∧
        (∀ raw, .record raw ∈ origins → Terminated etx raw) ∧
        (∀ line ∈ p.printed, ∃ r, line = .ok r) ∧
        ∀ text, .ok (.ok text) ∈ p.printed → ∃ raw info rest, .record raw ∈ origins ∧
          parseFrame raw = some (DeviceController.answer info ++ rest) ∧
          text = DeviceController.format info := by
  have hlines : ((program 1).run (.start ⟨"127.0.0.1", 3000⟩) mixed).map Program.printed =
      some [.ok (.ok "v0.0.177")] := by decide +kernel
  obtain ⟨p, hrun, hprinted⟩ := Option.map_eq_some_iff.mp hlines
  exact ⟨p, hrun, by decide, hprinted, printed_origin ⟨"127.0.0.1", 3000⟩ 1 mixed p hrun⟩

end Spectrum.Tests
