import Spectrum.Transport.Network.Receive

/-! The awaiters between the controller and the transport (`receiver/mcb`): a frame is
received, parsed, split into a command and data, and joined again. -/
namespace Spectrum.Receiver
open Protocols Transport.Network

namespace MCBFrameAwaiter

def parseFailure : String := "MCBFrameAwaiter: falha ao parsear frame"

/-- What `waitForFrame` makes of the bytes received: the first byte of the data is put into
the field for the command. -/
def decode (raw : List UInt8) : Except String MCBFrame :=
  match MCBProtocol.parseFrame raw with
  | none => .error parseFailure
  | some data =>
    if data.isEmpty then .error parseFailure
    else if data.length < 1 then .error "MCBFrameAwaiter: frame inválido, sem comando"
    else .ok ⟨⟨data.getD 0 0⟩, data.drop 1⟩

def waitForFrame (l : Link) : Except String MCBFrame × Link :=
  (l.receive.1.bind decode, l.receive.2)

/-- On a buffer that the parser accepts: the command is lost, and the data with it or without its
first byte. -/
theorem decode_of_parseFrame {raw : List UInt8} {f : MCBFrame}
    (hf : MCBProtocol.Impl.parseFrame raw = some f) :
    decode raw =
      if f.data = [] then .error parseFailure else .ok ⟨⟨f.data.getD 0 0⟩, f.data.drop 1⟩ := by
  cases hdata : f.data with
  | nil => simp [decode, MCBProtocol.parseFrame, hf, hdata]
  | cons b data => simp [decode, MCBProtocol.parseFrame, hf, hdata]

/-- The frame that arrived is what is reported, and only a rejected buffer is an error. -/
def Reports (l : Link) (raw : List UInt8) : Prop :=
  (∀ f, MCBProtocol.Impl.parseFrame raw = some f → (waitForFrame l).1 = .ok f) ∧
    ∀ error, (waitForFrame l).1 = .error error → MCBProtocol.Impl.parseFrame raw = none

/-- No frame that arrives is reported as it is: without data it is an error, and with data the
report is one byte short. -/
theorem reports_iff (l : Link) (raw : List UInt8) (hraw : l.receive.1 = .ok raw) :
    Reports l raw ↔ MCBProtocol.Impl.parseFrame raw = none := by
  have hwait : (waitForFrame l).1 = decode raw := by
    rw [waitForFrame, hraw]
    rfl
  unfold Reports
  rw [hwait]
  cases hf : MCBProtocol.Impl.parseFrame raw with
  | none => simp
  | some f =>
    refine iff_of_false ?_ (by simp)
    intro h
    have hreport : decode raw = .ok f := h.1 f rfl
    rw [decode_of_parseFrame hf] at hreport
    split at hreport
    · cases hreport
    · next hne =>
      have hshort : f.data.drop 1 = f.data := congrArg MCBFrame.data (Except.ok.inj hreport)
      have hlen := congrArg List.length hshort
      have hpos := List.length_pos_iff.mpr hne
      rw [List.length_drop] at hlen
      omega

/-- The firmware version 1.2.4 is reported as command 0x01 with data 2, 4. -/
theorem not_reports_firmware :
    let l : Link := ⟨.online ⟨"127.0.0.1", 3001⟩,
      (MCBProtocol.buildFrame 0x51 [1, 2, 4]).map some⟩
    MCBProtocol.Impl.parseFrame (MCBProtocol.buildFrame 0x51 [1, 2, 4]) =
        some ⟨⟨0x51⟩, [1, 2, 4]⟩ ∧
      l.receive.1 = .ok (MCBProtocol.buildFrame 0x51 [1, 2, 4]) ∧
      (waitForFrame l).1 = .ok ⟨⟨0x01⟩, [2, 4]⟩ ∧
      ¬ Reports l (MCBProtocol.buildFrame 0x51 [1, 2, 4]) := by
  refine ⟨by decide, by decide, by decide, ?_⟩
  intro h
  have hreport := h.1 ⟨⟨0x51⟩, [1, 2, 4]⟩ (by decide)
  exact absurd hreport (by decide)

theorem reports_iff_acknowledgement :
    let l : Link := ⟨.online ⟨"127.0.0.1", 3001⟩, (MCBProtocol.buildFrame 0x52 []).map some⟩
    Reports l (MCBProtocol.buildFrame 0x52 []) ↔
      MCBProtocol.Impl.parseFrame (MCBProtocol.buildFrame 0x52 []) = none :=
  reports_iff ⟨.online ⟨"127.0.0.1", 3001⟩, (MCBProtocol.buildFrame 0x52 []).map some⟩ _
    (by decide)

end MCBFrameAwaiter

namespace MCBFrameVectorAwaiter

def join (frame : MCBFrame) : List UInt8 := [frame.command.value] ++ frame.data

def waitForFrame (l : Link) : Except String (List UInt8) × Link :=
  ((MCBFrameAwaiter.waitForFrame l).1.map join, (MCBFrameAwaiter.waitForFrame l).2)

/-- The bytes given to the controller for the bytes received. -/
def deliver (raw : List UInt8) : Except String (List UInt8) :=
  (MCBFrameAwaiter.decode raw).map join

theorem deliver_eq (raw : List UInt8) : deliver raw =
    match MCBProtocol.parseFrame raw with
    | some (b :: data) => .ok (b :: data)
    | _ => .error MCBFrameAwaiter.parseFailure := by
  cases h : MCBProtocol.parseFrame raw with
  | none => simp [deliver, MCBFrameAwaiter.decode, h, Except.map]
  | some data => cases data <;> simp [deliver, MCBFrameAwaiter.decode, h, Except.map, join]

theorem deliver_eq_ok_iff {raw out : List UInt8} :
    deliver raw = .ok out ↔ MCBProtocol.parseFrame raw = some out ∧ out ≠ [] := by
  rw [deliver_eq]
  cases h : MCBProtocol.parseFrame raw with
  | none => simp
  | some data =>
    cases data with
    | nil => simp
    | cons b data =>
      simp only [Except.ok.injEq, Option.some.injEq]
      constructor
      · intro hout
        have hne : out ≠ [] := by
          rw [← hout]
          exact List.cons_ne_nil b data
        exact ⟨hout, hne⟩
      · intro hout
        exact hout.1

theorem waitForFrame_eq (l : Link) :
    waitForFrame l = (l.receive.1.bind deliver, l.receive.2) := by
  unfold waitForFrame MCBFrameAwaiter.waitForFrame
  cases l.receive.1 <;> rfl

end MCBFrameVectorAwaiter

end Spectrum.Receiver
