import Spectrum.Foundation.Delimited
import Spectrum.Protocols.RoundTrip
import Spectrum.Transport.Network.Tcp

/-! The blocking reader `TCPTransport::receive`, one byte a `::recv`, which takes the first
0x03 for the end of a frame. -/
namespace Spectrum.Transport.Network
open Foundation Utils Protocols

/-- A transport with what the one-byte `::recv` calls of `receive` will give: a byte, or
`none` for a call that returns 0 or -1. Past the end of the list every call times out. -/
structure Link where
  impl : Impl
  incoming : List (Option UInt8)
  deriving DecidableEq, Repr

namespace Link

def receiveFailure : String := "TCPTransport::receive: erro ao receber byte ou conexão fechada"

/-- The loop of `receive`, with the bytes of the frame so far. The exception drops them. -/
def receiveLoop (buffer : List UInt8) :
    List (Option UInt8) → Except String (List UInt8) × List (Option UInt8)
  | [] => (.error receiveFailure, [])
  | none :: rest => (.error receiveFailure, rest)
  | some byte :: rest =>
    let buffer := buffer ++ [byte]
    if byte = etx then (.ok buffer, rest) else receiveLoop buffer rest

/-- `::recv` on descriptor -1 fails at once. -/
def receive (l : Link) : Except String (List UInt8) × Link :=
  match l.impl.sockfd with
  | none => (.error receiveFailure, l)
  | some _ => ((receiveLoop [] l.incoming).1, { l with incoming := (receiveLoop [] l.incoming).2 })

/-- `n` successive calls of `receive`. -/
def receives : ℕ → Link → List (Except String (List UInt8)) × Link
  | 0, l => ([], l)
  | n + 1, l => (l.receive.1 :: (receives n l.receive.2).1, (receives n l.receive.2).2)

/-- The outcome of a read at the delimiter, as `receive` reports it. -/
def outcome : Option (List UInt8) → Except String (List UInt8)
  | some record => .ok record
  | none => .error receiveFailure

theorem outcome_injective : Function.Injective outcome := by
  intro r r' h
  cases r <;> cases r' <;> simp_all [outcome]

/-- `receive` is a read at the delimiter ETX. -/
theorem receiveLoop_eq (buffer : List UInt8) (stream : List (Option UInt8)) :
    receiveLoop buffer stream =
      (outcome ((readRecord etx stream).1.map (buffer ++ ·)), (readRecord etx stream).2) := by
  induction stream generalizing buffer with
  | nil => rfl
  | cons item rest ih =>
    cases item with
    | none => rfl
    | some byte =>
      by_cases hb : byte = etx
      · simp [receiveLoop, readRecord, hb, outcome]
      · have hmap : ((readRecord etx rest).1.map (byte :: ·)).map (buffer ++ ·) =
            (readRecord etx rest).1.map ((buffer ++ [byte]) ++ ·) := by
          rw [Option.map_map]
          congr 1
          funext w
          simp
        simp only [receiveLoop, readRecord, if_neg hb, ih, hmap]

theorem receive_eq {l : Link} {fd : ℕ} (hfd : l.impl.sockfd = some fd) :
    l.receive = (outcome (readRecord etx l.incoming).1,
      { l with incoming := (readRecord etx l.incoming).2 }) := by
  simp only [receive, hfd, receiveLoop_eq, List.nil_append, Option.map_id']

theorem receives_eq {l : Link} {fd : ℕ} (hfd : l.impl.sockfd = some fd) (n : ℕ) :
    receives n l = ((readRecords etx n l.incoming).1.map outcome,
      { l with incoming := (readRecords etx n l.incoming).2 }) := by
  induction n generalizing l with
  | zero => rfl
  | succ n ih =>
    have hnext : ({ l with incoming := (readRecord etx l.incoming).2 } : Link).impl.sockfd =
        some fd := hfd
    simp only [receives, receive_eq hfd, ih hnext, readRecords, List.map_cons]

end Link

open MCBProtocol

theorem terminated_buildFrame_iff (cmd : UInt8) (payload : List UInt8) :
    Terminated etx (buildFrame cmd payload) ↔
      etx ∉ [UInt8.ofNat (1 + payload.length), cmd] ++ payload ++
        [UInt8.ofNat (cmd.toNat + (payload.map UInt8.toNat).sum)] := by
  have hframe : buildFrame cmd payload = (stx :: ([UInt8.ofNat (1 + payload.length), cmd] ++
      payload ++ [UInt8.ofNat (cmd.toNat + (payload.map UInt8.toNat).sum)])) ++ [etx] := by
    have hchk := calculateChecksum_eq_ofNat ⟨cmd⟩ payload
    simp only [buildFrame, Impl.buildFrame, hchk]
    simp
  have hne : etx ≠ stx := by decide
  rw [hframe, terminated_concat, List.mem_cons, not_or]
  exact and_iff_right hne

theorem ofNat_eq_etx_iff (n : ℕ) : UInt8.ofNat n = etx ↔ n % 256 = 3 := by
  rw [← UInt8.toNat_inj, UInt8.toNat_ofNat']
  rfl

/-- A frame to be sent to the board, with a length that its length byte can hold. -/
structure Packet where
  cmd : MCBCommand.Enumerator
  payload : List UInt8
  fits : payload.length ≤ 254
  deriving DecidableEq, Repr

def Packet.frame (f : Packet) : List UInt8 := buildFrame f.cmd.value f.payload

/-- No byte but the last is an ETX; no enumerator is. -/
def Packet.Clean (f : Packet) : Prop :=
  f.payload.length ≠ 2 ∧ 0x03 ∉ f.payload ∧
    (f.cmd.value.toNat + (f.payload.map UInt8.toNat).sum) % 256 ≠ 3

theorem Packet.terminated_iff (f : Packet) : Terminated etx f.frame ↔ f.Clean := by
  have hlen : etx = UInt8.ofNat (1 + f.payload.length) ↔ f.payload.length = 2 := by
    have hfits := f.fits
    rw [eq_comm, ofNat_eq_etx_iff]
    omega
  have hcmd : etx ≠ f.cmd.value := by cases f.cmd <;> decide
  have hchk : etx = UInt8.ofNat (f.cmd.value.toNat + (f.payload.map UInt8.toNat).sum) ↔
      (f.cmd.value.toNat + (f.payload.map UInt8.toNat).sum) % 256 = 3 := by
    rw [eq_comm, ofNat_eq_etx_iff]
  rw [Packet.frame, terminated_buildFrame_iff]
  simp only [List.mem_append, List.mem_cons, List.not_mem_nil, or_false, hlen, hcmd, hchk, not_or,
    Clean]
  constructor
  · intro h
    obtain ⟨⟨hl, hp⟩, hc⟩ := h
    exact ⟨hl, hp, hc⟩
  · intro h
    obtain ⟨hl, hp, hc⟩ := h
    exact ⟨⟨hl, hp⟩, hc⟩

/-- Frames written back to back come back one a call exactly when each of them is clean. -/
theorem receives_frames_iff (l : Link) (frames : List Packet) (rest : List (Option UInt8))
    (fd : ℕ) (hfd : l.impl.sockfd = some fd)
    (hwritten : l.incoming = (frames.map Packet.frame).flatten.map some ++ rest) :
    (Link.receives frames.length l).1 = frames.map (.ok ·.frame) ↔ ∀ f ∈ frames, f.Clean := by
  have hok : frames.map (fun f => (.ok f.frame : Except String (List UInt8))) =
      ((frames.map Packet.frame).map some).map Link.outcome := by
    rw [List.map_map, List.map_map]
    rfl
  have hlength : frames.length = (frames.map Packet.frame).length := by simp
  rw [Link.receives_eq hfd, hok, List.map_inj_right Link.outcome_injective, hwritten, hlength,
    readRecords_flatten_iff, List.forall_mem_map]
  exact forall₂_congr fun f _ => f.terminated_iff

theorem receives_frames_firmware :
    let frames : List Packet :=
      [⟨.readFirmware, [1, 2, 4], by decide⟩, ⟨.readStatus, [], by decide⟩]
    let l : Link := ⟨.online ⟨"127.0.0.1", 3001⟩,
      (frames.map Packet.frame).flatten.map some ++ [none]⟩
    (Link.receives 2 l).1 = frames.map (.ok ·.frame) ↔ ∀ f ∈ frames, f.Clean :=
  receives_frames_iff _ [⟨.readFirmware, [1, 2, 4], by decide⟩, ⟨.readStatus, [], by decide⟩]
    [none] 0 rfl rfl

/-- A data byte 0x03 cuts the frame, and the next read starts in its middle. -/
theorem receives_cut :
    let f : Packet := ⟨.readFirmware, [0x01, 0x03, 0x05], by decide⟩
    let l : Link := ⟨.online ⟨"127.0.0.1", 3001⟩, (f.frame ++ f.frame).map some⟩
    (Link.receives 2 l).1 = [.ok [0x02, 0x04, 0x51, 0x01, 0x03], .ok [0x05, 0x5A, 0x03]] ∧
      (Link.receives 2 l).1 ≠ [.ok f.frame, .ok f.frame] := by
  decide

/-- After a timeout inside a record, the next call returns what it would have returned without
the timeout exactly when the timeout came before the first byte, or the next call fails too. -/
theorem receive_after_timeout_iff (l : Link) (fd : ℕ) (hfd : l.impl.sockfd = some fd)
    (consumed : List UInt8) (rest : List (Option UInt8)) (hetx : etx ∉ consumed)
    (hincoming : l.incoming = consumed.map some ++ none :: rest) :
    l.receive.2.receive.1 =
        ({ l with incoming := consumed.map some ++ rest } : Link).receive.1 ↔
      consumed = [] ∨ some etx ∉ rest.takeWhile Option.isSome := by
  have hfailed : l.receive = (.error Link.receiveFailure, { l with incoming := rest }) := by
    rw [Link.receive_eq hfd, hincoming, readRecord_interrupted hetx]
    rfl
  have hcall (incoming : List (Option UInt8)) : ({ l with incoming := incoming } : Link).receive.1 =
      Link.outcome (readRecord etx incoming).1 :=
    congrArg Prod.fst (Link.receive_eq (l := { l with incoming := incoming }) hfd)
  rw [hfailed, hcall, hcall, Link.outcome_injective.eq_iff, readRecord_interrupted_iff hetx]

theorem receive_after_timeout_first :
    let l : Link := ⟨.online ⟨"127.0.0.1", 3001⟩, none :: (buildFrame 0x51 [1, 2, 4]).map some⟩
    l.receive.2.receive.1 =
        ({ l with incoming := (buildFrame 0x51 [1, 2, 4]).map some } : Link).receive.1 ↔
      ([] : List UInt8) = [] ∨
        some etx ∉ ((buildFrame 0x51 [1, 2, 4]).map some).takeWhile Option.isSome :=
  receive_after_timeout_iff ⟨.online ⟨"127.0.0.1", 3001⟩,
    none :: (buildFrame 0x51 [1, 2, 4]).map some⟩ 0 rfl [] _ (by decide) rfl

/-- A timeout behind the third byte of an answer takes the three bytes with it. -/
theorem receive_after_timeout_torn :
    let l : Link := ⟨.online ⟨"127.0.0.1", 3001⟩,
      [some 0x02, some 0x02, some 0x51, none, some 0x05, some 0x56, some 0x03]⟩
    l.receive.1 = .error Link.receiveFailure ∧
      l.receive.2.receive.1 = .ok [0x05, 0x56, 0x03] ∧
      ({ l with incoming := (buildFrame 0x51 [0x05]).map some } : Link).receive.1 =
        .ok (buildFrame 0x51 [0x05]) ∧
      l.receive.2.receive.1 ≠ .ok (buildFrame 0x51 [0x05]) := by
  decide

end Spectrum.Transport.Network
