import Mathlib.Logic.Function.Basic
import Spectrum.Controller.Outgoing
import Spectrum.Tests.Stream

/-! `sendMcb` in `main` of `tests/test_all_commands.cpp`: the thread that polls the board and the
menu call it on one transport, and nothing keeps the `::send` calls of one frame together. One
`::send` puts what it accepts on the stream in one piece. The class that builds the frames is not in
the repository, so it is a parameter. -/
namespace Spectrum.Tests
open Foundation Utils Protocols MCBProtocol Transport.Network

inductive Sender
  | poller | menu
  deriving DecidableEq, Repr

def Sender.other : Sender → Sender
  | .poller => .menu
  | .menu => .poller

theorem Sender.other_ne (c : Sender) : c.other ≠ c := by cases c <;> decide

/-- `mcb::protocols::MCBProtocol`, of which only the call of `buildFrame` is in the repository. -/
structure McbProtocol where
  buildFrame : UInt8 → List UInt8 → List UInt8

/-- The local variables of a `TCPTransport::send` in its loop. -/
structure Sending where
  data : List UInt8
  totalSent : ℕ
  deriving DecidableEq, Repr

/-- The transport, the `send` that each thread is in, and the frames of the calls that returned. -/
structure Senders where
  impl : Impl
  place : Sender → Option Sending
  returned : List (List UInt8 × Bool)

/-- A thread calls `sendMcb`, or its next `::send` returns. -/
inductive SendStep
  | sendMcb (c : Sender) (cmd : UInt8) (payload : List UInt8)
  | send (c : Sender) (sent : ℤ)
  deriving DecidableEq, Repr

namespace Senders

def start (impl : Impl) : Senders := ⟨impl, fun _ => none, []⟩

/-- Thread `c` is now in this `send`, or in none. -/
def moves (s : Senders) (c : Sender) (p : Option Sending) : Senders :=
  { s with place := Function.update s.place c p }

def returns (s : Senders) (c : Sender) (frame : List UInt8) (sent : Bool) : Senders :=
  { s.moves c none with returned := s.returned ++ [(frame, sent)] }

def logCode (s : Senders) (code : ErrorCode) : Senders := { s with impl := s.impl.logCode code }

/-- One `::send` has accepted these bytes. -/
def wrote (s : Senders) (fd : ℕ) (chunk : List UInt8) : Senders :=
  { s with impl := { s.impl with wire := s.impl.wire ++ [(fd, chunk)] } }

/-- The test of the loop: it goes on, or `send` returns true. -/
def loop (s : Senders) (c : Sender) (data : List UInt8) (totalSent : ℕ) : Senders :=
  if totalSent < data.length then s.moves c (some ⟨data, totalSent⟩) else s.returns c data true

def step (mcbProt : McbProtocol) (s : Senders) : SendStep → Option Senders
  | .sendMcb c cmd payload =>
    match s.place c with
    | some _ => none
    | none =>
      let frame := mcbProt.buildFrame cmd payload
      match s.impl.status, s.impl.sockfd with
      | .connected, some _ => some (s.loop c frame 0)
      | _, _ => some ((s.logCode .tcpConnectionFailure).returns c frame false)
  | .send c sent =>
    match s.place c, s.impl.sockfd with
    | some ⟨data, totalSent⟩, some fd =>
      if sent ≤ 0 then some ((s.logCode .tcpDataSendFailure).returns c data false)
      else
        let s := s.wrote fd ((data.drop totalSent).take sent.toNat)
        some (s.loop c data (totalSent + sent.toNat))
    | _, _ => none

end Senders

def senders (mcbProt : McbProtocol) : System Senders SendStep := ⟨Senders.step mcbProt⟩

namespace Senders

variable {mcbProt : McbProtocol}

@[simp] theorem moves_place_self (s : Senders) (c : Sender) (p : Option Sending) :
    (s.moves c p).place c = p := by
  unfold moves
  exact Function.update_self ..

@[simp] theorem returns_place_self (s : Senders) (c : Sender) (frame : List UInt8) (sent : Bool) :
    (s.returns c frame sent).place c = none := s.moves_place_self c none

theorem moves_place_of_ne (s : Senders) {c d : Sender} (hd : d ≠ c) (p : Option Sending) :
    (s.moves c p).place d = s.place d := by
  unfold moves
  exact Function.update_of_ne hd ..

theorem step_send {s t : Senders} {c : Sender} {sent : ℤ}
    (h : (senders mcbProt).step s (.send c sent) = some t) :
    ∃ data totalSent fd, s.place c = some ⟨data, totalSent⟩ ∧ s.impl.sockfd = some fd ∧
      ((sent ≤ 0 ∧ t = (s.logCode .tcpDataSendFailure).returns c data false) ∨
      (0 < sent ∧ t = (s.wrote fd ((data.drop totalSent).take sent.toNat)).loop c data
        (totalSent + sent.toNat))) := by
  simp only [senders, step] at h
  split at h
  · next data totalSent fd hplace hfd =>
    refine ⟨data, totalSent, fd, hplace, hfd, ?_⟩
    split at h
    · next hfail =>
      left
      exact ⟨hfail, (Option.some.inj h).symm⟩
    · next hpos =>
      right
      exact ⟨Int.not_le.mp hpos, (Option.some.inj h).symm⟩
  · cases h

theorem step_sendMcb {s t : Senders} {c : Sender} {cmd : UInt8} {payload : List UInt8}
    (hup : s.impl.status = .connected ∧ s.impl.sockfd ≠ none)
    (h : (senders mcbProt).step s (.sendMcb c cmd payload) = some t) :
    s.place c = none ∧ t = s.loop c (mcbProt.buildFrame cmd payload) 0 := by
  obtain ⟨hstatus, hopen⟩ := hup
  obtain ⟨fd, hfd⟩ := Option.ne_none_iff_exists'.mp hopen
  simp only [senders, step] at h
  split at h
  · cases h
  · next hplace =>
    rw [hstatus, hfd] at h
    exact ⟨hplace, (Option.some.inj h).symm⟩

theorem run_over {s t : Senders} {c : Sender} {results : List ℤ} (hplace : s.place c = none)
    (hrun : (senders mcbProt).run s (results.map (.send c)) = some t) : results = [] ∧ s = t := by
  cases results with
  | nil => exact ⟨rfl, Option.some.inj hrun⟩
  | cons sent results =>
    obtain ⟨m, hm, -⟩ := (senders mcbProt).run_cons_eq_some.mp hrun
    obtain ⟨data, totalSent, fd, hsome, -⟩ := step_send hm
    cases hplace.symm.trans hsome

/-- The loop of a thread that is left alone is the loop of `TCPTransport::send`. -/
theorem run_loop {s t : Senders} {c : Sender} {data : List UInt8} {totalSent fd : ℕ}
    {results : List ℤ} (hfd : s.impl.sockfd = some fd)
    (hrun : (senders mcbProt).run (s.loop c data totalSent) (results.map (.send c)) = some t)
    (hidle : t.place c = none) :
    ∃ ok chunks, Impl.sendLoop data totalSent results = some (ok, chunks) ∧
      t.returned = s.returned ++ [(data, ok)] ∧
      t.impl.wire = s.impl.wire ++ chunks.map (fd, ·) := by
  induction results generalizing s totalSent with
  | nil =>
    have hsame := Option.some.inj hrun
    by_cases hmore : totalSent < data.length
    · rw [← hsame, loop, if_pos hmore, moves_place_self] at hidle
      cases hidle
    · rw [loop, if_neg hmore] at hsame
      refine ⟨true, [], ?_, ?_, ?_⟩
      · simp only [Impl.sendLoop, if_neg hmore]
      · rw [← hsame]
        rfl
      · rw [← hsame]
        exact (List.append_nil _).symm
  | cons sent results ih =>
    by_cases hmore : totalSent < data.length
    · rw [loop, if_pos hmore] at hrun
      obtain ⟨m, hm, hrest⟩ := (senders mcbProt).run_cons_eq_some.mp hrun
      obtain ⟨data', totalSent', fd', hplace, hfd', hcases⟩ := step_send hm
      rw [moves_place_self] at hplace
      obtain ⟨rfl, rfl⟩ := Sending.mk.inj (Option.some.inj hplace)
      obtain rfl := Option.some.inj (hfd.symm.trans hfd')
      rcases hcases with ⟨hfail, rfl⟩ | ⟨hpos, rfl⟩
      · obtain ⟨rfl, rfl⟩ := run_over (returns_place_self _ c data false) hrest
        refine ⟨false, [], ?_, rfl, (List.append_nil _).symm⟩
        simp only [Impl.sendLoop, if_pos hmore, if_pos hfail]
      · have hnot : ¬ sent ≤ 0 := by omega
        obtain ⟨ok, chunks, hloop, hreturned, hwire⟩ :=
          ih (s := (s.moves c _).wrote fd ((data.drop totalSent).take sent.toNat)) hfd hrest
        refine ⟨ok, (data.drop totalSent).take sent.toNat :: chunks, ?_, hreturned, ?_⟩
        · simp only [Impl.sendLoop, if_pos hmore, if_neg hnot]
          rw [hloop]
          rfl
        · rw [hwire, List.map_cons]
          apply List.append_assoc
    · rw [loop, if_neg hmore] at hrun
      obtain ⟨hnil, -⟩ := run_over (returns_place_self s c data true) hrun
      cases hnil

/-- A `sendMcb` that no other thread gets into is one `TCPTransport::send`. -/
theorem run_alone {s t : Senders} {c : Sender} {cmd : UInt8} {payload : List UInt8}
    {results : List ℤ} (hup : s.impl.status = .connected ∧ s.impl.sockfd ≠ none)
    (hrun : (senders mcbProt).run s (.sendMcb c cmd payload :: results.map (.send c)) = some t)
    (hidle : t.place c = none) :
    ∃ ok impl, s.impl.send (mcbProt.buildFrame cmd payload) results = some (ok, impl) ∧
      t.returned = s.returned ++ [(mcbProt.buildFrame cmd payload, ok)] ∧
      t.impl.wire = impl.wire := by
  obtain ⟨m, hm, hrest⟩ := (senders mcbProt).run_cons_eq_some.mp hrun
  obtain ⟨-, rfl⟩ := step_sendMcb hup hm
  obtain ⟨hstatus, hopen⟩ := hup
  obtain ⟨fd, hfd⟩ := Option.ne_none_iff_exists'.mp hopen
  obtain ⟨ok, chunks, hloop, hreturned, hwire⟩ := run_loop hfd hrest hidle
  have hsend : s.impl.send (mcbProt.buildFrame cmd payload) results = some (ok,
      let sent := { s.impl with wire := s.impl.wire ++ chunks.map (fd, ·) }
      if ok then sent else sent.logCode .tcpDataSendFailure) := by
    simp only [Impl.send, hstatus, hfd, hloop, Option.map_some]
  refine ⟨ok, _, hsend, hreturned, ?_⟩
  cases ok <;> exact hwire

/-- What a thread has written of the frame it is in. -/
def part (s : Senders) (c : Sender) : List UInt8 :=
  match s.place c with
  | some ⟨data, totalSent⟩ => data.take totalSent
  | none => []

def frames (s : Senders) : List (List UInt8) := s.returned.map (·.1)

end Senders

/-- STX in front, ETX at the end, a length byte that is right, a command, and no STX behind the
first byte. -/
structure ClearFrame (frame : List UInt8) : Prop where
  delimited : Delimited frame
  min : mcbMinFrameSize ≤ frame.length
  clear : stx ∉ frame.tail

namespace ClearFrame

variable {frame frame' : List UInt8}

theorem five_le (h : ClearFrame frame) : 5 ≤ frame.length := h.min

theorem length_eq (h : ClearFrame frame) (h' : ClearFrame frame')
    (hbyte : frame.getD 1 0 = frame'.getD 1 0) : frame.length = frame'.length := by
  obtain ⟨-, -, hsize⟩ := h.delimited
  obtain ⟨-, -, hsize'⟩ := h'.delimited
  rw [hsize, hsize', hbyte]

theorem append_inj {rest rest' : List UInt8} (h : ClearFrame frame) (h' : ClearFrame frame')
    (hsame : frame ++ rest = frame' ++ rest') : frame = frame' ∧ rest = rest' := by
  have hfive := h.five_le
  have hfive' := h'.five_le
  have hleft := List.getD_append frame rest 0 1 (by omega)
  have hright := List.getD_append frame' rest' 0 1 (by omega)
  rw [hsame, hright] at hleft
  have hlength := h.length_eq h' hleft.symm
  exact List.append_inj hsame hlength

/-- Inside a clear frame no other one starts. -/
theorem not_inside {rest rest' : List UInt8} {n : ℕ} (h : ClearFrame frame)
    (h' : ClearFrame frame') (hpos : 0 < n) (hn : n < frame'.length)
    (hsame : frame ++ rest = frame'.take n ++ stx :: rest') : False := by
  have hlen : (frame'.take n).length = n := List.length_take_of_le hn.le
  by_cases hinside : n < frame.length
  · have hget : frame[n]? = some stx := by
      rw [← List.getElem?_append_left hinside, hsame,
        List.getElem?_append_right (by omega), hlen, Nat.sub_self]
      rfl
    have htail : frame.tail[n - 1]? = some stx := by
      rw [List.getElem?_tail, Nat.sub_add_cancel hpos, hget]
    exact h.clear (List.mem_of_getElem? htail)
  · have hfive := h.five_le
    have hbyte : frame.getD 1 0 = frame'.getD 1 0 := by
      have hleft := List.getD_append frame rest 0 1 (by omega)
      have hright := List.getD_append (frame'.take n) (stx :: rest') 0 1 (by omega)
      rw [← hleft, hsame, hright, List.getD_eq_getElem?_getD, List.getD_eq_getElem?_getD,
        List.getElem?_take_of_lt (by omega)]
    have hlength := h.length_eq h' hbyte
    omega

theorem flatten_ne {done frames : List (List UInt8)} {rest : List UInt8} {n : ℕ}
    (hdone : ∀ f ∈ done, ClearFrame f) (hframes : ∀ f ∈ frames, ClearFrame f)
    (h : ClearFrame frame) (hpos : 0 < n) (hn : n < frame.length) :
    done.flatten ++ (frame.take n ++ stx :: rest) ≠ frames.flatten := by
  intro hsame
  induction done generalizing frames with
  | nil =>
    cases frames with
    | nil =>
      have hlen := congrArg List.length hsame
      simp at hlen
    | cons f frames =>
      obtain ⟨hf, -⟩ := List.forall_mem_cons.mp hframes
      exact hf.not_inside h hpos hn hsame.symm
  | cons d done ih =>
    obtain ⟨hd, hdone⟩ := List.forall_mem_cons.mp hdone
    rw [List.flatten_cons, List.append_assoc] at hsame
    cases frames with
    | nil =>
      have hlen := congrArg List.length hsame
      have hfive := hd.five_le
      rw [List.length_append, List.flatten_nil, List.length_nil] at hlen
      omega
    | cons f frames =>
      obtain ⟨hf, hframes⟩ := List.forall_mem_cons.mp hframes
      obtain ⟨-, hrest⟩ := hd.append_inj hf hsame
      exact ih hdone hframes hrest

end ClearFrame

namespace SendStep

/-- The frame is a clear one. -/
def Clear (mcbProt : McbProtocol) : SendStep → Prop
  | .sendMcb _ cmd payload => ClearFrame (mcbProt.buildFrame cmd payload)
  | .send _ _ => True

/-- `::send` does not fail. -/
def Accepted : SendStep → Prop
  | .sendMcb _ _ _ => True
  | .send _ sent => 0 < sent

end SendStep

namespace Senders

/-- A thread does not write while the other one is inside a frame. -/
def Exclusive (s : Senders) : SendStep → Prop
  | .sendMcb _ _ _ => True
  | .send c _ => s.part c.other = []

instance (s : Senders) : DecidablePred s.Exclusive := fun e =>
  match e with
  | .sendMcb _ _ _ => isTrue trivial
  | .send c _ => inferInstanceAs (Decidable (s.part c.other = []))

/-- What holds on a connection whose `::send` calls do not fail. -/
structure Connected (fd : ℕ) (s : Senders) : Prop where
  status : s.impl.status = .connected
  sockfd : s.impl.sockfd = some fd
  place : ∀ c data totalSent, s.place c = some ⟨data, totalSent⟩ →
    ClearFrame data ∧ totalSent < data.length
  returned : ∀ r ∈ s.returned, r.2 = true ∧ ClearFrame r.1

/-- What an accepted `::send` of thread `c` does: bytes of its frame go out, and it may return. -/
structure Sends (fd : ℕ) (s t : Senders) (c : Sender) (chunk : List UInt8) : Prop where
  sentOn : t.impl.sentOn fd = s.impl.sentOn fd ++ chunk
  other : t.place c.other = s.place c.other
  first : s.part c = [] → chunk.head? = some stx
  goes : (t.returned = s.returned ∧ t.part c = s.part c ++ chunk) ∨
    (t.frames = s.frames ++ [s.part c ++ chunk] ∧ t.part c = [])

theorem part_of_place {s : Senders} {c : Sender} {data : List UInt8} {totalSent : ℕ}
    (h : s.place c = some ⟨data, totalSent⟩) : s.part c = data.take totalSent := by
  simp only [part, h]

theorem part_of_none {s : Senders} {c : Sender} (h : s.place c = none) : s.part c = [] := by
  simp only [part, h]

theorem part_congr {s t : Senders} {c : Sender} (h : t.place c = s.place c) :
    t.part c = s.part c := by
  simp only [part, h]

theorem wrote_sentOn (s : Senders) (fd : ℕ) (chunk : List UInt8) :
    (s.wrote fd chunk).impl.sentOn fd = s.impl.sentOn fd ++ chunk := by
  have hadded : (s.wrote fd chunk).impl.wire = s.impl.wire ++ [chunk].map (fd, ·) := rfl
  simpa using Impl.sentOn_append hadded

namespace Connected

variable {fd : ℕ} {s : Senders}

theorem wrote (hs : s.Connected fd) (chunk : List UInt8) : (s.wrote fd chunk).Connected fd :=
  ⟨hs.status, hs.sockfd, hs.place, hs.returned⟩

theorem moves (hs : s.Connected fd) (c : Sender) {p : Option Sending}
    (hp : ∀ data totalSent, p = some ⟨data, totalSent⟩ →
      ClearFrame data ∧ totalSent < data.length) : (s.moves c p).Connected fd := by
  refine ⟨hs.status, hs.sockfd, ?_, hs.returned⟩
  intro d data totalSent hd
  by_cases hdc : d = c
  · rw [hdc, moves_place_self] at hd
    exact hp data totalSent hd
  · rw [moves_place_of_ne _ hdc] at hd
    exact hs.place d data totalSent hd

theorem returns (hs : s.Connected fd) (c : Sender) {frame : List UInt8}
    (hframe : ClearFrame frame) : (s.returns c frame true).Connected fd := by
  have hleft : (s.moves c none).Connected fd := hs.moves c nofun
  refine ⟨hleft.status, hleft.sockfd, hleft.place, ?_⟩
  intro r hr
  rcases List.mem_append.mp hr with hold | hnew
  · exact hs.returned r hold
  · rw [List.mem_singleton.mp hnew]
    exact ⟨rfl, hframe⟩

end Connected

theorem Connected.sends {fd : ℕ} {s t : Senders} {c : Sender} {sent : ℤ} (hs : s.Connected fd)
    (hpos : 0 < sent) (h : (senders mcbProt).step s (.send c sent) = some t) :
    t.Connected fd ∧ ∃ chunk, s.Sends fd t c chunk := by
  obtain ⟨data, totalSent, fd', hplace, hfd, hcases⟩ := step_send h
  obtain rfl := Option.some.inj (hs.sockfd.symm.trans hfd)
  obtain ⟨hclear, hless⟩ := hs.place c data totalSent hplace
  have hpart := part_of_place hplace
  have hsent := s.wrote_sentOn fd ((data.drop totalSent).take sent.toNat)
  have hwrote := hs.wrote ((data.drop totalSent).take sent.toNat)
  have hfirst (hnone : s.part c = []) :
      ((data.drop totalSent).take sent.toNat).head? = some stx := by
    have hzero : totalSent = 0 := by
      have hlen := congrArg List.length (hpart.symm.trans hnone)
      rw [List.length_take, List.length_nil] at hlen
      omega
    have hn : sent.toNat ≠ 0 := by omega
    rw [hzero, List.drop_zero, List.head?_take, if_neg hn]
    exact hclear.delimited.1
  have hnext : s.part c ++ (data.drop totalSent).take sent.toNat =
      data.take (totalSent + sent.toNat) := by
    rw [hpart, List.take_add]
  rcases hcases with ⟨hfail, -⟩ | ⟨-, rfl⟩
  · omega
  · by_cases hmore : totalSent + sent.toNat < data.length
    · rw [loop, if_pos hmore]
      refine ⟨hwrote.moves c ?_, _, hsent, ?_, hfirst, .inl ⟨rfl, ?_⟩⟩
      · intro data' totalSent' hsome
        obtain ⟨rfl, rfl⟩ := Sending.mk.inj (Option.some.inj hsome)
        exact ⟨hclear, hmore⟩
      · exact moves_place_of_ne _ c.other_ne _
      · rw [hnext]
        exact part_of_place (moves_place_self _ c _)
    · have hwhole : data.take (totalSent + sent.toNat) = data :=
        List.take_of_length_le (not_lt.mp hmore)
      rw [loop, if_neg hmore]
      refine ⟨hwrote.returns c hclear, _, hsent, ?_, hfirst, .inr ⟨?_, ?_⟩⟩
      · exact moves_place_of_ne (s.wrote fd _) c.other_ne none
      · rw [hnext, hwhole]
        exact List.map_append
      · exact part_of_none (returns_place_self _ c data true)

theorem Connected.begins {fd : ℕ} {s t : Senders} {c : Sender} {cmd : UInt8}
    {payload : List UInt8} (hs : s.Connected fd)
    (hclear : (SendStep.sendMcb c cmd payload).Clear mcbProt)
    (h : (senders mcbProt).step s (.sendMcb c cmd payload) = some t) :
    t.Connected fd ∧ t.impl = s.impl ∧ t.returned = s.returned ∧ ∀ d, t.part d = s.part d := by
  have hopen : s.impl.sockfd ≠ none := by simp [hs.sockfd]
  obtain ⟨hnone, rfl⟩ := step_sendMcb ⟨hs.status, hopen⟩ h
  have hframe : ClearFrame (mcbProt.buildFrame cmd payload) := hclear
  have hpos : 0 < (mcbProt.buildFrame cmd payload).length := by
    have hfive := hframe.five_le
    omega
  rw [loop, if_pos hpos]
  refine ⟨hs.moves c ?_, rfl, rfl, fun d => ?_⟩
  · intro data totalSent hsome
    obtain ⟨rfl, rfl⟩ := Sending.mk.inj (Option.some.inj hsome)
    exact ⟨hframe, hpos⟩
  · by_cases hdc : d = c
    · rw [hdc, part_of_none hnone, part_of_place (moves_place_self _ c _), List.take_zero]
    · exact part_congr (moves_place_of_ne _ hdc _)

/-- The frames have gone out one behind the other, and one thread at most is inside one. -/
structure Apart (base : List UInt8) (fd : ℕ) (s : Senders) : Prop where
  connected : s.Connected fd
  alone : s.part .poller = [] ∨ s.part .menu = []
  sentOn : s.impl.sentOn fd = base ++ (s.frames.flatten ++ (s.part .poller ++ s.part .menu))

/-- Behind some of the frames that went out, an STX was written inside another one. -/
structure Mixed (base : List UInt8) (fd : ℕ) (s : Senders) : Prop where
  connected : s.Connected fd
  length : (s.impl.sentOn fd).length = base.length + (s.frames.flatten.length +
    ((s.part .poller).length + (s.part .menu).length))
  inside : ∃ done frame n rest, done <+: s.frames ∧ ClearFrame frame ∧ 0 < n ∧
    n < frame.length ∧
    s.impl.sentOn fd = base ++ (done.flatten ++ (frame.take n ++ stx :: rest))

theorem parts_of_alone {s : Senders} {c : Sender} (h : s.part c.other = []) :
    s.part .poller ++ s.part .menu = s.part c := by
  cases c with
  | poller =>
    have hmenu : s.part .menu = [] := h
    rw [hmenu, List.append_nil]
  | menu =>
    have hpoller : s.part .poller = [] := h
    rw [hpoller, List.nil_append]

theorem parts_length (s : Senders) (c : Sender) :
    (s.part .poller).length + (s.part .menu).length =
      (s.part c).length + (s.part c.other).length := by
  cases c with
  | poller => rfl
  | menu => exact Nat.add_comm _ _

variable {base : List UInt8} {fd : ℕ} {s t : Senders} {c : Sender} {chunk : List UInt8}

theorem Sends.frames_grow (h : s.Sends fd t c chunk) : s.frames <+: t.frames := by
  rcases h.goes with ⟨hreturned, -⟩ | ⟨hframes, -⟩
  · refine ⟨[], ?_⟩
    rw [List.append_nil, frames, frames, hreturned]
  · rw [hframes]
    exact List.prefix_append _ _

theorem Sends.flatten (h : s.Sends fd t c chunk) :
    t.frames.flatten ++ t.part c = s.frames.flatten ++ (s.part c ++ chunk) := by
  rcases h.goes with ⟨hreturned, hpart⟩ | ⟨hframes, hpart⟩
  · rw [frames, hreturned, hpart]
    rfl
  · rw [hframes, hpart, List.flatten_append, List.flatten_singleton, List.append_nil]

theorem Sends.length (h : s.Sends fd t c chunk)
    (hs : (s.impl.sentOn fd).length = base.length + (s.frames.flatten.length +
      ((s.part .poller).length + (s.part .menu).length))) :
    (t.impl.sentOn fd).length = base.length + (t.frames.flatten.length +
      ((t.part .poller).length + (t.part .menu).length)) := by
  have hflatten := congrArg List.length h.flatten
  have hother := congrArg List.length (part_congr h.other)
  rw [List.length_append, List.length_append, List.length_append] at hflatten
  rw [parts_length s c] at hs
  rw [parts_length t c, h.sentOn, List.length_append]
  omega

theorem Apart.begins {cmd : UInt8} {payload : List UInt8} (hs : s.Apart base fd)
    (hclear : (SendStep.sendMcb c cmd payload).Clear mcbProt)
    (h : (senders mcbProt).step s (.sendMcb c cmd payload) = some t) : t.Apart base fd := by
  obtain ⟨hconnected, himpl, hreturned, hpart⟩ := hs.connected.begins hclear h
  refine ⟨hconnected, ?_, ?_⟩
  · rw [hpart, hpart]
    exact hs.alone
  · rw [himpl, hpart, hpart, frames, hreturned]
    exact hs.sentOn

theorem Mixed.begins {cmd : UInt8} {payload : List UInt8} (hs : s.Mixed base fd)
    (hclear : (SendStep.sendMcb c cmd payload).Clear mcbProt)
    (h : (senders mcbProt).step s (.sendMcb c cmd payload) = some t) : t.Mixed base fd := by
  obtain ⟨hconnected, himpl, hreturned, hpart⟩ := hs.connected.begins hclear h
  have hframes : t.frames = s.frames := by rw [frames, hreturned, frames]
  refine ⟨hconnected, ?_, ?_⟩
  · rw [himpl, hpart, hpart, hframes]
    exact hs.length
  · rw [himpl, hframes]
    exact hs.inside

theorem Apart.sends (hs : s.Apart base fd) (hexclusive : s.part c.other = [])
    (hconnected : t.Connected fd) (h : s.Sends fd t c chunk) : t.Apart base fd := by
  have hother : t.part c.other = [] := (part_congr h.other).trans hexclusive
  refine ⟨hconnected, ?_, ?_⟩
  · cases c with
    | poller => exact .inr hother
    | menu => exact .inl hother
  · rw [h.sentOn, hs.sentOn, parts_of_alone hexclusive, parts_of_alone hother, h.flatten,
      List.append_assoc, List.append_assoc]

/-- Its first byte is an STX, and it goes out inside the frame of the other thread. -/
theorem Apart.mixes (hs : s.Apart base fd) (hinside : s.part c.other ≠ [])
    (hconnected : t.Connected fd) (h : s.Sends fd t c chunk) : t.Mixed base fd := by
  have hnone : s.part c = [] := by
    rcases hs.alone with hpoller | hmenu
    · cases c with
      | poller => exact hpoller
      | menu => exact absurd hpoller hinside
    · cases c with
      | poller => exact absurd hmenu hinside
      | menu => exact hmenu
  have hparts : s.part .poller ++ s.part .menu = s.part c.other := by
    have hself : s.part c.other.other = [] := by
      cases c <;> exact hnone
    exact parts_of_alone hself
  have hlength : (s.impl.sentOn fd).length = base.length + (s.frames.flatten.length +
      ((s.part .poller).length + (s.part .menu).length)) := by
    rw [hs.sentOn, List.length_append, List.length_append, List.length_append]
  refine ⟨hconnected, h.length hlength, ?_⟩
  cases hplace : s.place c.other with
  | none => exact absurd (part_of_none hplace) hinside
  | some p =>
    obtain ⟨data, totalSent⟩ := p
    obtain ⟨hclear, hless⟩ := hs.connected.place c.other data totalSent hplace
    have hpart := part_of_place hplace
    have hpos : 0 < totalSent := by
      rcases Nat.eq_zero_or_pos totalSent with hzero | hpos
      · rw [hpart, hzero, List.take_zero] at hinside
        exact absurd rfl hinside
      · exact hpos
    cases hchunk : chunk with
    | nil =>
      have hstx := h.first hnone
      rw [hchunk] at hstx
      cases hstx
    | cons b rest =>
      have hstx := h.first hnone
      rw [hchunk] at hstx
      have hb : b = stx := Option.some.inj hstx
      refine ⟨s.frames, data, totalSent, rest, h.frames_grow, hclear, hpos, hless, ?_⟩
      rw [h.sentOn, hs.sentOn, hparts, hpart, hchunk, hb, List.append_assoc, List.append_assoc]

theorem Mixed.sends (hs : s.Mixed base fd) (hconnected : t.Connected fd)
    (h : s.Sends fd t c chunk) : t.Mixed base fd := by
  obtain ⟨done, frame, n, rest, hdone, hclear, hpos, hn, hsent⟩ := hs.inside
  refine ⟨hconnected, h.length hs.length, done, frame, n, rest ++ chunk,
    hdone.trans h.frames_grow, hclear, hpos, hn, ?_⟩
  rw [h.sentOn, hsent]
  simp only [List.append_assoc, List.cons_append]

/-- A run in which each thread finds the other outside its frames keeps the frames apart, and any
other run mixes two of them. -/
theorem run_outcome {turns : List SendStep} (hs : s.Apart base fd)
    (hturns : ∀ e ∈ turns, e.Clear mcbProt ∧ e.Accepted)
    (hrun : (senders mcbProt).run s turns = some t) :
    ((senders mcbProt).Along Exclusive s turns ∧ t.Apart base fd) ∨
      (¬ (senders mcbProt).Along Exclusive s turns ∧ t.Mixed base fd) := by
  refine System.run_dichotomy_on ?apart ?mixed ?stay hturns hs hrun
  case apart =>
    intro s e t he hs hexclusive hstep
    cases e with
    | sendMcb c cmd payload => exact hs.begins he.1 hstep
    | send c sent =>
      obtain ⟨hconnected, chunk, hsends⟩ := hs.connected.sends he.2 hstep
      exact hs.sends hexclusive hconnected hsends
  case mixed =>
    intro s e t he hs hnot hstep
    cases e with
    | sendMcb c cmd payload => exact absurd trivial hnot
    | send c sent =>
      obtain ⟨hconnected, chunk, hsends⟩ := hs.connected.sends he.2 hstep
      exact hs.mixes hnot hconnected hsends
  case stay =>
    intro s e t he hs hstep
    cases e with
    | sendMcb c cmd payload => exact hs.begins he.1 hstep
    | send c sent =>
      obtain ⟨hconnected, chunk, hsends⟩ := hs.connected.sends he.2 hstep
      exact hs.sends hconnected hsends

theorem Connected.clear_frames (hs : s.Connected fd) : ∀ frame ∈ s.frames, ClearFrame frame := by
  intro frame hframe
  obtain ⟨r, hr, rfl⟩ := List.mem_map.mp hframe
  exact (hs.returned r hr).2

theorem Apart.received (hs : s.Apart base fd) (hidle : ∀ c, s.place c = none)
    {chunks : List (List UInt8)} (hchunks : s.impl.sentOn fd = base ++ chunks.flatten) :
    (feed onMCBDataReceived [] chunks).1 = s.frames := by
  have hclear := hs.connected.clear_frames
  have hwritten : chunks.flatten = s.frames.flatten := by
    have hsent := hchunks.symm.trans hs.sentOn
    rw [part_of_none (hidle .poller), part_of_none (hidle .menu), List.append_nil,
      List.append_nil] at hsent
    exact List.append_cancel_left hsent
  have hfeed : feed onMCBDataReceived [] chunks = (s.frames, []) := by
    apply feed_flatten
    · exact fun frame hframe => (hclear frame hframe).delimited
    · exact fun frame hframe => (hclear frame (List.mem_of_getLast? hframe)).min
    · exact hwritten
  rw [hfeed]

/-- Of mixed frames one is lost: were each received as often as it was sent, all bytes would be
needed for them, and the stream would be these frames in some order. -/
theorem Mixed.loses (hs : s.Mixed base fd) (hidle : ∀ c, s.place c = none)
    {chunks : List (List UInt8)} (hchunks : s.impl.sentOn fd = base ++ chunks.flatten) :
    ∃ frame, (feed onMCBDataReceived [] chunks).1.count frame < s.frames.count frame := by
  by_contra hnone
  have hcount (frame : List UInt8) :
      s.frames.count frame ≤ (feed onMCBDataReceived [] chunks).1.count frame := by
    apply not_lt.mp
    exact fun hless => hnone ⟨frame, hless⟩
  obtain ⟨frames, hperm, hsublist⟩ := List.subperm_ext_iff.mpr fun frame _ => hcount frame
  have hclear : ∀ frame ∈ frames, ClearFrame frame := fun frame hframe =>
    hs.connected.clear_frames frame (hperm.mem_iff.mp hframe)
  have hpieces : Pieces (feed onMCBDataReceived [] chunks).1 (feed onMCBDataReceived [] chunks).2
      chunks.flatten := cuts.feed [] chunks
  have hlength : chunks.flatten.length = frames.flatten.length := by
    have hsent := hs.length
    rw [part_of_none (hidle .poller), part_of_none (hidle .menu), hchunks,
      List.length_append] at hsent
    have hsame := hperm.flatten.length_eq
    simp only [List.length_nil] at hsent
    omega
  have hwhole : chunks.flatten = frames.flatten := by
    have hinside := hsublist.flatten.length_le
    have hstream := hpieces.eq_flatten (by omega)
    rw [hstream]
    rw [hstream] at hlength
    exact (hsublist.flatten.eq_of_length hlength.symm).symm
  obtain ⟨done, frame, n, rest, hdone, hframe, hpos, hn, hsent⟩ := hs.inside
  have hbegun := List.append_cancel_left (hchunks.symm.trans hsent)
  have hdone' : ∀ f ∈ done, ClearFrame f := fun f hf =>
    hs.connected.clear_frames f (hdone.subset hf)
  exact ClearFrame.flatten_ne hdone' hclear hframe hpos hn (hbegun.symm.trans hwhole)

end Senders

/-- However the poller, the menu and the kernel take turns, of clear requests that all went out the
loop puts together each one, in the order the calls returned, exactly when no thread wrote while the
other was inside a frame. Otherwise some request is received less often than it was sent. -/
theorem requests_received_iff (mcbProt : McbProtocol) (impl : Impl) (fd : ℕ) (hup : impl.Up)
    (hfd : impl.sockfd = some fd) (turns : List SendStep)
    (hturns : ∀ e ∈ turns, e.Clear mcbProt ∧ e.Accepted) (t : Senders)
    (hrun : (senders mcbProt).run (.start impl) turns = some t) (hidle : ∀ c, t.place c = none)
    (chunks : List (List UInt8))
    (hchunks : t.impl.sentOn fd = impl.sentOn fd ++ chunks.flatten) :
    ((feed onMCBDataReceived [] chunks).1 = t.returned.map (·.1) ↔
      (senders mcbProt).Along Senders.Exclusive (.start impl) turns) ∧
    (¬ (senders mcbProt).Along Senders.Exclusive (.start impl) turns → ∃ frame,
      (feed onMCBDataReceived [] chunks).1.count frame < (t.returned.map (·.1)).count frame) := by
  have hstart : (Senders.start impl).Apart (impl.sentOn fd) fd := by
    refine ⟨⟨hup.status, hfd, ?_, ?_⟩, .inl rfl, ?_⟩
    · intro c data totalSent hplace
      cases hplace
    · intro r hr
      cases hr
    · exact (List.append_nil _).symm
  rcases Senders.run_outcome hstart hturns hrun with ⟨halong, hapart⟩ | ⟨hnot, hmixed⟩
  · constructor
    · exact iff_of_true (hapart.received hidle hchunks) halong
    · exact fun hnot => absurd halong hnot
  · obtain ⟨frame, hless⟩ := hmixed.loses hidle hchunks
    constructor
    · refine iff_of_false (fun hall => ?_) hnot
      rw [hall] at hless
      exact absurd hless (lt_irrefl _)
    · exact fun _ => ⟨frame, hless⟩

/-- The menu gets into a request of the poller: both calls return, and one of the two requests at
least is lost. -/
theorem requests_received_iff_menu :
    let mcbProt : McbProtocol := ⟨buildFrame⟩
    let turns : List SendStep := [.sendMcb .poller 0x52 [], .send .poller 1,
      .sendMcb .menu 0x52 [], .send .menu 5, .send .poller 4]
    ∃ t, (senders mcbProt).run (.start (.online ⟨"192.168.100.1", 3000⟩)) turns = some t ∧
      t.returned = [(buildFrame 0x52 [], true), (buildFrame 0x52 [], true)] ∧
      ∃ frame, (feed onMCBDataReceived []
        [[0x02], buildFrame 0x52 [], [0x01, 0x52, 0x52, 0x03]]).1.count frame <
          (t.returned.map (·.1)).count frame := by
  intro mcbProt turns
  have hstatus : ClearFrame (mcbProt.buildFrame 0x52 []) := by
    constructor <;> decide
  have hturns : ∀ e ∈ turns, e.Clear mcbProt ∧ e.Accepted := by
    simp [turns, SendStep.Clear, SendStep.Accepted, hstatus]
  have hnot : ¬ (senders mcbProt).Along Senders.Exclusive
      (.start (.online ⟨"192.168.100.1", 3000⟩)) turns := by
    intro h
    obtain ⟨-, h⟩ := h
    obtain ⟨-, h⟩ := h _ rfl
    obtain ⟨-, h⟩ := h _ rfl
    obtain ⟨hinside, -⟩ := h _ rfl
    exact absurd hinside (by decide)
  refine ⟨_, rfl, rfl, ?_⟩
  refine (requests_received_iff mcbProt (.online ⟨"192.168.100.1", 3000⟩) 0 (Impl.online_up _) rfl
    turns hturns _ rfl ?_ [[0x02], buildFrame 0x52 [], [0x01, 0x52, 0x52, 0x03]] rfl).2 hnot
  intro c
  cases c <;> rfl

end Spectrum.Tests
