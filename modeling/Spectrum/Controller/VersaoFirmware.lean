import Spectrum.Command.Read
import Spectrum.Controller.Session

/-! `versaoFirmware`, the one command of the device controller, called again and again on one
connection (`controller/device_controller.cpp`, `tests/mcb_testArray.cpp`). -/
namespace Spectrum.Controller
open Foundation Utils Protocols MCBProtocol Transport.Network Receiver Spectrum.Command

namespace DeviceController

variable {σ : Type}

/-- `fmt::format("v{}.{}.{}", …)`. -/
def format (info : FirmwareInfo) : String :=
  "v" ++ info.version.toNat.repr ++ "." ++ info.revision.toNat.repr ++ "." ++
    info.build.toNat.repr

def versaoFirmware (sendCommand : SendCommand σ) (s : σ) :
    Except Fault (Except String String) × σ :=
  let (info, s) := ReadFirmwareCommand.run sendCommand s
  (info.map fun info => info.map format, s)

theorem toDigits_inj {m n : ℕ} (h : Nat.toDigits 10 m = Nat.toDigits 10 n) : m = n := by
  have hvalue := congrArg (fun digits => Nat.ofDigitChars 10 digits 0) h
  simpa using hvalue

theorem toDigits_dot_inj {m n : ℕ} {u v : List Char}
    (h : Nat.toDigits 10 m ++ (['.'] ++ u) = Nat.toDigits 10 n ++ (['.'] ++ v)) :
    m = n ∧ u = v := by
  have hends (k : ℕ) : Terminated '.' (Nat.toDigits 10 k ++ ['.']) := by
    apply terminated_concat.mpr
    intro hdot
    have hdigit := Nat.isDigit_of_mem_toDigits (by omega) (by omega) hdot
    exact absurd hdigit (by decide)
  rw [← List.append_assoc, ← List.append_assoc] at h
  obtain ⟨hdigits, hrest⟩ := (hends m).append_inj (hends n) h
  exact ⟨toDigits_inj (List.append_cancel_right hdigits), hrest⟩

theorem format_inj {info info' : FirmwareInfo} (h : format info = format info') :
    info = info' := by
  obtain ⟨version, revision, build⟩ := info
  obtain ⟨version', revision', build'⟩ := info'
  have hchars := congrArg String.toList h
  have hdot : ".".toList = ['.'] := rfl
  simp only [format, String.toList_append, Nat.toList_repr, List.append_assoc, hdot] at hchars
  obtain ⟨hversion, hrest⟩ := toDigits_dot_inj (List.append_cancel_left hchars)
  obtain ⟨hrevision, hbuild⟩ := toDigits_dot_inj hrest
  rw [UInt8.toNat_inj.mp hversion, UInt8.toNat_inj.mp hrevision,
    UInt8.toNat_inj.mp (toDigits_inj hbuild)]

end DeviceController

namespace Session

/-- Records that come to the same, whichever of them a call reads. -/
def Uniform (x : Except String (List UInt8)) (bytes : List UInt8) : Prop :=
  ∃ ps : List (List UInt8), bytes = ps.flatten ∧
    ∀ p ∈ ps, Terminated etx p ∧ MCBFrameVectorAwaiter.deliver p = x

/-- On a connection all of whose records come to the same, each call returns it. -/
theorem call_uniform {s t : Session} {r : Request} {x : Except String (List UInt8)}
    (hstatus : s.impl.status = .connected) (hsockfd : s.impl.sockfd ≠ none)
    (hinflight : s.inflight = []) (hunread : Uniform x s.unread) (hframe : Uniform x r.frame)
    (harrives : r.frame.length ≤ r.arrives) (hsent : ¬ r.Unsent) (h : s.call r = some t) :
    t.inflight = [] ∧ Uniform x t.unread ∧ t.returned = s.returned ++ [(r, x)] := by
  obtain ⟨⟨sent, impl⟩, hsend, -⟩ := Option.bind_eq_some_iff.mp h
  cases sent with
  | false => exact absurd (Impl.send_false hstatus hsockfd hsend) hsent
  | true =>
    obtain ⟨ps, hps, hrecords⟩ := hunread
    obtain ⟨qs, hqs, hpieces⟩ := hframe
    have hall := List.forall_mem_append.mpr ⟨hrecords, hpieces⟩
    have hdelivered : s.delivered r = (ps ++ qs).flatten := by
      rw [delivered, hinflight, List.nil_append, List.take_of_length_le harrives, hps, hqs,
        List.flatten_append]
    have hnone : (s.inflight ++ r.frame).drop r.arrives = [] := by
      rw [hinflight, List.nil_append, List.drop_eq_nil_iff]
      exact harrives
    cases hstream : ps ++ qs with
    | nil =>
      have hempty : r.frame = [] := by rw [hqs, (List.append_eq_nil_iff.mp hstream).2]; rfl
      have hmem := r.etx_mem_frame
      rw [hempty] at hmem
      cases hmem
    | cons p rest =>
      rw [hstream] at hall hdelivered
      obtain ⟨⟨hterminated, hdeliver⟩, hothers⟩ := List.forall_mem_cons.mp hall
      have hread : readRecord etx ((s.delivered r).map some) =
          (some p, rest.flatten.map some) := by
        rw [hdelivered, List.flatten_cons, List.map_append, readRecord_terminated hterminated]
      have hsame := Option.some.inj ((call_sent hsend).symm.trans h)
      rw [← hsame, hread]
      have hunread : (rest.flatten.map some).reduceOption = rest.flatten := by
        simp only [List.reduceOption, List.filterMap_map, Function.id_comp, List.filterMap_some]
      refine ⟨hnone, ⟨rest, hunread, hothers⟩, ?_⟩
      show s.returned ++ [(r, MCBFrameVectorAwaiter.deliver p)] = _
      rw [hdeliver]

theorem run_uniform {s t : Session} {rs : List Request} {x : Except String (List UInt8)}
    (hstatus : s.impl.status = .connected) (hsockfd : s.impl.sockfd ≠ none)
    (hinflight : s.inflight = []) (hunread : Uniform x s.unread)
    (hrs : ∀ r ∈ rs, Uniform x r.frame ∧ r.frame.length ≤ r.arrives ∧ ¬ r.Unsent)
    (hrun : session.run s rs = some t) : t.returned = s.returned ++ rs.map (·, x) := by
  induction rs generalizing s with
  | nil =>
    have hsame := Option.some.inj hrun
    rw [hsame, List.map_nil, List.append_nil]
  | cons r rs ih =>
    obtain ⟨m, hm, hrest⟩ := (session.run_cons_eq_some).mp hrun
    obtain ⟨⟨hframe, harrives, hsent⟩, hothers⟩ := List.forall_mem_cons.mp hrs
    obtain ⟨hinflight', hunread', hreturned⟩ :=
      call_uniform hstatus hsockfd hinflight hunread hframe harrives hsent hm
    obtain ⟨hst, hsock⟩ := call_connection hm
    have hlater := ih (hst.trans hstatus) (hsock ▸ hsockfd) hinflight' hunread' hothers hrest
    rw [hlater, hreturned, List.append_assoc]
    rfl

end Session

namespace DeviceController

/-- The answer of a board with this firmware. -/
def answer (info : FirmwareInfo) : List UInt8 := [info.version, info.revision, info.build]

/-- No byte of the answer is taken for the end of its frame, and its checksum is not either. -/
def Readable (info : FirmwareInfo) : Prop :=
  etx ∉ answer info ∧
    (0x51 + info.version.toNat + info.revision.toNat + info.build.toNat) % 256 ≠ 3

instance : DecidablePred Readable := fun _ => inferInstanceAs (Decidable (_ ∧ _))

/-- The request of `versaoFirmware`, sent whole to a board with this firmware and answered before
the timeout. -/
structure Asks (info : FirmwareInfo) (r : Request) : Prop where
  cmd : r.cmd = MCBCommand.Enumerator.readFirmware.value
  payload : r.payload = []
  answer : r.answer = answer info
  sent : ¬ r.Unsent
  arrives : r.frame.length ≤ r.arrives

theorem terminated_answer_iff (info : FirmwareInfo) :
    Terminated etx (buildFrame 0x51 (answer info)) ↔ Readable info := by
  have hsum : (0x51 : UInt8).toNat + ((answer info).map UInt8.toNat).sum =
      0x51 + info.version.toNat + info.revision.toNat + info.build.toNat := by
    simp only [answer, List.map_cons, List.map_nil, List.sum_cons, List.sum_nil]
    show 0x51 + _ = _
    omega
  have hchk : etx = UInt8.ofNat ((0x51 : UInt8).toNat + ((answer info).map UInt8.toNat).sum) ↔
      (0x51 + info.version.toNat + info.revision.toNat + info.build.toNat) % 256 = 3 := by
    rw [eq_comm, ofNat_eq_etx_iff, hsum]
  have hfront : etx ∉ [UInt8.ofNat (1 + (answer info).length), 0x51] := by
    show etx ∉ [UInt8.ofNat 4, 0x51]
    decide
  rw [terminated_buildFrame_iff, List.mem_append, List.mem_append, List.mem_singleton, hchk]
  simp only [hfront, false_or, not_or]
  exact Iff.rfl

theorem deliver_eq_error {p : List UInt8}
    (h : ∀ out, MCBFrameVectorAwaiter.deliver p ≠ .ok out) :
    MCBFrameVectorAwaiter.deliver p = .error MCBFrameAwaiter.parseFailure := by
  rw [MCBFrameVectorAwaiter.deliver_eq] at h ⊢
  split at h
  · exact absurd rfl (h _)
  · rfl

theorem deliver_short {p : List UInt8} (hshort : p.length < mcbMinFrameSize) :
    MCBFrameVectorAwaiter.deliver p = .error MCBFrameAwaiter.parseFailure := by
  have hnone : parseFrame p = none := by
    unfold parseFrame Impl.parseFrame
    rw [if_pos (.inl hshort)]
    rfl
  rw [MCBFrameVectorAwaiter.deliver_eq, hnone]

theorem first_piece {info : FirmwareInfo} {p rest : List UInt8} (hp : Terminated etx p)
    (h : buildFrame 0x51 (answer info) = p ++ rest) : 4 ≤ p.length := by
  obtain ⟨body, hbody, rfl⟩ := hp
  have hfront : buildFrame 0x51 (answer info) = stx :: 0x04 :: 0x51 ::
      (answer info ++ [calculateChecksum ⟨0x51⟩ (answer info), etx]) :=
    buildFrame_eq_wire ⟨0x51⟩ (answer info)
  rw [hfront, List.append_assoc] at h
  match body with
  | [] =>
    have hfirst : stx = etx := (List.cons.inj h).1
    exact absurd hfirst (by decide)
  | [a] =>
    have hsecond : (0x04 : UInt8) = etx := (List.cons.inj (List.cons.inj h).2).1
    exact absurd hsecond (by decide)
  | [a, b] =>
    have hthird : (0x51 : UInt8) = etx := (List.cons.inj (List.cons.inj (List.cons.inj h).2).2).1
    exact absurd hthird (by decide)
  | a :: b :: c :: body =>
    simp only [List.length_append, List.length_cons, List.length_nil]
    omega

/-- Every piece of an answer that is cut fails to parse. -/
theorem uniform_answer (info : FirmwareInfo) :
    Session.Uniform (if Readable info then .ok (answer info)
      else .error MCBFrameAwaiter.parseFailure) (buildFrame 0x51 (answer info)) := by
  have hfits : (answer info).length ≤ 254 := by simp [answer]
  have hlength : (buildFrame 0x51 (answer info)).length = 8 := rfl
  have hlast : (buildFrame 0x51 (answer info)).getLast? = some etx := by
    rw [buildFrame, buildFrame_eq_wire, wire_getLast?]
  split
  · next hreadable =>
    refine ⟨[buildFrame 0x51 (answer info)], by simp, ?_⟩
    intro p hp
    rw [List.mem_singleton.mp hp]
    refine ⟨(terminated_answer_iff info).mpr hreadable, ?_⟩
    have hwhole := List.append_nil (buildFrame 0x51 (answer info))
    exact (deliver_prefix_iff hfits hwhole).mpr ⟨⟨rfl, by decide, by simp [answer]⟩, rfl⟩
  · next hcut =>
    obtain ⟨ps, hps, hterminated⟩ := exists_terminated_pieces hlast
    refine ⟨ps, hps, fun p hp => ⟨hterminated p hp, ?_⟩⟩
    cases ps with
    | nil => cases hp
    | cons first rest =>
      have hfirst := hterminated first List.mem_cons_self
      rw [List.flatten_cons] at hps
      rcases List.mem_cons.mp hp with rfl | hrest
      · apply deliver_eq_error
        intro out hok
        obtain ⟨⟨hnil, -, -⟩, -⟩ := (deliver_prefix_iff hfits hps.symm).mp hok
        rw [hnil, List.append_nil] at hps
        exact hcut ((terminated_answer_iff info).mp (hps ▸ hfirst))
      · have hfour := first_piece hfirst hps
        have hsum : first.length + rest.flatten.length = 8 := by
          rw [← List.length_append, ← hps, hlength]
        have hle := (List.sublist_flatten_of_mem hrest).length_le
        apply deliver_short
        unfold mcbMinFrameSize
        omega

end DeviceController

end Spectrum.Controller
