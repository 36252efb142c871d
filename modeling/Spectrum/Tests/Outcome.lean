import Spectrum.Tests.McbTest

/-! How `mcb_test` and `mcb_testArray` end, however `main`, `read_loop`, the kernel and the board take
turns. -/
namespace Spectrum.Tests
open Foundation Protocols MCBProtocol Transport.Network Controller

/-- The end of the connection is to be seen, and `read_loop` is on its way out or has gone it, and is
not joined. -/
structure Over (t : Threads) : Prop where
  thread : t.impl.readThread.joinable = true
  leaving : ∃ u : Impl, Leaving t.impl t.readLoop u ∧ t.impl.status = u.status
  past : t.readLoop.Past t.impl
  status : t.impl.status = .disconnected ∨ t.impl.status = .error

/-- No reader is there, and no connection. -/
structure Quiet (t : Threads) : Prop where
  thread : t.impl.readThread = .none
  status : t.impl.status = .disconnected ∨ t.impl.status = .error

/-- What `main` leaves behind, if its `disconnect` returned early or not. -/
inductive Left (t : Threads) : Bool → Prop
  | quiet (h : Quiet t) : Left t false
  | gone (h : Over t) : Left t true

/-- What a move of `read_loop` does to the threads. -/
structure Reads (t t' : Threads) : Prop where
  running : t.impl.readThread = .running
  owner : t'.owner = t.owner
  returned : t'.returned = t.returned
  joinable : t'.impl.readThread.joinable = true
  gone : Over t → Over t' ∧ t'.impl.status = t.impl.status

theorem joinable_of_step {s s' : Impl} {p p' : ReaderAt} (hthr : s.readThread = .running)
    (hstep : p.step s = some (s', p')) : s'.readThread.joinable = true := by
  have hkept (fd : Option ℕ) : (s.closes fd).readThread = s.readThread := by
    cases fd <;> rfl
  cases p with
  | receiving => cases hstep
  | done =>
    cases hstep
    rfl
  | close fd =>
    cases hstep
    rw [hkept, hthr]
    rfl
  | test | loadSocket | recv | testCallback | call | callback | report | clearRunning | testSocket
    | loadClose | clearSocket | testStatus | setDisconnected =>
    cases hstep
    simp [hthr, ReadThread.joinable]

theorem Reads.of_reader {t t' : Threads} (h : threads.step t .reader = some t') : Reads t t' := by
  obtain ⟨hthr, s, place, hmove, rfl⟩ := Sim.reader_eq h
  have hjoinable := joinable_of_step hthr hmove
  refine ⟨hthr, rfl, rfl, hjoinable, fun hover => ?_⟩
  obtain ⟨u, hleaving, hstatus⟩ := hover.leaving
  have hlater := hleaving.step_status hthr hover.past hstatus hmove
  have hsame : s.status = t.impl.status := hlater.trans hstatus.symm
  refine ⟨⟨hjoinable, ⟨u, hleaving.step hthr hmove, hlater⟩, ?_, ?_⟩, hsame⟩
  · exact hleaving.step_past hthr hover.past hmove
  · show s.status = _ ∨ s.status = _
    rw [hsame]
    exact hover.status

theorem Reads.of_received {t t' : Threads} {r : ReaderRecv}
    (h : threads.step t (.received r) = some t') : Reads t t' := by
  obtain ⟨hthr, hplace, -, rfl⟩ := Sim.received_eq h
  refine ⟨hthr, rfl, rfl, ?_, fun hover => ?_⟩
  · show t.impl.readThread.joinable = true
    rw [hthr]
    rfl
  · obtain ⟨u, hleaving, -⟩ := hover.leaving
    rcases hleaving.not_receiving with hne | hended
    · exact absurd hplace hne
    · exact absurd hthr hended

/-- The places of `disconnect` behind the join. -/
def Joined : DisconnectAt → Prop
  | .testSocket | .loadClose | .close _ | .clearSocket | .setDisconnected => True
  | .testDisconnected | .testError | .clearRunning | .testJoinable | .join => False

/-- `main` in its call of `connect`, or behind it. -/
inductive Connecting (t : Threads) : Bool → Prop
  | under (config : TCPConfig) (env : ConnectEnv) (place : ConnectAt)
      (owner : t.owner = .connect env place)
      (reached : place.Reached env (.new config) t.impl) : Connecting t env.succeeds
  | returned {connected : Bool} (idle : t.owner = .idle) (answer : answer t = connected)
      (thread : t.impl.readThread.joinable = connected)
      (status : connected = false → t.impl.status = .disconnected ∨ t.impl.status = .error) :
      Connecting t connected

/-- `main` in its call of `disconnect`, or behind it, and if a test of the status ended the call. -/
inductive Disconnecting (t : Threads) : Bool → Prop
  | before (place : DisconnectAt) (owner : t.owner = .disconnect place)
      (unjoined : ¬ Joined place) (thread : t.impl.readThread.joinable = true) :
      Disconnecting t false
  | behind (place : DisconnectAt) (owner : t.owner = .disconnect place)
      (joined : Joined place) (thread : t.impl.readThread = .none) :
      Disconnecting t false
  | returned {early : Bool} (idle : t.owner = .idle) (left : Left t early) : Disconnecting t early

/-- The destructor in its call of `disconnect`, or behind it. -/
inductive Destroying (t : Threads) : Prop
  | testDisconnected (owner : t.owner = .disconnect .testDisconnected)
  | testError (owner : t.owner = .disconnect .testError) (status : t.impl.status = .error)
  | returned (idle : t.owner = .idle)

theorem Left.reads {t t' : Threads} {early : Bool} (h : Left t early) (hreads : Reads t t') :
    Left t' early ∧ t'.impl.status = t.impl.status := by
  cases h with
  | quiet hquiet => cases hquiet.thread.symm.trans hreads.running
  | gone hover =>
    obtain ⟨hover', hstatus⟩ := hreads.gone hover
    exact ⟨.gone hover', hstatus⟩

theorem Left.of_same {t t' : Threads} {early : Bool} (h : Left t early) (himpl : t'.impl = t.impl)
    (hreader : t'.readLoop = t.readLoop) : Left t' early := by
  cases h with
  | quiet hquiet => exact .quiet ⟨himpl ▸ hquiet.thread, himpl ▸ hquiet.status⟩
  | gone hover =>
    obtain ⟨u, hleaving⟩ := hover.leaving
    refine .gone ⟨himpl ▸ hover.thread, ⟨u, ?_⟩, ?_, himpl ▸ hover.status⟩
    · rw [himpl, hreader]
      exact hleaving
    · rw [himpl, hreader]
      exact hover.past

theorem Left.status {t : Threads} {early : Bool} (h : Left t early) :
    t.impl.status = .disconnected ∨ t.impl.status = .error := by
  cases h with
  | quiet hquiet => exact hquiet.status
  | gone hover => exact hover.status

theorem Left.joinable {t : Threads} {early : Bool} (h : Left t early) :
    t.impl.readThread.joinable = early := by
  cases h with
  | quiet hquiet =>
    rw [hquiet.thread]
    rfl
  | gone hover => exact hover.thread

theorem Connecting.reads {t t' : Threads} {connected : Bool} (h : Connecting t connected)
    (hreads : Reads t t') : Connecting t' connected := by
  cases h with
  | under config env place owner reached =>
    have hthr := ConnectAt.readThread_eq (Impl.down_new config) reached
    cases hthr.symm.trans hreads.running
  | returned idle answer thread status =>
    have htrue : connected = true := by
      rw [← thread, hreads.running]
      rfl
    have hanswer : Tests.answer t' = connected := by
      rw [← answer]
      unfold Tests.answer
      rw [hreads.returned]
    refine .returned (hreads.owner.trans idle) hanswer (hreads.joinable.trans htrue.symm) ?_
    intro hfalse
    cases htrue.symm.trans hfalse

theorem Disconnecting.reads {t t' : Threads} {early : Bool} (h : Disconnecting t early)
    (hreads : Reads t t') : Disconnecting t' early := by
  cases h with
  | before place owner unjoined thread =>
    exact .before place (hreads.owner.trans owner) unjoined hreads.joinable
  | behind place owner joined thread => cases thread.symm.trans hreads.running
  | returned idle left => exact .returned (hreads.owner.trans idle) (left.reads hreads).1

theorem Destroying.reads {t t' : Threads} {early : Bool} (h : Destroying t) (hleft : Left t early)
    (hreads : Reads t t') : Destroying t' := by
  cases h with
  | testDisconnected owner => exact .testDisconnected (hreads.owner.trans owner)
  | testError owner status =>
    exact .testError (hreads.owner.trans owner) ((hleft.reads hreads).2.trans status)
  | returned idle => exact .returned (hreads.owner.trans idle)

theorem answer_after (t : Threads) (call : Call) (s : Impl) (ok : Bool) {α : Type}
    (owner : α → OwnerAt) : answer (t.after call owner s (.returns ok)) = ok := by
  simp [answer, Threads.after]

theorem Connecting.owner {t t' : Threads} {connected : Bool} (h : Connecting t connected)
    (hstep : t.ownerStep = some t') : Connecting t' connected := by
  cases h with
  | returned idle =>
    rw [Threads.ownerStep, idle] at hstep
    cases hstep
  | under config env place owner reached =>
    have hd := Impl.down_new config
    have hk := Impl.kept_new config
    unfold Threads.ownerStep at hstep
    rw [owner] at hstep
    cases hmove : place.step env t.impl with
    | mk m next =>
      simp only [hmove] at hstep
      cases hstep
      cases next with
      | goto place' =>
        exact .under config env place' rfl (ConnectAt.step_reached hd hk reached hmove)
      | aborts =>
        have habort := ConnectAt.step_aborts hd reached hmove
        cases hall : env.succeeds with
        | true =>
          obtain ⟨u, hu, -⟩ := Impl.connect_succeeds hd hk hall
          cases habort.symm.trans hu
        | false =>
          obtain ⟨u, hu, -⟩ := Impl.connect_fails hd hk hall
          cases habort.symm.trans hu
      | returns ok =>
        obtain ⟨u, hu, hsilent⟩ := ConnectAt.step_returns hd reached hmove
        have hanswer := answer_after t (.connect env) m ok (.connect env)
        cases hall : env.succeeds with
        | true =>
          obtain ⟨u', hu', hup, -⟩ := Impl.connect_succeeds hd hk hall
          cases hu.symm.trans hu'
          refine .returned rfl hanswer ?_ (fun hfalse => by cases hfalse)
          show m.readThread.joinable = true
          rw [← hsilent, Impl.silent_readThread, hup.thread]
          rfl
        | false =>
          obtain ⟨u', hu', -, hdown, -⟩ := Impl.connect_fails hd hk hall
          cases hu.symm.trans hu'
          refine .returned rfl hanswer ?_ fun _ => ?_
          · show m.readThread.joinable = false
            rw [← hsilent, Impl.silent_readThread, hdown.thread]
            rfl
          · show m.status = _ ∨ m.status = _
            rw [← hsilent, Impl.silent_status]
            exact hdown.status

/-- A test of the status in `disconnect` finds that the connection has ended. -/
def Finds (t : Threads) : Prop :=
  (t.owner = .disconnect .testDisconnected ∧ t.impl.status = .disconnected) ∨
    (t.owner = .disconnect .testError ∧ t.impl.status = .error)

instance : DecidablePred Finds := fun _ => inferInstanceAs (Decidable (_ ∨ _))

/-- Where a test finds the end of the connection, `read_loop` has reported it. -/
theorem over_of_finds {t : Threads} {q : Process} (h : Sim t q) (hfinds : Finds t)
    (hthr : t.impl.readThread.joinable = true) : Over t := by
  have hstatus : t.impl.status = .disconnected ∨ t.impl.status = .error :=
    hfinds.imp And.right And.right
  have howner : t.owner = .disconnect .testDisconnected ∨ t.owner = .disconnect .testError :=
    hfinds.imp And.left And.left
  cases h with
  | down hd hth hk hl hst hp ho => exact ⟨hthr, ⟨_, hl, hst⟩, hp, hstatus⟩
  | up hu hk hm hl ho =>
    have hconnected : t.impl.status = .connected := by rw [hm, Impl.silent_status, hu.status]
    rcases hstatus with hst | hst <;> cases hconnected.symm.trans hst
  | stopped hu hk hv hl ho =>
    rcases ho with ho | ⟨ho, -, hst, -⟩
    · rcases howner with howner | howner <;> rw [howner] at ho <;> cases ho
    · rcases hfinds with ⟨htest, -⟩ | ⟨-, herr⟩
      · cases ho.symm.trans htest
      · cases hst.symm.trans herr
  | opened hd hth hk hl ho => rcases howner with howner | howner <;> cases ho.symm.trans howner
  | connecting hd hth hk hl ho hm =>
    rcases howner with howner | howner <;> cases ho.symm.trans howner
  | waiting hu hk hm hl hp ho =>
    rcases ho with ho | ho <;> rcases howner with howner | howner <;> cases ho.symm.trans howner
  | joined hu hk hv hm hl ho =>
    rcases ho with ho | ho <;> rcases howner with howner | howner <;> cases ho.symm.trans howner
  | sending hu hk hfd ho hprogress hl hm =>
    rcases howner with howner | howner <;> cases ho.symm.trans howner
  | sendingLost hu hk hfd ho hprogress hp hr hst hsock hl =>
    rcases howner with howner | howner <;> cases ho.symm.trans howner
  | aborted ho => rcases howner with howner | howner <;> cases ho.symm.trans howner

theorem Disconnecting.owner {t t' : Threads} {q : Process} {early : Bool}
    (h : Disconnecting t early) (hsim : Sim t q) (hstep : t.ownerStep = some t') :
    Disconnecting t' (early || decide (Finds t)) := by
  have hstep := hstep
  unfold Threads.ownerStep at hstep
  cases h with
  | returned idle =>
    rw [idle] at hstep
    cases hstep
  | before place owner unjoined thread =>
    rw [owner] at hstep
    rw [Bool.false_or]
    cases place with
    | testDisconnected =>
      by_cases hst : t.impl.status = .disconnected
      · have hfinds : Finds t := .inl ⟨owner, hst⟩
        simp only [DisconnectAt.step, if_pos hst, Option.map_some] at hstep
        cases hstep
        rw [decide_eq_true hfinds]
        have hover : Left t true := .gone (over_of_finds hsim hfinds thread)
        exact .returned rfl (hover.of_same rfl rfl)
      · have hnot : ¬ Finds t := by simp [Finds, owner, hst]
        simp only [DisconnectAt.step, if_neg hst, Option.map_some] at hstep
        cases hstep
        rw [decide_eq_false hnot]
        exact .before .testError rfl id thread
    | testError =>
      by_cases hst : t.impl.status = .error
      · have hfinds : Finds t := .inr ⟨owner, hst⟩
        simp only [DisconnectAt.step, if_pos hst, Option.map_some] at hstep
        cases hstep
        rw [decide_eq_true hfinds]
        have hover : Left t true := .gone (over_of_finds hsim hfinds thread)
        exact .returned rfl (hover.of_same rfl rfl)
      · have hnot : ¬ Finds t := by simp [Finds, owner, hst]
        simp only [DisconnectAt.step, if_neg hst, Option.map_some] at hstep
        cases hstep
        rw [decide_eq_false hnot]
        exact .before .clearRunning rfl id thread
    | clearRunning =>
      have hnot : ¬ Finds t := by simp [Finds, owner]
      cases hstep
      rw [decide_eq_false hnot]
      exact .before .testJoinable rfl id thread
    | testJoinable =>
      have hnot : ¬ Finds t := by simp [Finds, owner]
      simp only [DisconnectAt.step, if_pos thread, Option.map_some] at hstep
      cases hstep
      rw [decide_eq_false hnot]
      exact .before .join rfl id thread
    | join =>
      have hnot : ¬ Finds t := by simp [Finds, owner]
      simp only [DisconnectAt.step] at hstep
      split at hstep
      · cases hstep
      · cases hstep
        rw [decide_eq_false hnot]
        exact .behind .testSocket rfl trivial rfl
    | testSocket | loadClose | close | clearSocket | setDisconnected => exact absurd trivial unjoined
  | behind place owner joined thread =>
    have hnot : ¬ Finds t := by
      rintro (⟨htest, -⟩ | ⟨htest, -⟩) <;> cases owner.symm.trans htest <;> exact joined
    have hkept (fd : Option ℕ) : (t.impl.closes fd).readThread = .none := by
      cases fd <;> exact thread
    rw [owner] at hstep
    rw [decide_eq_false hnot]
    cases place with
    | testDisconnected | testError | clearRunning | testJoinable | join => exact joined.elim
    | testSocket =>
      simp only [DisconnectAt.step, Option.map_some] at hstep
      cases hstep
      split
      · exact .behind .setDisconnected rfl trivial thread
      · exact .behind .loadClose rfl trivial thread
    | loadClose =>
      cases hstep
      exact .behind (.close _) rfl trivial thread
    | close fd =>
      cases hstep
      exact .behind .clearSocket rfl trivial (hkept fd)
    | clearSocket =>
      cases hstep
      exact .behind .setDisconnected rfl trivial thread
    | setDisconnected =>
      cases hstep
      exact .returned rfl (.quiet ⟨thread, .inl rfl⟩)

/-- A step of the `disconnect` that the destructor calls, which has nothing to do. -/
theorem Destroying.owner {t t' : Threads} {early : Bool} (h : Destroying t) (hleft : Left t early)
    (hstep : t.ownerStep = some t') : Destroying t' ∧ Left t' early := by
  unfold Threads.ownerStep at hstep
  cases h with
  | returned idle =>
    rw [idle] at hstep
    cases hstep
  | testDisconnected owner =>
    rw [owner] at hstep
    by_cases hst : t.impl.status = .disconnected
    · simp only [DisconnectAt.step, if_pos hst, Option.map_some] at hstep
      cases hstep
      exact ⟨.returned rfl, hleft.of_same rfl rfl⟩
    · simp only [DisconnectAt.step, if_neg hst, Option.map_some] at hstep
      cases hstep
      exact ⟨.testError rfl (hleft.status.resolve_left hst), hleft.of_same rfl rfl⟩
  | testError owner hst =>
    rw [owner] at hstep
    simp only [DisconnectAt.step, if_pos hst, Option.map_some] at hstep
    cases hstep
    exact ⟨.returned rfl, hleft.of_same rfl rfl⟩

namespace Program

/-- `main` behind `i` of its calls, on a transport whose reader is to be joined. -/
structure Asking (connected early : Bool) (i : ℕ) (p : Program) : Prop where
  connected : connected = true
  early : early = false
  lines : p.printed.length = i
  thread : p.transport.impl.readThread.joinable = true

/-- `main` at the end of the scope of the controller, with its exit code. -/
structure Leaves (n : ℕ) (connected early : Bool) (code : ℕ) (p : Program) : Prop where
  code : code = if connected then 0 else 1
  lines : p.printed.length = if connected then n else 0
  reached : early = true → connected = true
  left : Left p.transport early

/-- What holds where `main` stands. -/
def Holds (n : ℕ) (connected early : Bool) (p : Program) : Prop :=
  match p.place with
  | .start => connected = false ∧ early = false ∧ p.printed = [] ∧
      ∃ config, p.transport = .new config
  | .connect => early = false ∧ p.printed = [] ∧ Connecting p.transport connected
  | .version i => p.Asking connected early i ∧ i ≤ n ∧ p.transport.owner = .idle
  | .send i => p.Asking connected early i ∧ i < n ∧
      (p.transport.owner = .idle ∨ ∃ place, p.transport.owner = .send request place)
  | .receive i _ | .recv i _ _ | .receiving i _ =>
      p.Asking connected early i ∧ i < n ∧ p.transport.owner = .idle
  | .disconnect => connected = true ∧ p.printed.length = n ∧ Disconnecting p.transport early
  | .destroy code => p.Leaves n connected early code ∧ p.transport.owner = .idle
  | .destroying code => p.Leaves n connected early code ∧ Destroying p.transport
  | .exited code => p.Leaves n connected early code ∧ early = false ∧ p.transport.owner = .idle
  | .aborted => connected = true ∧ early = true ∧ p.printed.length = n ∧
      p.transport.owner ≠ .aborted
  | .killed => connected = true ∧ early = false ∧ p.printed.length < n ∧
      p.transport.owner ≠ .aborted

/-- A test of the status in the `disconnect` of `main` finds the end of the connection. -/
def Early (p : Program) : Action → Prop
  | .owner => p.place = .disconnect ∧ Finds p.transport
  | _ => False

instance (p : Program) : DecidablePred p.Early := fun a =>
  match a with
  | .owner => inferInstanceAs (Decidable (_ ∧ _))
  | .connect _ | .main | .sent _ | .sigpipe | .reader | .received _ | .byte | .receiveFails
  | .device _ => isFalse id

end Program

def Action.connects : Action → Bool
  | .connect env => env.succeeds
  | _ => false

namespace Program

variable {n : ℕ} {connected early : Bool} {p q : Program}

theorem Asking.of_same {i : ℕ} (h : p.Asking connected early i) (hprinted : q.printed = p.printed)
    (hthread : q.transport.impl.readThread = p.transport.impl.readThread) :
    q.Asking connected early i :=
  ⟨h.connected, h.early, hprinted ▸ h.lines, hthread ▸ h.thread⟩

theorem Holds.reads {t : Threads} {socket : Fifo Reader UInt8} (hp : p.Holds n connected early)
    (hgoing : ¬ p.place.Ended) (hreads : Reads p.transport t) :
    Holds n connected early { p with transport := t, socket := socket } := by
  obtain ⟨place, u, socket', printed⟩ := p
  have hasking {i : ℕ} (h : Asking connected early i ⟨place, u, socket', printed⟩) :
      Asking connected early i ⟨place, t, socket, printed⟩ :=
    ⟨h.connected, h.early, h.lines, hreads.joinable⟩
  have hleaves {code : ℕ} (h : Leaves n connected early code ⟨place, u, socket', printed⟩) :
      Leaves n connected early code ⟨place, t, socket, printed⟩ :=
    ⟨h.code, h.lines, h.reached, (h.left.reads hreads).1⟩
  have hidle (h : u.owner = .idle) : t.owner = .idle := hreads.owner.trans h
  cases place with
  | start =>
    obtain ⟨-, -, -, config, rfl⟩ := hp
    cases hreads.running
  | connect =>
    obtain ⟨hearly, hprinted, hconnecting⟩ := hp
    exact ⟨hearly, hprinted, hconnecting.reads hreads⟩
  | version i | receive i | recv i | receiving i =>
    obtain ⟨h, hi, howner⟩ := hp
    exact ⟨hasking h, hi, hidle howner⟩
  | send i =>
    obtain ⟨h, hi, howner⟩ := hp
    refine ⟨hasking h, hi, ?_⟩
    show t.owner = _ ∨ ∃ place, t.owner = _
    rw [hreads.owner]
    exact howner
  | disconnect =>
    obtain ⟨hconnected, hlines, h⟩ := hp
    exact ⟨hconnected, hlines, h.reads hreads⟩
  | destroy code =>
    obtain ⟨h, howner⟩ := hp
    exact ⟨hleaves h, hidle howner⟩
  | destroying code =>
    obtain ⟨h, hdestroying⟩ := hp
    exact ⟨hleaves h, hdestroying.reads h.left hreads⟩
  | exited | aborted | killed => exact absurd trivial hgoing

theorem ownerStep_idle {t : Threads} (h : t.owner = .idle) : t.ownerStep = none := by
  rw [Threads.ownerStep, h]

theorem send_owner {t t' : Threads} {data : List UInt8} {place : SendAt}
    (howner : t.owner = .send data place) (hstep : t.ownerStep = some t') :
    t'.impl = t.impl ∧ (t'.owner = .idle ∨ ∃ place', t'.owner = .send data place') := by
  have hmove : ((place.step data t.impl).map fun next =>
      t.after (.send data) (.send data) t.impl next) = some t' := by
    unfold Threads.ownerStep at hstep
    rwa [howner] at hstep
  obtain ⟨next, hnext, rfl⟩ := Option.map_eq_some_iff.mp hmove
  have hgoes : next ≠ .aborts := by
    rintro rfl
    cases place with
    | send totalSent fd =>
      cases fd with
      | none => cases hnext
      | some fd =>
        simp only [SendAt.step] at hnext
        split at hnext <;> cases hnext
    | sending => cases hnext
    | testStatus | testSocket | loop =>
      simp only [SendAt.step] at hnext
      split at hnext <;> cases hnext
  cases next with
  | goto place' => exact ⟨rfl, .inr ⟨place', rfl⟩⟩
  | returns ok => exact ⟨rfl, .inl rfl⟩
  | aborts => exact absurd rfl hgoes

theorem sent_owner {t t' : Threads} {result : ℤ} (hstep : threads.step t (.sent result) = some t') :
    ∃ data place, t.owner = .send data place ∧ t'.impl.readThread = t.impl.readThread ∧
      (t'.owner = .idle ∨ ∃ place', t'.owner = .send data place') := by
  simp only [threads, Threads.step] at hstep
  split at hstep
  · next data place howner =>
    refine ⟨data, place, howner, ?_⟩
    obtain ⟨⟨s, next⟩, hmove, rfl⟩ := Option.map_eq_some_iff.mp hstep
    cases place with
    | sending totalSent fd =>
      simp only [SendAt.sent] at hmove
      split at hmove
      · cases hmove
        exact ⟨rfl, .inl rfl⟩
      · cases hmove
        exact ⟨rfl, .inr ⟨_, rfl⟩⟩
    | testStatus | testSocket | loop | send => cases hmove
  · cases hstep

theorem Holds.owner {t : Threads} {r : Process} (hp : p.Holds n connected early)
    (hsim : Sim p.transport r) (hgoing : ¬ p.place.Ended)
    (hstep : threads.step p.transport .owner = some t) :
    Holds n connected (early || decide (p.Early .owner)) { p with transport := t } := by
  obtain ⟨place, u, socket, printed⟩ := p
  have hstep : u.ownerStep = some t := hstep
  have hidle (h : u.owner = .idle) : False := by
    cases (ownerStep_idle h).symm.trans hstep
  have hlater (hplace : place ≠ .disconnect) :
      (early || decide (Early ⟨place, u, socket, printed⟩ .owner)) = early := by
    simp [Early, hplace]
  cases place with
  | start =>
    obtain ⟨-, -, -, config, rfl⟩ := hp
    exact (hidle rfl).elim
  | connect =>
    obtain ⟨hearly, hprinted, hconnecting⟩ := hp
    rw [hlater (by decide)]
    exact ⟨hearly, hprinted, hconnecting.owner hstep⟩
  | version i | receive i | recv i | receiving i =>
    obtain ⟨-, -, howner⟩ := hp
    exact (hidle howner).elim
  | send i =>
    obtain ⟨h, hi, howner | ⟨place, howner⟩⟩ := hp
    · exact (hidle howner).elim
    · rw [hlater (by simp)]
      obtain ⟨himpl, howner'⟩ := send_owner howner hstep
      exact ⟨h.of_same rfl (congrArg Impl.readThread himpl), hi, howner'⟩
  | disconnect =>
    obtain ⟨hconnected, hlines, h⟩ := hp
    have hearly : decide (Early ⟨.disconnect, u, socket, printed⟩ .owner) = decide (Finds u) := by
      simp [Early]
    rw [hearly]
    exact ⟨hconnected, hlines, h.owner hsim hstep⟩
  | destroy code =>
    obtain ⟨-, howner⟩ := hp
    exact (hidle howner).elim
  | destroying code =>
    obtain ⟨h, hdestroying⟩ := hp
    obtain ⟨hdestroying', hleft⟩ := hdestroying.owner h.left hstep
    rw [hlater (by simp)]
    exact ⟨⟨h.code, h.lines, h.reached, hleft⟩, hdestroying'⟩
  | exited | aborted | killed => exact absurd trivial hgoing

theorem Holds.sent {t : Threads} {result : ℤ} (hp : p.Holds n connected early)
    (hgoing : ¬ p.place.Ended) (hstep : threads.step p.transport (.sent result) = some t) :
    Holds n connected early { p with transport := t } := by
  obtain ⟨place, u, socket, printed⟩ := p
  obtain ⟨data, at', howner, hthread, howner'⟩ := sent_owner hstep
  have hidle (h : u.owner = .idle) : False := by cases h.symm.trans howner
  cases place with
  | start =>
    obtain ⟨-, -, -, config, rfl⟩ := hp
    cases howner
  | connect =>
    obtain ⟨-, -, h⟩ := hp
    cases h with
    | under config env place owner => cases owner.symm.trans howner
    | returned idle => exact (hidle idle).elim
  | version i | receive i | recv i | receiving i =>
    obtain ⟨-, -, h⟩ := hp
    exact (hidle h).elim
  | send i =>
    obtain ⟨h, hi, h' | ⟨place, h'⟩⟩ := hp
    · exact (hidle h').elim
    · cases h'.symm.trans howner
      exact ⟨h.of_same rfl hthread, hi, howner'⟩
  | disconnect =>
    obtain ⟨-, -, h⟩ := hp
    cases h with
    | before place owner => cases owner.symm.trans howner
    | behind place owner => cases owner.symm.trans howner
    | returned idle => exact (hidle idle).elim
  | destroy code =>
    obtain ⟨-, h⟩ := hp
    exact (hidle h).elim
  | destroying code =>
    obtain ⟨-, h⟩ := hp
    cases h with
    | testDisconnected owner => cases owner.symm.trans howner
    | testError owner => cases owner.symm.trans howner
    | returned idle => exact (hidle idle).elim
  | exited | aborted | killed => exact absurd trivial hgoing

theorem Asking.answered {i : ℕ} {result : Except String (List UInt8)}
    (h : p.Asking connected early i) : (p.answered i result).Asking connected early (i + 1) := by
  refine ⟨h.connected, h.early, ?_, h.thread⟩
  simp [Program.answered, h.lines]

theorem Holds.main (hp : p.Holds n connected early) (h : p.step n .main = some q) :
    q.Holds n connected early := by
  obtain ⟨place, t, socket, printed⟩ := p
  cases step_main h with
  | connected hplace hidle =>
    cases hplace
    obtain ⟨rfl, hprinted, hconnecting⟩ := hp
    cases hconnecting with
    | under config env place owner => cases owner.symm.trans hidle
    | returned _ hanswer hthread hstatus =>
      have hlines : printed.length = 0 := congrArg List.length hprinted
      rw [hanswer]
      cases connected with
      | true => exact ⟨⟨rfl, rfl, hlines, hthread⟩, Nat.zero_le n, hidle⟩
      | false =>
        have hnone : t.impl.readThread = .none := by
          cases hcase : t.impl.readThread with
          | none => rfl
          | running => rw [hcase] at hthread; cases hthread
          | finished => rw [hcase] at hthread; cases hthread
        exact ⟨⟨rfl, hlines, fun h => h, .quiet ⟨hnone, hstatus rfl⟩⟩, hidle⟩
  | unjoined hplace haborted =>
    cases hplace
    obtain ⟨-, -, hconnecting⟩ := hp
    cases hconnecting with
    | under config env place owner => cases owner.symm.trans haborted
    | returned hidle => cases hidle.symm.trans haborted
  | send i hplace hmore hidle =>
    cases hplace
    obtain ⟨hasking, -, -⟩ := hp
    exact ⟨hasking.of_same rfl rfl, hmore, .inr ⟨_, rfl⟩⟩
  | disconnect i hplace hlast hidle =>
    cases hplace
    obtain ⟨hasking, hi, -⟩ := hp
    have hall : i = n := by omega
    subst hall
    refine ⟨hasking.connected, hasking.lines, ?_⟩
    rw [hasking.early]
    exact .before .testDisconnected rfl id hasking.thread
  | sent i hplace hidle =>
    cases hplace
    obtain ⟨hasking, hi, -⟩ := hp
    exact ⟨hasking.of_same rfl rfl, hi, hidle⟩
  | unsent i hplace hidle =>
    cases hplace
    obtain ⟨hasking, hi, -⟩ := hp
    exact ⟨hasking.answered, hi, hidle⟩
  | load i buffer hplace =>
    cases hplace
    obtain ⟨hasking, hi, hidle⟩ := hp
    exact ⟨hasking.of_same rfl rfl, hi, hidle⟩
  | recv i buffer fd hplace =>
    cases hplace
    obtain ⟨hasking, hi, hidle⟩ := hp
    exact ⟨hasking.of_same rfl rfl, hi, hidle⟩
  | closed i buffer fd hplace =>
    cases hplace
    obtain ⟨hasking, hi, hidle⟩ := hp
    exact ⟨hasking.answered, hi, hidle⟩
  | disconnected hplace hidle =>
    cases hplace
    obtain ⟨rfl, hlines, hdisconnecting⟩ := hp
    cases hdisconnecting with
    | before place owner => cases owner.symm.trans hidle
    | behind place owner => cases owner.symm.trans hidle
    | returned _ hleft => exact ⟨⟨rfl, hlines, fun _ => rfl, hleft⟩, hidle⟩
  | destroy code hplace hidle =>
    cases hplace
    obtain ⟨hleaves, -⟩ := hp
    exact ⟨⟨hleaves.code, hleaves.lines, hleaves.reached, hleaves.left.of_same rfl rfl⟩,
      .testDisconnected rfl⟩
  | destroyed code hplace hidle =>
    cases hplace
    obtain ⟨hleaves, -⟩ := hp
    have hjoinable : t.impl.readThread.joinable = early := hleaves.left.joinable
    rw [hjoinable]
    cases early with
    | true =>
      have hconnected := hleaves.reached rfl
      have hlines := hleaves.lines
      rw [hconnected] at hlines
      refine ⟨hconnected, rfl, hlines, ?_⟩
      show t.owner ≠ .aborted
      rw [show t.owner = .idle from hidle]
      nofun
    | false =>
      exact ⟨⟨hleaves.code, hleaves.lines, hleaves.reached, hleaves.left⟩, rfl, hidle⟩

theorem Holds.byte (hp : p.Holds n connected early) (h : p.step n .byte = some q) :
    q.Holds n connected early := by
  obtain ⟨i, buffer, byte, rest, hplace, -, rfl⟩ := step_byte h
  simp only [Holds, hplace] at hp
  obtain ⟨hasking, hi, hidle⟩ := hp
  have htaken : Asking connected early i { p with socket := p.socket.take .receive 1 } :=
    hasking.of_same rfl rfl
  split
  · exact ⟨htaken.answered, hi, hidle⟩
  · exact ⟨htaken.of_same rfl rfl, hi, hidle⟩

theorem Holds.receiveFails (hp : p.Holds n connected early)
    (h : p.step n .receiveFails = some q) : q.Holds n connected early := by
  obtain ⟨i, buffer, hplace, rfl⟩ := step_receiveFails h
  simp only [Holds, hplace] at hp
  obtain ⟨hasking, hi, hidle⟩ := hp
  exact ⟨hasking.answered, hi, hidle⟩

theorem Holds.sigpipe (hp : p.Holds n connected early) (h : p.step n .sigpipe = some q) :
    q.Holds n connected early := by
  obtain ⟨i, hplace, rfl⟩ := step_sigpipe h
  simp only [Holds, hplace] at hp
  obtain ⟨hasking, hi, howner⟩ := hp
  refine ⟨hasking.connected, hasking.early, ?_, ?_⟩
  · show p.printed.length < n
    rw [hasking.lines]
    exact hi
  · show p.transport.owner ≠ .aborted
    rcases howner with hidle | ⟨place, howner⟩
    · rw [hidle]
      nofun
    · rw [howner]
      nofun

/-- `main` calls `connect` once, so no other reader runs then. -/
theorem Holds.apart (hp : p.Holds n connected early) (hgoing : ¬ p.place.Ended) (m : Move) :
    Apart p.transport m := by
  obtain ⟨place, t, socket, printed⟩ := p
  rintro ⟨-, hsets, hrunning⟩
  have hidle (h : t.owner = .idle) : False := by
    have hsets : t.owner.setsSocket = true := hsets
    rw [h] at hsets
    cases hsets
  have hdisconnect {at' : DisconnectAt} (h : t.owner = .disconnect at') : False := by
    have hsets : t.owner.setsSocket = true := hsets
    rw [h] at hsets
    cases hsets
  cases place with
  | start =>
    obtain ⟨-, -, -, config, rfl⟩ := hp
    exact hidle rfl
  | connect =>
    obtain ⟨-, -, h⟩ := hp
    cases h with
    | under config env place owner reached =>
      have hthr := ConnectAt.readThread_eq (Impl.down_new config) reached
      cases hthr.symm.trans hrunning
    | returned idle => exact hidle idle
  | version i | receive i | recv i | receiving i =>
    obtain ⟨-, -, h⟩ := hp
    exact hidle h
  | send i =>
    obtain ⟨-, -, h | ⟨place, h⟩⟩ := hp
    · exact hidle h
    · have hsets : t.owner.setsSocket = true := hsets
      have h : t.owner = .send request place := h
      rw [h] at hsets
      cases hsets
  | disconnect =>
    obtain ⟨-, -, h⟩ := hp
    cases h with
    | before place owner => exact hdisconnect owner
    | behind place owner => exact hdisconnect owner
    | returned idle => exact hidle idle
  | destroy code =>
    obtain ⟨-, h⟩ := hp
    exact hidle h
  | destroying code =>
    obtain ⟨-, h⟩ := hp
    cases h with
    | testDisconnected owner => exact hdisconnect owner
    | testError owner => exact hdisconnect owner
    | returned idle => exact hidle idle
  | exited | aborted | killed => exact absurd trivial hgoing

theorem Holds.connect {env : ConnectEnv} (hp : p.Holds n connected early)
    (h : p.step n (.connect env) = some q) : q.Holds n (connected || env.succeeds) early := by
  obtain ⟨hplace, -, rfl⟩ := step_connect h
  simp only [Holds, hplace] at hp
  obtain ⟨rfl, rfl, hprinted, config, hnew⟩ := hp
  rw [Bool.false_or]
  have hreached : ConnectAt.Reached env (.new config) p.transport.impl .testStatus := by
    rw [hnew]
    rfl
  exact ⟨rfl, hprinted, .under config env .testStatus rfl hreached⟩

theorem Holds.device {bytes : List UInt8} (hp : p.Holds n connected early) :
    Holds n connected early { p with socket := p.socket.send bytes } := by
  obtain ⟨place, t, socket, printed⟩ := p
  have hasking {i : ℕ} (h : Asking connected early i ⟨place, t, socket, printed⟩) :
      Asking connected early i ⟨place, t, socket.send bytes, printed⟩ := h.of_same rfl rfl
  have hleaves {code : ℕ} (h : Leaves n connected early code ⟨place, t, socket, printed⟩) :
      Leaves n connected early code ⟨place, t, socket.send bytes, printed⟩ :=
    ⟨h.code, h.lines, h.reached, h.left⟩
  cases place with
  | start | connect | disconnect | aborted | killed => exact hp
  | version | send | receive | recv | receiving => exact ⟨hasking hp.1, hp.2⟩
  | destroy | destroying | exited => exact ⟨hleaves hp.1, hp.2⟩

theorem Holds.plain {a : Action} (hq : q.Holds n connected early) (hconnects : a.connects = false)
    (hearly : ¬ p.Early a) : q.Holds n (connected || a.connects) (early || decide (p.Early a)) := by
  rw [hconnects, decide_eq_false hearly, Bool.or_false, Bool.or_false]
  exact hq

theorem Holds.step {a : Action} {r : Process} (hp : p.Holds n connected early)
    (hsim : Sim p.transport r) (h : p.step n a = some q) :
    q.Holds n (connected || a.connects) (early || decide (p.Early a)) := by
  cases a with
  | connect env =>
    have hnot : ¬ p.Early (.connect env) := id
    rw [decide_eq_false hnot, Bool.or_false]
    exact hp.connect h
  | owner =>
    obtain ⟨hgoing, t, ht, rfl⟩ := moves_eq_some h
    have hno : Action.connects .owner = false := rfl
    rw [hno, Bool.or_false]
    exact hp.owner hsim hgoing ht
  | main => exact (hp.main h).plain rfl id
  | sent result =>
    obtain ⟨hgoing, t, ht, rfl⟩ := moves_eq_some h
    exact (hp.sent hgoing ht).plain rfl id
  | sigpipe => exact (hp.sigpipe h).plain rfl id
  | reader =>
    obtain ⟨hgoing, t, ht, rfl⟩ := moves_eq_some h
    exact (hp.reads hgoing (.of_reader ht)).plain rfl id
  | received r =>
    obtain ⟨-, hgoing, t, ht, rfl⟩ := step_received h
    exact (hp.reads hgoing (.of_received ht)).plain rfl id
  | byte => exact (hp.byte h).plain rfl id
  | receiveFails => exact (hp.receiveFails h).plain rfl id
  | device bytes =>
    have hsame := Option.some.inj h
    subst hsame
    exact hp.device.plain rfl id

/-- A move of the threads has its place among the runs of `tcp`. -/
theorem Holds.moves_sim {m : Move} {t : Threads} {r : Process} (hp : p.Holds n connected early)
    (hsim : Sim p.transport r) (hgoing : ¬ p.place.Ended)
    (hstep : threads.step p.transport m = some t) : ∃ r', Sim t r' := by
  obtain ⟨es, r', -, hsim'⟩ := hsim.step (hp.apart hgoing m) hstep
  exact ⟨r', hsim'⟩

theorem Holds.step_sim {a : Action} {r : Process} (hp : p.Holds n connected early)
    (hsim : Sim p.transport r) (h : p.step n a = some q) : ∃ r', Sim q.transport r' := by
  have hbegin (c : Call) (hgoing : ¬ p.place.Ended) (hidle : p.transport.owner = .idle) :
      ∃ r', Sim (p.transport.begin c) r' := by
    have hcall : threads.step p.transport (.call c) = some (p.transport.begin c) := if_pos hidle
    exact hp.moves_sim hsim hgoing hcall
  cases a with
  | connect env =>
    obtain ⟨hplace, hidle, rfl⟩ := step_connect h
    exact hbegin (.connect env) (by rw [hplace]; exact id) hidle
  | owner | sent result | reader =>
    obtain ⟨hgoing, t, ht, rfl⟩ := moves_eq_some h
    exact hp.moves_sim hsim hgoing ht
  | main =>
    cases step_main h with
    | send i hplace hmore hidle =>
      exact hbegin (.send request) (by rw [hplace]; exact id) hidle
    | disconnect i hplace hlast hidle => exact hbegin .disconnect (by rw [hplace]; exact id) hidle
    | destroy code hplace hidle => exact hbegin .disconnect (by rw [hplace]; exact id) hidle
    | connected | unjoined | sent | unsent | load | recv | closed | disconnected | destroyed =>
      exact ⟨r, hsim⟩
  | sigpipe =>
    obtain ⟨i, -, rfl⟩ := step_sigpipe h
    exact ⟨r, hsim⟩
  | received r' =>
    obtain ⟨-, hgoing, t, ht, rfl⟩ := step_received h
    exact hp.moves_sim hsim hgoing ht
  | byte =>
    obtain ⟨i, buffer, byte, rest, -, -, rfl⟩ := step_byte h
    split <;> exact ⟨r, hsim⟩
  | receiveFails =>
    obtain ⟨i, buffer, -, rfl⟩ := step_receiveFails h
    exact ⟨r, hsim⟩
  | device bytes =>
    have hsame := Option.some.inj h
    subst hsame
    exact ⟨r, hsim⟩

/-- Whether some `connect` came through and some test of `disconnect` ended it, over a whole run. -/
theorem Holds.run {as : List Action} {r : Process} (hp : p.Holds n connected early)
    (hsim : Sim p.transport r) (hrun : (program n).run p as = some q) :
    ∃ ended, (ended = true ↔ early = true ∨ ¬ (program n).Along (fun p a => ¬ p.Early a) p as) ∧
      q.Holds n (connected || as.any Action.connects) ended ∧ ∃ r', Sim q.transport r' := by
  induction as generalizing p connected early r with
  | nil =>
    have hsame := Option.some.inj hrun
    subst hsame
    refine ⟨early, ?_, by simpa using hp, r, hsim⟩
    simp [System.Along]
  | cons a as ih =>
    obtain ⟨m, hm, hrest⟩ := (program n).run_cons_eq_some.mp hrun
    obtain ⟨r', hsim'⟩ := hp.step_sim hsim hm
    obtain ⟨ended, hended, hholds, hlast⟩ := ih (hp.step hsim hm) hsim' hrest
    refine ⟨ended, ?_, ?_, hlast⟩
    · rw [hended]
      simp only [System.Along, hm, Option.some.injEq, forall_eq', Bool.or_eq_true, decide_eq_true_eq]
      tauto
    · rw [List.any_cons, ← Bool.or_assoc]
      exact hholds

end Program

/-- How a process that is gone has ended. -/
inductive Ends (n : ℕ) (connected : Bool) (early : Prop) (p : Program) : Prop
  | refused (place : p.place = .exited 1) (unconnected : connected = false)
      (lines : p.printed.length = 0)
      (closed : ∀ fd < p.transport.impl.fds.opened, p.transport.impl.fds.ClosedOnce fd)
  | done (place : p.place = .exited 0) (connected : connected = true) (late : ¬ early)
      (lines : p.printed.length = n)
      (closed : ∀ fd < p.transport.impl.fds.opened, p.transport.impl.fds.ClosedOnce fd)
  | terminated (place : p.place = .aborted) (connected : connected = true) (early : early)
      (lines : p.printed.length = n) (once : p.transport.impl.fds.closes.Nodup)
  | sigpipe (place : p.place = .killed) (connected : connected = true)
      (lines : p.printed.length < n) (once : p.transport.impl.fds.closes.Nodup)

theorem closed_of_quiet {t : Threads} {r : Process} (hsim : Sim t r) (hidle : t.owner = .idle)
    (hquiet : Quiet t) : ∀ fd < t.impl.fds.opened, t.impl.fds.ClosedOnce fd := by
  have hended : t.impl.readThread ≠ .running := by
    rw [hquiet.thread]
    nofun
  cases hsim.atRest hidle with
  | @down c th hd hth hk hl hst hp =>
    obtain ⟨hm, -⟩ := hl.of_ended hended
    intro fd hfd
    rw [hm] at hfd ⊢
    rcases hk.1.accounts hk.2 hfd with ⟨hheld, -⟩ | ⟨-, hclosed⟩
    · cases hd.sockfd.symm.trans hheld
    · exact hclosed
  | up hu hk hm hl =>
    rw [hm] at hended
    exact absurd hu.thread hended

/-- However `main`, `read_loop`, the kernel and the board take turns, a process that is gone has
ended with 1 and no line of a version where `connect` failed; with 0 and all lines where the tests of
its `disconnect` found the connection up; by `std::terminate` behind all lines where one of them
found that it had ended; or by SIGPIPE before the last line. Where it exited it has closed each
descriptor exactly once, and otherwise none twice. -/
theorem main_outcome (config : TCPConfig) (n : ℕ) (as : List Action) (p : Program)
    (hrun : (program n).run (.start config) as = some p) (hended : p.place.Ended) :
    Ends n (as.any Action.connects)
      (¬ (program n).Along (fun p a => ¬ p.Early a) (.start config) as) p := by
  have hstart : (Program.start config).Holds n false false := ⟨rfl, rfl, rfl, config, rfl⟩
  obtain ⟨early, hearly, hholds, r, hsim⟩ := hstart.run (Sim.new config) hrun
  rw [Bool.false_or] at hholds
  simp only [Bool.false_eq_true, false_or] at hearly
  unfold Program.Holds at hholds
  cases hplace : p.place with
  | exited code =>
    rw [hplace] at hholds
    obtain ⟨hleaves, rfl, hidle⟩ := hholds
    have hclosed : ∀ fd < p.transport.impl.fds.opened, p.transport.impl.fds.ClosedOnce fd := by
      cases hleaves.left with
      | quiet hquiet => exact closed_of_quiet hsim hidle hquiet
    have hcode := hleaves.code
    have hlines := hleaves.lines
    cases hconnected : as.any Action.connects with
    | true =>
      rw [hconnected] at hcode hlines
      subst hcode
      refine .done hplace rfl (fun h => ?_) hlines hclosed
      cases hearly.mpr h
    | false =>
      rw [hconnected] at hcode hlines
      subst hcode
      exact .refused hplace rfl hlines hclosed
  | aborted =>
    rw [hplace] at hholds
    obtain ⟨hconnected, htrue, hlines, halive⟩ := hholds
    exact .terminated hplace hconnected (hearly.mp htrue) hlines (hsim.tidy halive).1
  | killed =>
    rw [hplace] at hholds
    obtain ⟨hconnected, -, hlines, halive⟩ := hholds
    exact .sigpipe hplace hconnected hlines (hsim.tidy halive).1
  | _ =>
    rw [hplace] at hended
    exact hended.elim

/-- The board closes the connection behind its answer, and `main` is ahead of `read_loop`. -/
def overtaken : List Action :=
  List.flatten [[.connect ⟨true, true, true⟩], List.replicate 12 .owner, [.main, .main],
    List.replicate 4 .owner, [.sent 5, .owner, .main, .device (buildFrame 0x51 [1, 2, 4])],
    (List.replicate 8 [.main, .main, .byte]).flatten, List.replicate 3 .reader,
    [.received .closed, .reader, .main, .owner, .main, .main, .owner, .main]]

theorem main_outcome_overtaken :
    ∃ p, (program 1).run (.start ⟨"127.0.0.1", 3000⟩) overtaken = some p ∧ p.place = .aborted ∧
      p.transport.impl.fds.IsOpen 0 ∧ Ends 1 (overtaken.any Action.connects)
        (¬ (program 1).Along (fun p a => ¬ p.Early a) (.start ⟨"127.0.0.1", 3000⟩) overtaken) p := by
  have hstate : ((program 1).run (.start ⟨"127.0.0.1", 3000⟩) overtaken).map
      (fun p => (p.place, p.transport.impl.fds)) = some (.aborted, ⟨1, []⟩) := by decide +kernel
  obtain ⟨p, hrun, hp⟩ := Option.map_eq_some_iff.mp hstate
  obtain ⟨hplace, hfds⟩ := Prod.mk.inj hp
  have hended : p.place.Ended := by
    rw [hplace]
    trivial
  have hopen : p.transport.impl.fds.IsOpen 0 := by
    rw [hfds]
    decide
  exact ⟨p, hrun, hplace, hopen, main_outcome ⟨"127.0.0.1", 3000⟩ 1 overtaken p hrun hended⟩

end Spectrum.Tests
