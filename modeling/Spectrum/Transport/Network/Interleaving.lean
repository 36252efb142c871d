import Spectrum.Transport.Network.Simulation

/-! Every interleaving of the owner's calls with `read_loop` is a run of `tcp`, in which each call
and each turn of the reader is one step, as long as `connect()` does not set `sockfd_` while a
`read_loop` is running. -/
namespace Spectrum.Transport.Network
open Foundation

namespace SendAt

variable {data : List UInt8} {results : List ℤ} {chunks : List (List UInt8)} {s s' : Impl}

theorem Told.start : Told data [] [] 0 := by
  intro more
  simp

theorem Told.more {totalSent : ℕ} {result : ℤ} (h : Told data results chunks totalSent)
    (hless : totalSent < data.length) (hpos : ¬ result ≤ 0) :
    Told data (results ++ [result]) (chunks ++ [(data.drop totalSent).take result.toNat])
      (totalSent + result.toNat) := by
  intro more
  have hnext := h (result :: more)
  rw [List.append_assoc, List.singleton_append, hnext]
  simp only [Impl.sendLoop, if_pos hless, if_neg hpos, Option.map_map]
  congr 1
  funext later
  simp

theorem Told.ends {totalSent : ℕ} {result : List ℤ} {ok : Bool}
    (h : Told data results chunks totalSent)
    (hlast : Impl.sendLoop data totalSent result = some (ok, [])) :
    Impl.sendLoop data 0 (results ++ result) = some (ok, chunks) := by
  rw [h result, hlast]
  simp

theorem Told.fails {totalSent : ℕ} {result : ℤ} (h : Told data results chunks totalSent)
    (hless : totalSent < data.length) (hfail : result ≤ 0) :
    Impl.sendLoop data 0 (results ++ [result]) = some (false, chunks) := by
  apply h.ends
  simp [Impl.sendLoop, hless, hfail]

theorem Progress.step {fd : ℕ} {place : SendAt} {next : Next SendAt}
    (h : place.Progress fd data results chunks) (hsock : ∀ h ∈ s.sockfd, h = fd)
    (hopen : place = .testSocket → s.sockfd ≠ none) (hstep : place.step data s = some next) :
    (∃ place', next = .goto place' ∧ place'.Progress fd data results chunks) ∨
      ∃ ok results', next = .returns ok ∧ Impl.sendLoop data 0 results' = some (ok, chunks) := by
  cases place with
  | testStatus => exact h.elim
  | testSocket =>
    obtain ⟨rfl, rfl⟩ := h
    simp only [SendAt.step, if_neg (hopen rfl)] at hstep
    cases hstep
    exact .inl ⟨_, rfl, Told.start⟩
  | loop totalSent =>
    simp only [SendAt.step] at hstep
    cases hstep
    split
    · next hless => exact .inl ⟨_, rfl, h, hless, hsock⟩
    · next hdone =>
      have hlast : Impl.sendLoop data totalSent [] = some (true, []) := by
        simp [Impl.sendLoop, hdone]
      exact .inr ⟨true, _, rfl, Told.ends h hlast⟩
  | send totalSent held =>
    obtain ⟨htold, hless, hheld⟩ := h
    -- `::send` on a descriptor that is not open returns -1
    have hfails := htold.fails hless (show (-1 : ℤ) ≤ 0 by decide)
    cases held with
    | none =>
      cases hstep
      exact .inr ⟨false, _, rfl, hfails⟩
    | some held =>
      simp only [SendAt.step] at hstep
      cases hstep
      split
      · exact .inl ⟨_, rfl, htold, hless, hheld held rfl⟩
      · exact .inr ⟨false, _, rfl, hfails⟩
  | sending => cases hstep

theorem Progress.sent {fd : ℕ} {place : SendAt} {result : ℤ} {next : Next SendAt}
    (h : place.Progress fd data results chunks)
    (hstep : place.sent data s result = some (s', next)) :
    (∃ place' results' chunks', next = .goto place' ∧
      place'.Progress fd data results' (chunks ++ chunks') ∧
      s' = s.aside s.receiveCallback (s.wire ++ chunks'.map (fd, ·))) ∨
    ∃ ok results', next = .returns ok ∧ s' = s ∧
      Impl.sendLoop data 0 results' = some (ok, chunks) := by
  cases place with
  | testStatus | testSocket | loop | send => cases hstep
  | sending totalSent held =>
    obtain ⟨htold, hless, rfl⟩ := h
    simp only [SendAt.sent] at hstep
    split at hstep
    · next hfail =>
      cases hstep
      exact .inr ⟨false, _, rfl, rfl, htold.fails hless hfail⟩
    · next hpos =>
      cases hstep
      exact .inl ⟨_, _, [(data.drop totalSent).take result.toNat], rfl, htold.more hless hpos, rfl⟩

end SendAt

namespace Impl

/-- What a whole `send` on a connected transport does. -/
theorem send_of_up {c : Impl} (hu : c.Up) (hk : c.Kept) {fd : ℕ} (hfd : c.sockfd = some fd)
    {data : List UInt8} {results : List ℤ} {ok : Bool} {chunks : List (List UInt8)}
    (h : sendLoop data 0 results = some (ok, chunks)) :
    ∃ u, c.send data results = some (ok, u) ∧ u.Up ∧ u.Kept ∧
      u.silent = c.silent.aside c.receiveCallback (c.wire ++ chunks.map (fd, ·)) := by
  have hsend : c.send data results = some (ok,
      if ok then { c with wire := c.wire ++ chunks.map (fd, ·) }
      else { c with wire := c.wire ++ chunks.map (fd, ·) }.logCode .tcpDataSendFailure) := by
    simp [send, hu.status, hfd, h]
  obtain ⟨hst, hsock, hrun, hthr, hfds⟩ := send_frame hsend
  have hopen := hu.sockfd
  rw [← hsock] at hopen
  refine ⟨_, hsend, ⟨hst.trans hu.status, hopen, hrun.trans hu.running, hthr.trans hu.thread⟩,
    hk.of_slot_eq ?_, ?_⟩
  · simp [slot, hsock, hfds]
  · cases ok <;> rfl

end Impl

namespace Sim

variable {t t' : Threads} {c : Impl} {data : List UInt8} {fd : ℕ} {results : List ℤ}
  {chunks : List (List UInt8)}

theorem sending_returns (hu : c.Up) (hk : c.Kept) (hfd : c.sockfd = some fd) {ok : Bool}
    (hloop : Impl.sendLoop data 0 results = some (ok, chunks)) (hl : t.readLoop.Looping c)
    (hm : t.impl = c.silent.aside c.receiveCallback (c.wire ++ chunks.map (fd, ·))) :
    Answered (.alive c) t.returned
      { t with owner := .idle, returned := t.returned ++ [(.send data, ok)] } := by
  obtain ⟨u, hsend, hup, hkept, hsilent⟩ := Impl.send_of_up hu hk hfd hloop
  have hevent : tcp.step (.alive c) (.send data results) = some (.alive u) := by
    simp [tcp, Network.step, hsend]
  have hsock : u.sockfd = c.sockfd := by
    rw [← Impl.silent_sockfd, hsilent]
    rfl
  have hcall : u.receiveCallback = c.receiveCallback := by
    rw [← Impl.silent_receiveCallback, hsilent]
    rfl
  have hl' : t.readLoop.Looping u := hl.of_same hsock hcall
  refine .event hevent (.up hup hkept (hm.trans hsilent.symm) hl' .idle) ?_
  simp [answer, hsend]

/-- `send` returns when the reader has already reported the end of the connection: the call comes
first. -/
theorem sendingLost_returns (hu : c.Up) (hk : c.Kept) (hfd : c.sockfd = some fd) {ok : Bool}
    (hloop : Impl.sendLoop data 0 results = some (ok, chunks)) {r : ReaderRecv}
    (hr : (Event.readLoop r).endsLoop = true) (hp : t.readLoop.Past t.impl)
    (hst : t.impl.status = r.status) (hl : Leaving t.impl t.readLoop
      ((c.readLoop r).silent.aside c.receiveCallback (c.wire ++ chunks.map (fd, ·)))) :
    Answered (.alive c) t.returned
      { t with owner := .idle, returned := t.returned ++ [(.send data, ok)] } := by
  obtain ⟨u, hsend, hup, hkept, hsilent⟩ := Impl.send_of_up hu hk hfd hloop
  have hfirst : tcp.step (.alive c) (.send data results) = some (.alive u) := by
    simp [tcp, Network.step, hsend]
  have hsecond : tcp.step (.alive u) (.readLoop r) = some (.alive (u.readLoop r)) :=
    if_pos ⟨hup.thread, ReaderRecv.valid_of_ends hr⟩
  have hsame : (u.readLoop r).silent =
      (c.readLoop r).silent.aside c.receiveCallback (c.wire ++ chunks.map (fd, ·)) := by
    rw [u.silent_readLoop hr, c.silent_readLoop hr, hsilent, ← Impl.readLoopExit_aside]
    rfl
  obtain ⟨hd, hk'⟩ := Impl.readLoop_ends hkept hr
  refine .events hfirst hsecond (.down hd (by decide) hk' (hsame ▸ hl) ?_ hp .idle) ?_
  · rw [u.readLoop_status hr]
    exact hst
  · simp [answer, hsend]

theorem sending_owner {place : SendAt} (hu : c.Up) (hk : c.Kept) (hfd : c.sockfd = some fd)
    (ho : t.owner = .send data place) (hprogress : place.Progress fd data results chunks)
    (hl : t.readLoop.Looping c)
    (hm : t.impl = c.silent.aside c.receiveCallback (c.wire ++ chunks.map (fd, ·)))
    (hstep : t.ownerStep = some t') : Answered (.alive c) t.returned t' := by
  have hsockfd : t.impl.sockfd = some fd := by
    rw [hm]
    exact hfd
  unfold Threads.ownerStep at hstep
  rw [ho] at hstep
  obtain ⟨next, hnext, rfl⟩ := Option.map_eq_some_iff.mp hstep
  rcases hprogress.step (by simp [hsockfd]) (by simp [hsockfd]) hnext with
    ⟨place', rfl, hprogress'⟩ | ⟨ok, results', rfl, hloop⟩
  · exact .stay (.sending hu hk hfd rfl hprogress' hl hm) rfl
  · exact sending_returns hu hk hfd hloop hl hm

/-- The reader has closed the socket before `send` began its loop: its end comes first. -/
theorem sendingLost_closed {r : ReaderRecv} (hu : c.Up) (hk : c.Kept)
    (hp : t.readLoop.Past t.impl) (hr : (Event.readLoop r).endsLoop = true)
    (hst : t.impl.status = r.status)
    (hl : Leaving t.impl t.readLoop ((c.readLoop r).silent.aside c.receiveCallback c.wire)) :
    Answered (.alive c) t.returned
      { t with owner := .idle, returned := t.returned ++ [(.send data, false)] } := by
  obtain ⟨hd, hk'⟩ := Impl.readLoop_ends hk hr
  have hevent : tcp.step (.alive c) (.readLoop r) = some (.alive (c.readLoop r)) :=
    if_pos ⟨hu.thread, ReaderRecv.valid_of_ends hr⟩
  have hst' : t.impl.status = (c.readLoop r).status := hst.trans (c.readLoop_status hr).symm
  have hsame : (c.readLoop r).silent.aside c.receiveCallback c.wire = (c.readLoop r).silent := by
    rw [c.silent_readLoop hr, ← Impl.readLoopExit_aside]
    rfl
  rw [hsame] at hl
  obtain ⟨es, q, hrun, hsim⟩ := send_down hd (by decide) hk' hl hst' hp data
  refine ⟨.readLoop r :: es, q, ?_, hsim⟩
  refine (System.run_cons_eq_some _).mpr ⟨(.alive (c.readLoop r), t.returned), ?_, hrun⟩
  rw [tcp.observed_step answer hevent]
  simp [answer]

theorem sendingLost_owner {place : SendAt} {r : ReaderRecv} (hu : c.Up) (hk : c.Kept)
    (hfd : c.sockfd = some fd) (ho : t.owner = .send data place)
    (hprogress : place.Progress fd data results chunks) (hp : t.readLoop.Past t.impl)
    (hr : (Event.readLoop r).endsLoop = true) (hst : t.impl.status = r.status)
    (hsock : ∀ h ∈ t.impl.sockfd, h = fd) (hl : Leaving t.impl t.readLoop
      ((c.readLoop r).silent.aside c.receiveCallback (c.wire ++ chunks.map (fd, ·))))
    (hstep : t.ownerStep = some t') : Answered (.alive c) t.returned t' := by
  unfold Threads.ownerStep at hstep
  rw [ho] at hstep
  obtain ⟨next, hnext, rfl⟩ := Option.map_eq_some_iff.mp hstep
  by_cases hclosed : place = .testSocket ∧ t.impl.sockfd = none
  · obtain ⟨rfl, hnone⟩ := hclosed
    obtain ⟨-, rfl⟩ := hprogress
    rw [List.map_nil, List.append_nil] at hl
    simp only [SendAt.step, if_pos hnone] at hnext
    cases hnext
    exact sendingLost_closed hu hk hp hr hst hl
  · rcases hprogress.step hsock (fun htest hnone => hclosed ⟨htest, hnone⟩) hnext with
      ⟨place', rfl, hprogress'⟩ | ⟨ok, results', rfl, hloop⟩
    · exact .stay (.sendingLost hu hk hfd rfl hprogress' hp hr hst hsock hl) rfl
    · exact sendingLost_returns hu hk hfd hloop hr hp hst hl

theorem sending_sent {place : SendAt} (hu : c.Up) (hk : c.Kept) (hfd : c.sockfd = some fd)
    (ho : t.owner = .send data place) (hprogress : place.Progress fd data results chunks)
    (hl : t.readLoop.Looping c)
    (hm : t.impl = c.silent.aside c.receiveCallback (c.wire ++ chunks.map (fd, ·))) {result : ℤ}
    (hstep : t.step (.sent result) = some t') : Answered (.alive c) t.returned t' := by
  simp only [Threads.step, ho] at hstep
  obtain ⟨⟨m, next⟩, hnext, rfl⟩ := Option.map_eq_some_iff.mp hstep
  rcases hprogress.sent hnext with
    ⟨place', results', chunks', rfl, hprogress', rfl⟩ | ⟨ok, results', rfl, rfl, hloop⟩
  · refine .stay (.sending hu hk hfd rfl hprogress' hl ?_) rfl
    show t.impl.aside _ _ = _
    rw [hm, List.map_append, ← List.append_assoc]
    rfl
  · exact sending_returns hu hk hfd hloop hl hm

theorem sendingLost_sent {place : SendAt} {r : ReaderRecv} (hu : c.Up) (hk : c.Kept)
    (hfd : c.sockfd = some fd) (ho : t.owner = .send data place)
    (hprogress : place.Progress fd data results chunks) (hp : t.readLoop.Past t.impl)
    (hr : (Event.readLoop r).endsLoop = true) (hst : t.impl.status = r.status)
    (hsock : ∀ h ∈ t.impl.sockfd, h = fd) (hl : Leaving t.impl t.readLoop
      ((c.readLoop r).silent.aside c.receiveCallback (c.wire ++ chunks.map (fd, ·)))) {result : ℤ}
    (hstep : t.step (.sent result) = some t') : Answered (.alive c) t.returned t' := by
  simp only [Threads.step, ho] at hstep
  obtain ⟨⟨m, next⟩, hnext, rfl⟩ := Option.map_eq_some_iff.mp hstep
  rcases hprogress.sent hnext with
    ⟨place', results', chunks', rfl, hprogress', rfl⟩ | ⟨ok, results', rfl, rfl, hloop⟩
  · obtain ⟨hcb, hwire⟩ := hl.kept
    have haside := hl.aside t.impl.receiveCallback (t.impl.wire ++ chunks'.map (fd, ·))
    refine .stay (.sendingLost hu hk hfd rfl hprogress' hp hr hst hsock ?_) rfl
    rw [List.map_append, ← List.append_assoc]
    rw [hcb, hwire] at haside
    show Leaving (t.impl.aside _ _) t.readLoop _
    rw [hcb, hwire]
    exact haside
  · exact sendingLost_returns hu hk hfd hloop hr hp hst hl

theorem reader_eq (hstep : t.step .reader = some t') : t.impl.readThread = .running ∧
    ∃ s place, t.readLoop.step t.impl = some (s, place) ∧
      t' = { t with impl := s, readLoop := place } := by
  simp only [Threads.step] at hstep
  split at hstep
  · next hrunning =>
    obtain ⟨⟨s, place⟩, hmove, heq⟩ := Option.map_eq_some_iff.mp hstep
    exact ⟨hrunning.2, s, place, hmove, heq.symm⟩
  · cases hstep

theorem received_eq {r : ReaderRecv} (hstep : t.step (.received r) = some t') :
    t.impl.readThread = .running ∧ t.readLoop = .receiving ∧ r.Valid ∧
      t' = { t with readLoop := .received r } := by
  simp only [Threads.step] at hstep
  split at hstep
  · next hguard =>
    obtain ⟨-, hthr, hplace, hvalid⟩ := hguard
    exact ⟨hthr, hplace, hvalid, (Option.some.inj hstep).symm⟩
  · cases hstep

theorem down_reader {th : ReadThread} (hd : c.Down th) (hth : th ≠ .running) (hk : c.Kept)
    (hl : Leaving t.impl t.readLoop c.silent) (hst : t.impl.status = c.status)
    (hp : t.readLoop.Past t.impl) (ho : t.owner.Resting c) (hstep : t.step .reader = some t') :
    Answered (.alive c) t.returned t' := by
  obtain ⟨hthr, s, place, hmove, rfl⟩ := reader_eq hstep
  have hst' := hl.step_status hthr hp hst hmove
  exact .stay (.down hd hth hk (hl.step hthr hmove) hst' (hl.step_past hthr hp hmove) ho) rfl

theorem opened_reader {th : ReadThread} {env : ConnectEnv} (hd : c.Down th) (hth : th ≠ .running)
    (hk : c.Kept) (hl : Leaving t.impl t.readLoop
      (if env.socket then c.silent.acquires else c.silent))
    (ho : t.owner = .connect env (.setSocket (if env.socket then some c.fds.opened else none)))
    (hstep : t.step .reader = some t') : Answered (.alive c) t.returned t' := by
  obtain ⟨hthr, s, place, hmove, rfl⟩ := reader_eq hstep
  exact .stay (.opened hd hth hk (hl.step hthr hmove) ho) rfl

theorem stopped_reader {last : Option ReaderRecv} (hu : c.Up) (hk : c.Kept)
    (hv : ∀ r ∈ last, r.Valid) (hl : Leaving t.impl t.readLoop (c.stopped last).silent)
    (ho : t.owner.Joining ∨ (t.owner = .disconnect .testError ∧ t.readLoop.Past t.impl ∧
      t.impl.status = .disconnected ∧ (c.stopped last).status = .disconnected))
    (hstep : t.step .reader = some t') : Answered (.alive c) t.returned t' := by
  obtain ⟨hthr, s, place, hmove, rfl⟩ := reader_eq hstep
  refine .stay (.stopped hu hk hv (hl.step hthr hmove) ?_) rfl
  rcases ho with ho | ⟨ho, hp, hst, hlast⟩
  · exact .inl ho
  · have hst' := hl.step_status hthr hp (hst.trans hlast.symm) hmove
    exact .inr ⟨ho, hl.step_past hthr hp hmove, hst'.trans hlast, hlast⟩

theorem sendingLost_reader {place : SendAt} {r : ReaderRecv} (hu : c.Up) (hk : c.Kept)
    (hfd : c.sockfd = some fd) (ho : t.owner = .send data place)
    (hprogress : place.Progress fd data results chunks) (hp : t.readLoop.Past t.impl)
    (hr : (Event.readLoop r).endsLoop = true) (hst : t.impl.status = r.status)
    (hsock : ∀ h ∈ t.impl.sockfd, h = fd) (hl : Leaving t.impl t.readLoop
      ((c.readLoop r).silent.aside c.receiveCallback (c.wire ++ chunks.map (fd, ·))))
    (hstep : t.step .reader = some t') : Answered (.alive c) t.returned t' := by
  obtain ⟨hthr, s, place', hmove, rfl⟩ := reader_eq hstep
  have hst' := hl.step_status hthr hp (hst.trans (c.readLoop_status hr).symm) hmove
  have hsock' : ∀ h ∈ s.sockfd, h = fd := by
    rcases Leaving.step_sockfd hmove with hsame | hnone
    · rw [hsame]
      exact hsock
    · rw [hnone]
      simp
  exact .stay (.sendingLost hu hk hfd ho hprogress (hl.step_past hthr hp hmove) hr
    (hst'.trans (c.readLoop_status hr)) hsock' (hl.step hthr hmove)) rfl

theorem up_reports {r : ReaderRecv} (hu : c.Up) (hk : c.Kept) (hm : t.impl = c.silent)
    (hr : (Event.readLoop r).endsLoop = true) (ho : t.owner.Undecided) :
    Answered (.alive c) t.returned
      { t with impl := { t.impl with status := r.status }, readLoop := .clearRunning } := by
  have hleft : Leaving t.impl (.report r.status) (c.readLoop r).silent :=
    hm ▸ leaving_report hu hr
  have hl' : Leaving { t.impl with status := r.status } .clearRunning (c.readLoop r).silent :=
    hleft.step (by rw [hm]; exact hu.thread) rfl
  have hp' : ReaderAt.clearRunning.Past { t.impl with status := r.status } := trivial
  have hevent : tcp.step (.alive c) (.readLoop r) = some (.alive (c.readLoop r)) :=
    if_pos ⟨hu.thread, ReaderRecv.valid_of_ends hr⟩
  obtain ⟨hd, hk'⟩ := Impl.readLoop_ends hk hr
  have hst : r.status = (c.readLoop r).status := (c.readLoop_status hr).symm
  have hends (hrest : t.owner.Resting (c.readLoop r)) : Answered (.alive c) t.returned
      { t with impl := { t.impl with status := r.status }, readLoop := .clearRunning } := by
    refine .event hevent (.down hd (by decide) hk' hl' hst hp' hrest) ?_
    simp [answer]
  have hlast : ∀ r' ∈ some r, r'.Valid := by simp [ReaderRecv.valid_of_ends hr]
  have hjoins : Leaving { t.impl with status := r.status } .clearRunning
      (c.stopped (some r)).silent := by
    rw [c.stopped_of_ends hr]
    exact hl'
  generalize howner : t.owner = o at ho hends
  cases ho with
  | idle => exact hends .idle
  | connect env => exact hends (.connect env)
  | disconnect => exact hends .disconnect
  | send data => exact hends (.send data)
  | clearRunning =>
    refine .stay (.stopped hu hk hlast hjoins (.inl ?_)) rfl
    exact howner ▸ .clearRunning
  | testError =>
    -- the comparison still to come tells the two reports apart
    by_cases herr : r.status = .error
    · exact hends (.testError (hst.symm.trans herr))
    · have hdisc : r.status = .disconnected := by
        cases r with
        | data | timeout | error => exact absurd rfl herr
        | closed => rfl
      refine .stay (.stopped hu hk hlast hjoins (.inr ⟨rfl, hp', hdisc, ?_⟩)) rfl
      rw [c.stopped_of_ends hr]
      exact hst.symm.trans hdisc

theorem hands_event (hu : c.Up) (hk : c.Kept) {bytes : List UInt8}
    (hvalid : (ReaderRecv.data bytes).Valid) :
    tcp.step (.alive c) (.readLoop (.data bytes)) = some (.alive (c.hands bytes)) ∧
      (c.hands bytes).Up ∧ (c.hands bytes).Kept := by
  have hsame := Impl.readLoop_data_of_running hu.running bytes
  obtain ⟨hup, hkept⟩ := Impl.readLoop_data hu hk bytes
  rw [hsame] at hup hkept
  refine ⟨?_, hup, hkept⟩
  rw [← hsame]
  exact if_pos ⟨hu.thread, hvalid⟩

theorem up_reader (hu : c.Up) (hk : c.Kept) (hm : t.impl = c.silent) (hl : t.readLoop.Looping c)
    (ho : t.owner.Undecided) (hstep : t.step .reader = some t') :
    Answered (.alive c) t.returned t' := by
  obtain ⟨-, s, place, hmove, rfl⟩ := reader_eq hstep
  have haside : t.impl = c.silent.aside c.receiveCallback c.wire := hm
  rcases hl.turn hu hk haside hmove with ⟨rfl, hl'⟩ | ⟨bytes, hvalid, rfl, hl'⟩ | ⟨r, hr, hplace⟩
  · exact .stay (.up hu hk rfl hl' ho) rfl
  · obtain ⟨hevent, hup, hkept⟩ := hands_event hu hk hvalid
    obtain ⟨hcall, -, hwire⟩ := c.hands_frame bytes
    refine .event hevent (.up hup hkept ?_ hl' ho) (by simp [answer])
    rw [← hcall, ← hwire]
    rfl
  · have hreports := up_reports hu hk hm hr ho
    rw [hplace] at hmove
    cases hmove
    exact hreports

theorem sending_reader {place : SendAt} (hu : c.Up) (hk : c.Kept) (hfd : c.sockfd = some fd)
    (ho : t.owner = .send data place) (hprogress : place.Progress fd data results chunks)
    (hl : t.readLoop.Looping c)
    (hm : t.impl = c.silent.aside c.receiveCallback (c.wire ++ chunks.map (fd, ·)))
    (hstep : t.step .reader = some t') : Answered (.alive c) t.returned t' := by
  obtain ⟨hthr, s, place', hmove, rfl⟩ := reader_eq hstep
  rcases hl.turn hu hk hm hmove with ⟨rfl, hl'⟩ | ⟨bytes, hvalid, rfl, hl'⟩ | ⟨r, hr, hplace⟩
  · exact .stay (.sending hu hk hfd ho hprogress hl' rfl) rfl
  · obtain ⟨hevent, hup, hkept⟩ := hands_event hu hk hvalid
    obtain ⟨hcall, hsock, hwire⟩ := c.hands_frame bytes
    refine .event hevent (.sending hup hkept (hsock.trans hfd) ho hprogress hl' ?_)
      (by simp [answer])
    rw [hcall, hwire]
  · have hleft := (leaving_report hu hr).aside c.receiveCallback (c.wire ++ chunks.map (fd, ·))
    rw [← hm] at hleft
    have hl' := hleft.step hthr (hplace ▸ hmove)
    rw [hplace] at hmove
    cases hmove
    refine .stay (.sendingLost hu hk hfd ho hprogress trivial hr rfl ?_ hl') rfl
    have hsock : t.impl.sockfd = some fd := by
      rw [hm]
      exact hfd
    simp [hsock]

theorem up_received {r : ReaderRecv} (hu : c.Up) (hk : c.Kept) (hm : t.impl = c.silent)
    (ho : t.owner.Undecided) (hstep : t.step (.received r) = some t') :
    Answered (.alive c) t.returned t' := by
  obtain ⟨-, -, hvalid, rfl⟩ := received_eq hstep
  exact .stay (.up hu hk hm (ReaderAt.looping_received hvalid c) ho) rfl

theorem sending_received {place : SendAt} {r : ReaderRecv} (hu : c.Up) (hk : c.Kept)
    (hfd : c.sockfd = some fd) (ho : t.owner = .send data place)
    (hprogress : place.Progress fd data results chunks)
    (hm : t.impl = c.silent.aside c.receiveCallback (c.wire ++ chunks.map (fd, ·)))
    (hstep : t.step (.received r) = some t') : Answered (.alive c) t.returned t' := by
  obtain ⟨-, -, hvalid, rfl⟩ := received_eq hstep
  exact .stay (.sending hu hk hfd ho hprogress (ReaderAt.looping_received hvalid c) hm) rfl

theorem joining_of_waiting {o : OwnerAt}
    (ho : o = .disconnect .testJoinable ∨ o = .disconnect .join) : o.Joining := by
  rcases ho with ho | ho <;> rw [ho]
  · exact .testJoinable
  · exact .join

theorem waiting_hands {place : ReaderAt} {bytes : List UInt8} (hu : c.Up) (hk : c.Kept)
    (hvalid : (ReaderRecv.data bytes).Valid) (hplace : place = .test ∨ place = .callback)
    (ho : t.owner = .disconnect .testJoinable ∨ t.owner = .disconnect .join) :
    Answered (.alive c) t.returned
      { t with impl := { c.silent with running := false }.hands bytes, readLoop := place } := by
  have hlast : ∀ r ∈ some (ReaderRecv.data bytes), r.Valid := by simp [hvalid]
  refine .stay (.stopped hu hk hlast ?_ (.inl (joining_of_waiting ho))) rfl
  rw [c.silent_stopped_data bytes]
  have hthr : ({ c.silent with running := false }.hands bytes).readThread = .running := by
    cases hset : c.receiveCallback <;> simp [Impl.hands, hset, Impl.silent, hu.thread]
  have hrun : ({ c.silent with running := false }.hands bytes).running = false := by
    cases hset : c.receiveCallback <;> simp [Impl.hands, hset, Impl.silent]
  rcases hplace with rfl | rfl
  · exact .exiting hthr hrun rfl
  · exact .exiting hthr hrun rfl

theorem waiting_reader (hu : c.Up) (hk : c.Kept)
    (hm : t.impl = { c.silent with running := false }) (hl : t.readLoop.Looping c)
    (hp : t.readLoop.Turning)
    (ho : t.owner = .disconnect .testJoinable ∨ t.owner = .disconnect .join)
    (hstep : t.step .reader = some t') : Answered (.alive c) t.returned t' := by
  obtain ⟨-, s, place, hmove, rfl⟩ := reader_eq hstep
  cases hplace : t.readLoop with
  | loadSocket =>
    rw [hplace] at hmove
    cases hmove
    refine .stay (.waiting hu hk hm ?_ trivial ho) rfl
    show t.impl.sockfd = c.sockfd
    rw [hm]
    rfl
  | recv fd =>
    rw [hplace] at hl hmove
    have hfd : fd = c.sockfd := hl
    obtain ⟨h, hh⟩ := Option.ne_none_iff_exists'.mp hu.sockfd
    have hserves : t.impl.Serves fd := by
      rw [hm, hfd]
      exact ⟨h, hh, hk.1.held_open h hh⟩
    simp only [ReaderAt.step, if_pos hserves] at hmove
    cases hmove
    exact .stay (.waiting hu hk hm trivial trivial ho) rfl
  | receiving =>
    rw [hplace] at hmove
    cases hmove
  | testCallback bytes =>
    rw [hplace] at hl hmove
    have hcall : t.impl.receiveCallback = c.receiveCallback := by
      rw [hm]
      rfl
    simp only [ReaderAt.step, hcall] at hmove
    cases hmove
    split
    · next hset => exact .stay (.waiting hu hk hm ⟨hl, hset⟩ trivial ho) rfl
    · next hunset =>
      have hsame : { c.silent with running := false }.hands bytes =
          { c.silent with running := false } := if_neg hunset
      have hhands := waiting_hands hu hk hl (.inl rfl) ho
      rwa [hsame, ← hm] at hhands
  | call bytes =>
    rw [hplace] at hl hmove
    obtain ⟨hvalid, hset⟩ := hl
    cases hmove
    have hsame : { c.silent with running := false }.hands bytes =
        { t.impl with handed := t.impl.handed ++ [bytes] } := by
      rw [hm]
      exact if_pos hset
    have hhands := waiting_hands hu hk hvalid (.inr rfl) ho
    rwa [hsame] at hhands
  | test | callback | report | clearRunning | testSocket | loadClose | close | clearSocket
    | testStatus | setDisconnected | done =>
    rw [hplace] at hp
    exact hp.elim

theorem waiting_received {r : ReaderRecv} (hu : c.Up) (hk : c.Kept)
    (hm : t.impl = { c.silent with running := false })
    (ho : t.owner = .disconnect .testJoinable ∨ t.owner = .disconnect .join)
    (hstep : t.step (.received r) = some t') : Answered (.alive c) t.returned t' := by
  obtain ⟨hthr, -, hvalid, rfl⟩ := received_eq hstep
  have hlast : ∀ r' ∈ some r, r'.Valid := by simp [hvalid]
  have hends (hr : (Event.readLoop r).endsLoop = true) :
      Leaving t.impl (.report r.status) (c.stopped (some r)).silent := by
    rw [c.stopped_of_ends hr, hm]
    refine (leaving_report hu hr).stop ?_
    rw [c.silent_readLoop hr, Impl.readLoopExit_running]
  cases r with
  | data bytes => exact .stay (.waiting hu hk hm hvalid trivial ho) rfl
  | closed => exact .stay (.stopped hu hk hlast (hends rfl) (.inl (joining_of_waiting ho))) rfl
  | timeout => exact .stay (.stopped hu hk hlast (hends rfl) (.inl (joining_of_waiting ho))) rfl
  | error => exact .stay (.stopped hu hk hlast (hends rfl) (.inl (joining_of_waiting ho))) rfl

/-- What the threads stand for when no call is under way. -/
inductive AtRest (t : Threads) : Process → Prop
  | down {c : Impl} {th : ReadThread} (hd : c.Down th) (hth : th ≠ .running) (hk : c.Kept)
      (hl : Leaving t.impl t.readLoop c.silent) (hst : t.impl.status = c.status)
      (hp : t.readLoop.Past t.impl) : AtRest t (.alive c)
  | up {c : Impl} (hu : c.Up) (hk : c.Kept) (hm : t.impl = c.silent)
      (hl : t.readLoop.Looping c) : AtRest t (.alive c)

theorem atRest {p : Process} (h : Sim t p) (hidle : t.owner = .idle) : AtRest t p := by
  cases h with
  | down hd hth hk hl hst hp ho => exact .down hd hth hk hl hst hp
  | up hu hk hm hl ho => exact .up hu hk hm hl
  | opened hd hth hk hl ho => cases hidle.symm.trans ho
  | connecting hd hth hk hl ho hm => cases hidle.symm.trans ho
  | waiting hu hk hm hl hp ho => rcases ho with ho | ho <;> cases hidle.symm.trans ho
  | stopped hu hk hv hl ho =>
    rw [hidle] at ho
    rcases ho with ho | ⟨ho, -⟩ <;> cases ho
  | joined hu hk hv hm hl ho => rcases ho with ho | ho <;> cases hidle.symm.trans ho
  | sending hu hk hfd ho hprogress hl hm => cases hidle.symm.trans ho
  | sendingLost hu hk hfd ho hprogress hp hr hst hsock hl => cases hidle.symm.trans ho
  | aborted ho => cases hidle.symm.trans ho

theorem call {p : Process} (h : Sim t p) {k : Call} (hstep : t.step (.call k) = some t') :
    Answered p t.returned t' := by
  simp only [Threads.step] at hstep
  split at hstep
  · next hidle =>
    cases hstep
    cases h.atRest hidle with
    | down hd hth hk hl hst hp =>
      cases k with
      | connect env => exact .stay (.down hd hth hk hl hst hp (.connect env)) rfl
      | disconnect => exact .stay (.down hd hth hk hl hst hp .disconnect) rfl
      | send data => exact .stay (.down hd hth hk hl hst hp (.send data)) rfl
    | up hu hk hm hl =>
      cases k with
      | connect env => exact .stay (.up hu hk hm hl (.connect env)) rfl
      | disconnect => exact .stay (.up hu hk hm hl .disconnect) rfl
      | send data => exact .stay (.up hu hk hm hl (.send data)) rfl
  · cases hstep

theorem subscribe {p : Process} (h : Sim t p) (hstep : t.step .subscribe = some t') :
    Answered p t.returned t' := by
  simp only [Threads.step] at hstep
  split at hstep
  · next hidle =>
    have hevent {c : Impl} : tcp.step (.alive c) .subscribe = some (.alive c.subscribe) := rfl
    cases hstep
    cases h.atRest hidle with
    | down hd hth hk hl hst hp =>
      have hwire := hl.kept.2
      have haside := hl.aside true t.impl.wire
      refine .event hevent (.down ⟨hd.status, hd.sockfd, hd.running, hd.thread⟩ hth
        (hk.of_slot_eq rfl) ?_ hst hp ?_) (by simp [answer])
      · rw [hwire] at haside
        show Leaving (t.impl.aside true t.impl.wire) t.readLoop _
        rw [hwire]
        exact haside
      · rw [hidle]
        exact .idle
    | up hu hk hm hl =>
      refine .event hevent (.up ⟨hu.status, hu.sockfd, hu.running, hu.thread⟩
        (hk.of_slot_eq rfl) ?_ hl.subscribe ?_) (by simp [answer])
      · show t.impl.subscribe = _
        rw [hm]
        rfl
      · rw [hidle]
        exact .idle
  · cases hstep

theorem owner {p : Process} (h : Sim t p) (hapart : Apart t .owner)
    (hstep : t.step .owner = some t') : Answered p t.returned t' := by
  have hstep : t.ownerStep = some t' := hstep
  cases h with
  | down hd hth hk hl hst hp ho => exact down_owner hd hth hk hl hst hp ho hstep
  | opened hd hth hk hl ho => exact opened_owner hd hth hk hl ho hapart hstep
  | connecting hd hth hk hl ho hm => exact connecting_owner hd hth hk hl ho hm hstep
  | up hu hk hm hl ho => exact up_owner hu hk hm hl ho hstep
  | waiting hu hk hm hl hp ho => exact waiting_owner hu hk hm hl hp ho hstep
  | stopped hu hk hv hl ho =>
    rcases ho with ho | ⟨ho, -, hst, -⟩
    · exact stopped_owner hu hk hv hl ho hstep
    · exact stopped_testError hu hk hv hl ho hst hstep
  | joined hu hk hv hm hl ho => exact joined_owner hu hk hv hm hl ho hstep
  | sending hu hk hfd ho hprogress hl hm => exact sending_owner hu hk hfd ho hprogress hl hm hstep
  | sendingLost hu hk hfd ho hprogress hp hr hst hsock hl =>
    exact sendingLost_owner hu hk hfd ho hprogress hp hr hst hsock hl hstep
  | aborted ho =>
    rw [Threads.ownerStep, ho] at hstep
    cases hstep

theorem sent {p : Process} (h : Sim t p) {result : ℤ} (hstep : t.step (.sent result) = some t') :
    Answered p t.returned t' := by
  have hsend : ∃ data place, t.owner = .send data place := by
    simp only [Threads.step] at hstep
    split at hstep
    · next data place ho => exact ⟨data, place, ho⟩
    · cases hstep
  obtain ⟨data, place, howner⟩ := hsend
  have hplace : place ≠ .testStatus := by
    intro hplace
    rw [hplace] at howner
    simp only [Threads.step, howner] at hstep
    cases hstep
  cases h with
  | sending hu hk hfd ho hprogress hl hm => exact sending_sent hu hk hfd ho hprogress hl hm hstep
  | sendingLost hu hk hfd ho hprogress hp hr hst hsock hl =>
    exact sendingLost_sent hu hk hfd ho hprogress hp hr hst hsock hl hstep
  | down hd hth hk hl hst hp ho =>
    rw [howner] at ho
    cases ho
    exact absurd rfl hplace
  | up hu hk hm hl ho =>
    rw [howner] at ho
    cases ho
    exact absurd rfl hplace
  | opened hd hth hk hl ho => cases howner.symm.trans ho
  | connecting hd hth hk hl ho hm => cases howner.symm.trans ho
  | waiting hu hk hm hl hp ho =>
    rcases ho with ho | ho <;> cases howner.symm.trans ho
  | stopped hu hk hv hl ho =>
    rw [howner] at ho
    rcases ho with ho | ⟨ho, -⟩ <;> cases ho
  | joined hu hk hv hm hl ho =>
    rcases ho with ho | ho <;> cases howner.symm.trans ho
  | aborted ho => cases howner.symm.trans ho

theorem reader {p : Process} (h : Sim t p) (hstep : t.step .reader = some t') :
    Answered p t.returned t' := by
  cases h with
  | down hd hth hk hl hst hp ho => exact down_reader hd hth hk hl hst hp ho hstep
  | opened hd hth hk hl ho => exact opened_reader hd hth hk hl ho hstep
  | connecting hd hth hk hl ho hm =>
    have hthr := ConnectAt.readThread_eq hd hm
    exact absurd (hthr.symm.trans (reader_eq hstep).1) hth
  | up hu hk hm hl ho => exact up_reader hu hk hm hl ho hstep
  | waiting hu hk hm hl hp ho => exact waiting_reader hu hk hm hl hp ho hstep
  | stopped hu hk hv hl ho => exact stopped_reader hu hk hv hl ho hstep
  | joined hu hk hv hm hl ho =>
    have hthr := (reader_eq hstep).1
    rw [hm] at hthr
    cases hthr
  | sending hu hk hfd ho hprogress hl hm =>
    exact sending_reader hu hk hfd ho hprogress hl hm hstep
  | sendingLost hu hk hfd ho hprogress hp hr hst hsock hl =>
    exact sendingLost_reader hu hk hfd ho hprogress hp hr hst hsock hl hstep
  | aborted ho => simp [Threads.step, ho] at hstep

theorem received {p : Process} (h : Sim t p) {r : ReaderRecv}
    (hstep : t.step (.received r) = some t') : Answered p t.returned t' := by
  obtain ⟨hthr, hplace, -, -⟩ := received_eq hstep
  -- a reader on its way out waits for no `::recv`
  have hexit {u : Impl} (hl : Leaving t.impl t.readLoop u) : False := by
    rcases hl.not_receiving with hne | hne
    · exact hne hplace
    · exact hne hthr
  cases h with
  | down hd hth hk hl hst hp ho => exact (hexit hl).elim
  | opened hd hth hk hl ho => exact (hexit hl).elim
  | connecting hd hth hk hl ho hm => cases hplace.symm.trans hl
  | up hu hk hm hl ho => exact up_received hu hk hm ho hstep
  | waiting hu hk hm hl hp ho => exact waiting_received hu hk hm ho hstep
  | stopped hu hk hv hl ho => exact (hexit hl).elim
  | joined hu hk hv hm hl ho => cases hplace.symm.trans hl
  | sending hu hk hfd ho hprogress hl hm =>
    exact sending_received hu hk hfd ho hprogress hm hstep
  | sendingLost hu hk hfd ho hprogress hp hr hst hsock hl => exact (hexit hl).elim
  | aborted ho => simp [Threads.step, ho] at hstep

/-- Every step of a thread is answered by `tcp`. -/
theorem step {p : Process} (h : Sim t p) {m : Move} (hapart : Apart t m)
    (hstep : t.step m = some t') : Answered p t.returned t' := by
  cases m with
  | call k => exact h.call hstep
  | subscribe => exact h.subscribe hstep
  | owner => exact h.owner hapart hstep
  | sent result => exact h.sent hstep
  | reader => exact h.reader hstep
  | received r => exact h.received hstep

theorem new (config : TCPConfig) : Sim (.new config) (.alive (.new config)) :=
  .down (Impl.down_new config) (by decide) (Impl.kept_new config)
    (.ended (by simp [Threads.new, Impl.new]) rfl rfl) rfl
    (by simp [Threads.new, Impl.new, ReaderAt.Past]) .idle

end Sim

/-- The threads stand for the process, which has returned the same. -/
def Agrees (t : Threads) (a : Process × List (Call × Bool)) : Prop :=
  Sim t a.1 ∧ a.2 = t.returned

theorem agrees_step {t t' : Threads} {a : Process × List (Call × Bool)} {m : Move}
    (h : Agrees t a) (hapart : Apart t m) (hstep : threads.step t m = some t') :
    ∃ es a', (tcp.observed answer).run a es = some a' ∧ Agrees t' a' := by
  obtain ⟨p, l⟩ := a
  obtain ⟨hsim, hl⟩ := h
  obtain ⟨es, q, hes, hq⟩ := hsim.step hapart hstep
  refine ⟨es, (q, t'.returned), ?_, hq, rfl⟩
  rw [← hes]
  exact congrArg (fun l => (tcp.observed answer).run (p, l) es) hl

theorem threads_answered (config : TCPConfig) {ms : List Move} {t : Threads}
    (hapart : threads.Along Apart (.new config) ms)
    (hrun : threads.run (.new config) ms = some t) :
    Answered (.alive (.new config)) [] t := by
  have hnew : Agrees (.new config) (.alive (.new config), []) := ⟨.new config, rfl⟩
  obtain ⟨es, ⟨q, l⟩, hes, hq, hl⟩ :=
    System.Along.simulated (fun _ _ _ _ h => agrees_step h) hnew hapart hrun
  exact ⟨es, q, hl ▸ hes, hq⟩

/-- `read_loop` is inside its loop. -/
def ReaderAt.Inside : ReaderAt → Prop
  | .test | .loadSocket | .recv _ | .receiving | .testCallback _ | .call _ | .callback => True
  | _ => False

/-- No call is under way, and no `read_loop` is on its way out. -/
def Threads.Settled (t : Threads) : Prop :=
  t.owner = .idle ∧ (t.impl.readThread = .running → t.readLoop.Inside)

/-- At rest the threads have left exactly the fields of the process. -/
theorem Sim.settled {t : Threads} {p : Process} (h : Sim t p) (hrest : t.Settled) :
    ∃ u, p = .alive u ∧ u.silent = t.impl := by
  obtain ⟨hidle, hplace⟩ := hrest
  cases h.atRest hidle with
  | @down c th hd hth hk hl hst hp =>
    refine ⟨c, rfl, ?_⟩
    rcases hl with ⟨hthr, here, -⟩ | ⟨-, -, hsame⟩
    · -- nothing of the way out is left inside the loop
      have hinside := hplace hthr
      generalize t.readLoop = place at hp here hinside
      cases place with
      | test => exact absurd hthr hp
      | callback => exact hp.elim
      | loadSocket | recv | receiving | testCallback | call => exact here.elim
      | report | clearRunning | testSocket | loadClose | close | clearSocket | testStatus
        | setDisconnected | done => exact hinside.elim
    · exact hsame.symm
  | @up c hu hk hm hl => exact ⟨c, rfl, hm.symm⟩

theorem Sim.terminated {t : Threads} {p : Process} (h : Sim t p) (habort : t.owner = .aborted) :
    p = .terminated := by
  cases h with
  | down hd hth hk hl hst hp ho =>
    rw [habort] at ho
    cases ho
  | up hu hk hm hl ho =>
    rw [habort] at ho
    cases ho
  | opened hd hth hk hl ho => cases habort.symm.trans ho
  | connecting hd hth hk hl ho hm => cases habort.symm.trans ho
  | waiting hu hk hm hl hp ho => rcases ho with ho | ho <;> cases habort.symm.trans ho
  | stopped hu hk hv hl ho =>
    rw [habort] at ho
    rcases ho with ho | ⟨ho, -⟩ <;> cases ho
  | joined hu hk hv hm hl ho => rcases ho with ho | ho <;> cases habort.symm.trans ho
  | sending hu hk hfd ho hprogress hl hm => cases habort.symm.trans ho
  | sendingLost hu hk hfd ho hprogress hp hr hst hsock hl => cases habort.symm.trans ho
  | aborted ho => rfl

/-- Whatever the order in which the two threads take their steps, what they leave at rest and what
the calls returned is what a run of whole calls and whole turns of the reader leaves and returns,
and the process aborts where such a run aborts. -/
theorem interleaving_linearizes (config : TCPConfig) {ms : List Move} {t : Threads}
    (hapart : threads.Along Apart (.new config) ms)
    (hrun : threads.run (.new config) ms = some t) :
    (t.Settled → ∃ es u, (tcp.observed answer).run (.alive (.new config), []) es =
      some (.alive u, t.returned) ∧ u.silent = t.impl) ∧
    (t.owner = .aborted → ∃ es, (tcp.observed answer).run (.alive (.new config), []) es =
      some (.terminated, t.returned)) := by
  obtain ⟨es, q, hes, hq⟩ := threads_answered config hapart hrun
  constructor
  · intro hrest
    obtain ⟨u, rfl, hu⟩ := hq.settled hrest
    exact ⟨es, u, hes, hu⟩
  · intro habort
    have hterm := hq.terminated habort
    subst hterm
    exact ⟨es, hes⟩

/-- A `send` between whose `::send` calls the remote side closes the connection. The second one is
still in the kernel when `read_loop` closes the socket. -/
theorem interleaving_linearizes_lost :
    let config : TCPConfig := ⟨"192.168.0.10", 5000⟩
    let ms : List Move := List.flatten [[.call (.connect ⟨true, true, true⟩)],
      List.replicate 12 .owner, [.call (.send [2, 1, 0x51, 0x51, 3])], List.replicate 4 .owner,
      [.reader, .reader, .reader, .sent 2, .received .closed, .reader, .reader, .owner, .owner,
        .reader, .reader, .reader, .sent 1, .reader, .owner, .owner, .reader, .reader, .reader]]
    let t : Threads := ⟨{ Impl.new config with
        readThread := .finished
        fds := ⟨1, [0]⟩
        wire := [(0, [2, 1]), (0, [0x51])] }, .idle, .test,
      [(.connect ⟨true, true, true⟩, true), (.send [2, 1, 0x51, 0x51, 3], false)]⟩
    threads.run (.new config) ms = some t ∧
    (t.Settled → ∃ es u, (tcp.observed answer).run (.alive (.new config), []) es =
      some (.alive u, t.returned) ∧ u.silent = t.impl) ∧
    (t.owner = .aborted → ∃ es, (tcp.observed answer).run (.alive (.new config), []) es =
      some (.terminated, t.returned)) := by
  intro config ms t
  have hrun : threads.run (.new config) ms = some t := by decide
  have hapart : threads.Along Apart (.new config) ms := by decide
  exact ⟨hrun, interleaving_linearizes config hapart hrun⟩

end Spectrum.Transport.Network
