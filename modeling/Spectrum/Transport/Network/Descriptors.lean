import Spectrum.Transport.Network.Interleaving

/-! The descriptors of a TCP transport while its two threads are at work, and how long
`disconnect` waits for the reader. -/
namespace Spectrum.Transport.Network
open Foundation

namespace Impl

/-- No descriptor was closed twice, and an open one is the one in `sockfd_` or a spare one. -/
def Tidy (spare : Option ℕ) (s : Impl) : Prop :=
  s.fds.closes.Nodup ∧ ∀ fd, s.fds.IsOpen fd → s.sockfd = some fd ∨ spare = some fd

variable {spare : Option ℕ}

theorem Kept.tidy {s : Impl} (hk : s.Kept) : s.Tidy spare := by
  refine ⟨hk.1.closes_nodup, fun fd hopen => .inl ?_⟩
  by_contra hheld
  exact hk.2 ⟨fd, hopen, hheld⟩

theorem Tidy.of_slot_eq {s t : Impl} (hs : s.Tidy spare) (ht : t.slot = s.slot) :
    t.Tidy spare := by
  have hfds : t.fds = s.fds := congrArg Slot.ledger ht
  have hsock : t.sockfd = s.sockfd := congrArg Slot.held ht
  unfold Tidy
  rw [hfds, hsock]
  exact hs

theorem Tidy.acquires {s : Impl} (hs : s.Tidy none) : s.acquires.Tidy (some s.fds.opened) := by
  refine ⟨hs.1, fun fd hopen => ?_⟩
  obtain ⟨hlt, hclosed⟩ := hopen
  by_cases hnew : fd = s.fds.opened
  · exact .inr (congrArg some hnew.symm)
  · have hlt' : fd < s.fds.opened + 1 := hlt
    have hopen : s.fds.IsOpen fd := ⟨by omega, hclosed⟩
    exact .inl ((hs.2 fd hopen).resolve_right (by simp))

theorem Tidy.of_closeSocket {s : Impl} (h : s.closeSocket.Tidy spare) : s.Tidy spare := by
  cases hfd : s.sockfd with
  | none =>
    refine h.of_slot_eq ?_
    simp [slot, closeSocket, hfd]
  | some fd =>
    obtain ⟨hnodup, hheld⟩ := h
    simp only [closeSocket, hfd] at hnodup hheld
    refine ⟨hnodup.of_cons, fun h hopen => ?_⟩
    by_cases hsame : h = fd
    · exact .inl (hsame ▸ hfd)
    · have hopen' : (s.fds.close fd).IsOpen h :=
        ⟨hopen.1, List.not_mem_cons_of_ne_of_not_mem hsame hopen.2⟩
      exact .inr ((hheld h hopen').resolve_left (by simp))

theorem Tidy.of_readLoopExit {s : Impl} (h : s.readLoopExit.Tidy spare) : s.Tidy spare := by
  have hclosed : { s with running := false }.closeSocket.Tidy spare := h.of_slot_eq rfl
  exact hclosed.of_closeSocket.of_slot_eq rfl

/-- `sockfd_` may still hold a descriptor that is closed already. -/
theorem Tidy.of_cleared {s : Impl} (h : { s with sockfd := none }.Tidy spare) : s.Tidy spare :=
  ⟨h.1, fun fd hopen => .inr ((h.2 fd hopen).resolve_left (by simp))⟩

theorem stopped_kept {c : Impl} (hu : c.Up) (hk : c.Kept) (last : Option ReaderRecv) :
    (c.stopped last).Kept := by
  have hk' : { c with running := false }.Kept := hk.of_slot_eq rfl
  cases last with
  | none => exact readLoopExit_kept hk'
  | some r => exact (readLoop_stopped (s := { c with running := false }) hu.status rfl hk' r).2

end Impl

theorem Leaving.tidy {s u : Impl} {p : ReaderAt} {spare : Option ℕ} (h : Leaving s p u)
    (hu : u.Tidy spare) : s.Tidy spare := by
  rcases h with ⟨-, -, left⟩ | ⟨-, -, left⟩
  · rw [← left] at hu
    cases p with
    | report status => exact hu.of_readLoopExit.of_slot_eq rfl
    | clearSocket => exact hu.of_readLoopExit.of_cleared
    | _ => exact hu.of_readLoopExit
  · rw [left]
    exact hu

/-- The descriptor that `connect` has from `::socket` and that is not in `sockfd_` yet. -/
def OwnerAt.spare : OwnerAt → Option ℕ
  | .connect _ (.setSocket fd) => fd
  | _ => none

theorem ConnectAt.Reached.tidy {env : ConnectEnv} {c m : Impl} {t : ReadThread} {p : ConnectAt}
    (h : p.Reached env c m) (hd : c.Down t) (hk : c.Kept) :
    m.Tidy (OwnerAt.connect env p).spare := by
  have hc : c.silent.Kept := hk.of_slot_eq rfl
  have hopening : c.silent.opening.Kept := hc.acquire hd.sockfd rfl
  have hclosed : c.silent.opening.closeSocket.Kept := hopening.release (Impl.closeSocket_slot _)
  cases p with
  | testStatus | socket =>
    cases h
    exact hc.tidy
  | setSocket fd =>
    obtain ⟨rfl, rfl⟩ := h
    split
    · exact hc.tidy.acquires
    · exact hc.tidy
  | testSocket =>
    simp only [Reached] at h
    rw [h]
    split
    · exact hopening.tidy
    · exact hc.tidy
  | inetPton =>
    obtain ⟨-, rfl⟩ := h
    exact hopening.tidy
  | setConnecting =>
    obtain ⟨-, -, rfl⟩ := h
    exact hopening.tidy
  | loadSocket | connecting =>
    obtain ⟨-, -, rfl⟩ := h
    exact hopening.tidy.of_slot_eq rfl
  | connect fd =>
    obtain ⟨-, -, rfl, -⟩ := h
    exact hopening.tidy.of_slot_eq rfl
  | setConnected | setRunning | startReader =>
    obtain ⟨-, rfl⟩ := h
    exact hopening.tidy.of_slot_eq rfl
  | loadClose =>
    obtain ⟨-, -, status, rfl⟩ := h
    exact hopening.tidy.of_slot_eq rfl
  | close fd =>
    obtain ⟨-, -, -, status, rfl⟩ := h
    exact hopening.tidy.of_slot_eq rfl
  | clearSocket =>
    obtain ⟨-, -, status, rfl⟩ := h
    exact Impl.Tidy.of_cleared (hclosed.tidy.of_slot_eq rfl)
  | setError =>
    have hslot := congrArg Impl.slot h.2
    have hsame : m.slot = (if env.socket then c.silent.opening.closeSocket
        else c.silent).slot := by
      split at hslot <;> rename_i hsock <;> simp only [hsock] <;> exact hslot
    split at hsame
    · exact hclosed.tidy.of_slot_eq hsame
    · exact hc.tidy.of_slot_eq hsame

theorem Sim.tidy {t : Threads} {p : Process} (h : Sim t p) (halive : t.owner ≠ .aborted) :
    t.impl.Tidy t.owner.spare := by
  cases h with
  | down hd hth hk hl hst hp ho => exact hl.tidy (hk.tidy.of_slot_eq rfl)
  | @opened c th env hd hth hk hl ho =>
    rw [ho]
    refine hl.tidy ?_
    have hc : c.silent.Tidy none := hk.tidy.of_slot_eq rfl
    show Impl.Tidy (if env.socket then some c.fds.opened else none) _
    split
    · exact hc.acquires
    · exact hc
  | connecting hd hth hk hl ho hm =>
    rw [ho]
    exact hm.tidy hd hk
  | up hu hk hm hl ho =>
    rw [hm]
    exact hk.tidy.of_slot_eq rfl
  | waiting hu hk hm hl hp ho =>
    rw [hm]
    exact hk.tidy.of_slot_eq rfl
  | stopped hu hk hv hl ho => exact hl.tidy ((Impl.stopped_kept hu hk _).tidy.of_slot_eq rfl)
  | joined hu hk hv hm hl ho =>
    rw [hm]
    exact (Impl.stopped_kept hu hk _).tidy.of_slot_eq rfl
  | sending hu hk hfd ho hprogress hl hm =>
    rw [hm]
    exact hk.tidy.of_slot_eq rfl
  | sendingLost hu hk hfd ho hprogress hp hr hst hsock hl =>
    exact hl.tidy ((Impl.readLoop_ends hk hr).2.tidy.of_slot_eq rfl)
  | aborted ho => exact absurd ho halive

/-- At every moment of every interleaving no descriptor was closed twice, and one that is open is
the one in `sockfd_`, or the one that `connect` is about to put there. -/
theorem interleaving_descriptors (config : TCPConfig) {ms : List Move} {t : Threads}
    (hapart : threads.Along Apart (.new config) ms)
    (hrun : threads.run (.new config) ms = some t) (halive : t.owner ≠ .aborted) :
    t.impl.fds.closes.Nodup ∧
      ∀ fd, t.impl.fds.IsOpen fd → t.impl.sockfd = some fd ∨ t.owner.spare = some fd := by
  obtain ⟨-, q, -, hq⟩ := threads_answered config hapart hrun
  exact hq.tidy halive

/-- A lost connection at the moment between `::close(sockfd_)` and `sockfd_ = -1`, with the next
`connect` behind its `::socket`. -/
theorem interleaving_descriptors_closing :
    let config : TCPConfig := ⟨"192.168.0.10", 5000⟩
    let ms : List Move := List.flatten [[.call (.connect ⟨true, true, true⟩)],
      List.replicate 12 .owner, List.replicate 3 .reader,
      [.received .closed, .reader, .call (.connect ⟨true, true, true⟩), .owner, .owner],
      List.replicate 4 .reader]
    let t : Threads := ⟨{ Impl.online config with
        status := .disconnected, running := false, fds := ⟨2, [0]⟩ },
      .connect ⟨true, true, true⟩ (.setSocket (some 1)), .clearSocket,
      [(.connect ⟨true, true, true⟩, true)]⟩
    threads.run (.new config) ms = some t ∧ t.impl.fds.closes.Nodup ∧
      ∀ fd, t.impl.fds.IsOpen fd → t.impl.sockfd = some fd ∨ t.owner.spare = some fd := by
  intro config ms t
  have hrun : threads.run (.new config) ms = some t := by decide
  have hapart : threads.Along Apart (.new config) ms := by decide
  exact ⟨hrun, interleaving_descriptors config hapart hrun (by decide)⟩

/-- The descriptor that a call has got to put into `sockfd_` or to close. -/
def OwnerAt.pending : OwnerAt → Option ℕ
  | .connect _ (.setSocket fd) | .connect _ (.close fd) | .disconnect (.close fd) => fd
  | _ => none

/-- The descriptor that `read_loop` is about to close. -/
def ReaderAt.pending : ReaderAt → Option ℕ
  | .close fd => fd
  | _ => none

/-- All that a step does to the descriptors, with `p` what its thread has in hand before and `q`
what it has in hand behind it. -/
inductive Impl.Touches (s t : Impl) (p q : Option ℕ) : Prop
  | keep (fds : t.fds = s.fds) (sockfd : t.sockfd = s.sockfd) (inHand : q = none ∨ q = s.sockfd)
  | clear (fds : t.fds = s.fds) (sockfd : t.sockfd = none) (inHand : q = none)
  | close (fds : t.fds = (s.closes p).fds) (sockfd : t.sockfd = s.sockfd) (inHand : q = none)
  | acquire (fds : t.fds = s.fds.acquire) (sockfd : t.sockfd = s.sockfd)
      (inHand : q = some s.fds.opened)
  | store (fds : t.fds = s.fds) (sockfd : t.sockfd = p) (inHand : q = none)

@[simp] theorem Impl.closes_sockfd (s : Impl) (fd : Option ℕ) : (s.closes fd).sockfd = s.sockfd := by
  cases fd <;> rfl

/-- An open descriptor that nothing leads to: it is neither in `sockfd_` nor in the hands of `p`. -/
def Impl.Orphan (s : Impl) (p : Option ℕ) (fd : ℕ) : Prop :=
  s.fds.IsOpen fd ∧ s.sockfd ≠ some fd ∧ p ≠ some fd

theorem Impl.Touches.orphan {s t : Impl} {p q : Option ℕ} (h : s.Touches t p q) {fd : ℕ}
    (ho : s.Orphan p fd) : t.Orphan q fd := by
  obtain ⟨⟨hlt, hopen⟩, hheld, hpending⟩ := ho
  unfold Orphan
  cases h with
  | keep hfds hsock hq =>
    rw [hfds, hsock]
    refine ⟨⟨hlt, hopen⟩, hheld, ?_⟩
    rcases hq with rfl | rfl
    · simp
    · exact hheld
  | clear hfds hsock hq =>
    rw [hfds, hsock, hq]
    exact ⟨⟨hlt, hopen⟩, by simp, by simp⟩
  | close hfds hsock hq =>
    rw [hfds, hsock, hq]
    refine ⟨?_, hheld, by simp⟩
    cases p with
    | none => exact ⟨hlt, hopen⟩
    | some fd' =>
      have hne : fd ≠ fd' := fun he => hpending (congrArg some he.symm)
      exact ⟨hlt, List.not_mem_cons_of_ne_of_not_mem hne hopen⟩
  | acquire hfds hsock hq =>
    rw [hfds, hsock, hq]
    exact ⟨⟨Nat.lt_succ_of_lt hlt, hopen⟩, hheld,
      fun he => Nat.ne_of_gt hlt (Option.some.inj he)⟩
  | store hfds hsock hq =>
    rw [hfds, hsock, hq]
    exact ⟨⟨hlt, hopen⟩, hpending, by simp⟩

namespace Threads

variable {t t' : Threads}

@[simp] theorem after_impl {α : Type} (t : Threads) (k : Call) (owner : α → OwnerAt) (s : Impl)
    (next : Next α) : (t.after k owner s next).impl = s := by
  cases next <;> rfl

@[simp] theorem after_readLoop {α : Type} (t : Threads) (k : Call) (owner : α → OwnerAt)
    (s : Impl) (next : Next α) : (t.after k owner s next).readLoop = t.readLoop := by
  cases next <;> rfl

theorem after_pending {α : Type} (t : Threads) (k : Call) (owner : α → OwnerAt) (s : Impl)
    (next : Next α) (h : ∀ place, (owner place).pending = none) :
    (t.after k owner s next).owner.pending = none := by
  cases next with
  | goto place => exact h place
  | returns | aborts => rfl

theorem connect_touches (env : ConnectEnv) (place : ConnectAt) :
    t.impl.Touches (place.step env t.impl).1 (OwnerAt.connect env place).pending
      (t.after (.connect env) (.connect env) (place.step env t.impl).1
        (place.step env t.impl).2).owner.pending := by
  cases place with
  | socket =>
    simp only [ConnectAt.step]
    split
    · exact .acquire rfl rfl rfl
    · exact .keep rfl rfl (.inl rfl)
  | setSocket fd => exact .store rfl rfl rfl
  | loadClose => exact .keep rfl rfl (.inr rfl)
  | close fd => exact .close rfl (t.impl.closes_sockfd fd) rfl
  | clearSocket => exact .clear rfl rfl rfl
  | testStatus | testSocket | inetPton | connect | connecting | startReader =>
    simp only [ConnectAt.step]
    split <;> exact .keep rfl rfl (.inl rfl)
  | setConnecting | loadSocket | setConnected | setRunning | setError =>
    exact .keep rfl rfl (.inl rfl)

theorem disconnect_touches {place : DisconnectAt} {s : Impl} {next : Next DisconnectAt}
    (h : place.step t.impl = some (s, next)) :
    t.impl.Touches s (OwnerAt.disconnect place).pending
      (t.after .disconnect .disconnect s next).owner.pending := by
  cases place with
  | loadClose =>
    cases h
    exact .keep rfl rfl (.inr rfl)
  | close fd =>
    cases h
    exact .close rfl (t.impl.closes_sockfd fd) rfl
  | clearSocket =>
    cases h
    exact .clear rfl rfl rfl
  | join =>
    simp only [DisconnectAt.step] at h
    split at h <;> cases h
    exact .keep rfl rfl (.inl rfl)
  | testDisconnected | testError | testJoinable | testSocket =>
    cases h
    split <;> exact .keep rfl rfl (.inl rfl)
  | clearRunning | setDisconnected =>
    cases h
    exact .keep rfl rfl (.inl rfl)

theorem ownerStep_touches (h : t.ownerStep = some t') :
    t.impl.Touches t'.impl t.owner.pending t'.owner.pending ∧ t'.readLoop = t.readLoop := by
  unfold ownerStep at h
  cases howner : t.owner with
  | idle | aborted =>
    rw [howner] at h
    cases h
  | connect env place =>
    rw [howner] at h
    cases h
    rw [after_impl, after_readLoop]
    exact ⟨connect_touches env place, rfl⟩
  | disconnect place =>
    rw [howner] at h
    obtain ⟨⟨s, next⟩, hmove, rfl⟩ := Option.map_eq_some_iff.mp h
    rw [after_impl, after_readLoop]
    exact ⟨disconnect_touches hmove, rfl⟩
  | send data place =>
    rw [howner] at h
    obtain ⟨next, -, rfl⟩ := Option.map_eq_some_iff.mp h
    rw [after_impl, after_readLoop]
    refine ⟨.keep rfl rfl (.inl ?_), rfl⟩
    exact after_pending t _ _ _ _ fun _ => rfl

theorem reader_touches {s : Impl} {place : ReaderAt}
    (h : t.readLoop.step t.impl = some (s, place)) :
    t.impl.Touches s t.readLoop.pending place.pending := by
  generalize t.readLoop = p at h ⊢
  cases p with
  | receiving => cases h
  | loadClose =>
    cases h
    exact .keep rfl rfl (.inr rfl)
  | close fd =>
    cases h
    exact .close rfl (t.impl.closes_sockfd fd) rfl
  | clearSocket =>
    cases h
    exact .clear rfl rfl rfl
  | test | recv | testCallback | testSocket | testStatus =>
    cases h
    refine .keep rfl rfl (.inl ?_)
    split <;> rfl
  | loadSocket | call | callback | report | clearRunning | setDisconnected | done =>
    cases h
    exact .keep rfl rfl (.inl rfl)

theorem sent_touches {data : List UInt8} {place : SendAt} {result : ℤ} {s : Impl}
    {next : Next SendAt} (h : place.sent data t.impl result = some (s, next)) :
    t.impl.Touches s none none := by
  cases place with
  | sending totalSent fd =>
    simp only [SendAt.sent] at h
    split at h <;> cases h <;> exact .keep rfl rfl (.inl rfl)
  | testStatus | testSocket | loop | send => cases h

/-- An orphan for both threads. -/
def Orphan (t : Threads) (fd : ℕ) : Prop :=
  t.impl.Orphan t.owner.pending fd ∧ t.readLoop.pending ≠ some fd

theorem Orphan.step {fd : ℕ} {m : Move} (ho : t.Orphan fd) (hstep : t.step m = some t') :
    t'.Orphan fd := by
  obtain ⟨horphan, hreader⟩ := ho
  cases m with
  | call k =>
    simp only [Threads.step] at hstep
    split at hstep
    · cases hstep
      have hidle : (t.begin k).owner.pending = none := by cases k <;> rfl
      have himpl : (t.begin k).impl = t.impl := by cases k <;> rfl
      have hsame : (t.begin k).readLoop = t.readLoop := by cases k <;> rfl
      refine ⟨?_, hsame ▸ hreader⟩
      rw [hidle, himpl]
      exact ⟨horphan.1, horphan.2.1, by simp⟩
    · cases hstep
  | subscribe =>
    simp only [Threads.step] at hstep
    split at hstep
    · cases hstep
      exact ⟨horphan, hreader⟩
    · cases hstep
  | owner =>
    obtain ⟨htouches, hsame⟩ := ownerStep_touches hstep
    exact ⟨htouches.orphan horphan, hsame ▸ hreader⟩
  | sent result =>
    simp only [Threads.step] at hstep
    split at hstep
    · next data place howner =>
      obtain ⟨⟨s, next⟩, hmove, rfl⟩ := Option.map_eq_some_iff.mp hstep
      have hidle := after_pending t (.send data) (.send data) s next fun _ => rfl
      have hkept := (sent_touches hmove).orphan ⟨horphan.1, horphan.2.1, by simp⟩
      unfold Threads.Orphan
      rw [after_impl, after_readLoop, hidle]
      exact ⟨hkept, hreader⟩
    · cases hstep
  | reader =>
    obtain ⟨-, s, place, hmove, rfl⟩ := Sim.reader_eq hstep
    obtain ⟨hopen, hheld, hpending⟩ := (reader_touches hmove).orphan ⟨horphan.1, horphan.2.1, hreader⟩
    exact ⟨⟨hopen, hheld, horphan.2.2⟩, hpending⟩
  | received r =>
    obtain ⟨-, -, -, rfl⟩ := Sim.received_eq hstep
    refine ⟨horphan, ?_⟩
    cases r <;> simp [ReaderAt.received, ReaderAt.pending]

/-- Whatever the threads do, no step closes an orphan or puts it into `sockfd_`. -/
theorem Orphan.run {fd : ℕ} {ms : List Move} (ho : t.Orphan fd)
    (hrun : threads.run t ms = some t') : t'.Orphan fd :=
  threads.run_invariant (I := fun t => t.Orphan fd) (fun _ _ _ h hstep => h.step hstep) ho hrun

end Threads

/-- On its way out `read_loop` has got to close what `sockfd_` holds, and nothing else. -/
theorem Leaving.pending {s u : Impl} {p : ReaderAt} (h : Leaving s p u) :
    p.pending = none ∨ (s.readThread = .running ∧ p = .close s.sockfd) := by
  rcases h with ⟨hthr, here, -⟩ | ⟨-, rfl, -⟩
  · cases p with
    | close fd =>
      obtain ⟨-, -, rfl⟩ := here
      exact .inr ⟨hthr, rfl⟩
    | _ => exact .inl rfl
  · exact .inl rfl

theorem Leaving.closes {s u : Impl} {p : ReaderAt} (h : Leaving s p u) (hu : u.sockfd = none)
    {fd : ℕ} (hheld : s.sockfd = some fd) (hopen : s.fds.IsOpen fd) : fd ∈ u.fds.closes := by
  have hexit {v : Impl} (hv : v.sockfd = some fd) : fd ∈ v.readLoopExit.fds.closes := by
    simp [Impl.readLoopExit, Impl.closeSocket, Ledger.close, hv]
  rcases h with ⟨-, here, left⟩ | ⟨-, -, left⟩
  · rw [← left]
    cases p with
    | report status => exact hexit (v := { s with status := status }) hheld
    | clearSocket =>
      obtain ⟨-, fd', hfd', hclosed⟩ := here
      have hsame : fd' = fd := Option.some.inj (hfd'.symm.trans hheld)
      exact absurd (hsame ▸ hclosed) hopen.2
    | _ => exact hexit hheld
  · rw [← left, hheld] at hu
    cases hu

theorem Sim.setSocket {t : Threads} {q : Process} (h : Sim t q) {env : ConnectEnv}
    {fd : Option ℕ} (ho : t.owner = .connect env (.setSocket fd)) :
    (t.readLoop.pending = none ∨
      (t.impl.readThread = .running ∧ t.readLoop = .close t.impl.sockfd)) ∧
    ∀ h, t.impl.sockfd = some h → t.impl.fds.IsOpen h → fd ≠ some h := by
  cases h with
  | @opened c th env' hd hth hk hl ho' =>
    have hnone : (if env'.socket then c.silent.acquires else c.silent).sockfd = none := by
      split <;> exact hd.sockfd
    refine ⟨hl.pending, fun h hheld hopen hsame => ?_⟩
    have hclosed : h ∈ c.fds.closes := by
      have hin := hl.closes hnone hheld hopen
      split at hin <;> exact hin
    have hlt := hk.1.closes_lt h hclosed
    rw [ho'] at ho
    cases ho
    split at hsame
    · exact Nat.ne_of_gt hlt (Option.some.inj hsame)
    · cases hsame
  | @connecting c th env' place hd hth hk hl ho' hm =>
    rw [ho'] at ho
    cases ho
    obtain ⟨hm, -⟩ := hm
    have hnone : t.impl.sockfd = none := by
      rw [hm]
      split <;> exact hd.sockfd
    refine ⟨.inl (by rw [hl]; rfl), fun h hheld => ?_⟩
    cases hnone.symm.trans hheld
  | down hd hth hk hl hst hp ho' =>
    rw [ho] at ho'
    cases ho'
  | up hu hk hm hl ho' =>
    rw [ho] at ho'
    cases ho'
  | waiting hu hk hm hl hp ho' => rcases ho' with ho' | ho' <;> cases ho.symm.trans ho'
  | stopped hu hk hv hl ho' =>
    rw [ho] at ho'
    rcases ho' with ho' | ⟨ho', -⟩ <;> cases ho'
  | joined hu hk hv hm hl ho' => rcases ho' with ho' | ho' <;> cases ho.symm.trans ho'
  | sending hu hk hfd ho' hprogress hl hm => cases ho.symm.trans ho'
  | sendingLost hu hk hfd ho' hprogress hp hr hst hsock hl => cases ho.symm.trans ho'
  | aborted ho' => cases ho.symm.trans ho'

/-- A `connect()` that sets `sockfd_` too early, to its socket or to -1, loses the descriptor of the
connection before for good exactly when that is still open and `read_loop` has not got it in hand
yet to close it. -/
theorem connect_leaks_iff (config : TCPConfig) {ms : List Move} {t t' : Threads}
    {env : ConnectEnv} {fd : Option ℕ} (hapart : threads.Along Apart (.new config) ms)
    (hrun : threads.run (.new config) ms = some t)
    (howner : t.owner = .connect env (.setSocket fd)) (hstep : threads.step t .owner = some t') :
    (∃ h, ∀ ms' u, threads.run t' ms' = some u →
      u.impl.fds.IsOpen h ∧ u.impl.sockfd ≠ some h) ↔
      ∃ h, t.impl.sockfd = some h ∧ t.impl.fds.IsOpen h ∧ t.readLoop ≠ .close (some h) := by
  have hnext : t' = { t with
      impl := { t.impl with sockfd := fd }, owner := .connect env .testSocket } := by
    simp only [threads, Threads.step, Threads.ownerStep, howner, ConnectAt.step,
      Threads.after] at hstep
    exact (Option.some.inj hstep).symm
  obtain ⟨-, q, -, hq⟩ := threads_answered config hapart hrun
  obtain ⟨hpending, hfresh⟩ := hq.setSocket howner
  constructor
  · intro hlost
    obtain ⟨h, hh⟩ := hlost
    obtain ⟨hopen, hheld⟩ := hh [] t' rfl
    rw [hnext] at hopen hheld
    have halive : t.owner ≠ .aborted := by simp [howner]
    have htidy := (hq.tidy halive).2 h hopen
    rw [howner] at htidy
    have hbefore : t.impl.sockfd = some h := htidy.resolve_right hheld
    refine ⟨h, hbefore, hopen, fun hclose => ?_⟩
    -- the next step of the reader would close it
    have hthr : t.impl.readThread = .running := by
      rcases hpending with hnone | ⟨hthr, -⟩
      · rw [hclose] at hnone
        cases hnone
      · exact hthr
    have hreader : threads.run t' [.reader] = some { t' with
        impl := t'.impl.closes (some h), readLoop := .clearSocket } := by
      rw [System.run_singleton, hnext]
      simp [threads, Threads.step, hthr, hclose, ReaderAt.step]
    have hgone := (hh [.reader] _ hreader).1
    exact hgone.2 List.mem_cons_self
  · intro hserved
    obtain ⟨h, hheld, hopen, hclose⟩ := hserved
    have hreader : t.readLoop.pending ≠ some h := by
      rcases hpending with hnone | ⟨-, hplace⟩
      · simp [hnone]
      · rw [hplace, hheld] at hclose
        exact absurd rfl hclose
    have horphan : t'.Orphan h := by
      rw [hnext]
      exact ⟨⟨hopen, hfresh h hheld hopen, by simp [OwnerAt.pending]⟩, hreader⟩
    refine ⟨h, fun ms' u hcont => ?_⟩
    obtain ⟨⟨hopen', hheld', -⟩, -⟩ := horphan.run hcont
    exact ⟨hopen', hheld'⟩

/-- `connect()` begun as soon as the end of the connection before it is to be seen. -/
theorem connect_leaks_iff_early :
    let config : TCPConfig := ⟨"192.168.0.10", 5000⟩
    let ms : List Move := List.flatten [[.call (.connect ⟨true, true, true⟩)],
      List.replicate 12 .owner, List.replicate 3 .reader,
      [.received .closed, .reader, .call (.connect ⟨true, true, true⟩), .owner, .owner]]
    let t : Threads := ⟨{ Impl.online config with status := .disconnected, fds := ⟨2, []⟩ },
      .connect ⟨true, true, true⟩ (.setSocket (some 1)), .clearRunning,
      [(.connect ⟨true, true, true⟩, true)]⟩
    let t' : Threads := ⟨{ Impl.online config with
        status := .disconnected, sockfd := some 1, fds := ⟨2, []⟩ },
      .connect ⟨true, true, true⟩ .testSocket, .clearRunning,
      [(.connect ⟨true, true, true⟩, true)]⟩
    threads.run (.new config) ms = some t ∧
      ((∃ h, ∀ ms' u, threads.run t' ms' = some u →
        u.impl.fds.IsOpen h ∧ u.impl.sockfd ≠ some h) ↔
        ∃ h, t.impl.sockfd = some h ∧ t.impl.fds.IsOpen h ∧ t.readLoop ≠ .close (some h)) := by
  intro config ms t t'
  have hrun : threads.run (.new config) ms = some t := by decide
  have hapart : threads.Along Apart (.new config) ms := by decide
  have hstep : threads.step t .owner = some t' := by decide
  exact ⟨hrun, connect_leaks_iff config hapart hrun rfl hstep⟩

/-- How many steps `read_loop` has left once `running_` is cleared. -/
def ReaderAt.remaining : ReaderAt → ℕ
  | .loadSocket => 15
  | .recv _ => 14
  | .receiving => 13
  | .testCallback _ => 12
  | .call _ => 11
  | .callback => 10
  | .test | .report _ => 9
  | .clearRunning => 8
  | .testSocket => 7
  | .loadClose => 6
  | .close _ => 5
  | .clearSocket => 4
  | .testStatus => 3
  | .setDisconnected => 2
  | .done => 1

theorem ReaderAt.remaining_le (p : ReaderAt) : p.remaining ≤ 15 := by
  cases p <;> simp [remaining]

theorem ReaderAt.remaining_pos (p : ReaderAt) : 0 < p.remaining := by
  cases p <;> simp [remaining]

/-- How many results of `::recv` it waits for. -/
def ReaderAt.receives : ReaderAt → ℕ
  | .loadSocket | .recv _ | .receiving => 1
  | _ => 0

theorem ReaderAt.step_of_ne (p : ReaderAt) (s : Impl) (hp : p ≠ .receiving) :
    ∃ s' p', p.step s = some (s', p') := by
  cases p with
  | receiving => exact absurd rfl hp
  | _ => exact ⟨_, _, rfl⟩

theorem ReaderAt.step_remaining {s s' : Impl} {p p' : ReaderAt}
    (hrun : p.Inside → s.running = false) (hstep : p.step s = some (s', p')) :
    (s'.readThread ≠ .running ∧ p' = .test) ∨ (p'.remaining < p.remaining ∧
      p'.receives ≤ p.receives ∧ (p'.Inside → s'.running = false)) := by
  cases p with
  | receiving => cases hstep
  | done =>
    cases hstep
    exact .inl ⟨by simp, rfl⟩
  | test =>
    have hstopped := hrun trivial
    simp only [step, hstopped] at hstep
    cases hstep
    exact .inr ⟨by decide, Nat.le_refl _, fun hin => hin.elim⟩
  | recv fd =>
    have hstopped := hrun trivial
    cases hstep
    right
    split
    · exact ⟨by simp [remaining], Nat.le_refl _, fun _ => hstopped⟩
    · exact ⟨by simp [remaining], by simp [receives], fun hin => hin.elim⟩
  | testCallback bytes =>
    have hstopped := hrun trivial
    cases hstep
    right
    split <;> exact ⟨by simp [remaining], Nat.le_refl _, fun _ => hstopped⟩
  | loadSocket | call | callback =>
    have hstopped := hrun trivial
    cases hstep
    exact .inr ⟨by simp [remaining], Nat.le_refl _, fun _ => hstopped⟩
  | testSocket | testStatus =>
    cases hstep
    right
    split <;> exact ⟨by simp [remaining], Nat.le_refl _, fun hin => hin.elim⟩
  | report | clearRunning | loadClose | close | clearSocket | setDisconnected =>
    cases hstep
    exact .inr ⟨by simp [remaining], Nat.le_refl _, fun hin => hin.elim⟩

def Move.Receives : Move → Prop
  | .received _ => True
  | _ => False

instance : DecidablePred Move.Receives := fun m =>
  match m with
  | .received _ => isTrue trivial
  | .call _ | .subscribe | .owner | .sent _ | .reader => isFalse id

namespace Threads

def remaining (t : Threads) : ℕ :=
  if t.impl.readThread = .running then t.readLoop.remaining else 0

/-- `disconnect` waits for a reader that will not go on reading. -/
structure Draining (t : Threads) : Prop where
  owner : t.owner = .disconnect .join
  stopped : t.readLoop.Inside → t.impl.readThread = .running → t.impl.running = false

theorem Draining.reader {t t' : Threads} (h : t.Draining) (hstep : t.step .reader = some t') :
    t'.Draining ∧ t'.remaining < t.remaining ∧ t'.readLoop.receives ≤ t.readLoop.receives := by
  obtain ⟨hthr, s, place, hmove, rfl⟩ := Sim.reader_eq hstep
  have hnow : t.remaining = t.readLoop.remaining := if_pos hthr
  rw [hnow]
  rcases ReaderAt.step_remaining (fun hin => h.stopped hin hthr) hmove with
    ⟨hended, rfl⟩ | ⟨hless, hreceives, hrun⟩
  · have hover : remaining { t with impl := s, readLoop := .test } = 0 := if_neg hended
    refine ⟨⟨h.owner, fun _ hthr' => absurd hthr' hended⟩, ?_, Nat.zero_le _⟩
    rw [hover]
    exact t.readLoop.remaining_pos
  · have hle : remaining { t with impl := s, readLoop := place } ≤ place.remaining := by
      unfold remaining
      split
      · exact Nat.le_refl _
      · exact Nat.zero_le _
    exact ⟨⟨h.owner, fun hin _ => hrun hin⟩, Nat.lt_of_le_of_lt hle hless, hreceives⟩

theorem Draining.received {t t' : Threads} {r : ReaderRecv} (h : t.Draining)
    (hstep : t.step (.received r) = some t') : t'.Draining ∧ t'.remaining < t.remaining ∧
      t'.readLoop.receives = 0 ∧ t.readLoop.receives = 1 := by
  obtain ⟨hthr, hplace, -, rfl⟩ := Sim.received_eq hstep
  have hrun : t.impl.running = false := by
    refine h.stopped ?_ hthr
    rw [hplace]
    trivial
  have hless : remaining { t with readLoop := .received r } < t.remaining := by
    unfold remaining
    rw [if_pos hthr, if_pos hthr, hplace]
    cases r <;> simp [ReaderAt.received, ReaderAt.remaining]
  refine ⟨⟨h.owner, fun _ _ => hrun⟩, hless, ?_, by rw [hplace]; rfl⟩
  cases r <;> rfl

theorem Draining.move {t t' : Threads} {m : Move} (h : t.Draining) (hm : m ≠ .owner)
    (hstep : t.step m = some t') : t'.Draining ∧ t'.remaining < t.remaining ∧
      (if m.Receives then 1 else 0) + t'.readLoop.receives ≤ t.readLoop.receives := by
  cases m with
  | reader =>
    obtain ⟨hd, hless, hreceives⟩ := h.reader hstep
    refine ⟨hd, hless, ?_⟩
    have hno : ¬ Move.reader.Receives := id
    rw [if_neg hno, Nat.zero_add]
    exact hreceives
  | received r =>
    obtain ⟨hd, hless, hafter, hbefore⟩ := h.received hstep
    refine ⟨hd, hless, ?_⟩
    rw [hafter, hbefore]
    split <;> omega
  | owner => exact absurd rfl hm
  | call k =>
    simp [step, h.owner] at hstep
  | subscribe =>
    simp [step, h.owner] at hstep
  | sent result =>
    simp [step, h.owner] at hstep

theorem Draining.run {t t' : Threads} {ms : List Move} (h : t.Draining) (hms : .owner ∉ ms)
    (hrun : threads.run t ms = some t') : ms.length + t'.remaining ≤ t.remaining ∧
      (ms.filter (·.Receives)).length ≤ t.readLoop.receives := by
  induction ms generalizing t with
  | nil =>
    cases hrun
    simp
  | cons m ms ih =>
    obtain ⟨u, hu, hrest⟩ := (threads.run_cons_eq_some).mp hrun
    have hm : m ≠ .owner := fun he => hms (he ▸ List.mem_cons_self)
    obtain ⟨hd, hless, hreceives⟩ := h.move hm hu
    obtain ⟨hlength, hcount⟩ := ih hd (List.not_mem_of_not_mem_cons hms) hrest
    constructor
    · rw [List.length_cons]
      omega
    · rw [List.filter_cons]
      by_cases hr : m.Receives
      · rw [if_pos hr] at hreceives
        rw [if_pos (by simpa using hr), List.length_cons]
        omega
      · rw [if_neg hr] at hreceives
        rw [if_neg (by simpa using hr)]
        omega

theorem Draining.progress {t : Threads} (h : t.Draining) :
    ∃ m t', threads.step t m = some t' := by
  have halive : t.owner ≠ .aborted := by simp [h.owner]
  by_cases hthr : t.impl.readThread = .running
  · by_cases hplace : t.readLoop = .receiving
    · have hmove : t.step (.received .timeout) = some { t with readLoop := .report .error } :=
        if_pos ⟨halive, hthr, hplace, trivial⟩
      exact ⟨.received .timeout, _, hmove⟩
    · obtain ⟨s, place, hmove⟩ := t.readLoop.step_of_ne t.impl hplace
      have hreader : t.step .reader = some { t with impl := s, readLoop := place } := by
        rw [step, if_pos ⟨halive, hthr⟩, hmove, Option.map_some]
      exact ⟨.reader, _, hreader⟩
  · have howner : t.step .owner = some (t.after .disconnect .disconnect
        { t.impl with readThread := .none } (.goto .testSocket)) := by
      simp [step, ownerStep, h.owner, DisconnectAt.step, hthr]
    exact ⟨.owner, _, howner⟩

end Threads

/-- Where `disconnect` waits, `running_` is cleared or the reader is on its way out. -/
theorem Sim.draining {t : Threads} {p : Process} (h : Sim t p)
    (ho : t.owner = .disconnect .join) : t.Draining := by
  refine ⟨ho, fun hin hthr => ?_⟩
  cases h with
  | waiting hu hk hm hl hp ho' =>
    rw [hm]
  | stopped hu hk hv hl ho' =>
    rcases hl with ⟨-, here, -⟩ | ⟨hended, -, -⟩
    · generalize t.readLoop = place at here hin
      cases place with
      | test | callback => exact here
      | loadSocket | recv | receiving | testCallback | call => exact here.elim
      | report | clearRunning | testSocket | loadClose | close | clearSocket | testStatus
        | setDisconnected | done => exact hin.elim
    · exact absurd hthr hended
  | down hd hth hk hl hst hp ho' =>
    rw [ho] at ho'
    cases ho'
  | up hu hk hm hl ho' =>
    rw [ho] at ho'
    cases ho'
  | opened hd hth hk hl ho' => cases ho.symm.trans ho'
  | connecting hd hth hk hl ho' hm => cases ho.symm.trans ho'
  | joined hu hk hv hm hl ho' => rcases ho' with ho' | ho' <;> cases ho.symm.trans ho'
  | sending hu hk hfd ho' hprogress hl hm => cases ho.symm.trans ho'
  | sendingLost hu hk hfd ho' hprogress hp hr hst hsock hl => cases ho.symm.trans ho'
  | aborted ho' => cases ho.symm.trans ho'

/-- While `disconnect` waits for the reader, the threads are never stuck, and the wait is over after
at most fifteen steps of the reader, at most one of which waits for the network. -/
theorem disconnect_waits (config : TCPConfig) {ms : List Move} {t : Threads}
    (hapart : threads.Along Apart (.new config) ms)
    (hrun : threads.run (.new config) ms = some t) (howner : t.owner = .disconnect .join) :
    (∃ m t', threads.step t m = some t') ∧
      ∀ ms' u, .owner ∉ ms' → threads.run t ms' = some u →
        ms'.length ≤ 15 ∧ (ms'.filter (·.Receives)).length ≤ 1 := by
  obtain ⟨-, q, -, hq⟩ := threads_answered config hapart hrun
  have hdraining := hq.draining howner
  refine ⟨hdraining.progress, fun ms' u hms hcont => ?_⟩
  obtain ⟨hlength, hcount⟩ := hdraining.run hms hcont
  have hbound : t.remaining ≤ 15 := by
    unfold Threads.remaining
    split
    · exact t.readLoop.remaining_le
    · omega
  have hone : t.readLoop.receives ≤ 1 := by
    cases t.readLoop <;> simp [ReaderAt.receives]
  constructor
  · omega
  · omega

/-- `disconnect` called while the reader is in `::recv`. -/
theorem disconnect_waits_recv :
    let config : TCPConfig := ⟨"192.168.0.10", 5000⟩
    let ms : List Move := List.flatten [[.call (.connect ⟨true, true, true⟩)],
      List.replicate 12 .owner, List.replicate 3 .reader,
      [.call .disconnect, .owner, .owner, .owner, .owner]]
    let t : Threads := ⟨{ Impl.online config with running := false }, .disconnect .join,
      .receiving, [(.connect ⟨true, true, true⟩, true)]⟩
    threads.run (.new config) ms = some t ∧ (∃ m t', threads.step t m = some t') ∧
      ∀ ms' u, .owner ∉ ms' → threads.run t ms' = some u →
        ms'.length ≤ 15 ∧ (ms'.filter (·.Receives)).length ≤ 1 := by
  intro config ms t
  have hrun : threads.run (.new config) ms = some t := by decide
  have hapart : threads.Along Apart (.new config) ms := by decide
  exact ⟨hrun, disconnect_waits config hapart hrun rfl⟩

end Spectrum.Transport.Network
