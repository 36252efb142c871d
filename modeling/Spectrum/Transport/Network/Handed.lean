import Spectrum.Transport.Network.Descriptors

/-! What the callback of `subscribe` gets of the bytes that `read_loop` takes, whatever the owner
and the reader do meanwhile. -/
namespace Spectrum.Transport.Network
open Foundation

/-- The chunk that a step takes off the socket. -/
def Move.arrives : Move → List (List UInt8)
  | .received (.data bytes) => [bytes]
  | _ => []

/-- The chunks that `read_loop` takes in a run. -/
def arrived (ms : List Move) : List (List UInt8) := ms.flatMap Move.arrives

/-- The chunk that `read_loop` has taken and done nothing with yet. -/
def ReaderAt.inHand : ReaderAt → List (List UInt8)
  | .testCallback bytes | .call bytes => [bytes]
  | _ => []

/-- The chunk that is thrown away by a step that finds no callback. -/
def dropped (t : Threads) : Move → List (List UInt8)
  | .reader =>
    match t.readLoop with
    | .testCallback bytes => if t.impl.receiveCallback then [] else [bytes]
    | _ => []
  | _ => []

namespace Impl

/-- A step that has nothing to do with the callback. -/
structure Deaf (s t : Impl) : Prop where
  callback : t.receiveCallback = s.receiveCallback
  handed : t.handed = s.handed

namespace Deaf

variable {s t : Impl}

theorem closes (s : Impl) (fd : Option ℕ) : Deaf s (s.closes fd) := by
  cases fd <;> exact ⟨rfl, rfl⟩

theorem of_connect {env : ConnectEnv} {p : ConnectAt} : Deaf s (p.step env s).1 := by
  cases p with
  | socket =>
    simp only [ConnectAt.step]
    split <;> exact ⟨rfl, rfl⟩
  | startReader =>
    simp only [ConnectAt.step]
    split <;> exact ⟨rfl, rfl⟩
  | close fd => exact closes s fd
  | testStatus | setSocket | testSocket | inetPton | setConnecting | loadSocket | connect
    | connecting | setConnected | setRunning | loadClose | clearSocket | setError =>
    exact ⟨rfl, rfl⟩

theorem of_disconnect {p : DisconnectAt} {next : Next DisconnectAt}
    (h : p.step s = some (t, next)) : Deaf s t := by
  cases p with
  | join =>
    simp only [DisconnectAt.step] at h
    split at h <;> cases h
    exact ⟨rfl, rfl⟩
  | close fd =>
    cases h
    exact closes s fd
  | testDisconnected | testError | clearRunning | testJoinable | testSocket | loadClose
    | clearSocket | setDisconnected =>
    cases h
    exact ⟨rfl, rfl⟩

theorem of_sent {data : List UInt8} {p : SendAt} {result : ℤ} {next : Next SendAt}
    (h : p.sent data s result = some (t, next)) : Deaf s t := by
  cases p with
  | sending totalSent fd =>
    simp only [SendAt.sent] at h
    split at h <;> cases h <;> exact ⟨rfl, rfl⟩
  | testStatus | testSocket | loop | send => cases h

end Deaf

end Impl

/-- Each chunk taken was thrown away, or given to the callback, or is in the hands of `read_loop`,
in the order in which they came. Without a callback none was given to it. -/
structure Accounted (chunks : List (List UInt8)) (t : Threads) (lost : List (List UInt8)) :
    Prop where
  chunks : chunks = lost ++ (t.impl.handed ++ t.readLoop.inHand)
  unset : t.impl.receiveCallback = false → t.impl.handed = [] ∧ ∀ bytes, t.readLoop ≠ .call bytes

namespace Accounted

variable {chunks lost : List (List UInt8)} {t u : Threads}

theorem deaf (h : Accounted chunks t lost) (hdeaf : t.impl.Deaf u.impl)
    (hplace : u.readLoop = t.readLoop) : Accounted chunks u lost where
  chunks := by
    rw [hdeaf.handed, hplace]
    exact h.chunks
  unset := by
    rw [hdeaf.handed, hdeaf.callback, hplace]
    exact h.unset

theorem owner (h : Accounted chunks t lost) (hstep : t.ownerStep = some u) :
    Accounted chunks u lost := by
  unfold Threads.ownerStep at hstep
  split at hstep
  · next env place howner =>
    cases hstep
    apply h.deaf
    · rw [Threads.after_impl]
      exact .of_connect
    · exact Threads.after_readLoop ..
  · obtain ⟨⟨s, next⟩, hmove, rfl⟩ := Option.map_eq_some_iff.mp hstep
    apply h.deaf
    · rw [Threads.after_impl]
      exact .of_disconnect hmove
    · exact Threads.after_readLoop ..
  · obtain ⟨next, -, rfl⟩ := Option.map_eq_some_iff.mp hstep
    apply h.deaf
    · rw [Threads.after_impl]
      exact ⟨rfl, rfl⟩
    · exact Threads.after_readLoop ..
  · cases hstep
  · cases hstep

theorem reader (h : Accounted chunks t lost) (hstep : t.step .reader = some u) :
    Accounted chunks u (lost ++ dropped t .reader) := by
  obtain ⟨-, s, place, hmove, rfl⟩ := Sim.reader_eq hstep
  obtain ⟨hchunks, hunset⟩ := h
  unfold dropped
  cases hplace : t.readLoop with
  | testCallback bytes =>
    rw [hplace] at hmove hchunks
    cases hmove
    cases hset : t.impl.receiveCallback with
    | true =>
      simp only [if_true, List.append_nil]
      refine ⟨hchunks, fun hnot => ?_⟩
      cases hnot.symm.trans hset
    | false =>
      obtain ⟨hnone, -⟩ := hunset hset
      simp only [Bool.false_eq_true, if_false]
      refine ⟨?_, fun _ => ⟨hnone, by simp⟩⟩
      rw [hchunks, hnone]
      simp [ReaderAt.inHand]
  | call bytes =>
    rw [hplace] at hmove hchunks
    cases hmove
    refine ⟨?_, fun hnot => ?_⟩
    · rw [hchunks]
      simp [ReaderAt.inHand]
    · exact absurd hplace ((hunset hnot).2 bytes)
  | receiving =>
    rw [hplace] at hmove
    cases hmove
  | test | recv | testSocket | testStatus =>
    rw [hplace] at hmove hchunks
    cases hmove
    simp only [List.append_nil]
    refine ⟨?_, fun hnot => ⟨(hunset hnot).1, fun bytes => ?_⟩⟩
    · split <;> exact hchunks
    · split <;> simp
  | close fd =>
    rw [hplace] at hmove hchunks
    cases hmove
    obtain ⟨hcall, hhanded⟩ := Impl.Deaf.closes t.impl fd
    simp only [List.append_nil]
    refine ⟨?_, fun hnot => ⟨?_, by simp⟩⟩
    · rw [hhanded]
      exact hchunks
    · rw [hhanded]
      exact (hunset (hcall ▸ hnot)).1
  | loadSocket | callback | report | clearRunning | loadClose | clearSocket | setDisconnected
    | done =>
    rw [hplace] at hmove hchunks
    cases hmove
    simp only [List.append_nil]
    exact ⟨hchunks, fun hnot => ⟨(hunset hnot).1, by simp⟩⟩

theorem received {r : ReaderRecv} (h : Accounted chunks t lost)
    (hstep : t.step (.received r) = some u) :
    Accounted (chunks ++ (Move.received r).arrives) u lost := by
  obtain ⟨-, hplace, -, rfl⟩ := Sim.received_eq hstep
  obtain ⟨hchunks, hunset⟩ := h
  rw [hplace] at hchunks
  have hnone (hnot : t.impl.receiveCallback = false) := (hunset hnot).1
  cases r with
  | data bytes =>
    refine ⟨?_, fun hnot => ⟨hnone hnot, by simp [ReaderAt.received]⟩⟩
    rw [hchunks]
    simp [Move.arrives, ReaderAt.received, ReaderAt.inHand]
  | closed | timeout | error =>
    refine ⟨?_, fun hnot => ⟨hnone hnot, by simp [ReaderAt.received]⟩⟩
    rw [hchunks]
    simp [Move.arrives, ReaderAt.received, ReaderAt.inHand]

theorem step {m : Move} (h : Accounted chunks t lost) (hstep : t.step m = some u) :
    Accounted (chunks ++ m.arrives) u (lost ++ dropped t m) := by
  cases m with
  | received r => simpa [dropped] using h.received hstep
  | reader => simpa [Move.arrives] using h.reader hstep
  | owner => simpa [Move.arrives, dropped] using h.owner hstep
  | call k =>
    simp only [Threads.step] at hstep
    split at hstep
    · cases hstep
      have hbegun : Accounted chunks (t.begin k) lost := by
        apply h.deaf
        · cases k <;> exact ⟨rfl, rfl⟩
        · cases k <;> rfl
      simpa [Move.arrives, dropped] using hbegun
    · cases hstep
  | subscribe =>
    simp only [Threads.step] at hstep
    split at hstep
    · cases hstep
      have hset : Accounted chunks { t with impl := t.impl.subscribe } lost := by
        refine ⟨h.chunks, fun hnot => ?_⟩
        cases hnot
      simpa [Move.arrives, dropped] using hset
    · cases hstep
  | sent result =>
    simp only [Threads.step] at hstep
    split at hstep
    · next data place howner =>
      obtain ⟨⟨s, next⟩, hmove, rfl⟩ := Option.map_eq_some_iff.mp hstep
      have hsent : Accounted chunks (t.after (.send data) (.send data) s next) lost := by
        apply h.deaf
        · rw [Threads.after_impl]
          exact .of_sent hmove
        · exact Threads.after_readLoop ..
      simpa [Move.arrives, dropped] using hsent
    · cases hstep

theorem run {ms : List Move} (h : Accounted chunks t lost) {lost' : List (List UInt8)}
    (hrun : (threads.observed dropped).run (t, lost) ms = some (u, lost')) :
    Accounted (chunks ++ arrived ms) u lost' := by
  induction ms generalizing chunks t lost with
  | nil =>
    obtain ⟨rfl, rfl⟩ := Prod.mk.inj (Option.some.inj hrun)
    simpa [arrived] using h
  | cons m ms ih =>
    obtain ⟨⟨v, lost''⟩, hv, hrest⟩ := (System.run_cons_eq_some _).mp hrun
    obtain ⟨v', hstep, heq⟩ := Option.map_eq_some_iff.mp hv
    obtain ⟨rfl, rfl⟩ := Prod.mk.inj heq
    have hall := ih (h.step hstep) hrest
    rw [List.append_assoc] at hall
    exact hall

end Accounted

/-- From a new transport on, the chunks that `read_loop` has taken are those that it threw away
before it found a callback, then those given to the callback, then the one in its hands. -/
theorem arrived_eq (config : TCPConfig) {ms : List Move} {t : Threads} {lost : List (List UInt8)}
    (hrun : (threads.observed dropped).run (.new config, []) ms = some (t, lost)) :
    arrived ms = lost ++ (t.impl.handed ++ t.readLoop.inHand) := by
  have hnew : Accounted [] (.new config) [] := ⟨rfl, fun _ => ⟨rfl, by simp [Threads.new]⟩⟩
  exact (hnew.run hrun).chunks

end Spectrum.Transport.Network
