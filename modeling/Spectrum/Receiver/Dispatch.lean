import Spectrum.Protocols.Layout
import Spectrum.Transport.Network.Lifecycle

/-! The receivers of what the board sends unasked (`receiver/keyboard/keyboard_receiver.cpp`,
`receiver/mcb/mcb_receiver.cpp`). Their constructors subscribe through the protocol to the
transport, so `dispatch` gets the chunks of `read_loop` as they come; it takes the first byte of
each for a command. -/
namespace Spectrum.Receiver
open Foundation Utils Protocols MCBProtocol Transport.Network

/-- A branch of `dispatch` that runs its handler, with what it reads from the frame. -/
inductive Branch
  | keyPressed | keyReleased
  | status | analogInput (port : UInt8) | dataHora
  deriving DecidableEq, Repr

/-- Which handlers are set. -/
structure KeyboardReceiver where
  pressedHandler : Bool
  releasedHandler : Bool
  deriving DecidableEq, Repr

/-- An exception of a branch is caught and logged by the subscribed function. -/
def KeyboardReceiver.dispatch (r : KeyboardReceiver) (frame : List UInt8) : Option Branch :=
  if frame.isEmpty then none
  else
    let cmd := frame.getD 0 0
    if cmd = MCBCommand.Enumerator.cmdKeyPressed.value then
      if r.pressedHandler then some .keyPressed else none
    else if cmd = MCBCommand.Enumerator.cmdKeyReleased.value then
      if r.releasedHandler then some .keyReleased else none
    else none

structure McbReceiver where
  statusHandler : Bool
  analogHandler : Bool
  dateTimeHandler : Bool
  deriving DecidableEq, Repr

def McbReceiver.dispatch (r : McbReceiver) (frame : List UInt8) : Option Branch :=
  if frame.length < 2 then none
  else
    let cmd := frame.getD 0 0
    if cmd = MCBCommand.Enumerator.readStatus.value then
      if r.statusHandler then some .status else none
    else if cmd = MCBCommand.Enumerator.readAnalogInput.value then
      if r.analogHandler ∧ 3 ≤ frame.length then some (.analogInput (frame.getD 1 0)) else none
    else if cmd = MCBCommand.Enumerator.readDataHora.value then
      if r.dateTimeHandler then some .dataHora else none
    else none

/-- The two receivers, with all their handlers set. -/
inductive Listener
  | keyboardReceiver | mcbReceiver
  deriving DecidableEq, Repr

def Listener.dispatch : Listener → List UInt8 → Option Branch
  | .keyboardReceiver => KeyboardReceiver.dispatch ⟨true, true⟩
  | .mcbReceiver => McbReceiver.dispatch ⟨true, true, true⟩

/-- The commands that the receivers handle. -/
inductive Push
  | keyPressed | keyReleased
  | status | analogInput | dataHora
  deriving DecidableEq, Repr

def Branch.push : Branch → Push
  | .keyPressed => .keyPressed
  | .keyReleased => .keyReleased
  | .status => .status
  | .analogInput _ => .analogInput
  | .dataHora => .dataHora

namespace Push

def listener : Push → Listener
  | .keyPressed | .keyReleased => .keyboardReceiver
  | .status | .analogInput | .dataHora => .mcbReceiver

def command : Push → MCBCommand.Enumerator
  | .keyPressed => .cmdKeyPressed
  | .keyReleased => .cmdKeyReleased
  | .status => .readStatus
  | .analogInput => .readAnalogInput
  | .dataHora => .readDataHora

/-- The bytes that `dispatch` asks for before it enters the branch. -/
def minSize : Push → ℕ
  | .keyPressed | .keyReleased => 1
  | .status | .dataHora => 2
  | .analogInput => 3

/-- The chunk looks to `dispatch` like this command. -/
def Opens (p : Push) (chunk : List UInt8) : Prop :=
  chunk.head? = some p.command.value ∧ p.minSize ≤ chunk.length

instance (p : Push) (chunk : List UInt8) : Decidable (p.Opens chunk) :=
  inferInstanceAs (Decidable (_ ∧ _))

end Push

namespace Listener

/-- The branches entered over the chunks of a stream, in order. -/
def entered (l : Listener) (chunks : List (List UInt8)) : List Push :=
  chunks.filterMap fun chunk => (l.dispatch chunk).map Branch.push

theorem keyboardReceiver_dispatch (b : UInt8) (chunk : List UInt8) :
    Listener.keyboardReceiver.dispatch (b :: chunk) =
      if b = Push.keyPressed.command.value then some .keyPressed
      else if b = Push.keyReleased.command.value then some .keyReleased
      else none := rfl

theorem mcbReceiver_dispatch (b : UInt8) (chunk : List UInt8) :
    Listener.mcbReceiver.dispatch (b :: chunk) =
      if (b :: chunk).length < 2 then none
      else if b = Push.status.command.value then some .status
      else if b = Push.analogInput.command.value then
        if 3 ≤ (b :: chunk).length then some (.analogInput ((b :: chunk).getD 1 0)) else none
      else if b = Push.dataHora.command.value then some .dataHora
      else none := by
  unfold dispatch McbReceiver.dispatch
  simp only [true_and]
  rfl

theorem dispatch_of_opens {p : Push} {chunk : List UInt8} (h : p.Opens chunk) :
    (p.listener.dispatch chunk).map Branch.push = some p := by
  cases chunk with
  | nil => cases h.1
  | cons b chunk =>
    have hb : b = p.command.value := Option.some.inj h.1
    have hsize : p.minSize ≤ (b :: chunk).length := h.2
    subst hb
    cases p with
    | keyPressed => rfl
    | keyReleased => rfl
    | status =>
      change 2 ≤ _ at hsize
      rw [Push.listener, mcbReceiver_dispatch, if_neg (not_lt.mpr hsize)]
      rfl
    | analogInput =>
      change 3 ≤ _ at hsize
      rw [Push.listener, mcbReceiver_dispatch, if_neg (by omega), if_neg (by decide), if_pos rfl,
        if_pos hsize]
      rfl
    | dataHora =>
      change 2 ≤ _ at hsize
      rw [Push.listener, mcbReceiver_dispatch, if_neg (not_lt.mpr hsize)]
      rfl

theorem opens_of_branch {branch entered : Branch} {b : UInt8} {chunk : List UInt8}
    (h : some branch = some entered) (hb : b = branch.push.command.value)
    (hsize : branch.push.minSize ≤ (b :: chunk).length) :
    entered.push.listener = branch.push.listener ∧ entered.push.Opens (b :: chunk) := by
  have hsame := Option.some.inj h
  subst hsame
  exact ⟨rfl, congrArg some hb, hsize⟩

theorem opens_of_dispatch {l : Listener} {chunk : List UInt8} {p : Push}
    (h : (l.dispatch chunk).map Branch.push = some p) : p.listener = l ∧ p.Opens chunk := by
  obtain ⟨branch, hbranch, hpush⟩ := Option.map_eq_some_iff.mp h
  subst hpush
  cases chunk with
  | nil => cases l <;> cases hbranch
  | cons b chunk =>
    cases l with
    | keyboardReceiver =>
      rw [keyboardReceiver_dispatch] at hbranch
      split at hbranch
      · next hb =>
        exact opens_of_branch hbranch hb (Nat.succ_pos _)
      · split at hbranch
        · next hb =>
          exact opens_of_branch hbranch hb (Nat.succ_pos _)
        · cases hbranch
    | mcbReceiver =>
      rw [mcbReceiver_dispatch] at hbranch
      split at hbranch
      · cases hbranch
      · next hlong =>
        split at hbranch
        · next hb =>
          exact opens_of_branch hbranch hb (not_lt.mp hlong)
        · split at hbranch
          · next hb =>
            split at hbranch
            · next hport =>
              exact opens_of_branch hbranch hb hport
            · cases hbranch
          · split at hbranch
            · next hb =>
              exact opens_of_branch hbranch hb (not_lt.mp hlong)
            · cases hbranch

theorem dispatch_eq_some_iff {l : Listener} {chunk : List UInt8} {p : Push} :
    (l.dispatch chunk).map Branch.push = some p ↔ p.listener = l ∧ p.Opens chunk := by
  constructor
  · exact opens_of_dispatch
  · intro h
    obtain ⟨hl, hopens⟩ := h
    rw [← hl]
    exact dispatch_of_opens hopens

theorem dispatch_eq_none_iff {l : Listener} {chunk : List UInt8} :
    (l.dispatch chunk).map Branch.push = none ↔ ∀ p : Push, p.listener = l → ¬ p.Opens chunk := by
  rw [Option.eq_none_iff_forall_ne_some]
  constructor
  · intro h p hl ho
    exact h p (dispatch_eq_some_iff.mpr ⟨hl, ho⟩)
  · intro h p hp
    obtain ⟨hl, ho⟩ := dispatch_eq_some_iff.mp hp
    exact h p hl ho

/-- One branch is entered once exactly when one chunk looks like it, and no other chunk looks
like any command of the receiver. -/
theorem entered_eq_singleton_iff {p : Push} {chunks : List (List UInt8)} :
    p.listener.entered chunks = [p] ↔ ∃ before chunk after, chunks = before ++ chunk :: after ∧
      p.Opens chunk ∧ ∀ c ∈ before ++ after, ∀ q : Push, q.listener = p.listener → ¬ q.Opens c := by
  unfold entered
  rw [List.filterMap_eq_cons_iff]
  constructor
  · intro h
    obtain ⟨before, chunk, after, hchunks, hbefore, hchunk, hafter⟩ := h
    rw [List.filterMap_eq_nil_iff] at hafter
    refine ⟨before, chunk, after, hchunks, (dispatch_eq_some_iff.mp hchunk).2, ?_⟩
    intro c hc
    rcases List.mem_append.mp hc with hc | hc
    · exact dispatch_eq_none_iff.mp (hbefore c hc)
    · exact dispatch_eq_none_iff.mp (hafter c hc)
  · intro h
    obtain ⟨before, chunk, after, hchunks, hopens, hothers⟩ := h
    refine ⟨before, chunk, after, hchunks, ?_, dispatch_eq_some_iff.mpr ⟨rfl, hopens⟩, ?_⟩
    · intro c hc
      exact dispatch_eq_none_iff.mpr (hothers c (List.mem_append_left after hc))
    · rw [List.filterMap_eq_nil_iff]
      intro c hc
      exact dispatch_eq_none_iff.mpr (hothers c (List.mem_append_right before hc))

end Listener

theorem handed_of_run {s t : Impl} (hcallback : s.receiveCallback = true) (hs : s.running = true)
    {chunks : List (List UInt8)}
    (hrun : tcp.run (.alive s) (chunks.map fun chunk => .readLoop (.data chunk)) =
      some (.alive t)) : t.handed = s.handed ++ chunks := by
  induction chunks generalizing s with
  | nil =>
    cases hrun
    exact (List.append_nil _).symm
  | cons chunk chunks ih =>
    obtain ⟨m, hm, hrest⟩ := (tcp.run_cons_eq_some).mp hrun
    have hturn : s.readLoop (.data chunk) = { s with handed := s.handed ++ [chunk] } := by
      simp [Impl.readLoop, hcallback, hs]
    have hstep : step (.alive s) (.readLoop (.data chunk)) = some m := hm
    simp only [step, hturn] at hstep
    split at hstep
    · have hsame := Option.some.inj hstep
      subst hsame
      rw [ih (s := { s with handed := s.handed ++ [chunk] }) hcallback hs hrest, List.append_assoc,
        List.singleton_append]
    · cases hstep

/-- A frame starts with STX, which is no command of a receiver. -/
theorem Push.opens_behind_stx {p : Push} {payload : List UInt8} {before after : List (List UInt8)}
    {chunk : List UInt8} (hopens : p.Opens chunk)
    (hcut : (before ++ chunk :: after).flatten = buildFrame p.command.value payload) :
    before.flatten ≠ [] := by
  intro hnil
  have hhead := congrArg List.head? hcut
  rw [List.flatten_append, hnil, List.nil_append, List.flatten_cons, List.head?_append,
    hopens.1] at hhead
  have hstx : p.command.value = stx := Option.some.inj hhead
  revert hstx
  cases p <;> decide

/-- Of a frame that the board sends, the receiver enters the branch of its command, and nothing
else, exactly when one chunk from its inside begins with that command, and no other chunk begins
like a command of the receiver. -/
theorem entered_iff (s t : Impl) (hs : s.Up) (p : Push) (payload : List UInt8)
    (chunks : List (List UInt8)) (hcut : chunks.flatten = buildFrame p.command.value payload)
    (hrun : tcp.run (.alive s)
      (.subscribe :: chunks.map fun chunk => .readLoop (.data chunk)) = some (.alive t)) :
    p.listener.entered (t.handed.drop s.handed.length) = [p] ↔
      ∃ before chunk after, chunks = before ++ chunk :: after ∧ before.flatten ≠ [] ∧
        p.Opens chunk ∧
        ∀ c ∈ before ++ after, ∀ q : Push, q.listener = p.listener → ¬ q.Opens c := by
  have hsubscribed : tcp.run (.alive s.subscribe)
      (chunks.map fun chunk => .readLoop (.data chunk)) = some (.alive t) := hrun
  have hhanded : t.handed = s.handed ++ chunks :=
    handed_of_run (s := s.subscribe) rfl hs.running hsubscribed
  rw [hhanded, List.drop_left, Listener.entered_eq_singleton_iff]
  constructor
  · intro h
    obtain ⟨before, chunk, after, hchunks, hopens, hothers⟩ := h
    rw [hchunks] at hcut
    exact ⟨before, chunk, after, hchunks, Push.opens_behind_stx hopens hcut, hopens, hothers⟩
  · intro h
    obtain ⟨before, chunk, after, hchunks, -, hopens, hothers⟩ := h
    exact ⟨before, chunk, after, hchunks, hopens, hothers⟩

theorem entered_iff_cut :
    let s : Impl := .online ⟨"127.0.0.1", 3001⟩
    let t : Impl := { s with
      receiveCallback := true
      handed := [[0x02, 0x02], [0x70, 0x01, 0x71, 0x03]] }
    Push.keyPressed.listener.entered (t.handed.drop s.handed.length) = [.keyPressed] ↔
      ∃ before chunk after, [[0x02, 0x02], [0x70, 0x01, 0x71, 0x03]] = before ++ chunk :: after ∧
        before.flatten ≠ [] ∧ Push.keyPressed.Opens chunk ∧
        ∀ c ∈ before ++ after, ∀ q : Push, q.listener = Push.keyPressed.listener → ¬ q.Opens c :=
  entered_iff (.online ⟨"127.0.0.1", 3001⟩) _ (Impl.online_up _) .keyPressed [0x01]
    [[0x02, 0x02], [0x70, 0x01, 0x71, 0x03]] (by decide) rfl

/-- A pressed key that comes in one chunk reaches no handler. -/
theorem not_entered_whole :
    let s : Impl := .online ⟨"127.0.0.1", 3001⟩
    ∃ t, tcp.run (.alive s) [.subscribe, .readLoop (.data (buildFrame 0x70 [0x01]))] =
        some (.alive t) ∧
      Push.keyPressed.listener.entered (t.handed.drop s.handed.length) = [] ∧
      Push.keyPressed.listener.entered (t.handed.drop s.handed.length) ≠ [.keyPressed] := by
  intro s
  exact ⟨_, rfl, by decide, by decide⟩

end Spectrum.Receiver
