import Mathlib.Data.List.Basic

/-! Records cut from a buffer that grows chunk by chunk. The loop that cuts them is given by one
of its turns; what every turn keeps of the rest of the stream, the whole reassembly keeps, for
any cut of the stream into chunks. -/
namespace Spectrum.Foundation

/-- How a turn ends, with the buffer as it leaves it: out of the loop, or on to the next turn,
with a record cut off or not. -/
inductive Turn (α : Type*)
  | leave (buffer : List α)
  | again (buffer : List α)
  | record (r buffer : List α)
  deriving DecidableEq

/-- A loop that makes its buffer shorter with every turn that does not end it, and that ends at
once when it starts again where it ended. -/
structure Reassembler (α : Type*) where
  turn : List α → Turn α
  again_length {b b' : List α} : turn b = .again b' → b'.length < b.length
  record_length {b r b' : List α} : turn b = .record r b' → b'.length < b.length
  leave_again {b b' : List α} : turn b = .leave b' → turn b' = .leave b'

variable {α : Type*}

/-- The chunks of a stream given to a callback one after the other: the records it cuts off, and
the buffer after the last. -/
def feed (callback : List α → List α → List (List α) × List α) (buffer : List α) :
    List (List α) → List (List α) × List α
  | [] => ([], buffer)
  | chunk :: chunks =>
    let (records, rest) := callback buffer chunk
    (records ++ (feed callback rest chunks).1, (feed callback rest chunks).2)

namespace Reassembler

variable (R : Reassembler α)

/-- The loop: the records cut off, and the buffer it leaves. -/
def drain (buffer : List α) : List (List α) × List α :=
  match h : R.turn buffer with
  | .leave rest => ([], rest)
  | .again rest =>
    have := R.again_length h
    drain rest
  | .record r rest =>
    have := R.record_length h
    (r :: (drain rest).1, (drain rest).2)
termination_by buffer.length

/-- The loop on the buffer with a chunk at its end. -/
def receive (buffer chunk : List α) : List (List α) × List α := R.drain (buffer ++ chunk)

variable {R}

theorem drain_leave {b rest : List α} (h : R.turn b = .leave rest) : R.drain b = ([], rest) := by
  rw [drain]
  split <;> simp_all

theorem drain_again {b rest : List α} (h : R.turn b = .again rest) :
    R.drain b = R.drain rest := by
  rw [drain]
  split <;> simp_all

theorem drain_record {b r rest : List α} (h : R.turn b = .record r rest) :
    R.drain b = (r :: (R.drain rest).1, (R.drain rest).2) := by
  rw [drain]
  split <;> simp_all

theorem turn_drain (b : List α) : R.turn (R.drain b).2 = .leave (R.drain b).2 := by
  induction h : b.length using Nat.strongRecOn generalizing b with
  | _ n ih =>
    cases hturn : R.turn b with
    | leave rest =>
      rw [drain_leave hturn]
      exact R.leave_again hturn
    | again rest =>
      rw [drain_again hturn]
      exact ih rest.length (h ▸ R.again_length hturn) rest rfl
    | record r rest =>
      rw [drain_record hturn]
      exact ih rest.length (h ▸ R.record_length hturn) rest rfl

theorem turn_feed {b : List α} (hb : R.turn b = .leave b) (chunks : List (List α)) :
    R.turn (Foundation.feed R.receive b chunks).2 =
      .leave (Foundation.feed R.receive b chunks).2 := by
  induction chunks generalizing b with
  | nil => exact hb
  | cons chunk chunks ih => exact ih (turn_drain (b ++ chunk))

/-- `I rs w` says that `rs` are the records of `w`, the buffer and what has yet to come. A turn
sees the buffer alone, and keeps `I` with the record it cuts off taken from the list. -/
structure Follows (R : Reassembler α) (I : List (List α) → List α → Prop) : Prop where
  leave {b b' w : List α} {rs : List (List α)} :
    R.turn b = .leave b' → I rs (b ++ w) → I rs (b' ++ w)
  again {b b' w : List α} {rs : List (List α)} :
    R.turn b = .again b' → I rs (b ++ w) → I rs (b' ++ w)
  record {b r b' w : List α} {rs : List (List α)} :
    R.turn b = .record r b' → I rs (b ++ w) → ∃ rs', rs = r :: rs' ∧ I rs' (b' ++ w)

variable {I : List (List α) → List α → Prop}

theorem Follows.drain (hI : R.Follows I) {b w : List α} {rs : List (List α)}
    (h : I rs (b ++ w)) : ∃ rs', rs = (R.drain b).1 ++ rs' ∧ I rs' ((R.drain b).2 ++ w) := by
  induction hn : b.length using Nat.strongRecOn generalizing b rs with
  | _ n ih =>
    cases hturn : R.turn b with
    | leave rest =>
      rw [drain_leave hturn]
      exact ⟨rs, rfl, hI.leave hturn h⟩
    | again rest =>
      rw [drain_again hturn]
      exact ih rest.length (hn ▸ R.again_length hturn) (hI.again hturn h) rfl
    | record r rest =>
      rw [drain_record hturn]
      obtain ⟨rs', hrs, hrest⟩ := hI.record hturn h
      obtain ⟨rs'', hrs', hlast⟩ := ih rest.length (hn ▸ R.record_length hturn) hrest rfl
      exact ⟨rs'', by rw [hrs, hrs', List.cons_append], hlast⟩

theorem Follows.feed (hI : R.Follows I) {b : List α} {chunks : List (List α)}
    {rs : List (List α)} (h : I rs (b ++ chunks.flatten)) :
    ∃ rs', rs = (Foundation.feed R.receive b chunks).1 ++ rs' ∧
      I rs' (Foundation.feed R.receive b chunks).2 := by
  induction chunks generalizing b rs with
  | nil =>
    rw [List.flatten_nil, List.append_nil] at h
    exact ⟨rs, rfl, h⟩
  | cons chunk chunks ih =>
    rw [List.flatten_cons, ← List.append_assoc] at h
    obtain ⟨rs', hrs, hrest⟩ := hI.drain h
    obtain ⟨rs'', hrs', hlast⟩ := ih hrest
    exact ⟨rs'', by rw [hrs, hrs', ← List.append_assoc, Foundation.feed, receive], hlast⟩

/-- When the loop ends only with nothing left to cut, the records of a stream come out whole and
in order, and nothing else does, however the stream was cut. -/
theorem Follows.feed_eq (hI : R.Follows I) {b : List α} (hb : R.turn b = .leave b)
    (hdone : ∀ rs rest, R.turn rest = .leave rest → I rs rest → rs = [] ∧ rest = [])
    {chunks : List (List α)} {rs : List (List α)} (h : I rs (b ++ chunks.flatten)) :
    Foundation.feed R.receive b chunks = (rs, []) := by
  obtain ⟨rs', hrs, hlast⟩ := hI.feed h
  obtain ⟨hnone, hempty⟩ := hdone rs' _ (turn_feed hb chunks) hlast
  rw [hnone, List.append_nil] at hrs
  rw [hrs, ← hempty]

end Reassembler

end Spectrum.Foundation
