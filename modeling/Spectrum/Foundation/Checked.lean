import Mathlib.Data.List.Basic

/-! Accesses to a vector that fail where the language leaves them undefined, and a subtraction
of sizes that fails below zero. A run without a fault is a run without undefined accesses. -/
namespace Spectrum.Foundation

inductive Fault
  | outOfBounds
  | underflow
  deriving DecidableEq, Repr

variable {α : Type*}

/-- `v[i]`. -/
def readAt (v : List α) (i : ℕ) : Except Fault α :=
  match v[i]? with
  | some a => .ok a
  | none => .error .outOfBounds

/-- `v.front()`. -/
def front (v : List α) : Except Fault α := readAt v 0

/-- `v.back()`. -/
def back (v : List α) : Except Fault α :=
  match v.getLast? with
  | some a => .ok a
  | none => .error .outOfBounds

/-- The elements from `v.begin() + first` up to, but without, `v.begin() + last`. -/
def slice (v : List α) (first last : ℕ) : Except Fault (List α) :=
  if first ≤ last ∧ last ≤ v.length then .ok ((v.drop first).take (last - first))
  else .error .outOfBounds

/-- `a - b`. -/
def minus (a b : ℕ) : Except Fault ℕ := if b ≤ a then .ok (a - b) else .error .underflow

theorem bind_of_ok {α β : Type} {x : Except Fault α} {a : α} (hx : x = .ok a)
    (f : α → Except Fault β) : (x >>= f) = f a := by
  rw [hx]
  rfl

theorem readAt_of_lt {v : List α} {i : ℕ} (hi : i < v.length) (d : α) :
    readAt v i = .ok (v.getD i d) := by
  simp [readAt, hi]

theorem front_eq_ok {v : List α} {a : α} : front v = .ok a ↔ v.head? = some a := by
  cases v with
  | nil => simp [front, readAt]
  | cons b v => simp [front, readAt]

theorem back_eq_ok {v : List α} {a : α} : back v = .ok a ↔ v.getLast? = some a := by
  unfold back
  cases v.getLast? with
  | none => simp
  | some b => simp

theorem slice_of_le {v : List α} {first n : ℕ} (hn : first + n ≤ v.length) :
    slice v first (first + n) = .ok ((v.drop first).take n) := by
  rw [slice, if_pos ⟨Nat.le_add_right first n, hn⟩, Nat.add_sub_cancel_left]

theorem minus_of_le {a b : ℕ} (hb : b ≤ a) : minus a b = .ok (a - b) := if_pos hb

end Spectrum.Foundation
