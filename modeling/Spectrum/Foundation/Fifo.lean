import Mathlib.Data.List.Basic
import Mathlib.Data.List.Flatten

/-! A first-in first-out channel drained by several consumers, and what one of them sees. -/
namespace Spectrum.Foundation

/-- What was sent, what is still queued, and who took what, in order. -/
structure Fifo (κ α : Type*) where
  sent : List α
  queue : List α
  taken : List (κ × List α)
  deriving DecidableEq, Repr

namespace Fifo

variable {κ α : Type*}

def empty : Fifo κ α := ⟨[], [], []⟩

def send (f : Fifo κ α) (items : List α) : Fifo κ α :=
  { f with sent := f.sent ++ items, queue := f.queue ++ items }

/-- Consumer `c` removes the first `n` items. -/
def take (f : Fifo κ α) (c : κ) (n : ℕ) : Fifo κ α :=
  { f with queue := f.queue.drop n, taken := f.taken ++ [(c, f.queue.take n)] }

theorem forall_taken_take {f : Fifo κ α} {c : κ} {n : ℕ} {P : κ → Prop} :
    (∀ e ∈ (f.take c n).taken, P e.1) ↔ (∀ e ∈ f.taken, P e.1) ∧ P c := by
  rw [take, List.forall_mem_append, List.forall_mem_singleton]

/-- Nothing is lost, duplicated or reordered, and no removal is empty. -/
structure Conserved (f : Fifo κ α) : Prop where
  sent_eq : f.sent = (f.taken.map (·.2)).flatten ++ f.queue
  nonempty : ∀ e ∈ f.taken, e.2 ≠ []

theorem conserved_empty : (empty : Fifo κ α).Conserved := ⟨rfl, by simp [empty]⟩

theorem Conserved.send {f : Fifo κ α} (hf : f.Conserved) (items : List α) :
    (f.send items).Conserved where
  sent_eq := by simp only [Fifo.send, hf.sent_eq, List.append_assoc]
  nonempty := hf.nonempty

theorem Conserved.take {f : Fifo κ α} (hf : f.Conserved) (c : κ) {n : ℕ} (hn : 0 < n)
    (hq : f.queue ≠ []) : (f.take c n).Conserved where
  sent_eq := by
    simp only [Fifo.take, hf.sent_eq, List.map_append, List.map_cons, List.map_nil,
      List.flatten_append, List.flatten_cons, List.flatten_nil, List.append_nil,
      List.append_assoc, List.take_append_drop]
  nonempty := by
    intro e he
    rcases List.mem_append.mp he with he | he
    · exact hf.nonempty e he
    · have hsame := List.mem_singleton.mp he
      subst hsame
      simpa [Nat.ne_of_gt hn] using hq

variable [DecidableEq κ]

/-- What consumer `c` has taken, in order. -/
def seen (f : Fifo κ α) (c : κ) : List α := ((f.taken.filter (·.1 = c)).map (·.2)).flatten

theorem seen_take_self (f : Fifo κ α) (c : κ) (n : ℕ) :
    (f.take c n).seen c = f.seen c ++ f.queue.take n := by
  simp [seen, take]

theorem seen_take_of_ne (f : Fifo κ α) {b c : κ} (hb : b ≠ c) (n : ℕ) :
    (f.take b n).seen c = f.seen c := by
  simp [seen, take, hb]

theorem flatten_filter_eq_iff {taken : List (κ × List α)} (hne : ∀ e ∈ taken, e.2 ≠ []) (c : κ) :
    ((taken.filter (·.1 = c)).map (·.2)).flatten = (taken.map (·.2)).flatten ↔
      ∀ e ∈ taken, e.1 = c := by
  constructor
  · intro heq
    by_contra hother
    obtain ⟨e, he, hec⟩ : ∃ e ∈ taken, e.1 ≠ c := by simpa using hother
    -- the chunk of another consumer makes the whole longer
    obtain ⟨before, after, rfl⟩ := List.append_of_mem he
    have hsub (l : List (κ × List α)) :
        (((l.filter (·.1 = c)).map (·.2)).flatten).length ≤ ((l.map (·.2)).flatten).length :=
      ((List.filter_sublist.map _).flatten).length_le
    have hpos : 0 < e.2.length := List.length_pos_iff.mpr (hne e he)
    have hlen := congrArg List.length heq
    simp only [List.filter_append, List.filter_cons, hec, decide_false, Bool.false_eq_true,
      if_false, List.map_append, List.map_cons, List.flatten_append, List.flatten_cons,
      List.length_append] at hlen
    have hbefore := hsub before
    have hafter := hsub after
    omega
  · intro hall
    rw [List.filter_eq_self.mpr fun e he => by simpa using hall e he]

/-- One consumer sees everything, up to what is still queued, exactly when no other took any. -/
theorem Conserved.seen_append_queue_iff {f : Fifo κ α} (hf : f.Conserved) (c : κ) :
    f.seen c ++ f.queue = f.sent ↔ ∀ e ∈ f.taken, e.1 = c := by
  rw [hf.sent_eq, List.append_left_inj, seen, flatten_filter_eq_iff hf.nonempty]

end Fifo

end Spectrum.Foundation
