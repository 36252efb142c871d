import Mathlib.Data.List.Count
import Mathlib.Data.List.Nodup

/-! Handles that a kernel gives out and takes back, and one variable that owns a handle.
A handle is named by its place in the order of acquisition: the number a kernel gives may
come back after a close, the name does not, so "closed exactly once" is about one handle. -/
namespace Spectrum.Foundation

/-- Handles `0, …, opened - 1` were given out; `closes` are the close calls, latest first. -/
structure Ledger where
  opened : ℕ
  closes : List ℕ
  deriving DecidableEq, Repr

namespace Ledger

def empty : Ledger := ⟨0, []⟩

def acquire (l : Ledger) : Ledger := { l with opened := l.opened + 1 }

def close (l : Ledger) (h : ℕ) : Ledger := { l with closes := h :: l.closes }

def IsOpen (l : Ledger) (h : ℕ) : Prop := h < l.opened ∧ h ∉ l.closes

instance (l : Ledger) (h : ℕ) : Decidable (l.IsOpen h) := inferInstanceAs (Decidable (_ ∧ _))

def ClosedOnce (l : Ledger) (h : ℕ) : Prop := l.closes.count h = 1

instance (l : Ledger) (h : ℕ) : Decidable (l.ClosedOnce h) := inferInstanceAs (Decidable (_ = _))

/-- The handles open now. -/
def live (l : Ledger) : List ℕ := (List.range l.opened).filter fun h => h ∉ l.closes

theorem mem_live {l : Ledger} {h : ℕ} : h ∈ l.live ↔ l.IsOpen h := by
  simp [live, IsOpen]

theorem nodup_live (l : Ledger) : l.live.Nodup := List.nodup_range.filter _

theorem IsOpen.not_closedOnce {l : Ledger} {h : ℕ} (ho : l.IsOpen h) : ¬ l.ClosedOnce h := by
  unfold ClosedOnce
  rw [List.count_eq_zero_of_not_mem ho.2]
  decide

end Ledger

/-- A variable that holds a handle or nothing, with the kernel's ledger. -/
structure Slot where
  ledger : Ledger
  held : Option ℕ
  deriving DecidableEq, Repr

namespace Slot

def empty : Slot := ⟨.empty, none⟩

/-- A new handle is stored, whatever the variable held. -/
def acquire (s : Slot) : Slot := ⟨s.ledger.acquire, some s.ledger.opened⟩

/-- The variable is overwritten with nothing, as by an acquisition that failed. -/
def forget (s : Slot) : Slot := { s with held := none }

/-- The handle held, if there is one, is closed and the variable cleared. -/
def release (s : Slot) : Slot :=
  match s.held with
  | some h => ⟨s.ledger.close h, none⟩
  | none => s

/-- Only handles that were given out are closed, none of them twice, and not the one held. -/
structure Sound (s : Slot) : Prop where
  held_open : ∀ h, s.held = some h → s.ledger.IsOpen h
  closes_nodup : s.ledger.closes.Nodup
  closes_lt : ∀ h ∈ s.ledger.closes, h < s.ledger.opened

/-- An open handle that the variable does not hold: nothing will ever close it. -/
def Lost (s : Slot) : Prop := ∃ h, s.ledger.IsOpen h ∧ s.held ≠ some h

@[simp] theorem release_held (s : Slot) : s.release.held = none := by
  unfold release
  split
  · rfl
  · assumption

theorem Sound.empty : Sound .empty where
  held_open := by simp [Slot.empty]
  closes_nodup := List.nodup_nil
  closes_lt := by simp [Slot.empty, Ledger.empty]

theorem not_lost_empty : ¬ Lost .empty := by
  intro hex
  obtain ⟨h, ho, -⟩ := hex
  exact Nat.not_lt_zero h ho.1

theorem Sound.acquire {s : Slot} (hs : s.Sound) : s.acquire.Sound where
  held_open := by
    intro h hh
    have hsame : s.ledger.opened = h := Option.some.inj hh
    subst hsame
    exact ⟨Nat.lt_succ_self _, fun hm => Nat.lt_irrefl _ (hs.closes_lt _ hm)⟩
  closes_nodup := hs.closes_nodup
  closes_lt := fun h hm => Nat.lt_succ_of_lt (hs.closes_lt h hm)

theorem Sound.forget {s : Slot} (hs : s.Sound) : s.forget.Sound where
  held_open := by simp [Slot.forget]
  closes_nodup := hs.closes_nodup
  closes_lt := hs.closes_lt

theorem Sound.release {s : Slot} (hs : s.Sound) : s.release.Sound := by
  unfold Slot.release
  split
  · next h hh =>
    have ho := hs.held_open h hh
    exact ⟨by simp, List.nodup_cons.mpr ⟨ho.2, hs.closes_nodup⟩,
      List.forall_mem_cons.mpr ⟨ho.1, hs.closes_lt⟩⟩
  · exact hs

theorem not_lost_acquire {s : Slot} (hn : s.held = none) (hl : ¬ s.Lost) : ¬ s.acquire.Lost := by
  intro hex
  obtain ⟨h, ⟨hlt, hc⟩, hh⟩ := hex
  have hne : h ≠ s.ledger.opened := fun he => hh (congrArg some he.symm)
  refine hl ⟨h, ⟨?_, hc⟩, by simp [hn]⟩
  have : h < s.ledger.opened + 1 := hlt
  omega

theorem not_lost_forget {s : Slot} (hn : s.held = none) (hl : ¬ s.Lost) : ¬ s.forget.Lost := by
  intro hex
  obtain ⟨h, ho, -⟩ := hex
  exact hl ⟨h, ho, by simp [hn]⟩

theorem not_lost_release {s : Slot} (hl : ¬ s.Lost) : ¬ s.release.Lost := by
  unfold release
  split
  · next g hg =>
    intro hex
    obtain ⟨h, ⟨hlt, hc⟩, -⟩ := hex
    have hc' := List.not_mem_of_not_mem_cons hc
    have hne : h ≠ g := List.ne_of_not_mem_cons hc
    exact hl ⟨h, ⟨hlt, hc'⟩, fun he => hne (Option.some.inj (he.symm.trans hg))⟩
  · exact hl

theorem Sound.lost_forget {s : Slot} (hs : s.Sound) {h : ℕ} (hh : s.held = some h) :
    s.forget.Lost :=
  ⟨h, hs.held_open h hh, by simp [Slot.forget]⟩

theorem Sound.lost_acquire {s : Slot} (hs : s.Sound) {h : ℕ} (hh : s.held = some h) :
    s.acquire.Lost := by
  obtain ⟨hlt, hc⟩ := hs.held_open h hh
  exact ⟨h, ⟨Nat.lt_succ_of_lt hlt, hc⟩, fun he => Nat.ne_of_gt hlt (Option.some.inj he)⟩

theorem Lost.acquire {s : Slot} : s.Lost → s.acquire.Lost := by
  intro hex
  obtain ⟨h, ⟨hlt, hc⟩, -⟩ := hex
  exact ⟨h, ⟨Nat.lt_succ_of_lt hlt, hc⟩, fun he => Nat.ne_of_gt hlt (Option.some.inj he)⟩

theorem Lost.forget {s : Slot} : s.Lost → s.forget.Lost := by
  intro hex
  obtain ⟨h, ho, -⟩ := hex
  exact ⟨h, ho, by simp [Slot.forget]⟩

theorem Lost.release {s : Slot} (hl : s.Lost) : s.release.Lost := by
  unfold Slot.release
  split
  · next g hg =>
    obtain ⟨h, ⟨hlt, hc⟩, hh⟩ := hl
    have hne : h ≠ g := fun he => hh (he ▸ hg)
    exact ⟨h, ⟨hlt, List.not_mem_cons_of_ne_of_not_mem hne hc⟩, by simp⟩
  · exact hl

/-- Where nothing is lost, each handle is the one held, still open, or was closed once. -/
theorem Sound.accounts {s : Slot} (hs : s.Sound) (hl : ¬ s.Lost) {h : ℕ}
    (hlt : h < s.ledger.opened) :
    (s.held = some h ∧ s.ledger.IsOpen h) ∨ (s.held ≠ some h ∧ s.ledger.ClosedOnce h) := by
  by_cases hh : s.held = some h
  · exact .inl ⟨hh, hs.held_open h hh⟩
  · refine .inr ⟨hh, List.count_eq_one_of_mem hs.closes_nodup ?_⟩
    by_contra hc
    exact hl ⟨h, ⟨hlt, hc⟩, hh⟩

theorem live_length_le_one {s : Slot} (hl : ¬ s.Lost) : s.ledger.live.length ≤ 1 := by
  have hsub : s.ledger.live ⊆ s.held.toList := by
    intro h hm
    by_contra hh
    exact hl ⟨h, Ledger.mem_live.mp hm, by simpa using hh⟩
  calc s.ledger.live.length ≤ s.held.toList.length :=
        (List.subperm_of_subset s.ledger.nodup_live hsub).length_le
    _ ≤ 1 := by cases s.held <;> simp

end Slot

end Spectrum.Foundation
