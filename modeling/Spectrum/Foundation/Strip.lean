import Mathlib.Data.List.DropRight

/-! A list without the runs of unwanted values at its two ends. -/
namespace Spectrum.Foundation

variable {α : Type*} (p : α → Bool)

/-- Without the longest run of `p` at the front and the longest run at the back. -/
def strip (l : List α) : List α := (l.dropWhile p).rdropWhile p

variable {p}

theorem strip_split (l : List α) :
    l.takeWhile p ++ strip p l ++ (l.dropWhile p).rtakeWhile p = l := by
  unfold strip
  rw [List.append_assoc, List.rdropWhile_append_rtakeWhile, List.takeWhile_append_dropWhile]

theorem strip_eq_nil_iff {l : List α} : strip p l = [] ↔ ∀ a ∈ l, p a := by
  unfold strip
  rw [List.rdropWhile_eq_nil_iff]
  constructor
  · intro h a ha
    rw [← List.takeWhile_append_dropWhile (p := p) (l := l)] at ha
    rcases List.mem_append.mp ha with hfront | hback
    · exact List.mem_takeWhile_imp hfront
    · exact h a hback
  · intro h a ha
    exact h a ((List.dropWhile_suffix p).subset ha)

theorem mem_of_mem_strip {l : List α} {a : α} (ha : a ∈ strip p l) : a ∈ l :=
  (List.dropWhile_suffix p).subset (List.rdropWhile_prefix p (l := l.dropWhile p) |>.subset ha)

theorem head_strip {l : List α} {a : α} (ha : (strip p l).head? = some a) : ¬ p a := by
  obtain ⟨rest, hrest⟩ := List.rdropWhile_prefix p (l := l.dropWhile p)
  have hhead : (l.dropWhile p).head? = some a := by
    rw [← hrest, List.head?_append]
    change (strip p l).head?.or _ = _
    rw [ha]
    rfl
  have hne : l.dropWhile p ≠ [] := by
    intro hnil
    rw [hnil] at hhead
    cases hhead
  have hstop := List.head_dropWhile_not p hne
  rw [List.head?_eq_some_head hne] at hhead
  rw [← Option.some.inj hhead, hstop]
  decide

theorem getLast_strip {l : List α} {a : α} (ha : (strip p l).getLast? = some a) : ¬ p a := by
  have hne : strip p l ≠ [] := by
    intro hnil
    rw [hnil] at ha
    cases ha
  have hstop := List.rdropWhile_last_not p (l.dropWhile p) hne
  rw [List.getLast?_eq_some_getLast hne] at ha
  rwa [← Option.some.inj ha]

theorem strip_eq_self {l : List α} (hhead : ∀ a, l.head? = some a → ¬ p a)
    (hlast : ∀ a, l.getLast? = some a → ¬ p a) : strip p l = l := by
  have hfront : l.dropWhile p = l := by
    cases l with
    | nil => rfl
    | cons a l => exact List.dropWhile_cons_of_neg (hhead a rfl)
  unfold strip
  rw [hfront, List.rdropWhile_eq_self_iff]
  intro hne
  exact hlast _ (List.getLast?_eq_some_getLast hne)

theorem strip_strip (l : List α) : strip p (strip p l) = strip p l :=
  strip_eq_self (fun _ ha => head_strip ha) (fun _ ha => getLast_strip ha)

end Spectrum.Foundation
