import Spectrum.Foundation.Run

/-! Simulation between two event-driven systems: a step of the concrete one is answered by a run
of the abstract one, possibly by the empty run. -/
namespace Spectrum.Foundation.System

variable {σ τ ε μ ο : Type*}

theorem run_append (S : System σ ε) (s : σ) (es fs : List ε) :
    S.run s (es ++ fs) = (S.run s es).bind fun t => S.run t fs := by
  unfold run
  rw [List.foldlM_append]
  rfl

theorem run_singleton (S : System σ ε) (s : σ) (e : ε) : S.run s [e] = S.step s e := by
  rw [run_cons]
  cases S.step s e <;> rfl

theorem run_append_eq_some (S : System σ ε) {s t u : σ} {es fs : List ε}
    (hes : S.run s es = some t) (hfs : S.run t fs = some u) : S.run s (es ++ fs) = some u := by
  rw [run_append, hes, Option.bind_some, hfs]

/-- A condition on the steps of a run can be tested on the run. -/
instance decidableAlong (S : System σ ε) (P : σ → ε → Prop) [∀ s e, Decidable (P s e)] :
    ∀ s es, Decidable (S.Along P s es)
  | _, [] => isTrue trivial
  | s, e :: es =>
    match h : S.step s e with
    | some t =>
      have := decidableAlong S P t es
      decidable_of_iff (P s e ∧ S.Along P t es) (by simp [Along, h])
    | none => decidable_of_iff (P s e) (by simp [Along, h])

/-- The system with what its steps answer written down. -/
def observed (S : System σ ε) (answer : σ → ε → List ο) : System (σ × List ο) ε :=
  ⟨fun s e => (S.step s.1 e).map fun t => (t, s.2 ++ answer s.1 e)⟩

theorem observed_step (S : System σ ε) (answer : σ → ε → List ο) {s t : σ} {e : ε}
    (h : S.step s e = some t) (l : List ο) :
    (S.observed answer).step (s, l) e = some (t, l ++ answer s e) := by
  simp [observed, h]

/-- Where each step in `P` is answered by a run, each run along `P` is. -/
theorem Along.simulated {C : System σ μ} {A : System τ ε} {R : σ → τ → Prop} {P : σ → μ → Prop}
    (hstep : ∀ s a m s', R s a → P s m → C.step s m = some s' →
      ∃ es a', A.run a es = some a' ∧ R s' a') {s s' : σ} {a : τ} {ms : List μ}
    (h : R s a) (halong : C.Along P s ms) (hrun : C.run s ms = some s') :
    ∃ es a', A.run a es = some a' ∧ R s' a' := by
  induction ms generalizing s a with
  | nil => exact ⟨[], a, rfl, Option.some.inj hrun ▸ h⟩
  | cons m ms ih =>
    obtain ⟨t, ht, hrest⟩ := (C.run_cons_eq_some).mp hrun
    obtain ⟨es, b, hes, hb⟩ := hstep s a m t h halong.1 ht
    obtain ⟨fs, c, hfs, hc⟩ := ih hb (halong.2 t ht) hrest
    exact ⟨es ++ fs, c, A.run_append_eq_some hes hfs, hc⟩

end Spectrum.Foundation.System
