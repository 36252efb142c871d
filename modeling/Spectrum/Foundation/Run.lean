import Mathlib.Data.List.Basic

/-! Event-driven transition systems: finite runs, the invariant rule, and the
dichotomy rule for a property that one kind of step destroys for good, and the origin rule for a
property that one kind of step brings about. -/
namespace Spectrum.Foundation

/-- `step s e` is the state after event `e`; `none` means that `e` cannot happen in `s`. -/
structure System (σ ε : Type*) where
  step : σ → ε → Option σ

namespace System

variable {σ ε : Type*} (S : System σ ε)

/-- The state after the events of a schedule, `none` when one of them cannot happen. -/
def run (s : σ) (es : List ε) : Option σ := es.foldlM S.step s

@[simp] theorem run_nil (s : σ) : S.run s [] = some s := rfl

@[simp] theorem run_cons (s : σ) (e : ε) (es : List ε) :
    S.run s (e :: es) = (S.step s e).bind fun t => S.run t es := rfl

theorem run_cons_eq_some {s t : σ} {e : ε} {es : List ε} :
    S.run s (e :: es) = some t ↔ ∃ m, S.step s e = some m ∧ S.run m es = some t := by
  rw [run_cons, Option.bind_eq_some_iff]

/-- What every step preserves, every run preserves. -/
theorem run_invariant {I : σ → Prop}
    (hstep : ∀ s e t, I s → S.step s e = some t → I t) {s t : σ} {es : List ε}
    (hs : I s) (hrun : S.run s es = some t) : I t := by
  induction es generalizing s with
  | nil => exact Option.some.inj hrun ▸ hs
  | cons e es ih =>
    obtain ⟨m, hm, hrest⟩ := (S.run_cons_eq_some).mp hrun
    exact ih (hstep s e m hs hm) hrest

theorem run_total {I : σ → Prop} (hstep : ∀ s e, I s → ∃ t, S.step s e = some t ∧ I t) {s : σ}
    (hs : I s) (es : List ε) : ∃ t, S.run s es = some t := by
  induction es generalizing s with
  | nil => exact ⟨s, rfl⟩
  | cons e es ih =>
    obtain ⟨m, hm, hI⟩ := hstep s e hs
    obtain ⟨t, ht⟩ := ih hI
    exact ⟨t, (S.run_cons_eq_some).mpr ⟨m, hm, ht⟩⟩

/-- The system with the events of one kind only. -/
def restrict (R : ε → Prop) : System σ {e // R e} := ⟨fun s e => S.step s e⟩

theorem run_restrict {R : ε → Prop} (s : σ) (es : List {e // R e}) :
    (S.restrict R).run s es = S.run s (es.map Subtype.val) := by
  unfold run
  rw [List.foldlM_map]
  rfl

/-- Every step of the run over `es` is taken from a state and by an event that satisfy `P`. -/
def Along (P : σ → ε → Prop) : σ → List ε → Prop
  | _, [] => True
  | s, e :: es => P s e ∧ ∀ t, S.step s e = some t → Along P t es

variable {S}

theorem along_cons {P : σ → ε → Prop} {s t : σ} {e : ε} {es : List ε} (he : P s e)
    (ht : S.step s e = some t) (hrest : S.Along P t es) : S.Along P s (e :: es) :=
  ⟨he, fun _ ht' => Option.some.inj (ht.symm.trans ht') ▸ hrest⟩

theorem Along.of_append {P : σ → ε → Prop} {s : σ} {es fs : List ε}
    (h : S.Along P s (es ++ fs)) : S.Along P s es := by
  induction es generalizing s with
  | nil => trivial
  | cons e es ih => exact ⟨h.1, fun t ht => ih (h.2 t ht)⟩

theorem along_event_iff {P : ε → Prop} {s t : σ} {es : List ε} (hrun : S.run s es = some t) :
    S.Along (fun _ e => P e) s es ↔ ∀ e ∈ es, P e := by
  induction es generalizing s with
  | nil => simp [Along]
  | cons e es ih =>
    obtain ⟨m, hm, hrest⟩ := (S.run_cons_eq_some).mp hrun
    simp only [Along, List.forall_mem_cons, hm, Option.some.injEq, forall_eq', ih hrest]

/-- The invariant rule for runs whose steps all satisfy `P`. -/
theorem Along.invariant {I : σ → Prop} {P : σ → ε → Prop}
    (hstep : ∀ s e t, I s → P s e → S.step s e = some t → I t) {s t : σ} {es : List ε}
    (hs : I s) (halong : S.Along P s es) (hrun : S.run s es = some t) : I t := by
  induction es generalizing s with
  | nil => exact Option.some.inj hrun ▸ hs
  | cons e es ih =>
    obtain ⟨m, hm, hrest⟩ := (S.run_cons_eq_some).mp hrun
    exact ih (hstep s e m hs halong.1 hm) (halong.2 m hm) hrest

/-- When a step outside `P` leads from `I` into `B`, and `B` is never left, a run from `I`
ends in `I` with all its steps in `P`, or in `B` with one step outside. -/
theorem run_dichotomy {I B : σ → Prop} {P : σ → ε → Prop}
    (hgood : ∀ s e t, I s → P s e → S.step s e = some t → I t)
    (hbad : ∀ s e t, I s → ¬ P s e → S.step s e = some t → B t)
    (hstay : ∀ s e t, B s → S.step s e = some t → B t) {s t : σ} {es : List ε}
    (hs : I s) (hrun : S.run s es = some t) :
    (S.Along P s es ∧ I t) ∨ (¬ S.Along P s es ∧ B t) := by
  induction es generalizing s with
  | nil => exact .inl ⟨trivial, Option.some.inj hrun ▸ hs⟩
  | cons e es ih =>
    obtain ⟨m, hm, hrest⟩ := (S.run_cons_eq_some).mp hrun
    by_cases hP : P s e
    · rcases ih (hgood s e m hs hP hm) hrest with ⟨ha, hi⟩ | ⟨ha, hb⟩
      · refine .inl ⟨⟨hP, fun t' ht' => ?_⟩, hi⟩
        exact Option.some.inj (hm.symm.trans ht') ▸ ha
      · exact .inr ⟨fun h => ha (h.2 m hm), hb⟩
    · refine .inr ⟨fun h => hP h.1, ?_⟩
      exact S.run_invariant hstay (hbad s e m hs hP hm) hrest

theorem run_dichotomy_on {R : ε → Prop} {I B : σ → Prop} {P : σ → ε → Prop}
    (hgood : ∀ s e t, R e → I s → P s e → S.step s e = some t → I t)
    (hbad : ∀ s e t, R e → I s → ¬ P s e → S.step s e = some t → B t)
    (hstay : ∀ s e t, R e → B s → S.step s e = some t → B t) {s t : σ} {es : List ε}
    (hes : ∀ e ∈ es, R e) (hs : I s) (hrun : S.run s es = some t) :
    (S.Along P s es ∧ I t) ∨ (¬ S.Along P s es ∧ B t) := by
  induction es generalizing s with
  | nil => exact .inl ⟨trivial, Option.some.inj hrun ▸ hs⟩
  | cons e es ih =>
    obtain ⟨he, hrest⟩ := List.forall_mem_cons.mp hes
    obtain ⟨m, hm, hlater⟩ := (S.run_cons_eq_some).mp hrun
    by_cases hP : P s e
    · rcases ih hrest (hgood s e m he hs hP hm) hlater with ⟨ha, hi⟩ | ⟨ha, hb⟩
      · exact .inl ⟨along_cons hP hm ha, hi⟩
      · exact .inr ⟨fun h => ha (h.2 m hm), hb⟩
    · have hevents : S.Along (fun _ e => R e) m es := (along_event_iff hlater).mpr hrest
      have hlast : B t := hevents.invariant (fun s e t hs he h => hstay s e t he hs h)
        (hbad s e m he hs hP hm) hlater
      exact .inr ⟨fun h => hP h.1, hlast⟩

/-- The dichotomy read as an equivalence, for a property that holds in `I` and fails in `B`. -/
theorem run_property_iff {I B : σ → Prop} {P : σ → ε → Prop} {Q : σ → Prop}
    (hgood : ∀ s e t, I s → P s e → S.step s e = some t → I t)
    (hbad : ∀ s e t, I s → ¬ P s e → S.step s e = some t → B t)
    (hstay : ∀ s e t, B s → S.step s e = some t → B t)
    (hI : ∀ s, I s → Q s) (hB : ∀ s, B s → ¬ Q s) {s t : σ} {es : List ε}
    (hs : I s) (hrun : S.run s es = some t) : Q t ↔ S.Along P s es := by
  rcases run_dichotomy hgood hbad hstay hs hrun with ⟨ha, hi⟩ | ⟨ha, hb⟩
  · exact iff_of_true (hI t hi) ha
  · exact iff_of_false (hB t hb) ha

/-- When `Q` is brought about by the steps in `P` only, and kept by the steps in `N` only, a run
that ends in `Q` was in `Q` from the start, or a step in `P` was its last one outside `N`. -/
theorem run_origin {Q : σ → Prop} {P N : σ → ε → Prop}
    (hstep : ∀ s e t, S.step s e = some t → Q t → P s e ∨ (Q s ∧ N s e)) {s t : σ} {es : List ε}
    (hrun : S.run s es = some t) (ht : Q t) :
    (Q s ∧ S.Along N s es) ∨ ∃ before e after m n, es = before ++ e :: after ∧
      S.run s before = some m ∧ P m e ∧ S.step m e = some n ∧ Q n ∧ S.Along N n after ∧
      S.run n after = some t := by
  induction es generalizing s with
  | nil => exact .inl ⟨Option.some.inj hrun ▸ ht, trivial⟩
  | cons e es ih =>
    obtain ⟨m, hm, hrest⟩ := (S.run_cons_eq_some).mp hrun
    rcases ih hrest with ⟨hQ, halong⟩ | ⟨before, e', after, m', n', rfl, hbefore, hafter⟩
    · rcases hstep s e m hm hQ with hP | ⟨hQs, hN⟩
      · exact .inr ⟨[], e, es, s, m, rfl, rfl, hP, hm, hQ, halong, hrest⟩
      · exact .inl ⟨hQs, along_cons hN hm halong⟩
    · refine .inr ⟨e :: before, e', after, m', n', rfl, ?_, hafter⟩
      exact (S.run_cons_eq_some).mpr ⟨m, hm, hbefore⟩

end System

end Spectrum.Foundation
