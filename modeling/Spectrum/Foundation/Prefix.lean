import Spectrum.Foundation.Checked

/-! Decoders that look at the front of a vector only, put together from checked accesses, and the
size check in front of them. -/
namespace Spectrum.Foundation

variable {α β γ : Type}

/-- `std::copy_n(v.begin(), n, array.begin())` into an array of `n` elements. -/
def copyN (v : List α) (n : ℕ) : Except Fault (Vector α n) :=
  if h : n ≤ v.length then .ok ⟨(v.take n).toArray, by simp [h]⟩ else .error .outOfBounds

/-- On `n` or more elements the decoder runs without a fault, and only the first `n` of them
matter to what it gives. -/
def Within (n : ℕ) (decode : List α → Except Fault β) : Prop :=
  ∀ v, n ≤ v.length → ∃ b, decode v = .ok b ∧ ∀ w, w.take n = v.take n → decode w = .ok b

theorem le_length_of_take_eq {n : ℕ} {v w : List α} (hv : n ≤ v.length)
    (h : w.take n = v.take n) : n ≤ w.length := by
  have hlen := congrArg List.length h
  rw [List.length_take, List.length_take] at hlen
  omega

theorem within_pure (n : ℕ) (b : β) : Within n fun _ : List α => pure b :=
  fun _ _ => ⟨b, rfl, fun _ _ => rfl⟩

theorem within_readAt {n i : ℕ} (hi : i < n) : Within n fun v : List α => readAt v i := by
  intro v hv
  have hiv : i < v.length := by omega
  refine ⟨v[i], by simp [readAt, hiv], ?_⟩
  intro w hw
  have hiw : i < w.length := by
    have hlen := le_length_of_take_eq hv hw
    omega
  have hsame : w[i]? = v[i]? := by
    rw [← List.getElem?_take_of_lt hi, hw, List.getElem?_take_of_lt hi]
  simp [readAt, hsame, hiv]

theorem within_copyN (n : ℕ) : Within n fun v : List α => copyN v n := by
  intro v hv
  refine ⟨_, dif_pos hv, ?_⟩
  intro w hw
  have hn := le_length_of_take_eq hv hw
  refine (dif_pos hn).trans ?_
  simp only [hw]

theorem Within.bind {n : ℕ} {d : List α → Except Fault β} {f : β → List α → Except Fault γ}
    (hd : Within n d) (hf : ∀ b, Within n (f b)) : Within n fun v => d v >>= fun b => f b v := by
  intro v hv
  obtain ⟨b, hb, hfront⟩ := hd v hv
  obtain ⟨c, hc, hfront'⟩ := hf b v hv
  refine ⟨c, (bind_of_ok hb _).trans hc, ?_⟩
  intro w hw
  exact (bind_of_ok (hfront w hw) _).trans (hfront' w hw)

theorem within_readAt_bind {n i : ℕ} (hi : i < n) {f : α → List α → Except Fault β}
    (hf : ∀ a, Within n (f a)) : Within n fun v => readAt v i >>= fun a => f a v :=
  (within_readAt hi).bind hf

/-- A decoder behind the check that throws on short vectors. The outer result is a fault, the inner
one the exception. -/
def guarded (short : List α → Bool) (message : String) (decode : List α → Except Fault β)
    (v : List α) : Except Fault (Except String β) :=
  if short v then pure (.error message)
  else do
    let b ← decode v
    pure (.ok b)

variable {n : ℕ} {short : List α → Bool} {message : String} {decode : List α → Except Fault β}

theorem guarded_of_short {v : List α} (h : short v = true) :
    guarded short message decode v = .ok (.error message) := if_pos h

theorem guarded_of_long {v : List α} {b : β} (h : ¬ short v = true) (hb : decode v = .ok b) :
    guarded short message decode v = .ok (.ok b) := by
  unfold guarded
  rw [if_neg h, bind_of_ok hb]
  rfl

/-- When the check asks for what the decoder reads, nothing is read outside, and nothing behind the
part asked for matters. -/
theorem Within.guarded (hd : Within n decode) (hshort : ∀ v, short v = true ↔ v.length < n)
    {v : List α} (hv : n ≤ v.length) :
    ∃ b, guarded short message decode v = .ok (.ok b) ∧
      ∀ w, w.take n = v.take n → guarded short message decode w = .ok (.ok b) := by
  have hlong {w : List α} (hw : n ≤ w.length) : ¬ short w = true := by
    rw [hshort]
    omega
  obtain ⟨b, hb, hfront⟩ := hd v hv
  refine ⟨b, guarded_of_long (hlong hv) hb, ?_⟩
  intro w hw
  exact guarded_of_long (hlong (le_length_of_take_eq hv hw)) (hfront w hw)

end Spectrum.Foundation
