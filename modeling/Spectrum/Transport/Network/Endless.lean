import Spectrum.Transport.Network.Receive

/-! `TCPTransport::receive` against a peer that may go on for ever. -/
namespace Spectrum.Transport.Network
open Utils

namespace Link

/-- The first `calls` turns of the loop of `receive`, where `incoming i` is what `::recv` gives
after `i` bytes, `none` for 0 or -1: how the call ended and the number of bytes it consumed, or
`none` while it is in its loop. -/
def receiveWithin (incoming : ℕ → Option UInt8) (buffer : List UInt8) :
    ℕ → Option (Except String (List UInt8) × ℕ)
  | 0 => none
  | calls + 1 =>
    match incoming buffer.length with
    | none => some (.error receiveFailure, buffer.length)
    | some byte =>
      let buffer := buffer ++ [byte]
      if byte = etx then some (.ok buffer, buffer.length)
      else receiveWithin incoming buffer calls

theorem receiveLoop_of_receiveWithin {incoming : ℕ → Option UInt8} {buffer : List UInt8}
    {calls consumed : ℕ} {outcome : Except String (List UInt8)}
    (h : receiveWithin incoming buffer calls = some (outcome, consumed)) :
    (receiveLoop buffer ((List.range' buffer.length calls).map incoming)).1 = outcome := by
  induction calls generalizing buffer with
  | zero => cases h
  | succ calls ih =>
    rw [List.range'_succ, List.map_cons]
    unfold receiveWithin at h
    split at h
    · next hfailed =>
      cases h
      rw [hfailed]
      rfl
    · next byte hbyte =>
      simp only [hbyte, receiveLoop]
      split at h
      · next hetx =>
        cases h
        rw [if_pos hetx]
      · next hetx =>
        rw [if_neg hetx]
        have hrest := ih h
        rwa [List.length_append, List.length_singleton] at hrest

theorem incoming_of_receiveWithin {incoming : ℕ → Option UInt8} {buffer : List UInt8}
    {calls consumed : ℕ} {outcome : Except String (List UInt8)}
    (h : receiveWithin incoming buffer calls = some (outcome, consumed)) :
    incoming consumed = none ∨ ∃ i, consumed = i + 1 ∧ incoming i = some etx := by
  induction calls generalizing buffer with
  | zero => cases h
  | succ calls ih =>
    unfold receiveWithin at h
    split at h
    · next hfailed =>
      cases h
      exact .inl hfailed
    · next byte hbyte =>
      split at h
      · next hetx =>
        cases h
        rw [hetx] at hbyte
        exact .inr ⟨buffer.length, List.length_append, hbyte⟩
      · exact ih h

theorem receiveWithin_stops {incoming : ℕ → Option UInt8} {i : ℕ}
    (hstop : incoming i = none ∨ incoming i = some etx) (buffer : List UInt8)
    (hi : buffer.length ≤ i) :
    ∃ calls outcome consumed, receiveWithin incoming buffer calls = some (outcome, consumed) ∧
      (consumed ≤ i ∨ consumed = i + 1 ∧ incoming i = some etx) := by
  induction hleft : i - buffer.length generalizing buffer with
  | zero =>
    have hhere : i = buffer.length := by omega
    subst hhere
    rcases hstop with hnone | hetx
    · exact ⟨1, .error receiveFailure, buffer.length, by simp [receiveWithin, hnone],
        .inl (le_refl _)⟩
    · exact ⟨1, .ok (buffer ++ [etx]), buffer.length + 1, by simp [receiveWithin, hetx],
        .inr ⟨rfl, hetx⟩⟩
  | succ left ih =>
    cases hbyte : incoming buffer.length with
    | none =>
      exact ⟨1, .error receiveFailure, buffer.length, by simp [receiveWithin, hbyte], .inl hi⟩
    | some byte =>
      by_cases hetx : byte = etx
      · refine ⟨1, .ok (buffer ++ [byte]), buffer.length + 1, ?_, .inl (by omega)⟩
        simp [receiveWithin, hbyte, hetx]
      · have hlength : (buffer ++ [byte]).length = buffer.length + 1 := List.length_append
        obtain ⟨calls, outcome, consumed, hcall, hconsumed⟩ :=
          ih (buffer ++ [byte]) (by omega) (by omega)
        refine ⟨calls + 1, outcome, consumed, ?_, hconsumed⟩
        simp only [receiveWithin, hbyte, if_neg hetx, hcall]

end Link

namespace Impl
open Link

/-- `receive()`, as far as `calls` calls of `::recv`. Without a socket the first one fails. -/
def receiveWithin (s : Impl) (incoming : ℕ → Option UInt8) (calls : ℕ) :
    Option (Except String (List UInt8) × ℕ) :=
  match s.sockfd with
  | none => Link.receiveWithin (fun _ => none) [] calls
  | some _ => Link.receiveWithin incoming [] calls

/-- A call that ended is the call of `Link.receive` on the results that it got. -/
theorem receive_of_receiveWithin {s : Impl} {incoming : ℕ → Option UInt8} {calls consumed : ℕ}
    {outcome : Except String (List UInt8)}
    (h : s.receiveWithin incoming calls = some (outcome, consumed)) :
    (⟨s, (List.range calls).map incoming⟩ : Link).receive.1 = outcome := by
  unfold receiveWithin at h
  unfold Link.receive
  cases hsockfd : s.sockfd with
  | none =>
    simp only [hsockfd] at h ⊢
    rw [← receiveLoop_of_receiveWithin h]
    cases calls <;> rfl
  | some fd =>
    simp only [hsockfd] at h ⊢
    rw [List.range_eq_range']
    exact receiveLoop_of_receiveWithin h

/-- The call returns or throws, and has consumed no more than `limit` bytes by then. -/
def EndsWithin (s : Impl) (incoming : ℕ → Option UInt8) (limit : ℕ) : Prop :=
  ∃ calls outcome consumed,
    s.receiveWithin incoming calls = some (outcome, consumed) ∧ consumed ≤ limit

theorem endsWithin_iff {s : Impl} {fd : ℕ} (hsockfd : s.sockfd = some fd)
    {incoming : ℕ → Option UInt8} {limit : ℕ} :
    s.EndsWithin incoming limit ↔
      (∃ i < limit, incoming i = some etx) ∨ ∃ i ≤ limit, incoming i = none := by
  unfold EndsWithin receiveWithin
  rw [hsockfd]
  constructor
  · intro h
    obtain ⟨calls, outcome, consumed, hcall, hlimit⟩ := h
    rcases incoming_of_receiveWithin hcall with hnone | ⟨i, hi, hetx⟩
    · exact .inr ⟨consumed, hlimit, hnone⟩
    · exact .inl ⟨i, by omega, hetx⟩
  · intro h
    rcases h with ⟨i, hi, hetx⟩ | ⟨i, hi, hnone⟩
    · obtain ⟨calls, outcome, consumed, hcall, hconsumed⟩ :=
        receiveWithin_stops (.inr hetx) [] (Nat.zero_le i)
      exact ⟨calls, outcome, consumed, hcall, by omega⟩
    · obtain ⟨calls, outcome, consumed, hcall, hconsumed⟩ :=
        receiveWithin_stops (.inl hnone) [] (Nat.zero_le i)
      rw [hnone] at hconsumed
      refine ⟨calls, outcome, consumed, hcall, ?_⟩
      rcases hconsumed with hle | hend
      · omega
      · cases hend.2

/-- A call keeps to the size of the largest frame exactly when there is no socket to read from, or
one of the first 259 bytes is 0x03, or one of the first 260 calls of `::recv` fails. -/
theorem endsWithin_frame_iff (s : Impl) (incoming : ℕ → Option UInt8) :
    s.EndsWithin incoming 259 ↔
      s.sockfd = none ∨ (∃ i < 259, incoming i = some etx) ∨ ∃ i ≤ 259, incoming i = none := by
  cases hsockfd : s.sockfd with
  | none =>
    have hends : s.EndsWithin incoming 259 := by
      refine ⟨1, .error receiveFailure, 0, ?_, Nat.zero_le 259⟩
      unfold receiveWithin
      rw [hsockfd]
      rfl
    exact iff_of_true hends (.inl rfl)
  | some fd =>
    rw [endsWithin_iff hsockfd]
    simp

/-- A peer that sends zeros for ever: no number of calls of `::recv` is enough. -/
theorem not_endsWithin_zeros :
    (∀ calls, (online ⟨"127.0.0.1", 3001⟩).receiveWithin (fun _ => some 0) calls = none) ∧
      ¬ (online ⟨"127.0.0.1", 3001⟩).EndsWithin (fun _ => some 0) 259 := by
  have hnever (calls : ℕ) :
      (online ⟨"127.0.0.1", 3001⟩).receiveWithin (fun _ => some 0) calls = none := by
    rw [Option.eq_none_iff_forall_ne_some]
    intro result hcall
    rcases incoming_of_receiveWithin hcall with hnone | ⟨i, hi, hetx⟩
    · cases hnone
    · exact absurd hetx (by decide)
  refine ⟨hnever, ?_⟩
  intro h
  obtain ⟨calls, outcome, consumed, hcall, hlimit⟩ := h
  rw [hnever calls] at hcall
  cases hcall

end Impl

end Spectrum.Transport.Network
