import Spectrum.Transport.Network.Tcp
import Mathlib.Algebra.Order.BigOperators.Group.List
import Mathlib.Algebra.Order.Ring.Int

/-! The loop of `TCPTransport::send`, whatever amounts the calls of `::send` accept. -/
namespace Spectrum.Transport.Network
namespace Impl

/-- Every call but the last one accepts a byte at least, so there are no more calls than bytes. -/
theorem sendLoop_ends (data : List UInt8) (totalSent : ℕ) (result : ℕ → ℤ) :
    ∃ calls ≤ data.length - totalSent, ∃ ok chunks,
      sendLoop data totalSent ((List.range calls).map result) = some (ok, chunks) := by
  -- the bytes left go down with each call; the results after the first are a sequence again
  induction hleft : data.length - totalSent using Nat.strong_induction_on
    generalizing totalSent result with
  | _ left ih =>
    by_cases hmore : totalSent < data.length
    · by_cases hsent : result 0 ≤ 0
      · refine ⟨1, by omega, false, [], ?_⟩
        simp [sendLoop, hmore, hsent]
      · have hless : data.length - (totalSent + (result 0).toNat) < left := by omega
        obtain ⟨calls, hcalls, ok, chunks, hloop⟩ :=
          ih _ hless (totalSent + (result 0).toNat) (fun i => result (i + 1)) rfl
        refine ⟨calls + 1, by omega, ok, (data.drop totalSent).take (result 0).toNat :: chunks, ?_⟩
        rw [List.range_succ_eq_map, List.map_cons, List.map_map]
        simp only [sendLoop, if_pos hmore, if_neg hsent]
        change (sendLoop data _ ((List.range calls).map fun i => result (i + 1))).map _ = _
        rw [hloop]
        rfl
    · refine ⟨0, by omega, true, [], ?_⟩
      simp [sendLoop, hmore]

theorem sendLoop_chunk {data : List UInt8} {totalSent : ℕ} {results : List ℤ} {ok : Bool}
    {chunks : List (List UInt8)} (h : sendLoop data totalSent results = some (ok, chunks)) {i : ℕ}
    (hi : i < chunks.length) : ∃ sent, results[i]? = some sent ∧ 0 < sent ∧
      chunks[i] = (data.drop (totalSent + (chunks.take i).flatten.length)).take sent.toNat := by
  induction chunks generalizing totalSent results i with
  | nil => exact absurd hi (Nat.not_lt_zero i)
  | cons chunk chunks ih =>
    obtain ⟨sent, rest, rfl, hmore, hpos, rfl, hloop⟩ := sendLoop_eq_cons h
    cases i with
    | zero => exact ⟨sent, rfl, hpos, rfl⟩
    | succ i =>
      have hi' : i < chunks.length := Nat.lt_of_succ_lt_succ hi
      obtain ⟨sent', hresult, hpos', hchunk⟩ := ih hloop hi'
      refine ⟨sent', hresult, hpos', ?_⟩
      -- a call that accepts more than is left makes both sides empty
      have hfrom : data.drop (totalSent + sent.toNat + (chunks.take i).flatten.length) =
          data.drop (totalSent + (((data.drop totalSent).take sent.toNat).length +
            (chunks.take i).flatten.length)) := by
        rw [List.length_take, List.length_drop]
        by_cases hfits : sent.toNat ≤ data.length - totalSent
        · rw [Nat.min_eq_left hfits, Nat.add_assoc]
        · rw [List.drop_eq_nil_of_le (by omega), List.drop_eq_nil_of_le (by omega)]
      rw [List.getElem_cons_succ, hchunk, hfrom, List.take_succ_cons, List.flatten_cons,
        List.length_append]

theorem sendLoop_stops {data : List UInt8} {totalSent : ℕ} {results : List ℤ}
    {chunks : List (List UInt8)} (h : sendLoop data totalSent results = some (false, chunks)) :
    ∃ e, results[chunks.length]? = some e ∧ e ≤ 0 ∧
      (totalSent : ℤ) + (results.take chunks.length).sum < data.length := by
  induction chunks generalizing totalSent results with
  | nil =>
    rcases sendLoop_eq_nil h with ⟨-, htrue⟩ | ⟨hmore, -, e, rest, rfl, hfail⟩
    · cases htrue
    · exact ⟨e, rfl, hfail, by simpa using hmore⟩
  | cons chunk chunks ih =>
    obtain ⟨sent, rest, rfl, -, hpos, -, hloop⟩ := sendLoop_eq_cons h
    obtain ⟨e, hlast, hfail, hleft⟩ := ih hloop
    refine ⟨e, hlast, hfail, ?_⟩
    rw [List.length_cons, List.take_succ_cons, List.sum_cons]
    omega

theorem sum_range_le {result : ℕ → ℤ} {m n : ℕ} (hle : m ≤ n) (hpos : ∀ i < n, 0 < result i) :
    ((List.range m).map result).sum ≤ ((List.range n).map result).sum := by
  obtain ⟨k, rfl⟩ := Nat.exists_eq_add_of_le hle
  have hrest : 0 ≤ (((List.range k).map (m + ·)).map result).sum := by
    apply List.sum_nonneg
    intro r hr
    obtain ⟨j, hj, rfl⟩ := List.mem_map.mp hr
    obtain ⟨i, hi, rfl⟩ := List.mem_map.mp hj
    have hless := List.mem_range.mp hi
    exact (hpos (m + i) (by omega)).le
  rw [List.range_add, List.map_append, List.sum_append]
  omega

/-- The loop with the numbers of the machine: `total_sent` is an `ssize_t`, like what `::send`
returns. -/
def sendLoop64 (data : List UInt8) (totalSent : Int64) :
    List Int64 → Option (Bool × List (List UInt8))
  | [] => if totalSent < Int64.ofNat data.length then none else some (true, [])
  | sent :: results =>
    if totalSent < Int64.ofNat data.length then
      if sent ≤ 0 then some (false, [])
      else
        (sendLoop64 data (totalSent + sent) results).map fun (ok, chunks) =>
          (ok, (data.drop totalSent.toNatClampNeg).take sent.toNatClampNeg :: chunks)
    else some (true, [])

/-- No call accepts more than the `data.size() - total_sent` bytes, as a `size_t`, that it is
asked for. -/
def Granted (data : List UInt8) : Int64 → List Int64 → Prop
  | _, [] => True
  | totalSent, sent :: results =>
    sent.toInt ≤ (UInt64.ofNat data.length - totalSent.toUInt64).toNat ∧
      (0 < sent → Granted data (totalSent + sent) results)

theorem toNat_requested {size totalSent : ℕ} (hsize : size < 2 ^ 63) (h : totalSent ≤ size) :
    (UInt64.ofNat size - (Int64.ofNat totalSent).toUInt64).toNat = size - totalSent := by
  have hcast : (Int64.ofNat totalSent).toUInt64 = UInt64.ofNat totalSent := rfl
  have hnat {n : ℕ} (hn : n ≤ size) : (UInt64.ofNat n).toNat = n := by
    apply UInt64.toNat_ofNat_of_lt'
    change n < 2 ^ 64
    omega
  have hle : UInt64.ofNat totalSent ≤ UInt64.ofNat size := by
    rwa [UInt64.le_iff_toNat_le, hnat h, hnat (le_refl size)]
  rw [hcast, UInt64.toNat_sub_of_le _ _ hle, hnat h, hnat (le_refl size)]

/-- No vector is longer than `PTRDIFF_MAX`, so none of the machine's numbers wraps. -/
theorem sendLoop64_eq {data : List UInt8} (hsize : data.length < 2 ^ 63) {totalSent : ℕ}
    (htotal : totalSent ≤ data.length) {results : List Int64}
    (h : Granted data (Int64.ofNat totalSent) results) :
    sendLoop64 data (Int64.ofNat totalSent) results =
      sendLoop data totalSent (results.map Int64.toInt) := by
  have hmore {n : ℕ} (hn : n ≤ data.length) :
      Int64.ofNat n < Int64.ofNat data.length ↔ n < data.length := by
    rw [Int64.lt_iff_toInt_lt, Int64.toInt_ofNat_of_lt (by omega), Int64.toInt_ofNat_of_lt hsize]
    omega
  induction results generalizing totalSent with
  | nil =>
    simp only [sendLoop64, List.map_nil, sendLoop, hmore htotal]
  | cons sent results ih =>
    rw [Granted, toNat_requested hsize htotal] at h
    simp only [List.map_cons, sendLoop64, sendLoop, hmore htotal]
    have hfailed : sent ≤ 0 ↔ sent.toInt ≤ 0 := Int64.le_iff_toInt_le
    by_cases hsent : sent.toInt ≤ 0
    · simp only [hfailed, if_pos hsent]
    · have hpos : 0 < sent := by
        rw [Int64.lt_iff_toInt_lt]
        exact Int.not_le.mp hsent
      have hcounter :
          Int64.ofNat totalSent + sent = Int64.ofNat (totalSent + sent.toInt.toNat) := by
        rw [Int64.ofNat_add, Int64.toNat_toInt,
          Int64.ofNat_toNatClampNeg _ (Int64.le_of_lt hpos)]
      have hrest := h.2 hpos
      rw [hcounter] at hrest ⊢
      rw [ih (by omega) hrest, Int64.toNatClampNeg_ofNat_of_lt (by omega)]
      simp only [hfailed, if_neg hsent, Int64.toNat_toInt]

/-- On a connected transport `send` returns after at most one call of `::send` for each byte. What
the calls accepted stands one after the other at the front of the data, and `send` returns true
exactly when that is all of the data. It gives up only at a call that accepts nothing, and not where
the amounts before one add up to the size of the data. -/
theorem send_delivers (s : Impl) (fd : ℕ) (hstatus : s.status = .connected)
    (hsockfd : s.sockfd = some fd) (data : List UInt8) (result : ℕ → ℤ) :
    ∃ calls ≤ data.length, ∃ (ok : Bool) (t : Impl) (chunks : List (List UInt8)),
      s.send data ((List.range calls).map result) = some (ok, t) ∧
      t.wire = s.wire ++ chunks.map (fd, ·) ∧
      (∀ i (hi : i < chunks.length),
        result i ≤ (data.length - (chunks.take i).flatten.length : ℕ) →
        (chunks[i].length : ℤ) = result i) ∧
      chunks.flatten <+: data ∧ (ok = true ↔ chunks.flatten = data) ∧
      (∀ i < chunks.length, 0 < result i) ∧ (ok = false → result chunks.length ≤ 0) ∧
      ∀ n, (∀ i < n, 0 < result i) → ((List.range n).map result).sum = data.length → ok = true := by
  obtain ⟨calls, hcalls, ok, chunks, hloop⟩ := sendLoop_ends data 0 result
  obtain ⟨pending, hsplit, hok⟩ := sendLoop_contract hloop
  rw [List.drop_zero] at hsplit
  have hsend : ∃ t, s.send data ((List.range calls).map result) = some (ok, t) ∧
      t.wire = s.wire ++ chunks.map (fd, ·) := by
    simp only [send, hstatus, hsockfd, hloop, Option.map_some]
    refine ⟨_, rfl, ?_⟩
    split <;> rfl
  obtain ⟨t, hsend, hwire⟩ := hsend
  have hasked {i : ℕ} {sent : ℤ} (h : ((List.range calls).map result)[i]? = some sent) :
      i < calls ∧ sent = result i := by
    obtain ⟨hi, hget⟩ := List.getElem?_eq_some_iff.mp h
    rw [List.getElem_map, List.getElem_range] at hget
    rw [List.length_map, List.length_range] at hi
    exact ⟨hi, hget.symm⟩
  have haccepted : ∀ i < chunks.length, 0 < result i := by
    intro i hi
    obtain ⟨sent, hresult, hpos, -⟩ := sendLoop_chunk hloop hi
    rwa [(hasked hresult).2] at hpos
  refine ⟨calls, by omega, ok, t, chunks, hsend, hwire, ?_, ⟨pending, hsplit.symm⟩, ?_, haccepted,
    ?_, ?_⟩
  · intro i hi hgranted
    obtain ⟨sent, hresult, hpos, hchunk⟩ := sendLoop_chunk hloop hi
    have hsent := (hasked hresult).2
    rw [hchunk, List.length_take, List.length_drop, hsent]
    omega
  · rw [hok, hsplit]
    constructor
    · intro hnil
      rw [hnil, List.append_nil]
    · intro hall
      exact List.append_right_eq_self.mp hall.symm
  · rintro rfl
    obtain ⟨e, hlast, hfail, -⟩ := sendLoop_stops hloop
    rwa [(hasked hlast).2] at hfail
  · intro n hpos hsum
    by_contra hnot
    obtain ⟨e, hlast, hfail, hleft⟩ := sendLoop_stops (Bool.eq_false_iff.mpr hnot ▸ hloop)
    obtain ⟨hcall, rfl⟩ := hasked hlast
    have hn : n ≤ chunks.length := by
      by_contra hmore
      have hgood := hpos chunks.length (by omega)
      omega
    have htaken : ((List.range calls).map result).take chunks.length =
        (List.range chunks.length).map result := by
      rw [← List.map_take, List.take_range, Nat.min_eq_left hcall.le]
    have hle := sum_range_le hn haccepted
    rw [htaken] at hleft
    omega

/-- Five bytes, two at a time. -/
theorem send_delivers_by_two :
    let s := online ⟨"192.168.0.100", 5001⟩
    let data : List UInt8 := [0x02, 0x04, 0x52, 0x56, 0x03]
    let result : ℕ → ℤ := fun i => if i = 2 then 1 else 2
    ∃ calls ≤ data.length, ∃ (ok : Bool) (t : Impl) (chunks : List (List UInt8)),
      s.send data ((List.range calls).map result) = some (ok, t) ∧
      t.wire = s.wire ++ chunks.map (0, ·) ∧
      (∀ i (hi : i < chunks.length),
        result i ≤ (data.length - (chunks.take i).flatten.length : ℕ) →
        (chunks[i].length : ℤ) = result i) ∧
      chunks.flatten <+: data ∧ (ok = true ↔ chunks.flatten = data) ∧
      (∀ i < chunks.length, 0 < result i) ∧ (ok = false → result chunks.length ≤ 0) ∧
      ∀ n, (∀ i < n, 0 < result i) → ((List.range n).map result).sum = data.length → ok = true :=
  send_delivers (online ⟨"192.168.0.100", 5001⟩) 0 rfl rfl [0x02, 0x04, 0x52, 0x56, 0x03]
    fun i => if i = 2 then 1 else 2

end Impl

end Spectrum.Transport.Network
