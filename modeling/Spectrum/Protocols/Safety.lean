import Spectrum.Foundation.Checked
import Spectrum.Protocols.Layout

/-! The accesses of the parser. `parseFrameChecked` is the parser with every access and the
subtraction `length - 1` checked; it never faults and computes what the parser computes. -/
namespace Spectrum.Protocols.MCBProtocol
open Foundation Utils

namespace Impl

/-- `data.insert(…)`, skipped when `dataSize` is 0. -/
def copyData (buffer : List UInt8) (dataSize : ℕ) : Except Fault (List UInt8) :=
  if dataSize ≠ 0 then slice buffer 3 (3 + dataSize) else .ok []

/-- `parseFrame` again, with checked accesses in the order of the source. -/
def parseFrameChecked (buffer : List UInt8) : Except Fault (Option MCBFrame) :=
  -- `||` stops at the first operand that holds
  if buffer.length < mcbMinFrameSize then .ok none
  else do
    let first ← front buffer
    if first ≠ stx then .ok none
    else do
      let last ← back buffer
      if last ≠ etx then .ok none
      else do
        let length ← readAt buffer 1
        let expected := length.toNat + 4
        if buffer.length ≠ expected then .ok none
        else do
          let cmdByte ← readAt buffer 2
          let cmd := toMCBCommand cmdByte
          let dataSize ← minus length.toNat 1
          let data ← copyData buffer dataSize
          let recvChk ← readAt buffer (3 + dataSize)
          let calcChk := calculateChecksum cmd data
          if recvChk ≠ calcChk then .ok none else .ok (some ⟨cmd, data⟩)

end Impl

/-- The size tests leave no room for a length byte of 0, and bound the data. -/
theorem dataSize_bounds {buffer : List UInt8} {length : UInt8}
    (hmin : ¬ buffer.length < mcbMinFrameSize) (hlen : buffer.length = length.toNat + 4) :
    1 ≤ length.toNat ∧ toSizeT ((length.toNat : ℤ) - 1) = length.toNat - 1 ∧
      3 + (length.toNat - 1) < buffer.length := by
  unfold mcbMinFrameSize at hmin
  have hlt := length.toNat_lt
  unfold toSizeT
  omega

theorem copyData_eq {buffer : List UInt8} {n : ℕ} (hn : 3 + n < buffer.length) :
    Impl.copyData buffer n = .ok (if n ≠ 0 then (buffer.drop 3).take n else []) := by
  unfold Impl.copyData
  by_cases hzero : n ≠ 0
  · rw [if_pos hzero, if_pos hzero, slice_of_le hn.le]
  · rw [if_neg hzero, if_neg hzero]

/-- No buffer makes the parser read outside of it or count below zero. -/
theorem parseFrameChecked_eq (buffer : List UInt8) :
    Impl.parseFrameChecked buffer = .ok (Impl.parseFrame buffer) := by
  unfold Impl.parseFrameChecked
  by_cases hmin : buffer.length < mcbMinFrameSize
  · simp [hmin, Impl.parseFrame]
  · have hsize : 5 ≤ buffer.length := not_lt.mp hmin
    have hne : buffer ≠ [] := List.ne_nil_of_length_pos (by omega)
    obtain ⟨first, hfirst⟩ := Option.ne_none_iff_exists'.mp (mt List.head?_eq_none_iff.mp hne)
    obtain ⟨last, hlast⟩ := Option.ne_none_iff_exists'.mp (mt List.getLast?_eq_none_iff.mp hne)
    rw [if_neg hmin, bind_of_ok (front_eq_ok.mpr hfirst)]
    by_cases hstx : first = stx
    · rw [if_neg (not_not.mpr hstx), bind_of_ok (back_eq_ok.mpr hlast)]
      by_cases hetx : last = etx
      · have hguard : ¬ (buffer.length < mcbMinFrameSize ∨ buffer.head? ≠ some stx ∨
            buffer.getLast? ≠ some etx) := by
          simp [hmin, hfirst, hlast, hstx, hetx]
        have hone : 1 < buffer.length := by omega
        have htwo : 2 < buffer.length := by omega
        unfold Impl.parseFrame
        rw [if_neg (not_not.mpr hetx), if_neg hguard, bind_of_ok (readAt_of_lt hone 0)]
        by_cases hlen : buffer.length = (buffer.getD 1 0).toNat + 4
        · obtain ⟨hpos, hdata, hbound⟩ := dataSize_bounds hmin hlen
          simp only [← hlen, ne_eq, not_true_eq_false, if_false]
          rw [bind_of_ok (readAt_of_lt htwo 0), bind_of_ok (minus_of_le hpos),
            bind_of_ok (copyData_eq hbound), bind_of_ok (readAt_of_lt hbound 0), hdata]
          exact (apply_ite Except.ok _ _ _).symm
        · simp only [hlen, ne_eq, not_false_eq_true, if_true]
      · simp [hetx, hlast, Impl.parseFrame]
    · simp [hstx, hfirst, Impl.parseFrame]

end Spectrum.Protocols.MCBProtocol
