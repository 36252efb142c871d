import Spectrum.Protocols.McbKeyboard
import Mathlib.Algebra.BigOperators.Group.List.Basic

/-! The checksum as a sum of integers, and what it tells apart. -/
namespace Spectrum.Protocols.MCBProtocol
open Utils

/-- The 32-bit accumulator holds the exact sum modulo `2 ^ 32`. -/
theorem accumulator_toNat (sum : UInt32) (payload : List UInt8) :
    (payload.foldl (fun sum b => sum + b.toUInt32) sum).toNat =
      (sum.toNat + (payload.map UInt8.toNat).sum) % 2 ^ 32 := by
  induction payload generalizing sum with
  | nil => simp
  | cons b payload ih =>
    rw [List.foldl_cons, ih, UInt32.toNat_add, UInt8.toNat_toUInt32, List.map_cons, List.sum_cons,
      Nat.mod_add_mod, Nat.add_assoc]

theorem calculateChecksum_toNat (cmd : MCBCommand) (payload : List UInt8) :
    (calculateChecksum cmd payload).toNat =
      (cmd.value.toNat + (payload.map UInt8.toNat).sum) % 256 := by
  have hmask (n : ℕ) : n &&& 255 = n % 256 := Nat.and_two_pow_sub_one_eq_mod n 8
  unfold calculateChecksum
  rw [UInt32.toNat_toUInt8, UInt32.toNat_and, accumulator_toNat, UInt8.toNat_toUInt32]
  rw [show (0xFF : UInt32).toNat = 255 from rfl, hmask]
  omega

theorem calculateChecksum_eq_ofNat (cmd : MCBCommand) (payload : List UInt8) :
    calculateChecksum cmd payload =
      UInt8.ofNat (cmd.value.toNat + (payload.map UInt8.toNat).sum) := by
  apply UInt8.toNat_inj.mp
  rw [calculateChecksum_toNat, UInt8.toNat_ofNat']

theorem calculateChecksum_eq_iff {c d : MCBCommand} {u v : List UInt8} :
    calculateChecksum c u = calculateChecksum d v ↔
      (c.value.toNat + (u.map UInt8.toNat).sum) % 256 =
        (d.value.toNat + (v.map UInt8.toNat).sum) % 256 := by
  rw [← UInt8.toNat_inj, calculateChecksum_toNat, calculateChecksum_toNat]

theorem calculateChecksum_inj {c d : MCBCommand} {payload : List UInt8} :
    calculateChecksum c payload = calculateChecksum d payload ↔ c = d := by
  constructor
  · intro h
    have hn := calculateChecksum_eq_iff.mp h
    have hc := c.value.toNat_lt
    have hd := d.value.toNat_lt
    have hv : c.value = d.value := UInt8.toNat_inj.mp (by omega)
    cases c
    cases d
    exact congrArg _ hv
  · intro h
    rw [h]

/-- The accumulator may wrap as often as it likes: the checksum is the sum of the integers modulo
256. So the order of the payload does not matter, and a longer payload adds what it adds. -/
theorem calculateChecksum_exact (cmd : MCBCommand) (p : List UInt8) :
    (calculateChecksum cmd p).toNat = (cmd.value.toNat + (p.map UInt8.toNat).sum) % 256 ∧
      (∀ q, p.Perm q → calculateChecksum cmd p = calculateChecksum cmd q) ∧
      ∀ q, (calculateChecksum cmd (p ++ q)).toNat =
        ((calculateChecksum cmd p).toNat + (q.map UInt8.toNat).sum) % 256 := by
  refine ⟨calculateChecksum_toNat cmd p, ?_, ?_⟩
  · intro q hpq
    have hsum : (p.map UInt8.toNat).sum = (q.map UInt8.toNat).sum := (hpq.map _).sum_eq
    rw [calculateChecksum_eq_iff, hsum]
  · intro q
    rw [calculateChecksum_toNat, calculateChecksum_toNat, List.map_append, List.sum_append]
    omega

theorem calculateChecksum_exact_reverse :
    calculateChecksum ⟨0x51⟩ [0xFF, 0x02] = calculateChecksum ⟨0x51⟩ [0x02, 0xFF] :=
  (calculateChecksum_exact ⟨0x51⟩ [0xFF, 0x02]).2.1 _ (.swap 0x02 0xFF [])

end Spectrum.Protocols.MCBProtocol
