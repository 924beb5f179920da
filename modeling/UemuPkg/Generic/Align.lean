/-
  UemuPkg.Generic.Align

  Rounding machine words to powers of two with masks.  Clearing the low `k` bits
  rounds down; adding the low `k` bits of `2 ^ k - x` rounds up.
-/

import Mathlib.Algebra.Group.Nat.Defs
import Mathlib.Data.Nat.Notation

namespace Align

variable {w k : Nat}

/-- The mask of the low `k` bits. -/
def lowMask (w k : Nat) : BitVec w := BitVec.ofNat w (2 ^ k - 1)

theorem toNat_lowMask (hk : k ≤ w) : (lowMask w k).toNat = 2 ^ k - 1 := by
  have hle : 2 ^ k ≤ 2 ^ w := Nat.pow_le_pow_right (by decide) hk
  have hpos : 0 < 2 ^ k := Nat.two_pow_pos k
  rw [lowMask, BitVec.toNat_ofNat]
  exact Nat.mod_eq_of_lt (by omega)

theorem toNat_and_lowMask (x : BitVec w) (hk : k ≤ w) :
    (x &&& lowMask w k).toNat = x.toNat % 2 ^ k := by
  rw [BitVec.toNat_and, toNat_lowMask hk, Nat.and_two_pow_sub_one_eq_mod]

/-- A word is its low bits and the others. -/
theorem toNat_partition (x mask : BitVec w) :
    (x &&& mask).toNat + (x &&& ~~~mask).toNat = x.toNat := by
  have hdisjoint : (x &&& mask) &&& (x &&& ~~~mask) = 0#w := by
    apply BitVec.eq_of_getLsbD_eq
    intro i hi
    simp only [BitVec.getLsbD_and, BitVec.getLsbD_not, BitVec.getLsbD_zero]
    cases mask.getLsbD i <;> simp
  have hjoin : (x &&& mask) ||| (x &&& ~~~mask) = x := by
    apply BitVec.eq_of_getLsbD_eq
    intro i hi
    simp only [BitVec.getLsbD_or, BitVec.getLsbD_and, BitVec.getLsbD_not]
    cases mask.getLsbD i <;> simp [hi]
  rw [← BitVec.toNat_add_of_and_eq_zero hdisjoint, BitVec.add_eq_or_of_and_eq_zero _ _ hdisjoint,
    hjoin]

/-- Rounding down. -/
theorem toNat_and_not_lowMask (x : BitVec w) (hk : k ≤ w) :
    (x &&& ~~~lowMask w k).toNat = x.toNat - x.toNat % 2 ^ k := by
  have hparts := toNat_partition x (lowMask w k)
  rw [toNat_and_lowMask x hk] at hparts
  omega

/-- What is added to round up. -/
def padding (x : BitVec w) (k : Nat) : BitVec w := (BitVec.ofNat w (2 ^ k) - x) &&& lowMask w k

theorem toNat_padding_lt (x : BitVec w) (hk : k ≤ w) : (padding x k).toNat < 2 ^ k := by
  rw [padding, toNat_and_lowMask _ hk]
  exact Nat.mod_lt _ (Nat.two_pow_pos k)

theorem dvd_toNat_add_padding (x : BitVec w) (hk : k ≤ w) :
    2 ^ k ∣ x.toNat + (padding x k).toNat := by
  have hdvd : 2 ^ k ∣ 2 ^ w := Nat.pow_dvd_pow 2 hk
  have hlt := x.isLt
  have hsum : 2 ^ k ∣ x.toNat + (2 ^ w - x.toNat + 2 ^ k % 2 ^ w) := by
    have heq : x.toNat + (2 ^ w - x.toNat + 2 ^ k % 2 ^ w) = 2 ^ w + 2 ^ k % 2 ^ w := by omega
    rw [heq]
    exact (Nat.dvd_add_right hdvd).mpr ((Nat.dvd_mod_iff hdvd).mpr (Nat.dvd_refl _))
  rw [padding, toNat_and_lowMask _ hk, BitVec.toNat_sub, BitVec.toNat_ofNat,
    Nat.mod_mod_of_dvd _ hdvd]
  rw [Nat.dvd_iff_mod_eq_zero, Nat.add_mod_mod, ← Nat.dvd_iff_mod_eq_zero]
  exact hsum

end Align
