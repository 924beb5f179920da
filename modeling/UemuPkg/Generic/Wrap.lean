/-
  UemuPkg.Generic.Wrap

  The order and the quotient of two numbers that are known up to multiples of a word size
  `w`.  A quotient is read through a window of plausible values, which gives 0 outside.
-/

import Mathlib.Data.Nat.Notation
import Mathlib.Tactic.Ring

namespace Wrap

variable {w a b lo hi : ℕ}

/-- The order of the residues: what each number has lost is added to the other one. -/
theorem mod_lt_mod_iff : a % w < b % w ↔ a + b / w * w < b + a / w * w := by
  have ha : a % w + a / w * w = a := Nat.mod_add_div' a w
  have hb : b % w + b / w * w = b := Nat.mod_add_div' b w
  omega

/-- The number itself inside a window, and 0 outside. -/
def window (lo hi n : ℕ) : ℕ := if lo ≤ n ∧ n ≤ hi then n else 0

theorem window_eq_self (hlo : lo ≤ a) (hhi : a ≤ hi) : window lo hi a = a := if_pos ⟨hlo, hhi⟩

theorem window_eq_zero (h : a < lo) : window lo hi a = 0 := by
  apply if_neg
  omega

/-- Two numbers look alike from below the upper end only if they are equal or both too
    small. -/
theorem window_eq_window_iff (hlo : 0 < lo) (hle : a ≤ b) (hhi : b ≤ hi) :
    window lo hi a = window lo hi b ↔ a = b ∨ b < lo := by
  constructor
  · intro h
    by_cases hb : b < lo
    · exact .inr hb
    · rw [window_eq_self (Nat.le_of_not_lt hb) hhi, window] at h
      split at h
      · exact .inl h
      · omega
  · rintro (rfl | hb)
    · rfl
    · rw [window_eq_zero (Nat.lt_of_le_of_lt hle hb), window_eq_zero hb]

/-- A dividend that has wrapped has lost more than the divisor. -/
theorem mod_div_lt (ha : w ≤ a) (hb : b < w) (hb0 : 0 < b) : a % w / b < a / b := by
  have hw : 0 < w := Nat.lt_of_le_of_lt (Nat.zero_le b) hb
  have hwrap : 1 * w ≤ a / w * w := Nat.mul_le_mul_right w (Nat.div_pos ha hw)
  have hmod : a % w + a / w * w = a := Nat.mod_add_div' a w
  have hless : a % w + b ≤ a := by omega
  calc
    a % w / b < a % w / b + 1 := Nat.lt_succ_self _
    _ = (a % w + b) / b := (Nat.add_div_right _ hb0).symm
    _ ≤ a / b := Nat.div_le_div_right hless

/-- Under a divisor that has not wrapped, the quotient of a plausible size is kept exactly if
    the dividend has not wrapped either. -/
theorem window_mod_div_mod_eq_iff (hlo : 0 < lo) (hb : b < w) (hb0 : 0 < b) (hhi : a / b ≤ hi) :
    window lo hi (a % w / (b % w)) = window lo hi (a / b) ↔ a < w ∨ a / b < lo := by
  have hle : a % w / b ≤ a / b := Nat.div_le_div_right (Nat.mod_le a w)
  rw [Nat.mod_eq_of_lt hb, window_eq_window_iff hlo hle hhi]
  refine or_congr_left ?_
  constructor
  · intro h
    by_contra hwraps
    exact absurd h (mod_div_lt (Nat.le_of_not_lt hwraps) hb hb0).ne
  · intro ha
    rw [Nat.mod_eq_of_lt ha]

end Wrap
