/-
  UemuPkg.Generic.Raster

  Pixels of `k` bytes in rows of `stride` bytes.  A row may be longer than its pixels;
  if none is shorter, the pixels lie inside the raster and do not overlap.
-/

import Mathlib.Data.Nat.Notation

namespace Raster

/-- The offset of the pixel in column `x` of row `y`. -/
def offset (k stride x y : Nat) : Nat := stride * y + k * x

variable {k stride width height x y x' y' : Nat}

/-- A pixel ends where its row ends, or before. -/
theorem offset_add_le_row (hrow : k * width ≤ stride) (hx : x < width) :
    offset k stride x y + k ≤ stride * (y + 1) := by
  have hpixel : k * (x + 1) ≤ k * width := Nat.mul_le_mul_left k hx
  rw [Nat.mul_succ] at hpixel
  rw [offset, Nat.mul_succ]
  omega

/-- The pixels lie inside the rows. -/
theorem offset_add_le (hrow : k * width ≤ stride) (hx : x < width) (hy : y < height) :
    offset k stride x y + k ≤ stride * height :=
  Nat.le_trans (offset_add_le_row hrow hx) (Nat.mul_le_mul_left stride hy)

/-- A pixel in an earlier row is before one in a later row. -/
theorem offset_add_le_of_row_lt (hrow : k * width ≤ stride) (hx : x < width) (hy : y < y') :
    offset k stride x y + k ≤ offset k stride x' y' := by
  have hrows : stride * (y + 1) ≤ stride * y' := Nat.mul_le_mul_left stride hy
  have hpixel := offset_add_le_row (y := y) hrow hx
  rw [offset] at hpixel ⊢
  rw [offset]
  omega

/-- So is one in an earlier column of the same row. -/
theorem offset_add_le_of_column_lt (hx : x < x') : offset k stride x y + k ≤ offset k stride x' y := by
  have hpixel : k * (x + 1) ≤ k * x' := Nat.mul_le_mul_left k hx
  rw [Nat.mul_succ] at hpixel
  rw [offset, offset]
  omega

/-- Distinct pixels do not overlap. -/
theorem disjoint_of_ne (hrow : k * width ≤ stride) (hx : x < width) (hx' : x' < width)
    (hne : (x, y) ≠ (x', y')) :
    offset k stride x y + k ≤ offset k stride x' y' ∨
      offset k stride x' y' + k ≤ offset k stride x y := by
  rcases Nat.lt_trichotomy y y' with hlt | rfl | hgt
  · exact .inl (offset_add_le_of_row_lt hrow hx hlt)
  · rcases Nat.lt_trichotomy x x' with hlt | rfl | hgt
    · exact .inl (offset_add_le_of_column_lt hlt)
    · exact absurd rfl hne
    · exact .inr (offset_add_le_of_column_lt hgt)
  · exact .inr (offset_add_le_of_row_lt hrow hx' hgt)

end Raster
