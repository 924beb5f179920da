/-
  UemuPkg.Generic.Bytes

  Byte strings as numbers.  `beNat` reads a byte list big-endian, `leByte`
  takes one byte out of a word little-endian, and `beCell` and `leCell` assemble a
  32-bit word from four bytes in either order.
-/

import Mathlib.Algebra.Order.Ring.Nat
import Mathlib.Tactic.Ring

namespace ByteString

/-- Big-endian value of a byte list: the first byte is most significant. -/
def beNat : List (BitVec 8) → Nat
  | [] => 0
  | b :: bs => b.toNat * 256 ^ bs.length + beNat bs

@[simp] theorem beNat_nil : beNat [] = 0 := rfl

@[simp] theorem beNat_cons (b : BitVec 8) (bs : List (BitVec 8)) :
    beNat (b :: bs) = b.toNat * 256 ^ bs.length + beNat bs := rfl

theorem beNat_append (xs ys : List (BitVec 8)) :
    beNat (xs ++ ys) = beNat xs * 256 ^ ys.length + beNat ys := by
  induction xs with
  | nil => simp
  | cons x xs ih =>
      simp only [List.cons_append, beNat_cons, List.length_append, ih, Nat.pow_add]
      ring

theorem beNat_lt (bs : List (BitVec 8)) : beNat bs < 256 ^ bs.length := by
  induction bs with
  | nil => decide
  | cons b bs ih =>
      have hb := b.isLt
      rw [beNat_cons, List.length_cons, Nat.pow_succ]
      have hmul : b.toNat * 256 ^ bs.length ≤ 255 * 256 ^ bs.length :=
        Nat.mul_le_mul_right _ (Nat.le_of_lt_succ hb)
      omega

/-- Four bytes as one big-endian 32-bit cell. -/
def beCell (b0 b1 b2 b3 : BitVec 8) : BitVec 32 := b0 ++ b1 ++ b2 ++ b3

/-- Appending a byte below a word shifts the word up by eight bits. -/
theorem append_byte_toNat {n : Nat} (hi : BitVec n) (lo : BitVec 8) :
    (hi ++ lo).toNat = hi.toNat * 256 + lo.toNat := by
  rw [BitVec.toNat_append, ← Nat.shiftLeft_add_eq_or_of_lt lo.isLt, Nat.shiftLeft_eq]

theorem append_byte_inj {n : Nat} {hi hi' : BitVec n} {lo lo' : BitVec 8} :
    hi ++ lo = hi' ++ lo' ↔ hi = hi' ∧ lo = lo' := by
  refine ⟨?_, fun ⟨hhi, hlo⟩ => by rw [hhi, hlo]⟩
  intro h
  have hnat := congrArg BitVec.toNat h
  rw [append_byte_toNat, append_byte_toNat] at hnat
  have hlt := lo.isLt
  have hlt' := lo'.isLt
  refine ⟨BitVec.eq_of_toNat_eq ?_, BitVec.eq_of_toNat_eq ?_⟩
  · omega
  · omega

theorem beCell_toNat (b0 b1 b2 b3 : BitVec 8) :
    (beCell b0 b1 b2 b3).toNat = beNat [b0, b1, b2, b3] := by
  simp only [beCell, append_byte_toNat, beNat_cons, beNat_nil, List.length_cons,
    List.length_nil]
  ring

/-- Byte `i` of a 32-bit word in little-endian order. -/
def leByte (w : BitVec 32) (i : Nat) : BitVec 8 := (w >>> (8 * i)).setWidth 8

/-- Four bytes as one little-endian 32-bit word. -/
def leCell (b0 b1 b2 b3 : BitVec 8) : BitVec 32 := b3 ++ b2 ++ b1 ++ b0

theorem leByte_toNat (w : BitVec 32) (i : Nat) :
    (leByte w i).toNat = w.toNat / 2 ^ (8 * i) % 256 := by
  rw [leByte, BitVec.toNat_setWidth, BitVec.toNat_ushiftRight, Nat.shiftRight_eq_div_pow]

theorem leCell_toNat (b0 b1 b2 b3 : BitVec 8) :
    (leCell b0 b1 b2 b3).toNat
      = ((b3.toNat * 256 + b2.toNat) * 256 + b1.toNat) * 256 + b0.toNat := by
  simp only [leCell, append_byte_toNat]

/-- Taking a little-endian word apart gives back its bytes. -/
theorem leByte_leCell (b0 b1 b2 b3 : BitVec 8) :
    leByte (leCell b0 b1 b2 b3) 0 = b0 ∧ leByte (leCell b0 b1 b2 b3) 1 = b1 ∧
      leByte (leCell b0 b1 b2 b3) 2 = b2 ∧ leByte (leCell b0 b1 b2 b3) 3 = b3 := by
  have h0 := b0.isLt
  have h1 := b1.isLt
  have h2 := b2.isLt
  have h3 := b3.isLt
  refine ⟨?_, ?_, ?_, ?_⟩
  · apply BitVec.eq_of_toNat_eq
    rw [leByte_toNat, leCell_toNat]
    omega
  · apply BitVec.eq_of_toNat_eq
    rw [leByte_toNat, leCell_toNat]
    omega
  · apply BitVec.eq_of_toNat_eq
    rw [leByte_toNat, leCell_toNat]
    omega
  · apply BitVec.eq_of_toNat_eq
    rw [leByte_toNat, leCell_toNat]
    omega

/-- A word is the big-endian reading of its bytes, the high one first. -/
theorem beCell_leByte (w : BitVec 32) :
    beCell (leByte w 3) (leByte w 2) (leByte w 1) (leByte w 0) = w := by
  have hw := w.isLt
  apply BitVec.eq_of_toNat_eq
  simp only [beCell, append_byte_toNat, leByte_toNat]
  omega

end ByteString
