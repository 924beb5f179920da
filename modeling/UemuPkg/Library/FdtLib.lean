/-
  UemuPkg.Library.FdtLib

  The device-tree blob as the firmware sees it: the answers of FdtLib, which is
  not part of the package, on one blob.  A negative answer is a libfdt error.
-/

import UemuPkg.Base
import UemuPkg.Generic.Bytes
import UemuPkg.Generic.Cursor

namespace UemuPkg

/-- A property value.  FdtLib reports its length as an `INT32`. -/
structure FdtProp where
  bytes : List UINT8
  length_lt : bytes.length < 2 ^ 31

/-- FdtLib's answers on one blob. -/
structure Fdt where
  /-- `FdtParentOffset` -/
  parentOffset : Int → Int
  /-- `FdtAddressCells` -/
  addressCells : Int → Int
  /-- `FdtSizeCells` -/
  sizeCells : Int → Int
  /-- `FdtGetProp`; `none` is the NULL result. -/
  getProp : Int → String → Option FdtProp
  /-- `FdtNextNode` -/
  nextNode : Int → Int
  /-- `FdtSubnodeOffset` -/
  subnodeOffset : Int → String → Int
  /-- `FdtFirstSubnode`, the start of `FdtForEachSubnode` -/
  firstSubnode : Int → Int
  /-- `FdtNextSubnode`, the step of `FdtForEachSubnode` -/
  nextSubnode : Int → Int
  /-- `FdtGetNumberOfReserveMapEntries` -/
  numberOfReserveMapEntries : Int
  /-- `FdtGetReserveMapEntry`; `none` is a nonzero result. -/
  reserveMapEntry : Nat → Option (UINT64 × UINT64)

/-- `FDT_ERR_NOTFOUND`; FdtLib returns it negated. -/
def FDT_ERR_NOTFOUND : Int := 1

/-- A blob with FdtLib's check of its header and its search for compatible nodes. -/
structure FdtBlob extends Fdt where
  /-- `FdtCheckHeader` -/
  checkHeader : Int
  /-- `FdtNodeOffsetByCompatible` -/
  nodeOffsetByCompatible : Int → String → Int

/-- The search for the nodes compatible with `compatible`, from one to the next. -/
def FdtBlob.nextCompatible (fdt : FdtBlob) (compatible : String) (node : Int) : Int :=
  fdt.nodeOffsetByCompatible node compatible

/-- `Fdt32ToCpu (Cells[k])` for the cells stored in a property. -/
def FdtProp.cell (prop : FdtProp) (k : Nat) : UINT32 :=
  ByteString.beCell (prop.bytes.getD (4 * k) 0) (prop.bytes.getD (4 * k + 1) 0)
    (prop.bytes.getD (4 * k + 2) 0) (prop.bytes.getD (4 * k + 3) 0)

/-- The big-endian integer in `count` cells from cell `first` on. -/
def FdtProp.cellsNat (prop : FdtProp) (first count : Nat) : Nat :=
  ByteString.beNat ((prop.bytes.drop (4 * first)).take (4 * count))

@[simp] theorem FdtProp.cellsNat_zero (prop : FdtProp) (first : Nat) :
    prop.cellsNat first 0 = 0 := by
  simp [FdtProp.cellsNat]

theorem FdtProp.cellsNat_lt (prop : FdtProp) (first count : Nat) :
    prop.cellsNat first count < 2 ^ (32 * count) := by
  have hlen : ((prop.bytes.drop (4 * first)).take (4 * count)).length ≤ 4 * count :=
    List.length_take_le _ _
  calc prop.cellsNat first count
      < 256 ^ ((prop.bytes.drop (4 * first)).take (4 * count)).length := ByteString.beNat_lt _
    _ ≤ 256 ^ (4 * count) := Nat.pow_le_pow_right (by decide) hlen
    _ = 2 ^ (32 * count) := by
      rw [show (256 : Nat) = 2 ^ 8 from rfl, ← Nat.pow_mul,
        show 8 * (4 * count) = 32 * count from by omega]

/-- Cells inside the property compose most significant first. -/
theorem FdtProp.cellsNat_succ (prop : FdtProp) (first count : Nat)
    (hin : 4 * (first + count + 1) ≤ prop.bytes.length) :
    prop.cellsNat first (count + 1)
      = (prop.cell first).toNat * 2 ^ (32 * count) + prop.cellsNat (first + 1) count := by
  obtain ⟨b0, b1, b2, b3, rest, hdrop⟩ : ∃ b0 b1 b2 b3 rest,
      prop.bytes.drop (4 * first) = b0 :: b1 :: b2 :: b3 :: rest := by
    have hlen : 4 ≤ (prop.bytes.drop (4 * first)).length := by
      rw [List.length_drop]; omega
    match h : prop.bytes.drop (4 * first) with
    | b0 :: b1 :: b2 :: b3 :: rest => exact ⟨b0, b1, b2, b3, rest, rfl⟩
    | [] | [_] | [_, _] | [_, _, _] => rw [h] at hlen; simp at hlen
  have hget : ∀ j, prop.bytes.getD (4 * first + j) 0
      = (b0 :: b1 :: b2 :: b3 :: rest).getD j 0 := by
    intro j
    rw [← hdrop, List.getD_eq_getElem?_getD, List.getD_eq_getElem?_getD, List.getElem?_drop]
  have hrest : prop.bytes.drop (4 * (first + 1)) = rest := by
    rw [show 4 * (first + 1) = 4 * first + 4 from by omega, ← List.drop_drop, hdrop]
    rfl
  have hcell : prop.cell first = ByteString.beCell b0 b1 b2 b3 := by
    have h0 := hget 0
    simp only [FdtProp.cell, hget, Nat.add_zero] at h0 ⊢
    rw [h0]
    rfl
  have htake : (b0 :: b1 :: b2 :: b3 :: rest).take (4 * (count + 1))
      = [b0, b1, b2, b3] ++ rest.take (4 * count) := by
    rw [show 4 * (count + 1) = 4 * count + 4 from by omega]
    rfl
  have hlen : (rest.take (4 * count)).length = 4 * count := by
    rw [List.length_take, ← hrest, List.length_drop]
    omega
  rw [FdtProp.cellsNat, hdrop, htake, ByteString.beNat_append, hlen, hcell,
    ByteString.beCell_toNat, FdtProp.cellsNat, hrest,
    show (256 : Nat) = 2 ^ 8 from rfl, ← Nat.pow_mul,
    show 8 * (4 * count) = 32 * count from by omega]

end UemuPkg
