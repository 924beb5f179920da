/-
  UemuPkg.Library.UemuFdtLib.GetReg

  What `UemuFdtGetReg` accepts.  `decodeCells` reads a big-endian integer and
  refuses exactly those that need more than 64 bits; on a node with usable cell
  counts the rest of the function is plain arithmetic on the property length.
-/

import Mathlib.Tactic.NormNum
import UemuPkg.Library.UemuFdtLib.Model

namespace UemuPkg

-- ============================================================================
-- DecodeCells
-- ============================================================================

/-- Pushing a cell below a value that still has 32 free bits. -/
theorem shiftIn_toNat (r : UINT64) (c : UINT32) (hr : r.toNat < 2 ^ 32) :
    ((r <<< 32) ||| c.setWidth 64).toNat = r.toNat * 2 ^ 32 + c.toNat := by
  have hc := c.isLt
  have hshift : (r <<< 32).toNat = r.toNat <<< 32 := by
    rw [BitVec.toNat_shiftLeft, Nat.shiftLeft_eq]
    exact Nat.mod_eq_of_lt (by omega)
  have hwide : (c.setWidth 64).toNat = c.toNat := by
    rw [BitVec.toNat_setWidth]
    exact Nat.mod_eq_of_lt (by omega)
  rw [BitVec.toNat_or, hshift, hwide, ← Nat.shiftLeft_add_eq_or_of_lt hc, Nat.shiftLeft_eq]

/-- The cell loop reads the big-endian integer, or finds that it needs more than
    64 bits. -/
theorem decodeCellsLoop_eq (reg : FdtProp) (k n : Nat) (r : UINT64)
    (hin : 4 * (k + n) ≤ reg.bytes.length) :
    decodeCellsLoop reg k n r
      = if r.toNat * 2 ^ (32 * n) + reg.cellsNat k n < 2 ^ 64
        then .ok (BitVec.ofNat 64 (r.toNat * 2 ^ (32 * n) + reg.cellsNat k n))
        else .error .badBufferSize := by
  induction n generalizing k r with
  | zero =>
      have hr := r.isLt
      simp [decodeCellsLoop, hr]
  | succ n ih =>
      have hpow : (2 : Nat) ^ (32 * (n + 1)) = 2 ^ 32 * 2 ^ (32 * n) := by
        rw [← Nat.pow_add]
        congr 1
        omega
      rw [decodeCellsLoop]
      by_cases hbig : r > MAX_UINT64 >>> 32
      · have hr : 2 ^ 32 ≤ r.toNat := by
          have := BitVec.lt_def.mp hbig
          simp only [MAX_UINT64] at this
          exact this
        have hone : 1 ≤ 2 ^ (32 * n) := Nat.one_le_two_pow
        have hover : 2 ^ 64 ≤ r.toNat * 2 ^ (32 * (n + 1)) := by
          calc 2 ^ 64 = 2 ^ 32 * (2 ^ 32 * 1) := by norm_num
            _ ≤ r.toNat * (2 ^ 32 * 2 ^ (32 * n)) :=
                Nat.mul_le_mul hr (Nat.mul_le_mul_left _ hone)
            _ = r.toNat * 2 ^ (32 * (n + 1)) := by rw [hpow]
        rw [if_pos hbig, if_neg (by omega)]
      · have hr : r.toNat < 2 ^ 32 := by
          have := fun h => hbig (BitVec.lt_def.mpr h)
          simp only [MAX_UINT64] at this
          exact Nat.lt_succ_of_le (Nat.le_of_not_lt this)
        have hvalue : (r.toNat * 2 ^ 32 + (reg.cell k).toNat) * 2 ^ (32 * n)
              + reg.cellsNat (k + 1) n
            = r.toNat * 2 ^ (32 * (n + 1)) + reg.cellsNat k (n + 1) := by
          rw [reg.cellsNat_succ k n (by omega), hpow]
          ring
        rw [if_neg hbig, ih (k + 1) _ (by omega), shiftIn_toNat r _ hr, hvalue]

/-- `DecodeCells` on 1 to `FDT_MAX_NCELLS` cells. -/
theorem decodeCells_eq (reg : FdtProp) (cells : Nat) (count : UINTN)
    (hpos : 0 < count.toNat) (hmax : count.toNat ≤ FDT_MAX_NCELLS)
    (hin : 4 * (cells + count.toNat) ≤ reg.bytes.length) :
    decodeCells reg cells count
      = if reg.cellsNat cells count.toNat < 2 ^ 64
        then .ok (BitVec.ofNat 64 (reg.cellsNat cells count.toNat))
        else .error .badBufferSize := by
  have hcount : ¬ (count = 0 ∨ count > BitVec.ofNat 64 FDT_MAX_NCELLS) := by
    rintro (h | h)
    · rw [h] at hpos
      exact absurd hpos (by decide)
    · have := BitVec.lt_def.mp h
      simp only [FDT_MAX_NCELLS] at this hmax
      exact absurd hmax (Nat.not_le_of_lt this)
  rw [decodeCells, if_neg hcount, decodeCellsLoop_eq reg cells count.toNat 0 hin]
  simp

-- ============================================================================
-- UemuFdtGetReg
-- ============================================================================

/-- Address cells and size cells per tuple of the node's `reg`. -/
def Fdt.regAddressCells (fdt : Fdt) (node : Int) : Nat :=
  (fdt.addressCells (fdt.parentOffset node)).toNat

def Fdt.regSizeCells (fdt : Fdt) (node : Int) : Nat :=
  (fdt.sizeCells (fdt.parentOffset node)).toNat

/-- Bytes per tuple. -/
def Fdt.regTupleSize (fdt : Fdt) (node : Int) : Nat :=
  4 * (fdt.regAddressCells node + fdt.regSizeCells node)

/-- The big-endian address in tuple `i`. -/
def Fdt.regBase (fdt : Fdt) (node : Int) (reg : FdtProp) (i : Nat) : Nat :=
  reg.cellsNat (i * (fdt.regAddressCells node + fdt.regSizeCells node))
    (fdt.regAddressCells node)

/-- The big-endian size in tuple `i`. -/
def Fdt.regSize (fdt : Fdt) (node : Int) (reg : FdtProp) (i : Nat) : Nat :=
  reg.cellsNat (i * (fdt.regAddressCells node + fdt.regSizeCells node)
    + fdt.regAddressCells node) (fdt.regSizeCells node)

/-- The node has a parent, whose cell counts are within `1 .. FDT_MAX_NCELLS`. -/
structure Fdt.UsableCells (fdt : Fdt) (node : Int) : Prop where
  parent : 0 ≤ fdt.parentOffset node
  address_pos : 1 ≤ fdt.addressCells (fdt.parentOffset node)
  address_le : fdt.addressCells (fdt.parentOffset node) ≤ FDT_MAX_NCELLS
  size_pos : 1 ≤ fdt.sizeCells (fdt.parentOffset node)
  size_le : fdt.sizeCells (fdt.parentOffset node) ≤ FDT_MAX_NCELLS

variable {fdt : Fdt} {node : Int}

theorem Fdt.UsableCells.regAddressCells_bounds (h : fdt.UsableCells node) :
    1 ≤ fdt.regAddressCells node ∧ fdt.regAddressCells node ≤ 4 := by
  have h1 := h.address_pos
  have h2 := h.address_le
  simp only [Fdt.regAddressCells, FDT_MAX_NCELLS] at h2 ⊢
  omega

theorem Fdt.UsableCells.regSizeCells_bounds (h : fdt.UsableCells node) :
    1 ≤ fdt.regSizeCells node ∧ fdt.regSizeCells node ≤ 4 := by
  have h1 := h.size_pos
  have h2 := h.size_le
  simp only [Fdt.regSizeCells, FDT_MAX_NCELLS] at h2 ⊢
  omega

theorem Fdt.UsableCells.toUINTN_addressCells (h : fdt.UsableCells node) :
    (toUINTN (fdt.addressCells (fdt.parentOffset node))).toNat = fdt.regAddressCells node := by
  have h1 := h.address_pos
  have h2 := h.address_le
  simp only [FDT_MAX_NCELLS] at h2
  exact toUINTN_toNat (by omega) (by omega)

theorem Fdt.UsableCells.toUINTN_sizeCells (h : fdt.UsableCells node) :
    (toUINTN (fdt.sizeCells (fdt.parentOffset node))).toNat = fdt.regSizeCells node := by
  have h1 := h.size_pos
  have h2 := h.size_le
  simp only [FDT_MAX_NCELLS] at h2
  exact toUINTN_toNat (by omega) (by omega)

theorem FdtProp.toUINTN_length (reg : FdtProp) :
    (toUINTN (reg.bytes.length : Int)).toNat = reg.bytes.length := by
  have hlt := reg.length_lt
  rw [toUINTN_toNat (by omega) (by omega)]
  exact Int.toNat_natCast _

/-- `TupleCells` as computed in 64 bits. -/
theorem Fdt.UsableCells.tupleCells_toNat (h : fdt.UsableCells node) :
    (toUINTN (fdt.addressCells (fdt.parentOffset node))
      + toUINTN (fdt.sizeCells (fdt.parentOffset node))).toNat
      = fdt.regAddressCells node + fdt.regSizeCells node := by
  have ha := h.regAddressCells_bounds
  have hs := h.regSizeCells_bounds
  rw [BitVec.toNat_add, h.toUINTN_addressCells, h.toUINTN_sizeCells]
  exact Nat.mod_eq_of_lt (by omega)

/-- `TupleSize` as computed in 64 bits. -/
theorem Fdt.UsableCells.tupleSize_toNat (h : fdt.UsableCells node) :
    ((toUINTN (fdt.addressCells (fdt.parentOffset node))
      + toUINTN (fdt.sizeCells (fdt.parentOffset node))) * 4).toNat
      = fdt.regTupleSize node := by
  have ha := h.regAddressCells_bounds
  have hs := h.regSizeCells_bounds
  rw [BitVec.toNat_mul, h.tupleCells_toNat, Fdt.regTupleSize,
    show (4 : UINTN).toNat = 4 from rfl, Nat.mod_eq_of_lt (by omega), Nat.mul_comm]

/-- The length check: the property is empty or not a whole number of tuples. -/
theorem Fdt.UsableCells.length_guard (h : fdt.UsableCells node) (reg : FdtProp) :
    ((reg.bytes.length : Int) ≤ 0 ∨ toUINTN (reg.bytes.length : Int)
      % ((toUINTN (fdt.addressCells (fdt.parentOffset node))
        + toUINTN (fdt.sizeCells (fdt.parentOffset node))) * 4) ≠ 0)
      ↔ (reg.bytes.length = 0 ∨ ¬ fdt.regTupleSize node ∣ reg.bytes.length) := by
  rw [Nat.dvd_iff_mod_eq_zero, Ne, ← BitVec.toNat_inj, BitVec.toNat_umod, h.tupleSize_toNat,
    reg.toUINTN_length, show (0 : UINTN).toNat = 0 from rfl]
  refine ⟨?_, ?_⟩
  · rintro (h0 | hmod)
    · exact Or.inl (by omega)
    · exact Or.inr hmod
  · rintro (h0 | hmod)
    · exact Or.inl (by omega)
    · exact Or.inr hmod

/-- The index check: the tuple lies past the last one. -/
theorem Fdt.UsableCells.index_guard (h : fdt.UsableCells node) (reg : FdtProp)
    (index : UINTN) :
    (index ≥ toUINTN (reg.bytes.length : Int)
      / ((toUINTN (fdt.addressCells (fdt.parentOffset node))
        + toUINTN (fdt.sizeCells (fdt.parentOffset node))) * 4))
      ↔ reg.bytes.length / fdt.regTupleSize node ≤ index.toNat := by
  rw [ge_iff_le, BitVec.le_def, BitVec.toNat_udiv, h.tupleSize_toNat, reg.toUINTN_length]

/-- A tuple before the last one ends inside the property. -/
theorem Fdt.tuple_in_bounds {reg : FdtProp} {i : Nat}
    (hi : i < reg.bytes.length / fdt.regTupleSize node) :
    4 * (i * (fdt.regAddressCells node + fdt.regSizeCells node)
      + (fdt.regAddressCells node + fdt.regSizeCells node)) ≤ reg.bytes.length := by
  have hmul : (i + 1) * fdt.regTupleSize node ≤ reg.bytes.length :=
    Nat.le_trans (Nat.mul_le_mul_right _ hi) (Nat.div_mul_le_self _ _)
  calc 4 * (i * (fdt.regAddressCells node + fdt.regSizeCells node)
        + (fdt.regAddressCells node + fdt.regSizeCells node))
      = (i + 1) * fdt.regTupleSize node := by rw [Fdt.regTupleSize]; ring
    _ ≤ reg.bytes.length := hmul

/-- The first cell of a tuple inside the property, as computed in 64 bits. -/
theorem Fdt.UsableCells.firstCell_toNat (h : fdt.UsableCells node) {reg : FdtProp}
    {index : UINTN} (hi : index.toNat < reg.bytes.length / fdt.regTupleSize node) :
    (index * (toUINTN (fdt.addressCells (fdt.parentOffset node))
      + toUINTN (fdt.sizeCells (fdt.parentOffset node)))).toNat
      = index.toNat * (fdt.regAddressCells node + fdt.regSizeCells node) := by
  have hin := Fdt.tuple_in_bounds hi
  have hlt := reg.length_lt
  rw [BitVec.toNat_mul, h.tupleCells_toNat]
  exact Nat.mod_eq_of_lt (by omega)

/-- The first `DecodeCells` call reads the address of the tuple. -/
theorem Fdt.UsableCells.decode_base (h : fdt.UsableCells node) {reg : FdtProp} {i : Nat}
    (hi : i < reg.bytes.length / fdt.regTupleSize node) :
    decodeCells reg (i * (fdt.regAddressCells node + fdt.regSizeCells node))
        (toUINTN (fdt.addressCells (fdt.parentOffset node)))
      = if fdt.regBase node reg i < 2 ^ 64
        then .ok (BitVec.ofNat 64 (fdt.regBase node reg i))
        else .error .badBufferSize := by
  have ha := h.regAddressCells_bounds
  have hin := Fdt.tuple_in_bounds hi
  rw [decodeCells_eq, h.toUINTN_addressCells, Fdt.regBase]
  · rw [h.toUINTN_addressCells]; exact ha.1
  · rw [h.toUINTN_addressCells]; exact ha.2
  · rw [h.toUINTN_addressCells]; omega

/-- The second `DecodeCells` call reads its size. -/
theorem Fdt.UsableCells.decode_size (h : fdt.UsableCells node) {reg : FdtProp} {i : Nat}
    (hi : i < reg.bytes.length / fdt.regTupleSize node) :
    decodeCells reg (i * (fdt.regAddressCells node + fdt.regSizeCells node)
        + (fdt.addressCells (fdt.parentOffset node)).toNat)
        (toUINTN (fdt.sizeCells (fdt.parentOffset node)))
      = if fdt.regSize node reg i < 2 ^ 64
        then .ok (BitVec.ofNat 64 (fdt.regSize node reg i))
        else .error .badBufferSize := by
  have hs := h.regSizeCells_bounds
  have hin := Fdt.tuple_in_bounds hi
  rw [← Fdt.regAddressCells, decodeCells_eq, h.toUINTN_sizeCells, Fdt.regSize]
  · rw [h.toUINTN_sizeCells]; exact hs.1
  · rw [h.toUINTN_sizeCells]; exact hs.2
  · rw [h.toUINTN_sizeCells]; omega

/-- The final range check, on two integers that fit in 64 bits. -/
theorem range_guard {B S : Nat} (hB : B < 2 ^ 64) (hS : S < 2 ^ 64) :
    (BitVec.ofNat 64 S = 0 ∨ BitVec.ofNat 64 B > MAX_UINT64 - BitVec.ofNat 64 S)
      ↔ (S = 0 ∨ 2 ^ 64 - 1 < B + S) := by
  have hsub : (MAX_UINT64 - BitVec.ofNat 64 S).toNat = 2 ^ 64 - 1 - S := by
    rw [BitVec.toNat_sub_of_le, BitVec.toNat_ofNat, Nat.mod_eq_of_lt hS]
    · rfl
    · rw [BitVec.le_def, BitVec.toNat_ofNat, Nat.mod_eq_of_lt hS]
      exact Nat.le_of_lt_succ hS
  rw [← BitVec.toNat_inj, gt_iff_lt, BitVec.lt_def, hsub, BitVec.toNat_ofNat,
    BitVec.toNat_ofNat, Nat.mod_eq_of_lt hB, Nat.mod_eq_of_lt hS,
    show (0 : UINT64).toNat = 0 from rfl]
  omega

/-- Without usable cell counts every tuple is refused. -/
theorem uemuFdtGetReg_unusable (h : ¬ fdt.UsableCells node) (index : UINTN) (b s : UINT64) :
    uemuFdtGetReg (some fdt) node index (some b) (some s)
      = ⟨.compromisedData, some b, some s⟩ := by
  simp only [uemuFdtGetReg]
  by_cases hp : fdt.parentOffset node < 0
  · rw [if_pos hp]
  · rw [if_neg hp, if_pos]
    by_contra hcells
    push Not at hcells
    obtain ⟨h1, h2, h3, h4⟩ := hcells
    exact h ⟨by omega, by omega, h2, by omega, h4⟩

/-- On a node with usable cell counts the checks come down to the property
    length and the two integers of the tuple. -/
theorem uemuFdtGetReg_usable (h : fdt.UsableCells node) (index : UINTN) (b s : UINT64) :
    uemuFdtGetReg (some fdt) node index (some b) (some s)
      = match fdt.getProp node "reg" with
        | none => ⟨.notFound, some b, some s⟩
        | some reg =>
          if reg.bytes.length = 0 ∨ ¬ fdt.regTupleSize node ∣ reg.bytes.length then
            ⟨.compromisedData, some b, some s⟩
          else if reg.bytes.length / fdt.regTupleSize node ≤ index.toNat then
            ⟨.notFound, some b, some s⟩
          else if 2 ^ 64 ≤ fdt.regBase node reg index.toNat
              ∨ 2 ^ 64 ≤ fdt.regSize node reg index.toNat then
            ⟨.badBufferSize, some b, some s⟩
          else if fdt.regSize node reg index.toNat = 0
              ∨ 2 ^ 64 - 1 < fdt.regBase node reg index.toNat
                + fdt.regSize node reg index.toNat then
            ⟨.compromisedData, some b, some s⟩
          else
            ⟨.success, some (BitVec.ofNat 64 (fdt.regBase node reg index.toNat)),
              some (BitVec.ofNat 64 (fdt.regSize node reg index.toNat))⟩ := by
  have ha := h.regAddressCells_bounds
  have hs := h.regSizeCells_bounds
  have hparent := h.parent
  have ha1 := h.address_pos
  have ha4 := h.address_le
  have hs1 := h.size_pos
  have hs4 := h.size_le
  have hcells : ¬ (fdt.addressCells (fdt.parentOffset node) ≤ 0 ∨
      fdt.addressCells (fdt.parentOffset node) > FDT_MAX_NCELLS ∨
      fdt.sizeCells (fdt.parentOffset node) ≤ 0 ∨
      fdt.sizeCells (fdt.parentOffset node) > FDT_MAX_NCELLS) := by omega
  simp only [uemuFdtGetReg]
  rw [if_neg (by omega), if_neg hcells]
  cases hreg : fdt.getProp node "reg" with
  | none => rfl
  | some reg =>
      simp only [h.length_guard reg, h.index_guard reg index]
      by_cases hbad : reg.bytes.length = 0 ∨ ¬ fdt.regTupleSize node ∣ reg.bytes.length
      · rw [if_pos hbad, if_pos hbad]
      rw [if_neg hbad, if_neg hbad]
      by_cases hpast : reg.bytes.length / fdt.regTupleSize node ≤ index.toNat
      · rw [if_pos hpast, if_pos hpast]
      rw [if_neg hpast, if_neg hpast]
      have hi : index.toNat < reg.bytes.length / fdt.regTupleSize node := by omega
      simp only [h.firstCell_toNat hi, h.decode_base hi, h.decode_size hi]
      by_cases hB : fdt.regBase node reg index.toNat < 2 ^ 64
      · by_cases hSz : fdt.regSize node reg index.toNat < 2 ^ 64
        · rw [if_pos hB, if_pos hSz, if_neg (by omega)]
          simp only [range_guard hB hSz]
        · rw [if_pos hB, if_neg hSz, if_pos (by omega)]
      · rw [if_neg hB]
        exact (if_pos (Or.inl (by omega))).symm

-- ============================================================================
-- The accepted tuples
-- ============================================================================

/-- Tuple `i` of the node's `reg`, which is the property `reg`, is a valid range. -/
structure Fdt.ValidTuple (fdt : Fdt) (node : Int) (i : Nat) (reg : FdtProp) : Prop where
  cells : fdt.UsableCells node
  present : fdt.getProp node "reg" = some reg
  length_pos : 0 < reg.bytes.length
  whole : fdt.regTupleSize node ∣ reg.bytes.length
  index_lt : i < reg.bytes.length / fdt.regTupleSize node
  base_lt : fdt.regBase node reg i < 2 ^ 64
  size_lt : fdt.regSize node reg i < 2 ^ 64
  size_ne : fdt.regSize node reg i ≠ 0
  end_le : fdt.regBase node reg i + fdt.regSize node reg i ≤ 2 ^ 64 - 1

/-- A valid tuple is returned. -/
theorem uemuFdtGetReg_of_valid {index : UINTN} {reg : FdtProp}
    (h : fdt.ValidTuple node index.toNat reg) (b s : UINT64) :
    uemuFdtGetReg (some fdt) node index (some b) (some s)
      = ⟨.success, some (BitVec.ofNat 64 (fdt.regBase node reg index.toNat)),
          some (BitVec.ofNat 64 (fdt.regSize node reg index.toNat))⟩ := by
  obtain ⟨hcells, hreg, hpos, hwhole, hlt, hB, hS, hne, hend⟩ := h
  rw [uemuFdtGetReg_usable hcells]
  simp only [hreg]
  rw [if_neg, if_neg (by omega), if_neg (by omega), if_neg (by omega)]
  rintro (h0 | hn)
  · omega
  · exact hn hwhole

/-- Success means that the tuple is valid. -/
theorem valid_of_uemuFdtGetReg_success {index : UINTN} {b s : UINT64}
    (h : (uemuFdtGetReg (some fdt) node index (some b) (some s)).status = .success) :
    ∃ reg, fdt.ValidTuple node index.toNat reg := by
  by_cases hcells : fdt.UsableCells node
  · rw [uemuFdtGetReg_usable hcells] at h
    cases hreg : fdt.getProp node "reg" with
    | none => simp [hreg] at h
    | some reg =>
        simp only [hreg] at h
        split at h
        · cases h
        rename_i hlen
        split at h
        · cases h
        split at h
        · cases h
        split at h
        · cases h
        push Not at hlen
        exact ⟨reg, hcells, hreg, by omega, hlen.2, by omega, by omega, by omega, by omega,
          by omega⟩
  · rw [uemuFdtGetReg_unusable hcells] at h
    cases h

/-- The output pointers are written on success only. -/
theorem uemuFdtGetReg_success_or_unchanged (fdt : Fdt) (node : Int) (index : UINTN)
    (b s : UINT64) :
    (uemuFdtGetReg (some fdt) node index (some b) (some s)).status = .success ∨
      (uemuFdtGetReg (some fdt) node index (some b) (some s)).base = some b ∧
      (uemuFdtGetReg (some fdt) node index (some b) (some s)).size = some s := by
  by_cases hcells : fdt.UsableCells node
  · rw [uemuFdtGetReg_usable hcells]
    cases fdt.getProp node "reg" with
    | none => exact Or.inr ⟨rfl, rfl⟩
    | some reg =>
        dsimp only
        split_ifs
        · exact Or.inr ⟨rfl, rfl⟩
        · exact Or.inr ⟨rfl, rfl⟩
        · exact Or.inr ⟨rfl, rfl⟩
        · exact Or.inr ⟨rfl, rfl⟩
        · exact Or.inl rfl
  · rw [uemuFdtGetReg_unusable hcells]
    exact Or.inr ⟨rfl, rfl⟩

/-- `EFI_NOT_FOUND` ends an enumeration: there is no `reg`, or a well-formed one
    has no tuple at this index. -/
theorem uemuFdtGetReg_notFound_iff (hcells : fdt.UsableCells node) (index : UINTN)
    (b s : UINT64) :
    (uemuFdtGetReg (some fdt) node index (some b) (some s)).status = .notFound
      ↔ fdt.getProp node "reg" = none ∨ ∃ reg, fdt.getProp node "reg" = some reg ∧
          0 < reg.bytes.length ∧ fdt.regTupleSize node ∣ reg.bytes.length ∧
          reg.bytes.length / fdt.regTupleSize node ≤ index.toNat := by
  rw [uemuFdtGetReg_usable hcells]
  cases fdt.getProp node "reg" with
  | none => exact ⟨fun _ => Or.inl rfl, fun _ => rfl⟩
  | some reg =>
      simp only [reduceCtorEq, Option.some.injEq, exists_eq_left', false_or]
      by_cases hbad : reg.bytes.length = 0 ∨ ¬ fdt.regTupleSize node ∣ reg.bytes.length
      · rw [if_pos hbad]
        refine ⟨nofun, fun h => ?_⟩
        rcases hbad with h0 | hn
        · omega
        · exact absurd h.2.1 hn
      rw [if_neg hbad]
      push Not at hbad
      by_cases hpast : reg.bytes.length / fdt.regTupleSize node ≤ index.toNat
      · rw [if_pos hpast]
        exact ⟨fun _ => ⟨Nat.pos_of_ne_zero hbad.1, hbad.2, hpast⟩, fun _ => rfl⟩
      · rw [if_neg hpast]
        refine ⟨fun h => ?_, fun h => absurd h.2.2 hpast⟩
        split at h
        · cases h
        split at h <;> cases h

/-- `UemuFdtGetReg` accepts exactly the valid tuples and returns their two
    integers; `EFI_NOT_FOUND` is the end of the property; an error leaves the
    outputs alone. -/
theorem uemuFdtGetReg_exact (fdt : Fdt) (node : Int) (index : UINTN) (b s : UINT64) :
    let result := uemuFdtGetReg (some fdt) node index (some b) (some s)
    (result.status = .success ↔ ∃ reg, fdt.ValidTuple node index.toNat reg) ∧
    (∀ reg, fdt.ValidTuple node index.toNat reg →
      result.base.map BitVec.toNat = some (fdt.regBase node reg index.toNat) ∧
      result.size.map BitVec.toNat = some (fdt.regSize node reg index.toNat)) ∧
    (fdt.UsableCells node →
      (result.status = .notFound ↔
        fdt.getProp node "reg" = none ∨ ∃ reg, fdt.getProp node "reg" = some reg ∧
          0 < reg.bytes.length ∧ fdt.regTupleSize node ∣ reg.bytes.length ∧
          reg.bytes.length / fdt.regTupleSize node ≤ index.toNat)) ∧
    (result.status ≠ .success → result.base = some b ∧ result.size = some s) := by
  intro result
  refine ⟨⟨valid_of_uemuFdtGetReg_success, ?_⟩, ?_,
    fun hcells => uemuFdtGetReg_notFound_iff hcells index b s,
    fun herr => (uemuFdtGetReg_success_or_unchanged fdt node index b s).resolve_left herr⟩
  · rintro ⟨reg, hvalid⟩
    simp only [result, uemuFdtGetReg_of_valid hvalid]
  · intro reg hvalid
    simp only [result, uemuFdtGetReg_of_valid hvalid, Option.map_some, BitVec.toNat_ofNat,
      Nat.mod_eq_of_lt hvalid.base_lt, Nat.mod_eq_of_lt hvalid.size_lt, and_self]

end UemuPkg
