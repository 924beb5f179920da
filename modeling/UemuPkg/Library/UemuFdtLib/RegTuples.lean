/-
  UemuPkg.Library.UemuFdtLib.RegTuples

  A node's `reg` as its callers see it: `UemuFdtGetReg` at index 0, 1, 2, ...
  until it fails.  `regCount` is the first index that fails and `regPrefix`
  the ranges before it.
-/

import Mathlib.Data.List.Basic
import Mathlib.Data.Nat.Find
import Mathlib.Order.Nat
import UemuPkg.Generic.Loop
import UemuPkg.Library.UemuFdtLib.GetReg

namespace UemuPkg

variable {fdt : Fdt} {node : Int}

/-- A range is read exactly from a valid tuple. -/
theorem readReg_eq_ok_iff {index : UINTN} {base size : UINT64} :
    readReg fdt node index = .ok (base, size) ↔ ∃ reg, fdt.ValidTuple node index.toNat reg ∧
      base = BitVec.ofNat 64 (fdt.regBase node reg index.toNat) ∧
      size = BitVec.ofNat 64 (fdt.regSize node reg index.toNat) := by
  refine ⟨?_, ?_⟩
  · intro h
    have hok : (uemuFdtGetReg (some fdt) node index (some 0) (some 0)).status = .success := by
      rw [readReg] at h
      split at h
      · rename_i hres
        rw [hres]
      · cases h
    obtain ⟨reg, hvalid⟩ := valid_of_uemuFdtGetReg_success hok
    rw [readReg, uemuFdtGetReg_of_valid hvalid] at h
    obtain ⟨rfl, rfl⟩ := Prod.mk.inj (Except.ok.inj h)
    exact ⟨reg, hvalid, rfl, rfl⟩
  · rintro ⟨reg, hvalid, rfl, rfl⟩
    rw [readReg, uemuFdtGetReg_of_valid hvalid]

/-- A range that is read does not wrap and is not empty. -/
theorem readReg_no_wrap {index : UINTN} {base size : UINT64}
    (h : readReg fdt node index = .ok (base, size)) :
    size ≠ 0 ∧ base.toNat + size.toNat ≤ 2 ^ 64 - 1 := by
  obtain ⟨reg, hvalid, rfl, rfl⟩ := readReg_eq_ok_iff.mp h
  have hne := hvalid.size_ne
  have hend := hvalid.end_le
  have hbase : (BitVec.ofNat 64 (fdt.regBase node reg index.toNat)).toNat
      = fdt.regBase node reg index.toNat := Nat.mod_eq_of_lt hvalid.base_lt
  have hsize : (BitVec.ofNat 64 (fdt.regSize node reg index.toNat)).toNat
      = fdt.regSize node reg index.toNat := Nat.mod_eq_of_lt hvalid.size_lt
  refine ⟨fun h0 => hne ?_, by rw [hbase, hsize]; exact hend⟩
  rw [← hsize, h0]
  rfl

-- ============================================================================
-- The enumerable prefix
-- ============================================================================

/-- The range in tuple `i`, if `UemuFdtGetReg` accepts it. -/
def Fdt.regTuple (fdt : Fdt) (node : Int) (i : Nat) : Option (UINT64 × UINT64) :=
  (readReg fdt node (BitVec.ofNat 64 i)).toOption

theorem Fdt.regTuple_eq_some_iff {i : Nat} {t : UINT64 × UINT64} :
    fdt.regTuple node i = some t ↔ readReg fdt node (BitVec.ofNat 64 i) = .ok t := by
  rw [Fdt.regTuple]
  cases readReg fdt node (BitVec.ofNat 64 i) <;> simp [Except.toOption]

theorem Fdt.regTuple_eq_none_iff {i : Nat} :
    fdt.regTuple node i = none ↔ ∃ status, readReg fdt node (BitVec.ofNat 64 i) = .error status := by
  rw [Fdt.regTuple]
  cases readReg fdt node (BitVec.ofNat 64 i) <;> simp [Except.toOption]

/-- No property is long enough for `2 ^ 31` tuples. -/
theorem Fdt.regTuple_limit (fdt : Fdt) (node : Int) : fdt.regTuple node (2 ^ 31) = none := by
  cases h : fdt.regTuple node (2 ^ 31) with
  | none => rfl
  | some t =>
      obtain ⟨reg, hvalid, -⟩ := readReg_eq_ok_iff.mp (Fdt.regTuple_eq_some_iff.mp h)
      have hlt := hvalid.index_lt
      have hdiv := Nat.div_le_self reg.bytes.length (fdt.regTupleSize node)
      have hlen := reg.length_lt
      have hindex : (BitVec.ofNat 64 (2 ^ 31)).toNat = 2 ^ 31 := rfl
      omega

/-- The first index at which `UemuFdtGetReg` fails. -/
def Fdt.regCount (fdt : Fdt) (node : Int) : Nat :=
  Nat.find (p := fun i => fdt.regTuple node i = none) ⟨2 ^ 31, fdt.regTuple_limit node⟩

theorem Fdt.regTuple_regCount (fdt : Fdt) (node : Int) :
    fdt.regTuple node (fdt.regCount node) = none :=
  Nat.find_spec (p := fun i => fdt.regTuple node i = none) _

theorem Fdt.regTuple_of_lt_regCount {i : Nat} (hi : i < fdt.regCount node) :
    ∃ t, fdt.regTuple node i = some t :=
  Option.ne_none_iff_exists'.mp (Nat.find_min (p := fun i => fdt.regTuple node i = none) _ hi)

theorem Fdt.regCount_le (fdt : Fdt) (node : Int) : fdt.regCount node ≤ 2 ^ 31 :=
  Nat.find_min' (p := fun i => fdt.regTuple node i = none) _ (fdt.regTuple_limit node)

/-- The ranges in the first `k` tuples. -/
def Fdt.tuplesBefore (fdt : Fdt) (node : Int) (k : Nat) : List (UINT64 × UINT64) :=
  (List.range k).filterMap (fdt.regTuple node)

/-- The longest prefix of the node's tuples on which `UemuFdtGetReg` succeeds. -/
def Fdt.regPrefix (fdt : Fdt) (node : Int) : List (UINT64 × UINT64) :=
  fdt.tuplesBefore node (fdt.regCount node)

@[simp] theorem Fdt.tuplesBefore_zero : fdt.tuplesBefore node 0 = [] := rfl

theorem Fdt.tuplesBefore_succ {k : Nat} {t : UINT64 × UINT64}
    (h : fdt.regTuple node k = some t) :
    fdt.tuplesBefore node (k + 1) = fdt.tuplesBefore node k ++ [t] := by
  rw [Fdt.tuplesBefore, List.range_succ, List.filterMap_append]
  simp [Fdt.tuplesBefore, h]

theorem Fdt.mem_regPrefix {t : UINT64 × UINT64} :
    t ∈ fdt.regPrefix node ↔ ∃ i < fdt.regCount node, fdt.regTuple node i = some t := by
  simp [Fdt.regPrefix, Fdt.tuplesBefore]

-- ============================================================================
-- Whole properties
-- ============================================================================

/-- All ranges in the node's `reg`, which is the property `reg`. -/
def Fdt.regTuples (fdt : Fdt) (node : Int) (reg : FdtProp) : List (UINT64 × UINT64) :=
  (List.range (reg.bytes.length / fdt.regTupleSize node)).map fun i =>
    (BitVec.ofNat 64 (fdt.regBase node reg i), BitVec.ofNat 64 (fdt.regSize node reg i))

@[simp] theorem Fdt.length_regTuples (reg : FdtProp) :
    (fdt.regTuples node reg).length = reg.bytes.length / fdt.regTupleSize node := by
  rw [Fdt.regTuples, List.length_map, List.length_range]

theorem Fdt.getElem?_regTuples {i : Nat} {reg : FdtProp}
    (hi : i < reg.bytes.length / fdt.regTupleSize node) :
    (fdt.regTuples node reg)[i]? = some (BitVec.ofNat 64 (fdt.regBase node reg i),
      BitVec.ofNat 64 (fdt.regSize node reg i)) := by
  rw [Fdt.regTuples, List.getElem?_map, List.getElem?_range hi]
  rfl

theorem Fdt.ValidTuple.regTuple {i : Nat} {reg : FdtProp} (h : fdt.ValidTuple node i reg) :
    fdt.regTuple node i = some (BitVec.ofNat 64 (fdt.regBase node reg i),
      BitVec.ofNat 64 (fdt.regSize node reg i)) := by
  have hlt : i < 2 ^ 64 := by
    have hdiv := Nat.div_le_self reg.bytes.length (fdt.regTupleSize node)
    have hindex := h.index_lt
    have hlen := reg.length_lt
    omega
  have hi : (BitVec.ofNat 64 i).toNat = i := Nat.mod_eq_of_lt hlt
  rw [Fdt.regTuple_eq_some_iff, readReg_eq_ok_iff, hi]
  exact ⟨reg, h, rfl, rfl⟩

/-- If every tuple is valid, the callers see all of them. -/
theorem Fdt.regPrefix_eq_regTuples {reg : FdtProp} (hreg : fdt.getProp node "reg" = some reg)
    (hvalid : ∀ i < reg.bytes.length / fdt.regTupleSize node, fdt.ValidTuple node i reg) :
    fdt.regPrefix node = fdt.regTuples node reg := by
  have hpast : fdt.regTuple node (reg.bytes.length / fdt.regTupleSize node) = none := by
    cases h : fdt.regTuple node (reg.bytes.length / fdt.regTupleSize node) with
    | none => rfl
    | some t =>
        obtain ⟨reg', hvalid', -⟩ := readReg_eq_ok_iff.mp (Fdt.regTuple_eq_some_iff.mp h)
        obtain rfl := Option.some.inj (hreg.symm.trans hvalid'.present)
        have hindex := hvalid'.index_lt
        have hdiv := Nat.div_le_self reg.bytes.length (fdt.regTupleSize node)
        have hlen := reg.length_lt
        rw [BitVec.toNat_ofNat, Nat.mod_eq_of_lt (by omega)] at hindex
        omega
  have hcount : fdt.regCount node = reg.bytes.length / fdt.regTupleSize node := by
    refine (Nat.find_eq_iff _).mpr ⟨hpast, ?_⟩
    intro i hi
    rw [(hvalid i hi).regTuple]
    exact Option.some_ne_none _
  rw [Fdt.regPrefix, hcount, Fdt.tuplesBefore, Fdt.regTuples, ← List.filterMap_eq_map]
  refine List.filterMap_congr ?_
  intro i hi
  exact (hvalid i (List.mem_range.mp hi)).regTuple

end UemuPkg
