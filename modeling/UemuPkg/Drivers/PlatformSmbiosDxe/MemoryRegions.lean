/-
  UemuPkg.Drivers.PlatformSmbiosDxe.MemoryRegions

  SMBIOS and the memory map describe the same RAM.  `LogMemoryInfo` walks a pointer
  over the cells of a `reg`, `MemoryInitialization` asks `UemuFdtGetReg` for one tuple
  after the other; on properties that are valid throughout both decode the same
  regions in the same order.
-/

import UemuPkg.Drivers.PlatformSmbiosDxe.MemoryInfo
import UemuPkg.Library.PlatformSecLib.SystemMemory

namespace UemuPkg

open FuelLoop (Returns Turn)
open Cursor (Enumerates)

-- ============================================================================
-- Cells
-- ============================================================================

/-- The bytes of the property are what is in memory from `Reg` on. -/
def FdtProp.StoredAt (prop : FdtProp) (memory : Nat → UINT8) : Prop :=
  ∀ i < prop.bytes.length, memory i = prop.bytes.getD i 0

variable {prop : FdtProp} {memory : Nat → UINT8}

/-- Loading a cell and swapping its bytes reads it in big-endian order. -/
theorem FdtProp.StoredAt.swapBytes32_load (h : prop.StoredAt memory) {k : Nat}
    (hin : 4 * (k + 1) ≤ prop.bytes.length) :
    swapBytes32 (loadUint32 memory k) = prop.cell k := by
  obtain ⟨h0, h1, h2, h3⟩ := ByteString.leByte_leCell (memory (4 * k)) (memory (4 * k + 1))
    (memory (4 * k + 2)) (memory (4 * k + 3))
  rw [swapBytes32, loadUint32, h0, h1, h2, h3, h _ (by omega), h _ (by omega), h _ (by omega),
    h _ (by omega)]
  rfl

/-- One or two cells inside the property are read as one big-endian number. -/
theorem FdtProp.StoredAt.readCells_eq (h : prop.StoredAt memory) {cells : UINTN}
    (hcells : cells.toNat = 1 ∨ cells.toNat = 2) {k : Nat}
    (hin : 4 * (k + cells.toNat) ≤ prop.bytes.length) :
    readCells memory cells k
      = (BitVec.ofNat 64 (prop.cellsNat k cells.toNat), k + cells.toNat) := by
  have hfirst := prop.cell k |>.isLt
  have hwide : ((prop.cell k).setWidth 64).toNat = (prop.cell k).toNat := by
    rw [BitVec.toNat_setWidth, Nat.mod_eq_of_lt (by omega)]
  have hload : swapBytes32 (loadUint32 memory k) = prop.cell k :=
    h.swapBytes32_load (by omega)
  rw [readCells, hload]
  rcases hcells with hone | htwo
  · have hvalue : prop.cellsNat k 1 = (prop.cell k).toNat := by
      rw [prop.cellsNat_succ k 0 (by omega), FdtProp.cellsNat_zero]
      omega
    rw [if_neg (by rw [cells_gt_one]; omega), hone, hvalue, ← hwide, BitVec.ofNat_toNat,
      BitVec.setWidth_eq]
  · have hvalue : prop.cellsNat k 2
        = (prop.cell k).toNat * 2 ^ 32 + (prop.cell (k + 1)).toNat := by
      rw [prop.cellsNat_succ k 1 (by omega), prop.cellsNat_succ (k + 1) 0 (by omega),
        FdtProp.cellsNat_zero]
      omega
    have hshift := shiftIn_toNat ((prop.cell k).setWidth 64) (prop.cell (k + 1))
      (by rw [hwide]; exact hfirst)
    rw [if_pos (by rw [cells_gt_one]; omega), h.swapBytes32_load (by omega), htwo, hvalue, ← hwide,
      ← hshift, BitVec.ofNat_toNat, BitVec.setWidth_eq]

-- ============================================================================
-- One node
-- ============================================================================

/-- The FDT client returns the node's `reg` and its parent's cell counts. -/
structure MemoryNodeReg.Describes (r : MemoryNodeReg) (fdt : Fdt) (reg : FdtProp) : Prop where
  present : fdt.getProp r.node "reg" = some reg
  addressCells : r.addressCells.toNat = fdt.regAddressCells r.node
  sizeCells : r.sizeCells.toNat = fdt.regSizeCells r.node
  regSize : r.regSize.toNat = reg.bytes.length
  stored : reg.StoredAt r.reg

/-- A `reg` of whole tuples, whose numbers have one or two cells. -/
structure Fdt.WholeReg (fdt : Fdt) (node : Int) (reg : FdtProp) : Prop where
  parent : 0 ≤ fdt.parentOffset node
  address : fdt.regAddressCells node = 1 ∨ fdt.regAddressCells node = 2
  size : fdt.regSizeCells node = 1 ∨ fdt.regSizeCells node = 2
  length_pos : 0 < reg.bytes.length
  whole : fdt.regTupleSize node ∣ reg.bytes.length

/-- The same of any `reg`, an empty one too. -/
structure Fdt.TupleReg (fdt : Fdt) (node : Int) (reg : FdtProp) : Prop where
  address : fdt.regAddressCells node = 1 ∨ fdt.regAddressCells node = 2
  size : fdt.regSizeCells node = 1 ∨ fdt.regSizeCells node = 2
  whole : fdt.regTupleSize node ∣ reg.bytes.length

/-- A whole `reg` in which no range is empty and none wraps. -/
structure Fdt.ValidReg (fdt : Fdt) (node : Int) (reg : FdtProp) : Prop
    extends fdt.WholeReg node reg where
  present : fdt.getProp node "reg" = some reg
  tuple : ∀ i < reg.bytes.length / fdt.regTupleSize node, fdt.regSize node reg i ≠ 0 ∧
    fdt.regBase node reg i + fdt.regSize node reg i ≤ 2 ^ 64 - 1

variable {fdt : Fdt} {node : Int} {reg : FdtProp}

theorem Fdt.WholeReg.usableCells (h : fdt.WholeReg node reg) : fdt.UsableCells node := by
  have ha := h.address
  have hs := h.size
  rw [Fdt.regAddressCells] at ha
  rw [Fdt.regSizeCells] at hs
  refine ⟨h.parent, ?_, ?_, ?_, ?_⟩
  · omega
  · rw [FDT_MAX_NCELLS]; omega
  · omega
  · rw [FDT_MAX_NCELLS]; omega

theorem Fdt.WholeReg.tupleReg (h : fdt.WholeReg node reg) : fdt.TupleReg node reg :=
  ⟨h.address, h.size, h.whole⟩

theorem Fdt.TupleReg.regTupleSize_pos (h : fdt.TupleReg node reg) :
    0 < fdt.regTupleSize node := by
  have ha := h.address
  rw [Fdt.regTupleSize]
  omega

theorem Fdt.ValidReg.validTuple (h : fdt.ValidReg node reg) {i : Nat}
    (hi : i < reg.bytes.length / fdt.regTupleSize node) : fdt.ValidTuple node i reg := by
  obtain ⟨hne, hend⟩ := h.tuple i hi
  exact ⟨h.usableCells, h.present, h.length_pos, h.whole, hi, by omega, by omega, hne, hend⟩

variable {r : MemoryNodeReg}

theorem MemoryNodeReg.Describes.smallCells (hr : r.Describes fdt reg)
    (hw : fdt.TupleReg r.node reg) : r.SmallCells :=
  ⟨by rw [hr.addressCells]; exact hw.address, by rw [hr.sizeCells]; exact hw.size⟩

/-- `RegSize` after one tuple, while a whole one is left. -/
theorem MemoryNodeReg.Describes.nextRegSize_toNat (hr : r.Describes fdt reg)
    (hw : fdt.TupleReg r.node reg) {regSize : UINT32}
    (hle : fdt.regTupleSize r.node ≤ regSize.toNat) :
    (nextRegSize r regSize).toNat = regSize.toNat - fdt.regTupleSize r.node := by
  have hlt := regSize.isLt
  have hcells : fdt.regTupleSize r.node = 4 * r.tupleCells := by
    rw [MemoryNodeReg.tupleCells, hr.addressCells, hr.sizeCells]
    rfl
  rw [(hr.smallCells hw).nextRegSize_toNat, hcells]
  rw [hcells] at hle
  omega

/-- Before tuple `i`: `Reg` is at its first cell, `RegSize` counts the bytes from there
    on, and the regions of the tuples before it have been logged. -/
structure AtTuple (fdt : Fdt) (r : MemoryNodeReg) (reg : FdtProp) (info : MemoryInfo) (i : Nat)
    (st : Nat × UINT32 × MemoryInfo) : Prop where
  le : i ≤ reg.bytes.length / fdt.regTupleSize r.node
  cell : st.1 = i * (fdt.regAddressCells r.node + fdt.regSizeCells r.node)
  left : st.2.1.toNat = reg.bytes.length - i * fdt.regTupleSize r.node
  logged : st.2.2 = ((fdt.regTuples r.node reg).take i).foldl logMemoryRegion info

/-- One turn of the inner loop takes one tuple. -/
theorem AtTuple.next {info : MemoryInfo} {i reg' : Nat} {regSize : UINT32} {mid : MemoryInfo}
    (h : AtTuple fdt r reg info i (reg', regSize, mid)) (hr : r.Describes fdt reg)
    (hw : fdt.TupleReg r.node reg)
    (hi : i < reg.bytes.length / fdt.regTupleSize r.node) :
    ∃ base size, readCells r.reg r.addressCells reg'
        = (base, reg' + fdt.regAddressCells r.node) ∧
      readCells r.reg r.sizeCells (reg' + fdt.regAddressCells r.node)
        = (size, reg' + fdt.regAddressCells r.node + fdt.regSizeCells r.node) ∧
      AtTuple fdt r reg info (i + 1)
        (reg' + fdt.regAddressCells r.node + fdt.regSizeCells r.node, nextRegSize r regSize,
          logMemoryRegion mid (base, size)) := by
  have hin := Fdt.tuple_in_bounds hi
  have hcell : reg' = i * (fdt.regAddressCells r.node + fdt.regSizeCells r.node) := h.cell
  have hleft : regSize.toNat = reg.bytes.length - i * fdt.regTupleSize r.node := h.left
  have hsucc : (i + 1) * (fdt.regAddressCells r.node + fdt.regSizeCells r.node)
      = i * (fdt.regAddressCells r.node + fdt.regSizeCells r.node)
        + (fdt.regAddressCells r.node + fdt.regSizeCells r.node) := Nat.succ_mul i _
  have hbytes : (i + 1) * fdt.regTupleSize r.node
      = i * fdt.regTupleSize r.node + fdt.regTupleSize r.node := Nat.succ_mul i _
  have hend : (i + 1) * fdt.regTupleSize r.node ≤ reg.bytes.length :=
    Nat.le_trans (Nat.mul_le_mul_right _ hi) (Nat.div_mul_le_self _ _)
  have hbase : readCells r.reg r.addressCells reg'
      = (BitVec.ofNat 64 (reg.cellsNat reg' r.addressCells.toNat),
          reg' + r.addressCells.toNat) :=
    hr.stored.readCells_eq (by rw [hr.addressCells]; exact hw.address)
      (by rw [hr.addressCells]; omega)
  rw [hr.addressCells] at hbase
  have hsize : readCells r.reg r.sizeCells (reg' + fdt.regAddressCells r.node)
      = (BitVec.ofNat 64 (reg.cellsNat (reg' + fdt.regAddressCells r.node) r.sizeCells.toNat),
          reg' + fdt.regAddressCells r.node + r.sizeCells.toNat) :=
    hr.stored.readCells_eq (by rw [hr.sizeCells]; exact hw.size) (by rw [hr.sizeCells]; omega)
  rw [hr.sizeCells] at hsize
  refine ⟨_, _, hbase, hsize, ⟨hi, ?_, ?_, ?_⟩⟩
  · show reg' + fdt.regAddressCells r.node + fdt.regSizeCells r.node = _
    omega
  · show (nextRegSize r regSize).toNat = _
    rw [hr.nextRegSize_toNat hw (by omega)]
    omega
  · dsimp only
    have hmid : mid = ((fdt.regTuples r.node reg).take i).foldl logMemoryRegion info := h.logged
    rw [List.take_add_one, Fdt.getElem?_regTuples hi, List.foldl_append, ← hmid, hcell]
    rfl

/-- The inner loop ends, having logged all ranges of the property. -/
theorem memoryRegLoop_returns (hr : r.Describes fdt reg) (hw : fdt.TupleReg r.node reg)
    (info : MemoryInfo) :
    Returns (fun fuel => memoryRegLoop r fuel (0, r.regSize, info))
      ((fdt.regTuples r.node reg).foldl logMemoryRegion info) := by
  refine FuelLoop.loop_returns_of_measure (fun st => ∃ i, AtTuple fdt r reg info i st)
    (fun st => st.2.1.toNat) ?_ ⟨0, Nat.zero_le _, (Nat.zero_mul _).symm, ?_, rfl⟩
  · rintro ⟨reg', regSize, mid⟩ ⟨i, h⟩
    have hpos := hw.regTupleSize_pos
    have hleft : regSize.toNat = reg.bytes.length - i * fdt.regTupleSize r.node := h.left
    have hwhole : reg.bytes.length / fdt.regTupleSize r.node * fdt.regTupleSize r.node
        = reg.bytes.length := Nat.div_mul_cancel hw.whole
    have hguard : regSize > 0 ↔ 0 < regSize.toNat := by
      rw [gt_iff_lt, BitVec.lt_def]
      rfl
    rcases Nat.lt_or_eq_of_le h.le with hlt | heq
    · obtain ⟨base, size, hbase, hsize, hnext⟩ := h.next hr hw hlt
      have hmul : (i + 1) * fdt.regTupleSize r.node ≤ reg.bytes.length :=
        Nat.le_trans (Nat.mul_le_mul_right _ hlt) (Nat.div_mul_le_self _ _)
      rw [Nat.succ_mul] at hmul
      right
      refine ⟨_, ?_, ⟨i + 1, hnext⟩, ?_⟩
      · simp only [if_pos (hguard.mpr (show 0 < regSize.toNat by omega)), hbase, hsize]
        exact FuelLoop.returns_pure _
      · show (nextRegSize r regSize).toNat < regSize.toNat
        rw [hr.nextRegSize_toNat hw (by omega)]
        omega
    · have hdone : ¬ regSize > 0 := by
        rw [hguard, hleft, heq, hwhole]
        omega
      have hall : (fdt.regTuples r.node reg).take i = fdt.regTuples r.node reg :=
        List.take_of_length_le (by rw [Fdt.length_regTuples, heq])
      have hmid : mid = ((fdt.regTuples r.node reg).take i).foldl logMemoryRegion info :=
        h.logged
      left
      rw [hall] at hmid
      simp only [if_neg hdone, hmid]
      exact FuelLoop.returns_pure _
  · show r.regSize.toNat = _
    rw [hr.regSize, Nat.zero_mul, Nat.sub_zero]

-- ============================================================================
-- All nodes
-- ============================================================================

/-- From what it has found on, the FDT client visits the memory nodes `nodes` in order,
    and then returns an error. -/
inductive FdtClientProtocol.Visits (fdtClient : FdtClientProtocol) (fdt : Fdt) :
    Except EfiStatus MemoryNodeReg → List Int → Prop where
  | stop (status : EfiStatus) : FdtClientProtocol.Visits fdtClient fdt (.error status) []
  | visit {r : MemoryNodeReg} {reg : FdtProp} {nodes : List Int} (hr : r.Describes fdt reg)
      (rest : FdtClientProtocol.Visits fdtClient fdt
        (fdtClient.findNextMemoryNodeReg r.node) nodes) :
      FdtClientProtocol.Visits fdtClient fdt (.ok r) (r.node :: nodes)

/-- All ranges in the node's `reg`. -/
def Fdt.nodeTuples (fdt : Fdt) (node : Int) : List (UINT64 × UINT64) :=
  match fdt.getProp node "reg" with
  | none => []
  | some reg => fdt.regTuples node reg

theorem Fdt.ValidReg.nodeTuples_eq (h : fdt.ValidReg node reg) :
    fdt.nodeTuples node = fdt.regPrefix node := by
  rw [Fdt.nodeTuples, h.present]
  exact (Fdt.regPrefix_eq_regTuples h.present fun _ => h.validTuple).symm

variable {fdtClient : FdtClientProtocol}

/-- The outer loop ends, having logged the ranges of all nodes in order. -/
theorem memoryNodesLoop_returns {found : Except EfiStatus MemoryNodeReg} {nodes : List Int}
    (hnodes : fdtClient.Visits fdt found nodes)
    (hwhole : ∀ node ∈ nodes, ∀ reg, fdt.getProp node "reg" = some reg → fdt.TupleReg node reg)
    (info : MemoryInfo) :
    Returns (fun fuel => memoryNodesLoop fdtClient fuel (found, info))
      ((nodes.flatMap fdt.nodeTuples).foldl logMemoryRegion info) := by
  induction hnodes generalizing info with
  | stop status => exact Returns.loop_leave (FuelLoop.returns_pure _)
  | @visit r reg nodes hr _ ih =>
      have hw := hwhole r.node (List.mem_cons_self ..) reg hr.present
      have hinner := memoryRegLoop_returns hr hw info
      have htuples : fdt.nodeTuples r.node = fdt.regTuples r.node reg := by
        rw [Fdt.nodeTuples, hr.present]
      rw [List.flatMap_cons, List.foldl_append, htuples]
      refine Returns.loop_again ?_ (ih (fun node hmem => hwhole node (.tail _ hmem)) _)
      exact hinner.map fun info => Turn.again (fdtClient.findNextMemoryNodeReg r.node, info)

/-- `LogMemoryInfo` ends, having logged the ranges of all nodes in order. -/
theorem logMemoryInfo_returns {nodes : List Int}
    (hnodes : fdtClient.Visits fdt fdtClient.findMemoryNodeReg nodes)
    (hwhole : ∀ node ∈ nodes, ∀ reg, fdt.getProp node "reg" = some reg → fdt.TupleReg node reg)
    (type17 : SmbiosTableType17) (type19 : SmbiosTableType19) :
    Returns (fun fuel => logMemoryInfo fdtClient type17 type19 fuel)
      (logMemoryDevice ((nodes.flatMap fdt.nodeTuples).foldl logMemoryRegion
        { totalSize := 0, type17, type19, regions := [], logged := [] })) :=
  (memoryNodesLoop_returns hnodes hwhole _).map logMemoryDevice

/-- SMBIOS and the memory map describe the same RAM: on valid memory nodes the regions
    that `LogMemoryInfo` decodes are those that `UemuFdtGetReg` returns at index 0, 1,
    2, ... of each node; and if the nodes are those that `MemoryInitialization` finds,
    they are the system memory it publishes. -/
theorem logMemoryInfo_regions (fdt : Fdt) (fdtClient : FdtClientProtocol) (nodes : List Int)
    (hnodes : fdtClient.Visits fdt fdtClient.findMemoryNodeReg nodes)
    (hvalid : ∀ node ∈ nodes, ∃ reg, fdt.ValidReg node reg)
    (type17 : SmbiosTableType17) (type19 : SmbiosTableType19) :
    ∃ info, Returns (fun fuel => logMemoryInfo fdtClient type17 type19 fuel) info ∧
      info.regions = nodes.flatMap fdt.regPrefix ∧
      ∀ visited, Enumerates fdt.nextNode (fdt.nextNode 0) visited →
        visited.filter fdt.isMemory = nodes →
        ∀ hobs, ∃ ram, Returns (fun fuel => memoryNodeLoop fdt fuel (0, hobs)) (hobs ++ ram) ∧
          systemMemory ram = info.regions := by
  have hwhole : ∀ node ∈ nodes, ∀ reg, fdt.getProp node "reg" = some reg →
      fdt.TupleReg node reg := by
    intro node hmem reg hreg
    obtain ⟨reg', h⟩ := hvalid node hmem
    obtain rfl := Option.some.inj (hreg.symm.trans h.present)
    exact h.toWholeReg.tupleReg
  have hprefix : nodes.flatMap fdt.nodeTuples = nodes.flatMap fdt.regPrefix := by
    refine List.flatMap_congr fun node hmem => ?_
    obtain ⟨reg, h⟩ := hvalid node hmem
    exact h.nodeTuples_eq
  refine ⟨_, logMemoryInfo_returns hnodes hwhole type17 type19, ?_, ?_⟩
  · rw [logMemoryDevice_regions, foldl_logMemoryRegion_regions, List.nil_append, hprefix]
  · intro visited hvisited hfilter hobs
    have hloop := memoryNodeLoop_returns hvisited hobs
    have hmemory : isMemoryNode fdt = fdt.isMemory := funext (isMemoryNode_eq fdt)
    rw [hmemory, hfilter] at hloop
    refine ⟨_, hloop, ?_⟩
    rw [systemMemory_flatMap, logMemoryDevice_regions, foldl_logMemoryRegion_regions,
      List.nil_append, hprefix]
    simp only [systemMemory_ramHobs]

/-- An FDT client that returns the memory node of `sampleFdt`. -/
def sampleFdtClient (reg : FdtProp) : FdtClientProtocol where
  findMemoryNodeReg := .ok
    { node := 8
      reg := fun i => reg.bytes.getD i 0
      addressCells := 1
      sizeCells := 1
      regSize := BitVec.ofNat 32 reg.bytes.length }
  findNextMemoryNodeReg _ := .error .notFound

theorem sampleFdtClient_visits :
    (sampleFdtClient sampleReg).Visits (sampleFdt sampleReg)
      (sampleFdtClient sampleReg).findMemoryNodeReg [8] :=
  .visit ⟨rfl, rfl, rfl, rfl, fun _ _ => rfl⟩ (.stop _)

theorem sampleFdt_validReg : (sampleFdt sampleReg).ValidReg 8 sampleReg where
  parent := by decide
  address := .inl rfl
  size := .inl rfl
  length_pos := by decide
  whole := by decide
  present := rfl
  tuple := by decide

theorem logMemoryInfo_regions_sample :
    ∃ info, Returns (fun fuel => logMemoryInfo (sampleFdtClient sampleReg) mMemDevInfoType17
        mMemArrMapInfoType19 fuel) info ∧
      info.regions = [8].flatMap (sampleFdt sampleReg).regPrefix := by
  obtain ⟨info, hreturns, hregions, -⟩ := logMemoryInfo_regions (sampleFdt sampleReg)
    (sampleFdtClient sampleReg) [8] sampleFdtClient_visits
    (by
      intro node hmem
      obtain rfl := List.mem_singleton.mp hmem
      exact ⟨sampleReg, sampleFdt_validReg⟩)
    mMemDevInfoType17 mMemArrMapInfoType19
  exact ⟨info, hreturns, hregions⟩

end UemuPkg
