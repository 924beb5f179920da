/-
  UemuPkg.Drivers.PlatformSmbiosDxe.MemoryInfo

  `LogMemoryInfo`: a walk over the memory nodes and, at each node, over the cells of
  its `reg`.  The FDT client is not part of the package; what it returns for a node is
  a pointer and a size, and the inner loop trusts both.
-/

import UemuPkg.Base
import UemuPkg.Generic.Bytes
import UemuPkg.Generic.Loop

namespace UemuPkg

open FuelLoop (Turn loop)

-- ============================================================================
-- The SMBIOS templates
-- ============================================================================

/-- `SMBIOS_TABLE_TYPE19`, without its header. -/
structure SmbiosTableType19 where
  startingAddress : UINT32
  endingAddress : UINT32
  memoryArrayHandle : UINT16
  partitionWidth : UINT8
  extendedStartingAddress : UINT64
  extendedEndingAddress : UINT64
  deriving DecidableEq

/-- `mMemArrMapInfoType19`, before the entry point patches the handle. -/
def mMemArrMapInfoType19 : SmbiosTableType19 where
  startingAddress := 0xFFFFFFFF
  endingAddress := 0xFFFFFFFF
  memoryArrayHandle := 0
  partitionWidth := 1
  extendedStartingAddress := 0
  extendedEndingAddress := 0

/-- The sizes in `SMBIOS_TABLE_TYPE17`, all that `LogMemoryInfo` patches there. -/
structure SmbiosTableType17 where
  size : UINT16
  extendedSize : UINT32
  volatileSize : UINT64
  deriving DecidableEq

/-- `mMemDevInfoType17` -/
def mMemDevInfoType17 : SmbiosTableType17 where
  size := 0x2000
  extendedSize := 0
  volatileSize := 0xFFFFFFFFFFFFFFFF

/-- A template, as it is at a call of `LogSmbiosData`. -/
inductive SmbiosTable where
  | type17 (table : SmbiosTableType17)
  | type19 (table : SmbiosTableType19)
  deriving DecidableEq

-- ============================================================================
-- The FDT client
-- ============================================================================

/-- What `FindMemoryNodeReg` and `FindNextMemoryNodeReg` return for a node. -/
structure MemoryNodeReg where
  node : Int
  /-- The memory from `Reg` on, whatever comes after the property included. -/
  reg : Nat → UINT8
  addressCells : UINTN
  sizeCells : UINTN
  regSize : UINT32

/-- `FDT_CLIENT_PROTOCOL` -/
structure FdtClientProtocol where
  findMemoryNodeReg : Except EfiStatus MemoryNodeReg
  findNextMemoryNodeReg : Int → Except EfiStatus MemoryNodeReg

-- ============================================================================
-- LogMemoryInfo
-- ============================================================================

/-- `SwapBytes32` -/
def swapBytes32 (value : UINT32) : UINT32 :=
  ByteString.beCell (ByteString.leByte value 0) (ByteString.leByte value 1)
    (ByteString.leByte value 2) (ByteString.leByte value 3)

/-- The `UINT32` that `Reg[k]` loads. -/
def loadUint32 (memory : Nat → UINT8) (k : Nat) : UINT32 :=
  ByteString.leCell (memory (4 * k)) (memory (4 * k + 1)) (memory (4 * k + 2))
    (memory (4 * k + 3))

/-- `CurBase` or `CurSize` from the cells at `Reg`, and `Reg` behind them. -/
def readCells (memory : Nat → UINT8) (cells : UINTN) (reg : Nat) : UINT64 × Nat :=
  let cur := (swapBytes32 (loadUint32 memory reg)).setWidth 64
  let reg := reg + 1
  if cells > 1 then
    ((cur <<< 32) ||| (swapBytes32 (loadUint32 memory reg)).setWidth 64, reg + 1)
  else
    (cur, reg)

/-- The variables and templates of `LogMemoryInfo`, and what it has put out. -/
structure MemoryInfo where
  totalSize : UINT64
  type17 : SmbiosTableType17
  type19 : SmbiosTableType19
  /-- `CurBase` and `CurSize` of each turn, which it also prints. -/
  regions : List (UINT64 × UINT64)
  /-- The templates given to `LogSmbiosData`. -/
  logged : List SmbiosTable

/-- What a turn of the inner loop does with the region it has decoded. -/
def logMemoryRegion (info : MemoryInfo) (region : UINT64 × UINT64) : MemoryInfo :=
  let (curBase, curSize) := region
  let type19 := { info.type19 with
    startingAddress := (curBase >>> 10).setWidth 32
    endingAddress := ((curBase + curSize - 1) >>> 10).setWidth 32 }
  { info with
    totalSize := info.totalSize + curSize
    type19
    regions := info.regions ++ [(curBase, curSize)]
    logged := info.logged ++ [.type19 type19] }

/-- `RegSize -= (AddressCells + SizeCells) * sizeof (UINT32)`, computed in 64 bits. -/
def nextRegSize (r : MemoryNodeReg) (regSize : UINT32) : UINT32 :=
  (regSize.setWidth 64 - (r.addressCells + r.sizeCells) * 4).setWidth 32

/-- The loop `while (RegSize > 0)`, with `Reg` counted in cells, as in a build without
    the assertions on the cell counts. -/
def memoryRegLoop (r : MemoryNodeReg) :
    Nat → Nat × UINT32 × MemoryInfo → Option MemoryInfo :=
  loop fun _ (reg, regSize, info) =>
    if regSize > 0 then
      let (curBase, reg) := readCells r.reg r.addressCells reg
      let (curSize, reg) := readCells r.reg r.sizeCells reg
      some (.again (reg, nextRegSize r regSize, logMemoryRegion info (curBase, curSize)))
    else
      some (.leave info)

/-- The loop `while (!EFI_ERROR (Status))` over the memory nodes. -/
def memoryNodesLoop (fdtClient : FdtClientProtocol) :
    Nat → Except EfiStatus MemoryNodeReg × MemoryInfo → Option MemoryInfo :=
  loop fun fuel (found, info) =>
    match found with
    | .error _ => some (.leave info)
    | .ok r =>
      (memoryRegLoop r fuel (0, r.regSize, info)).map fun info =>
        Turn.again (fdtClient.findNextMemoryNodeReg r.node, info)

/-- The Type 17 record, after the loops. -/
def logMemoryDevice (info : MemoryInfo) : MemoryInfo :=
  let type17 :=
    if info.totalSize > 0 then
      let totalSizeInMB := info.totalSize >>> 20
      let type17 :=
        if totalSizeInMB ≥ 0x7FFF then
          { info.type17 with size := 0x7FFF, extendedSize := totalSizeInMB.setWidth 32 }
        else
          { info.type17 with size := totalSizeInMB.setWidth 16 }
      { type17 with volatileSize := info.totalSize }
    else
      info.type17
  { info with type17, logged := info.logged ++ [.type17 type17] }

/-- `LogMemoryInfo`, on the templates as the entry point leaves them. -/
def logMemoryInfo (fdtClient : FdtClientProtocol) (type17 : SmbiosTableType17)
    (type19 : SmbiosTableType19) (fuel : Nat) : Option MemoryInfo :=
  (memoryNodesLoop fdtClient fuel
    (fdtClient.findMemoryNodeReg,
      { totalSize := 0, type17, type19, regions := [], logged := [] })).map logMemoryDevice

/-- The variables at the start of `LogMemoryInfo`. -/
def startMemoryInfo (type17 : SmbiosTableType17) (type19 : SmbiosTableType19) : MemoryInfo where
  totalSize := 0
  type17
  type19
  regions := []
  logged := []

@[simp] theorem logMemoryDevice_regions (info : MemoryInfo) :
    (logMemoryDevice info).regions = info.regions := rfl

/-- The regions of a walk, in order. -/
theorem foldl_logMemoryRegion_regions (info : MemoryInfo) (regions : List (UINT64 × UINT64)) :
    (regions.foldl logMemoryRegion info).regions = info.regions ++ regions := by
  induction regions generalizing info with
  | nil => rw [List.foldl_nil, List.append_nil]
  | cons region regions ih =>
      rw [List.foldl_cons, ih]
      show info.regions ++ [region] ++ regions = info.regions ++ region :: regions
      rw [List.append_assoc, List.singleton_append]

-- ============================================================================
-- Cells and bytes
-- ============================================================================

theorem cells_gt_one {cells : UINTN} : cells > 1 ↔ 1 < cells.toNat := by
  rw [gt_iff_lt, BitVec.lt_def]
  rfl

variable {r : MemoryNodeReg}

/-- Numbers of one or two cells, as a build with assertions checks. -/
structure MemoryNodeReg.SmallCells (r : MemoryNodeReg) : Prop where
  address : r.addressCells.toNat = 1 ∨ r.addressCells.toNat = 2
  size : r.sizeCells.toNat = 1 ∨ r.sizeCells.toNat = 2

def MemoryNodeReg.tupleCells (r : MemoryNodeReg) : Nat := r.addressCells.toNat + r.sizeCells.toNat

theorem MemoryNodeReg.SmallCells.tupleCells_bounds (h : r.SmallCells) :
    2 ≤ r.tupleCells ∧ r.tupleCells ≤ 4 := by
  have ha := h.address
  have hs := h.size
  rw [MemoryNodeReg.tupleCells]
  omega

/-- `RegSize` after a turn, in 32 bits. -/
theorem MemoryNodeReg.SmallCells.nextRegSize_toNat (h : r.SmallCells) (regSize : UINT32) :
    (nextRegSize r regSize).toNat = (2 ^ 32 + regSize.toNat - 4 * r.tupleCells) % 2 ^ 32 := by
  have ha := h.address
  have hs := h.size
  have hbounds := h.tupleCells_bounds
  have hlt := regSize.isLt
  have hwide : (regSize.setWidth 64).toNat = regSize.toNat := by
    rw [BitVec.toNat_setWidth, Nat.mod_eq_of_lt (by omega)]
  have hcells : (r.addressCells + r.sizeCells).toNat = r.tupleCells := by
    rw [BitVec.toNat_add, Nat.mod_eq_of_lt (by omega), MemoryNodeReg.tupleCells]
  have hbytes : ((r.addressCells + r.sizeCells) * 4).toNat = 4 * r.tupleCells := by
    rw [BitVec.toNat_mul, hcells, show (4 : UINTN).toNat = 4 from rfl,
      Nat.mod_eq_of_lt (by omega), Nat.mul_comm]
  rw [nextRegSize, BitVec.toNat_setWidth, BitVec.toNat_sub, hwide, hbytes]
  omega

end UemuPkg
