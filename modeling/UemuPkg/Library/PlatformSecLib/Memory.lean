/-
  UemuPkg.Library.PlatformSecLib.Memory

  Memory.c: system RAM and reserved regions become hand-off blocks.  The node
  and tuple loops have no bound of their own and run on fuel.
-/

import UemuPkg.Library.PlatformSecLib.Hob
import UemuPkg.Library.UemuFdtLib.RegTuples

namespace UemuPkg

open FuelLoop (Turn loop)

/-- The page counts `BuildMemoryTypeHob` takes from PCDs. -/
structure MemoryTypePcds where
  pcdMemoryTypeEfiACPIReclaimMemory : UINT32
  pcdMemoryTypeEfiACPIMemoryNVS : UINT32
  pcdMemoryTypeEfiReservedMemoryType : UINT32
  pcdMemoryTypeEfiRuntimeServicesData : UINT32
  pcdMemoryTypeEfiRuntimeServicesCode : UINT32

/-- `BuildMemoryTypeHob`. -/
def buildMemoryTypeHob (pcds : MemoryTypePcds) : Hob :=
  .memoryTypeInformation
    [(.acpiReclaimMemory, pcds.pcdMemoryTypeEfiACPIReclaimMemory),
     (.acpiMemoryNVS, pcds.pcdMemoryTypeEfiACPIMemoryNVS),
     (.reservedMemoryType, pcds.pcdMemoryTypeEfiReservedMemoryType),
     (.runtimeServicesData, pcds.pcdMemoryTypeEfiRuntimeServicesData),
     (.runtimeServicesCode, pcds.pcdMemoryTypeEfiRuntimeServicesCode),
     (.maxMemoryType, 0)]

/-- `AddMemoryBaseSizeHob`. -/
def addMemoryBaseSizeHob (memoryBase memorySize : UINT64) : Hob :=
  .resourceDescriptor .systemMemory
    [.present, .initialized, .uncacheable, .writeCombineable, .writeThroughCacheable,
      .writeBackCacheable, .tested]
    memoryBase memorySize

/-- `AddMemoryRangeHob`. -/
def addMemoryRangeHob (memoryBase memoryLimit : UINT64) : Hob :=
  addMemoryBaseSizeHob memoryBase (memoryLimit - memoryBase)

/-- `InitializeRamRegions`. -/
def initializeRamRegions (systemMemoryBase systemMemorySize : UINT64) : Hob :=
  addMemoryRangeHob systemMemoryBase (systemMemoryBase + systemMemorySize)

/-- The loop `for (Index = 0; ; Index++)` over a node's tuples, run by both
    `MemoryInitialization` and `AddReservedMemoryMap`: `emit` builds the block of
    one range, and any failure of `UemuFdtGetReg` breaks out. -/
def tupleLoop (fdt : Fdt) (node : Int) (emit : UINT64 → UINT64 → Hob) :
    Nat → UINTN × List Hob → Option (List Hob) :=
  loop fun _ (index, hobs) =>
    match readReg fdt node index with
    | .error .notFound => some (.leave hobs)
    | .error _ => some (.leave hobs)
    | .ok (base, size) => some (.again (index + 1, hobs ++ [emit base size]))

-- ============================================================================
-- AddReservedMemoryMap
-- ============================================================================

/-- One turn of the reserve-map loop. -/
def addReserveMapEntry (fdt : Fdt) (hobs : List Hob) (i : Nat) : List Hob :=
  match fdt.reserveMapEntry i with
  | none => hobs
  | some (addr, size) =>
    if size ≠ 0 ∧ addr ≤ MAX_UINT64 - size then
      hobs ++ [.memoryAllocation addr size .reservedMemoryType]
    else
      hobs

/-- The memory type a child of `/reserved-memory` is listed with. -/
def reservedMemoryTypeOf (fdt : Fdt) (subNode : Int) : EfiMemoryType :=
  match fdt.getProp subNode "no-map" with
  | some _ => .reservedMemoryType
  | none => .bootServicesData

/-- The loop `FdtForEachSubnode (SubNode, FdtPointer, Node)`. -/
def reservedNodeLoop (fdt : Fdt) : Nat → Int × List Hob → Option (List Hob) :=
  loop fun fuel (subNode, hobs) =>
    if subNode < 0 then
      some (.leave hobs)
    else
      (tupleLoop fdt subNode
          (fun addr size => .memoryAllocation addr size (reservedMemoryTypeOf fdt subNode))
          fuel (0, hobs)).map
        fun hobs => Turn.again (fdt.nextSubnode subNode, hobs)

/-- `AddReservedMemoryMap`. -/
def addReservedMemoryMap (fdt : Fdt) (fuel : Nat) (hobs : List Hob) : Option (List Hob) :=
  let hobs := (List.range fdt.numberOfReserveMapEntries.toNat).foldl
    (addReserveMapEntry fdt) hobs
  let node := fdt.subnodeOffset 0 "reserved-memory"
  if node ≥ 0 then
    reservedNodeLoop fdt fuel (fdt.firstSubnode node, hobs)
  else
    some hobs

-- ============================================================================
-- MemoryInitialization
-- ============================================================================

/-- The `device_type` test of `MemoryInitialization`. -/
def isMemoryNode (fdt : Fdt) (node : Int) : Bool :=
  match fdt.getProp node "device_type" with
  | none => false
  | some type =>
    type.bytes.length == 7 && asciiStrEq type.bytes (ascii ['m', 'e', 'm', 'o', 'r', 'y'] ++ [0])

/-- The loop over all nodes after the root. -/
def memoryNodeLoop (fdt : Fdt) : Nat → Int × List Hob → Option (List Hob) :=
  loop fun fuel (prev, hobs) =>
    let node := fdt.nextNode prev
    if node < 0 then
      some (.leave hobs)
    else if isMemoryNode fdt node then
      (tupleLoop fdt node initializeRamRegions fuel (0, hobs)).map
        fun hobs => Turn.again (node, hobs)
    else
      some (.again (node, hobs))

/-- `MemoryInitialization`.  The assertion on the translation register is a
    statement about the hart and builds nothing. -/
def memoryInitialization (pcds : MemoryTypePcds) (fdt : Fdt) (fuel : Nat) (hobs : List Hob) :
    Option (EfiStatus × List Hob) := do
  let hobs ← memoryNodeLoop fdt fuel (0, hobs)
  let hobs ← addReservedMemoryMap fdt fuel hobs
  return (.success, hobs ++ [buildMemoryTypeHob pcds])

end UemuPkg
