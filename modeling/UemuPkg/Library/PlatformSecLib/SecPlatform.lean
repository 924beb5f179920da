/-
  UemuPkg.Library.PlatformSecLib.SecPlatform

  `SecPlatformMain` of the start without PEI: memory, CPU and platform initialisation in
  turn, and the hand-off block.  None of the three statuses is read, so what the memory part
  has published stays where the platform part gives up.
-/

import UemuPkg.Library.PlatformSecLib.Platform
import UemuPkg.Library.PlatformSecLib.ReservedMemory
import UemuPkg.Library.PlatformSecLib.TempRam
import UemuPkg.Library.UemuFdtLib.PageCover

namespace UemuPkg

open FuelLoop (Returns)
open Cursor (Enumerates EndsAt)

-- ============================================================================
-- The model
-- ============================================================================

/-- `CpuInitialization`: its status, and the arguments of `BuildCpuHob`. -/
def cpuInitialization (_fdtPointer : FdtBlob) : EfiStatus × UINT8 × UINT8 := (.success, 56, 32)

/-- What SEC hands to DXE: the memory and I/O blocks, and those of the CPU, of the device
    tree and of the handoff data. -/
structure SecHobs where
  hobs : List Hob
  cpuHob : UINT8 × UINT8
  fdtHob : Option FdtHob
  secHandoffHob : SecHandoffData

/-- `SecPlatformMain` without `SecCoreData`.  `blobAt` is what FdtLib finds at an address;
    `newBase` and `guidHob` are as in `platformInitialization`. -/
def secPlatformMain (pcds : MemoryTypePcds) (blobAt : UINT64 → FdtBlob) (newBase : Option FdtBlob)
    (guidHob : Bool) (secHandoffData : SecHandoffData) (fuel : Nat) (hobs : List Hob) :
    Option SecHobs := do
  let fdtPointer := blobAt secHandoffData.fdtPointer
  let memory ← memoryInitialization pcds fdtPointer.toFdt fuel hobs
  let cpu := cpuInitialization fdtPointer
  let platform ← platformInitialization fdtPointer newBase guidHob fuel memory.2
  return {
    hobs := platform.hobs
    cpuHob := cpu.2
    fdtHob := platform.fdtHob
    secHandoffHob := secHandoffData }

/-- SEC from the registers of the previous stage on: `SecPlatformMain` reads the handoff data
    that `SecStartupPlatform` has written. -/
def secPhase (tempRam : TempRamPcds) (pcds : MemoryTypePcds) (blobAt : UINT64 → FdtBlob)
    (newBase : Option FdtBlob) (guidHob : Bool) (a0 a1 : UINT64) (fuel : Nat) (hobs : List Hob) :
    Option SecHobs :=
  secPlatformMain pcds blobAt newBase guidHob (secStart tempRam a0 a1).handoff.2 fuel hobs

-- ============================================================================
-- The tree as it is walked
-- ============================================================================

/-- The walks over a tree: all nodes, the children of `/reserved-memory`, and, where the
    header is right, the nodes of the devices that SEC publishes. -/
structure FdtBlob.Walks (fdt : FdtBlob) (nodes children : List Int)
    (devices : String → List Int) : Prop where
  nodes : Enumerates fdt.nextNode (fdt.nextNode 0) nodes
  children : fdt.ReservedChildren children
  devices : fdt.checkHeader = 0 → ∀ compatible ∈ ioCompatibles,
    Enumerates (fdt.nextCompatible compatible) (fdt.nextCompatible compatible (-1))
      (devices compatible)
  ends : fdt.checkHeader = 0 → ∀ compatible ∈ ioCompatibles,
    EndsAt (fdt.nextCompatible compatible) (fdt.nextCompatible compatible (-1))
      (-FDT_ERR_NOTFOUND)

/-- `PlatformInitialization` comes to its searches. -/
def PlatformAccepts (fdt : FdtBlob) (newBase : Option FdtBlob) (guidHob : Bool) : Prop :=
  fdt.checkHeader = 0 ∧ newBase ≠ none ∧ guidHob = true

-- ============================================================================
-- The ranges of the tree
-- ============================================================================

/-- The RAM of the tree: the longest valid `reg` prefixes of its memory nodes. -/
def Fdt.ram (fdt : Fdt) (nodes : List Int) : List (UINT64 × UINT64) :=
  (nodes.filter fdt.isMemory).flatMap fdt.regPrefix

/-- The pages of a device: around its first `reg` range. -/
def ioRange (fdt : Fdt) (node : Int) : Option (UINT64 × UINT64) :=
  match readReg fdt node 0 with
  | .error _ => none
  | .ok (base, size) => (alignRange base size).toOption

/-- The pages of all devices that SEC publishes. -/
def FdtBlob.ioRanges (fdt : FdtBlob) (devices : String → List Int) : List (UINT64 × UINT64) :=
  ioCompatibles.flatMap fun compatible => (devices compatible).filterMap (ioRange fdt.toFdt)

/-- The block of a range of RAM. -/
def ramHob (t : UINT64 × UINT64) : Hob := initializeRamRegions t.1 t.2

/-- The block for the pages of a device. -/
def mmioHob (t : UINT64 × UINT64) : Hob :=
  .resourceDescriptor .memoryMappedIo [.present, .initialized, .uncacheable, .tested] t.1 t.2

/-- Base and length of the memory-mapped I/O descriptors, in order. -/
def mappedIo (hobs : List Hob) : List (UINT64 × UINT64) :=
  hobs.filterMap fun
    | .resourceDescriptor .memoryMappedIo _ base length => some (base, length)
    | _ => none

/-- The blocks of `MemoryInitialization`. -/
def memoryHobs (pcds : MemoryTypePcds) (fdt : Fdt) (nodes children : List Int) : List Hob :=
  (fdt.ram nodes).map ramHob ++ (fdt.listedReservations children).map allocationHob
    ++ [buildMemoryTypeHob pcds]

/-- The blocks of `PlatformInitialization`. -/
def ioHobs (fdt : FdtBlob) (devices : String → List Int) : List Hob :=
  (fdt.ioRanges devices).map mmioHob

variable {pcds : MemoryTypePcds} {fdt : FdtBlob} {nodes children : List Int}
  {devices : String → List Int} {newBase : Option FdtBlob} {guidHob : Bool}

theorem ioResource_eq (fdt : FdtBlob) (node : Int) :
    ioResource fdt node = (ioRange fdt.toFdt node).map mmioHob := by
  rw [ioResource, ioRange]
  cases readReg fdt.toFdt node 0 with
  | error status => rfl
  | ok range =>
      dsimp only
      cases alignRange range.1 range.2 with
      | error status => rfl
      | ok aligned => rfl

@[simp] theorem memoryAllocations_append (xs ys : List Hob) :
    memoryAllocations (xs ++ ys) = memoryAllocations xs ++ memoryAllocations ys :=
  List.filterMap_append

@[simp] theorem mappedIo_append (xs ys : List Hob) :
    mappedIo (xs ++ ys) = mappedIo xs ++ mappedIo ys :=
  List.filterMap_append

@[simp] theorem systemMemory_ram (ts : List (UINT64 × UINT64)) :
    systemMemory (ts.map ramHob) = ts := by
  simp [systemMemory, List.filterMap_map, Function.comp_def, ramHob, initializeRamRegions_eq]

@[simp] theorem memoryAllocations_ram (ts : List (UINT64 × UINT64)) :
    memoryAllocations (ts.map ramHob) = [] := by
  simp [memoryAllocations, List.filterMap_map, Function.comp_def, ramHob, initializeRamRegions_eq]

@[simp] theorem mappedIo_ram (ts : List (UINT64 × UINT64)) : mappedIo (ts.map ramHob) = [] := by
  simp [mappedIo, List.filterMap_map, Function.comp_def, ramHob, initializeRamRegions_eq]

@[simp] theorem systemMemory_allocations (rs : List (UINT64 × UINT64 × EfiMemoryType)) :
    systemMemory (rs.map allocationHob) = [] := by
  simp [systemMemory, List.filterMap_map, Function.comp_def, allocationHob]

@[simp] theorem mappedIo_allocations (rs : List (UINT64 × UINT64 × EfiMemoryType)) :
    mappedIo (rs.map allocationHob) = [] := by
  simp [mappedIo, List.filterMap_map, Function.comp_def, allocationHob]

@[simp] theorem systemMemory_mmio (ts : List (UINT64 × UINT64)) :
    systemMemory (ts.map mmioHob) = [] := by
  simp [systemMemory, List.filterMap_map, Function.comp_def, mmioHob]

@[simp] theorem memoryAllocations_mmio (ts : List (UINT64 × UINT64)) :
    memoryAllocations (ts.map mmioHob) = [] := by
  simp [memoryAllocations, List.filterMap_map, Function.comp_def, mmioHob]

@[simp] theorem mappedIo_mmio (ts : List (UINT64 × UINT64)) : mappedIo (ts.map mmioHob) = ts := by
  simp [mappedIo, List.filterMap_map, Function.comp_def, mmioHob]

theorem memoryInitialization_lists (pcds : MemoryTypePcds)
    (h : fdt.Walks nodes children devices) (hobs : List Hob) :
    Returns (fun fuel => memoryInitialization pcds fdt.toFdt fuel hobs)
      (.success, hobs ++ memoryHobs pcds fdt.toFdt nodes children) := by
  have hmemory : isMemoryNode fdt.toFdt = fdt.isMemory := funext (isMemoryNode_eq fdt.toFdt)
  have hram : (fdt.ram nodes).map ramHob
      = (nodes.filter fdt.isMemory).flatMap (ramHobs fdt.toFdt) := by
    rw [Fdt.ram, List.map_flatMap]
    rfl
  have hloop := memoryNodeLoop_returns h.nodes hobs
  rw [hmemory, ← hram] at hloop
  have hdone := hloop.bind
    (g := fun hobs fuel => (addReservedMemoryMap fdt.toFdt fuel hobs).map fun hobs =>
      (EfiStatus.success, hobs ++ [buildMemoryTypeHob pcds]))
    ((addReservedMemoryMap_lists h.children _).map _)
  simp only [memoryInitialization_eq, memoryHobs, ← List.append_assoc]
  exact hdone

/-- Where it gives up `PlatformInitialization` leaves the blocks as they are. -/
theorem platformInitialization_rejects (h : ¬ PlatformAccepts fdt newBase guidHob) (fuel : Nat)
    (hobs : List Hob) :
    platformInitialization fdt newBase guidHob fuel hobs = some ⟨.unsupported, none, hobs⟩ := by
  unfold platformInitialization
  by_cases hheader : fdt.checkHeader = 0
  · rw [if_neg (not_not_intro hheader)]
    cases newBase with
    | none => rfl
    | some blob =>
        cases guidHob with
        | false => rfl
        | true => exact absurd ⟨hheader, nofun, rfl⟩ h
  · rw [if_pos hheader]

/-- Otherwise it adds the pages of the devices, one search after the other. -/
theorem platformInitialization_lists (h : fdt.Walks nodes children devices) (copy : FdtBlob)
    (hheader : fdt.checkHeader = 0) (hobs : List Hob) :
    Returns (fun fuel => platformInitialization fdt (some copy) true fuel hobs)
      ⟨.success, some ⟨8, some copy⟩, hobs ++ ioHobs fdt devices⟩ := by
  have hsearch : ∀ compatible ∈ ioCompatibles, ∀ hobs,
      Returns (fun fuel => populateIoResources fdt compatible fuel hobs)
        (hobs ++ ((devices compatible).filterMap (ioRange fdt.toFdt)).map mmioHob) := by
    intro compatible hmem hobs
    have hreturns := populateIoLoop_returns (h.devices hheader compatible hmem)
      (h.ends hheader compatible hmem) hobs
    rw [funext (ioResource_eq fdt)] at hreturns
    rw [List.map_filterMap]
    exact hreturns
  have huarts := hsearch "ns16550a" (by simp [ioCompatibles])
  have hvirtios := hsearch "virtio,mmio" (by simp [ioCompatibles])
  have hframebuffers := hsearch "simple-framebuffer" (by simp [ioCompatibles])
  simp only [platformInitialization, if_neg (not_not_intro hheader), ioHobs, FdtBlob.ioRanges,
    ioCompatibles, List.flatMap_cons, List.flatMap_nil, List.append_nil, List.map_append,
    ← List.append_assoc]
  exact (huarts hobs).bind ((hvirtios _).bind ((hframebuffers _).bind (FuelLoop.returns_pure _)))

-- ============================================================================
-- The whole phase
-- ============================================================================

/-- What SEC hands over: the memory of the tree in any case, and the tree itself with the
    pages of its devices only where the platform part does not give up. -/
structure SecPublishes (pcds : MemoryTypePcds) (fdt : FdtBlob) (newBase : Option FdtBlob)
    (guidHob : Bool) (nodes children : List Int) (devices : String → List Int) (hobs : List Hob)
    (result : SecHobs) : Prop where
  accepted : PlatformAccepts fdt newBase guidHob →
    result.hobs = hobs ++ memoryHobs pcds fdt.toFdt nodes children ++ ioHobs fdt devices ∧
      result.fdtHob = some ⟨8, newBase⟩
  rejected : ¬ PlatformAccepts fdt newBase guidHob →
    result.hobs = hobs ++ memoryHobs pcds fdt.toFdt nodes children ∧ result.fdtHob = none

theorem secPlatformMain_returns (pcds : MemoryTypePcds) (blobAt : UINT64 → FdtBlob)
    (newBase : Option FdtBlob) (guidHob : Bool) (handoff : SecHandoffData)
    (h : (blobAt handoff.fdtPointer).Walks nodes children devices) (hobs : List Hob) :
    ∃ result, Returns
        (fun fuel => secPlatformMain pcds blobAt newBase guidHob handoff fuel hobs) result ∧
      SecPublishes pcds (blobAt handoff.fdtPointer) newBase guidHob nodes children devices hobs
        result ∧
      result.secHandoffHob = handoff := by
  have hmemory := memoryInitialization_lists pcds h hobs
  by_cases haccepts : PlatformAccepts (blobAt handoff.fdtPointer) newBase guidHob
  · obtain ⟨hheader, hcopy, rfl⟩ := haccepts
    obtain ⟨copy, rfl⟩ := Option.ne_none_iff_exists'.mp hcopy
    have hplatform := platformInitialization_lists h copy hheader
      (hobs ++ memoryHobs pcds (blobAt handoff.fdtPointer).toFdt nodes children)
    refine ⟨_, hmemory.bind (hplatform.bind (FuelLoop.returns_pure _)), ?_, rfl⟩
    exact ⟨fun _ => ⟨rfl, rfl⟩, fun hrejects => absurd ⟨hheader, hcopy, rfl⟩ hrejects⟩
  · have hplatform := FuelLoop.returns_of_eq fun fuel => platformInitialization_rejects haccepts
      fuel (hobs ++ memoryHobs pcds (blobAt handoff.fdtPointer).toFdt nodes children)
    refine ⟨_, hmemory.bind (hplatform.bind (FuelLoop.returns_pure _)), ?_, rfl⟩
    exact ⟨fun hyes => absurd hyes haccepts, fun _ => ⟨rfl, rfl⟩⟩

end UemuPkg
