/-
  UemuPkg.Library.PlatformSecLib.Hob

  The hand-off blocks the platform library builds.  HobLib appends each block
  to one list; a function of the model takes the list and returns it extended.
-/

import UemuPkg.Base

namespace UemuPkg

/-- The `EFI_MEMORY_TYPE` values the platform library uses. -/
inductive EfiMemoryType where
  | reservedMemoryType
  | runtimeServicesCode
  | runtimeServicesData
  | bootServicesData
  | acpiReclaimMemory
  | acpiMemoryNVS
  | maxMemoryType
  deriving DecidableEq, Repr

/-- `EFI_RESOURCE_TYPE` -/
inductive EfiResourceType where
  | systemMemory
  | memoryMappedIo
  deriving DecidableEq, Repr

/-- The `EFI_RESOURCE_ATTRIBUTE_*` flags. -/
inductive EfiResourceAttribute where
  | present
  | initialized
  | tested
  | uncacheable
  | writeCombineable
  | writeThroughCacheable
  | writeBackCacheable
  deriving DecidableEq, Repr

inductive Hob where
  /-- `BuildResourceDescriptorHob` -/
  | resourceDescriptor (resourceType : EfiResourceType)
      (attributes : List EfiResourceAttribute) (base length : UINT64)
  /-- `BuildMemoryAllocationHob` -/
  | memoryAllocation (base length : UINT64) (memoryType : EfiMemoryType)
  /-- `BuildGuidDataHob (&gEfiMemoryTypeInformationGuid, ...)` -/
  | memoryTypeInformation (info : List (EfiMemoryType × UINT32))
  deriving DecidableEq, Repr

/-- Base and length of the system-memory resource descriptors, in order. -/
def systemMemory (hobs : List Hob) : List (UINT64 × UINT64) :=
  hobs.filterMap fun
    | .resourceDescriptor .systemMemory _ base length => some (base, length)
    | _ => none

/-- Base, length and type of the memory allocations, in order. -/
def memoryAllocations (hobs : List Hob) : List (UINT64 × UINT64 × EfiMemoryType) :=
  hobs.filterMap fun
    | .memoryAllocation base length memoryType => some (base, length, memoryType)
    | _ => none

end UemuPkg
