/-
  UemuPkg.Library.IoLib

  The calls by which a driver leaves the package: the 32-bit accesses of IoLib and the
  services that its initialisation asks for.  A driver function is a program over
  these calls; what they return is up to the platform.
-/

import UemuPkg.Base
import UemuPkg.Generic.Effects

namespace UemuPkg

open Effects (Program)

def EFI_MEMORY_UC : UINT64 := 0x0000000000000001
def EFI_MEMORY_XP : UINT64 := 0x0000000000004000
def EFI_MEMORY_RUNTIME : UINT64 := 0x8000000000000000

inductive DriverCall where
  /-- `MmioRead32` -/
  | mmioRead32 (address : UINT64)
  /-- `MmioWrite32` -/
  | mmioWrite32 (address : UINT64) (value : UINT32)
  /-- `gDS->AddMemorySpace`, for `EfiGcdMemoryTypeMemoryMappedIo` -/
  | addMemorySpace (baseAddress length capabilities : UINT64)
  /-- `gDS->SetMemorySpaceAttributes` -/
  | setMemorySpaceAttributes (baseAddress length attributes : UINT64)
  /-- `AllocateZeroPool`; `false` is a NULL result. -/
  | allocateZeroPool
  /-- The events that an entry point creates and the protocols that it installs, up to
      the first failure. -/
  | install

def DriverCall.Result : DriverCall → Type
  | .mmioRead32 _ => UINT32
  | .mmioWrite32 _ _ => Unit
  | .addMemorySpace _ _ _ => EfiStatus
  | .setMemorySpaceAttributes _ _ _ => EfiStatus
  | .allocateZeroPool => Bool
  | .install => EfiStatus

/-- A function of a driver. -/
abbrev DriverM := Program DriverCall DriverCall.Result

def mmioRead32 (address : UINT64) : DriverM UINT32 := Program.perform (DriverCall.mmioRead32 address)

def mmioWrite32 (address : UINT64) (value : UINT32) : DriverM Unit :=
  Program.perform (DriverCall.mmioWrite32 address value)

def addMemorySpace (baseAddress length capabilities : UINT64) : DriverM EfiStatus :=
  Program.perform (DriverCall.addMemorySpace baseAddress length capabilities)

def setMemorySpaceAttributes (baseAddress length attributes : UINT64) : DriverM EfiStatus :=
  Program.perform (DriverCall.setMemorySpaceAttributes baseAddress length attributes)

def allocateZeroPool : DriverM Bool := Program.perform DriverCall.allocateZeroPool

def install : DriverM EfiStatus := Program.perform DriverCall.install

end UemuPkg
