/-
  UemuPkg.Library.PlatformSecLib.TempRam

  The layout of the temporary RAM, computed four times on the way from
  `_ModuleEntryPoint` to `SecPEIlessStartup`.  The entry code sets `sp` below the
  handoff page and passes the size without that page; `SecStartupPlatform` takes
  the page off once more, so the declared stack ends one page below `sp`.
-/

import Mathlib.Order.CompletePartialOrder
import Mathlib.Order.Interval.Set.Basic
import Mathlib.Order.Interval.Set.Disjoint
import UemuPkg.Base

namespace UemuPkg

/-- `SEC_HANDOFF_DATA_RESERVE_SIZE` -/
def SEC_HANDOFF_DATA_RESERVE_SIZE : UINT32 := 0x1000

/-- The fixed PCDs that place the temporary RAM. -/
structure TempRamPcds where
  pcdOvmfSecPeiTempRamBase : UINT32
  pcdOvmfSecPeiTempRamSize : UINT32

-- ============================================================================
-- SecEntry.S
-- ============================================================================

/-- The registers `_ModuleEntryPoint` sets before it calls `SecStartupPlatform`;
    `a0` and `a1` keep the hart and the device tree of the previous stage. -/
structure SecEntryRegs where
  s0 : UINT64
  sp : UINT64
  a0 : UINT64
  a1 : UINT64
  a2 : UINT64
  a3 : UINT64
  a4 : UINT64
  deriving DecidableEq

/-- `_ModuleEntryPoint` -/
def moduleEntryPoint (pcds : TempRamPcds) (a0 a1 : UINT64) : SecEntryRegs :=
  let a2 := pcds.pcdOvmfSecPeiTempRamBase.setWidth 64
  let a3 := pcds.pcdOvmfSecPeiTempRamSize.setWidth 64
  let a4 := SEC_HANDOFF_DATA_RESERVE_SIZE.setWidth 64
  let a3 := a3 - a4
  { s0 := 0, sp := a2 + a3, a0, a1, a2, a3, a4 }

-- ============================================================================
-- PlatformSecLib.c
-- ============================================================================

/-- `RISCV_SEC_HANDOFF_DATA` -/
structure SecHandoffData where
  bootHartId : UINTN
  fdtPointer : UINT64
  deriving DecidableEq

/-- `GetSecHobData`: the sum is one of `UINT32` values. -/
def getSecHobData (pcds : TempRamPcds) : UINT64 :=
  (pcds.pcdOvmfSecPeiTempRamBase + pcds.pcdOvmfSecPeiTempRamSize
    - SEC_HANDOFF_DATA_RESERVE_SIZE).setWidth 64

/-- What `SecPEIlessStartup` declares: the arguments of `HobConstructor` and of
    `BuildStackHob`. -/
structure SecMemoryHobs where
  memoryBegin : UINT64
  memoryLength : UINTN
  freeMemoryBottom : UINT64
  freeMemoryTop : UINT64
  secStackBase : UINTN
  secStackSize : UINTN
  deriving DecidableEq

/-- `SecPEIlessStartup`, as far as it places the memory. -/
def secPEIlessStartup (sizeOfRam tempRamBase : UINT32) : SecMemoryHobs :=
  let secStackSize : UINTN := 0x4000
  let secStackBase := (tempRamBase + sizeOfRam).setWidth 64 - secStackSize
  { memoryBegin := tempRamBase.setWidth 64
    memoryLength := sizeOfRam.setWidth 64
    freeMemoryBottom := tempRamBase.setWidth 64
    freeMemoryTop := secStackBase
    secStackBase
    secStackSize }

/-- `SecStartupPlatform`: the address and contents of the handoff data, and what
    the PEI-less start declares. -/
def secStartupPlatform (pcds : TempRamPcds) (bootHartId : UINTN) (deviceTreeAddress : UINT64)
    (tempRamBase tempRamSize : UINT32) : (UINT64 × SecHandoffData) × SecMemoryHobs :=
  let secHobList := getSecHobData pcds
  let tempRamSize := tempRamSize - SEC_HANDOFF_DATA_RESERVE_SIZE
  ((secHobList, { bootHartId, fdtPointer := deviceTreeAddress }),
    secPEIlessStartup tempRamSize tempRamBase)

/-- The start of SEC: the initial `sp`, the handoff data and the declared memory.
    `SecStartupPlatform` receives its two `UINT32` arguments in `a2` and `a3`. -/
structure SecStart where
  sp : UINT64
  handoff : UINT64 × SecHandoffData
  hobs : SecMemoryHobs
  deriving DecidableEq

def secStart (pcds : TempRamPcds) (a0 a1 : UINT64) : SecStart :=
  let regs := moduleEntryPoint pcds a0 a1
  let started := secStartupPlatform pcds regs.a0 regs.a1 (regs.a2.setWidth 32) (regs.a3.setWidth 32)
  { sp := regs.sp, handoff := started.1, hobs := started.2 }

-- ============================================================================
-- The intended layout
-- ============================================================================

/-- The temporary RAM as its users take it to be, on addresses as numbers: the free
    range, the declared stack and the handoff page lie side by side, and the stack
    in use ends where the handoff page starts. -/
structure StackInUseDeclared (pcds : TempRamPcds) (start : SecStart) : Prop where
  stack_end : start.hobs.secStackBase.toNat + start.hobs.secStackSize.toNat = start.sp.toNat
  handoff_start : start.handoff.1 = start.sp
  free_disjoint_stack :
    Disjoint (Set.Ico start.hobs.freeMemoryBottom.toNat start.hobs.secStackBase.toNat)
      (Set.Ico start.hobs.secStackBase.toNat
        (start.hobs.secStackBase.toNat + start.hobs.secStackSize.toNat))
  free_disjoint_handoff :
    Disjoint (Set.Ico start.hobs.freeMemoryBottom.toNat start.hobs.secStackBase.toNat)
      (Set.Ico start.handoff.1.toNat
        (start.handoff.1.toNat + SEC_HANDOFF_DATA_RESERVE_SIZE.toNat))
  stack_disjoint_handoff :
    Disjoint (Set.Ico start.hobs.secStackBase.toNat
        (start.hobs.secStackBase.toNat + start.hobs.secStackSize.toNat))
      (Set.Ico start.handoff.1.toNat
        (start.handoff.1.toNat + SEC_HANDOFF_DATA_RESERVE_SIZE.toNat))
  fills :
    Set.Ico start.hobs.freeMemoryBottom.toNat start.hobs.secStackBase.toNat ∪
        Set.Ico start.hobs.secStackBase.toNat
          (start.hobs.secStackBase.toNat + start.hobs.secStackSize.toNat) ∪
        Set.Ico start.handoff.1.toNat
          (start.handoff.1.toNat + SEC_HANDOFF_DATA_RESERVE_SIZE.toNat)
      = Set.Ico pcds.pcdOvmfSecPeiTempRamBase.toNat
          (pcds.pcdOvmfSecPeiTempRamBase.toNat + pcds.pcdOvmfSecPeiTempRamSize.toNat)

-- ============================================================================
-- The addresses
-- ============================================================================

variable {pcds : TempRamPcds}

theorem secStart_sp (a0 a1 : UINT64)
    (hsize : 0x8000 ≤ pcds.pcdOvmfSecPeiTempRamSize.toNat) :
    (secStart pcds a0 a1).sp.toNat
      = pcds.pcdOvmfSecPeiTempRamBase.toNat + pcds.pcdOvmfSecPeiTempRamSize.toNat - 0x1000 := by
  simp only [secStart, moduleEntryPoint, SEC_HANDOFF_DATA_RESERVE_SIZE]
  bv_omega

theorem secStart_handoff (a0 a1 : UINT64)
    (hsize : 0x8000 ≤ pcds.pcdOvmfSecPeiTempRamSize.toNat)
    (hend : pcds.pcdOvmfSecPeiTempRamBase.toNat + pcds.pcdOvmfSecPeiTempRamSize.toNat < 2 ^ 32) :
    (secStart pcds a0 a1).handoff.1.toNat
      = pcds.pcdOvmfSecPeiTempRamBase.toNat + pcds.pcdOvmfSecPeiTempRamSize.toNat - 0x1000 := by
  simp only [secStart, secStartupPlatform, getSecHobData, SEC_HANDOFF_DATA_RESERVE_SIZE]
  bv_omega

/-- The declared stack lies below two reserves of 4 KiB. -/
theorem secStart_stackBase (a0 a1 : UINT64)
    (hsize : 0x8000 ≤ pcds.pcdOvmfSecPeiTempRamSize.toNat)
    (hend : pcds.pcdOvmfSecPeiTempRamBase.toNat + pcds.pcdOvmfSecPeiTempRamSize.toNat < 2 ^ 32) :
    (secStart pcds a0 a1).hobs.secStackBase.toNat
      = pcds.pcdOvmfSecPeiTempRamBase.toNat + pcds.pcdOvmfSecPeiTempRamSize.toNat - 0x6000 := by
  simp only [secStart, secStartupPlatform, secPEIlessStartup, moduleEntryPoint,
    SEC_HANDOFF_DATA_RESERVE_SIZE]
  bv_omega

/-- The declared stack always ends 4 KiB below the initial `sp`, where the handoff
    page starts: for no placement of the temporary RAM, page-aligned or not, is the
    stack in use the one declared. -/
theorem secStack_never_declared (pcds : TempRamPcds) (a0 a1 : UINT64)
    (hsize : 0x8000 ≤ pcds.pcdOvmfSecPeiTempRamSize.toNat)
    (hend : pcds.pcdOvmfSecPeiTempRamBase.toNat + pcds.pcdOvmfSecPeiTempRamSize.toNat < 2 ^ 32) :
    (secStart pcds a0 a1).hobs.secStackBase.toNat + (secStart pcds a0 a1).hobs.secStackSize.toNat
        + SEC_HANDOFF_DATA_RESERVE_SIZE.toNat = (secStart pcds a0 a1).sp.toNat ∧
      (secStart pcds a0 a1).handoff.1 = (secStart pcds a0 a1).sp ∧
      ¬ StackInUseDeclared pcds (secStart pcds a0 a1) := by
  have hsp := secStart_sp a0 a1 hsize
  have hhandoff := secStart_handoff a0 a1 hsize hend
  have hstack := secStart_stackBase a0 a1 hsize hend
  have hstackSize : (secStart pcds a0 a1).hobs.secStackSize.toNat = 0x4000 := rfl
  have hreserve : SEC_HANDOFF_DATA_RESERVE_SIZE.toNat = 0x1000 := rfl
  refine ⟨by omega, BitVec.eq_of_toNat_eq (hhandoff.trans hsp.symm), fun hdeclared => ?_⟩
  have hstackEnd := hdeclared.stack_end
  omega

theorem secStack_never_declared_uemu :
    ¬ StackInUseDeclared ⟨0x82000000, 0x02000000⟩ (secStart ⟨0x82000000, 0x02000000⟩ 0 0) :=
  (secStack_never_declared ⟨0x82000000, 0x02000000⟩ 0 0 (by decide) (by decide)).2.2

/-- On the PCDs of the package the stack is declared up to `0x83FFE000`, and the
    first frame lies above it. -/
theorem secStack_below_sp :
    (secStart ⟨0x82000000, 0x02000000⟩ 0 0).hobs.secStackBase = 0x83FFA000 ∧
      (secStart ⟨0x82000000, 0x02000000⟩ 0 0).sp = 0x83FFF000 ∧
      ¬ StackInUseDeclared ⟨0x82000000, 0x02000000⟩ (secStart ⟨0x82000000, 0x02000000⟩ 0 0) := by
  refine ⟨by decide, by decide, fun hdeclared => ?_⟩
  exact absurd hdeclared.stack_end (by decide)

end UemuPkg
