/-
  UemuPkg.Drivers.SimpleFbDxe.Model

  The framebuffer driver of SimpleFbDxe.c: the node it reads, the checks on the
  geometry, and the entry point as a program over the services that it calls.
  Assertions are compiled out, as in a release build.
-/

import UemuPkg.Library.UemuFdtLib.MmioRange

namespace UemuPkg

open Effects (Program)

def FB_BYTES_PER_PIXEL : UINT32 := 4

def MAX_UINT32 : UINT32 := 0xFFFFFFFF

-- ============================================================================
-- GetSimpleFrameBuffer
-- ============================================================================

/-- The output parameters of `GetSimpleFrameBuffer`. -/
structure FrameBuffer where
  base : UINT64
  size : UINT64
  width : UINT32
  height : UINT32
  stride : UINT32
  deriving DecidableEq

/-- How `GetSimpleFrameBuffer` ends. -/
inductive FrameBufferLookup where
  | failed (status : EfiStatus)
  | found (fb : FrameBuffer)
  | dividedByZero
  deriving DecidableEq

/-- The status that `GetSimpleFrameBuffer` returns; none after a division by 0. -/
def FrameBufferLookup.status : FrameBufferLookup → Option EfiStatus
  | .failed status => some status
  | .found _ => some .success
  | .dividedByZero => none

/-- The 64-bit division of C. -/
def divU64 (dividend divisor : UINT64) : Option UINT64 :=
  if divisor = 0 then none else some (dividend / divisor)

/-- `MultU64x32` -/
def multU64x32 (multiplicand : UINT64) (multiplier : UINT32) : UINT64 :=
  multiplicand * multiplier.setWidth 64

/-- The disjunction of checks before the size check; `||` stops at the first one that
    holds, so the division comes after all that is on its left. -/
def geometryRejected (fb : FrameBuffer) (format : List UINT8) : Option Bool :=
  if fb.width = 0 ∨ fb.height = 0 ∨
      fb.stride % FB_BYTES_PER_PIXEL ≠ 0 ∨
      fb.width > MAX_UINT32 / FB_BYTES_PER_PIXEL ∨
      fb.stride < fb.width * FB_BYTES_PER_PIXEL then
    some true
  else
    (divU64 MAX_UINT64 (fb.stride.setWidth 64)).map fun maxHeight =>
      decide (fb.height.setWidth 64 > maxHeight) ||
        !asciiStrEq format (ascii ['x', '8', 'r', '8', 'g', '8', 'b', '8'] ++ [0])

/-- The checks of `GetSimpleFrameBuffer` on what it has read. -/
def checkFrameBuffer (fb : FrameBuffer) (format : List UINT8) : FrameBufferLookup :=
  match geometryRejected fb format with
  | none => .dividedByZero
  | some true => .failed .compromisedData
  | some false =>
    let requiredSize := multU64x32 (fb.stride.setWidth 64) fb.height
    if requiredSize > fb.size ∨ requiredSize > MAX_UINTN ∨ fb.base > MAX_UINTN then
      .failed .badBufferSize
    else
      .found fb

/-- What `GetSimpleFrameBuffer` reads from the node: the framebuffer and its format. -/
def readFrameBuffer (fdt : Fdt) (node : Int) : Except EfiStatus (FrameBuffer × List UINT8) := do
  let (base, size) ← readReg fdt node 0
  let width ← readU32 fdt node "width"
  let height ← readU32 fdt node "height"
  let stride ← readU32 fdt node "stride"
  let format ← readString fdt node "format"
  return ({ base, size, width, height, stride }, format)

/-- `GetSimpleFrameBuffer` -/
def getSimpleFrameBuffer (hob : Option FdtHob) (fuel : Nat) : Option FrameBufferLookup :=
  match uemuFdtGet hob (some none) with
  | (.success, some (some fdt)) =>
    (uemuFdtFindCompatibleNode (some fdt) (some "simple-framebuffer") (some 0) fuel).map
      fun found =>
        match found with
        | (.success, some node) =>
          match readFrameBuffer fdt.toFdt node with
          | .error status => .failed status
          | .ok (fb, format) => checkFrameBuffer fb format
        | (status, _) => .failed status
  | (status, _) => some (.failed status)

-- ============================================================================
-- SimpleFbDxeInitialize
-- ============================================================================

inductive PixelFormat where
  | redGreenBlueReserved8BitPerColor
  | blueGreenRedReserved8BitPerColor
  | bitMask
  | bltOnly
  deriving DecidableEq

/-- `EFI_GRAPHICS_OUTPUT_MODE_INFORMATION` -/
structure ModeInformation where
  version : UINT32
  horizontalResolution : UINT32
  verticalResolution : UINT32
  pixelFormat : PixelFormat
  pixelsPerScanLine : UINT32

/-- `sizeof (EFI_GRAPHICS_OUTPUT_MODE_INFORMATION)` -/
def sizeOfModeInformation : UINTN := 36

/-- `EFI_GRAPHICS_OUTPUT_PROTOCOL_MODE` -/
structure DisplayMode where
  maxMode : UINT32
  mode : UINT32
  info : ModeInformation
  sizeOfInfo : UINTN
  frameBufferBase : UINT64
  frameBufferSize : UINTN

def EFI_MEMORY_WT : UINT64 := 0x0000000000000004

/-- The result of `FrameBufferBltConfigure`: `RETURN_BUFFER_TOO_SMALL` with the size that
    it asks for, or another status. -/
inductive BltConfigureResult where
  | bufferTooSmall (configureSize : UINTN)
  | status (status : EfiStatus)

inductive DisplayCall where
  /-- `gBS->AllocatePool` for the mode or its information, and the `ZeroMem` of what it
      grants. -/
  | allocateMode
  /-- `gBS->LocateProtocol` for the CPU protocol; `false` is a NULL interface. -/
  | locateCpuArch
  /-- `CpuArch->SetMemoryAttributes` -/
  | setMemoryAttributes (baseAddress length attributes : UINT64)
  /-- `FrameBufferBltConfigure`; `configured` says whether it is given a buffer. -/
  | frameBufferBltConfigure (frameBuffer : UINT64) (info : ModeInformation) (configured : Bool)
  /-- `AllocatePool`; `false` is a NULL result. -/
  | allocatePool (allocationSize : UINTN)
  /-- `ZeroMem` -/
  | zeroMem (buffer : UINT64) (length : UINTN)
  /-- `gBS->InstallMultipleProtocolInterfaces` for the display with this mode -/
  | installDisplay (mode : DisplayMode)

def DisplayCall.Result : DisplayCall → Type
  | .allocateMode => EfiStatus
  | .locateCpuArch => EfiStatus × Bool
  | .setMemoryAttributes _ _ _ => EfiStatus
  | .frameBufferBltConfigure _ _ _ => BltConfigureResult
  | .allocatePool _ => Bool
  | .zeroMem _ _ => Unit
  | .installDisplay _ => EfiStatus

abbrev DisplayM := Program DisplayCall DisplayCall.Result

def allocateMode : DisplayM EfiStatus := Program.perform DisplayCall.allocateMode

def locateCpuArch : DisplayM (EfiStatus × Bool) := Program.perform DisplayCall.locateCpuArch

def setMemoryAttributes (baseAddress length attributes : UINT64) : DisplayM EfiStatus :=
  Program.perform (DisplayCall.setMemoryAttributes baseAddress length attributes)

def frameBufferBltConfigure (frameBuffer : UINT64) (info : ModeInformation)
    (configured : Bool) : DisplayM BltConfigureResult :=
  Program.perform (DisplayCall.frameBufferBltConfigure frameBuffer info configured)

def allocatePool (allocationSize : UINTN) : DisplayM Bool :=
  Program.perform (DisplayCall.allocatePool allocationSize)

def zeroMem (buffer : UINT64) (length : UINTN) : DisplayM Unit :=
  Program.perform (DisplayCall.zeroMem buffer length)

def installDisplay (mode : DisplayMode) : DisplayM EfiStatus :=
  Program.perform (DisplayCall.installDisplay mode)

/-- `SetSimpleFrameBufferMemoryAttributes` -/
def setSimpleFrameBufferMemoryAttributes (base size : UINT64) : DisplayM EfiStatus :=
  match alignRange base size with
  | .error status => return status
  | .ok (alignedBase, alignedSize) => do
    let (status, located) ← locateCpuArch
    if status.isError ∨ ¬ located then
      return status
    else
      setMemoryAttributes alignedBase alignedSize (EFI_MEMORY_WT ||| EFI_MEMORY_XP)

/-- The mode that `SimpleFbDxeInitialize` sets. -/
def FrameBuffer.displayMode (fb : FrameBuffer) : DisplayMode where
  maxMode := 1
  mode := 0
  info := {
    version := 0
    horizontalResolution := fb.width
    verticalResolution := fb.height
    pixelFormat := .blueGreenRedReserved8BitPerColor
    pixelsPerScanLine := fb.stride / FB_BYTES_PER_PIXEL }
  sizeOfInfo := sizeOfModeInformation
  frameBufferBase := fb.base
  frameBufferSize := multU64x32 (fb.stride.setWidth 64) fb.height

/-- The two calls of `FrameBufferBltConfigure`; the second is made with a buffer of the
    size that the first asks for. -/
def configureBlt (mode : DisplayMode) (configured : Bool) : DisplayM Unit := do
  match ← frameBufferBltConfigure mode.frameBufferBase mode.info configured with
  | .status _ => return ()
  | .bufferTooSmall configureSize =>
    if ← allocatePool configureSize then
      let _ ← frameBufferBltConfigure mode.frameBufferBase mode.info true
      return ()
    else
      return ()

/-- `SimpleFbDxeInitialize` once the mode and its information are allocated. -/
def publishDisplay (fb : FrameBuffer) (configured : Bool) : DisplayM EfiStatus := do
  let mode := fb.displayMode
  let _ ← setSimpleFrameBufferMemoryAttributes fb.base fb.size
  configureBlt mode configured
  zeroMem fb.base mode.frameBufferSize
  installDisplay mode

/-- `gBS->AllocatePool` where the pointer is NULL, and what follows if it is granted. -/
def allocateModeIfNull (isNull : Bool) (next : DisplayM EfiStatus) : DisplayM EfiStatus := do
  if isNull then
    let status ← allocateMode
    if status.isError then
      return status
    else
      next
  else
    next

/-- What the variables of the driver hold before `SimpleFbDxeInitialize`: which of
    `mDisplay.Mode`, `mDisplay.Mode->Info` and `mFrameBufferBltLibConfigure` are NULL. -/
structure DisplayVariables where
  modeIsNull : Bool
  infoIsNull : Bool
  configureIsNull : Bool

/-- `SimpleFbDxeInitialize` after `GetSimpleFrameBuffer`.  The information of a new mode
    is NULL. -/
def startDisplay (before : DisplayVariables) (fb : FrameBuffer) : DisplayM EfiStatus :=
  allocateModeIfNull before.modeIsNull <|
    allocateModeIfNull (before.modeIsNull || before.infoIsNull) <|
      publishDisplay fb (!before.configureIsNull)

/-- `SimpleFbDxeInitialize`; there is no program after a division by 0. -/
def simpleFbDxeInitialize (before : DisplayVariables) (hob : Option FdtHob) (fuel : Nat) :
    Option (DisplayM EfiStatus) :=
  match getSimpleFrameBuffer hob fuel with
  | some (.found fb) => some (startDisplay before fb)
  | some (.failed status) => some (.ret status)
  | some .dividedByZero => none
  | none => none

end UemuPkg
