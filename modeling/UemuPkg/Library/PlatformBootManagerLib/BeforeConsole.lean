/-
  UemuPkg.Library.PlatformBootManagerLib.BeforeConsole

  `PlatformBootManagerBeforeConsole` as a program over the boot services and the boot
  manager library: it ends the DXE phase, connects the PCI root bridges, the displays
  and the Virtio entropy sources, and fills the console variables.
-/

import UemuPkg.Drivers.GoldfishEventsDxe.Model
import UemuPkg.Generic.Protocol
import UemuPkg.Library.PlatformBootManagerLib.BootOptions

namespace UemuPkg

open Effects (Program)

-- ============================================================================
-- Calls
-- ============================================================================

/-- The protocols by whose GUID handles are looked for. -/
inductive BdsProtocol where
  /-- `gEfiPciRootBridgeIoProtocolGuid` -/
  | pciRootBridgeIo
  /-- `gEfiPciIoProtocolGuid` -/
  | pciIo
  /-- `gEfiGraphicsOutputProtocolGuid` -/
  | graphicsOutput
  /-- `gVirtioDeviceProtocolGuid` -/
  | virtioDevice
  deriving DecidableEq

inductive EventGroup where
  /-- `gEfiEndOfDxeEventGroupGuid` -/
  | endOfDxe
  /-- `gRootBridgesConnectedEventGroupGuid` -/
  | rootBridgesConnected
  deriving DecidableEq

/-- `CONSOLE_TYPE` -/
inductive ConsoleType where
  | conIn
  | conOut
  | errOut
  deriving DecidableEq

inductive BdsCall where
  /-- `EfiEventGroupSignal` -/
  | eventGroupSignal (group : EventGroup)
  | configureTpmPlatformHierarchy
  /-- `EfiBootManagerDispatchDeferredImages` -/
  | dispatchDeferredImages
  /-- `gBS->LocateHandleBuffer`, `ByProtocol` -/
  | locateHandleBuffer (protocol : BdsProtocol)
  | freePool (buffer : UINT64)
  | devicePathFromHandle (handle : UINT64)
  /-- `ConvertDevicePathToText`, which takes NULL -/
  | convertDevicePathToText (devicePath : Option DevicePath)
  /-- `gBS->HandleProtocol` -/
  | handleProtocol (handle : UINT64) (protocol : BdsProtocol)
  /-- `PciIo->Pci.Read` of `count` values of `width` bits -/
  | pciRead (pciIo : UINT64) (width : Nat) (offset : UINT32) (count : Nat)
  /-- The field `VirtIo->SubSystemDeviceId` -/
  | subSystemDeviceId (virtIo : UINT64)
  /-- `gBS->ConnectController`, not recursive, with any driver and for all children -/
  | connectController (handle : UINT64)
  /-- `EfiBootManagerUpdateConsoleVariable`, which adds the path -/
  | updateConsoleVariable (console : ConsoleType) (devicePath : DevicePath)
  /-- `EfiBootManagerRegisterContinueKeyOption` -/
  | registerContinueKeyOption (key : EfiInputKey)
  /-- `EfiBootManagerGetBootManagerMenu`: the status and `BootOption.OptionNumber` -/
  | getBootManagerMenu
  /-- `EfiBootManagerAddKeyOptionVariable`, for one key -/
  | addKeyOptionVariable (optionNumber : UINT16) (key : EfiInputKey)

def BdsCall.Result : BdsCall → Type
  | .eventGroupSignal _ => Unit
  | .configureTpmPlatformHierarchy => Unit
  | .dispatchDeferredImages => EfiStatus
  -- the buffer and what it holds
  | .locateHandleBuffer _ => Except EfiStatus (UINT64 × List UINT64)
  | .freePool _ => Unit
  | .devicePathFromHandle _ => Option DevicePath
  | .convertDevicePathToText _ => Option UINT64
  | .handleProtocol _ _ => Except EfiStatus UINT64
  | .pciRead _ width _ count => Except EfiStatus (Fin count → BitVec width)
  | .subSystemDeviceId _ => UINT32
  | .connectController _ => EfiStatus
  | .updateConsoleVariable _ _ => EfiStatus
  | .registerContinueKeyOption _ => EfiStatus
  | .getBootManagerMenu => EfiStatus × UINTN
  | .addKeyOptionVariable _ _ => EfiStatus

abbrev BdsM := Program BdsCall BdsCall.Result

def eventGroupSignal (group : EventGroup) : BdsM Unit :=
  Program.perform (BdsCall.eventGroupSignal group)

def configureTpmPlatformHierarchy : BdsM Unit :=
  Program.perform BdsCall.configureTpmPlatformHierarchy

def dispatchDeferredImages : BdsM EfiStatus := Program.perform BdsCall.dispatchDeferredImages

def locateHandleBuffer (protocol : BdsProtocol) : BdsM (Except EfiStatus (UINT64 × List UINT64)) :=
  Program.perform (BdsCall.locateHandleBuffer protocol)

def bdsFreePool (buffer : UINT64) : BdsM Unit := Program.perform (BdsCall.freePool buffer)

def devicePathFromHandle (handle : UINT64) : BdsM (Option DevicePath) :=
  Program.perform (BdsCall.devicePathFromHandle handle)

def convertDevicePathToText (devicePath : Option DevicePath) : BdsM (Option UINT64) :=
  Program.perform (BdsCall.convertDevicePathToText devicePath)

def handleProtocol (handle : UINT64) (protocol : BdsProtocol) : BdsM (Except EfiStatus UINT64) :=
  Program.perform (BdsCall.handleProtocol handle protocol)

def pciRead (pciIo : UINT64) (width : Nat) (offset : UINT32) (count : Nat) :
    BdsM (Except EfiStatus (Fin count → BitVec width)) :=
  Program.perform (BdsCall.pciRead pciIo width offset count)

def subSystemDeviceId (virtIo : UINT64) : BdsM UINT32 :=
  Program.perform (BdsCall.subSystemDeviceId virtIo)

def connectController (handle : UINT64) : BdsM EfiStatus :=
  Program.perform (BdsCall.connectController handle)

def updateConsoleVariable (console : ConsoleType) (devicePath : DevicePath) : BdsM EfiStatus :=
  Program.perform (BdsCall.updateConsoleVariable console devicePath)

def registerContinueKeyOption (key : EfiInputKey) : BdsM EfiStatus :=
  Program.perform (BdsCall.registerContinueKeyOption key)

def getBootManagerMenu : BdsM (EfiStatus × UINTN) := Program.perform BdsCall.getBootManagerMenu

def addKeyOptionVariable (optionNumber : UINT16) (key : EfiInputKey) : BdsM EfiStatus :=
  Program.perform (BdsCall.addKeyOptionVariable optionNumber key)

-- ============================================================================
-- FilterAndProcess
-- ============================================================================

/-- Whether the handle clears the filter; without a filter all do. -/
def clearsFilter (filter : Option (UINT64 → BdsM Bool)) (handle : UINT64) : BdsM Bool :=
  match filter with
  | none => return true
  | some filter => filter handle

def processIf (clears : Bool) (process : BdsM Unit) : BdsM Unit :=
  if clears then process else return ()

/-- The text is freed unless it is the fallback. -/
def freeText : Option UINT64 → BdsM Unit
  | none => return ()
  | some text => bdsFreePool text

/-- The body of the loop of `FilterAndProcess`. -/
def processHandle (filter : Option (UINT64 → BdsM Bool)) (process : UINT64 → BdsM Unit)
    (handle : UINT64) : BdsM Unit := do
  let text ← convertDevicePathToText (← devicePathFromHandle handle)
  let clears ← clearsFilter filter handle
  processIf clears (process handle)
  freeText text

def processHandles (filter : Option (UINT64 → BdsM Bool)) (process : UINT64 → BdsM Unit) :
    List UINT64 → BdsM Unit
  | [] => return ()
  | handle :: handles => do
    processHandle filter process handle
    processHandles filter process handles

def filterAndProcess (protocol : BdsProtocol) (filter : Option (UINT64 → BdsM Bool))
    (process : UINT64 → BdsM Unit) : BdsM Unit := do
  match ← locateHandleBuffer protocol with
  | .error _ => return ()
  | .ok (buffer, handles) =>
    processHandles filter process handles
    bdsFreePool buffer

-- ============================================================================
-- Filters and callbacks
-- ============================================================================

def PCI_CLASS_DISPLAY : UINT32 := 0x03

/-- `IS_PCI_DISPLAY`: `ClassCode[2]`, the last byte of the third word. -/
def IS_PCI_DISPLAY (pci : Fin 16 → UINT32) : Bool := pci 2 >>> 24 == PCI_CLASS_DISPLAY

def isPciDisplay (handle : UINT64) : BdsM Bool := do
  match ← handleProtocol handle .pciIo with
  | .error _ => return false
  | .ok pciIo =>
    match ← pciRead pciIo 32 0 16 with
    | .error _ => return false
    | .ok pci => return IS_PCI_DISPLAY pci

def VIRTIO_VENDOR_ID : UINT16 := 0x1AF4
def VIRTIO_SUBSYSTEM_ENTROPY_SOURCE : UINT16 := 4

def PCI_VENDOR_ID_OFFSET : UINT32 := 0x00
def PCI_DEVICE_ID_OFFSET : UINT32 := 0x02
def PCI_REVISION_ID_OFFSET : UINT32 := 0x08
def PCI_SUBSYSTEM_ID_OFFSET : UINT32 := 0x2E

def isVirtioRng (handle : UINT64) : BdsM Bool := do
  match ← handleProtocol handle .virtioDevice with
  | .error _ => return false
  | .ok virtIo =>
    return (← subSystemDeviceId virtIo) == VIRTIO_SUBSYSTEM_ENTROPY_SOURCE.setWidth 32

/-- `Virtio10`, or `none` where `IsVirtioPciRng` returns at once. -/
def virtio10 (deviceId : UINT16) (revisionId : UINT8) : Option Bool :=
  if deviceId = 0x1040 + VIRTIO_SUBSYSTEM_ENTROPY_SOURCE ∧ 0x01 ≤ revisionId then
    some true
  else if 0x1000 ≤ deviceId ∧ deviceId ≤ 0x103F ∧ revisionId = 0x00 then
    some false
  else
    none

/-- The check of `SubsystemId` as dictated by `Virtio10`. -/
def checkSubsystemId (virtio10 : Bool) (subsystemId : UINT16) : Bool :=
  if virtio10 ∧ 0x40 ≤ subsystemId then
    true
  else if ¬ virtio10 ∧ subsystemId = VIRTIO_SUBSYSTEM_ENTROPY_SOURCE then
    true
  else
    false

/-- The one value of a read. -/
def single {width : Nat} (values : Fin 1 → BitVec width) : BitVec width := values 0

/-- The end of `IsVirtioPciRng`, once it knows `Virtio10`. -/
def isEntropySubsystem (pciIo : UINT64) : Option Bool → BdsM Bool
  | none => return false
  | some virtio10 => do
    match ← pciRead pciIo 16 PCI_SUBSYSTEM_ID_OFFSET 1 with
    | .error _ => return false
    | .ok subsystemId => return checkSubsystemId virtio10 (single subsystemId)

def isVirtioPciRng (handle : UINT64) : BdsM Bool := do
  match ← handleProtocol handle .pciIo with
  | .error _ => return false
  | .ok pciIo =>
    match ← pciRead pciIo 16 PCI_VENDOR_ID_OFFSET 1 with
    | .error _ => return false
    | .ok vendorId =>
      if single vendorId ≠ VIRTIO_VENDOR_ID then
        return false
      else
        match ← pciRead pciIo 16 PCI_DEVICE_ID_OFFSET 1 with
        | .error _ => return false
        | .ok deviceId =>
          match ← pciRead pciIo 8 PCI_REVISION_ID_OFFSET 1 with
          | .error _ => return false
          | .ok revisionId => isEntropySubsystem pciIo (virtio10 (single deviceId) (single revisionId))

/-- `Connect` -/
def connect (handle : UINT64) : BdsM Unit := do
  let _ ← connectController handle
  return ()

/-- The end of `AddOutput`, on a device path. -/
def addOutputPath (devicePath : DevicePath) : BdsM Unit := do
  let status ← updateConsoleVariable .conOut devicePath
  if status.isError then
    return ()
  else
    let _ ← updateConsoleVariable .errOut devicePath
    return ()

def addOutput (handle : UINT64) : BdsM Unit := do
  match ← devicePathFromHandle handle with
  | none => return ()
  | some devicePath => addOutputPath devicePath

-- ============================================================================
-- PlatformBootManagerBeforeConsole
-- ============================================================================

def SCAN_F2 : UINT16 := 0x000C

def platformRegisterOptionsAndKeys : BdsM Unit := do
  let _ ← registerContinueKeyOption ⟨SCAN_NULL, CHAR_CARRIAGE_RETURN⟩
  let (_, optionNumber) ← getBootManagerMenu
  let _ ← addKeyOptionVariable (optionNumber.setWidth 16) ⟨SCAN_F2, CHAR_NULL⟩
  let _ ← addKeyOptionVariable (optionNumber.setWidth 16) ⟨SCAN_ESC, CHAR_NULL⟩
  return ()

def MESSAGING_DEVICE_PATH : UINT8 := 0x03
def HW_VENDOR_DP : UINT8 := 0x04
def MSG_VENDOR_DP : UINT8 := 0x0A
def MSG_UART_DP : UINT8 := 0x0E
def MSG_USB_CLASS_DP : UINT8 := 0x0F

/-- What the serial console takes from outside the package: GUIDs and the defaults of the
    UART. -/
structure SerialConsole where
  EDKII_SERIAL_PORT_LIB_VENDOR_GUID : List UINT8
  gEfiTtyTermGuid : List UINT8
  uartDefaultBaudRate : UINT64
  uartDefaultDataBits : UINT8
  uartDefaultParity : UINT8
  uartDefaultStopBits : UINT8

/-- Any vendor and product; HID, boot, keyboard. -/
def mUsbKeyboard : DevicePath :=
  [⟨MESSAGING_DEVICE_PATH, MSG_USB_CLASS_DP, [0xFF, 0xFF, 0xFF, 0xFF, 3, 1, 1]⟩]

/-- The GUID `4E6B0DA1-8C9A-4F3E-A7D2-E5B1F9C6D8A3` -/
def mGoldfishKeyboard : DevicePath :=
  [⟨HARDWARE_DEVICE_PATH, HW_VENDOR_DP,
    [0xA1, 0x0D, 0x6B, 0x4E, 0x9A, 0x8C, 0x3E, 0x4F,
      0xA7, 0xD2, 0xE5, 0xB1, 0xF9, 0xC6, 0xD8, 0xA3]⟩]

/-- `UART_DEVICE_PATH` behind its header: the reserved word, the baud rate and the three
    bytes. -/
def SerialConsole.uart (serial : SerialConsole) : List UINT8 :=
  let baudRate := (List.range 8).map fun i => (serial.uartDefaultBaudRate >>> (8 * i)).setWidth 8
  List.replicate 4 0 ++ baudRate ++
    [serial.uartDefaultDataBits, serial.uartDefaultParity, serial.uartDefaultStopBits]

/-- The path with the terminal type that the function has filled in. -/
def mSerialConsole (serial : SerialConsole) : DevicePath :=
  [⟨HARDWARE_DEVICE_PATH, HW_VENDOR_DP, serial.EDKII_SERIAL_PORT_LIB_VENDOR_GUID⟩,
    ⟨MESSAGING_DEVICE_PATH, MSG_UART_DP, serial.uart⟩,
    ⟨MESSAGING_DEVICE_PATH, MSG_VENDOR_DP, serial.gEfiTtyTermGuid⟩]

/-- The entries that are always added to the console variables. -/
def addConsoles (serial : SerialConsole) : BdsM Unit := do
  let _ ← updateConsoleVariable .conIn mUsbKeyboard
  let _ ← updateConsoleVariable .conIn mGoldfishKeyboard
  let _ ← updateConsoleVariable .conIn (mSerialConsole serial)
  let _ ← updateConsoleVariable .conOut (mSerialConsole serial)
  let _ ← updateConsoleVariable .errOut (mSerialConsole serial)
  return ()

/-- The end of `PlatformBootManagerBeforeConsole`, once the root bridges are connected. -/
def afterRootBridges (serial : SerialConsole) : BdsM Unit := do
  filterAndProcess .pciIo (some isPciDisplay) connect
  filterAndProcess .graphicsOutput none addOutput
  addConsoles serial
  platformRegisterOptionsAndKeys
  filterAndProcess .virtioDevice (some isVirtioRng) connect
  filterAndProcess .pciIo (some isVirtioPciRng) connect

/-- The start of `PlatformBootManagerBeforeConsole`. -/
def endDxePhase : BdsM Unit := do
  eventGroupSignal .endOfDxe
  configureTpmPlatformHierarchy
  let _ ← dispatchDeferredImages
  return ()

def platformBootManagerBeforeConsole (serial : SerialConsole) : BdsM Unit := do
  endDxePhase
  filterAndProcess .pciRootBridgeIo none connect
  eventGroupSignal .rootBridgesConnected
  afterRootBridges serial

end UemuPkg
