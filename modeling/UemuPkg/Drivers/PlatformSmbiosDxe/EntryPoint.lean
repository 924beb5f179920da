/-
  UemuPkg.Drivers.PlatformSmbiosDxe.EntryPoint

  The entry point of the SMBIOS driver.  On the upper level it is a program over the
  calls of `LogSmbiosData`, each with the template as it is patched by then; a call
  returns the handle of the record if the record was added.  On the lower level each of
  these calls is `LogSmbiosData` over the services.  The layout of the templates is in a
  header outside the package and a parameter here.
-/

import UemuPkg.Drivers.PlatformSmbiosDxe.CpuInfo
import UemuPkg.Drivers.PlatformSmbiosDxe.EmulatorVersion
import UemuPkg.Drivers.PlatformSmbiosDxe.MemoryRecords
import UemuPkg.Drivers.PlatformSmbiosDxe.Record
import UemuPkg.Generic.Custody

namespace UemuPkg

open Effects (Program Protocol Custody)

-- ============================================================================
-- The templates
-- ============================================================================

/-- A template at a call of `LogSmbiosData`, with what has been patched into it. -/
inductive PlatformTable where
  | mBIOSInfoType0
  | mSysInfoType1
  | mEnclosureInfoType3
  | mBoardInfoType2 (chassisHandle : UINT16)
  | mOemStringsType11
  | mPhyMemArrayInfoType16
  /-- With the contents of `mProcessorVersion` -/
  | mProcessorInfoType4 (record : CpuInfoRecord)
  | mMemArrMapInfoType19 (table : SmbiosTableType19)
  | mMemDevInfoType17 (memoryArrayHandle : UINT16) (table : SmbiosTableType17)
  | mBootInfoType32

/-- A template of `LogMemoryInfo`, after the entry point has set the array handle. -/
def SmbiosTable.platformTable (memoryArrayHandle : UINT16) : SmbiosTable → PlatformTable
  | .type17 table => .mMemDevInfoType17 memoryArrayHandle table
  | .type19 table => .mMemArrMapInfoType19 table

/-- The array handle in a template, if it has one. -/
def PlatformTable.memoryArrayHandle : PlatformTable → Option UINT16
  | .mMemArrMapInfoType19 table => some table.memoryArrayHandle
  | .mMemDevInfoType17 memoryArrayHandle _ => some memoryArrayHandle
  | _ => none

/-- A string literal of the source -/
def asciiLiteral (s : String) : AsciiString := cString (ascii s.toList)

-- ============================================================================
-- The strings
-- ============================================================================

def mBiosVendor : AsciiString := asciiLiteral "Uotan"
def mBiosVersion : AsciiString := asciiLiteral "edk2-uemu"
def mSysInfoManufName : AsciiString := asciiLiteral "Uotan"
def mSysInfoProductName : AsciiString := asciiLiteral "Uotan RISC-V Emulator"
def mSysInfoSerial : AsciiString := asciiLiteral "Not Specified"
def mSysInfoSKU : AsciiString := asciiLiteral "Not Specified"
/-- An array of zeros -/
def mChassisAssetTag : AsciiString := cString []

/-- The string pack of a template.  `versionName` is the array `mSysInfoVersionName`, and
    `biosDate` what `__DATE__` was. -/
def PlatformTable.strings (versionName : List UINT8) (biosDate : AsciiString) :
    PlatformTable → List AsciiString
  | .mBIOSInfoType0 => [mBiosVendor, mBiosVersion, biosDate]
  | .mSysInfoType1 =>
    [mSysInfoManufName, mSysInfoProductName, cString versionName, mSysInfoSerial, mSysInfoSKU,
      asciiLiteral "Virtual Machine"]
  | .mEnclosureInfoType3 =>
    [mSysInfoManufName, mSysInfoProductName, mSysInfoSerial, mChassisAssetTag]
  | .mBoardInfoType2 _ =>
    [mSysInfoManufName, mSysInfoProductName, cString versionName, mSysInfoSerial,
      mChassisAssetTag, asciiLiteral "Virtual Machine"]
  | .mOemStringsType11 =>
    [asciiLiteral "https://github.com/Uotan-Dev/uotan_riscv_emu-ng"]
  | .mPhyMemArrayInfoType16 => []
  | .mProcessorInfoType4 record =>
    [asciiLiteral "CPU0", asciiLiteral "Uotan", cString record.processorVersion,
      asciiLiteral "Virtual RISC-V 64-bit Processor"]
  | .mMemArrMapInfoType19 _ => []
  | .mMemDevInfoType17 _ _ =>
    [asciiLiteral "DIMM 0", asciiLiteral "BANK 0",
      asciiLiteral "Uotan"]
  | .mBootInfoType32 => []

-- ============================================================================
-- The entry point over LogSmbiosData
-- ============================================================================

/-- A call of `LogSmbiosData` returns the handle of the record, if it has been added. -/
abbrev LogM := Program PlatformTable fun _ => Option UINT16

def logTable (table : PlatformTable) : LogM (Option UINT16) := Program.perform table

/-- The calls in `LogMemoryInfo`. -/
def logTables (memoryArrayHandle : UINT16) : List SmbiosTable → LogM Unit
  | [] => return ()
  | table :: tables => do
    let _ ← logTable (table.platformTable memoryArrayHandle)
    logTables memoryArrayHandle tables

/-- `PlatformSmbiosDriverEntryPoint`; `none` where a walk over the device tree does not
    end.  `smbiosHandle` is what the local variable holds at the start: nothing
    initialises it, and a record that is not added leaves it as it is. -/
def platformSmbiosDriverEntryPoint (cpuClient : FdtClientNodes) (memoryClient : FdtClientProtocol)
    (freqMHz : UINT32) (smbiosHandle : UINT16) (fuel : Nat) : LogM (Option EfiStatus) := do
  let _ ← logTable .mBIOSInfoType0
  let _ ← logTable .mSysInfoType1
  let logged ← logTable .mEnclosureInfoType3
  let smbiosHandle := logged.getD smbiosHandle
  let _ ← logTable (.mBoardInfoType2 smbiosHandle)
  let _ ← logTable .mOemStringsType11
  let logged ← logTable .mPhyMemArrayInfoType16
  let smbiosHandle := logged.getD smbiosHandle
  match logCpuInfo cpuClient freqMHz fuel with
  | none => return none
  | some record =>
  let _ ← logTable (.mProcessorInfoType4 record)
  match logMemoryInfo memoryClient mMemDevInfoType17
      { mMemArrMapInfoType19 with memoryArrayHandle := smbiosHandle } fuel with
  | none => return none
  | some info =>
  logTables smbiosHandle info.logged
  let _ ← logTable .mBootInfoType32
  return some .success

-- ============================================================================
-- LogSmbiosData over the services
-- ============================================================================

/-- The services that `LogSmbiosData` calls. -/
inductive SmbiosCall where
  /-- `gBS->LocateProtocol`, for the SMBIOS protocol -/
  | locateProtocol
  /-- `AllocateZeroPool` -/
  | allocateZeroPool (size : UINTN)
  /-- `Smbios->Add`, for the record at a pointer -/
  | add (record : UINT64) (bytes : List UINT8)
  /-- `FreePool` -/
  | freePool (record : UINT64)

def SmbiosCall.Result : SmbiosCall → Type
  | .locateProtocol => EfiStatus
  | .allocateZeroPool _ => Option UINT64
  | .add _ _ => EfiStatus × UINT16
  | .freePool _ => Unit

abbrev SmbiosM := Program SmbiosCall SmbiosCall.Result

def locateSmbiosProtocol : SmbiosM EfiStatus := Program.perform SmbiosCall.locateProtocol

def allocateRecord (size : UINTN) : SmbiosM (Option UINT64) :=
  Program.perform (SmbiosCall.allocateZeroPool size)

def addRecord (record : UINT64) (bytes : List UINT8) : SmbiosM (EfiStatus × UINT16) :=
  Program.perform (SmbiosCall.add record bytes)

def freeRecord (record : UINT64) : SmbiosM Unit := Program.perform (SmbiosCall.freePool record)

/-- The end of `LogSmbiosData`, on the pool that was granted. -/
def addAllocated (bytes : List UINT8) : Option UINT64 → SmbiosM (EfiStatus × Option UINT16)
  | none => return (.outOfResources, none)
  | some record => do
    let (status, smbiosHandle) ← addRecord record bytes
    freeRecord record
    return (status, if status = .success then some smbiosHandle else none)

/-- `LogSmbiosData`: the status, and the handle where `*DataSmbiosHandle` is stored. -/
def logSmbiosDataCalls (template : SmbiosTemplate) (stringPack : Option (List AsciiString)) :
    SmbiosM (EfiStatus × Option UINT16) := do
  let status ← locateSmbiosProtocol
  if status.isError then
    return (status, none)
  else
    addAllocated (smbiosRecord template stringPack)
      (← allocateRecord (smbiosRecordSize template stringPack))

/-- The services as `logSmbiosData` has them, with the buffer at `record`. -/
def SmbiosServices.answer (services : SmbiosServices) (record : UINT64) (_ : Unit) :
    (call : SmbiosCall) → call.Result × Unit
  | .locateProtocol => (services.locateProtocol, ())
  | .allocateZeroPool size => (if services.allocateZeroPool size then some record else none, ())
  | .add _ bytes => (services.add bytes, ())
  | .freePool _ => ((), ())

/-- The calls compute the status and the handle of `logSmbiosData`. -/
theorem logSmbiosDataCalls_run (services : SmbiosServices) (record : UINT64)
    (template : SmbiosTemplate) (stringPack : Option (List AsciiString)) (handle : UINT16) :
    let result := ((logSmbiosDataCalls template stringPack).run (services.answer record) ()).1
    let logged := logSmbiosData services template stringPack (some handle)
    result.1 = logged.status ∧ some (result.2.getD handle) = logged.dataSmbiosHandle := by
  obtain ⟨locateProtocol, allocateZeroPool, add⟩ := services
  cases locateProtocol with
  | success =>
      let services : SmbiosServices := ⟨.success, allocateZeroPool, add⟩
      have hrun : (logSmbiosDataCalls template stringPack).run (services.answer record) ()
          = (addAllocated (smbiosRecord template stringPack)
              (if allocateZeroPool (smbiosRecordSize template stringPack) then some record
                else none)).run (services.answer record) () := rfl
      have hadded : (addAllocated (smbiosRecord template stringPack) (some record)).run
            (services.answer record) ()
          = (((add (smbiosRecord template stringPack)).1,
              if (add (smbiosRecord template stringPack)).1 = .success then
                some (add (smbiosRecord template stringPack)).2 else none), ()) := rfl
      dsimp only
      rw [hrun]
      cases hgranted : allocateZeroPool (smbiosRecordSize template stringPack) with
      | false =>
          simp only [logSmbiosData, hgranted]
          exact ⟨rfl, rfl⟩
      | true =>
          rw [if_pos rfl, hadded]
          simp only [logSmbiosData, hgranted]
          refine ⟨rfl, ?_⟩
          by_cases hstatus : (add (smbiosRecord template stringPack)).1 = .success
          · simp [hstatus, EfiStatus.isError]
          · simp [hstatus, EfiStatus.isError]
  | _ => exact ⟨rfl, rfl⟩

variable {layout : PlatformTable → SmbiosTemplate} {versionName : List UINT8}
  {biosDate : AsciiString} {cpuClient : FdtClientNodes} {memoryClient : FdtClientProtocol}
  {freqMHz : UINT32} {smbiosHandle : UINT16} {fuel : Nat}

/-- `LogSmbiosData` on a template and its strings. -/
def PlatformTable.log (layout : PlatformTable → SmbiosTemplate) (versionName : List UINT8)
    (biosDate : AsciiString) (table : PlatformTable) : SmbiosM (Option UINT16) := do
  let (_, handle) ← logSmbiosDataCalls (layout table) (some (table.strings versionName biosDate))
  return handle

/-- The entry point over the services. -/
def platformSmbiosCalls (layout : PlatformTable → SmbiosTemplate) (hob : Option FdtHob)
    (biosDate : AsciiString) (cpuClient : FdtClientNodes) (memoryClient : FdtClientProtocol)
    (freqMHz : UINT32) (smbiosHandle : UINT16) (fuel : Nat) : SmbiosM (Option EfiStatus) :=
  (platformSmbiosDriverEntryPoint cpuClient memoryClient freqMHz smbiosHandle fuel).expand
    (PlatformTable.log layout (updateEmulatorVersion hob mSysInfoVersionName) biosDate)

-- ============================================================================
-- The buffers of the records
-- ============================================================================

/-- The pool buffers, which `Smbios->Add` reads. -/
def recordCustody : Custody SmbiosCall SmbiosCall.Result UINT64 where
  acquires
    | .allocateZeroPool _, granted => granted
    | _, _ => none
  releases
    | .freePool record => some record
    | _ => none
  uses
    | .add record _ => some record
    | _ => none

theorem addAllocated_keeps (bytes : List UINT8) (granted : Option UINT64) :
    (addAllocated bytes granted).Keeps recordCustody.stack (fun _ held => held = [])
      granted.toList := by
  cases granted with
  | none => rfl
  | some record =>
      refine Custody.keeps_use rfl rfl List.mem_cons_self fun added => ?_
      exact Custody.keeps_release rfl rfl (fun _ => rfl) fun _ => rfl

/-- A call of `LogSmbiosData` gives back the buffer that it gets. -/
theorem PlatformTable.log_keeps (table : PlatformTable) :
    (table.log layout versionName biosDate).Keeps recordCustody.stack (fun _ held => held = [])
      [] := by
  refine (Program.keeps_bind _ _).mpr ?_
  refine Custody.keeps_acquire rfl rfl fun (status : EfiStatus) => ?_
  split
  · rfl
  · refine Custody.keeps_acquire rfl rfl fun (granted : Option UINT64) => ?_
    show Program.Keeps _ _ _ (granted.toList ++ [])
    rw [List.append_nil]
    exact addAllocated_keeps _ granted

/-- In every run of the driver, up to any point, whatever the services answer and however
    many records the device tree leads to: a buffer is given to `Smbios->Add` only while it
    is allocated, freed at most as often as it was allocated, and the one allocated last
    first.  When the driver returns, every buffer has been freed. -/
theorem platformSmbiosCalls_frees_records (layout : PlatformTable → SmbiosTemplate)
    (hob : Option FdtHob) (biosDate : AsciiString) (cpuClient : FdtClientNodes)
    (memoryClient : FdtClientProtocol) (freqMHz : UINT32) (smbiosHandle : UINT16) (fuel : Nat)
    {trace : List (Effects.Entry SmbiosCall SmbiosCall.Result)}
    {rest : SmbiosM (Option EfiStatus)}
    (h : (platformSmbiosCalls layout hob biosDate cpuClient memoryClient freqMHz smbiosHandle
      fuel).Reaches trace rest) :
    recordCustody.stack.Accepts [] trace ∧
    (∀ record, recordCustody.released record trace ≤ recordCustody.acquired record trace) ∧
    ∀ status, rest = .ret status →
      ∀ record, recordCustody.released record trace = recordCustody.acquired record trace := by
  have hlog (table : PlatformTable) (held : List UINT64) (hheld : held = []) :
      (table.log layout (updateEmulatorVersion hob mSysInfoVersionName) biosDate).Keeps
        recordCustody.stack (fun _ held => held = []) held := by
    subst hheld
    exact table.log_keeps
  have hkeeps := Program.Keeps.expand (· = []) hlog
    (platformSmbiosDriverEntryPoint cpuClient memoryClient freqMHz smbiosHandle fuel) rfl
  refine ⟨hkeeps.accepts h, Custody.released_le hkeeps h, ?_⟩
  rintro status rfl
  exact Custody.released_eq hkeeps h fun _ hheld => hheld

/-- Device trees without harts and without memory. -/
def noCpuClient : FdtClientNodes where
  findCompatibleNode _ := .error .notFound
  findNextCompatibleNode _ _ := .error .notFound
  getNodeProperty _ _ := .error .notFound

def noMemoryClient : FdtClientProtocol where
  findMemoryNodeReg := .error .notFound
  findNextMemoryNodeReg _ := .error .notFound

theorem platformSmbiosCalls_frees_records_accepted :
    ∃ trace, (platformSmbiosCalls (fun _ => mBoardInfoType2) none mBiosVersion noCpuClient
        noMemoryClient 0 0 1).Reaches trace (.ret (some .success)) ∧
      ∀ record, recordCustody.released record trace = recordCustody.acquired record trace := by
  have h : (platformSmbiosCalls (fun _ => mBoardInfoType2) none mBiosVersion noCpuClient
      noMemoryClient 0 0 1).Reaches _ (.ret (some .success)) :=
    Program.reaches_record (acceptingServices.answer 0x1000) _ ()
  exact ⟨_, h, (platformSmbiosCalls_frees_records _ _ _ _ _ _ _ _ h).2.2 _ rfl⟩

end UemuPkg
