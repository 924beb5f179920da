/-
  UemuPkg.Drivers.PlatformSmbiosDxe.RunRecords

  What the records of a whole run of the driver say together: to which records the
  handles in them point, and which of their strings a reader gets back.  The local
  variable `SmbiosHandle` serves for two handles, and a record that is not added leaves
  in it what was there before.
-/

import UemuPkg.Drivers.PlatformSmbiosDxe.EntryPoint

namespace UemuPkg

open Effects (Program Protocol)

-- ============================================================================
-- References
-- ============================================================================

/-- A call of `LogSmbiosData` and the handle of the record that it has added. -/
abbrev LogEntry := Effects.Entry PlatformTable fun _ => Option UINT16

/-- The record of the template has been added, and got the handle. -/
def Added (past : List LogEntry) (handle : UINT16) (table : PlatformTable) : Prop :=
  ⟨table, some handle⟩ ∈ past

/-- The handle is that of the memory array or, if that has not been added, of the
    enclosure. -/
def NamesMemoryArray (past : List LogEntry) (handle : UINT16) : Prop :=
  (∀ h, Added past h .mPhyMemArrayInfoType16 → handle = h) ∧
    ((∀ h, ¬ Added past h .mPhyMemArrayInfoType16) →
      ∀ h, Added past h .mEnclosureInfoType3 → handle = h)

theorem added_append_iff {past : List LogEntry} {entry : LogEntry} {handle : UINT16}
    {table : PlatformTable} (hne : entry.call ≠ table) :
    Added (past ++ [entry]) handle table ↔ Added past handle table := by
  rw [Added, List.mem_append, List.mem_singleton]
  refine or_iff_left ?_
  rintro rfl
  exact hne rfl

/-- The templates behind Type 16, with the handle that is in the variable by then. -/
structure PlatformTable.Behind (handle : UINT16) (table : PlatformTable) : Prop where
  ne_enclosure : table ≠ .mEnclosureInfoType3
  ne_array : table ≠ .mPhyMemArrayInfoType16
  ne_board : ∀ chassisHandle, table ≠ .mBoardInfoType2 chassisHandle
  handle_eq : ∀ h ∈ table.memoryArrayHandle, h = handle

theorem NamesMemoryArray.append {past : List LogEntry} {handle : UINT16} {entry : LogEntry}
    (h : NamesMemoryArray past handle) (hbehind : entry.call.Behind handle) :
    NamesMemoryArray (past ++ [entry]) handle := by
  simp only [NamesMemoryArray, added_append_iff hbehind.ne_array,
    added_append_iff hbehind.ne_enclosure]
  exact h

variable {cpuClient : FdtClientNodes} {memoryClient : FdtClientProtocol} {freqMHz : UINT32}
  {smbiosHandle : UINT16} {fuel : Nat}

/-- The templates whose strings all contain characters.  The asset tag, a string of the
    board and of the enclosure, is empty. -/
def PlatformTable.Readable (versionName : List UINT8) (biosDate : AsciiString) :
    PlatformTable → Prop
  | .mBIOSInfoType0 => biosDate.chars ≠ []
  | .mSysInfoType1 => (cString versionName).chars ≠ []
  | .mEnclosureInfoType3 => False
  | .mBoardInfoType2 _ => False
  | .mProcessorInfoType4 record => (cString record.processorVersion).chars ≠ []
  | _ => True

variable {layout : PlatformTable → SmbiosTemplate} {versionName : List UINT8}
  {biosDate : AsciiString}

theorem readable_iff (hlayout : ∀ table, (layout table).length ≠ 1) (table : PlatformTable) :
    smbiosDecode (layout table).length
        (smbiosRecord (layout table) (some (table.strings versionName biosDate)))
      = some (packChars (table.strings versionName biosDate), [])
      ↔ table.Readable versionName biosDate := by
  have hasset : mChassisAssetTag.chars = [] := rfl
  have hversion : mBiosVersion.chars ≠ [] := by decide
  have hproduct : mSysInfoProductName.chars ≠ [] := by decide
  have hserial : mSysInfoSerial.chars ≠ [] := by decide
  have hsku : mSysInfoSKU.chars ≠ [] := by decide
  have hfamily : (asciiLiteral "Virtual Machine").chars ≠ [] := by decide
  have hmanufacturer : (asciiLiteral "Uotan").chars ≠ [] := by decide
  have hpart : (asciiLiteral "Virtual RISC-V 64-bit Processor").chars ≠ [] := by decide
  have hbank : (asciiLiteral "BANK 0").chars ≠ [] := by decide
  have hoem : (asciiLiteral "https://github.com/Uotan-Dev/uotan_riscv_emu-ng").chars ≠ [] := by
    decide
  have hlength (table) : ¬ (layout table).length = 1#8 := hlayout table
  rw [smbiosDecode_smbiosRecord_iff]
  cases table <;>
    simp [PlatformTable.strings, PlatformTable.Readable, packChars, hlength, hasset, hversion,
      hproduct, hserial, hsku, hfamily, hmanufacturer, hpart, hbank, hoem]

/-- What is given to `Smbios->Add` is the record of the template. -/
def BuiltFrom (layout : PlatformTable → SmbiosTemplate) (versionName : List UINT8)
    (biosDate : AsciiString) (table : PlatformTable) (call : SmbiosCall) : Prop :=
  ∀ record bytes, call = .add record bytes →
    bytes = smbiosRecord (layout table) (some (table.strings versionName biosDate))

theorem PlatformTable.log_calls (table : PlatformTable) :
    (table.log layout versionName biosDate).Calls
      (BuiltFrom layout versionName biosDate table) := by
  refine .bind (.bind (Program.calls_perform nofun) fun (status : EfiStatus) => ?_) fun _ =>
    Program.calls_ret _
  split
  · exact Program.calls_ret _
  · refine .bind (Program.calls_perform nofun) fun (granted : Option UINT64) => ?_
    cases granted with
    | none => exact Program.calls_ret _
    | some record =>
        refine .bind (Program.calls_perform ?_) fun _ =>
          .bind (Program.calls_perform nofun) fun _ => Program.calls_ret _
        rintro _ bytes ⟨⟩
        rfl

/-- In every run of the driver, up to any point, what `Smbios->Add` is given is the record
    of the template that the driver is logging, with its strings, and the strings are read
    back in full exactly if the template is readable: neither the board nor the enclosure,
    and not one whose version string is empty. -/
theorem platformSmbiosCalls_readable_iff (layout : PlatformTable → SmbiosTemplate)
    (hlayout : ∀ table, (layout table).length ≠ 1) (hob : Option FdtHob)
    (biosDate : AsciiString) (cpuClient : FdtClientNodes) (memoryClient : FdtClientProtocol)
    (freqMHz : UINT32) (smbiosHandle : UINT16) (fuel : Nat)
    {before since : List (Effects.Entry SmbiosCall SmbiosCall.Result)}
    {entry : Effects.Entry SmbiosCall SmbiosCall.Result} {rest : SmbiosM (Option EfiStatus)}
    (h : (platformSmbiosCalls layout hob biosDate cpuClient memoryClient freqMHz smbiosHandle
      fuel).Reaches (before ++ entry :: since) rest) {record : UINT64} {bytes : List UINT8}
    (hadd : entry.call = .add record bytes) :
    ∃ (past : List LogEntry) (table : PlatformTable),
      let versionName := updateEmulatorVersion hob mSysInfoVersionName
      let strings := table.strings versionName biosDate
      (platformSmbiosDriverEntryPoint cpuClient memoryClient freqMHz smbiosHandle fuel).CarriesOut
          (PlatformTable.log layout versionName biosDate) before entry past table ∧
        bytes = smbiosRecord (layout table) (some strings) ∧
        (smbiosDecode (layout table).length bytes = some (packChars strings, [])
          ↔ table.Readable versionName biosDate) := by
  obtain ⟨past, table, hlogs⟩ := Program.Reaches.carriesOut h
  have hbytes := hlogs.calls table.log_calls record bytes hadd
  exact ⟨past, table, hlogs, hbytes, hbytes ▸ readable_iff hlayout table⟩

/-- The first record that the driver adds, on a platform whose services accept everything. -/
theorem platformSmbiosCalls_readable_iff_bios :
    ∃ (before since : List (Effects.Entry SmbiosCall SmbiosCall.Result))
      (entry : Effects.Entry SmbiosCall SmbiosCall.Result) (past : List LogEntry)
      (table : PlatformTable),
      (platformSmbiosCalls (fun _ => mBoardInfoType2) none mBiosVersion noCpuClient
          noMemoryClient 0 0 1).Reaches (before ++ entry :: since) (.ret (some .success)) ∧
        before.length = 2 ∧
        entry.call = .add 0x1000
          (smbiosRecord mBoardInfoType2 (some [mBiosVendor, mBiosVersion, mBiosVersion])) ∧
        let versionName := updateEmulatorVersion none mSysInfoVersionName
        let strings := table.strings versionName mBiosVersion
        (platformSmbiosDriverEntryPoint noCpuClient noMemoryClient 0 0 1).CarriesOut
            (PlatformTable.log (fun _ => mBoardInfoType2) versionName mBiosVersion) before entry
            past table ∧
          smbiosRecord mBoardInfoType2 (some [mBiosVendor, mBiosVersion, mBiosVersion])
            = smbiosRecord mBoardInfoType2 (some strings) ∧
          (smbiosDecode mBoardInfoType2.length
              (smbiosRecord mBoardInfoType2 (some [mBiosVendor, mBiosVersion, mBiosVersion]))
            = some (packChars strings, []) ↔ table.Readable versionName mBiosVersion) := by
  have h : (platformSmbiosCalls (fun _ => mBoardInfoType2) none mBiosVersion noCpuClient
      noMemoryClient 0 0 1).Reaches ([_, _] ++ _ :: _) (.ret (some .success)) :=
    Program.reaches_record (acceptingServices.answer 0x1000) _ ()
  have hlayout (_ : PlatformTable) : mBoardInfoType2.length ≠ 1 := by decide
  obtain ⟨past, table, hreadable⟩ := platformSmbiosCalls_readable_iff (fun _ => mBoardInfoType2)
    hlayout none mBiosVersion noCpuClient noMemoryClient 0 0 1 h rfl
  exact ⟨_, _, _, past, table, h, rfl, rfl, hreadable⟩

end UemuPkg
