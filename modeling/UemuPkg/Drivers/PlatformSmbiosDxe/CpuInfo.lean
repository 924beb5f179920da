/-
  UemuPkg.Drivers.PlatformSmbiosDxe.CpuInfo

  `LogCpuInfo`: the harts are counted through the FDT client, the frequency is estimated
  from two readings of the time and cycle counters around a sort, and both go into the
  Type 4 record.  A division by zero, which the code does not rule out, has no result.
-/

import UemuPkg.Drivers.PlatformSmbiosDxe.MemoryInfo
import UemuPkg.Drivers.PlatformSmbiosDxe.QuickSort
import UemuPkg.Library.FdtLib

namespace UemuPkg

open FuelLoop (Returns Turn loop)

-- ============================================================================
-- The frequency
-- ============================================================================

/-- `GetTimeBaseFrequency`, on the blob that the FDT HOB points to, if there is one. -/
def getTimeBaseFrequency (hob : Option FdtBlob) : UINT64 :=
  match hob with
  | none => 0
  | some fdtBase =>
    if fdtBase.checkHeader ≠ 0 then
      0
    else
      let node := fdtBase.subnodeOffset 0 "cpus"
      if node < 0 then
        0
      else
        match fdtBase.getProp node "timebase-frequency" with
        | none => 0
        | some prop =>
          if prop.bytes.length ≠ 4 then
            0
          else
            (swapBytes32 (loadUint32 (fun i => prop.bytes.getD i 0) 0)).setWidth 64

def BENCH_SORT_SIZE : Nat := 4096

/-- The loop that fills `SortArray` from `idx` on, for the turns that remain. -/
def fillSortArray : Nat → UINT64 → Int → (Int → INT32) → (Int → INT32)
  | 0, _, _, sortArray => sortArray
  | turns + 1, lcg, idx, sortArray =>
    let lcg := lcg * 1103515245 + 12345
    fillSortArray turns lcg (idx + 1)
      (Function.update sortArray idx (Int32.ofBitVec ((lcg >>> 16).setWidth 32)))

/-- Whether the loop that verifies the array finds a pair out of order. -/
def sortVerificationFails (sortArray : Int → INT32) : Bool :=
  (List.range' 1 (BENCH_SORT_SIZE - 1)).any fun idx =>
    sortArray (idx - 1 : Int) > sortArray idx

/-- What `RiscVReadTimer` and `rdcycle` read before and after the sort. -/
structure CounterReads where
  startTime : UINT64
  startCycle : UINT64
  endCycle : UINT64
  endTime : UINT64

def CounterReads.deltaTime (reads : CounterReads) : UINT64 := reads.endTime - reads.startTime

def CounterReads.deltaCycle (reads : CounterReads) : UINT64 := reads.endCycle - reads.startCycle

/-- `DivU64x64Remainder`, without the remainder; there is no result for a divisor of 0. -/
def divU64x64Remainder (dividend divisor : UINT64) : Option UINT64 :=
  if divisor = 0 then none else some (dividend / divisor)

/-- `EstimateCpuFrequencyMHz`, from the differences on. -/
def cpuFrequencyMHz (timeBaseFreq deltaTime deltaCycle : UINT64) : Option UINT32 :=
  if deltaTime = 0 ∨ deltaCycle = 0 then
    some 0
  else do
    let freqMHz ← divU64x64Remainder (deltaCycle * timeBaseFreq) (deltaTime * 1000000)
    if freqMHz < 10 ∨ freqMHz > 10000 then
      return 0
    else
      return freqMHz.setWidth 32

/-- `EstimateCpuFrequencyMHz`.  `stack` is what lies where `SortArray` is placed.  The inner
    `none` is the division by zero. -/
def estimateCpuFrequencyMHz (hob : Option FdtBlob) (stack : Int → INT32) (reads : CounterReads)
    (fuel : Nat) : Option (Option UINT32) :=
  let timeBaseFreq := getTimeBaseFrequency hob
  if timeBaseFreq = 0 then
    some (some 0)
  else do
    let sortArray := fillSortArray BENCH_SORT_SIZE 1 0 stack
    let sorted ← quickSortInt32 fuel 0 (BENCH_SORT_SIZE - 1) ⟨sortArray, []⟩
    if sortVerificationFails sorted.array then
      return some 0
    else
      return cpuFrequencyMHz timeBaseFreq reads.deltaTime reads.deltaCycle

-- ============================================================================
-- The Type 4 record
-- ============================================================================

/-- The fields of `SMBIOS_TABLE_TYPE4` that `LogCpuInfo` patches, and the two that extend
    its counts. -/
structure SmbiosTableType4 where
  maxSpeed : UINT16
  currentSpeed : UINT16
  coreCount : UINT8
  enabledCoreCount : UINT8
  coreCount2 : UINT16
  enabledCoreCount2 : UINT16
  deriving DecidableEq

/-- `mProcessorInfoType4` -/
def mProcessorInfoType4 : SmbiosTableType4 where
  maxSpeed := 0
  currentSpeed := 0
  coreCount := 1
  enabledCoreCount := 1
  coreCount2 := 0
  enabledCoreCount2 := 0

/-- `mProcessorVersion`, an array of 128 characters. -/
def mProcessorVersion : List UINT8 :=
  ascii "rv64imafdc".toList ++ List.replicate 118 0

/-- The members of `FDT_CLIENT_PROTOCOL` that `LogCpuInfo` calls. -/
structure FdtClientNodes where
  findCompatibleNode : String → Except EfiStatus Int
  findNextCompatibleNode : String → Int → Except EfiStatus Int
  /-- `Prop`, the memory from there on or NULL, and `PropSize`. -/
  getNodeProperty : Int → String → Except EfiStatus (Option (Nat → UINT8) × UINT32)

/-- `AsciiStrnCpyS` into an array that is longer than `length`: the characters up to the
    NUL or `length` of them, and a NUL. -/
def asciiStrnCpyS (destination : List UINT8) (source : Nat → UINT8) (length : Nat) : List UINT8 :=
  let chars := ((List.range length).map source).takeWhile (· ≠ 0)
  chars ++ [0] ++ destination.drop (chars.length + 1)

/-- `mProcessorVersion` after the read of `riscv,isa`. -/
def copyProcessorVersion (processorVersion : List UINT8)
    (isa : Except EfiStatus (Option (Nat → UINT8) × UINT32)) : List UINT8 :=
  match isa with
  | .ok (some prop, propSize) =>
    if propSize > 0 then
      asciiStrnCpyS processorVersion prop
        (if propSize < 128 then propSize.toNat else 128 - 1)
    else
      processorVersion
  | _ => processorVersion

/-- The loop `while (!EFI_ERROR (Status))`: the final `Count` and `mProcessorVersion`.  The
    status of the property read is overwritten by the search for the next node. -/
def cpuNodesLoop (fdtClient : FdtClientNodes) :
    Nat → Except EfiStatus Int × UINT32 × List UINT8 → Option (UINT32 × List UINT8) :=
  loop fun _ (found, count, processorVersion) =>
    match found with
    | .error _ => some (.leave (count, processorVersion))
    | .ok node =>
      let count := count + 1
      let processorVersion :=
        if count = 1 then
          copyProcessorVersion processorVersion (fdtClient.getNodeProperty node "riscv,isa")
        else
          processorVersion
      some (.again
        (fdtClient.findNextCompatibleNode "riscv" node, count, processorVersion))

/-- The counts, as `LogCpuInfo` stores them. -/
def SmbiosTableType4.storeCount (table : SmbiosTableType4) (count : UINT32) : SmbiosTableType4 :=
  if count ≠ 0 then
    { table with coreCount := count.setWidth 8, enabledCoreCount := count.setWidth 8 }
  else
    table

/-- The frequency, as `LogCpuInfo` stores it. -/
def SmbiosTableType4.storeSpeed (table : SmbiosTableType4) (freqMHz : UINT32) : SmbiosTableType4 :=
  if freqMHz ≠ 0 then
    { table with maxSpeed := freqMHz.setWidth 16, currentSpeed := freqMHz.setWidth 16 }
  else
    table

/-- What `LogCpuInfo` gives to `LogSmbiosData`: the patched template and the string that
    `ProcessorVersion` names. -/
structure CpuInfoRecord where
  type4 : SmbiosTableType4
  processorVersion : List UINT8
  deriving DecidableEq

/-- `LogCpuInfo`; `freqMHz` is what `EstimateCpuFrequencyMHz` returns to it. -/
def logCpuInfo (fdtClient : FdtClientNodes) (freqMHz : UINT32) (fuel : Nat) :
    Option CpuInfoRecord := do
  let (count, processorVersion) ← cpuNodesLoop fdtClient fuel
    (fdtClient.findCompatibleNode "riscv", 0, mProcessorVersion)
  return {
    type4 := (mProcessorInfoType4.storeCount count).storeSpeed freqMHz
    processorVersion }

-- ============================================================================
-- The version string
-- ============================================================================

/-- An array of 128 characters with a NUL in it. -/
def IsVersionString (version : List UINT8) : Prop := version.length = 128 ∧ 0 ∈ version

theorem mProcessorVersion_isVersionString : IsVersionString mProcessorVersion :=
  ⟨rfl, by decide⟩

variable {version : List UINT8}

/-- The copy stays in the array. -/
theorem asciiStrnCpyS_length (source : Nat → UINT8) {length : Nat} (h : length < version.length) :
    (asciiStrnCpyS version source length).length = version.length := by
  have hchars := ((List.range length).map source).takeWhile_sublist (· ≠ 0) |>.length_le
  rw [List.length_map, List.length_range] at hchars
  simp only [asciiStrnCpyS, List.length_append, List.length_singleton, List.length_drop]
  omega

/-- No property, whatever its size, leaves `mProcessorVersion` without a NUL. -/
theorem copyProcessorVersion_isVersionString (h : IsVersionString version)
    (isa : Except EfiStatus (Option (Nat → UINT8) × UINT32)) :
    IsVersionString (copyProcessorVersion version isa) := by
  have hcopy : ∀ (source : Nat → UINT8) (length : Nat), length < 128 →
      IsVersionString (asciiStrnCpyS version source length) := by
    intro source length hlt
    constructor
    · rw [asciiStrnCpyS_length source (h.1 ▸ hlt), h.1]
    · simp [asciiStrnCpyS]
  unfold copyProcessorVersion
  split
  · rename_i prop propSize
    split
    · split
      · rename_i hshort
        exact hcopy prop _ (BitVec.lt_def.mp hshort)
      · exact hcopy prop _ (by decide)
    · exact h
  · exact h

/-- So the string that the Type 4 record names always ends in its array. -/
theorem logCpuInfo_isVersionString {fdtClient : FdtClientNodes} {freqMHz : UINT32} {fuel : Nat}
    {record : CpuInfoRecord} (hlog : logCpuInfo fdtClient freqMHz fuel = some record) :
    IsVersionString record.processorVersion := by
  obtain ⟨counted, hcounted, hrecord⟩ := Option.bind_eq_some_iff.mp hlog
  obtain rfl := Option.some.inj hrecord
  apply FuelLoop.loop_post (fun st => IsVersionString st.2.2) (fun r => IsVersionString r.2)
    ?_ ?_ ?_ hcounted
  · rintro _ ⟨found, count, version⟩ next h hturn
    cases found with
    | error status => cases hturn
    | ok node =>
        obtain rfl := Turn.again.inj (Option.some.inj hturn)
        show IsVersionString (if count + 1 = 1 then _ else version)
        split
        · exact copyProcessorVersion_isVersionString h _
        · exact h
  · rintro _ ⟨found, count, version⟩ r h hturn
    cases found with
    | error status =>
        obtain rfl := Turn.leave.inj (Option.some.inj hturn)
        exact h
    | ok node => cases hturn
  · exact mProcessorVersion_isVersionString

end UemuPkg
