/-
  UemuPkg.Drivers.PlatformSmbiosDxe.MemoryRecords

  What the records of `LogMemoryInfo` say.  A Type 19 record denotes its region as long as
  the region ends below 4 TiB: the extended addresses, which SMBIOS has for the others,
  are never set.  The Type 17 record gives the total of all regions in both its forms.
-/

import Mathlib.Data.List.Forall2
import UemuPkg.Drivers.PlatformSmbiosDxe.MemoryRegions

namespace UemuPkg

open FuelLoop (Returns)

-- ============================================================================
-- The records of a walk
-- ============================================================================

/-- The Type 19 template after a turn of the inner loop. -/
def regionRecord (type19 : SmbiosTableType19) (region : UINT64 × UINT64) : SmbiosTableType19 :=
  { type19 with
    startingAddress := (region.1 >>> 10).setWidth 32
    endingAddress := ((region.1 + region.2 - 1) >>> 10).setWidth 32 }

/-- The template has been written by the turns before, but only where the next one
    writes it too. -/
theorem foldl_logMemoryRegion_logged (info : MemoryInfo) (regions : List (UINT64 × UINT64)) :
    (regions.foldl logMemoryRegion info).logged
      = info.logged ++ (regions.map (regionRecord info.type19)).map .type19 := by
  induction regions generalizing info with
  | nil => exact (List.append_nil _).symm
  | cons region regions ih =>
      rw [List.foldl_cons, ih]
      show info.logged ++ [.type19 (regionRecord info.type19 region)]
        ++ (regions.map (regionRecord (regionRecord info.type19 region))).map .type19 = _
      rw [List.append_assoc]
      rfl

/-- The total, modulo the width of `TotalSize`. -/
theorem foldl_logMemoryRegion_totalSize (info : MemoryInfo) (regions : List (UINT64 × UINT64)) :
    (regions.foldl logMemoryRegion info).totalSize.toNat
      = (info.totalSize.toNat + (regions.map fun region => region.2.toNat).sum) % 2 ^ 64 := by
  induction regions generalizing info with
  | nil => exact (Nat.mod_eq_of_lt info.totalSize.isLt).symm
  | cons region regions ih =>
      rw [List.foldl_cons, ih, List.map_cons, List.sum_cons]
      show ((info.totalSize + region.2).toNat + _) % 2 ^ 64 = _
      rw [BitVec.toNat_add, Nat.mod_add_mod, Nat.add_assoc]

-- ============================================================================
-- Runs
-- ============================================================================

variable {r : MemoryNodeReg} {fdtClient : FdtClientProtocol} {info out : MemoryInfo} {fuel : Nat}

/-- `out` comes from `info` by logging regions. -/
def LogsRegions (info out : MemoryInfo) : Prop :=
  ∃ regions : List (UINT64 × UINT64), out = regions.foldl logMemoryRegion info

theorem logsRegions_one (info : MemoryInfo) (region : UINT64 × UINT64) :
    LogsRegions info (logMemoryRegion info region) := ⟨[region], rfl⟩

theorem LogsRegions.trans {mid : MemoryInfo} (h : LogsRegions info mid) (hout : LogsRegions mid out) :
    LogsRegions info out := by
  obtain ⟨regions, rfl⟩ := h
  obtain ⟨more, rfl⟩ := hout
  exact ⟨regions ++ more, List.foldl_append.symm⟩

theorem memoryRegLoop_logsRegions {reg : Nat} {regSize : UINT32}
    (h : memoryRegLoop r fuel (reg, regSize, info) = some out) : LogsRegions info out := by
  refine FuelLoop.loop_post (fun st : Nat × UINT32 × MemoryInfo => LogsRegions info st.2.2)
    (LogsRegions info) ?_ ?_ ⟨[], rfl⟩ h
  · rintro _ ⟨reg, regSize, mid⟩ s' hmid hturn
    dsimp only at hmid hturn
    split at hturn
    · cases hturn
      dsimp only
      exact hmid.trans (logsRegions_one mid _)
    · cases hturn
  · rintro _ ⟨reg, regSize, mid⟩ out hmid hturn
    dsimp only at hmid hturn
    split at hturn
    · cases hturn
    · cases hturn
      exact hmid

theorem memoryNodesLoop_logsRegions {found : Except EfiStatus MemoryNodeReg}
    (h : memoryNodesLoop fdtClient fuel (found, info) = some out) : LogsRegions info out := by
  refine FuelLoop.loop_post
    (fun st : Except EfiStatus MemoryNodeReg × MemoryInfo => LogsRegions info st.2)
    (LogsRegions info) ?_ ?_ ⟨[], rfl⟩ h
  · rintro fuel ⟨found, mid⟩ s' hmid hturn
    dsimp only at hmid hturn
    split at hturn
    · cases hturn
    · obtain ⟨last, hloop, hnext⟩ := Option.map_eq_some_iff.mp hturn
      cases hnext
      exact hmid.trans (memoryRegLoop_logsRegions hloop)
  · rintro fuel ⟨found, mid⟩ out hmid hturn
    dsimp only at hmid hturn
    split at hturn
    · cases hturn
      exact hmid
    · obtain ⟨last, -, hnext⟩ := Option.map_eq_some_iff.mp hturn
      cases hnext

/-- Whatever the FDT client returns, `LogMemoryInfo` logs the regions that it decodes one
    by one, and the memory device at the end. -/
theorem logMemoryInfo_foldl {type17 : SmbiosTableType17} {type19 : SmbiosTableType19}
    (h : logMemoryInfo fdtClient type17 type19 fuel = some out) :
    out = logMemoryDevice (out.regions.foldl logMemoryRegion (startMemoryInfo type17 type19)) := by
  obtain ⟨mid, hloop, rfl⟩ := Option.map_eq_some_iff.mp h
  obtain ⟨regions, rfl⟩ := memoryNodesLoop_logsRegions hloop
  rw [logMemoryDevice_regions, foldl_logMemoryRegion_regions, List.nil_append]
  rfl

-- ============================================================================
-- Type 19
-- ============================================================================

/-- The first and the last KB that a Type 19 record denotes: the 32-bit addresses are in
    KB; if the first one is all ones, the extended addresses in bytes stand for both. -/
def SmbiosTableType19.interval (t : SmbiosTableType19) : Nat × Nat :=
  if t.startingAddress = 0xFFFFFFFF then
    (t.extendedStartingAddress.toNat / 1024, t.extendedEndingAddress.toNat / 1024)
  else
    (t.startingAddress.toNat, t.endingAddress.toNat)

/-- The first and the last KB of a region. -/
def regionInterval (region : UINT64 × UINT64) : Nat × Nat :=
  (region.1.toNat / 1024, (region.1.toNat + region.2.toNat - 1) / 1024)

/-- The record denotes the region exactly if the region ends at 4 TiB or below, and does
    not begin in the last KB there, whose number is the escape value. -/
def DenotesBelow4TiB (record : SmbiosTableType19) (region : UINT64 × UINT64) : Prop :=
  1 ≤ region.2.toNat → region.1.toNat + region.2.toNat ≤ 2 ^ 64 - 1 →
    (record.interval = regionInterval region ↔
      region.1.toNat + region.2.toNat ≤ 2 ^ 42 ∧ region.1.toNat < 2 ^ 42 - 2 ^ 10)

/-- A 64-bit address in KB, narrowed to 32 bits. -/
theorem narrowKB_toNat (address : UINT64) :
    ((address >>> 10).setWidth 32 : UINT32).toNat = address.toNat / 1024 % 2 ^ 32 := by
  rw [BitVec.toNat_setWidth, BitVec.toNat_ushiftRight, Nat.shiftRight_eq_div_pow]

theorem regionRecord_denotes {type19 : SmbiosTableType19}
    (hstart : type19.extendedStartingAddress = 0) (hend : type19.extendedEndingAddress = 0)
    (region : UINT64 × UINT64) : DenotesBelow4TiB (regionRecord type19 region) region := by
  obtain ⟨base, size⟩ := region
  rintro hpos hfits
  dsimp only at hpos hfits ⊢
  have hlast : (base + size - 1).toNat = base.toNat + size.toNat - 1 := by bv_omega
  have hfirstKB := narrowKB_toNat base
  have hlastKB := narrowKB_toNat (base + size - 1)
  rw [hlast] at hlastKB
  have hescape : (base >>> 10).setWidth 32 = (0xFFFFFFFF : UINT32)
      ↔ base.toNat / 1024 % 2 ^ 32 = 2 ^ 32 - 1 := by
    rw [← hfirstKB, ← BitVec.toNat_inj]
    rfl
  simp only [SmbiosTableType19.interval, regionRecord, regionInterval, hstart, hend]
  by_cases hmax : (base >>> 10).setWidth 32 = (0xFFFFFFFF : UINT32)
  · rw [if_pos hmax, Prod.mk.injEq]
    rw [hescape] at hmax
    have hzero : (0 : UINT64).toNat / 1024 = 0 := rfl
    rw [hzero]
    omega
  · rw [if_neg hmax, Prod.mk.injEq, hfirstKB, hlastKB]
    rw [hescape] at hmax
    omega

theorem forall₂_regionRecord (type19 : SmbiosTableType19)
    (hstart : type19.extendedStartingAddress = 0) (hend : type19.extendedEndingAddress = 0)
    (regions : List (UINT64 × UINT64)) :
    List.Forall₂ DenotesBelow4TiB (regions.map (regionRecord type19)) regions := by
  rw [List.forall₂_map_left_iff, List.forall₂_same]
  exact fun region _ => regionRecord_denotes hstart hend region

/-- The Type 19 records of every sequence of regions logged from the template, and so of
    every run of `LogMemoryInfo`: each denotes its region exactly if that lies below
    4 TiB. -/
theorem logMemoryInfo_type19_iff (fdtClient : FdtClientProtocol) (type17 : SmbiosTableType17)
    (handle : UINT16) :
    (∀ regions, ∃ records,
      (regions.foldl logMemoryRegion (startMemoryInfo type17
          { mMemArrMapInfoType19 with memoryArrayHandle := handle })).logged
        = records.map SmbiosTable.type19 ∧
      List.Forall₂ DenotesBelow4TiB records regions) ∧
    ∀ fuel out, logMemoryInfo fdtClient type17
        { mMemArrMapInfoType19 with memoryArrayHandle := handle } fuel = some out →
      ∃ records last, out.logged = records.map SmbiosTable.type19 ++ [.type17 last] ∧
        List.Forall₂ DenotesBelow4TiB records out.regions := by
  have hlogged : ∀ regions, ∃ records,
      (regions.foldl logMemoryRegion (startMemoryInfo type17
          { mMemArrMapInfoType19 with memoryArrayHandle := handle })).logged
        = records.map SmbiosTable.type19 ∧
      List.Forall₂ DenotesBelow4TiB records regions := by
    intro regions
    refine ⟨_, ?_, forall₂_regionRecord
      { mMemArrMapInfoType19 with memoryArrayHandle := handle } rfl rfl regions⟩
    rw [foldl_logMemoryRegion_logged]
    rfl
  refine ⟨hlogged, ?_⟩
  intro fuel out hrun
  obtain ⟨records, hrecords, hdenotes⟩ := hlogged out.regions
  refine ⟨records, out.type17, ?_, hdenotes⟩
  have hout := logMemoryInfo_foldl hrun
  rw [← hrecords]
  exact (congrArg MemoryInfo.logged hout).trans
    (congrArg (fun last => _ ++ [SmbiosTable.type17 last]) (congrArg MemoryInfo.type17 hout).symm)

/-- An FDT client with one memory node: 1 GiB at 4 TiB. -/
def fourTiBClient : FdtClientProtocol where
  findMemoryNodeReg := .ok
    { node := 8
      reg := fun i => [0, 0, 4, 0, 0, 0, 0, 0, 0, 0, 0, 0, 0x40, 0, 0, 0].getD i 0
      addressCells := 2
      sizeCells := 2
      regSize := 16 }
  findNextMemoryNodeReg _ := .error .notFound

/-- The record of a region at 4 TiB denotes the first GiB. -/
theorem fourTiB_not_denoted :
    ∃ out record, logMemoryInfo fourTiBClient mMemDevInfoType17 mMemArrMapInfoType19 3 = some out ∧
      out.regions = [(0x40000000000, 0x40000000)] ∧
      out.logged.head? = some (.type19 record) ∧
      record.interval = (0, 2 ^ 20 - 1) ∧
      record.interval ≠ regionInterval (0x40000000000, 0x40000000) :=
  ⟨_, _, rfl, rfl, rfl, by decide, by decide⟩

/-- The region of `sampleReg`, at 2 GiB, is denoted. -/
theorem logMemoryInfo_type19_iff_sample :
    ∃ records : List SmbiosTableType19,
      List.Forall₂ DenotesBelow4TiB records [(0x80000000, 0x10000000)] ∧
      ∃ record ∈ records, record.interval = regionInterval (0x80000000, 0x10000000) := by
  obtain ⟨-, hruns⟩ := logMemoryInfo_type19_iff (sampleFdtClient sampleReg) mMemDevInfoType17 0
  obtain ⟨records, last, -, hdenotes⟩ := hruns 3 _ rfl
  have hregions : List.Forall₂ DenotesBelow4TiB records [(0x80000000, 0x10000000)] := hdenotes
  obtain ⟨record, rest, hrecord, -, rfl⟩ := List.forall₂_cons_right_iff.mp hregions
  exact ⟨_, hregions, record, .head _, (hrecord (by decide) (by decide)).mpr (by decide)⟩

-- ============================================================================
-- Type 17
-- ============================================================================

/-- The size in MB that a Type 17 record gives, unless its bit 15 asks for KB. -/
def SmbiosTableType17.sizeInMB (t : SmbiosTableType17) : Option Nat :=
  if t.size = 0x7FFF then
    some (t.extendedSize &&& 0x7FFFFFFF).toNat
  else if t.size.msb then
    none
  else
    some t.size.toNat

/-- Below the escape value the short field gives the size, with its bit 15 clear. -/
theorem sizeInMB_of_lt {t : SmbiosTableType17} (h : t.size.toNat < 0x7FFF) :
    t.sizeInMB = some t.size.toNat := by
  have hescape : t.size ≠ 0x7FFF := by
    intro heq
    rw [heq] at h
    exact absurd h (by decide)
  have hbit : t.size.msb = false := BitVec.msb_eq_false_iff_two_mul_lt.mpr (by omega)
  rw [SmbiosTableType17.sizeInMB, if_neg hescape, hbit, if_neg Bool.false_ne_true]

/-- At the escape value the 31 low bits of the extended field do. -/
theorem sizeInMB_of_escape {t : SmbiosTableType17} (hsize : t.size = 0x7FFF)
    (h : t.extendedSize.toNat < 2 ^ 31) : t.sizeInMB = some t.extendedSize.toNat := by
  have hmask : (t.extendedSize &&& 0x7FFFFFFF).toNat = t.extendedSize.toNat := by
    rw [BitVec.toNat_and]
    exact (Nat.and_two_pow_sub_one_eq_mod t.extendedSize.toNat 31).trans (Nat.mod_eq_of_lt h)
  rw [SmbiosTableType17.sizeInMB, if_pos hsize, hmask]

/-- Both sizes of the memory device are that of all regions. -/
theorem logMemoryDevice_type17 {S : Nat} (htotal : info.totalSize.toNat = S) (hpos : 0 < S)
    (hlt : S < 2 ^ 51) :
    (logMemoryDevice info).type17.volatileSize.toNat = S ∧
      (logMemoryDevice info).type17.sizeInMB = some (S / 2 ^ 20) := by
  have hmore : info.totalSize > 0 := by
    rw [gt_iff_lt, BitVec.lt_def, htotal]
    exact hpos
  have hMB : (info.totalSize >>> 20).toNat = S / 2 ^ 20 := by
    rw [BitVec.toNat_ushiftRight, htotal, Nat.shiftRight_eq_div_pow]
  have hescape : info.totalSize >>> 20 ≥ 0x7FFF ↔ 0x7FFF ≤ S / 2 ^ 20 := by
    rw [ge_iff_le, BitVec.le_def, hMB]
    rfl
  simp only [logMemoryDevice, if_pos hmore]
  by_cases hlarge : info.totalSize >>> 20 ≥ 0x7FFF
  · have hext : ((info.totalSize >>> 20).setWidth 32 : UINT32).toNat = S / 2 ^ 20 := by
      rw [BitVec.toNat_setWidth, hMB, Nat.mod_eq_of_lt (by omega)]
    simp only [if_pos hlarge]
    refine ⟨htotal, ?_⟩
    rw [sizeInMB_of_escape rfl (by dsimp only; rw [hext]; omega)]
    exact congrArg some hext
  · have hsize : ((info.totalSize >>> 20).setWidth 16 : UINT16).toNat = S / 2 ^ 20 := by
      rw [hescape] at hlarge
      rw [BitVec.toNat_setWidth, hMB, Nat.mod_eq_of_lt (by omega)]
    simp only [if_neg hlarge]
    rw [hescape] at hlarge
    refine ⟨htotal, ?_⟩
    rw [sizeInMB_of_lt (by dsimp only; rw [hsize]; omega)]
    exact congrArg some hsize

variable {fdt : Fdt} {node : Int} {reg : FdtProp}

/-- The bytes in all ranges of the node's `reg`. -/
def Fdt.nodeSize (fdt : Fdt) (node : Int) : Nat :=
  match fdt.getProp node "reg" with
  | none => 0
  | some reg =>
    ((List.range (reg.bytes.length / fdt.regTupleSize node)).map (fdt.regSize node reg)).sum

theorem Fdt.TupleReg.regSize_lt (h : fdt.TupleReg node reg) (i : Nat) :
    fdt.regSize node reg i < 2 ^ 64 := by
  rw [Fdt.regSize]
  refine Nat.lt_of_lt_of_le (reg.cellsNat_lt _ _) (Nat.pow_le_pow_right (by decide) ?_)
  have hs := h.size
  omega

theorem sum_nodeTuples (h : ∀ reg, fdt.getProp node "reg" = some reg → fdt.TupleReg node reg) :
    ((fdt.nodeTuples node).map fun region => region.2.toNat).sum = fdt.nodeSize node := by
  rw [Fdt.nodeTuples, Fdt.nodeSize]
  cases hreg : fdt.getProp node "reg" with
  | none => rfl
  | some reg =>
      dsimp only
      rw [Fdt.regTuples, List.map_map]
      congr 1
      refine List.map_congr_left fun i _ => ?_
      exact Nat.mod_eq_of_lt ((h reg hreg).regSize_lt i)

theorem sum_flatMap_nodeTuples {nodes : List Int}
    (h : ∀ node ∈ nodes, ∀ reg, fdt.getProp node "reg" = some reg → fdt.TupleReg node reg) :
    ((nodes.flatMap fdt.nodeTuples).map fun region => region.2.toNat).sum
      = (nodes.map fdt.nodeSize).sum := by
  induction nodes with
  | nil => rfl
  | cons node nodes ih =>
      rw [List.flatMap_cons, List.map_append, List.sum_append, List.map_cons, List.sum_cons,
        sum_nodeTuples (h node (.head _)), ih fun node hmem => h node (.tail _ hmem)]

/-- `LogMemoryInfo` ends on well-formed memory nodes, and the last record it logs, the only
    one of Type 17, gives the sum of all ranges: in bytes and, in either form, in MB. -/
theorem logMemoryInfo_type17_total (fdt : Fdt) (fdtClient : FdtClientProtocol) (nodes : List Int)
    (hnodes : fdtClient.Visits fdt fdtClient.findMemoryNodeReg nodes)
    (htuples : ∀ node ∈ nodes, ∀ reg, fdt.getProp node "reg" = some reg → fdt.TupleReg node reg)
    (hpos : 0 < (nodes.map fdt.nodeSize).sum) (hlt : (nodes.map fdt.nodeSize).sum < 2 ^ 51)
    (type17 : SmbiosTableType17) (type19 : SmbiosTableType19) :
    ∃ out device, ∃ records : List SmbiosTableType19,
      Returns (fun fuel => logMemoryInfo fdtClient type17 type19 fuel) out ∧
      out.logged = records.map SmbiosTable.type19 ++ [.type17 device] ∧
      device.volatileSize.toNat = (nodes.map fdt.nodeSize).sum ∧
      device.sizeInMB = some ((nodes.map fdt.nodeSize).sum / 2 ^ 20) := by
  have htotal : ((nodes.flatMap fdt.nodeTuples).foldl logMemoryRegion
      (startMemoryInfo type17 type19)).totalSize.toNat = (nodes.map fdt.nodeSize).sum := by
    rw [foldl_logMemoryRegion_totalSize, sum_flatMap_nodeTuples htuples]
    show (0 + _) % 2 ^ 64 = _
    rw [Nat.zero_add, Nat.mod_eq_of_lt (by omega)]
  obtain ⟨hvolatile, hsize⟩ := logMemoryDevice_type17 htotal hpos hlt
  refine ⟨_, _, (nodes.flatMap fdt.nodeTuples).map (regionRecord type19),
    logMemoryInfo_returns hnodes htuples type17 type19, ?_, hvolatile, hsize⟩
  show ((nodes.flatMap fdt.nodeTuples).foldl logMemoryRegion
    (startMemoryInfo type17 type19)).logged ++ _ = _
  rw [foldl_logMemoryRegion_logged]
  rfl

/-- 256 MiB in one node. -/
theorem logMemoryInfo_type17_total_sample :
    ∃ out device, ∃ records : List SmbiosTableType19,
      Returns (fun fuel => logMemoryInfo (sampleFdtClient sampleReg)
        mMemDevInfoType17 mMemArrMapInfoType19 fuel) out ∧
      out.logged = records.map SmbiosTable.type19 ++ [.type17 device] ∧
      device.volatileSize.toNat = ([8].map (sampleFdt sampleReg).nodeSize).sum ∧
      device.sizeInMB = some (([8].map (sampleFdt sampleReg).nodeSize).sum / 2 ^ 20) :=
  logMemoryInfo_type17_total (sampleFdt sampleReg) (sampleFdtClient sampleReg) [8]
    sampleFdtClient_visits
    (by
      intro node hmem reg hreg
      obtain rfl := List.mem_singleton.mp hmem
      obtain rfl := Option.some.inj (sampleFdt_validReg.present.symm.trans hreg)
      exact sampleFdt_validReg.tupleReg)
    (by decide) (by decide) mMemDevInfoType17 mMemArrMapInfoType19

end UemuPkg
