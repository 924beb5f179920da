/-
  UemuPkg.Drivers.PlatformSmbiosDxe.CoreCount

  How many cores the Type 4 record reports.  The loop counts every node that the FDT client
  returns, whatever becomes of the property reads; the count is narrowed to the 8-bit fields,
  and the 16-bit fields that take over above 254 keep the 0 of the template.
-/

import UemuPkg.Drivers.PlatformSmbiosDxe.CpuInfo

namespace UemuPkg

open FuelLoop (Returns)

-- ============================================================================
-- The loop
-- ============================================================================

/-- From this answer on, the client returns these nodes compatible with `riscv`, one after
    the other, and then an error. -/
inductive VisitsNodes (fdtClient : FdtClientNodes) : Except EfiStatus Int → List Int → Prop where
  | stop (status : EfiStatus) : VisitsNodes fdtClient (.error status) []
  | visit {node : Int} {nodes : List Int}
      (rest : VisitsNodes fdtClient (fdtClient.findNextCompatibleNode "riscv" node) nodes) :
      VisitsNodes fdtClient (.ok node) (node :: nodes)

variable {fdtClient : FdtClientNodes} {found : Except EfiStatus Int} {nodes : List Int}

/-- The loop ends behind the last node, and has counted them all. -/
theorem cpuNodesLoop_returns (hvisits : VisitsNodes fdtClient found nodes) (count : UINT32)
    (processorVersion : List UINT8) :
    ∃ processorVersion', Returns
      (fun fuel => cpuNodesLoop fdtClient fuel (found, count, processorVersion))
      (count + BitVec.ofNat 32 nodes.length, processorVersion') := by
  induction hvisits generalizing count processorVersion with
  | stop status =>
      refine ⟨processorVersion, ?_⟩
      apply Returns.loop_leave
      rw [List.length_nil, BitVec.add_zero]
      exact FuelLoop.returns_pure _
  | @visit node nodes rest ih =>
      have hlength : count + BitVec.ofNat 32 (node :: nodes).length
          = count + 1 + BitVec.ofNat 32 nodes.length := by
        apply BitVec.eq_of_toNat_eq
        rw [List.length_cons, BitVec.toNat_add, BitVec.toNat_add, BitVec.toNat_add,
          BitVec.toNat_ofNat, BitVec.toNat_ofNat]
        show _ = ((count.toNat + 1) % 2 ^ 32 + _) % 2 ^ 32
        omega
      obtain ⟨processorVersion', hreturns⟩ := ih (count + 1) _
      refine ⟨processorVersion', ?_⟩
      rw [hlength]
      exact Returns.loop_again (FuelLoop.returns_pure _) hreturns

/-- `LogCpuInfo` ends, and its record holds the number of nodes, modulo `2 ^ 32`. -/
theorem logCpuInfo_returns
    (hvisits : VisitsNodes fdtClient (fdtClient.findCompatibleNode "riscv") nodes)
    (freqMHz : UINT32) :
    ∃ processorVersion, Returns (logCpuInfo fdtClient freqMHz)
      ⟨(mProcessorInfoType4.storeCount (BitVec.ofNat 32 nodes.length)).storeSpeed freqMHz,
        processorVersion⟩ := by
  obtain ⟨processorVersion, hloop⟩ := cpuNodesLoop_returns hvisits 0 mProcessorVersion
  have hcount : (0 : UINT32) + BitVec.ofNat 32 nodes.length = BitVec.ofNat 32 nodes.length :=
    BitVec.zero_add _
  rw [hcount] at hloop
  exact ⟨processorVersion, hloop.bind (FuelLoop.returns_pure _)⟩

-- ============================================================================
-- The counts
-- ============================================================================

/-- The number of cores that a Type 4 record denotes. -/
def SmbiosTableType4.cores (t : SmbiosTableType4) : Nat :=
  if t.coreCount = 0xFF then t.coreCount2.toNat else t.coreCount.toNat

/-- The number of enabled cores. -/
def SmbiosTableType4.enabledCores (t : SmbiosTableType4) : Nat :=
  if t.enabledCoreCount = 0xFF then t.enabledCoreCount2.toNat else t.enabledCoreCount.toNat

/-- What the record denotes after a count: its low byte, 0 for the escape value, and the 1 of
    the template for a count of 0. -/
def reportedCores (count : UINT32) : Nat :=
  if count = 0 then 1 else if count.setWidth 8 = (0xFF : UINT8) then 0 else count.toNat % 256

theorem storeCount_cores (count freqMHz : UINT32) :
    ((mProcessorInfoType4.storeCount count).storeSpeed freqMHz).cores = reportedCores count ∧
      ((mProcessorInfoType4.storeCount count).storeSpeed freqMHz).enabledCores
        = reportedCores count := by
  have hspeed : ∀ t : SmbiosTableType4, (t.storeSpeed freqMHz).cores = t.cores ∧
      (t.storeSpeed freqMHz).enabledCores = t.enabledCores := by
    intro t
    rw [SmbiosTableType4.storeSpeed]
    split
    · exact ⟨rfl, rfl⟩
    · exact ⟨rfl, rfl⟩
  have hnarrow : (count.setWidth 8 : UINT8).toNat = count.toNat % 256 :=
    BitVec.toNat_setWidth 8 count
  obtain ⟨hcores, henabled⟩ := hspeed (mProcessorInfoType4.storeCount count)
  rw [hcores, henabled, reportedCores, SmbiosTableType4.storeCount, ← hnarrow]
  by_cases hzero : count = 0
  · rw [if_neg (not_not_intro hzero), if_pos hzero]
    exact ⟨rfl, rfl⟩
  · rw [if_pos hzero, if_neg hzero]
    exact ⟨rfl, rfl⟩

/-- The counts are right up to 254. -/
theorem reportedCores_eq_iff {n : Nat} (hpos : 1 ≤ n) :
    reportedCores (BitVec.ofNat 32 n) = n ↔ n ≤ 254 := by
  have hcount : (BitVec.ofNat 32 n).toNat = n % 2 ^ 32 := BitVec.toNat_ofNat n 32
  have hzero : BitVec.ofNat 32 n = 0 ↔ n % 2 ^ 32 = 0 := by
    rw [← BitVec.toNat_inj, hcount]
    rfl
  have hescape : (BitVec.ofNat 32 n).setWidth 8 = (0xFF : UINT8) ↔ n % 2 ^ 32 % 256 = 255 := by
    rw [← BitVec.toNat_inj, BitVec.toNat_setWidth, hcount]
    rfl
  rw [reportedCores, hcount, if_congr hzero rfl rfl, if_congr hescape rfl rfl]
  split
  · omega
  · split
    · omega
    · omega

/-- The record denotes as many cores, and as many enabled ones, as there are nodes. -/
def ReportsCores (fdtClient : FdtClientNodes) (freqMHz : UINT32) (n : Nat) : Prop :=
  ∃ record, Returns (logCpuInfo fdtClient freqMHz) record ∧
    record.type4.cores = n ∧ record.type4.enabledCores = n

/-- A client with `n` nodes, none of which has a `riscv,isa`. -/
def hartClient (n : Nat) : FdtClientNodes where
  findCompatibleNode _ := if 0 < n then .ok 0 else .error .notFound
  findNextCompatibleNode _ node := if node + 1 < n then .ok (node + 1) else .error .notFound
  getNodeProperty _ _ := .error .notFound

/-- Its last `n` nodes, from `node` on. -/
def hartNodes : Int → Nat → List Int
  | _, 0 => []
  | node, n + 1 => node :: hartNodes (node + 1) n

theorem hartNodes_length (node : Int) (n : Nat) : (hartNodes node n).length = n := by
  induction n generalizing node with
  | zero => rfl
  | succ n ih => rw [hartNodes, List.length_cons, ih]

theorem hartClient_visits (n : Nat) :
    VisitsNodes (hartClient n) ((hartClient n).findCompatibleNode "riscv") (hartNodes 0 n) := by
  have hfrom : ∀ (k : Nat) (node : Int), node + k = n →
      VisitsNodes (hartClient n) (if node < n then .ok node else .error .notFound)
        (hartNodes node k) := by
    intro k
    induction k with
    | zero =>
        intro node hnode
        rw [if_neg (by omega)]
        exact .stop .notFound
    | succ k ih =>
        intro node hnode
        rw [if_pos (by omega)]
        exact .visit (ih (node + 1) (by omega))
  have hall := hfrom n 0 (by omega)
  simp only [Int.natCast_pos] at hall
  exact hall

/-- The Type 4 record reports the number of harts if and only if there are no more than
    254, whichever of them have a `riscv,isa`. -/
theorem logCpuInfo_reports_iff
    (hvisits : VisitsNodes fdtClient (fdtClient.findCompatibleNode "riscv") nodes)
    (hpos : 1 ≤ nodes.length) (freqMHz : UINT32) :
    ReportsCores fdtClient freqMHz nodes.length ↔ nodes.length ≤ 254 := by
  obtain ⟨processorVersion, hreturns⟩ := logCpuInfo_returns hvisits freqMHz
  obtain ⟨hcores, henabled⟩ := storeCount_cores (BitVec.ofNat 32 nodes.length) freqMHz
  rw [← reportedCores_eq_iff hpos]
  constructor
  · rintro ⟨record, hrecord, hcount, -⟩
    rw [hrecord.unique hreturns] at hcount
    exact hcores.symm.trans hcount
  · intro hcount
    exact ⟨_, hreturns, hcores.trans hcount, henabled.trans hcount⟩

/-- Four harts. -/
theorem logCpuInfo_reports_iff_four :
    ReportsCores (hartClient 4) 1000 (hartNodes 0 4).length ↔ (hartNodes 0 4).length ≤ 254 := by
  apply logCpuInfo_reports_iff
  · exact hartClient_visits 4
  · decide

/-- 255 harts are reported as an unknown number, and 300 as 44. -/
theorem logCpuInfo_reports_escape :
    (VisitsNodes (hartClient 255) ((hartClient 255).findCompatibleNode "riscv")
        (hartNodes 0 255) ∧ (hartNodes 0 255).length = 255 ∧
      ReportsCores (hartClient 255) 0 0 ∧ ¬ ReportsCores (hartClient 255) 0 255) ∧
    ReportsCores (hartClient 300) 0 44 ∧ ¬ ReportsCores (hartClient 300) 0 300 := by
  have hreturns : ∀ n : Nat, ∃ record, Returns (logCpuInfo (hartClient n) 0) record ∧
      record.type4.cores = reportedCores (BitVec.ofNat 32 n) ∧
      record.type4.enabledCores = reportedCores (BitVec.ofNat 32 n) := by
    intro n
    obtain ⟨processorVersion, hrecord⟩ := logCpuInfo_returns (hartClient_visits n) 0
    rw [hartNodes_length] at hrecord
    exact ⟨_, hrecord, storeCount_cores (BitVec.ofNat 32 n) 0⟩
  have hnot : ∀ n m : Nat, reportedCores (BitVec.ofNat 32 n) ≠ m →
      ¬ ReportsCores (hartClient n) 0 m := by
    rintro n m hne ⟨record, hrecord, hcores, -⟩
    obtain ⟨record', hrecord', hcores', -⟩ := hreturns n
    rw [hrecord.unique hrecord', hcores'] at hcores
    exact hne hcores
  refine ⟨⟨hartClient_visits 255, hartNodes_length 0 255, ?_, hnot 255 255 (by decide)⟩, ?_,
    hnot 300 300 (by decide)⟩
  · exact hreturns 255
  · exact hreturns 300

end UemuPkg
