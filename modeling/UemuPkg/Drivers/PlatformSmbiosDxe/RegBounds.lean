/-
  UemuPkg.Drivers.PlatformSmbiosDxe.RegBounds

  How far `LogMemoryInfo` reads into a `reg`.  Its inner loop only tests whether
  `RegSize` is 0.  On whole tuples it stops at the end of the property; else it steps
  over the 0, `RegSize` wraps, and the loop reads what comes after the property.
-/

import UemuPkg.Drivers.PlatformSmbiosDxe.MemoryInfo
import UemuPkg.Generic.Effects

namespace UemuPkg

open Effects (Program)
open FuelLoop (Returns)

-- ============================================================================
-- The loop over its loads
-- ============================================================================

/-- A program that loads cells of a property. -/
abbrev LoadM := Program Nat fun _ => UINT32

/-- `Reg[k]` -/
def load (k : Nat) : LoadM UINT32 := Program.perform k

/-- `readCells` as a program. -/
def loadCells (cells : UINTN) (reg : Nat) : LoadM (UINT64 × Nat) := do
  let first ← load reg
  if cells > 1 then
    let second ← load (reg + 1)
    return (((swapBytes32 first).setWidth 64 <<< 32) ||| (swapBytes32 second).setWidth 64, reg + 2)
  else
    return ((swapBytes32 first).setWidth 64, reg + 1)

/-- `memoryRegLoop` as a program. -/
def memoryRegLoads (r : MemoryNodeReg) : Nat → Nat × UINT32 × MemoryInfo → LoadM (Option MemoryInfo)
  | 0, _ => return none
  | fuel + 1, (reg, regSize, info) =>
    if regSize > 0 then do
      let (curBase, reg) ← loadCells r.addressCells reg
      let (curSize, reg) ← loadCells r.sizeCells reg
      memoryRegLoads r fuel (reg, nextRegSize r regSize, logMemoryRegion info (curBase, curSize))
    else
      return some info

/-- The loads answered by memory. -/
def loadFrom (memory : Nat → UINT8) (k : Nat) : UINT32 × (Nat → UINT8) :=
  (loadUint32 memory k, memory)

variable {r : MemoryNodeReg} {α : Type}

theorem run_loadCells (memory : Nat → UINT8) (cells : UINTN) (reg : Nat)
    (next : UINT64 × Nat → LoadM α) :
    (loadCells cells reg >>= next).run loadFrom memory
      = (next (readCells memory cells reg)).run loadFrom memory := by
  by_cases hcells : cells > 1
  · simp only [readCells, if_pos hcells]
    show ((if cells > 1 then _ else _ : LoadM _) >>= next).run loadFrom memory = _
    rw [if_pos hcells]
    rfl
  · simp only [readCells, if_neg hcells]
    show ((if cells > 1 then _ else _ : LoadM _) >>= next).run loadFrom memory = _
    rw [if_neg hcells]
    rfl

/-- The program computes what the loop computes. -/
theorem run_memoryRegLoads (fuel reg : Nat) (regSize : UINT32) (info : MemoryInfo) :
    ((memoryRegLoads r fuel (reg, regSize, info)).run loadFrom r.reg).1
      = memoryRegLoop r fuel (reg, regSize, info) := by
  induction fuel generalizing reg regSize info with
  | zero => rfl
  | succ fuel ih =>
      rw [memoryRegLoads, memoryRegLoop, FuelLoop.loop]
      by_cases hmore : regSize > 0
      · rw [if_pos hmore]
        simp only [if_pos hmore]
        rw [run_loadCells, run_loadCells]
        exact ih _ _ _
      · rw [if_neg hmore]
        simp only [if_neg hmore]
        rfl

-- ============================================================================
-- What is loaded
-- ============================================================================

/-- One or two cells are loaded from `reg` on, and the rest goes on behind them. -/
theorem loadCells_calls {p : Nat → Prop} {cells : UINTN}
    (hcells : cells.toNat = 1 ∨ cells.toNat = 2) {reg : Nat}
    (hp : ∀ k, reg ≤ k → k < reg + cells.toNat → p k) {next : UINT64 × Nat → LoadM α}
    (hnext : ∀ value, (next (value, reg + cells.toNat)).Calls p) :
    (loadCells cells reg >>= next).Calls p := by
  refine ⟨hp reg (Nat.le_refl reg) (by omega), fun first => ?_⟩
  by_cases htwo : cells > 1
  · have hlen : cells.toNat = 2 := by
      rw [cells_gt_one] at htwo
      omega
    show ((if cells > 1 then _ else _ : LoadM _) >>= next).Calls p
    rw [if_pos htwo]
    rw [hlen] at hp hnext
    exact ⟨hp (reg + 1) (by omega) (by omega), fun second => hnext _⟩
  · have hlen : cells.toNat = 1 := by
      rw [cells_gt_one] at htwo
      omega
    show ((if cells > 1 then _ else _ : LoadM _) >>= next).Calls p
    rw [if_neg htwo]
    rw [hlen] at hnext
    exact hnext _

/-- What is loaded behind the cells is loaded. -/
theorem loadCells_makes {cells : UINTN} (hcells : cells.toNat = 1 ∨ cells.toNat = 2)
    {reg k : Nat} {next : UINT64 × Nat → LoadM α}
    (hnext : ∀ value, (next (value, reg + cells.toNat)).Makes k) :
    (loadCells cells reg >>= next).Makes k := by
  refine .inr ⟨0, ?_⟩
  by_cases htwo : cells > 1
  · have hlen : cells.toNat = 2 := by
      rw [cells_gt_one] at htwo
      omega
    show ((if cells > 1 then _ else _ : LoadM _) >>= next).Makes k
    rw [if_pos htwo]
    rw [hlen] at hnext
    exact .inr ⟨0, hnext _⟩
  · have hlen : cells.toNat = 1 := by
      rw [cells_gt_one] at htwo
      omega
    show ((if cells > 1 then _ else _ : LoadM _) >>= next).Makes k
    rw [if_neg htwo]
    rw [hlen] at hnext
    exact hnext _

-- ============================================================================
-- Whole tuples and a part of one
-- ============================================================================

/-- The decoding of a `reg` is bounded: it ends after the tuples that fit into `RegSize`
    bytes, and loads no cell at or behind that offset. -/
structure MemoryNodeReg.Bounded (r : MemoryNodeReg) (info : MemoryInfo) : Prop where
  ends : ∃ out, Returns (fun fuel => memoryRegLoop r fuel (0, r.regSize, info)) out ∧
    out.regions.length
      = info.regions.length
        + r.regSize.toNat / (4 * (r.addressCells.toNat + r.sizeCells.toNat))
  loads : ∀ fuel, (memoryRegLoads r fuel (0, r.regSize, info)).Calls
    fun k => 4 * k < r.regSize.toNat

/-- `RegSize` after a turn, while a whole tuple is left. -/
theorem MemoryNodeReg.SmallCells.nextRegSize_succ (h : r.SmallCells) (n rest : Nat)
    {regSize : UINT32} (hleft : regSize.toNat = (n + 1) * (4 * r.tupleCells) + rest) :
    (nextRegSize r regSize).toNat = n * (4 * r.tupleCells) + rest := by
  have hlt := regSize.isLt
  rw [Nat.succ_mul] at hleft
  rw [h.nextRegSize_toNat, hleft]
  omega

/-- From `n` whole tuples before the end the loop takes them and ends. -/
theorem memoryRegLoop_whole (h : r.SmallCells) (reg : Nat) (info : MemoryInfo) {n : Nat}
    {regSize : UINT32} (hleft : regSize.toNat = n * (4 * r.tupleCells)) :
    ∃ out, Returns (fun fuel => memoryRegLoop r fuel (reg, regSize, info)) out ∧
      out.regions.length = info.regions.length + n := by
  have hbounds := h.tupleCells_bounds
  have hguard : regSize > 0 ↔ 0 < regSize.toNat := by
    rw [gt_iff_lt, BitVec.lt_def]
    rfl
  induction n generalizing reg regSize info with
  | zero =>
      have hdone : ¬ regSize > 0 := by
        rw [hguard, hleft, Nat.zero_mul]
        exact Nat.lt_irrefl 0
      exact ⟨info, .loop_leave (FuelLoop.returns_of_eq fun _ => if_neg hdone), rfl⟩
  | succ n ih =>
      have hnext := h.nextRegSize_succ n 0 hleft
      rw [Nat.succ_mul] at hleft
      have hmore : regSize > 0 := hguard.mpr (by omega)
      obtain ⟨out, hreturns, hlength⟩ := ih _ _ hnext (by rw [gt_iff_lt, BitVec.lt_def]; rfl)
      refine ⟨out, .loop_again (FuelLoop.returns_of_eq fun _ => if_pos hmore) hreturns, ?_⟩
      rw [hlength]
      show (info.regions ++ [_]).length + n = _
      rw [List.length_append, List.length_singleton, Nat.add_assoc, Nat.add_comm 1 n]

/-- It loads the cells of these tuples only. -/
theorem memoryRegLoads_whole (h : r.SmallCells) (fuel reg : Nat) (info : MemoryInfo) {n : Nat}
    {regSize : UINT32} (hleft : regSize.toNat = n * (4 * r.tupleCells)) :
    (memoryRegLoads r fuel (reg, regSize, info)).Calls
      fun k => 4 * k < 4 * reg + regSize.toNat := by
  have hbounds := h.tupleCells_bounds
  induction fuel generalizing n reg regSize info with
  | zero => exact Program.calls_ret _
  | succ fuel ih =>
      rw [memoryRegLoads]
      by_cases hmore : regSize > 0
      · rw [if_pos hmore]
        have hpos : 0 < regSize.toNat := hmore
        obtain ⟨n, rfl⟩ : ∃ m, n = m + 1 := by
          cases n with
          | zero =>
              rw [Nat.zero_mul] at hleft
              omega
          | succ n => exact ⟨n, rfl⟩
        have hnext := h.nextRegSize_succ n 0 hleft
        rw [Nat.add_zero] at hnext
        rw [Nat.succ_mul] at hleft
        have hcells : r.tupleCells = r.addressCells.toNat + r.sizeCells.toNat := rfl
        refine loadCells_calls h.address (fun k _ hk => by omega) fun curBase => ?_
        refine loadCells_calls h.size (fun k _ hk => by omega) fun curSize => ?_
        have hrest := ih (reg + r.addressCells.toNat + r.sizeCells.toNat)
          (logMemoryRegion info (curBase, curSize)) hnext
        rwa [show 4 * (reg + r.addressCells.toNat + r.sizeCells.toNat)
          + (nextRegSize r regSize).toNat = 4 * reg + regSize.toNat by omega] at hrest
      · rw [if_neg hmore]
        exact Program.calls_ret _

/-- A turn loads its first cell, and what the turns after it load. -/
theorem memoryRegLoads_makes_first (fuel reg : Nat) {regSize : UINT32} (info : MemoryInfo)
    (hmore : regSize > 0) : (memoryRegLoads r (fuel + 1) (reg, regSize, info)).Makes reg := by
  rw [memoryRegLoads, if_pos hmore]
  exact .inl rfl

theorem memoryRegLoads_makes_next (h : r.SmallCells) {fuel reg k : Nat} {regSize : UINT32}
    {info : MemoryInfo} (hmore : regSize > 0)
    (hnext : ∀ info, (memoryRegLoads r fuel
      (reg + r.tupleCells, nextRegSize r regSize, info)).Makes k) :
    (memoryRegLoads r (fuel + 1) (reg, regSize, info)).Makes k := by
  rw [memoryRegLoads, if_pos hmore]
  refine loadCells_makes h.address fun curBase => ?_
  refine loadCells_makes h.size fun curSize => ?_
  rw [Nat.add_assoc]
  exact hnext _

/-- Past `n` whole tuples a part of one is left.  The loop takes it for a whole one,
    `RegSize` wraps, and the next turn begins behind the property. -/
theorem memoryRegLoads_partial (h : r.SmallCells) (reg : Nat) (info : MemoryInfo)
    {n rest : Nat} {regSize : UINT32} (hleft : regSize.toNat = n * (4 * r.tupleCells) + rest)
    (hpos : 0 < rest) (hrest : rest < 4 * r.tupleCells) :
    (memoryRegLoads r (n + 2) (reg, regSize, info)).Makes (reg + (n + 1) * r.tupleCells) := by
  have hbounds := h.tupleCells_bounds
  have hguard : ∀ size : UINT32, 0 < size.toNat → size > 0 := fun _ hsize => hsize
  induction n generalizing reg regSize info with
  | zero =>
      rw [Nat.zero_mul, Nat.zero_add] at hleft
      have hwrapped : nextRegSize r regSize > 0 := by
        refine hguard _ ?_
        rw [h.nextRegSize_toNat, hleft]
        omega
      refine memoryRegLoads_makes_next h (hguard _ (by omega)) fun info => ?_
      rw [Nat.zero_add, Nat.one_mul]
      exact memoryRegLoads_makes_first 0 _ info hwrapped
  | succ n ih =>
      have hnext := h.nextRegSize_succ n rest hleft
      rw [Nat.succ_mul] at hleft
      refine memoryRegLoads_makes_next h (hguard _ (by omega)) fun info => ?_
      have hlater := ih (reg + r.tupleCells) info hnext
      rwa [Nat.add_assoc, Nat.add_comm r.tupleCells, ← Nat.succ_mul] at hlater

/-- The decoding of a `reg` is bounded exactly if `RegSize` is a multiple of the size of
    a tuple. -/
theorem memoryRegLoop_bounded_iff (r : MemoryNodeReg) (info : MemoryInfo) (h : r.SmallCells) :
    r.Bounded info ↔ 4 * (r.addressCells.toNat + r.sizeCells.toNat) ∣ r.regSize.toNat := by
  have hbounds := h.tupleCells_bounds
  have hcells : r.tupleCells = r.addressCells.toNat + r.sizeCells.toNat := rfl
  rw [← hcells]
  refine ⟨?_, ?_⟩
  · intro hbounded
    by_contra hpartial
    have hdiv := Nat.div_add_mod r.regSize.toNat (4 * r.tupleCells)
    have hmod := Nat.mod_lt r.regSize.toNat (show 4 * r.tupleCells > 0 by omega)
    have hrest : r.regSize.toNat % (4 * r.tupleCells) ≠ 0 :=
      fun h0 => hpartial (Nat.dvd_of_mod_eq_zero h0)
    have hmakes := memoryRegLoads_partial h 0 info
      (n := r.regSize.toNat / (4 * r.tupleCells)) (by rw [Nat.mul_comm]; exact hdiv.symm)
      (Nat.pos_of_ne_zero hrest) hmod
    have hread := (hbounded.loads _).of_makes hmakes
    have hmul : 4 * r.tupleCells * (r.regSize.toNat / (4 * r.tupleCells))
        = 4 * (r.regSize.toNat / (4 * r.tupleCells) * r.tupleCells) := by
      rw [Nat.mul_assoc, Nat.mul_comm r.tupleCells]
    have hnext : (r.regSize.toNat / (4 * r.tupleCells) + 1) * r.tupleCells
        = r.regSize.toNat / (4 * r.tupleCells) * r.tupleCells + r.tupleCells := Nat.succ_mul _ _
    omega
  · rintro ⟨n, hn⟩
    have hleft : r.regSize.toNat = n * (4 * r.tupleCells) := by
      rw [hn, Nat.mul_comm]
    refine ⟨?_, ?_⟩
    · obtain ⟨out, hreturns, hlength⟩ := memoryRegLoop_whole h 0 info hleft
      refine ⟨out, hreturns, ?_⟩
      rw [hlength, ← hcells, hleft, Nat.mul_div_cancel n (by omega)]
    · intro fuel
      have hloads := memoryRegLoads_whole h fuel 0 info hleft
      rwa [Nat.mul_zero, Nat.zero_add] at hloads

/-- A `reg` of 16 bytes under `#address-cells = <2>` and `#size-cells = <1>`. -/
def partialReg : MemoryNodeReg where
  node := 8
  reg _ := 0
  addressCells := 2
  sizeCells := 1
  regSize := 16

/-- The second turn loads the cell at offset 16, the third begins at offset 24. -/
theorem partialReg_not_bounded :
    ¬ partialReg.Bounded (startMemoryInfo mMemDevInfoType17 mMemArrMapInfoType19) := by
  intro hbounded
  have hmakes : (memoryRegLoads partialReg 2 (0, partialReg.regSize,
      startMemoryInfo mMemDevInfoType17 mMemArrMapInfoType19)).Makes 4 :=
    .inr ⟨0, .inr ⟨0, .inr ⟨0, .inr ⟨0, .inl rfl⟩⟩⟩⟩
  exact absurd ((hbounded.loads 2).of_makes hmakes) (by decide)

/-- Two tuples in 16 bytes. -/
theorem memoryRegLoop_bounded_iff_twoTuples :
    MemoryNodeReg.Bounded
      { node := 8, reg := fun _ => 0, addressCells := 1, sizeCells := 1, regSize := 16 }
      (startMemoryInfo mMemDevInfoType17 mMemArrMapInfoType19) :=
  (memoryRegLoop_bounded_iff _ _ ⟨.inl rfl, .inl rfl⟩).mpr ⟨2, rfl⟩

end UemuPkg
