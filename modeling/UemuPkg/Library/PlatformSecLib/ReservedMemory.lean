/-
  UemuPkg.Library.PlatformSecLib.ReservedMemory

  What `AddReservedMemoryMap` does with the reservations a blob describes.  It
  lists every accepted reserve-map entry and, for each child of
  `/reserved-memory`, the tuples before the first one `UemuFdtGetReg` rejects.
  The ranges are passed on as they were read: tuples behind a rejected one are
  skipped, and no range is rounded to pages.
-/

import Mathlib.Data.List.Forall2
import UemuPkg.Library.PlatformSecLib.SystemMemory

namespace UemuPkg

open FuelLoop (Returns)

variable {fdt : Fdt} {children : List Int}

-- ============================================================================
-- The listed reservations
-- ============================================================================

/-- The reserve-map entries with a nonzero size that end below `2 ^ 64`. -/
def Fdt.acceptedEntries (fdt : Fdt) : List (UINT64 × UINT64) :=
  (List.range fdt.numberOfReserveMapEntries.toNat).filterMap fun i =>
    (fdt.reserveMapEntry i).filter fun t => t.2 ≠ 0 ∧ t.1.toNat + t.2.toNat ≤ 2 ^ 64 - 1

/-- The reservations `AddReservedMemoryMap` lists, in order: base, size and type. -/
def Fdt.listedReservations (fdt : Fdt) (children : List Int) :
    List (UINT64 × UINT64 × EfiMemoryType) :=
  fdt.acceptedEntries.map (fun t => (t.1, t.2, .reservedMemoryType)) ++
    children.flatMap fun child =>
      (fdt.regPrefix child).map fun t => (t.1, t.2, reservedMemoryTypeOf fdt child)

/-- The block of one reservation. -/
def allocationHob (r : UINT64 × UINT64 × EfiMemoryType) : Hob :=
  .memoryAllocation r.1 r.2.1 r.2.2

/-- The overflow test of the reserve-map loop is exact. -/
theorem le_max_sub_iff (addr size : UINT64) :
    addr ≤ MAX_UINT64 - size ↔ addr.toNat + size.toNat ≤ 2 ^ 64 - 1 := by
  have hmax : MAX_UINT64.toNat = 2 ^ 64 - 1 := rfl
  have hsize : size ≤ MAX_UINT64 := by
    rw [BitVec.le_def, hmax]
    have := size.isLt
    omega
  rw [BitVec.le_def, BitVec.toNat_sub_of_le hsize, hmax]
  have := size.isLt
  omega

theorem reserveMapHobs_eq (fdt : Fdt) :
    reserveMapHobs fdt
      = fdt.acceptedEntries.map fun t => .memoryAllocation t.1 t.2 .reservedMemoryType := by
  rw [reserveMapHobs, Fdt.acceptedEntries]
  induction List.range fdt.numberOfReserveMapEntries.toNat with
  | nil => rfl
  | cons i is ih =>
      rw [List.flatMap_cons, ih, List.filterMap_cons]
      cases fdt.reserveMapEntry i with
      | none => rfl
      | some entry =>
          obtain ⟨addr, size⟩ := entry
          by_cases hok : size ≠ 0 ∧ addr.toNat + size.toNat ≤ 2 ^ 64 - 1
          · simp only [le_max_sub_iff, if_pos hok, Option.filter_some, decide_eq_true hok, if_true,
              List.map_cons]
            rfl
          · simp only [le_max_sub_iff, if_neg hok, Option.filter_some, decide_eq_false hok]
            rfl

/-- The blocks built are exactly those of the listed reservations. -/
theorem reservedBlocks_eq (fdt : Fdt) (children : List Int) :
    reserveMapHobs fdt ++ children.flatMap (reservedHobs fdt)
      = (fdt.listedReservations children).map allocationHob := by
  rw [Fdt.listedReservations, List.map_append, List.map_map, List.map_flatMap, reserveMapHobs_eq]
  congr 1
  refine congrArg (fun f => List.flatMap f children) (funext fun child => ?_)
  rw [List.map_map]
  rfl

theorem addReservedMemoryMap_lists (hchildren : fdt.ReservedChildren children)
    (hobs : List Hob) :
    Returns (fun fuel => addReservedMemoryMap fdt fuel hobs)
      (hobs ++ (fdt.listedReservations children).map allocationHob) := by
  rw [← reservedBlocks_eq, ← List.append_assoc]
  exact addReservedMemoryMap_returns hchildren hobs

theorem Fdt.mem_acceptedEntries {t : UINT64 × UINT64} :
    t ∈ fdt.acceptedEntries ↔ ∃ i : Nat, (i : Int) < fdt.numberOfReserveMapEntries ∧
      fdt.reserveMapEntry i = some t ∧ t.2 ≠ 0 ∧ t.1.toNat + t.2.toNat ≤ 2 ^ 64 - 1 := by
  rw [Fdt.acceptedEntries, List.mem_filterMap]
  refine exists_congr fun i => ?_
  rw [List.mem_range, Int.lt_toNat, Option.filter_eq_some_iff, decide_eq_true_iff]

-- ============================================================================
-- Completeness
-- ============================================================================

/-- The range `r` covers the range `t`. -/
def Covers (r t : UINT64 × UINT64) : Prop :=
  r.1.toNat ≤ t.1.toNat ∧ t.1.toNat + t.2.toNat ≤ r.1.toNat + r.2.toNat

theorem Covers.refl (t : UINT64 × UINT64) : Covers t t := ⟨Nat.le_refl _, Nat.le_refl _⟩

/-- Some block of the given type covers the range `t`. -/
def CoveredBy (hobs : List Hob) (t : UINT64 × UINT64) (memoryType : EfiMemoryType) : Prop :=
  ∃ r : UINT64 × UINT64, Hob.memoryAllocation r.1 r.2 memoryType ∈ hobs ∧ Covers r t

/-- No valid reservation is dropped from `hobs`: neither an entry of the reserve
    map nor a tuple that is valid at its own index. -/
structure Fdt.KeepsReservations (fdt : Fdt) (children : List Int) (hobs : List Hob) : Prop where
  entry : ∀ (i : Nat) (t : UINT64 × UINT64), (i : Int) < fdt.numberOfReserveMapEntries →
    fdt.reserveMapEntry i = some t → t.2 ≠ 0 → t.1.toNat + t.2.toNat ≤ 2 ^ 64 - 1 →
    CoveredBy hobs t .reservedMemoryType
  tuple : ∀ child ∈ children, ∀ (index : UINTN) (t : UINT64 × UINT64),
    readReg fdt child index = .ok t → CoveredBy hobs t (reservedMemoryTypeOf fdt child)

/-- A valid tuple of `child` that stands behind a rejected one. -/
def Fdt.SkippedTuple (fdt : Fdt) (child : Int) (t : UINT64 × UINT64) : Prop :=
  ∃ index earlier : UINTN, earlier < index ∧ readReg fdt child index = .ok t ∧
    ∃ status, readReg fdt child earlier = .error status

/-- The range is listed with the given type: by an entry of the reserve map, or by
    a tuple with only valid tuples before it. -/
def Fdt.Listed (fdt : Fdt) (children : List Int) (t : UINT64 × UINT64)
    (memoryType : EfiMemoryType) : Prop :=
  (t ∈ fdt.acceptedEntries ∧ memoryType = .reservedMemoryType) ∨
    ∃ child ∈ children, t ∈ fdt.regPrefix child ∧ memoryType = reservedMemoryTypeOf fdt child

theorem Fdt.mem_listedReservations {base size : UINT64} {memoryType : EfiMemoryType} :
    (base, size, memoryType) ∈ fdt.listedReservations children
      ↔ fdt.Listed children (base, size) memoryType := by
  simp only [Fdt.listedReservations, Fdt.Listed, List.mem_append, List.mem_map, List.mem_flatMap,
    Prod.mk.injEq]
  refine ⟨?_, ?_⟩
  · rintro (⟨⟨b, s⟩, ht, rfl, rfl, rfl⟩ | ⟨child, hchild, ⟨b, s⟩, ht, rfl, rfl, rfl⟩)
    · exact .inl ⟨ht, rfl⟩
    · exact .inr ⟨child, hchild, ht, rfl⟩
  · rintro (⟨ht, rfl⟩ | ⟨child, hchild, ht, rfl⟩)
    · exact .inl ⟨_, ht, rfl, rfl, rfl⟩
    · exact .inr ⟨child, hchild, _, ht, rfl, rfl, rfl⟩

theorem coveredBy_listed_iff {t : UINT64 × UINT64} {memoryType : EfiMemoryType} :
    CoveredBy ((fdt.listedReservations children).map allocationHob) t memoryType
      ↔ ∃ r, fdt.Listed children r memoryType ∧ Covers r t := by
  refine exists_congr fun r => and_congr_left fun _ => ?_
  rw [← Fdt.mem_listedReservations, List.mem_map]
  refine ⟨?_, ?_⟩
  · rintro ⟨⟨base, size, type⟩, hmem, heq⟩
    obtain ⟨rfl, rfl, rfl⟩ := Hob.memoryAllocation.inj heq
    exact hmem
  · intro hmem
    exact ⟨_, hmem, rfl⟩

/-- A valid tuple is in the listed prefix or behind the tuple that ends it. -/
theorem Fdt.regPrefix_or_skipped {child : Int} {index : UINTN} {t : UINT64 × UINT64}
    (h : readReg fdt child index = .ok t) :
    t ∈ fdt.regPrefix child ∨ fdt.SkippedTuple child t := by
  have hindex : BitVec.ofNat 64 index.toNat = index := by
    rw [BitVec.ofNat_toNat, BitVec.setWidth_eq]
  have hsome : fdt.regTuple child index.toNat = some t := by
    rw [Fdt.regTuple_eq_some_iff, hindex]
    exact h
  rcases Nat.lt_trichotomy index.toNat (fdt.regCount child) with hlt | heq | hgt
  · exact .inl (Fdt.mem_regPrefix.mpr ⟨index.toNat, hlt, hsome⟩)
  · rw [heq, Fdt.regTuple_regCount] at hsome
    cases hsome
  · obtain ⟨status, hstatus⟩ := Fdt.regTuple_eq_none_iff.mp (fdt.regTuple_regCount child)
    have hcount : (BitVec.ofNat 64 (fdt.regCount child)).toNat = fdt.regCount child :=
      Nat.mod_eq_of_lt (by have := index.isLt; omega)
    refine .inr ⟨index, BitVec.ofNat 64 (fdt.regCount child), ?_, h, status, hstatus⟩
    rw [BitVec.lt_def, hcount]
    exact hgt

theorem keepsReservations_listed_iff :
    fdt.KeepsReservations children ((fdt.listedReservations children).map allocationHob)
      ↔ ∀ child ∈ children, ∀ t, fdt.SkippedTuple child t →
          ∃ r, fdt.Listed children r (reservedMemoryTypeOf fdt child) ∧ Covers r t := by
  refine ⟨?_, ?_⟩
  · rintro hkeeps child hchild t ⟨index, -, -, hread, -⟩
    exact coveredBy_listed_iff.mp (hkeeps.tuple child hchild index t hread)
  · intro hskipped
    refine ⟨fun i t hi hentry hsize hend => ?_, fun child hchild index t hread => ?_⟩
    · have haccepted := Fdt.mem_acceptedEntries.mpr ⟨i, hi, hentry, hsize, hend⟩
      exact coveredBy_listed_iff.mpr ⟨t, .inl ⟨haccepted, rfl⟩, .refl t⟩
    · rw [coveredBy_listed_iff]
      rcases Fdt.regPrefix_or_skipped hread with hmem | hskip
      · exact ⟨t, .inr ⟨child, hchild, hmem, rfl⟩, .refl t⟩
      · exact hskipped child hchild t hskip

/-- The reserve-map loop passes over a bad entry, but the tuple loop ends at the
    first bad tuple: no reservation is lost exactly when every valid tuple behind
    a rejected one lies in a range that is listed anyway with its type. -/
theorem addReservedMemoryMap_keeps_iff (fdt : Fdt) (children : List Int)
    (hchildren : fdt.ReservedChildren children) (hobs : List Hob) :
    ∃ built, Returns (fun fuel => addReservedMemoryMap fdt fuel hobs) (hobs ++ built) ∧
      (fdt.KeepsReservations children built ↔ ∀ child ∈ children, ∀ t, fdt.SkippedTuple child t →
        ∃ r, fdt.Listed children r (reservedMemoryTypeOf fdt child) ∧ Covers r t) :=
  ⟨_, addReservedMemoryMap_lists hchildren hobs, keepsReservations_listed_iff⟩

/-- An empty range at `0x1000`, then one page at `0x2000`. -/
def emptyFirstReg : FdtProp :=
  ⟨[0, 0, 0x10, 0, 0, 0, 0, 0, 0, 0, 0x20, 0, 0, 0, 0x10, 0], by decide⟩

theorem addReservedMemoryMap_keeps_iff_sample :
    ∃ built, Returns (fun fuel => addReservedMemoryMap (sampleFdt emptyFirstReg) fuel []) built ∧
      ((sampleFdt emptyFirstReg).KeepsReservations [24] built ↔
        ∀ child ∈ [24], ∀ t, (sampleFdt emptyFirstReg).SkippedTuple child t →
          ∃ r, (sampleFdt emptyFirstReg).Listed [24] r
            (reservedMemoryTypeOf (sampleFdt emptyFirstReg) child) ∧ Covers r t) :=
  addReservedMemoryMap_keeps_iff _ _ (sampleFdt_reservedChildren emptyFirstReg) []

/-- A rejected first tuple empties the prefix. -/
theorem Fdt.regPrefix_eq_nil {node : Int} {status : EfiStatus}
    (h : readReg fdt node 0 = .error status) : fdt.regPrefix node = [] := by
  have hcount : fdt.regCount node = 0 := by
    rw [Fdt.regCount, Nat.find_eq_zero, Fdt.regTuple_eq_none_iff]
    exact ⟨status, h⟩
  rw [Fdt.regPrefix, hcount, Fdt.tuplesBefore_zero]

/-- The page at `0x2000` is lost. -/
theorem addReservedMemoryMap_drops_valid_tuple :
    ∃ built, Returns (fun fuel => addReservedMemoryMap (sampleFdt emptyFirstReg) fuel []) built ∧
      ¬ (sampleFdt emptyFirstReg).KeepsReservations [24] built := by
  refine ⟨_, addReservedMemoryMap_lists (sampleFdt_reservedChildren emptyFirstReg) [], ?_⟩
  have hempty : (sampleFdt emptyFirstReg).listedReservations [24] = [] := by
    have hfirst : readReg (sampleFdt emptyFirstReg) 24 0 = .error .compromisedData := by rfl
    rw [Fdt.listedReservations, List.flatMap_singleton, Fdt.regPrefix_eq_nil hfirst]
    rfl
  intro hkeeps
  have hsecond : readReg (sampleFdt emptyFirstReg) 24 1 = .ok (0x2000, 0x1000) := by rfl
  obtain ⟨r, hmem, -⟩ := hkeeps.tuple 24 (List.mem_singleton.mpr rfl) 1 _ hsecond
  rw [hempty] at hmem
  cases hmem

-- ============================================================================
-- Page granularity
-- ============================================================================

/-- Base and size are whole pages. -/
def PageGranular (base size : UINT64) : Prop :=
  EFI_PAGE_SIZE ∣ base.toNat ∧ EFI_PAGE_SIZE ∣ size.toNat

/-- The allocation `passed` is whole pages and covers the reservation it stands for. -/
def StandsFor (passed described : UINT64 × UINT64 × EfiMemoryType) : Prop :=
  PageGranular passed.1 passed.2.1 ∧
    Covers (passed.1, passed.2.1) (described.1, described.2.1)

theorem memoryAllocations_map (rs : List (UINT64 × UINT64 × EfiMemoryType)) :
    memoryAllocations (rs.map allocationHob) = rs := by
  induction rs with
  | nil => rfl
  | cons r rs ih =>
      rw [List.map_cons, memoryAllocations, List.filterMap_cons, ← memoryAllocations, ih]
      rfl

theorem standsFor_listed_iff :
    List.Forall₂ StandsFor
        (memoryAllocations ((fdt.listedReservations children).map allocationHob))
        (fdt.listedReservations children)
      ↔ ∀ r ∈ fdt.listedReservations children, PageGranular r.1 r.2.1 := by
  rw [memoryAllocations_map, List.forall₂_same]
  exact forall₂_congr fun r _ => and_iff_left (Covers.refl _)

/-- Ranges are passed on unrounded: the allocations are whole pages and cover what
    they stand for exactly when every listed reservation is whole pages already. -/
theorem addReservedMemoryMap_pageGranular_iff (fdt : Fdt) (children : List Int)
    (hchildren : fdt.ReservedChildren children) (hobs : List Hob) :
    ∃ built, Returns (fun fuel => addReservedMemoryMap fdt fuel hobs) (hobs ++ built) ∧
      (List.Forall₂ StandsFor (memoryAllocations built) (fdt.listedReservations children) ↔
        ∀ r ∈ fdt.listedReservations children, PageGranular r.1 r.2.1) :=
  ⟨_, addReservedMemoryMap_lists hchildren hobs, standsFor_listed_iff⟩

/-- Half a page at `0x80000800`. -/
def unalignedReg : FdtProp := ⟨[0x80, 0, 0x08, 0, 0, 0, 0x08, 0], by decide⟩

theorem addReservedMemoryMap_pageGranular_iff_sample :
    ∃ built, Returns (fun fuel => addReservedMemoryMap (sampleFdt unalignedReg) fuel []) built ∧
      (List.Forall₂ StandsFor (memoryAllocations built)
          ((sampleFdt unalignedReg).listedReservations [24]) ↔
        ∀ r ∈ (sampleFdt unalignedReg).listedReservations [24], PageGranular r.1 r.2.1) :=
  addReservedMemoryMap_pageGranular_iff _ _ (sampleFdt_reservedChildren unalignedReg) []

/-- The first tuple is listed once it is accepted. -/
theorem Fdt.mem_regPrefix_of_first {node : Int} {t : UINT64 × UINT64}
    (h : readReg fdt node 0 = .ok t) : t ∈ fdt.regPrefix node := by
  have hfirst : fdt.regTuple node 0 = some t := Fdt.regTuple_eq_some_iff.mpr h
  have hpos : fdt.regCount node ≠ 0 := by
    intro hzero
    have hnone := fdt.regTuple_regCount node
    rw [hzero, hfirst] at hnone
    cases hnone
  exact Fdt.mem_regPrefix.mpr ⟨0, Nat.pos_of_ne_zero hpos, hfirst⟩

/-- The half page is passed on as it is. -/
theorem addReservedMemoryMap_passes_half_page :
    ∃ built, Returns (fun fuel => addReservedMemoryMap (sampleFdt unalignedReg) fuel []) built ∧
      ¬ List.Forall₂ StandsFor (memoryAllocations built)
        ((sampleFdt unalignedReg).listedReservations [24]) := by
  refine ⟨_, addReservedMemoryMap_lists (sampleFdt_reservedChildren unalignedReg) [], ?_⟩
  rw [List.nil_append, standsFor_listed_iff]
  have hread : readReg (sampleFdt unalignedReg) 24 0 = .ok (0x80000800, 0x800) := by rfl
  have hlisted : (0x80000800, 0x800, EfiMemoryType.bootServicesData)
      ∈ (sampleFdt unalignedReg).listedReservations [24] :=
    Fdt.mem_listedReservations.mpr
      (.inr ⟨24, List.mem_singleton.mpr rfl, Fdt.mem_regPrefix_of_first hread, rfl⟩)
  intro hgranular
  exact absurd (hgranular _ hlisted).1 (by decide)

end UemuPkg
