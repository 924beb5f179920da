/-
  UemuPkg.Library.UemuFdtLib.MmioRange

  How the drivers find and map their registers.  Each entry point looks its node up in
  the device tree, checks that the first range of its `reg` reaches behind the last
  register, aligns the range to whole pages and gives the pages to the GCD.  Base and
  size are not checked against each other again: `UemuFdtGetReg` has done that.
-/

import UemuPkg.Library.IoLib
import UemuPkg.Library.UemuFdtLib.AlignRange
import UemuPkg.Library.UemuFdtLib.RegTuples

namespace UemuPkg

open Effects (Program)

def MAX_UINTN : UINT64 := 0xFFFFFFFFFFFFFFFF

-- ============================================================================
-- The head of the entry points
-- ============================================================================

/-- `DiscoverMmioRange`: the first range of the node for `compatible`. -/
def discoverMmioRange (compatible : String) (hob : Option FdtHob) (fuel : Nat) :
    Option (Except EfiStatus (UINT64 × UINT64)) :=
  match uemuFdtGet hob (some none) with
  | (.success, some fdt) =>
    (uemuFdtFindCompatibleNode fdt (some compatible) (some 0) fuel).map fun found =>
      match found with
      | (.success, some node) =>
        match uemuFdtGetReg (fdt.map FdtBlob.toFdt) node 0 (some 0) (some 0) with
        | ⟨.success, some base, some size⟩ => .ok (base, size)
        | ⟨status, _, _⟩ => .error status
      | (status, _) => .error status
  | (status, _) => some (.error status)

/-- The range, if it has room for `minSize` bytes of registers. -/
def checkedMmioRange (compatible : String) (minSize : UINT64) (hob : Option FdtHob)
    (fuel : Nat) : Option (Except EfiStatus (UINT64 × UINT64)) :=
  (discoverMmioRange compatible hob fuel).map fun range =>
    match range with
    | .error status => .error status
    | .ok (base, size) =>
      if size < minSize ∨ base > MAX_UINTN then .error .compromisedData
      else .ok (base, size)

/-- The range of a device, and the pages around it that go to the GCD. -/
structure MmioMapping where
  base : UINT64
  size : UINT64
  gcdBase : UINT64
  gcdSize : UINT64
  deriving DecidableEq

/-- The head of an entry point, up to `UemuFdtAlignRange`. -/
def mapMmioRange (compatible : String) (minSize : UINT64) (hob : Option FdtHob) (fuel : Nat) :
    Option (Except EfiStatus MmioMapping) :=
  (checkedMmioRange compatible minSize hob fuel).map fun range =>
    match range with
    | .error status => .error status
    | .ok (base, size) =>
      match alignRange base size with
      | .error status => .error status
      | .ok (gcdBase, gcdSize) => .ok { base, size, gcdBase, gcdSize }

/-- A driver for memory-mapped registers. -/
structure MmioDriver where
  compatible : String
  /-- What its size check asks for: the end of its last register. -/
  minSize : UINT64
  /-- The entry point, after `UemuFdtAlignRange`. -/
  start : MmioMapping → DriverM EfiStatus
  /-- The calls that its other functions can make, on the base address it has kept. -/
  services : UINT64 → DriverCall → Prop

/-- The arguments of `UemuFdtAlignRange` in the entry point, if it comes to that call. -/
def MmioDriver.range (d : MmioDriver) (hob : Option FdtHob) (fuel : Nat) :
    Option (Except EfiStatus (UINT64 × UINT64)) :=
  checkedMmioRange d.compatible d.minSize hob fuel

def MmioDriver.mapping (d : MmioDriver) (hob : Option FdtHob) (fuel : Nat) :
    Option (Except EfiStatus MmioMapping) :=
  mapMmioRange d.compatible d.minSize hob fuel

/-- The entry point: its head, and what it does with the mapping. -/
def MmioDriver.entryPoint (d : MmioDriver) (hob : Option FdtHob) (fuel : Nat) :
    Option (DriverM EfiStatus) :=
  (d.mapping hob fuel).map fun mapping =>
    match mapping with
    | .error status => .ret status
    | .ok m => d.start m

/-- The calls to the GCD, in which only a failure to set the attributes is fatal. -/
def registerMmioRange (m : MmioMapping) (start : DriverM EfiStatus) : DriverM EfiStatus := do
  let _ ← addMemorySpace m.gcdBase m.gcdSize (EFI_MEMORY_UC ||| EFI_MEMORY_RUNTIME)
  let status ← setMemorySpaceAttributes m.gcdBase m.gcdSize EFI_MEMORY_UC
  if status.isError then
    return status
  else
    start

-- ============================================================================
-- What a driver may touch
-- ============================================================================

/-- The four bytes at `address` lie in the `size` bytes from `base` on, counted without
    wrap-around. -/
def WordInside (address base size : UINT64) : Prop :=
  base.toNat ≤ address.toNat ∧ address.toNat + 4 ≤ base.toNat + size.toNat

/-- The calls that keep to the mapping. -/
def MmioMapping.Allows (m : MmioMapping) : DriverCall → Prop
  | .mmioRead32 address =>
    WordInside address m.base m.size ∧ WordInside address m.gcdBase m.gcdSize
  | .mmioWrite32 address _ =>
    WordInside address m.base m.size ∧ WordInside address m.gcdBase m.gcdSize
  | .addMemorySpace base length _ => base = m.gcdBase ∧ length = m.gcdSize
  | .setMemorySpaceAttributes base length _ => base = m.gcdBase ∧ length = m.gcdSize
  | .allocateZeroPool => True
  | .install => True

/-- A mapping that covers `minSize` bytes of registers below the top of the address
    space. -/
structure MmioMapping.Covers (m : MmioMapping) (minSize : UINT64) : Prop where
  size_le : minSize.toNat ≤ m.size.toNat
  end_lt : m.base.toNat + m.size.toNat < 2 ^ 64
  gcdBase_le : m.gcdBase.toNat ≤ m.base.toNat
  le_gcdEnd : m.base.toNat + m.size.toNat ≤ m.gcdBase.toNat + m.gcdSize.toNat
  gcdEnd_lt : m.gcdBase.toNat + m.gcdSize.toNat < 2 ^ 64

-- ============================================================================
-- The mapping covers the registers
-- ============================================================================

variable {compatible : String} {minSize : UINT64} {hob : Option FdtHob} {fuel : Nat}
  {base size : UINT64} {m : MmioMapping}

/-- A range that is found does not wrap and is not empty. -/
theorem discoverMmioRange_no_wrap
    (h : discoverMmioRange compatible hob fuel = some (.ok (base, size))) :
    size ≠ 0 ∧ base.toNat + size.toNat ≤ 2 ^ 64 - 1 := by
  rw [discoverMmioRange] at h
  split at h
  · rename_i fdt _
    obtain ⟨found, -, hfound⟩ := Option.map_eq_some_iff.mp h
    split at hfound
    · rename_i node
      cases fdt with
      | none => cases hfound
      | some blob =>
          have hread : readReg blob.toFdt node 0 = .ok (base, size) := hfound
          exact readReg_no_wrap hread
    · cases hfound
  · cases Option.some.inj h

theorem checkedMmioRange_ok
    (h : checkedMmioRange compatible minSize hob fuel = some (.ok (base, size))) :
    discoverMmioRange compatible hob fuel = some (.ok (base, size)) ∧
      minSize.toNat ≤ size.toNat := by
  obtain ⟨range, hrange, hchecked⟩ := Option.map_eq_some_iff.mp h
  cases range with
  | error status => cases hchecked
  | ok range =>
      obtain ⟨base', size'⟩ := range
      dsimp only at hchecked
      split at hchecked
      · cases hchecked
      · rename_i hguard
        obtain ⟨rfl, rfl⟩ := Prod.mk.inj (Except.ok.inj hchecked)
        refine ⟨hrange, ?_⟩
        have hsize : ¬ size' < minSize := fun hlt => hguard (.inl hlt)
        rw [BitVec.lt_def] at hsize
        omega

/-- At the call in an entry point `UemuFdtAlignRange` never finds its arguments invalid. -/
theorem checkedMmioRange_align_valid
    (h : checkedMmioRange compatible minSize hob fuel = some (.ok (base, size))) (b s : UINT64) :
    (uemuFdtAlignRange base size (some b) (some s)).status ≠ .invalidParameter := by
  obtain ⟨hne, hend⟩ := discoverMmioRange_no_wrap (checkedMmioRange_ok h).1
  have hpos : size.toNat ≠ 0 := by
    intro h0
    exact hne (BitVec.eq_of_toNat_eq h0)
  rw [uemuFdtAlignRange_eq, if_neg (by omega)]
  split
  · exact nofun
  · exact nofun

/-- The mapping of an entry point covers the registers that its check asks for. -/
theorem mapMmioRange_covers (h : mapMmioRange compatible minSize hob fuel = some (.ok m)) :
    m.Covers minSize := by
  obtain ⟨range, hrange, hmap⟩ := Option.map_eq_some_iff.mp h
  cases range with
  | error status => cases hmap
  | ok range =>
      obtain ⟨base, size⟩ := range
      dsimp only at hmap
      split at hmap
      · cases hmap
      · rename_i gcdBase gcdSize halign
        obtain rfl := Except.ok.inj hmap
        obtain ⟨hdiscover, hsize⟩ := checkedMmioRange_ok hrange
        have hend := (discoverMmioRange_no_wrap hdiscover).2
        obtain ⟨hfloor, hceil, htop⟩ := alignRange_ok halign
        have hle := pageFloor_le base.toNat
        have hge := le_pageCeil (base.toNat + size.toNat)
        have hlt : pageCeil (base.toNat + size.toNat) ≤ 2 ^ 64 - 4096 := by
          rw [pageCeil, EFI_PAGE_SIZE]
          omega
        refine ⟨hsize, ?_, ?_, ?_, ?_⟩
        · show base.toNat + size.toNat < 2 ^ 64
          omega
        · show gcdBase.toNat ≤ base.toNat
          omega
        · show base.toNat + size.toNat ≤ gcdBase.toNat + gcdSize.toNat
          omega
        · show gcdBase.toNat + gcdSize.toNat < 2 ^ 64
          omega

/-- A register below the checked size lies in both ranges. -/
theorem MmioMapping.Covers.register (h : m.Covers minSize) {offset : UINT64}
    (hoffset : offset.toNat + 4 ≤ minSize.toNat) :
    WordInside (m.base + offset) m.base m.size ∧
      WordInside (m.base + offset) m.gcdBase m.gcdSize := by
  have hsize := h.size_le
  have hend := h.end_lt
  have hgcd := h.gcdBase_le
  have hgcdEnd := h.le_gcdEnd
  have hadd : (m.base + offset).toNat = m.base.toNat + offset.toNat := by
    rw [BitVec.toNat_add, Nat.mod_eq_of_lt (by omega)]
  rw [WordInside, WordInside, hadd]
  omega

theorem MmioMapping.Covers.read (h : m.Covers minSize) {offset : UINT64}
    (hoffset : offset.toNat + 4 ≤ minSize.toNat) :
    m.Allows (.mmioRead32 (m.base + offset)) := h.register hoffset

theorem MmioMapping.Covers.write (h : m.Covers minSize) {offset : UINT64}
    (hoffset : offset.toNat + 4 ≤ minSize.toNat) (value : UINT32) :
    m.Allows (.mmioWrite32 (m.base + offset) value) := h.register hoffset

/-- A 32-bit register offset is widened before it is added to the base. -/
theorem toNat_registerOffset (offset : UINT32) : (offset.setWidth 64).toNat = offset.toNat := by
  have hlt := offset.isLt
  rw [BitVec.toNat_setWidth, Nat.mod_eq_of_lt (by omega)]

/-- The GCD is given the pages of the mapping, and what follows keeps to it. -/
theorem registerMmioRange_calls {start : DriverM EfiStatus} (h : start.Calls m.Allows) :
    (registerMmioRange m start).Calls m.Allows := by
  refine .bind (Program.calls_perform ⟨rfl, rfl⟩) fun _ =>
    .bind (Program.calls_perform ⟨rfl, rfl⟩) fun status => ?_
  split
  · exact Program.calls_ret _
  · exact h

/-- On a mapping that covers its registers the driver keeps to the mapping. -/
structure MmioDriver.KeepsToMapping (d : MmioDriver) : Prop where
  start : ∀ m : MmioMapping, m.Covers d.minSize → (d.start m).Calls m.Allows
  services : ∀ m : MmioMapping, m.Covers d.minSize → ∀ call, d.services m.base call →
    m.Allows call

end UemuPkg
