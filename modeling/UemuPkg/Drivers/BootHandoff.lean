/-
  UemuPkg.Drivers.BootHandoff

  The DXE drivers on what SEC hands over.  SEC searches the tree that it was given, for
  all nodes of a device; the drivers search the copy, for the first enabled one.  The
  framebuffer that the display driver takes is therefore one whose pages SEC has published,
  and without a copy no driver touches a device.
-/

import UemuPkg.Drivers.RegisterAccess
import UemuPkg.Drivers.SimpleFbDxe.FrameBuffer
import UemuPkg.Generic.Protocol
import UemuPkg.Library.PlatformSecLib.SecPlatform
import UemuPkg.Library.UemuFdtLib.FindCompatible

namespace UemuPkg

open Effects (Program)
open FuelLoop (Returns Turn)
open Cursor (Enumerates)

-- ============================================================================
-- What SEC publishes
-- ============================================================================

/-- The `length` bytes from `address` on lie in a published range, counted without
    wrap-around. -/
def InPublishedIo (hobs : List Hob) (address : UINT64) (length : Nat) : Prop :=
  ∃ t ∈ mappedIo hobs, t.1.toNat ≤ address.toNat ∧
    address.toNat + length ≤ t.1.toNat + t.2.toNat

/-- The calls of the display driver that keep to published ranges. -/
def KeepsToPublishedIo (hobs : List Hob) : DisplayCall → Prop
  | .zeroMem buffer length => InPublishedIo hobs buffer length.toNat
  | .setMemoryAttributes baseAddress length _ => (baseAddress, length) ∈ mappedIo hobs
  | .installDisplay mode =>
    ∀ x y, x < mode.info.horizontalResolution.toNat → y < mode.info.verticalResolution.toNat →
      InPublishedIo hobs (mode.pixelAddress x y) 4
  | .frameBufferBltConfigure _ _ _ => True
  | .allocateMode => True
  | .locateCpuArch => True
  | .allocatePool _ => True

/-- `FdtOpenInto` moves a tree: FdtLib finds the same at the same offsets. -/
structure FdtBlob.Copies (copy fdt : FdtBlob) : Prop where
  toFdt : copy.toFdt = fdt.toFdt
  nodeOffsetByCompatible : copy.nodeOffsetByCompatible = fdt.nodeOffsetByCompatible

-- ============================================================================
-- The node that a driver finds
-- ============================================================================

variable {fdt copy : FdtBlob} {compatible : String} {nodes : List Int} {fuel : Nat} {node : Int}
  {hobs : List Hob} {fb : FrameBuffer} {alignedBase alignedSize : UINT64}

/-- The blob that `UemuFdtGet` returns is the one that SEC has left. -/
theorem uemuFdtGet_blob {newBase : Option FdtBlob}
    (h : uemuFdtGet (some ⟨8, newBase⟩) (some none) = (.success, some (some copy))) :
    newBase = some copy := by
  cases newBase with
  | none => cases h
  | some blob =>
      dsimp only [uemuFdtGet] at h
      split_ifs at h
      · cases h
      · cases h
      · exact Option.some.inj (Prod.mk.inj h).2

/-- Every node that `UemuFdtFindCompatibleNode` finds is one of those that the search visits. -/
theorem findCompatibleLoop_visits
    (hnodes : Enumerates (fdt.nextCompatible compatible) (fdt.nextCompatible compatible (-1)) nodes)
    {found : Except EfiStatus Int} (h : findCompatibleLoop fdt compatible fuel (-1) = some found) :
    (∃ node ∈ nodes, found = .ok node) ∨ ∃ status, status ≠ .success ∧ found = .error status := by
  -- The invariant: the rest of the walk is a part of it.
  refine FuelLoop.loop_post
    (fun current => ∃ rest, Enumerates (fdt.nextCompatible compatible)
      (fdt.nextCompatible compatible current) rest ∧ rest ⊆ nodes)
    (fun found => (∃ node ∈ nodes, found = .ok node) ∨
      ∃ status, status ≠ .success ∧ found = .error status) ?_ ?_ ⟨nodes, hnodes, fun _ h => h⟩ h
  · rintro - current current' ⟨rest, hrest, hsub⟩ hturn
    dsimp only at hturn
    split_ifs at hturn with hnotFound hneg henabled
    · cases hturn
    · cases hturn
    · cases hturn
    · obtain rfl := Turn.again.inj (Option.some.inj hturn)
      cases hrest with
      | stop hstop => exact absurd hstop hneg
      | visit _ hrest => exact ⟨_, hrest, fun _ hm => hsub (List.mem_cons_of_mem _ hm)⟩
  · rintro - current found ⟨rest, hrest, hsub⟩ hturn
    dsimp only at hturn
    split_ifs at hturn with hnotFound hneg henabled
    · obtain rfl := Turn.leave.inj (Option.some.inj hturn)
      exact .inr ⟨.notFound, nofun, rfl⟩
    · obtain rfl := Turn.leave.inj (Option.some.inj hturn)
      exact .inr ⟨.compromisedData, nofun, rfl⟩
    · obtain rfl := Turn.leave.inj (Option.some.inj hturn)
      cases hrest with
      | stop hstop => exact absurd hstop hneg
      | visit _ _ => exact .inl ⟨_, hsub List.mem_cons_self, rfl⟩
    · cases hturn

theorem uemuFdtFindCompatibleNode_visits
    (hnodes : Enumerates (fdt.nextCompatible compatible) (fdt.nextCompatible compatible (-1)) nodes)
    (h : uemuFdtFindCompatibleNode (some fdt) (some compatible) (some 0) fuel
      = some (.success, some node)) : node ∈ nodes := by
  obtain ⟨found, hloop, hfound⟩ := Option.map_eq_some_iff.mp h
  obtain ⟨node', hmem, rfl⟩ | ⟨status, hne, rfl⟩ := findCompatibleLoop_visits hnodes hloop
  · obtain rfl : node' = node := Option.some.inj (Prod.mk.inj hfound).2
    exact hmem
  · exact absurd (Prod.mk.inj hfound).1 hne

-- ============================================================================
-- The framebuffer
-- ============================================================================

/-- The framebuffer that the driver reads is among the ranges that SEC publishes. -/
theorem ReadsFrameBuffer.published {newBase : Option FdtBlob} {children : List Int}
    {devices : String → List Int} {format : List UINT8}
    (h : ReadsFrameBuffer (some ⟨8, newBase⟩) fuel fb format)
    (hwalks : fdt.Walks nodes children devices) (hheader : fdt.checkHeader = 0)
    (hcopy : ∀ copy, newBase = some copy → copy.Copies fdt)
    (halign : alignRange fb.base fb.size = .ok (alignedBase, alignedSize)) :
    (alignedBase, alignedSize) ∈ fdt.ioRanges devices := by
  obtain ⟨blob, node, hget, hfind, hreg, -⟩ := h
  obtain ⟨htree, hsearch⟩ := hcopy blob (uemuFdtGet_blob hget)
  have hmem : "simple-framebuffer" ∈ ioCompatibles := by simp [ioCompatibles]
  have hnext : blob.nextCompatible "simple-framebuffer"
      = fdt.nextCompatible "simple-framebuffer" := by
    funext node
    rw [FdtBlob.nextCompatible, FdtBlob.nextCompatible, hsearch]
  have hvisited : node ∈ devices "simple-framebuffer" := by
    refine uemuFdtFindCompatibleNode_visits ?_ hfind
    rw [hnext]
    exact hwalks.devices hheader _ hmem
  have hrange : ioRange fdt.toFdt node = some (alignedBase, alignedSize) := by
    rw [htree] at hreg
    rw [ioRange, hreg]
    dsimp only
    rw [halign]
    rfl
  exact List.mem_flatMap.mpr ⟨_, hmem, List.mem_filterMap.mpr ⟨node, hvisited, hrange⟩⟩

/-- Bytes of the framebuffer are in the pages around it. -/
theorem inPublishedIo_of_range (hmem : (alignedBase, alignedSize) ∈ mappedIo hobs)
    (halign : alignRange fb.base fb.size = .ok (alignedBase, alignedSize)) {address : UINT64}
    {length : Nat} (hstart : fb.base.toNat ≤ address.toNat)
    (hend : address.toNat + length ≤ fb.base.toNat + fb.size.toNat) :
    InPublishedIo hobs address length := by
  obtain ⟨hfloor, hceil, -⟩ := alignRange_ok halign
  have hle := pageFloor_le fb.base.toNat
  have hge := le_pageCeil (fb.base.toNat + fb.size.toNat)
  refine ⟨_, hmem, ?_, ?_⟩
  · dsimp only
    omega
  · dsimp only
    omega

/-- The calls that keep to the framebuffer keep to its block. -/
theorem FrameBuffer.Allows.published (hmem : (alignedBase, alignedSize) ∈ mappedIo hobs)
    (halign : alignRange fb.base fb.size = .ok (alignedBase, alignedSize)) (hfits : fb.Fits)
    (call : DisplayCall) (h : fb.Allows call) : KeepsToPublishedIo hobs call := by
  cases call with
  | zeroMem buffer length =>
      obtain ⟨rfl, -, hend⟩ := h
      exact inPublishedIo_of_range hmem halign (Nat.le_refl _) hend
  | setMemoryAttributes baseAddress length attributes =>
      have hsame : alignRange fb.base fb.size = .ok (baseAddress, length) := h
      rw [halign] at hsame
      obtain ⟨rfl, rfl⟩ := Prod.mk.inj (Except.ok.inj hsame)
      exact hmem
  | installDisplay mode =>
      have haddresses : fb.Addresses mode := h
      intro x y hx hy
      rw [haddresses.horizontalResolution] at hx
      rw [haddresses.verticalResolution] at hy
      obtain ⟨hstart, hend⟩ := haddresses.inside x y hx hy
      have hrows := hfits.rows_le
      exact inPublishedIo_of_range hmem halign hstart (by omega)
  | frameBufferBltConfigure frameBuffer info configured => trivial
  | allocateMode => trivial
  | locateCpuArch => trivial
  | allocatePool allocationSize => trivial

-- ============================================================================
-- From SEC to the drivers
-- ============================================================================

/-- Without the block of the device tree no driver comes to a call. -/
theorem drivers_without_tree {d : MmioDriver} (before : DisplayVariables) (fuel : Nat) :
    d.entryPoint none fuel = some (.ret .notFound) ∧
      simpleFbDxeInitialize before none fuel = some (.ret .notFound) := by
  constructor
  · rw [MmioDriver.entryPoint, MmioDriver.mapping, mapMmioRange, checkedMmioRange,
      discoverMmioRange]
    rfl
  · rw [simpleFbDxeInitialize, getSimpleFrameBuffer]
    rfl

/-- From the registers of the previous stage to the drivers.  Where the tree cannot be handed
    over, every driver returns `EFI_NOT_FOUND` and makes no call.  Where it is, a
    framebuffer that the display driver takes and that ends below the last page is one
    whose pages SEC has published: its memory attributes are set for exactly such a block,
    and the bytes that are cleared and every pixel of the mode lie in one. -/
theorem drivers_after_sec {children : List Int} {devices : String → List Int}
    (tempRam : TempRamPcds) (pcds : MemoryTypePcds) (blobAt : UINT64 → FdtBlob)
    (newBase : Option FdtBlob) (guidHob : Bool) (a0 a1 : UINT64)
    (hwalks : (blobAt a1).Walks nodes children devices)
    (hcopy : ∀ copy, newBase = some copy → copy.Copies (blobAt a1)) (hobs : List Hob) :
    ∃ result, Returns
        (fun fuel => secPhase tempRam pcds blobAt newBase guidHob a0 a1 fuel hobs) result ∧
      (PlatformAccepts (blobAt a1) newBase guidHob → result.fdtHob = some ⟨8, newBase⟩) ∧
      (¬ PlatformAccepts (blobAt a1) newBase guidHob → ∀ d ∈ mmioDrivers, ∀ before fuel,
        d.entryPoint result.fdtHob fuel = some (.ret .notFound) ∧
          simpleFbDxeInitialize before result.fdtHob fuel = some (.ret .notFound)) ∧
      ∀ fuel fb, getSimpleFrameBuffer result.fdtHob fuel = some (.found fb) →
        fb.base.toNat + fb.size.toNat ≤ 2 ^ 64 - 4096 →
        (∃ pages, alignRange fb.base fb.size = .ok pages ∧ pages ∈ mappedIo result.hobs) ∧
        ∀ before, ∃ prog, simpleFbDxeInitialize before result.fdtHob fuel = some prog ∧
          prog.Calls (KeepsToPublishedIo result.hobs) := by
  obtain ⟨result, hreturns, hhanded, -⟩ := secPlatformMain_returns pcds blobAt newBase guidHob
    (secStart tempRam a0 a1).handoff.2 hwalks hobs
  have hpublishes : SecPublishes pcds (blobAt a1) newBase guidHob nodes children devices hobs
    result := hhanded
  refine ⟨result, hreturns, fun haccepts => (hpublishes.accepted haccepts).2, ?_, ?_⟩
  · intro hrejects d _ before fuel
    rw [(hpublishes.rejected hrejects).2]
    exact drivers_without_tree before fuel
  · intro fuel fb hfound hend
    have hprog (before : DisplayVariables) :
        simpleFbDxeInitialize before result.fdtHob fuel = some (startDisplay before fb) := by
      rw [simpleFbDxeInitialize, hfound]
    by_cases haccepts : PlatformAccepts (blobAt a1) newBase guidHob
    · obtain ⟨hlist, hhob⟩ := hpublishes.accepted haccepts
      rw [hhob] at hfound
      rcases getSimpleFrameBuffer_cases hfound with ⟨status, h⟩ | ⟨fb', format, hreads, h⟩
      · cases h
      rcases checkFrameBuffer_cases fb' format with ⟨htaken, hfits, -⟩ | ⟨⟨status, -, hfailed⟩, -⟩
      · obtain rfl : fb = fb' := FrameBufferLookup.found.inj (h.trans htaken)
        have hnowrap := hreads.no_wrap
        have hsize : fb.size.toNat ≠ 0 := by
          have hwidth := hfits.width_pos
          have hrow := hfits.row_le
          have hrows := hfits.rows_le
          have hpos : 0 < fb.stride.toNat * fb.height.toNat :=
            Nat.mul_pos (by omega) hfits.height_pos
          omega
        obtain ⟨alignedBase, alignedSize, halign⟩ :
            ∃ b s, alignRange fb.base fb.size = .ok (b, s) := by
          rw [alignRange_eq, if_neg (by omega), if_neg (by omega)]
          exact ⟨_, _, rfl⟩
        have hmem : (alignedBase, alignedSize) ∈ mappedIo result.hobs := by
          have hrange := hreads.published hwalks haccepts.1 hcopy halign
          rw [hlist]
          simp [ioHobs, hrange]
        refine ⟨⟨_, halign, hmem⟩, fun before => ⟨_, hprog before, ?_⟩⟩
        exact (startDisplay_calls hfits hnowrap before).mono
          (FrameBuffer.Allows.published hmem halign hfits)
      · cases h.trans hfailed
    · rw [(hpublishes.rejected haccepts).2] at hfound
      cases hfound

theorem sampleFrameBufferBlob_walks : sampleFrameBufferBlob.Walks [] [] fun _ => [8] where
  nodes := .stop (by decide)
  children := rfl
  devices := fun _ _ _ => .visit (n := 8) (by decide) (.stop (n := -FDT_ERR_NOTFOUND) (by decide))
  ends := fun _ _ _ => .visit (n := 8) (by decide) (.stop (n := -FDT_ERR_NOTFOUND) (by decide))

/-- The tree with a framebuffer, copied without loss: its one page is published. -/
theorem drivers_after_sec_framebuffer :
    let blob := sampleFrameBufferBlob
    ∃ result prog, Returns (fun fuel => secPhase ⟨0x83000000, 0x10000⟩ ⟨0, 0, 0, 0, 0⟩
        (fun _ => blob) (some blob) true 1 0x87E00000 fuel []) result ∧
      (0x80000000, 0x1000) ∈ mappedIo result.hobs ∧
      simpleFbDxeInitialize ⟨true, true, true⟩ result.fdtHob 1 = some prog ∧
      prog.Calls (KeepsToPublishedIo result.hobs) := by
  have hcopy : ∀ copy, some sampleFrameBufferBlob = some copy →
      copy.Copies sampleFrameBufferBlob := by
    rintro copy hsame
    obtain rfl := Option.some.inj hsame
    exact ⟨rfl, rfl⟩
  obtain ⟨result, hreturns, haccepted, -, hframebuffer⟩ :=
    drivers_after_sec ⟨0x83000000, 0x10000⟩ ⟨0, 0, 0, 0, 0⟩ (fun _ => sampleFrameBufferBlob)
      (some sampleFrameBufferBlob) true 1 0x87E00000 sampleFrameBufferBlob_walks hcopy []
  have hfound : getSimpleFrameBuffer result.fdtHob 1
      = some (.found ⟨0x80000000, 0x40, 2, 2, 12⟩) := by
    rw [haccepted ⟨rfl, nofun, rfl⟩]
    decide +kernel
  obtain ⟨⟨pages, halign, hpages⟩, hinitialize⟩ := hframebuffer 1 _ hfound (by decide)
  obtain ⟨prog, hprog, hcalls⟩ := hinitialize ⟨true, true, true⟩
  obtain rfl : pages = (0x80000000, 0x1000) :=
    Except.ok.inj (halign.symm.trans (by decide +kernel))
  exact ⟨result, prog, hreturns, hpages, hprog, hcalls⟩

end UemuPkg
