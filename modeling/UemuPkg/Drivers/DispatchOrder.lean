/-
  UemuPkg.Drivers.DispatchOrder

  The drivers in the order in which the dispatcher happens to start them.  They share the
  memory map of the DXE services, and registers of two devices may lie in one page.  Three of
  the drivers go on where their pages have been added already; the clock does not, and the
  others set the attributes of a shared page without `EFI_MEMORY_RUNTIME`.

  The services stand outside of this package, and what they do to the map is assumed
  (`DxeServices.Lawful`).
-/

import Mathlib.Order.Interval.Finset.Nat
import UemuPkg.Drivers.RegisterAccess
import UemuPkg.Generic.Protocol

namespace UemuPkg

open Effects (Program)

-- ============================================================================
-- The memory map
-- ============================================================================

/-- The pages of a range of whole pages. -/
def pagesOf (base length : UINT64) : Finset Nat :=
  Finset.Ico (base.toNat / EFI_PAGE_SIZE) ((base.toNat + length.toNat) / EFI_PAGE_SIZE)

/-- The pages that a driver asks for. -/
def MmioMapping.pages (m : MmioMapping) : Finset Nat := pagesOf m.gcdBase m.gcdSize

/-- The capabilities of the pages that have been added, and the attributes of each page. -/
structure MemoryMap where
  capabilities : Nat → Option UINT64
  attributes : Nat → UINT64

namespace MemoryMap

/-- No page has been added. -/
def Free (g : MemoryMap) (pages : Finset Nat) : Prop := ∀ page ∈ pages, g.capabilities page = none

/-- Every page has been added, with the capabilities for the attributes. -/
def Supports (g : MemoryMap) (pages : Finset Nat) (attributes : UINT64) : Prop :=
  ∀ page ∈ pages, ∃ c ∈ g.capabilities page, attributes &&& c = attributes

instance (g : MemoryMap) (pages : Finset Nat) : Decidable (g.Free pages) :=
  inferInstanceAs (Decidable (∀ page ∈ pages, g.capabilities page = none))

instance (g : MemoryMap) (pages : Finset Nat) (attributes : UINT64) :
    Decidable (g.Supports pages attributes) :=
  inferInstanceAs (Decidable (∀ page ∈ pages, ∃ c ∈ g.capabilities page,
    attributes &&& c = attributes))

/-- The maps say the same about the page. -/
def Agree (g g' : MemoryMap) (page : Nat) : Prop :=
  g'.capabilities page = g.capabilities page ∧ g'.attributes page = g.attributes page

/-- `AddMemorySpace` adds pages if all are free, and else changes nothing. -/
structure Added (pages : Finset Nat) (capabilities : UINT64) (g : MemoryMap) (status : EfiStatus)
    (g' : MemoryMap) : Prop where
  success_iff : status = .success ↔ g.Free pages
  supports : g.Free pages → g'.Supports pages capabilities
  others : ∀ page ∉ pages, g.Agree g' page
  refused : ¬ g.Free pages → g' = g

/-- `SetMemorySpaceAttributes` replaces the attributes of pages if all have been added with the
    capabilities for the new ones, and else changes nothing. -/
structure AttributesSet (pages : Finset Nat) (attributes : UINT64) (g : MemoryMap)
    (status : EfiStatus) (g' : MemoryMap) : Prop where
  success_iff : status = .success ↔ g.Supports pages attributes
  capabilities : g'.capabilities = g.capabilities
  replaced : g.Supports pages attributes → ∀ page ∈ pages, g'.attributes page = attributes
  others : ∀ page ∉ pages, g'.attributes page = g.attributes page
  refused : ¬ g.Supports pages attributes → g' = g

/-- The start of a driver.  It gets its pages if they are free, or if it can share them. -/
structure Started (shares : Prop) (pages : Finset Nat) (attributes : UINT64) (g : MemoryMap)
    (status : EfiStatus) (g' : MemoryMap) : Prop where
  success_iff : status = .success ↔ g.Free pages ∨ shares ∧ g.Supports pages attributes
  supports : status = .success → g'.Supports pages attributes
  replaced : status = .success → ∀ page ∈ pages, g'.attributes page = attributes
  keeps : ∀ page c, g.capabilities page = some c → g'.capabilities page = some c
  others : ∀ page ∉ pages, g.Agree g' page
  refused : status ≠ .success → g' = g

variable {g g' g'' : MemoryMap} {pages : Finset Nat} {attributes capabilities : UINT64}
  {status status' : EfiStatus} {shares : Prop}

theorem Supports.mono (h : g.Supports pages capabilities)
    (hsub : attributes &&& capabilities = attributes) : g.Supports pages attributes := by
  intro page hpage
  obtain ⟨c, hc, hcap⟩ := h page hpage
  refine ⟨c, hc, ?_⟩
  rw [← hsub, BitVec.and_assoc, hcap]

theorem Supports.congr (h : g.Supports pages attributes)
    (hcapabilities : g'.capabilities = g.capabilities) : g'.Supports pages attributes := by
  intro page hpage
  rw [hcapabilities]
  exact h page hpage

theorem Added.keeps (h : Added pages capabilities g status g') {page : Nat} {c : UINT64}
    (hpage : g.capabilities page = some c) : g'.capabilities page = some c := by
  by_cases hfree : g.Free pages
  · have hmem : page ∉ pages := fun hmem => Option.some_ne_none c (hpage ▸ hfree page hmem)
    exact (h.others page hmem).1.trans hpage
  · rw [h.refused hfree]
    exact hpage

/-- Pages asked for, whatever the answer, and then set: what three of the drivers do. -/
theorem Added.set (hadd : Added pages capabilities g status g')
    (hset : AttributesSet pages attributes g' status' g'')
    (hsub : attributes &&& capabilities = attributes) :
    Started True pages attributes g status' g'' := by
  have hsupports : g'.Supports pages attributes ↔ g.Free pages ∨ g.Supports pages attributes := by
    by_cases hfree : g.Free pages
    · exact iff_of_true ((hadd.supports hfree).mono hsub) (.inl hfree)
    · rw [hadd.refused hfree, or_iff_right hfree]
  constructor
  · rw [hset.success_iff, hsupports, true_and]
  · exact fun hstatus => (hset.success_iff.mp hstatus).congr hset.capabilities
  · exact fun hstatus => hset.replaced (hset.success_iff.mp hstatus)
  · intro page c hpage
    rw [hset.capabilities]
    exact hadd.keeps hpage
  · intro page hpage
    obtain ⟨hcapabilities, hattributes⟩ := hadd.others page hpage
    exact ⟨hset.capabilities ▸ hcapabilities, (hset.others page hpage).trans hattributes⟩
  · intro hstatus
    have hnot : ¬ g'.Supports pages attributes := fun h => hstatus (hset.success_iff.mpr h)
    rw [hset.refused hnot, hadd.refused fun hfree => hnot (hsupports.mpr (.inl hfree))]

/-- Pages asked for and set only if they were granted: what the clock does. -/
theorem Added.set_of_granted (hadd : Added pages capabilities g status g')
    (hset : AttributesSet pages capabilities g' status' g'') (hstatus : status = .success) :
    Started False pages capabilities g status' g'' := by
  have hfree := hadd.success_iff.mp hstatus
  have hstart := hadd.set hset (BitVec.and_self)
  have hiff : status' = .success ↔ g.Free pages ∨ False ∧ g.Supports pages capabilities :=
    hstart.success_iff.trans (iff_of_true (Or.inl hfree) (Or.inl hfree))
  exact { hstart with success_iff := hiff }

theorem Added.not_granted (hadd : Added pages capabilities g status g')
    (hstatus : status ≠ .success) : Started False pages attributes g status g' := by
  have hfree : ¬ g.Free pages := fun hfree => hstatus (hadd.success_iff.mpr hfree)
  obtain rfl := hadd.refused hfree
  exact ⟨iff_of_false hstatus fun h => h.elim hfree fun h => h.1, fun h => absurd h hstatus,
    fun h => absurd h hstatus, fun _ _ h => h, fun _ _ => ⟨rfl, rfl⟩, fun _ => rfl⟩

end MemoryMap

-- ============================================================================
-- The services
-- ============================================================================

/-- The services as the drivers find them, with their memory map and the end of the addresses
    that it covers. -/
structure DxeServices (σ : Type) where
  answer : σ → (call : DriverCall) → call.Result × σ
  map : σ → MemoryMap
  size : Nat

variable {σ : Type} (S : DxeServices σ)

def DxeServices.addMemorySpace (s : σ) (base length capabilities : UINT64) : EfiStatus × σ :=
  S.answer s (.addMemorySpace base length capabilities)

def DxeServices.setMemorySpaceAttributes (s : σ) (base length attributes : UINT64) :
    EfiStatus × σ :=
  S.answer s (.setMemorySpaceAttributes base length attributes)

/-- A range that the services take: whole pages inside of the map. -/
structure DxeServices.Takes (base length : UINT64) : Prop where
  base_dvd : EFI_PAGE_SIZE ∣ base.toNat
  length_dvd : EFI_PAGE_SIZE ∣ length.toNat
  length_pos : 0 < length.toNat
  end_le : base.toNat + length.toNat ≤ S.size

/-- The calls that do not concern the map. -/
def DriverCall.LeavesMap : DriverCall → Prop
  | .addMemorySpace _ _ _ => False
  | .setMemorySpaceAttributes _ _ _ => False
  | _ => True

/-- The two calls do to the map what they are for, and the others nothing.  Pool is there, and
    events and protocols are accepted. -/
structure DxeServices.Lawful : Prop where
  added : ∀ s base length capabilities, S.Takes base length →
    (S.map s).Added (pagesOf base length) capabilities
      (S.addMemorySpace s base length capabilities).1
      (S.map (S.addMemorySpace s base length capabilities).2)
  attributesSet : ∀ s base length attributes, S.Takes base length →
    attributes &&& EFI_MEMORY_UC = EFI_MEMORY_UC →
    (S.map s).AttributesSet (pagesOf base length) attributes
      (S.setMemorySpaceAttributes s base length attributes).1
      (S.map (S.setMemorySpaceAttributes s base length attributes).2)
  keeps : ∀ s call, call.LeavesMap → S.map (S.answer s call).2 = S.map s
  allocates : ∀ s, (S.answer s .allocateZeroPool).1 = true
  installs : ∀ s, (S.answer s .install).1 = EfiStatus.success

/-- The entry point of a driver that has found its mapping. -/
def startDriver (s : σ) (x : MmioDriver × MmioMapping) : EfiStatus × σ :=
  (x.1.start x.2).run S.answer s

/-- The state that the drivers leave, started in order. -/
def startAll (s : σ) (order : List (MmioDriver × MmioMapping)) : σ :=
  order.foldl (fun s x => (startDriver S s x).2) s

/-- The drivers whose entry point has returned `EFI_SUCCESS`. -/
def startedDrivers : σ → List (MmioDriver × MmioMapping) → List (MmioDriver × MmioMapping)
  | _, [] => []
  | s, x :: order =>
    if (startDriver S s x).1 = .success then
      x :: startedDrivers (startDriver S s x).2 order
    else
      startedDrivers (startDriver S s x).2 order

variable {S} {s : σ} {m : MmioMapping} {x y : MmioDriver × MmioMapping}
  {order : List (MmioDriver × MmioMapping)} {prog : DriverM EfiStatus}

theorem map_run (hS : S.Lawful) (h : prog.Calls DriverCall.LeavesMap) (s : σ) :
    S.map (prog.run S.answer s).2 = S.map s := h.run_keeps hS.keeps s

theorem run_allocateZeroPool (hS : S.Lawful) (f : Bool → DriverM EfiStatus) (s : σ) :
    (allocateZeroPool >>= f).run S.answer s
      = (f true).run S.answer (S.answer s .allocateZeroPool).2 := by
  show (f (S.answer s .allocateZeroPool).1).run S.answer (S.answer s .allocateZeroPool).2 = _
  rw [hS.allocates]

theorem run_install (hS : S.Lawful) (f : EfiStatus → DriverM EfiStatus) (s : σ) :
    (install >>= f).run S.answer s = (f .success).run S.answer (S.answer s .install).2 := by
  show (f (S.answer s .install).1).run S.answer (S.answer s .install).2 = _
  rw [hS.installs]

-- ============================================================================
-- One driver
-- ============================================================================

/-- The start of a driver, as its pages see it. -/
def Starts (S : DxeServices σ) (shares : Prop) (attributes : UINT64) (m : MmioMapping) (s : σ)
    (result : EfiStatus × σ) : Prop :=
  (S.map s).Started shares m.pages attributes result.1 (S.map result.2)

/-- A failure to set the attributes ends the function; else what follows succeeds, and leaves
    the map as it is. -/
theorem run_set (hS : S.Lawful) (h : prog.Calls DriverCall.LeavesMap)
    (hsuccess : ∀ s, (prog.run S.answer s).1 = .success) (attributes : UINT64) (s : σ) :
    let set := S.setMemorySpaceAttributes s m.gcdBase m.gcdSize attributes
    let result := (do
      let status ← setMemorySpaceAttributes m.gcdBase m.gcdSize attributes
      if status.isError then
        return status
      else
        prog : DriverM EfiStatus).run S.answer s
    result.1 = set.1 ∧ S.map result.2 = S.map set.2 := by
  intro set result
  have hresult : result
      = (if set.1.isError then (.ret set.1 : DriverM EfiStatus) else prog).run S.answer set.2 := rfl
  by_cases hstatus : set.1 = .success
  · have herror : ¬ set.1.isError = true := by simp [hstatus, EfiStatus.isError]
    rw [hresult, if_neg herror, hsuccess, hstatus]
    exact ⟨rfl, map_run hS h _⟩
  · have herror : set.1.isError = true := by simp [hstatus, EfiStatus.isError]
    rw [hresult, if_pos herror]
    exact ⟨rfl, rfl⟩

/-- The head that three of the drivers share, with the rest of the entry point. -/
theorem registerMmioRange_starts (hS : S.Lawful) (htakes : S.Takes m.gcdBase m.gcdSize)
    (h : prog.Calls DriverCall.LeavesMap) (hsuccess : ∀ s, (prog.run S.answer s).1 = .success)
    (s : σ) : Starts S True EFI_MEMORY_UC m s ((registerMmioRange m prog).run S.answer s) := by
  have hsub : EFI_MEMORY_UC &&& (EFI_MEMORY_UC ||| EFI_MEMORY_RUNTIME) = EFI_MEMORY_UC := by decide
  let added := S.addMemorySpace s m.gcdBase m.gcdSize (EFI_MEMORY_UC ||| EFI_MEMORY_RUNTIME)
  have hadded := hS.added s _ _ (EFI_MEMORY_UC ||| EFI_MEMORY_RUNTIME) htakes
  have hset := hS.attributesSet added.2 _ _ EFI_MEMORY_UC htakes BitVec.and_self
  obtain ⟨hstatus, hmap⟩ := run_set (m := m) hS h hsuccess EFI_MEMORY_UC added.2
  have hstart := hadded.set hset hsub
  rw [← hstatus, ← hmap] at hstart
  exact hstart

/-- What the clock sets on its pages. -/
def clockAttributes : UINT64 := EFI_MEMORY_UC ||| EFI_MEMORY_RUNTIME ||| EFI_MEMORY_XP

theorem install_leavesMap : install.Calls DriverCall.LeavesMap := Program.calls_perform trivial

/-- The clock, which stops if one of its pages is taken. -/
theorem goldfishRtc_starts (hS : S.Lawful) (htakes : S.Takes m.gcdBase m.gcdSize) (s : σ) :
    Starts S False clockAttributes m s ((goldfishRtc.start m).run S.answer s) := by
  let added := S.addMemorySpace s m.gcdBase m.gcdSize clockAttributes
  have hadded := hS.added s _ _ clockAttributes htakes
  have hrun : (goldfishRtc.start m).run S.answer s
      = (if added.1.isError then (.ret added.1 : DriverM EfiStatus) else do
          let status ← setMemorySpaceAttributes m.gcdBase m.gcdSize clockAttributes
          if status.isError then return status else install).run S.answer added.2 := rfl
  by_cases hgranted : added.1 = .success
  · have herror : ¬ added.1.isError = true := by simp [hgranted, EfiStatus.isError]
    have huc : clockAttributes &&& EFI_MEMORY_UC = EFI_MEMORY_UC := by decide
    have hset := hS.attributesSet added.2 _ _ clockAttributes htakes huc
    obtain ⟨hstatus, hmap⟩ := run_set (m := m) hS install_leavesMap hS.installs clockAttributes
      added.2
    have hstart := hadded.set_of_granted hset hgranted
    rw [← hstatus, ← hmap] at hstart
    rw [hrun, if_neg herror]
    exact hstart
  · have herror : added.1.isError = true := by simp [hgranted, EfiStatus.isError]
    rw [hrun, if_pos herror]
    exact hadded.not_granted hgranted

theorem bcm2835Rng_starts (hS : S.Lawful) (htakes : S.Takes m.gcdBase m.gcdSize) (s : σ) :
    Starts S True EFI_MEMORY_UC m s ((bcm2835Rng.start m).run S.answer s) := by
  refine registerMmioRange_starts hS htakes ?_ (fun _ => rfl) s
  exact .bind (Program.calls_perform trivial) fun _ => .bind (Program.calls_perform trivial)
    fun _ => .bind (Program.calls_perform trivial) fun _ => Program.calls_ret _

theorem goldfishEvents_starts (hS : S.Lawful) (htakes : S.Takes m.gcdBase m.gcdSize) (s : σ) :
    Starts S True EFI_MEMORY_UC m s ((goldfishEvents.start m).run S.answer s) := by
  refine registerMmioRange_starts hS htakes ?_ ?_ s
  · refine .bind (Program.calls_perform trivial) fun granted => ?_
    split
    · exact .bind (Program.calls_perform trivial) fun _ => .bind (Program.calls_perform trivial)
        fun _ => Program.calls_perform trivial
    · exact Program.calls_ret _
  · intro s
    rw [run_allocateZeroPool hS]
    exact hS.installs _

theorem goldfishBattery_starts (hS : S.Lawful) (htakes : S.Takes m.gcdBase m.gcdSize) (s : σ) :
    Starts S True EFI_MEMORY_UC m s ((goldfishBattery.start m).run S.answer s) := by
  have hreads : (readBatteryInfo m.base).Calls DriverCall.LeavesMap := by
    iterate 15 refine .bind (Program.calls_perform trivial) fun _ => ?_
    exact Program.calls_ret _
  refine registerMmioRange_starts hS htakes ?_ ?_ s
  · refine .bind hreads fun _ => .bind (Program.calls_perform trivial) fun granted => ?_
    split
    · refine .bind (Program.calls_perform trivial) fun status => ?_
      split
      · exact Program.calls_ret _
      · exact Program.calls_ret _
    · exact Program.calls_ret _
  · intro s
    rw [Program.run_bind, run_allocateZeroPool hS, if_pos rfl, run_install hS]
    rfl

/-- A driver is the clock, or shares its pages. -/
theorem mmioDrivers_starts (hS : S.Lawful) (hx : x.1 ∈ mmioDrivers)
    (htakes : S.Takes x.2.gcdBase x.2.gcdSize) (s : σ) :
    x.1 = goldfishRtc ∧ Starts S False clockAttributes x.2 s (startDriver S s x) ∨
      x.1 ≠ goldfishRtc ∧ Starts S True EFI_MEMORY_UC x.2 s (startDriver S s x) := by
  obtain ⟨d, m⟩ := x
  have hne : d.compatible ≠ goldfishRtc.compatible → d ≠ goldfishRtc :=
    fun hne heq => hne (congrArg MmioDriver.compatible heq)
  rcases List.mem_cons.mp hx with rfl | hx
  · exact .inr ⟨hne (by decide), bcm2835Rng_starts hS htakes s⟩
  rcases List.mem_cons.mp hx with rfl | hx
  · exact .inr ⟨hne (by decide), goldfishEvents_starts hS htakes s⟩
  rcases List.mem_cons.mp hx with rfl | hx
  · exact .inr ⟨hne (by decide), goldfishBattery_starts hS htakes s⟩
  obtain rfl := List.mem_singleton.mp hx
  exact .inl ⟨rfl, goldfishRtc_starts hS htakes s⟩

-- ============================================================================
-- Drivers in order
-- ============================================================================

/-- A driver of the device tree, with the mapping of its entry point. -/
structure DxeServices.Finds (S : DxeServices σ) (hob : Option FdtHob) (fuel : Nat)
    (x : MmioDriver × MmioMapping) : Prop where
  driver : x.1 ∈ mmioDrivers
  mapping : x.1.mapping hob fuel = some (.ok x.2)
  end_le : x.2.gcdBase.toNat + x.2.gcdSize.toNat ≤ S.size

variable {hob : Option FdtHob} {fuel : Nat} {page : Nat} {c : UINT64}

theorem mmioDrivers_minSize_pos {d : MmioDriver} (hd : d ∈ mmioDrivers) : 0 < d.minSize.toNat := by
  rcases List.mem_cons.mp hd with rfl | hd
  · decide
  rcases List.mem_cons.mp hd with rfl | hd
  · decide
  rcases List.mem_cons.mp hd with rfl | hd
  · decide
  obtain rfl := List.mem_singleton.mp hd
  decide

/-- `UemuFdtAlignRange` gives whole pages. -/
theorem mapMmioRange_dvd {compatible : String} {minSize : UINT64}
    (h : mapMmioRange compatible minSize hob fuel = some (.ok m)) :
    EFI_PAGE_SIZE ∣ m.gcdBase.toNat ∧ EFI_PAGE_SIZE ∣ m.gcdSize.toNat := by
  obtain ⟨range, -, hmap⟩ := Option.map_eq_some_iff.mp h
  cases range with
  | error status => cases hmap
  | ok range =>
      obtain ⟨base, size⟩ := range
      dsimp only at hmap
      split at hmap
      · cases hmap
      · rename_i gcdBase gcdSize halign
        obtain rfl := Except.ok.inj hmap
        obtain ⟨hfloor, hceil, -⟩ := alignRange_ok halign
        have hbase : EFI_PAGE_SIZE ∣ gcdBase.toNat := by
          rw [hfloor]
          exact Nat.dvd_mul_left _ _
        have hend : EFI_PAGE_SIZE ∣ gcdBase.toNat + gcdSize.toNat := by
          rw [hceil]
          exact Nat.dvd_mul_left _ _
        exact ⟨hbase, (Nat.dvd_add_right hbase).mp hend⟩

theorem DxeServices.Finds.takes (h : S.Finds hob fuel x) : S.Takes x.2.gcdBase x.2.gcdSize := by
  obtain ⟨hbase, hlength⟩ := mapMmioRange_dvd h.mapping
  have hcovers : x.2.Covers x.1.minSize := mapMmioRange_covers h.mapping
  have hpos := mmioDrivers_minSize_pos h.driver
  have hsize := hcovers.size_le
  have hfirst := hcovers.gcdBase_le
  have hlast := hcovers.le_gcdEnd
  exact ⟨hbase, hlength, by omega, h.end_le⟩

theorem DxeServices.Finds.starts (hS : S.Lawful) (h : S.Finds hob fuel x) (s : σ) :
    x.1 = goldfishRtc ∧ Starts S False clockAttributes x.2 s (startDriver S s x) ∨
      x.1 ≠ goldfishRtc ∧ Starts S True EFI_MEMORY_UC x.2 s (startDriver S s x) :=
  mmioDrivers_starts hS h.driver h.takes s

/-- A page that has been added stays. -/
theorem startDriver_keeps (hS : S.Lawful) (h : S.Finds hob fuel x)
    (hpage : (S.map s).capabilities page = some c) :
    (S.map (startDriver S s x).2).capabilities page = some c := by
  rcases h.starts hS s with ⟨-, hstart⟩ | ⟨-, hstart⟩
  · exact hstart.keeps page c hpage
  · exact hstart.keeps page c hpage

theorem startDriver_others (hS : S.Lawful) (h : S.Finds hob fuel x) (hpage : page ∉ x.2.pages) :
    (S.map s).Agree (S.map (startDriver S s x).2) page := by
  rcases h.starts hS s with ⟨-, hstart⟩ | ⟨-, hstart⟩
  · exact hstart.others page hpage
  · exact hstart.others page hpage

/-- A start that succeeds has added the pages, and made them uncacheable. -/
theorem startDriver_success (hS : S.Lawful) (h : S.Finds hob fuel x)
    (hstatus : (startDriver S s x).1 = .success) (hpage : page ∈ x.2.pages) :
    (∃ c, (S.map (startDriver S s x).2).capabilities page = some c) ∧
      (S.map (startDriver S s x).2).attributes page &&& EFI_MEMORY_UC = EFI_MEMORY_UC := by
  rcases h.starts hS s with ⟨-, hstart⟩ | ⟨-, hstart⟩
  · obtain ⟨c, hc, -⟩ := hstart.supports hstatus page hpage
    rw [hstart.replaced hstatus page hpage]
    exact ⟨⟨c, hc⟩, by decide⟩
  · obtain ⟨c, hc, -⟩ := hstart.supports hstatus page hpage
    rw [hstart.replaced hstatus page hpage]
    exact ⟨⟨c, hc⟩, BitVec.and_self⟩

/-- What a start does to the attributes of a page that is there already: only a driver that
    shares it touches it. -/
theorem startDriver_attributes (hS : S.Lawful) (h : S.Finds hob fuel x)
    (hpage : (S.map s).capabilities page = some c) :
    (S.map (startDriver S s x).2).attributes page
      = if (startDriver S s x).1 = .success ∧ page ∈ x.2.pages then EFI_MEMORY_UC
        else (S.map s).attributes page := by
  by_cases hmem : page ∈ x.2.pages
  · by_cases hstatus : (startDriver S s x).1 = .success
    · rw [if_pos ⟨hstatus, hmem⟩]
      rcases h.starts hS s with ⟨-, hstart⟩ | ⟨-, hstart⟩
      · -- the clock does not start on a page that is taken
        rcases hstart.success_iff.mp hstatus with hfree | ⟨hshares, -⟩
        · exact absurd (hpage.symm.trans (hfree page hmem)) (Option.some_ne_none c)
        · exact hshares.elim
      · exact hstart.replaced hstatus page hmem
    · rw [if_neg fun h => hstatus h.1]
      rcases h.starts hS s with ⟨-, hstart⟩ | ⟨-, hstart⟩
      · rw [hstart.refused hstatus]
      · rw [hstart.refused hstatus]
  · rw [if_neg fun h => hmem h.2]
    exact (startDriver_others hS h hmem).2

theorem startAll_cons (s : σ) (x : MmioDriver × MmioMapping)
    (order : List (MmioDriver × MmioMapping)) :
    startAll S s (x :: order) = startAll S (startDriver S s x).2 order := rfl

theorem startAll_keeps (hS : S.Lawful) (horder : ∀ x ∈ order, S.Finds hob fuel x)
    (hpage : (S.map s).capabilities page = some c) :
    (S.map (startAll S s order)).capabilities page = some c := by
  induction order generalizing s with
  | nil => exact hpage
  | cons x order ih =>
      obtain ⟨hx, hrest⟩ := List.forall_mem_cons.mp horder
      exact ih hrest (startDriver_keeps hS hx hpage)

/-- Whatever started has its pages in the map. -/
theorem startedDrivers_added (hS : S.Lawful) (horder : ∀ x ∈ order, S.Finds hob fuel x)
    (hy : y ∈ startedDrivers S s order) (hpage : page ∈ y.2.pages) :
    ∃ c, (S.map (startAll S s order)).capabilities page = some c := by
  induction order generalizing s with
  | nil => cases hy
  | cons x order ih =>
      obtain ⟨hx, hrest⟩ := List.forall_mem_cons.mp horder
      rw [startAll_cons]
      by_cases hstatus : (startDriver S s x).1 = .success
      · rw [startedDrivers, if_pos hstatus] at hy
        rcases List.mem_cons.mp hy with rfl | hy
        · obtain ⟨⟨c, hc⟩, -⟩ := startDriver_success hS hx hstatus hpage
          exact ⟨c, startAll_keeps hS hrest hc⟩
        · exact ih hrest hy
      · rw [startedDrivers, if_neg hstatus] at hy
        exact ih hrest hy

/-- The attributes of a page that is there already, after all starts. -/
theorem startAll_attributes (hS : S.Lawful) (horder : ∀ x ∈ order, S.Finds hob fuel x)
    (hpage : (S.map s).capabilities page = some c) :
    (S.map (startAll S s order)).attributes page
      = if ∃ y ∈ startedDrivers S s order, page ∈ y.2.pages then EFI_MEMORY_UC
        else (S.map s).attributes page := by
  induction order generalizing s with
  | nil => simp [startAll, startedDrivers]
  | cons x order ih =>
      obtain ⟨hx, hrest⟩ := List.forall_mem_cons.mp horder
      have hrun := ih hrest (startDriver_keeps hS hx hpage)
      rw [startDriver_attributes hS hx hpage] at hrun
      rw [startAll_cons, hrun]
      by_cases hstatus : (startDriver S s x).1 = .success
      · rw [startedDrivers, if_pos hstatus]
        by_cases hmem : page ∈ x.2.pages
        · simp [hstatus, hmem]
        · have hrest : (∃ y ∈ startedDrivers S (startDriver S s x).2 order, page ∈ y.2.pages) ↔
              ∃ y ∈ x :: startedDrivers S (startDriver S s x).2 order, page ∈ y.2.pages := by
            simp [hmem]
          have hnot : ¬ ((startDriver S s x).1 = .success ∧ page ∈ x.2.pages) := fun h => hmem h.2
          rw [if_neg hnot]
          exact if_congr hrest rfl rfl
      · rw [startedDrivers, if_neg hstatus]
        simp [hstatus]

/-- Devices on pages of their own all start. -/
theorem startedDrivers_of_disjoint (hS : S.Lawful) (horder : ∀ x ∈ order, S.Finds hob fuel x)
    (hdisjoint : order.Pairwise fun x y => Disjoint x.2.pages y.2.pages)
    (hfree : ∀ x ∈ order, (S.map s).Free x.2.pages) : startedDrivers S s order = order := by
  induction order generalizing s with
  | nil => rfl
  | cons x order ih =>
      obtain ⟨hx, hrest⟩ := List.forall_mem_cons.mp horder
      obtain ⟨hxfree, hrestfree⟩ := List.forall_mem_cons.mp hfree
      obtain ⟨hxdisjoint, hrestdisjoint⟩ := List.pairwise_cons.mp hdisjoint
      have hstatus : (startDriver S s x).1 = .success := by
        rcases hx.starts hS s with ⟨-, hstart⟩ | ⟨-, hstart⟩
        · exact hstart.success_iff.mpr (.inl hxfree)
        · exact hstart.success_iff.mpr (.inl hxfree)
      have hleft : ∀ y ∈ order, (S.map (startDriver S s x).2).Free y.2.pages := by
        intro y hy page hpage
        have hother : page ∉ x.2.pages := Finset.disjoint_right.mp (hxdisjoint y hy) hpage
        exact (startDriver_others hS hx hother).1.trans (hrestfree y hy page hpage)
      rw [startedDrivers, if_pos hstatus, ih hrest hrestdisjoint hleft]

/-- The pages of a driver that has started, after all later starts. -/
theorem startAll_attributes_started (hS : S.Lawful) (hx : S.Finds hob fuel x)
    (hlater : ∀ x ∈ order, S.Finds hob fuel x) (hstatus : (startDriver S s x).1 = .success)
    (hpage : page ∈ x.2.pages) :
    (S.map (startAll S s (x :: order))).attributes page
      = if ∃ y ∈ startedDrivers S (startDriver S s x).2 order, page ∈ y.2.pages
        then EFI_MEMORY_UC else (S.map (startDriver S s x).2).attributes page := by
  obtain ⟨⟨c, hc⟩, -⟩ := startDriver_success hS hx hstatus hpage
  exact startAll_attributes hS hlater hc

/-- A clock that starts finds its pages free. -/
theorem clock_success (hS : S.Lawful) (hx : S.Finds hob fuel x) (hclock : x.1 = goldfishRtc)
    (hstatus : (startDriver S s x).1 = .success) :
    (S.map s).Free x.2.pages ∧
      ∀ page ∈ x.2.pages, (S.map (startDriver S s x).2).attributes page = clockAttributes := by
  rcases hx.starts hS s with ⟨-, hstart⟩ | ⟨hother, -⟩
  · refine ⟨?_, hstart.replaced hstatus⟩
    rcases hstart.success_iff.mp hstatus with hfree | ⟨hshares, -⟩
    · exact hfree
    · exact hshares.elim
  · exact absurd hclock hother

/-- The drivers before a clock that starts have other pages. -/
theorem clock_disjoint_before (hS : S.Lawful) (hbefore : ∀ x ∈ order, S.Finds hob fuel x)
    (hx : S.Finds hob fuel x) (hclock : x.1 = goldfishRtc)
    (hstatus : (startDriver S (startAll S s order) x).1 = .success)
    (hy : y ∈ startedDrivers S s order) : Disjoint y.2.pages x.2.pages := by
  have hfree := (clock_success hS hx hclock hstatus).1
  rw [Finset.disjoint_left]
  intro page hypage hxpage
  obtain ⟨c, hc⟩ := startedDrivers_added hS hbefore hy hypage
  exact Option.some_ne_none c (hc.symm.trans (hfree page hxpage))

/-- Its pages stay for runtime if the drivers after it have other pages. -/
theorem clock_runtime_iff (hS : S.Lawful) (hx : S.Finds hob fuel x)
    (hlater : ∀ x ∈ order, S.Finds hob fuel x) (hclock : x.1 = goldfishRtc)
    (hstatus : (startDriver S s x).1 = .success) :
    (∀ page ∈ x.2.pages, (S.map (startAll S s (x :: order))).attributes page
        &&& EFI_MEMORY_RUNTIME = EFI_MEMORY_RUNTIME) ↔
      ∀ y ∈ startedDrivers S (startDriver S s x).2 order, Disjoint y.2.pages x.2.pages := by
  constructor
  · intro hruntime y hy
    rw [Finset.disjoint_left]
    intro page hypage hxpage
    have hlost := hruntime page hxpage
    rw [startAll_attributes_started hS hx hlater hstatus hxpage, if_pos ⟨y, hy, hypage⟩] at hlost
    exact absurd hlost (by decide)
  · intro hdisjoint page hpage
    have hnone : ¬ ∃ y ∈ startedDrivers S (startDriver S s x).2 order, page ∈ y.2.pages := by
      rintro ⟨y, hy, hypage⟩
      exact Finset.disjoint_left.mp (hdisjoint y hy) hypage hpage
    rw [startAll_attributes_started hS hx hlater hstatus hpage, if_neg hnone,
      (clock_success hS hx hclock hstatus).2 page hpage]
    decide

/-- The drivers of a device tree, started in any order.  On pages of their own, which no one
    has added, they all start.  Whatever else has been started before or after, the pages of
    a driver that has started end up uncacheable.  The clock shares no page: it does not
    start behind a driver that has one of its pages, and one that starts on its pages
    later takes `EFI_MEMORY_RUNTIME` off them. -/
theorem mmioDrivers_any_order (hS : S.Lawful) (hob : Option FdtHob) (fuel : Nat)
    (order : List (MmioDriver × MmioMapping)) (horder : ∀ x ∈ order, S.Finds hob fuel x) (s : σ) :
    (order.Pairwise (fun x y => Disjoint x.2.pages y.2.pages) →
      (∀ x ∈ order, (S.map s).Free x.2.pages) → startedDrivers S s order = order) ∧
    ∀ before x later, order = before ++ x :: later →
      (startDriver S (startAll S s before) x).1 = .success →
      (∀ page ∈ x.2.pages,
        (S.map (startAll S s order)).attributes page &&& EFI_MEMORY_UC = EFI_MEMORY_UC) ∧
      (x.1 = goldfishRtc →
        (∀ y ∈ startedDrivers S s before, Disjoint y.2.pages x.2.pages) ∧
        ((∀ page ∈ x.2.pages,
            (S.map (startAll S s order)).attributes page &&& EFI_MEMORY_RUNTIME
              = EFI_MEMORY_RUNTIME) ↔
          ∀ y ∈ startedDrivers S (startDriver S (startAll S s before) x).2 later,
            Disjoint y.2.pages x.2.pages)) := by
  refine ⟨startedDrivers_of_disjoint hS horder, ?_⟩
  rintro before x later rfl hstatus
  obtain ⟨hbefore, hafter⟩ := List.forall_mem_append.mp horder
  obtain ⟨hx, hlater⟩ := List.forall_mem_cons.mp hafter
  have hend : startAll S s (before ++ x :: later) = startAll S (startAll S s before) (x :: later) :=
    List.foldl_append
  rw [hend]
  constructor
  · intro page hpage
    rw [startAll_attributes_started hS hx hlater hstatus hpage]
    split
    · exact BitVec.and_self
    · exact (startDriver_success hS hx hstatus hpage).2
  · intro hclock
    exact ⟨fun y hy => clock_disjoint_before hS hbefore hx hclock hstatus hy,
      clock_runtime_iff hS hx hlater hclock hstatus⟩

/-- Services that grant what they can. -/
def grantingServices : DxeServices MemoryMap where
  answer g call := match call with
    | .mmioRead32 _ => (0#32, g)
    | .mmioWrite32 _ _ => ((), g)
    | .addMemorySpace base length capabilities =>
      let pages := pagesOf base length
      if g.Free pages then
        (EfiStatus.success, ⟨fun page => if page ∈ pages then some capabilities else
          g.capabilities page, g.attributes⟩)
      else
        (EfiStatus.unsupported, g)
    | .setMemorySpaceAttributes base length attributes =>
      let pages := pagesOf base length
      if g.Supports pages attributes then
        (EfiStatus.success, ⟨g.capabilities, fun page => if page ∈ pages then attributes else
          g.attributes page⟩)
      else
        (EfiStatus.unsupported, g)
    | .allocateZeroPool => (true, g)
    | .install => (EfiStatus.success, g)
  map g := g
  size := 2 ^ 56

theorem grantingServices_lawful : grantingServices.Lawful where
  added g base length capabilities _ := by
    by_cases hfree : g.Free (pagesOf base length)
    · have hanswer : grantingServices.addMemorySpace g base length capabilities
          = (.success, ⟨fun page => if page ∈ pagesOf base length then some capabilities else
            g.capabilities page, g.attributes⟩) := if_pos hfree
      rw [hanswer]
      refine ⟨iff_of_true rfl hfree, ?_, ?_, fun h => absurd hfree h⟩
      · intro _ page hpage
        exact ⟨capabilities, if_pos hpage, BitVec.and_self⟩
      · intro page hpage
        exact ⟨if_neg hpage, rfl⟩
    · have hanswer : grantingServices.addMemorySpace g base length capabilities
          = (.unsupported, g) := if_neg hfree
      rw [hanswer]
      exact ⟨iff_of_false nofun hfree, fun h => absurd h hfree, fun _ _ => ⟨rfl, rfl⟩, fun _ => rfl⟩
  attributesSet g base length attributes _ _ := by
    by_cases hsupports : g.Supports (pagesOf base length) attributes
    · have hanswer : grantingServices.setMemorySpaceAttributes g base length attributes
          = (.success, ⟨g.capabilities, fun page =>
            if page ∈ pagesOf base length then attributes else g.attributes page⟩) :=
        if_pos hsupports
      rw [hanswer]
      exact ⟨iff_of_true rfl hsupports, rfl, fun _ page hpage => if_pos hpage,
        fun page hpage => if_neg hpage, fun h => absurd hsupports h⟩
    · have hanswer : grantingServices.setMemorySpaceAttributes g base length attributes
          = (.unsupported, g) := if_neg hsupports
      rw [hanswer]
      exact ⟨iff_of_false nofun hsupports, rfl, fun h => absurd h hsupports, fun _ _ => rfl,
        fun _ => rfl⟩
  keeps g call hcall := by
    cases call with
    | addMemorySpace _ _ _ => exact hcall.elim
    | setMemorySpaceAttributes _ _ _ => exact hcall.elim
    | _ => rfl
  allocates _ := rfl
  installs _ := rfl

/-- The mapping of the battery and of a clock in the same place. -/
def sharedMapping : MmioMapping :=
  { base := 0x101008, size := 0x44, gcdBase := 0x101000, gcdSize := 0x1000 }

def clockAndBattery : List (MmioDriver × MmioMapping) :=
  [(goldfishRtc, sharedMapping), (goldfishBattery, sharedMapping)]

theorem clockAndBattery_found :
    ∀ x ∈ clockAndBattery, grantingServices.Finds (some (sampleHob batteryReg)) 1 x := by
  intro x hx
  rcases List.mem_cons.mp hx with rfl | hx
  · exact ⟨.tail _ (.tail _ (.tail _ (.head _))), rfl, by decide⟩
  · obtain rfl := List.mem_singleton.mp hx
    exact ⟨.tail _ (.tail _ (.head _)), rfl, by decide⟩

def emptyMap : MemoryMap := ⟨fun _ => none, fun _ => 0⟩

/-- A clock and a battery in one page.  Both start, and the page of the clock is not left for
    runtime. -/
theorem mmioDrivers_any_order_shared_page :
    startedDrivers grantingServices emptyMap clockAndBattery = clockAndBattery ∧
      ¬ ∀ page ∈ sharedMapping.pages,
        (grantingServices.map (startAll grantingServices emptyMap clockAndBattery)).attributes page
          &&& EFI_MEMORY_RUNTIME = EFI_MEMORY_RUNTIME := by
  have htakes := (clockAndBattery_found _ (.head _)).takes
  let g := (startDriver grantingServices emptyMap (goldfishRtc, sharedMapping)).2
  have hstart : Starts grantingServices False clockAttributes sharedMapping emptyMap
      (startDriver grantingServices emptyMap (goldfishRtc, sharedMapping)) :=
    goldfishRtc_starts grantingServices_lawful htakes emptyMap
  have hclock : (startDriver grantingServices emptyMap (goldfishRtc, sharedMapping)).1 = .success :=
    hstart.success_iff.mpr (.inl fun page _ => rfl)
  have hsub : EFI_MEMORY_UC &&& clockAttributes = EFI_MEMORY_UC := by decide
  have hshared : (grantingServices.map g).Supports sharedMapping.pages EFI_MEMORY_UC :=
    (hstart.supports hclock).mono hsub
  have hnext : Starts grantingServices True EFI_MEMORY_UC sharedMapping g
      (startDriver grantingServices g (goldfishBattery, sharedMapping)) :=
    goldfishBattery_starts grantingServices_lawful htakes g
  have hbattery : (startDriver grantingServices g (goldfishBattery, sharedMapping)).1 = .success :=
    hnext.success_iff.mpr (.inr ⟨trivial, hshared⟩)
  have hrest : startedDrivers grantingServices g [(goldfishBattery, sharedMapping)]
      = [(goldfishBattery, sharedMapping)] := by
    rw [startedDrivers, if_pos hbattery, startedDrivers]
  obtain ⟨-, hruntime⟩ := (mmioDrivers_any_order grantingServices_lawful _ 1 _ clockAndBattery_found
    emptyMap).2 [] (goldfishRtc, sharedMapping) [(goldfishBattery, sharedMapping)] rfl hclock
  constructor
  · rw [clockAndBattery, startedDrivers, if_pos hclock, hrest]
  · intro hkept
    have hpage : 0x101 ∈ sharedMapping.pages := by decide
    have hmem : (goldfishBattery, sharedMapping)
        ∈ startedDrivers grantingServices g [(goldfishBattery, sharedMapping)] := by
      rw [hrest]
      exact .head _
    have hdisjoint := (hruntime rfl).2.mp hkept _ hmem
    exact Finset.disjoint_left.mp hdisjoint hpage hpage

end UemuPkg
