/-
  UemuPkg.Drivers.AccessOrder

  The drivers map their registers before they touch them.  `RegisterAccess` says which
  addresses a driver touches; here it is the order: no run of an entry point, wherever
  it is interrupted, has accessed a register that no earlier call has made uncacheable,
  and the functions that the entry point publishes find their registers mapped from
  the moment of the publication on.
-/

import UemuPkg.Drivers.RegisterAccess
import UemuPkg.Generic.Protocol

namespace UemuPkg

open Effects (Program Protocol)

/-- A call of a driver and what it returned. -/
abbrev DriverEntry := Effects.Entry DriverCall DriverCall.Result

/-- The register that a call accesses. -/
def DriverCall.address : DriverCall → Option UINT64
  | .mmioRead32 address => some address
  | .mmioWrite32 address _ => some address
  | _ => none

/-- A call of the trace has made the pages around the word uncacheable. -/
def Mapped (trace : List DriverEntry) (address : UINT64) : Prop :=
  ∃ base length attributes,
    ⟨.setMemorySpaceAttributes base length attributes, EfiStatus.success⟩ ∈ trace ∧
    attributes &&& EFI_MEMORY_UC = EFI_MEMORY_UC ∧ WordInside address base length

/-- Every register that the call, or once the protocols are installed a function of the
    driver, accesses is mapped. -/
def MapsFirst (services : DriverCall → Prop) (past : List DriverEntry) (call : DriverCall) :
    Prop :=
  (∀ address ∈ call.address, Mapped past address) ∧
    (call = .install → ∀ service, services service → ∀ address ∈ service.address,
      Mapped past address)

/-- The pages of the mapping have been made uncacheable. -/
def MmioMapping.IsSet (m : MmioMapping) (past : List DriverEntry) : Prop :=
  ∃ attributes,
    ⟨.setMemorySpaceAttributes m.gcdBase m.gcdSize attributes, EfiStatus.success⟩ ∈ past ∧
    attributes &&& EFI_MEMORY_UC = EFI_MEMORY_UC

variable {m : MmioMapping} {past : List DriverEntry} {services : DriverCall → Prop}
  {call : DriverCall}

/-- A call that keeps to the mapping accesses what has been mapped. -/
theorem MmioMapping.IsSet.mapped (hset : m.IsSet past) (hcall : m.Allows call) {address : UINT64}
    (haddress : address ∈ call.address) : Mapped past address := by
  obtain ⟨attributes, hmem, huc⟩ := hset
  refine ⟨_, _, attributes, hmem, huc, ?_⟩
  cases call with
  | mmioRead32 a => exact Option.some.inj haddress ▸ hcall.2
  | mmioWrite32 a value => exact Option.some.inj haddress ▸ hcall.2
  | _ => cases haddress

theorem MmioMapping.IsSet.append (hset : m.IsSet past) (entry : DriverEntry) :
    m.IsSet (past ++ [entry]) :=
  hset.imp fun _ h => ⟨List.mem_append_left _ h.1, h.2⟩

/-- Once its pages are uncacheable a driver that keeps to the mapping is in order. -/
theorem mapsFirst_of_calls {α : Type} {prog : DriverM α} (hprog : prog.Calls m.Allows)
    (hservices : ∀ service, services service → m.Allows service) (hset : m.IsSet past) :
    prog.Keeps (.history (MapsFirst services)) (fun _ => m.IsSet) past := by
  refine hprog.keeps m.IsSet ?_ ?_ hset
  · intro past call hset hcall
    exact ⟨fun _ => hset.mapped hcall, fun _ service hservice _ =>
      hset.mapped (hservices service hservice)⟩
  · intro past call r hset _
    exact hset.append _

/-- The calls to the GCD access no register. -/
theorem mapsFirst_of_no_address (haddress : call.address = none) (hinstall : call ≠ .install) :
    MapsFirst services past call := by
  refine ⟨?_, fun h => absurd h hinstall⟩
  intro address h
  rw [haddress] at h
  cases h

/-- A failure to set the attributes ends the function, and with success they are set. -/
theorem setMemorySpaceAttributes_mapsFirst {attributes : UINT64} {start : DriverM EfiStatus}
    (huc : attributes &&& EFI_MEMORY_UC = EFI_MEMORY_UC) (hstart : start.Calls m.Allows)
    (hservices : ∀ service, services service → m.Allows service) :
    (do
      let status ← setMemorySpaceAttributes m.gcdBase m.gcdSize attributes
      if status.isError then
        return status
      else
        start : DriverM EfiStatus).Keeps (.history (MapsFirst services)) (fun _ _ => True)
      past := by
  refine (Program.keeps_perform_bind _ _).mpr
    ⟨mapsFirst_of_no_address rfl nofun, fun (status : EfiStatus) => ?_⟩
  cases status with
  | success =>
      have hset : m.IsSet (past ++ [⟨.setMemorySpaceAttributes m.gcdBase m.gcdSize attributes,
          EfiStatus.success⟩]) := ⟨attributes, List.mem_append_right _ List.mem_cons_self, huc⟩
      exact (mapsFirst_of_calls hstart hservices hset).mono fun _ _ _ => trivial
  | _ => trivial

/-- What follows the calls to the GCD finds the attributes set. -/
theorem registerMmioRange_mapsFirst {start : DriverM EfiStatus}
    (h : (registerMmioRange m start).Calls m.Allows)
    (hservices : ∀ service, services service → m.Allows service) :
    (registerMmioRange m start).Keeps (.history (MapsFirst services)) (fun _ _ => True) past := by
  have hstart : start.Calls m.Allows := (h.2 EfiStatus.success).2 EfiStatus.success
  exact (Program.keeps_perform_bind _ _).mpr ⟨mapsFirst_of_no_address rfl nofun, fun _ =>
    setMemorySpaceAttributes_mapsFirst (by decide) hstart hservices⟩

/-- The clock asks for its pages first and stops if it does not get them. -/
theorem goldfishRtc_mapsFirst (h : (goldfishRtc.start m).Calls m.Allows)
    (hservices : ∀ service, services service → m.Allows service) :
    (goldfishRtc.start m).Keeps (.history (MapsFirst services)) (fun _ _ => True) past := by
  refine (Program.keeps_perform_bind _ _).mpr
    ⟨mapsFirst_of_no_address rfl nofun, fun (status : EfiStatus) => ?_⟩
  cases status with
  | success =>
      have hinstall : install.Calls m.Allows := (h.2 EfiStatus.success).2 EfiStatus.success
      exact setMemorySpaceAttributes_mapsFirst (by decide) hinstall hservices
  | _ => trivial

theorem mmioDrivers_mapFirst {d : MmioDriver} (hd : d ∈ mmioDrivers)
    (hcovers : m.Covers d.minSize) :
    (d.start m).Keeps (.history (MapsFirst (d.services m.base))) (fun _ _ => True) [] := by
  have hkeeps := mmioDrivers_keepToMapping hd
  have hstart := hkeeps.start m hcovers
  have hservices := hkeeps.services m hcovers
  rcases List.mem_cons.mp hd with rfl | hd
  · exact registerMmioRange_mapsFirst hstart hservices
  rcases List.mem_cons.mp hd with rfl | hd
  · exact registerMmioRange_mapsFirst hstart hservices
  rcases List.mem_cons.mp hd with rfl | hd
  · exact registerMmioRange_mapsFirst hstart hservices
  obtain rfl := List.mem_singleton.mp hd
  exact goldfishRtc_mapsFirst hstart hservices

-- ============================================================================
-- Every run of an entry point
-- ============================================================================

/-- In every run of an entry point, up to any point, a register is accessed only after the
    pages around it have been made uncacheable.  When the entry point comes to install its
    protocols, that is so already for every register that the functions of the driver
    access on the base address it has found. -/
theorem mmioDrivers_map_before_access (d : MmioDriver) (hd : d ∈ mmioDrivers)
    (hob : Option FdtHob) (fuel : Nat) {prog rest : DriverM EfiStatus}
    {before since : List DriverEntry} {entry : DriverEntry}
    (hprog : d.entryPoint hob fuel = some prog)
    (hreaches : prog.Reaches (before ++ entry :: since) rest) :
    ∃ m, d.mapping hob fuel = some (.ok m) ∧
      (∀ address ∈ entry.call.address, Mapped before address) ∧
      (entry.call = .install → ∀ service, d.services m.base service →
        ∀ address ∈ service.address, Mapped before address) := by
  obtain ⟨mapping, hmapping, hentry⟩ := Option.map_eq_some_iff.mp hprog
  cases mapping with
  | error status =>
      -- the entry point has returned without a call
      rw [← hentry] at hreaches
      generalize htrace : before ++ entry :: since = trace at hreaches
      cases hreaches with
      | refl => simp at htrace
  | ok m =>
      have hkeeps := mmioDrivers_mapFirst hd (mapMmioRange_covers hmapping)
      have haccepts := hkeeps.accepts (hentry ▸ hreaches)
      obtain ⟨haccess, hinstall⟩ := haccepts.of_history
      exact ⟨m, hmapping, haccess, hinstall⟩

/-- The first register that the battery driver reads. -/
theorem mmioDrivers_map_before_access_battery :
    ∃ (prog rest : DriverM EfiStatus) (before since : List DriverEntry) (value : UINT32),
      goldfishBattery.entryPoint (some (sampleHob batteryReg)) 1 = some prog ∧
        prog.Reaches (before ++ ⟨.mmioRead32 0x101008, value⟩ :: since) rest ∧
        before.length = 2 ∧ Mapped before 0x101008 := by
  let m : MmioMapping := { base := 0x101008, size := 0x44, gcdBase := 0x101000, gcdSize := 0x1000 }
  have hd : goldfishBattery ∈ mmioDrivers := .tail _ (.tail _ (.head _))
  have hentry : goldfishBattery.entryPoint (some (sampleHob batteryReg)) 1
      = some (goldfishBattery.start m) := rfl
  have hreaches : (goldfishBattery.start m).Reaches
      ([⟨.addMemorySpace m.gcdBase m.gcdSize (EFI_MEMORY_UC ||| EFI_MEMORY_RUNTIME),
          EfiStatus.success⟩,
        ⟨.setMemorySpaceAttributes m.gcdBase m.gcdSize EFI_MEMORY_UC, EfiStatus.success⟩]
        ++ ⟨.mmioRead32 0x101008, (0 : UINT32)⟩ ::
          ((goldfishBattery.start m).record eventRegister []).drop 3)
      (.ret .success) := Program.reaches_record eventRegister _ []
  obtain ⟨m', -, haccess, -⟩ := mmioDrivers_map_before_access goldfishBattery hd
    (some (sampleHob batteryReg)) 1 hentry hreaches
  exact ⟨_, _, _, _, 0, hentry, hreaches, rfl, haccess 0x101008 rfl⟩

end UemuPkg
