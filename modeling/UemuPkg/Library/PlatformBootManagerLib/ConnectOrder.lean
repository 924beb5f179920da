/-
  UemuPkg.Library.PlatformBootManagerLib.ConnectOrder

  What the boot manager may have called before each of its calls.  Nothing comes before
  the end of the DXE phase and nothing is started before the TPM hierarchy is set; a
  handle is connected only if it was located and its device was found to be of the
  right kind, and ACPI is told of the root bridges when all of them are connected.
-/

import UemuPkg.Generic.Custody
import UemuPkg.Library.PlatformBootManagerLib.BeforeConsole

namespace UemuPkg

open Effects (Program Protocol Custody)

/-- A call of the boot manager and what it returned. -/
abbrev BdsEntry := Effects.Entry BdsCall BdsCall.Result

-- ============================================================================
-- What was called
-- ============================================================================

def Called (past : List BdsEntry) (call : BdsCall) : Prop := ∃ entry ∈ past, entry.call = call

/-- The call has returned this answer. -/
def Answered (past : List BdsEntry) (call : BdsCall) (answer : call.Result) : Prop :=
  ⟨call, answer⟩ ∈ past

def Located (past : List BdsEntry) (protocol : BdsProtocol) (handle : UINT64) : Prop :=
  ∃ buffer handles, Answered past (.locateHandleBuffer protocol) (.ok (buffer, handles)) ∧
    handle ∈ handles

/-- The configuration space of the handle's PCI device has shown a display. -/
def ReadDisplay (past : List BdsEntry) (handle : UINT64) : Prop :=
  ∃ pciIo pci, Answered past (.handleProtocol handle .pciIo) (.ok pciIo) ∧
    Answered past (.pciRead pciIo 32 0 16) (.ok pci) ∧ IS_PCI_DISPLAY pci = true

/-- The identification of a Virtio entropy source, of the modern or of the transitional
    kind. -/
def IsEntropySource (vendorId deviceId : UINT16) (revisionId : UINT8) (subsystemId : UINT16) :
    Prop :=
  vendorId = VIRTIO_VENDOR_ID ∧
    ((deviceId = 0x1044 ∧ 1 ≤ revisionId ∧ 0x40 ≤ subsystemId) ∨
      (0x1000 ≤ deviceId ∧ deviceId ≤ 0x103F ∧ revisionId = 0 ∧ subsystemId = 4))

/-- The configuration space of the handle's PCI device has shown an entropy source. -/
def ReadPciEntropySource (past : List BdsEntry) (handle : UINT64) : Prop :=
  ∃ pciIo vendorId deviceId revisionId subsystemId,
    Answered past (.handleProtocol handle .pciIo) (.ok pciIo) ∧
    Answered past (.pciRead pciIo 16 PCI_VENDOR_ID_OFFSET 1) (.ok vendorId) ∧
    Answered past (.pciRead pciIo 16 PCI_DEVICE_ID_OFFSET 1) (.ok deviceId) ∧
    Answered past (.pciRead pciIo 8 PCI_REVISION_ID_OFFSET 1) (.ok revisionId) ∧
    Answered past (.pciRead pciIo 16 PCI_SUBSYSTEM_ID_OFFSET 1) (.ok subsystemId) ∧
    IsEntropySource (single vendorId) (single deviceId) (single revisionId) (single subsystemId)

/-- The handle's Virtio device has shown an entropy source. -/
def ReadEntropySource (past : List BdsEntry) (handle : UINT64) : Prop :=
  ∃ virtIo, Answered past (.handleProtocol handle .virtioDevice) (.ok virtIo) ∧
    Answered past (.subSystemDeviceId virtIo) (4 : UINT32)

/-- The handle is one of those that the boot manager has to connect. -/
def Connectable (past : List BdsEntry) (handle : UINT64) : Prop :=
  Located past .pciRootBridgeIo handle ∨
    (Located past .pciIo handle ∧
      (ReadDisplay past handle ∨ ReadPciEntropySource past handle)) ∨
    (Located past .virtioDevice handle ∧ ReadEntropySource past handle)

/-- The path is that of a handle with a GOP. -/
def OutputPath (past : List BdsEntry) (devicePath : DevicePath) : Prop :=
  ∃ handle, Located past .graphicsOutput handle ∧
    Answered past (.devicePathFromHandle handle) (some devicePath)

/-- The root bridges were looked for, and all that were found have been connected. -/
def RootBridgesConnected (past : List BdsEntry) : Prop :=
  ∃ located, Answered past (.locateHandleBuffer .pciRootBridgeIo) located ∧
    ∀ buffer handles, located = .ok (buffer, handles) →
      ∀ handle ∈ handles, Called past (.connectController handle)

/-- What has to be called before a call. -/
structure InOrder (serial : SerialConsole) (past : List BdsEntry) (call : BdsCall) : Prop where
  endOfDxe : call ≠ .eventGroupSignal .endOfDxe → Called past (.eventGroupSignal .endOfDxe)
  hierarchy : call ≠ .eventGroupSignal .endOfDxe → call ≠ .configureTpmPlatformHierarchy →
    Called past .configureTpmPlatformHierarchy
  connect : ∀ handle, call = .connectController handle → Connectable past handle
  rootBridges : call = .eventGroupSignal .rootBridgesConnected → RootBridgesConnected past
  console : ∀ console devicePath, call = .updateConsoleVariable console devicePath →
    devicePath = mSerialConsole serial ∨
      (console = .conIn ∧ (devicePath = mUsbKeyboard ∨ devicePath = mGoldfishKeyboard)) ∨
      (console ≠ .conIn ∧ OutputPath past devicePath)

variable {serial : SerialConsole} {past p : List BdsEntry} {α β : Type}
  {post : α → List BdsEntry → Prop} {handle : UINT64} {handles : List UINT64}
  {protocol : BdsProtocol}

-- ============================================================================
-- What stays true
-- ============================================================================

theorem Called.mono {call : BdsCall} (h : Called past call) (hp : past <+: p) : Called p call :=
  h.imp fun _ he => ⟨hp.subset he.1, he.2⟩

@[simp] theorem called_append (past rest : List BdsEntry) (call : BdsCall) :
    Called (past ++ rest) call ↔ Called past call ∨ Called rest call := by
  simp [Called, or_and_right, exists_or]

@[simp] theorem called_nil (call : BdsCall) : ¬ Called [] call := by
  simp [Called]

@[simp] theorem called_cons (entry : BdsEntry) (rest : List BdsEntry) (call : BdsCall) :
    Called (entry :: rest) call ↔ entry.call = call ∨ Called rest call := by
  simp [Called]

theorem Answered.called {call : BdsCall} {answer : call.Result} (h : Answered past call answer) :
    Called past call := ⟨_, h, rfl⟩

theorem answered_concat (past : List BdsEntry) (call : BdsCall) (answer : call.Result) :
    Answered (past ++ [⟨call, answer⟩]) call answer :=
  List.mem_append_right _ List.mem_cons_self

theorem Located.mono (h : Located past protocol handle) (hp : past <+: p) :
    Located p protocol handle :=
  h.imp fun _ h => h.imp fun _ h => ⟨hp.subset h.1, h.2⟩

theorem Located.concat (h : Located past protocol handle) (entry : BdsEntry) :
    Located (past ++ [entry]) protocol handle :=
  h.mono (List.prefix_append _ _)

theorem RootBridgesConnected.mono (h : RootBridgesConnected past) (hp : past <+: p) :
    RootBridgesConnected p :=
  h.imp fun _ h => ⟨hp.subset h.1, fun buffer handles hok handle hmem =>
    (h.2 buffer handles hok handle hmem).mono hp⟩

-- ============================================================================
-- Calls that need no more than the start
-- ============================================================================

/-- The DXE phase has ended and the hierarchy is set. -/
structure Ready (past : List BdsEntry) : Prop where
  endOfDxe : Called past (.eventGroupSignal .endOfDxe)
  hierarchy : Called past .configureTpmPlatformHierarchy

theorem Ready.mono (h : Ready past) (hp : past <+: p) : Ready p :=
  ⟨h.endOfDxe.mono hp, h.hierarchy.mono hp⟩

theorem Ready.concat (h : Ready past) (entry : BdsEntry) : Ready (past ++ [entry]) :=
  h.mono (List.prefix_append _ _)

/-- The call neither signals nor connects nor changes a console variable. -/
def BdsCall.Plain : BdsCall → Prop
  | .eventGroupSignal _ => False
  | .connectController _ => False
  | .updateConsoleVariable _ _ => False
  | _ => True

theorem inOrder_plain {call : BdsCall} (hready : Ready past) (hplain : call.Plain) :
    InOrder serial past call where
  endOfDxe _ := hready.endOfDxe
  hierarchy _ _ := hready.hierarchy
  connect := by
    rintro handle rfl
    cases hplain
  rootBridges := by
    rintro rfl
    cases hplain
  console := by
    rintro console devicePath rfl
    cases hplain

theorem keeps_plain {call : BdsCall} {f : call.Result → BdsM α} (hplain : call.Plain)
    (hready : Ready past)
    (h : ∀ r, Ready (past ++ [⟨call, r⟩]) →
      (f r).Keeps (.history (InOrder serial)) post (past ++ [⟨call, r⟩])) :
    (Program.perform call >>= f).Keeps (.history (InOrder serial)) post past :=
  (Program.keeps_perform_bind _ _).mpr
    ⟨inOrder_plain hready hplain, fun r => h r (hready.concat _)⟩

-- ============================================================================
-- The filters
-- ============================================================================

theorem isPciDisplay_keeps (hready : Ready past) :
    (isPciDisplay handle).Keeps (.history (InOrder serial))
      (fun b p => b = true → ReadDisplay p handle) past := by
  refine keeps_plain trivial hready fun located hready => ?_
  cases located with
  | error status => exact Bool.noConfusion
  | ok pciIo =>
      refine keeps_plain trivial hready fun read hready => ?_
      cases read with
      | error status => exact Bool.noConfusion
      | ok pci =>
          intro hdisplay
          exact ⟨pciIo, pci, by simp [Answered], by simp [Answered], hdisplay⟩

theorem isVirtioRng_keeps (hready : Ready past) :
    (isVirtioRng handle).Keeps (.history (InOrder serial))
      (fun b p => b = true → ReadEntropySource p handle) past := by
  refine keeps_plain trivial hready fun located hready => ?_
  cases located with
  | error status => exact Bool.noConfusion
  | ok virtIo =>
      refine keeps_plain trivial hready fun (subSystemDeviceId : UINT32) hready => ?_
      intro hid
      obtain rfl : subSystemDeviceId = 4 := (beq_iff_eq.mp hid).trans rfl
      exact ⟨virtIo, by simp [Answered], by simp [Answered]⟩

/-- The two checks together are the identification. -/
theorem isEntropySource_of_checks {deviceId subsystemId : UINT16} {revisionId : UINT8}
    {modern : Bool} (hmodern : virtio10 deviceId revisionId = some modern)
    (hcheck : checkSubsystemId modern subsystemId = true) :
    IsEntropySource VIRTIO_VENDOR_ID deviceId revisionId subsystemId := by
  refine ⟨rfl, ?_⟩
  rw [virtio10] at hmodern
  split at hmodern
  · rename_i h
    obtain rfl := Option.some.inj hmodern
    exact .inl ⟨h.1, h.2, by simpa [checkSubsystemId] using hcheck⟩
  · split at hmodern
    · rename_i h
      obtain rfl := Option.some.inj hmodern
      exact .inr ⟨h.1, h.2.1, h.2.2, by
        simpa [checkSubsystemId, VIRTIO_SUBSYSTEM_ENTROPY_SOURCE] using hcheck⟩
    · cases hmodern

theorem isVirtioPciRng_keeps (hready : Ready past) :
    (isVirtioPciRng handle).Keeps (.history (InOrder serial))
      (fun b p => b = true → ReadPciEntropySource p handle) past := by
  refine keeps_plain trivial hready fun located hready => ?_
  cases located with
  | error status => exact Bool.noConfusion
  | ok pciIo =>
      refine keeps_plain trivial hready fun vendor hready => ?_
      cases vendor with
      | error status => exact Bool.noConfusion
      | ok vendorId =>
          by_cases hvendor : single vendorId = VIRTIO_VENDOR_ID
          · simp only [hvendor, ne_eq, not_true_eq_false, if_false]
            refine keeps_plain trivial hready fun device hready => ?_
            cases device with
            | error status => exact Bool.noConfusion
            | ok deviceId =>
                refine keeps_plain trivial hready fun revision hready => ?_
                cases revision with
                | error status => exact Bool.noConfusion
                | ok revisionId =>
                    cases hmodern : virtio10 (single deviceId) (single revisionId) with
                    | none =>
                        simp only [hmodern]
                        exact Bool.noConfusion
                    | some modern =>
                        simp only [hmodern, isEntropySubsystem]
                        refine keeps_plain trivial hready fun subsystem hready => ?_
                        cases subsystem with
                        | error status => exact Bool.noConfusion
                        | ok subsystemId =>
                            intro hcheck
                            refine ⟨pciIo, vendorId, deviceId, revisionId, subsystemId, ?_⟩
                            refine ⟨by simp [Answered], by simp [Answered], by simp [Answered],
                              by simp [Answered], by simp [Answered], ?_⟩
                            rw [hvendor]
                            exact isEntropySource_of_checks hmodern hcheck
          · simp only [ne_eq, hvendor, not_false_eq_true, if_true]
            exact Bool.noConfusion

-- ============================================================================
-- The callbacks
-- ============================================================================

theorem connect_keeps (hready : Ready past) (hconnect : Connectable past handle) :
    (connect handle).Keeps (.history (InOrder serial))
      (fun _ p => Called p (.connectController handle)) past := by
  refine (Program.keeps_perform_bind _ _).mpr ⟨?_, fun status => ?_⟩
  · refine ⟨fun _ => hready.endOfDxe, fun _ _ => hready.hierarchy, ?_, nofun, nofun⟩
    rintro _ ⟨⟩
    exact hconnect
  · exact (answered_concat past _ status).called

/-- A console variable is changed. -/
theorem keeps_console {console : ConsoleType} {devicePath : DevicePath}
    {f : EfiStatus → BdsM α} (hready : Ready past)
    (hpath : devicePath = mSerialConsole serial ∨
      (console = .conIn ∧ (devicePath = mUsbKeyboard ∨ devicePath = mGoldfishKeyboard)) ∨
      (console ≠ .conIn ∧ OutputPath past devicePath))
    (h : ∀ status : EfiStatus, Ready (past ++ [⟨.updateConsoleVariable console devicePath, status⟩]) →
      (f status).Keeps (.history (InOrder serial)) post
        (past ++ [⟨.updateConsoleVariable console devicePath, status⟩])) :
    (updateConsoleVariable console devicePath >>= f).Keeps (.history (InOrder serial)) post
      past := by
  refine (Program.keeps_perform_bind _ _).mpr ⟨?_, fun status => h status (hready.concat _)⟩
  refine ⟨fun _ => hready.endOfDxe, fun _ _ => hready.hierarchy, nofun, nofun, ?_⟩
  rintro _ _ ⟨⟩
  exact hpath

theorem OutputPath.mono {devicePath : DevicePath} (h : OutputPath past devicePath)
    (hp : past <+: p) : OutputPath p devicePath :=
  h.imp fun _ h => ⟨h.1.mono hp, hp.subset h.2⟩

theorem addOutput_keeps (hready : Ready past) (hlocated : Located past .graphicsOutput handle) :
    (addOutput handle).Keeps (.history (InOrder serial)) (fun _ _ => True) past := by
  refine keeps_plain trivial hready fun found hready => ?_
  cases found with
  | none => trivial
  | some devicePath =>
      have hpath : OutputPath
          (past ++ [⟨.devicePathFromHandle handle, some devicePath⟩]) devicePath :=
        ⟨handle, hlocated.mono (List.prefix_append _ _), answered_concat _ _ _⟩
      refine keeps_console hready (.inr (.inr ⟨nofun, hpath⟩)) fun status hready => ?_
      split
      · trivial
      · refine keeps_console hready (.inr (.inr ⟨nofun, ?_⟩)) fun _ _ => trivial
        exact hpath.mono (List.prefix_append _ _)

-- ============================================================================
-- FilterAndProcess
-- ============================================================================

/-- What a filter and a callback do for one use of `FilterAndProcess`. -/
structure HandleSteps (serial : SerialConsole) (protocol : BdsProtocol)
    (filter : Option (UINT64 → BdsM Bool)) (process : UINT64 → BdsM Unit)
    (evidence done : List BdsEntry → UINT64 → Prop) : Prop where
  filter : ∀ {past handle}, Ready past →
    (clearsFilter filter handle).Keeps (.history (InOrder serial))
      (fun clears p => (clears = true → evidence p handle) ∧ (filter = none → clears = true)) past
  process : ∀ {past handle}, Ready past → Located past protocol handle → evidence past handle →
    (process handle).Keeps (.history (InOrder serial)) (fun _ p => done p handle) past
  mono : ∀ {past p handle}, past <+: p → done past handle → done p handle

variable {filter : Option (UINT64 → BdsM Bool)} {process : UINT64 → BdsM Unit}
  {evidence done : List BdsEntry → UINT64 → Prop}

theorem freeText_keeps (hready : Ready past) (text : Option UINT64) :
    (freeText text).Keeps (.history (InOrder serial)) (fun _ _ => True) past := by
  cases text with
  | none => trivial
  | some text => exact ⟨inOrder_plain hready trivial, fun _ => trivial⟩

theorem HandleSteps.keeps_handle (h : HandleSteps serial protocol filter process evidence done)
    (hready : Ready past) (hlocated : Located past protocol handle) :
    (processHandle filter process handle).Keeps (.history (InOrder serial))
      (fun _ p => filter = none → done p handle) past := by
  refine keeps_plain trivial hready fun devicePath hready => ?_
  refine keeps_plain trivial hready fun text hready => ?_
  have hlocated := (hlocated.concat ⟨_, devicePath⟩).concat ⟨_, text⟩
  refine (h.filter hready).bind_history fun clears p hp hclears => ?_
  have hprocess : (processIf clears (process handle)).Keeps (.history (InOrder serial))
      (fun _ p => filter = none → done p handle) p := by
    cases clears with
    | false => exact fun hnone => Bool.noConfusion (hclears.2 hnone)
    | true =>
        have hdone := h.process (hready.mono hp) (hlocated.mono hp) (hclears.1 rfl)
        exact hdone.mono fun _ _ hdone _ => hdone
  refine hprocess.bind_history fun _ q hq hdone => ?_
  refine (freeText_keeps ((hready.mono hp).mono hq) text).history_grows.mono ?_
  exact fun _ r hr hnone => h.mono hr.1 (hdone hnone)

theorem HandleSteps.keeps_handles (h : HandleSteps serial protocol filter process evidence done)
    (hready : Ready past) (hlocated : ∀ handle ∈ handles, Located past protocol handle) :
    (processHandles filter process handles).Keeps (.history (InOrder serial))
      (fun _ p => filter = none → ∀ handle ∈ handles, done p handle) past := by
  induction handles generalizing past with
  | nil => exact fun _ handle hmem => absurd hmem List.not_mem_nil
  | cons handle handles ih =>
      refine (h.keeps_handle hready (hlocated handle List.mem_cons_self)).bind_history
        fun _ p hp hfirst => ?_
      have hrest := (ih (hready.mono hp) fun other hmem =>
        (hlocated other (List.mem_cons_of_mem _ hmem)).mono hp).history_grows
      refine hrest.mono fun _ q hq hnone other hmem => ?_
      rcases List.mem_cons.mp hmem with rfl | hmem
      · exact h.mono hq.1 (hfirst hnone)
      · exact hq.2 hnone other hmem

/-- Without a filter, all handles that are located are processed. -/
theorem HandleSteps.keeps_all (h : HandleSteps serial protocol filter process evidence done)
    (hready : Ready past) :
    (filterAndProcess protocol filter process).Keeps (.history (InOrder serial))
      (fun _ p => filter = none → ∃ located, Answered p (.locateHandleBuffer protocol) located ∧
        ∀ buffer handles, located = .ok (buffer, handles) → ∀ handle ∈ handles, done p handle)
      past := by
  refine keeps_plain trivial hready fun located hready => ?_
  cases located with
  | error status => exact fun _ => ⟨_, answered_concat _ _ _, nofun⟩
  | ok found =>
      obtain ⟨buffer, handles⟩ := found
      have hlocated : ∀ handle ∈ handles, Located
          (past ++ [⟨.locateHandleBuffer protocol, .ok (buffer, handles)⟩]) protocol handle :=
        fun handle hmem => ⟨buffer, handles, answered_concat _ _ _, hmem⟩
      refine (h.keeps_handles hready hlocated).bind_history fun _ p hp hdone => ?_
      refine ⟨inOrder_plain (hready.mono hp) trivial, fun _ hnone => ?_⟩
      have hq : p <+: p ++ [⟨.freePool buffer, ()⟩] := List.prefix_append _ _
      refine ⟨_, hq.subset (hp.subset (answered_concat _ _ _)), ?_⟩
      rintro _ _ ⟨⟩ handle hmem
      exact h.mono hq (hdone hnone handle hmem)

-- ============================================================================
-- The whole function
-- ============================================================================

theorem noFilter_keeps (evidence : List BdsEntry → UINT64 → Prop)
    (hevidence : ∀ past handle, evidence past handle) :
    (clearsFilter none handle).Keeps (.history (InOrder serial))
      (fun clears p => (clears = true → evidence p handle) ∧
        ((none : Option (UINT64 → BdsM Bool)) = none → clears = true)) past :=
  ⟨fun _ => hevidence past handle, fun _ => rfl⟩

/-- The root bridges. -/
theorem connectRootBridges_steps : HandleSteps serial .pciRootBridgeIo none connect
    (fun _ _ => True) (fun p handle => Called p (.connectController handle)) where
  filter _ := noFilter_keeps _ fun _ _ => trivial
  process hready hlocated _ := connect_keeps hready (.inl hlocated)
  mono hp h := h.mono hp

theorem addOutput_steps : HandleSteps serial .graphicsOutput none addOutput
    (fun _ _ => True) (fun _ _ => True) where
  filter _ := noFilter_keeps _ fun _ _ => trivial
  process hready hlocated _ := addOutput_keeps hready hlocated
  mono _ _ := trivial

/-- A use with a filter and `Connect`. -/
theorem connect_steps {filter : UINT64 → BdsM Bool} {evidence : List BdsEntry → UINT64 → Prop}
    (hfilter : ∀ {past handle}, Ready past →
      (filter handle).Keeps (.history (InOrder serial))
        (fun clears p => clears = true → evidence p handle) past)
    (hconnectable : ∀ {past handle}, Located past protocol handle → evidence past handle →
      Connectable past handle) :
    HandleSteps serial protocol (some filter) connect evidence (fun _ _ => True) where
  filter hready := (hfilter hready).mono fun _ _ h => ⟨h, nofun⟩
  process hready hlocated hevidence :=
    (connect_keeps hready (hconnectable hlocated hevidence)).mono fun _ _ _ => trivial
  mono _ _ := trivial

theorem connectDisplays_steps : HandleSteps serial .pciIo (some isPciDisplay) connect
    ReadDisplay (fun _ _ => True) :=
  connect_steps isPciDisplay_keeps fun hlocated hread => .inr (.inl ⟨hlocated, .inl hread⟩)

theorem connectVirtioRngs_steps : HandleSteps serial .virtioDevice (some isVirtioRng) connect
    ReadEntropySource (fun _ _ => True) :=
  connect_steps isVirtioRng_keeps fun hlocated hread => .inr (.inr ⟨hlocated, hread⟩)

theorem connectVirtioPciRngs_steps : HandleSteps serial .pciIo (some isVirtioPciRng) connect
    ReadPciEntropySource (fun _ _ => True) :=
  connect_steps isVirtioPciRng_keeps fun hlocated hread => .inr (.inl ⟨hlocated, .inr hread⟩)

/-- The five entries are in the console variables. -/
def ConsolesAdded (serial : SerialConsole) (past : List BdsEntry) : Prop :=
  Called past (.updateConsoleVariable .conIn mUsbKeyboard) ∧
  Called past (.updateConsoleVariable .conIn mGoldfishKeyboard) ∧
  ∀ console, Called past (.updateConsoleVariable console (mSerialConsole serial))

theorem ConsolesAdded.mono (h : ConsolesAdded serial past) (hp : past <+: p) :
    ConsolesAdded serial p :=
  ⟨h.1.mono hp, h.2.1.mono hp, fun console => (h.2.2 console).mono hp⟩

theorem addConsoles_keeps (hready : Ready past) :
    (addConsoles serial).Keeps (.history (InOrder serial))
      (fun _ p => ConsolesAdded serial p) past := by
  refine keeps_console hready (.inr (.inl ⟨rfl, .inl rfl⟩)) fun _ hready => ?_
  refine keeps_console hready (.inr (.inl ⟨rfl, .inr rfl⟩)) fun _ hready => ?_
  refine keeps_console hready (.inl rfl) fun _ hready => ?_
  refine keeps_console hready (.inl rfl) fun _ hready => ?_
  refine keeps_console hready (.inl rfl) fun _ _ => ?_
  show ConsolesAdded serial _
  refine ⟨by simp, by simp, fun console => ?_⟩
  cases console <;> simp

theorem platformRegisterOptionsAndKeys_keeps (hready : Ready past) :
    platformRegisterOptionsAndKeys.Keeps (.history (InOrder serial)) (fun _ _ => True) past := by
  refine keeps_plain trivial hready fun _ hready => ?_
  refine keeps_plain trivial hready fun _ hready => ?_
  refine keeps_plain trivial hready fun _ hready => ?_
  exact keeps_plain trivial hready fun _ _ => trivial

/-- The start of the function is behind, and the root bridges are connected. -/
structure BridgesReady (past : List BdsEntry) : Prop extends Ready past where
  bridges : RootBridgesConnected past

theorem BridgesReady.mono (h : BridgesReady past) (hp : past <+: p) : BridgesReady p :=
  ⟨h.toReady.mono hp, h.bridges.mono hp⟩

theorem afterRootBridges_keeps (h : BridgesReady past) :
    (afterRootBridges serial).Keeps (.history (InOrder serial))
      (fun _ p => RootBridgesConnected p ∧ ConsolesAdded serial p) past := by
  refine (connectDisplays_steps.keeps_all h.toReady).bind_history fun _ p hp _ => ?_
  have h := h.mono hp
  refine (addOutput_steps.keeps_all h.toReady).bind_history fun _ p hp _ => ?_
  have h := h.mono hp
  refine (addConsoles_keeps h.toReady).bind_history fun _ p hp hconsoles => ?_
  have h := h.mono hp
  refine (platformRegisterOptionsAndKeys_keeps h.toReady).bind_history fun _ q hq _ => ?_
  have h := h.mono hq
  refine (connectVirtioRngs_steps.keeps_all h.toReady).bind_history fun _ r hr _ => ?_
  have h := h.mono hr
  refine (connectVirtioPciRngs_steps.keeps_all h.toReady).history_grows.mono fun _ u hu => ?_
  exact ⟨h.bridges.mono hu.1, ((hconsoles.mono hq).mono hr).mono hu.1⟩

theorem endDxePhase_keeps :
    endDxePhase.Keeps (.history (InOrder serial)) (fun _ p => Ready p) [] := by
  refine (Program.keeps_perform_bind _ _).mpr ⟨?_, fun _ => ?_⟩
  · exact ⟨fun h => absurd rfl h, fun h => absurd rfl h, nofun, nofun, nofun⟩
  have hend : Called [⟨.eventGroupSignal .endOfDxe, ()⟩] (.eventGroupSignal .endOfDxe) := by simp
  refine (Program.keeps_perform_bind _ _).mpr ⟨?_, fun _ => ?_⟩
  · exact ⟨fun _ => hend, fun _ h => absurd rfl h, nofun, nofun, nofun⟩
  have hready : Ready ([⟨.eventGroupSignal .endOfDxe, ()⟩] ++
      [⟨.configureTpmPlatformHierarchy, ()⟩]) := ⟨by simp, by simp⟩
  exact keeps_plain trivial hready fun _ hready => hready

theorem platformBootManagerBeforeConsole_keeps (serial : SerialConsole) :
    (platformBootManagerBeforeConsole serial).Keeps (.history (InOrder serial))
      (fun _ p => RootBridgesConnected p ∧ ConsolesAdded serial p) [] := by
  refine endDxePhase_keeps.bind_history fun _ past _ hready => ?_
  refine (connectRootBridges_steps.keeps_all hready).bind_history fun _ p hp hbridges => ?_
  have h : BridgesReady p := ⟨hready.mono hp, hbridges rfl⟩
  refine (Program.keeps_perform_bind _ _).mpr ⟨?_, fun _ => ?_⟩
  · exact ⟨fun _ => h.endOfDxe, fun _ _ => h.hierarchy, nofun, fun _ => h.bridges, nofun⟩
  exact afterRootBridges_keeps (h.mono (List.prefix_append _ _))

/-- In every run of `PlatformBootManagerBeforeConsole`, up to any point and whatever the
    firmware answers: each call comes after those that it needs.  The DXE phase is ended
    before anything else, the TPM hierarchy is set before images are dispatched or
    anything is connected; only root bridges are connected, and located devices whose
    registers have shown a display or an entropy source; the signal for ACPI comes after
    all root bridges; and the console variables get the fixed paths and those of located
    displays.  When the function returns, the root bridges are connected and the fixed
    paths are added. -/
theorem platformBootManagerBeforeConsole_ordered (serial : SerialConsole)
    {trace : List BdsEntry} {rest : BdsM Unit}
    (hreaches : (platformBootManagerBeforeConsole serial).Reaches trace rest) :
    (∀ before entry since, trace = before ++ entry :: since →
      InOrder serial before entry.call) ∧
    (rest = .ret () → RootBridgesConnected trace ∧ ConsolesAdded serial trace) := by
  have hkeeps := platformBootManagerBeforeConsole_keeps serial
  refine ⟨?_, ?_⟩
  · rintro before entry since rfl
    exact (hkeeps.accepts hreaches).of_history
  · rintro rfl
    have hend := hkeeps.returns hreaches
    rwa [Protocol.after_history, List.nil_append] at hend

-- ============================================================================
-- A machine with a display and an entropy source
-- ============================================================================

/-- Bytes as a number, the first one least significant. -/
def littleEndian : List UINT8 → Nat
  | [] => 0
  | b :: rest => b.toNat + 256 * littleEndian rest

/-- A configuration space. -/
abbrev ConfigSpace := Nat → UINT8

/-- A value of `width` bits at an offset. -/
def ConfigSpace.read (config : ConfigSpace) (width offset : Nat) : BitVec width :=
  BitVec.ofNat width (littleEndian ((List.range (width / 8)).map fun i => config (offset + i)))

def sampleConsole : SerialConsole := ⟨List.replicate 16 0, List.replicate 16 0, 115200, 8, 1, 1⟩

/-- Function 2 is a display, function 3 a modern entropy source. -/
def samplePci (handle : UINT64) : Option ConfigSpace :=
  if handle = 2 then
    some fun offset => if offset = 0x0B then 0x03 else 0
  else if handle = 3 then
    some fun offset =>
      match offset with
      | 0x00 => 0xF4
      | 0x01 => 0x1A
      | 0x02 => 0x44
      | 0x03 => 0x10
      | 0x08 => 0x01
      | 0x2E => 0x40
      | _ => 0
  else
    none

/-- A read of a function that may be missing. -/
def readFunction (config : Option ConfigSpace) (width : Nat) (offset : UINT32) (count : Nat) :
    Except EfiStatus (Fin count → BitVec width) :=
  match config with
  | none => .error .deviceError
  | some config => .ok fun i => config.read width (offset.toNat + i * (width / 8))

/-- One root bridge, the two functions, and a display handle. -/
def sampleFirmware (_ : Unit) : (call : BdsCall) → call.Result × Unit
  | .eventGroupSignal _ => ((), ())
  | .configureTpmPlatformHierarchy => ((), ())
  | .dispatchDeferredImages => (EfiStatus.success, ())
  | .locateHandleBuffer .pciRootBridgeIo => (.ok (0x100, [1]), ())
  | .locateHandleBuffer .pciIo => (.ok (0x200, [2, 3]), ())
  | .locateHandleBuffer .graphicsOutput => (.ok (0x300, [4]), ())
  | .locateHandleBuffer .virtioDevice => (.error .notFound, ())
  | .freePool _ => ((), ())
  | .devicePathFromHandle _ => (some [], ())
  | .convertDevicePathToText _ => (some 0x400, ())
  | .handleProtocol handle .pciIo =>
    (if (samplePci handle).isSome then .ok handle else .error .unsupported, ())
  | .handleProtocol _ _ => (.error .unsupported, ())
  | .pciRead pciIo width offset count => (readFunction (samplePci pciIo) width offset count, ())
  | .subSystemDeviceId _ => ((0 : UINT32), ())
  | .connectController _ => (EfiStatus.success, ())
  | .updateConsoleVariable _ _ => (EfiStatus.success, ())
  | .registerContinueKeyOption _ => (EfiStatus.success, ())
  | .getBootManagerMenu => ((EfiStatus.success, (0 : UINTN)), ())
  | .addKeyOptionVariable _ _ => (EfiStatus.success, ())

theorem sampleFirmware_returns :
    (platformBootManagerBeforeConsole sampleConsole).Reaches
      ((platformBootManagerBeforeConsole sampleConsole).record sampleFirmware ()) (.ret ()) :=
  Program.reaches_record sampleFirmware _ ()

theorem platformBootManagerBeforeConsole_ordered_sample :
    RootBridgesConnected
        ((platformBootManagerBeforeConsole sampleConsole).record sampleFirmware ()) ∧
      ConsolesAdded sampleConsole
        ((platformBootManagerBeforeConsole sampleConsole).record sampleFirmware ()) :=
  (platformBootManagerBeforeConsole_ordered sampleConsole sampleFirmware_returns).2 rfl

end UemuPkg
