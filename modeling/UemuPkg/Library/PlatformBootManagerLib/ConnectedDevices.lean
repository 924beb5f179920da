/-
  UemuPkg.Library.PlatformBootManagerLib.ConnectedDevices

  Which handles the boot manager connects on a machine whose devices keep their
  identification: the root bridges, the displays, and the entropy sources of both
  transports, each list in the order in which it was located.
-/

import UemuPkg.Library.PlatformBootManagerLib.HandleBuffers

namespace UemuPkg

open Effects (Program)

-- ============================================================================
-- The machine
-- ============================================================================

/-- The device is a display: its class code, the last of three bytes. -/
def ConfigSpace.IsDisplay (config : ConfigSpace) : Prop := config 0x0B = 0x03

instance (config : ConfigSpace) : Decidable config.IsDisplay := inferInstanceAs (Decidable (_ = _))

def ConfigSpace.IsEntropySource (config : ConfigSpace) : Prop :=
  UemuPkg.IsEntropySource (config.read 16 0x00) (config.read 16 0x02) (config 0x08)
    (config.read 16 0x2E)

instance (vendorId deviceId : UINT16) (revisionId : UINT8) (subsystemId : UINT16) :
    Decidable (IsEntropySource vendorId deviceId revisionId subsystemId) :=
  inferInstanceAs (Decidable (_ ∧ _))

instance (config : ConfigSpace) : Decidable config.IsEntropySource :=
  inferInstanceAs (Decidable (UemuPkg.IsEntropySource ..))

variable {σ : Type}

/-- Firmware whose PCI functions and Virtio devices are the same whenever they are asked:
    a handle has a configuration space or no PciIo, and a subsystem or no Virtio device. -/
structure Steady (answer : σ → (call : BdsCall) → call.Result × σ)
    (pci : UINT64 → Option ConfigSpace) (virtio : UINT64 → Option UINT32) : Prop where
  pciIo : ∀ {handle config}, pci handle = some config →
    ∃ pciIo, (∀ s, (answer s (.handleProtocol handle .pciIo)).1 = .ok pciIo) ∧
      ∀ s width offset count, (answer s (.pciRead pciIo width offset count)).1
        = .ok fun i => config.read width (offset.toNat + i * (width / 8))
  noPciIo : ∀ {handle}, pci handle = none →
    ∀ s, ∃ status, (answer s (.handleProtocol handle .pciIo)).1 = .error status
  virtIo : ∀ {handle subSystem}, virtio handle = some subSystem →
    ∃ virtIo, (∀ s, (answer s (.handleProtocol handle .virtioDevice)).1 = .ok virtIo) ∧
      ∀ s, (answer s (.subSystemDeviceId virtIo)).1 = subSystem
  noVirtIo : ∀ {handle}, virtio handle = none →
    ∀ s, ∃ status, (answer s (.handleProtocol handle .virtioDevice)).1 = .error status

variable {answer : σ → (call : BdsCall) → call.Result × σ} {pci : UINT64 → Option ConfigSpace}
  {virtio : UINT64 → Option UINT32} {handle : UINT64} {s : σ}

-- ============================================================================
-- What the filters find
-- ============================================================================

/-- The byte of the class code in the words that `IsPciDisplay` reads. -/
theorem isPciDisplay_config (config : ConfigSpace) :
    IS_PCI_DISPLAY (fun i => config.read 32 (0 + i * (32 / 8))) = decide config.IsDisplay := by
  have hword : config.read 32 8
      = BitVec.ofNat 32 (littleEndian [config 8, config 9, config 10, config 11]) := rfl
  have hclass : config.read 32 8 >>> 24 = (config 11).setWidth 32 := by
    apply BitVec.eq_of_toNat_eq
    rw [hword, BitVec.toNat_ushiftRight, Nat.shiftRight_eq_div_pow]
    simp only [littleEndian, BitVec.toNat_ofNat, BitVec.toNat_setWidth]
    have h8 := (config 8).isLt
    have h9 := (config 9).isLt
    have h10 := (config 10).isLt
    have h11 := (config 11).isLt
    omega
  have hequal : (config 11).setWidth 32 = PCI_CLASS_DISPLAY ↔ config 11 = 3 := by
    generalize config 11 = b
    revert b
    decide
  show (config.read 32 8 >>> 24 == PCI_CLASS_DISPLAY) = _
  rw [hclass, Bool.eq_iff_iff, beq_iff_eq, decide_eq_true_iff, hequal]
  exact Iff.rfl

/-- A program goes on with the answer to its call. -/
theorem run_answered {α : Type} {call : BdsCall} {f : call.Result → BdsM α} {r : call.Result}
    (hanswer : (answer s call).1 = r) :
    (Program.perform call >>= f).run answer s = (f r).run answer (answer s call).2 :=
  hanswer ▸ rfl

/-- The filter finds the displays. -/
theorem isPciDisplay_run (h : Steady answer pci virtio) (s : σ) :
    ((isPciDisplay handle).run answer s).1 = (pci handle).any (decide ·.IsDisplay) := by
  cases hpci : pci handle with
  | none =>
      obtain ⟨status, hstatus⟩ := h.noPciIo hpci s
      exact congrArg Prod.fst (run_answered hstatus)
  | some config =>
      obtain ⟨pciIo, hprotocol, hread⟩ := h.pciIo hpci
      refine (congrArg Prod.fst (run_answered (hprotocol s))).trans ?_
      refine (congrArg Prod.fst (run_answered (hread _ 32 0 16))).trans ?_
      exact isPciDisplay_config config

theorem isVirtioRng_run (h : Steady answer pci virtio) (s : σ) :
    ((isVirtioRng handle).run answer s).1 = decide (virtio handle = some 4) := by
  cases hvirtio : virtio handle with
  | none =>
      obtain ⟨status, hstatus⟩ := h.noVirtIo hvirtio s
      exact congrArg Prod.fst (run_answered hstatus)
  | some subSystem =>
      obtain ⟨virtIo, hprotocol, hsubSystem⟩ := h.virtIo hvirtio
      refine (congrArg Prod.fst (run_answered (hprotocol s))).trans ?_
      refine (congrArg Prod.fst (run_answered (hsubSystem _))).trans ?_
      show (subSystem == 4) = _
      simp [Bool.beq_eq_decide_eq]

/-- The checks of `IsVirtioPciRng` behind the vendor are the identification. -/
theorem checks_eq (deviceId : UINT16) (revisionId : UINT8) (subsystemId : UINT16) :
    (virtio10 deviceId revisionId).any (checkSubsystemId · subsystemId)
      = decide (IsEntropySource VIRTIO_VENDOR_ID deviceId revisionId subsystemId) := by
  rw [Bool.eq_iff_iff, decide_eq_true_iff, Option.any_eq_true]
  constructor
  · rintro ⟨modern, hmodern, hcheck⟩
    exact isEntropySource_of_checks hmodern hcheck
  · rintro ⟨-, ⟨rfl, hrevision, hsubsystem⟩ | ⟨hlow, hhigh, rfl, rfl⟩⟩
    · exact ⟨true, if_pos ⟨rfl, hrevision⟩, by simpa [checkSubsystemId] using hsubsystem⟩
    · have hmodern : ¬ (deviceId = 0x1040 + VIRTIO_SUBSYSTEM_ENTROPY_SOURCE ∧
          (0x01 : UINT8) ≤ 0) := fun h => absurd h.2 (by decide)
      exact ⟨false, (if_neg hmodern).trans (if_pos ⟨hlow, hhigh, rfl⟩), rfl⟩

theorem ConfigSpace.read_byte (config : ConfigSpace) (offset : Nat) :
    config.read 8 offset = config offset := by
  have hread : config.read 8 offset = BitVec.ofNat 8 (littleEndian [config offset]) := rfl
  rw [hread]
  simp [littleEndian]

theorem isVirtioPciRng_run (h : Steady answer pci virtio) (s : σ) :
    ((isVirtioPciRng handle).run answer s).1 = (pci handle).any (decide ·.IsEntropySource) := by
  cases hpci : pci handle with
  | none =>
      obtain ⟨status, hstatus⟩ := h.noPciIo hpci s
      exact congrArg Prod.fst (run_answered hstatus)
  | some config =>
      obtain ⟨pciIo, hprotocol, hread⟩ := h.pciIo hpci
      show _ = decide (UemuPkg.IsEntropySource (config.read 16 0) _ _ _)
      refine (congrArg Prod.fst (run_answered (hprotocol s))).trans ?_
      refine (congrArg Prod.fst (run_answered (hread _ 16 PCI_VENDOR_ID_OFFSET 1))).trans ?_
      by_cases hvendor : config.read 16 0 = VIRTIO_VENDOR_ID
      · rw [hvendor, ← checks_eq, ← config.read_byte]
        refine (congrArg (fun prog => (Program.run answer prog _).1)
          (if_neg (not_not_intro hvendor))).trans ?_
        refine (congrArg Prod.fst (run_answered (hread _ 16 PCI_DEVICE_ID_OFFSET 1))).trans ?_
        refine (congrArg Prod.fst (run_answered (hread _ 8 PCI_REVISION_ID_OFFSET 1))).trans ?_
        show ((isEntropySubsystem pciIo (virtio10 (config.read 16 2) (config.read 8 8))).run
          answer _).1 = _
        cases virtio10 (config.read 16 2) (config.read 8 8) with
        | none => rfl
        | some modern =>
            exact congrArg Prod.fst (run_answered (hread _ 16 PCI_SUBSYSTEM_ID_OFFSET 1))
      · refine (congrArg (fun prog => (Program.run answer prog _).1) (if_pos hvendor)).trans ?_
        exact (decide_eq_false fun hsource => hvendor hsource.1).symm

-- ============================================================================
-- What a run locates and connects
-- ============================================================================

/-- The handles that were located, for each call that looked for some. -/
def locatedIn (trace : List BdsEntry) : List (BdsProtocol × List UINT64) :=
  trace.filterMap fun
    | ⟨.locateHandleBuffer protocol, .ok (_, handles)⟩ => some (protocol, handles)
    | ⟨.locateHandleBuffer protocol, .error _⟩ => some (protocol, [])
    | _ => none

/-- The handles that were connected. -/
def connectedIn (trace : List BdsEntry) : List UINT64 :=
  trace.filterMap fun entry =>
    match entry.call with
    | .connectController handle => some handle
    | _ => none

@[simp] theorem locatedIn_append (xs ys : List BdsEntry) :
    locatedIn (xs ++ ys) = locatedIn xs ++ locatedIn ys := List.filterMap_append

@[simp] theorem connectedIn_append (xs ys : List BdsEntry) :
    connectedIn (xs ++ ys) = connectedIn xs ++ connectedIn ys := List.filterMap_append

/-- The call neither locates nor connects. -/
def BdsCall.IsOther : BdsCall → Prop
  | .locateHandleBuffer _ => False
  | .connectController _ => False
  | _ => True

theorem BdsCall.IsProbe.isOther : ∀ call : BdsCall, call.IsProbe → call.IsOther := by
  intro call h
  cases call <;> first | exact absurd h id | trivial

/-- The part of a run in which these handles are located and those are connected. -/
structure Finds (trace : List BdsEntry) (located : List (BdsProtocol × List UINT64))
    (connected : List UINT64) : Prop where
  located : locatedIn trace = located
  connected : connectedIn trace = connected

theorem Finds.append {xs ys : List BdsEntry} {located located' : List (BdsProtocol × List UINT64)}
    {connected connected' : List UINT64} (h : Finds xs located connected)
    (h' : Finds ys located' connected') :
    Finds (xs ++ ys) (located ++ located') (connected ++ connected') :=
  ⟨by simp [h.located, h'.located], by simp [h.connected, h'.connected]⟩

theorem finds_of_other {α : Type} {prog : BdsM α} (h : prog.Calls BdsCall.IsOther) (s : σ) :
    Finds (prog.record answer s) [] [] := by
  have hcalls := h.reaches (Program.reaches_record answer prog s)
  refine ⟨List.filterMap_eq_nil_iff.mpr ?_, List.filterMap_eq_nil_iff.mpr ?_⟩
  · rintro ⟨call, r⟩ hmem
    have hother := hcalls _ hmem
    cases call <;> first | exact absurd hother id | rfl
  · rintro ⟨call, r⟩ hmem
    have hother := hcalls _ hmem
    cases call <;> first | exact absurd hother id | rfl

/-- A run of a sequence. -/
theorem finds_bind {α β : Type} {first : BdsM α} {rest : α → BdsM β}
    {located located' : List (BdsProtocol × List UINT64)} {connected connected' : List UINT64}
    (h : Finds (first.record answer s) located connected)
    (h' : Finds ((rest (first.run answer s).1).record answer (first.run answer s).2) located'
      connected') :
    Finds ((first >>= rest).record answer s) (located ++ located') (connected ++ connected') := by
  rw [Program.record_bind]
  exact h.append h'

variable {filter : Option (UINT64 → BdsM Bool)} {process : UINT64 → BdsM Unit}
  {accepts : UINT64 → Bool} {connects : UINT64 → List UINT64} {protocol : BdsProtocol}

/-- The filter answers `accepts`, and the callback connects what `connects` says. -/
structure Selects (answer : σ → (call : BdsCall) → call.Result × σ)
    (filter : Option (UINT64 → BdsM Bool)) (process : UINT64 → BdsM Unit)
    (accepts : UINT64 → Bool) (connects : UINT64 → List UINT64) : Prop where
  verdict : ∀ handle s, ((clearsFilter filter handle).run answer s).1 = accepts handle
  probes : ∀ handle, (clearsFilter filter handle).Calls BdsCall.IsOther
  callback : ∀ handle s, Finds ((process handle).record answer s) [] (connects handle)

theorem finds_other_bind {α β : Type} {first : BdsM α} {rest : α → BdsM β}
    {located : List (BdsProtocol × List UINT64)} {connected : List UINT64}
    (hfirst : first.Calls BdsCall.IsOther)
    (hrest : ∀ a t, Finds ((rest a).record answer t) located connected) :
    Finds ((first >>= rest).record answer s) located connected :=
  finds_bind (finds_of_other hfirst s) (hrest _ _)

theorem finds_bind_other {α β : Type} {first : BdsM α} {rest : α → BdsM β}
    {located : List (BdsProtocol × List UINT64)} {connected : List UINT64}
    (hfirst : Finds (first.record answer s) located connected)
    (hrest : ∀ a, (rest a).Calls BdsCall.IsOther) :
    Finds ((first >>= rest).record answer s) located connected := by
  have hall := finds_bind hfirst (finds_of_other (hrest (first.run answer s).1) _)
  simpa using hall

theorem freeText_other (text : Option UINT64) : (freeText text).Calls BdsCall.IsOther := by
  cases text with
  | none => trivial
  | some text => exact Program.calls_perform trivial

theorem Selects.finds_handle (h : Selects answer filter process accepts connects)
    (handle : UINT64) (s : σ) :
    Finds ((processHandle filter process handle).record answer s) []
      (if accepts handle then connects handle else []) := by
  refine finds_other_bind (Program.calls_perform trivial) fun devicePath t => ?_
  refine finds_other_bind (Program.calls_perform trivial) fun text t => ?_
  refine finds_bind (finds_of_other (h.probes handle) t) ?_
  rw [h.verdict]
  refine finds_bind_other ?_ fun _ => freeText_other text
  cases accepts handle with
  | false => exact ⟨rfl, rfl⟩
  | true => exact h.callback handle _

theorem Selects.finds_handles (h : Selects answer filter process accepts connects)
    (handles : List UINT64) (s : σ) :
    Finds ((processHandles filter process handles).record answer s) []
      ((handles.filter accepts).flatMap connects) := by
  induction handles generalizing s with
  | nil => exact ⟨rfl, rfl⟩
  | cons handle handles ih =>
      have hfilter : ((handle :: handles).filter accepts).flatMap connects
          = (if accepts handle then connects handle else [])
            ++ (handles.filter accepts).flatMap connects := by
        cases haccepts : accepts handle <;> simp [haccepts]
      rw [hfilter]
      exact finds_bind (h.finds_handle handle s) (ih _)

/-- A use of `FilterAndProcess`. -/
theorem Selects.finds_all (h : Selects answer filter process accepts connects)
    (protocol : BdsProtocol) (s : σ) :
    ∃ handles, Finds ((filterAndProcess protocol filter process).record answer s)
      [(protocol, handles)] ((handles.filter accepts).flatMap connects) := by
  have hrecord : (filterAndProcess protocol filter process).record answer s
      = ⟨.locateHandleBuffer protocol, (answer s (.locateHandleBuffer protocol)).1⟩
        :: Program.record answer _ (answer s (.locateHandleBuffer protocol)).2 := rfl
  rw [hrecord]
  generalize answer s (.locateHandleBuffer protocol) = answered
  obtain ⟨located, t⟩ := answered
  cases located with
  | error status => exact ⟨[], rfl, rfl⟩
  | ok found =>
      obtain ⟨buffer, handles⟩ := found
      refine ⟨handles, ?_⟩
      have hhead : Finds [⟨.locateHandleBuffer protocol, .ok (buffer, handles)⟩]
          [(protocol, handles)] [] := ⟨rfl, rfl⟩
      have htail : Finds ((processHandles filter process handles >>= fun _ => bdsFreePool buffer).record
          answer t) [] ((handles.filter accepts).flatMap connects) :=
        finds_bind_other (h.finds_handles handles t) fun _ => Program.calls_perform trivial
      exact hhead.append htail

-- ============================================================================
-- The whole function
-- ============================================================================

theorem connect_finds (handle : UINT64) (s : σ) :
    Finds ((connect handle).record answer s) [] [handle] := ⟨rfl, rfl⟩

theorem addOutput_other (handle : UINT64) : (addOutput handle).Calls BdsCall.IsOther := by
  refine Program.Calls.perform_bind trivial fun found => ?_
  cases found with
  | none => trivial
  | some devicePath =>
      refine Program.Calls.perform_bind trivial fun (status : EfiStatus) => ?_
      split
      · trivial
      · exact Program.Calls.perform_bind trivial fun _ => trivial

/-- All root bridges are connected. -/
theorem rootBridges_select :
    Selects answer none connect (fun _ => true) (fun handle => [handle]) :=
  ⟨fun _ _ => rfl, fun _ => trivial, connect_finds⟩

theorem outputs_select : Selects answer none addOutput (fun _ => true) (fun _ => []) :=
  ⟨fun _ _ => rfl, fun _ => trivial, fun handle => finds_of_other (addOutput_other handle)⟩

theorem connect_selects {f : UINT64 → BdsM Bool}
    (hverdict : ∀ handle s, ((f handle).run answer s).1 = accepts handle)
    (hprobes : ∀ handle, (f handle).Calls BdsCall.IsProbe) :
    Selects answer (some f) connect accepts (fun handle => [handle]) :=
  ⟨hverdict, fun handle => (hprobes handle).mono BdsCall.IsProbe.isOther, connect_finds⟩

/-- A use with a filter and `Connect`. -/
theorem finds_filtered {f : UINT64 → BdsM Bool}
    (hverdict : ∀ handle s, ((f handle).run answer s).1 = accepts handle)
    (hprobes : ∀ handle, (f handle).Calls BdsCall.IsProbe) (protocol : BdsProtocol) (s : σ) :
    ∃ handles, Finds ((filterAndProcess protocol (some f) connect).record answer s)
      [(protocol, handles)] (handles.filter accepts) := by
  obtain ⟨handles, hfinds⟩ := (connect_selects hverdict hprobes).finds_all protocol s
  exact ⟨handles, by simpa using hfinds⟩

/-- The entropy sources. -/
theorem entropySources_find (h : Steady answer pci virtio) (s : σ) :
    ∃ devices late,
      Finds ((do
          filterAndProcess .virtioDevice (some isVirtioRng) connect
          filterAndProcess .pciIo (some isVirtioPciRng) connect : BdsM Unit).record answer s)
        [(.virtioDevice, devices), (.pciIo, late)]
        (devices.filter (fun d => decide (virtio d = some 4))
          ++ late.filter (fun f => (pci f).any (decide ·.IsEntropySource))) := by
  obtain ⟨devices, hdevices⟩ := finds_filtered (fun _ => isVirtioRng_run h) isVirtioRng_probes
    .virtioDevice s
  obtain ⟨late, hlate⟩ := finds_filtered (fun _ => isVirtioPciRng_run h) isVirtioPciRng_probes
    .pciIo ((filterAndProcess .virtioDevice (some isVirtioRng) connect).run answer s).2
  exact ⟨devices, late, finds_bind hdevices hlate⟩

theorem afterRootBridges_finds (serial : SerialConsole) (h : Steady answer pci virtio) (s : σ) :
    ∃ functions outputs devices late,
      Finds ((afterRootBridges serial).record answer s)
        [(.pciIo, functions), (.graphicsOutput, outputs), (.virtioDevice, devices), (.pciIo, late)]
        (functions.filter (fun f => (pci f).any (decide ·.IsDisplay))
          ++ (devices.filter (fun d => decide (virtio d = some 4))
            ++ late.filter (fun f => (pci f).any (decide ·.IsEntropySource)))) := by
  let displays := filterAndProcess .pciIo (some isPciDisplay) connect
  let gops := filterAndProcess .graphicsOutput none addOutput
  let s₁ := (displays.run answer s).2
  let s₂ := (gops.run answer s₁).2
  let s₃ := ((addConsoles serial).run answer s₂).2
  let s₄ := (platformRegisterOptionsAndKeys.run answer s₃).2
  obtain ⟨functions, hfunctions⟩ := finds_filtered (fun _ => isPciDisplay_run h)
    isPciDisplay_probes .pciIo s
  obtain ⟨outputs, houtputs⟩ := (outputs_select : Selects answer ..).finds_all .graphicsOutput s₁
  obtain ⟨devices, late, hsources⟩ := entropySources_find h s₄
  rw [List.flatMap_eq_nil_iff.mpr fun _ _ => rfl] at houtputs
  have hconsoles : (addConsoles serial).Calls BdsCall.IsOther :=
    ⟨trivial, fun _ => ⟨trivial, fun _ => ⟨trivial, fun _ => ⟨trivial, fun _ =>
      ⟨trivial, fun _ => trivial⟩⟩⟩⟩⟩
  have hkeys : platformRegisterOptionsAndKeys.Calls BdsCall.IsOther :=
    ⟨trivial, fun _ => ⟨trivial, fun _ => ⟨trivial, fun _ => ⟨trivial, fun _ => trivial⟩⟩⟩⟩
  exact ⟨functions, outputs, devices, late, finds_bind hfunctions (finds_bind houtputs
    (finds_bind (finds_of_other hconsoles s₂) (finds_bind (finds_of_other hkeys s₃) hsources)))⟩

/-- On a machine whose devices keep their identification, a whole run of
    `PlatformBootManagerBeforeConsole` looks for handles five times, and connects of what
    it finds, in this order and no other handle: all root bridges, the displays among the
    PCI functions, and the entropy sources among the Virtio devices and among the PCI
    functions. -/
theorem platformBootManagerBeforeConsole_connects (serial : SerialConsole)
    (h : Steady answer pci virtio) (s : σ) :
    ∃ bridges functions outputs devices late,
      locatedIn ((platformBootManagerBeforeConsole serial).record answer s)
        = [(.pciRootBridgeIo, bridges), (.pciIo, functions), (.graphicsOutput, outputs),
            (.virtioDevice, devices), (.pciIo, late)] ∧
      connectedIn ((platformBootManagerBeforeConsole serial).record answer s)
        = bridges ++ functions.filter (fun f => (pci f).any (decide ·.IsDisplay))
          ++ devices.filter (fun d => decide (virtio d = some 4))
          ++ late.filter (fun f => (pci f).any (decide ·.IsEntropySource)) := by
  let s₁ := (endDxePhase.run answer s).2
  let s₂ := ((filterAndProcess .pciRootBridgeIo none connect).run answer s₁).2
  let s₃ := ((eventGroupSignal .rootBridgesConnected).run answer s₂).2
  obtain ⟨bridges, hbridges⟩ := (rootBridges_select : Selects answer ..).finds_all
    .pciRootBridgeIo s₁
  obtain ⟨functions, outputs, devices, late, hlater⟩ := afterRootBridges_finds serial h s₃
  have hstart : endDxePhase.Calls BdsCall.IsOther :=
    ⟨trivial, fun _ => ⟨trivial, fun _ => ⟨trivial, fun _ => trivial⟩⟩⟩
  have hsignal : (eventGroupSignal .rootBridgesConnected).Calls BdsCall.IsOther :=
    ⟨trivial, fun _ => trivial⟩
  have hall : Finds ((platformBootManagerBeforeConsole serial).record answer s) _ _ :=
    finds_bind (finds_of_other hstart s) (finds_bind hbridges
      (finds_bind (finds_of_other hsignal s₂) hlater))
  refine ⟨bridges, functions, outputs, devices, late, hall.located, ?_⟩
  refine hall.connected.trans ?_
  simp

theorem sampleFirmware_steady : Steady sampleFirmware samplePci (fun _ => none) where
  pciIo := by
    intro handle config hpci
    have hsome : (samplePci handle).isSome = true := Option.isSome_iff_exists.mpr ⟨config, hpci⟩
    refine ⟨handle, fun _ => if_pos hsome, fun _ width offset count => ?_⟩
    show readFunction (samplePci handle) width offset count = _
    rw [hpci]
    rfl
  noPciIo := by
    intro handle hpci s
    have hnone : ¬ (samplePci handle).isSome = true := by simp [hpci]
    exact ⟨.unsupported, if_neg hnone⟩
  virtIo := nofun
  noVirtIo _ _ := ⟨.unsupported, rfl⟩

theorem platformBootManagerBeforeConsole_connects_sample :
    connectedIn ((platformBootManagerBeforeConsole sampleConsole).record sampleFirmware ())
      = [1, 2, 3] := by
  obtain ⟨bridges, functions, outputs, devices, late, hlocated, hconnected⟩ :=
    platformBootManagerBeforeConsole_connects sampleConsole sampleFirmware_steady ()
  have hfound : locatedIn
      ((platformBootManagerBeforeConsole sampleConsole).record sampleFirmware ())
        = [(.pciRootBridgeIo, [1]), (.pciIo, [2, 3]), (.graphicsOutput, [4]),
            (.virtioDevice, []), (.pciIo, [2, 3])] := rfl
  obtain ⟨⟨-, rfl⟩, ⟨-, rfl⟩, -, ⟨-, rfl⟩, ⟨-, rfl⟩, -⟩ := by
    simpa using hlocated.symm.trans hfound
  rw [hconnected]
  decide

end UemuPkg
