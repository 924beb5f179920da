/-
  UemuPkg.Library.PlatformBootManagerLib.HandleBuffers

  The pool buffers of the boot manager: the handle buffers and the texts of the device
  paths.  The text of a handle goes back before the next one is asked for, the buffer
  after its last handle, and nothing is left when the function returns.
-/

import UemuPkg.Library.PlatformBootManagerLib.ConnectOrder

namespace UemuPkg

open Effects (Program Custody)

-- ============================================================================
-- Pool buffers
-- ============================================================================

/-- The buffers of `LocateHandleBuffer` and `ConvertDevicePathToText`. -/
def bdsCustody : Custody BdsCall BdsCall.Result UINT64 where
  acquires
    | .locateHandleBuffer _, .ok (buffer, _) => some buffer
    | .convertDevicePathToText _, text => text
    | _, _ => none
  releases
    | .freePool buffer => some buffer
    | _ => none
  uses _ := none

/-- The call neither allocates nor frees. -/
def BdsCall.KeepsPools : BdsCall → Prop
  | .locateHandleBuffer _ => False
  | .convertDevicePathToText _ => False
  | .freePool _ => False
  | _ => True

variable {α : Type} {held : List UINT64} {handle : UINT64} {handles : List UINT64}
  {protocol : BdsProtocol} {filter : Option (UINT64 → BdsM Bool)} {process : UINT64 → BdsM Unit}

/-- Calls that leave the pools alone. -/
theorem keeps_pools {prog : BdsM α} (h : prog.Calls BdsCall.KeepsPools) :
    prog.Keeps bdsCustody.stack (fun _ after => after = held) held := by
  refine h.keeps (· = held) ?_ ?_ rfl
  · rintro _ call rfl hcall
    refine ⟨?_, nofun⟩
    cases call <;> first | exact absurd hcall id | exact nofun
  · rintro _ call r rfl hcall
    cases call <;> first | exact absurd hcall id | rfl

/-- A part of a sequence that ends with what it started with. -/
theorem pools_bind {first : BdsM Unit} {rest : Unit → BdsM α} {post : α → List UINT64 → Prop}
    (hfirst : first.Keeps bdsCustody.stack (fun _ after => after = held) held)
    (hrest : (rest ()).Keeps bdsCustody.stack post held) :
    (first >>= rest).Keeps bdsCustody.stack post held :=
  (Program.keeps_bind _ _).mpr (hfirst.mono fun _ _ hafter => hafter ▸ hrest)

/-- What a filter calls. -/
def BdsCall.IsProbe : BdsCall → Prop
  | .handleProtocol _ _ => True
  | .pciRead _ _ _ _ => True
  | .subSystemDeviceId _ => True
  | _ => False

theorem BdsCall.IsProbe.keepsPools : ∀ call : BdsCall, call.IsProbe → call.KeepsPools := by
  intro call h
  cases call <;> first | exact absurd h id | trivial

theorem isPciDisplay_probes (handle : UINT64) : (isPciDisplay handle).Calls BdsCall.IsProbe := by
  refine Program.Calls.perform_bind trivial fun located => ?_
  cases located with
  | error status => trivial
  | ok pciIo =>
      refine Program.Calls.perform_bind trivial fun read => ?_
      cases read <;> trivial

theorem isVirtioRng_probes (handle : UINT64) : (isVirtioRng handle).Calls BdsCall.IsProbe := by
  refine Program.Calls.perform_bind trivial fun located => ?_
  cases located with
  | error status => trivial
  | ok virtIo => exact Program.Calls.perform_bind trivial fun _ => trivial

theorem isEntropySubsystem_probes (pciIo : UINT64) (virtio10 : Option Bool) :
    (isEntropySubsystem pciIo virtio10).Calls BdsCall.IsProbe := by
  cases virtio10 with
  | none => trivial
  | some virtio10 =>
      refine Program.Calls.perform_bind trivial fun subsystem => ?_
      cases subsystem <;> trivial

theorem isVirtioPciRng_probes (handle : UINT64) :
    (isVirtioPciRng handle).Calls BdsCall.IsProbe := by
  refine Program.Calls.perform_bind trivial fun located => ?_
  cases located with
  | error status => trivial
  | ok pciIo =>
      refine Program.Calls.perform_bind trivial fun vendor => ?_
      cases vendor with
      | error status => trivial
      | ok vendorId =>
          dsimp only
          split
          · trivial
          · refine Program.Calls.perform_bind trivial fun device => ?_
            cases device with
            | error status => trivial
            | ok deviceId =>
                refine Program.Calls.perform_bind trivial fun revision => ?_
                cases revision with
                | error status => trivial
                | ok revisionId => exact isEntropySubsystem_probes pciIo _

theorem connect_pools (handle : UINT64) : (connect handle).Calls BdsCall.KeepsPools :=
  ⟨trivial, fun _ => trivial⟩

theorem addOutput_pools (handle : UINT64) : (addOutput handle).Calls BdsCall.KeepsPools := by
  refine Program.Calls.perform_bind trivial fun found => ?_
  cases found with
  | none => trivial
  | some devicePath =>
      refine Program.Calls.perform_bind trivial fun (status : EfiStatus) => ?_
      split
      · trivial
      · exact Program.Calls.perform_bind trivial fun _ => trivial

theorem clearsFilter_pools (hfilter : ∀ f ∈ filter, ∀ handle, (f handle).Calls BdsCall.IsProbe)
    (handle : UINT64) : (clearsFilter filter handle).Calls BdsCall.KeepsPools := by
  cases filter with
  | none => trivial
  | some f => exact (hfilter f rfl handle).mono BdsCall.IsProbe.keepsPools

theorem processIf_pools (hprocess : ∀ handle, (process handle).Calls BdsCall.KeepsPools)
    (clears : Bool) (handle : UINT64) :
    (processIf clears (process handle)).Calls BdsCall.KeepsPools := by
  cases clears with
  | false => trivial
  | true => exact hprocess handle

/-- The text of the device path is freed where there is one. -/
theorem freeText_pools (text : Option UINT64) :
    (freeText text).Keeps bdsCustody.stack (fun _ after => after = held) (text.toList ++ held) := by
  cases text with
  | none => rfl
  | some text => exact Custody.keeps_release rfl rfl (fun _ => rfl) fun _ => rfl

theorem processHandles_pools
    (hfilter : ∀ f ∈ filter, ∀ handle, (f handle).Calls BdsCall.IsProbe)
    (hprocess : ∀ handle, (process handle).Calls BdsCall.KeepsPools) :
    (processHandles filter process handles).Keeps bdsCustody.stack (fun _ after => after = held)
      held := by
  induction handles with
  | nil => rfl
  | cons handle handles ih =>
      refine pools_bind ?_ ih
      refine Custody.keeps_acquire rfl rfl fun devicePath => ?_
      refine Custody.keeps_acquire rfl rfl fun (text : Option UINT64) => ?_
      show Program.Keeps _ _ _ (text.toList ++ held)
      refine (Program.keeps_bind _ _).mpr
        ((keeps_pools (clearsFilter_pools hfilter handle)).mono ?_)
      rintro clears _ rfl
      refine (Program.keeps_bind _ _).mpr
        ((keeps_pools (processIf_pools hprocess clears handle)).mono ?_)
      rintro _ _ rfl
      exact freeText_pools text

theorem filterAndProcess_pools
    (hfilter : ∀ f ∈ filter, ∀ handle, (f handle).Calls BdsCall.IsProbe)
    (hprocess : ∀ handle, (process handle).Calls BdsCall.KeepsPools) :
    (filterAndProcess protocol filter process).Keeps bdsCustody.stack
      (fun _ after => after = held) held := by
  refine Custody.keeps_acquire rfl rfl fun located => ?_
  cases located with
  | error status => rfl
  | ok found =>
      obtain ⟨buffer, handles⟩ := found
      refine (Program.keeps_bind _ _).mpr ((processHandles_pools hfilter hprocess).mono ?_)
      rintro _ _ rfl
      exact Custody.keeps_release rfl rfl (fun _ => rfl) fun _ => rfl

theorem platformBootManagerBeforeConsole_pools (serial : SerialConsole) :
    (platformBootManagerBeforeConsole serial).Keeps bdsCustody.stack
      (fun _ after => after = []) [] := by
  have hnone : ∀ f ∈ (none : Option (UINT64 → BdsM Bool)), ∀ handle,
      (f handle).Calls BdsCall.IsProbe := nofun
  have hsome {f : UINT64 → BdsM Bool} (hf : ∀ handle, (f handle).Calls BdsCall.IsProbe) :
      ∀ g ∈ some f, ∀ handle, (g handle).Calls BdsCall.IsProbe := by
    rintro _ ⟨⟩
    exact hf
  refine pools_bind (keeps_pools ⟨trivial, fun _ => ⟨trivial, fun _ => ⟨trivial, fun _ =>
    trivial⟩⟩⟩) ?_
  refine pools_bind (filterAndProcess_pools hnone connect_pools) ?_
  refine pools_bind (keeps_pools ⟨trivial, fun _ => trivial⟩) ?_
  refine pools_bind (filterAndProcess_pools (hsome isPciDisplay_probes) connect_pools) ?_
  refine pools_bind (filterAndProcess_pools hnone addOutput_pools) ?_
  refine pools_bind (keeps_pools ?_) ?_
  · exact ⟨trivial, fun _ => ⟨trivial, fun _ => ⟨trivial, fun _ => ⟨trivial, fun _ =>
      ⟨trivial, fun _ => trivial⟩⟩⟩⟩⟩
  refine pools_bind (keeps_pools ?_) ?_
  · exact ⟨trivial, fun _ => ⟨trivial, fun _ => ⟨trivial, fun _ => ⟨trivial, fun _ => trivial⟩⟩⟩⟩
  refine pools_bind (filterAndProcess_pools (hsome isVirtioRng_probes) connect_pools) ?_
  exact filterAndProcess_pools (hsome isVirtioPciRng_probes) connect_pools

/-- In every run of `PlatformBootManagerBeforeConsole`, up to any point and whatever the
    firmware answers, a handle buffer or text is freed at most as often as it was
    handed out, the last one first; and when the function returns, every one has been
    freed. -/
theorem platformBootManagerBeforeConsole_frees_buffers (serial : SerialConsole)
    {trace : List BdsEntry} {rest : BdsM Unit}
    (hreaches : (platformBootManagerBeforeConsole serial).Reaches trace rest) :
    bdsCustody.stack.Accepts [] trace ∧
    (∀ buffer, bdsCustody.released buffer trace ≤ bdsCustody.acquired buffer trace) ∧
    (rest = .ret () →
      ∀ buffer, bdsCustody.released buffer trace = bdsCustody.acquired buffer trace) := by
  have hkeeps := platformBootManagerBeforeConsole_pools serial
  refine ⟨hkeeps.accepts hreaches, Custody.released_le hkeeps hreaches, ?_⟩
  rintro rfl
  exact Custody.released_eq hkeeps hreaches fun _ hheld => hheld

/-- The PCI functions are located twice. -/
theorem platformBootManagerBeforeConsole_frees_buffers_sample :
    bdsCustody.stack.Accepts []
        ((platformBootManagerBeforeConsole sampleConsole).record sampleFirmware ()) ∧
      bdsCustody.acquired 0x200
        ((platformBootManagerBeforeConsole sampleConsole).record sampleFirmware ()) = 2 ∧
      bdsCustody.released 0x200
        ((platformBootManagerBeforeConsole sampleConsole).record sampleFirmware ()) = 2 := by
  have hacquired : bdsCustody.acquired 0x200
      ((platformBootManagerBeforeConsole sampleConsole).record sampleFirmware ()) = 2 := by
    rfl
  obtain ⟨haccepts, -, hfreed⟩ :=
    platformBootManagerBeforeConsole_frees_buffers sampleConsole sampleFirmware_returns
  exact ⟨haccepts, hacquired, (hfreed rfl 0x200).trans hacquired⟩

end UemuPkg
