/-
  UemuPkg.Library.PlatformBootManagerLib.BootOptions

  What `PlatformBootManagerAfterConsole` does to the Boot options: it registers the shell,
  unless an equal option is listed, and deletes the options whose file is in no firmware
  volume.  The list settles in one boot, also for a shell that is registered and at once
  stale.
-/

import UemuPkg.Base
import UemuPkg.Generic.KeyedList
import UemuPkg.Generic.Run

namespace UemuPkg

open KeyedList (upkeep addMissing Settled)
open Run (run)

-- ============================================================================
-- Device paths and load options
-- ============================================================================

def HARDWARE_DEVICE_PATH : UINT8 := 0x01
def HW_MEMMAP_DP : UINT8 := 0x03
def MEDIA_DEVICE_PATH : UINT8 := 0x04
def MEDIA_PIWG_FW_FILE_DP : UINT8 := 0x06
def MEDIA_PIWG_FW_VOL_DP : UINT8 := 0x07

structure DevicePathNode where
  type : UINT8
  subType : UINT8
  /-- What follows the header. -/
  data : List UINT8
  deriving DecidableEq

/-- The node that ends a path. -/
def endNode : DevicePathNode := ⟨0x7F, 0xFF, []⟩

/-- The nodes of a path before its end node. -/
abbrev DevicePath := List DevicePathNode

/-- `EfiInitializeFwVolDevicepathNode` -/
def fvFileNode (fileGuid : List UINT8) : DevicePathNode :=
  ⟨MEDIA_DEVICE_PATH, MEDIA_PIWG_FW_FILE_DP, fileGuid⟩

/-- `FvFileName`, the GUID in the node. -/
def DevicePathNode.fvFileName (node : DevicePathNode) : List UINT8 := node.data.take 16

/-- `EFI_BOOT_MANAGER_LOAD_OPTION`, of the type `LoadOptionTypeBoot`. -/
structure LoadOption where
  optionNumber : UINTN
  attributes : UINT32
  description : List UINT16
  filePath : DevicePath
  optionalData : List UINT8
  deriving DecidableEq

/-- Everything is equal but the number. -/
def LoadOption.same (a b : LoadOption) : Bool :=
  a.attributes = b.attributes ∧ a.description = b.description ∧ a.filePath = b.filePath ∧
    a.optionalData = b.optionalData

def LOAD_OPTION_ACTIVE : UINT32 := 1

def LoadOptionNumberUnassigned : UINTN := 0x10000

/-- What the two functions ask of the firmware and of the boot manager library. -/
structure BootServices where
  /-- The device path of `LoadedImage->DeviceHandle`. -/
  loadedImagePath : DevicePath
  gUefiShellFileGuid : List UINT8
  /-- `EfiBootManagerFindLoadOption` -/
  findLoadOption : LoadOption → List LoadOption → Int
  /-- `LocateDevicePath` for `gEfiFirmwareVolume2ProtocolGuid`: the handle of the volume. -/
  locateDevicePath : DevicePath → Except EfiStatus UINT64
  /-- `ReadFile` of the volume's protocol, without a buffer. -/
  readFile : UINT64 → List UINT8 → EfiStatus

variable {services : BootServices}

-- ============================================================================
-- The model
-- ============================================================================

/-- `NewOption` of `PlatformRegisterFvBootOption` -/
def fvBootOption (services : BootServices) (fileGuid : List UINT8) (description : List UINT16)
    (attributes : UINT32) : LoadOption where
  optionNumber := LoadOptionNumberUnassigned
  attributes
  description
  filePath := services.loadedImagePath ++ [fvFileNode fileGuid]
  optionalData := []

/-- `EfiBootManagerAddLoadOptionVariable`, at the end of the order, with the number it picks;
    it picks none that is in use. -/
def addLoadOptionVariable (bootOptions : List LoadOption) (newOption : LoadOption)
    (number : UINTN) : Option (List LoadOption) :=
  if number ∈ bootOptions.map LoadOption.optionNumber then none
  else some (bootOptions ++ [{ newOption with optionNumber := number }])

/-- `EfiBootManagerDeleteLoadOptionVariable`, which succeeds. -/
def deleteLoadOptionVariable (bootOptions : List LoadOption) (number : UINTN) : List LoadOption :=
  KeyedList.delete LoadOption.optionNumber bootOptions number

/-- `PlatformRegisterFvBootOption` -/
def platformRegisterFvBootOption (services : BootServices) (fileGuid : List UINT8)
    (description : List UINT16) (attributes : UINT32) (bootOptions : List LoadOption)
    (number : UINTN) : Option (List LoadOption) :=
  let newOption := fvBootOption services fileGuid description attributes
  let optionIndex := services.findLoadOption newOption bootOptions
  if optionIndex = -1 then
    addLoadOptionVariable bootOptions newOption number
  else
    some bootOptions

/-- The body of the loop of `RemoveStaleFvFileOptions`: whether it comes to the deletion. -/
def isStaleFvFileOption (services : BootServices) (option : LoadOption) : Bool :=
  let node1 := option.filePath.getD 0 endNode
  if ¬ (node1.type = HARDWARE_DEVICE_PATH ∧ node1.subType = HW_MEMMAP_DP) ∧
      ¬ (node1.type = MEDIA_DEVICE_PATH ∧ node1.subType = MEDIA_PIWG_FW_VOL_DP) then
    false
  else
    let node2 := option.filePath.getD 1 endNode
    if node2.type ≠ MEDIA_DEVICE_PATH ∨ node2.subType ≠ MEDIA_PIWG_FW_FILE_DP then
      false
    else
      match services.locateDevicePath option.filePath with
      | .error _ => true
      | .ok fvHandle => (services.readFile fvHandle node2.fvFileName).isError

/-- `RemoveStaleFvFileOptions`: the loop runs over the options as they were read, and deletes
    from those that are stored. -/
def removeStaleFvFileOptions (services : BootServices) (bootOptions : List LoadOption) :
    List LoadOption :=
  bootOptions.foldl
    (fun stored option =>
      if isStaleFvFileOption services option then
        deleteLoadOptionVariable stored option.optionNumber
      else
        stored)
    bootOptions

/-- `L"EFI Internal Shell"` -/
def shellDescription : List UINT16 :=
  "EFI Internal Shell".toList.map fun c => BitVec.ofNat 16 c.toNat

/-- What `PlatformBootManagerAfterConsole` does to the Boot options once they are enumerated. -/
def maintainBootOptions (services : BootServices) (bootOptions : List LoadOption)
    (number : UINTN) : Option (List LoadOption) := do
  let bootOptions ← platformRegisterFvBootOption services services.gUefiShellFileGuid
    shellDescription LOAD_OPTION_ACTIVE bootOptions number
  return removeStaleFvFileOptions services bootOptions

-- ============================================================================
-- Which options are stale
-- ============================================================================

def DevicePathNode.IsVolume (node : DevicePathNode) : Prop :=
  (node.type = HARDWARE_DEVICE_PATH ∧ node.subType = HW_MEMMAP_DP) ∨
    (node.type = MEDIA_DEVICE_PATH ∧ node.subType = MEDIA_PIWG_FW_VOL_DP)

def DevicePathNode.IsFvFile (node : DevicePathNode) : Prop :=
  node.type = MEDIA_DEVICE_PATH ∧ node.subType = MEDIA_PIWG_FW_FILE_DP

/-- The path starts with a MemoryMapped or an Fv node, and an FvFile node. -/
def StartsWithFvFile (path : DevicePath) : Prop :=
  ∃ node1 node2 rest, path = node1 :: node2 :: rest ∧ node1.IsVolume ∧ node2.IsFvFile

/-- The volume of the path is found, and the file that its second node names can be read
    from it. -/
def FileFound (services : BootServices) (path : DevicePath) : Prop :=
  ∃ fvHandle, services.locateDevicePath path = .ok fvHandle ∧
    (services.readFile fvHandle (path.getD 1 endNode).fvFileName).isError = false

/-- The nodes that the code looks at, on any path. -/
theorem startsWithFvFile_iff (path : DevicePath) :
    StartsWithFvFile path ↔ (path.getD 0 endNode).IsVolume ∧ (path.getD 1 endNode).IsFvFile := by
  constructor
  · rintro ⟨node1, node2, rest, rfl, hvolume, hfile⟩
    exact ⟨hvolume, hfile⟩
  · rintro ⟨hvolume, hfile⟩
    have hend : ¬ endNode.IsFvFile := fun h => absurd h.1 (by decide)
    match path with
    | [] => exact absurd hfile hend
    | [_] => exact absurd hfile hend
    | node1 :: node2 :: rest => exact ⟨node1, node2, rest, rfl, hvolume, hfile⟩

/-- The loop keeps an option exactly if it points into no firmware volume, or to a file that is
    there. -/
theorem isStaleFvFileOption_eq_false_iff (option : LoadOption) :
    isStaleFvFileOption services option = false ↔
      ¬ StartsWithFvFile option.filePath ∨ FileFound services option.filePath := by
  rw [startsWithFvFile_iff, isStaleFvFileOption]
  dsimp only
  by_cases hvolume : (option.filePath.getD 0 endNode).IsVolume
  · rw [if_neg (fun h => h.1 (hvolume.resolve_right h.2))]
    by_cases hfile : (option.filePath.getD 1 endNode).IsFvFile
    · rw [if_neg (not_or.mpr ⟨not_not_intro hfile.1, not_not_intro hfile.2⟩)]
      rw [or_iff_right (not_not_intro ⟨hvolume, hfile⟩), FileFound]
      cases services.locateDevicePath option.filePath with
      | error status => exact iff_of_false nofun nofun
      | ok fvHandle =>
          constructor
          · intro hread
            exact ⟨fvHandle, rfl, hread⟩
          · rintro ⟨fvHandle', hhandle, hread⟩
            rw [Except.ok.inj hhandle]
            exact hread
    · rw [if_pos (not_and_or.mp hfile)]
      exact iff_of_true rfl (.inl fun h => hfile h.2)
  · rw [if_pos (not_or.mp hvolume)]
    exact iff_of_true rfl (.inl fun h => hvolume h.1)

-- ============================================================================
-- One boot
-- ============================================================================

/-- `EfiBootManagerFindLoadOption` finds an equal option exactly if one is listed. -/
def BootServices.FindsEqual (services : BootServices) : Prop :=
  ∀ key bootOptions, services.findLoadOption key bootOptions = -1 ↔
    ∀ option ∈ bootOptions, option.same key = false

/-- The shell's option, before it has a number. -/
def shellOption (services : BootServices) : LoadOption :=
  fvBootOption services services.gUefiShellFileGuid shellDescription LOAD_OPTION_ACTIVE

/-- The shell's option or one that is equal to it. -/
def isShell (services : BootServices) (option : LoadOption) : Bool :=
  option.same (shellOption services)

def isKept (services : BootServices) (option : LoadOption) : Bool :=
  !(isStaleFvFileOption services option)

variable {bootOptions bootOptions' first final : List LoadOption} {number : UINTN}

theorem same_filePath {a b : LoadOption} (h : a.same b = true) : a.filePath = b.filePath :=
  (of_decide_eq_true h).2.2.1

theorem isShell_shellOption (number : UINTN) :
    isShell services { shellOption services with optionNumber := number } = true :=
  decide_eq_true ⟨rfl, rfl, rfl, rfl⟩

/-- Equal options are kept or deleted together. -/
theorem isKept_congr (a b : LoadOption) (ha : isShell services a = true)
    (hb : isShell services b = true) : isKept services a = isKept services b := by
  have hpath : a.filePath = b.filePath := (same_filePath ha).trans (same_filePath hb).symm
  rw [isKept, isKept, isStaleFvFileOption, isStaleFvFileOption, hpath]

/-- On options with distinct numbers the deletions are a filter. -/
theorem removeStaleFvFileOptions_eq
    (hdistinct : (bootOptions.map LoadOption.optionNumber).Nodup) :
    removeStaleFvFileOptions services bootOptions = bootOptions.filter (isKept services) :=
  KeyedList.sweep_self hdistinct

/-- The shell is not found exactly if no equal option is listed. -/
theorem findLoadOption_shell_iff (hfind : services.FindsEqual) (bootOptions : List LoadOption) :
    services.findLoadOption (shellOption services) bootOptions = -1 ↔
      bootOptions.any (isShell services) = false := by
  rw [hfind, List.any_eq_false]
  exact forall₂_congr fun option _ => Bool.eq_false_iff

/-- The registration adds the shell under a free number, unless an equal option is listed. -/
theorem platformRegisterFvBootOption_eq (hfind : services.FindsEqual)
    (hregister : platformRegisterFvBootOption services services.gUefiShellFileGuid
      shellDescription LOAD_OPTION_ACTIVE bootOptions number = some bootOptions') :
    bootOptions' = addMissing (isShell services) bootOptions
        { shellOption services with optionNumber := number } ∧
      ((bootOptions.map LoadOption.optionNumber).Nodup →
        (bootOptions'.map LoadOption.optionNumber).Nodup) := by
  rw [platformRegisterFvBootOption, ← shellOption] at hregister
  have hfound := findLoadOption_shell_iff hfind bootOptions
  by_cases hmissing : services.findLoadOption (shellOption services) bootOptions = -1
  · rw [if_pos hmissing, addLoadOptionVariable] at hregister
    split at hregister
    · cases hregister
    · rename_i hfree
      obtain rfl := Option.some.inj hregister
      rw [addMissing, hfound.mp hmissing]
      refine ⟨rfl, ?_⟩
      intro hdistinct
      rw [List.map_append]
      apply hdistinct.append (List.nodup_singleton _)
      exact List.disjoint_singleton.mpr hfree
  · rw [if_neg hmissing] at hregister
    obtain rfl := Option.some.inj hregister
    have hlisted : bootOptions.any (isShell services) = true :=
      Bool.not_eq_false _ ▸ mt hfound.mpr hmissing
    rw [addMissing, if_pos hlisted]
    exact ⟨rfl, id⟩

/-- One boot is one turn of the upkeep, with a shell under some number. -/
theorem maintainBootOptions_eq (hfind : services.FindsEqual)
    (hdistinct : (bootOptions.map LoadOption.optionNumber).Nodup)
    (hboot : maintainBootOptions services bootOptions number = some bootOptions') :
    bootOptions' = upkeep (isShell services) (isKept services) bootOptions
        { shellOption services with optionNumber := number } ∧
      (bootOptions'.map LoadOption.optionNumber).Nodup := by
  obtain ⟨registered, hregister, hremove⟩ := Option.bind_eq_some_iff.mp hboot
  obtain rfl := Option.some.inj hremove
  obtain ⟨heq, hkeeps⟩ := platformRegisterFvBootOption_eq hfind hregister
  rw [removeStaleFvFileOptions_eq (hkeeps hdistinct)]
  constructor
  · rw [heq]
    rfl
  · exact (List.filter_sublist.map LoadOption.optionNumber).nodup (hkeeps hdistinct)

/-- Any number of boots with unchanged firmware leaves a settled list as it is. -/
theorem run_maintainBootOptions_settled (hfind : services.FindsEqual) {numbers : List UINTN}
    (hdistinct : (first.map LoadOption.optionNumber).Nodup)
    (hsettled : Settled (isShell services) (isKept services) first)
    (hrun : run (maintainBootOptions services) first numbers = some final) : final = first := by
  apply Run.run_invariant (fun bootOptions => bootOptions = first) ?_ hrun rfl
  rintro _ number bootOptions' rfl hboot
  obtain ⟨heq, -⟩ := maintainBootOptions_eq hfind hdistinct hboot
  rw [heq]
  exact hsettled.upkeep_eq (isShell_shellOption number)

/-- One boot deletes the options whose file is gone and no other, keeps the order of the rest,
    and settles the list: later boots with the same firmware change nothing. -/
theorem maintainBootOptions_converges (hfind : services.FindsEqual)
    (hdistinct : (bootOptions.map LoadOption.optionNumber).Nodup)
    (hboot : maintainBootOptions services bootOptions number = some first) :
    (∀ option ∈ bootOptions, option ∈ first ↔
      ¬ StartsWithFvFile option.filePath ∨ FileFound services option.filePath) ∧
    bootOptions.filter (· ∈ first) <+: first ∧
    ∀ numbers final, run (maintainBootOptions services) first numbers = some final →
      final = first := by
  obtain ⟨heq, hnumbers⟩ := maintainBootOptions_eq hfind hdistinct hboot
  have hmem : ∀ option ∈ bootOptions, option ∈ first ↔ isKept services option = true := by
    intro option hoption
    rw [heq]
    exact KeyedList.mem_upkeep_iff hoption
  refine ⟨?_, ?_, ?_⟩
  · intro option hoption
    rw [hmem option hoption, ← isStaleFvFileOption_eq_false_iff, isKept, Bool.not_eq_true']
  · have hsame : bootOptions.filter (· ∈ first) = bootOptions.filter (isKept services) := by
      apply List.filter_congr
      intro option hoption
      rw [Bool.eq_iff_iff, decide_eq_true_eq]
      exact hmem option hoption
    rw [hsame, heq]
    exact KeyedList.filter_prefix_upkeep _ _
  · intro numbers final hrun
    apply run_maintainBootOptions_settled hfind hnumbers ?_ hrun
    rw [heq]
    exact KeyedList.settled_upkeep isKept_congr (isShell_shellOption number)

/-- The name of a file, for examples. -/
def sampleGuid (k : UINT8) : List UINT8 := List.replicate 16 k

/-- A firmware volume that holds the file 7 and no other. -/
def sampleServices : BootServices where
  loadedImagePath := [⟨MEDIA_DEVICE_PATH, MEDIA_PIWG_FW_VOL_DP, sampleGuid 1⟩]
  gUefiShellFileGuid := sampleGuid 7
  findLoadOption key bootOptions :=
    match bootOptions.findIdx? fun option => option.same key with
    | some index => index
    | none => -1
  locateDevicePath path :=
    if path.head? = some ⟨MEDIA_DEVICE_PATH, MEDIA_PIWG_FW_VOL_DP, sampleGuid 1⟩ then .ok 0x80
    else .error .notFound
  readFile _ fileName := if fileName = sampleGuid 7 then .success else .notFound

theorem sampleServices_findsEqual : sampleServices.FindsEqual := by
  intro key bootOptions
  have hnone := @List.findIdx?_eq_none_iff _ bootOptions fun option => option.same key
  rw [← hnone]
  show (match bootOptions.findIdx? fun option => option.same key with
    | some index => (index : Int)
    | none => -1) = -1 ↔ _
  cases bootOptions.findIdx? fun option => option.same key with
  | none => exact iff_of_true rfl rfl
  | some index =>
      have hindex : ¬ (index : Int) = -1 := by omega
      exact iff_of_false hindex nofun

/-- An option for a file that is not in the volume, and one for a disk. -/
def sampleBootOptions : List LoadOption :=
  [⟨0, LOAD_OPTION_ACTIVE, [0x41], [⟨MEDIA_DEVICE_PATH, MEDIA_PIWG_FW_VOL_DP, sampleGuid 1⟩,
      fvFileNode (sampleGuid 9)], []⟩,
    ⟨1, LOAD_OPTION_ACTIVE, [0x42], [⟨2, 1, [0]⟩, ⟨MEDIA_DEVICE_PATH, 1, [0]⟩], []⟩]

/-- The first option is deleted, and the shell is added as number 2. -/
theorem maintainBootOptions_converges_sample :
    ∃ first, maintainBootOptions sampleServices sampleBootOptions 2 = some first ∧
      first.map LoadOption.optionNumber = [1, 2] ∧
      (∀ option ∈ sampleBootOptions, option ∈ first ↔
        ¬ StartsWithFvFile option.filePath ∨ FileFound sampleServices option.filePath) ∧
      sampleBootOptions.filter (· ∈ first) <+: first ∧
      ∀ numbers final, run (maintainBootOptions sampleServices) first numbers = some final →
        final = first := by
  have hdistinct : (sampleBootOptions.map LoadOption.optionNumber).Nodup := by decide
  have hboot : maintainBootOptions sampleServices sampleBootOptions 2 = some _ := rfl
  refine ⟨_, hboot, rfl, ?_⟩
  exact maintainBootOptions_converges sampleServices_findsEqual hdistinct hboot

end UemuPkg
