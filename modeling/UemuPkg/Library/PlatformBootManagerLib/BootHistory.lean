/-
  UemuPkg.Library.PlatformBootManagerLib.BootHistory

  The Boot options over the life of a machine.  The firmware may be another one at each
  boot, and the boot manager library enumerates its own options first.  What the user has
  entered survives all boots, no option is listed more and more often, and after each boot
  the list fits the firmware that booted.
-/

import UemuPkg.Library.PlatformBootManagerLib.BootOptions

namespace UemuPkg

open KeyedList (upkeep)
open Run (run)

/-- One boot: the enumeration of `EfiBootManagerRefreshAllBootOption`, the firmware, and
    the number that a new option gets. -/
structure Boot where
  refresh : List LoadOption → List LoadOption
  services : BootServices
  number : UINTN

/-- What a boot does to the Boot options. -/
def bootStep (bootOptions : List LoadOption) (boot : Boot) : Option (List LoadOption) :=
  maintainBootOptions boot.services (boot.refresh bootOptions) boot.number

variable {guid : List UINT8} {boot : Boot} {boots : List Boot}
  {bootOptions bootOptions' first final : List LoadOption}

/-- The library has marked the option as one of its own. -/
def LoadOption.isAutoCreated (guid : List UINT8) (option : LoadOption) : Bool :=
  option.optionalData = guid

instance (path : DevicePath) : Decidable (StartsWithFvFile path) :=
  have : Decidable ((path.getD 0 endNode).IsVolume ∧ (path.getD 1 endNode).IsFvFile) :=
    inferInstanceAs (Decidable (((_ ∧ _) ∨ (_ ∧ _)) ∧ (_ ∧ _)))
  decidable_of_iff _ (startsWithFvFile_iff path).symm

/-- The user's options: not marked by the library, and not into a firmware volume. -/
def LoadOption.isUser (guid : List UINT8) (option : LoadOption) : Bool :=
  !(option.isAutoCreated guid) && !decide (StartsWithFvFile option.filePath)

def DistinctNumbers (bootOptions : List LoadOption) : Prop :=
  (bootOptions.map LoadOption.optionNumber).Nodup

instance (bootOptions : List LoadOption) : Decidable (DistinctNumbers bootOptions) :=
  inferInstanceAs (Decidable (List.Nodup _))

/-- What the boots rest on: the enumeration gives each option a number of its own and
    touches only options that it has marked, the search finds equal options, and the boot
    manager itself was loaded from a firmware volume. -/
structure Boot.Regular (guid : List UINT8) (boot : Boot) : Prop where
  numbers : ∀ bootOptions, DistinctNumbers bootOptions → DistinctNumbers (boot.refresh bootOptions)
  unmarked : ∀ bootOptions,
    (boot.refresh bootOptions).filter (fun option => !(option.isAutoCreated guid))
      = bootOptions.filter fun option => !(option.isAutoCreated guid)
  finds : boot.services.FindsEqual
  volume : StartsWithFvFile (shellOption boot.services).filePath

/-- A filter that passes over what the library marks. -/
theorem Boot.Regular.filter_refresh (h : boot.Regular guid) {p : LoadOption → Bool}
    (hp : ∀ option, p option = true → option.isAutoCreated guid = false) :
    (boot.refresh bootOptions).filter p = bootOptions.filter p := by
  have hboth (l : List LoadOption) :
      l.filter p = (l.filter fun option => !(option.isAutoCreated guid)).filter p := by
    rw [List.filter_filter]
    apply List.filter_congr
    intro option _
    cases hoption : p option with
    | false => rfl
    | true => simp [hp option hoption]
  rw [hboth, h.unmarked, ← hboth]

/-- A user's option is never stale. -/
theorem isKept_of_isUser {option : LoadOption} (h : option.isUser guid = true)
    (services : BootServices) : isKept services option = true := by
  rw [LoadOption.isUser, Bool.and_eq_true, Bool.not_eq_true', Bool.not_eq_true',
    decide_eq_false_iff_not] at h
  rw [isKept, Bool.not_eq_true', isStaleFvFileOption_eq_false_iff]
  exact .inl h.2

theorem LoadOption.same_iff (a b : LoadOption) :
    a.same b = true ↔ a.attributes = b.attributes ∧ a.description = b.description ∧
      a.filePath = b.filePath ∧ a.optionalData = b.optionalData :=
  decide_eq_true_iff

/-- What one boot does. -/
structure Booted (guid : List UINT8) (services : BootServices)
    (bootOptions bootOptions' : List LoadOption) : Prop where
  numbers : DistinctNumbers bootOptions'
  user : bootOptions'.filter (LoadOption.isUser guid) = bootOptions.filter (LoadOption.isUser guid)
  count : ∀ key : LoadOption, key.optionalData ≠ guid →
    bootOptions'.countP (·.same key) ≤ max 1 (bootOptions.countP (·.same key))
  fits : ∀ option ∈ bootOptions',
    ¬ StartsWithFvFile option.filePath ∨ FileFound services option.filePath
  shell : FileFound services (shellOption services).filePath →
    ∃ option ∈ bootOptions', isShell services option = true

theorem bootStep_booted (h : boot.Regular guid) (hdistinct : DistinctNumbers bootOptions)
    (hstep : bootStep bootOptions boot = some bootOptions') :
    Booted guid boot.services bootOptions bootOptions' := by
  obtain ⟨heq, hnumbers⟩ := maintainBootOptions_eq h.finds (h.numbers _ hdistinct) hstep
  let shell : LoadOption := { shellOption boot.services with optionNumber := boot.number }
  have hshell : isShell boot.services shell = true := isShell_shellOption boot.number
  have hsettled := KeyedList.settled_upkeep (l := boot.refresh bootOptions) isKept_congr hshell
  refine ⟨hnumbers, ?_, ?_, ?_, ?_⟩
  · have huser : shell.isUser guid = false := by
      have hvolume : StartsWithFvFile shell.filePath := h.volume
      simp [LoadOption.isUser, hvolume]
    rw [heq]
    refine (KeyedList.filter_upkeep (LoadOption.isUser guid)
      (fun option hoption => isKept_of_isUser hoption _) huser).trans (h.filter_refresh ?_)
    intro option hoption
    rw [LoadOption.isUser, Bool.and_eq_true, Bool.not_eq_true'] at hoption
    exact hoption.1
  · intro key hkey
    have hcount : (boot.refresh bootOptions).countP (·.same key)
        = bootOptions.countP (·.same key) := by
      rw [List.countP_eq_length_filter, List.countP_eq_length_filter, h.filter_refresh]
      intro option hsame
      have hdata := ((LoadOption.same_iff option key).mp hsame).2.2.2
      exact decide_eq_false fun hmarked => hkey (hdata.symm.trans hmarked)
    rw [heq, ← hcount]
    apply KeyedList.countP_upkeep_le
    intro hx option hoption
    rw [LoadOption.same_iff] at hx hoption
    rw [isShell, LoadOption.same_iff]
    exact ⟨hoption.1.trans hx.1.symm, hoption.2.1.trans hx.2.1.symm,
      hoption.2.2.1.trans hx.2.2.1.symm, hoption.2.2.2.trans hx.2.2.2.symm⟩
  · intro option hoption
    have hkept := hsettled.1 option (heq ▸ hoption)
    rwa [isKept, Bool.not_eq_true', isStaleFvFileOption_eq_false_iff] at hkept
  · intro hfound
    have hkeep : isKept boot.services shell = true := by
      rw [isKept, Bool.not_eq_true', isStaleFvFileOption_eq_false_iff]
      exact .inr hfound
    rcases hsettled.2 with hany | hnone
    · rw [heq]
      exact List.any_eq_true.mp hany
    · rw [hnone shell hshell] at hkeep
      cases hkeep

/-- Any number of boots, of one firmware or of many.  The user's options are those of
    before, in their order; no option comes to be listed more than once, unless it was so
    already; the numbers stay distinct.  After the last boot every option into a firmware
    volume names a file that the firmware of this boot has, and its shell is listed if it
    has one. -/
theorem bootOptions_over_boots (hregular : ∀ boot ∈ boots, boot.Regular guid)
    (hdistinct : DistinctNumbers first) (hrun : run bootStep first boots = some final) :
    final.filter (LoadOption.isUser guid) = first.filter (LoadOption.isUser guid) ∧
    DistinctNumbers final ∧
    (∀ key : LoadOption, key.optionalData ≠ guid →
      final.countP (·.same key) ≤ max 1 (first.countP (·.same key))) ∧
    ∀ boot, boots.getLast? = some boot →
      (∀ option ∈ final,
        ¬ StartsWithFvFile option.filePath ∨ FileFound boot.services option.filePath) ∧
      (FileFound boot.services (shellOption boot.services).filePath →
        ∃ option ∈ final, isShell boot.services option = true) := by
  induction boots generalizing first with
  | nil =>
      obtain rfl := Option.some.inj hrun
      exact ⟨rfl, hdistinct, fun _ _ => Nat.le_max_right _ _, nofun⟩
  | cons boot boots ih =>
      obtain ⟨next, hstep, hrest⟩ := Run.run_cons hrun
      have hboot := bootStep_booted (hregular boot List.mem_cons_self) hdistinct hstep
      obtain ⟨huser, hnumbers, hcount, hlast⟩ := ih
        (fun later hmem => hregular later (List.mem_cons_of_mem _ hmem)) hboot.numbers hrest
      refine ⟨huser.trans hboot.user, hnumbers, ?_, ?_⟩
      · intro key hkey
        have hbefore := hboot.count key hkey
        have hafter := hcount key hkey
        omega
      · intro last hmem
        cases boots with
        | nil =>
            obtain rfl := Option.some.inj hmem
            obtain rfl := Option.some.inj hrest
            exact ⟨hboot.fits, hboot.shell⟩
        | cons later boots => exact hlast last (by rwa [List.getLast?_cons_cons] at hmem)

/-- The firmware after an update: the shell is in another volume. -/
def updatedServices : BootServices :=
  { sampleServices with
    loadedImagePath := [⟨MEDIA_DEVICE_PATH, MEDIA_PIWG_FW_VOL_DP, sampleGuid 2⟩]
    locateDevicePath := fun path =>
      if path.head? = some ⟨MEDIA_DEVICE_PATH, MEDIA_PIWG_FW_VOL_DP, sampleGuid 2⟩ then .ok 0x80
      else .error .notFound }

/-- The same user's disk before and after the update; the shell is now that of volume 2. -/
theorem bootOptions_over_boots_update :
    ∃ final, run bootStep sampleBootOptions [⟨id, sampleServices, 2⟩, ⟨id, updatedServices, 3⟩]
        = some final ∧
      final.filter (LoadOption.isUser (sampleGuid 5))
        = sampleBootOptions.filter (LoadOption.isUser (sampleGuid 5)) ∧
      final.map LoadOption.optionNumber = [1, 3] := by
  have hregular : ∀ boot ∈ [(⟨id, sampleServices, 2⟩ : Boot), ⟨id, updatedServices, 3⟩],
      boot.Regular (sampleGuid 5) := by
    intro boot hmem
    rcases List.mem_pair.mp hmem with rfl | rfl
    · exact ⟨fun _ h => h, fun _ => rfl, sampleServices_findsEqual, by decide⟩
    · exact ⟨fun _ h => h, fun _ => rfl, sampleServices_findsEqual, by decide⟩
  have hrun : run bootStep sampleBootOptions
      [⟨id, sampleServices, 2⟩, ⟨id, updatedServices, 3⟩] = some _ := rfl
  have hboots := bootOptions_over_boots hregular (by decide) hrun
  exact ⟨_, hrun, hboots.1, rfl⟩

end UemuPkg
