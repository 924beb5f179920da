/-
  UemuPkg.Drivers.GoldfishEventsDxe.DuplicateRegistration

  Duplicate registrations.  The search for a duplicate compares the padding of
  `EFI_KEY_DATA` too, so it misses a registration whose fields and function are
  listed already with other padding.  Nothing else makes a duplicate.
-/

import UemuPkg.Drivers.GoldfishEventsDxe.HandleLifecycle

namespace UemuPkg

open Run (run AllSteps Always)

/-- The fields and the function the dispatcher reads. -/
def NotifyEntry.fields (entry : NotifyEntry) : EfiKeyData × UINT64 :=
  (entry.keyData.keyData, entry.keyNotificationFn)

/-- The calls a dispatch of the key in the notify queue makes to a function registered
    for the given key data. -/
def callsToRegistration (dev : GoldfishEventsDev) (keyData : EfiKeyData) (fn : UINT64) : Nat :=
  (keyNotifyProcessHandler dev).2.countP fun call =>
    call.entry.keyData = keyData ∧ call.entry.keyNotificationFn = fn

/-- No two entries agree in function and fields, and so no dispatch calls a
    registration twice. -/
def NotifyListState.OneCallback (s : NotifyListState) : Prop :=
  (s.notifyList.map NotifyEntry.fields).Nodup ∧
    ∀ dev : GoldfishEventsDev, dev.notifyList = s.notifyList.map NotifyEntry.toNotify →
      ∀ keyData fn, callsToRegistration dev keyData fn ≤ 1

/-- A call that does not register listed fields and a listed function with other
    padding. -/
def PaddingAgrees (s : NotifyListState) : NotifyListCall → Prop
  | .register (some keyData) fn (some _) newNotify =>
    fn ≠ 0 → newNotify ≠ 0 → ∀ entry ∈ s.notifyList, entry.keyNotificationFn = fn →
      entry.keyData.keyData = keyData.keyData → entry.keyData.padding = keyData.padding
  | _ => True

/-- Entries that differ in fields or function give at most one call each. -/
theorem oneCallback_iff (s : NotifyListState) :
    s.OneCallback ↔ (s.notifyList.map NotifyEntry.fields).Nodup := by
  refine ⟨And.left, fun hnodup => ⟨hnodup, ?_⟩⟩
  intro dev hdev keyData fn
  have hcount : (s.notifyList.map NotifyEntry.toNotify).countP
        (fun entry => entry.keyData = keyData ∧ entry.keyNotificationFn = fn)
      = (s.notifyList.map NotifyEntry.fields).count (keyData, fn) := by
    rw [List.count, List.countP_map, List.countP_map]
    apply List.countP_congr
    intro entry _
    simp only [Function.comp, NotifyEntry.fields, NotifyEntry.toNotify, beq_iff_eq, Prod.mk.injEq]
    exact decide_eq_true_iff
  have hone := List.nodup_iff_count_le_one.mp hnodup (keyData, fn)
  rw [callsToRegistration, keyNotifyProcessHandler, hdev]
  split
  · rw [List.countP_map]
    have hmatching : ((s.notifyList.map NotifyEntry.toNotify).filter fun entry =>
          isKeyRegistered entry.keyData dev.notifyKeyData).countP
          (fun entry => entry.keyData = keyData ∧ entry.keyNotificationFn = fn)
        ≤ (s.notifyList.map NotifyEntry.toNotify).countP
          (fun entry => entry.keyData = keyData ∧ entry.keyNotificationFn = fn) :=
      List.filter_sublist.countP_le
    rw [hcount] at hmatching
    exact hmatching.trans hone
  · exact Nat.zero_le 1

/-- Without a duplicate before, a call that agrees with the padding makes none. -/
theorem PaddingAgrees.keeps {s s' : NotifyListState} (h : s.OneCallback) {call : NotifyListCall}
    (hagrees : PaddingAgrees s call) (hstep : s.step call = some s') : s'.OneCallback := by
  rw [oneCallback_iff] at h ⊢
  cases call with
  | unregister handle =>
      obtain rfl := Option.some.inj hstep
      exact h.sublist ((unregisterKeyNotify_sublist s.notifyList handle).map _)
  | register keyData fn notifyHandle newNotify =>
      rw [NotifyListState.step] at hstep
      split at hstep
      · obtain rfl := Option.some.inj hstep
        rcases registerKeyNotify_cases s.notifyList keyData fn notifyHandle newNotify with
          ⟨status, -, hresult⟩ | ⟨entry, -, -, -, hresult⟩ |
            ⟨data, rfl, hfn, hhandle, hnew, hfind, hresult⟩
        · simpa only [hresult] using h
        · simpa only [hresult] using h
        · obtain ⟨old, rfl⟩ := Option.isSome_iff_exists.mp hhandle
          simp only [hresult]
          rw [List.map_append, List.nodup_append]
          refine ⟨h, List.nodup_singleton _, ?_⟩
          rintro _ hlisted _ hsame rfl
          obtain ⟨entry, hmem, hentry⟩ := List.mem_map.mp hlisted
          rw [List.map_singleton, List.mem_singleton, NotifyEntry.fields] at hsame
          rw [NotifyEntry.fields, hsame] at hentry
          obtain ⟨hfields, hentryFn⟩ := Prod.mk.inj hentry
          have hpadding := hagrees hfn hnew entry hmem hentryFn hfields
          exact findRegistered_eq_none_iff.mp hfind entry hmem hentryFn
            ((KeyDataBytes.eq_iff _ _).mpr ⟨hfields, hpadding⟩)
      · cases hstep

/-- A call with other padding makes a duplicate. -/
theorem PaddingAgrees.breaks {s s' : NotifyListState} (h : s.OneCallback) {call : NotifyListCall}
    (hdiffers : ¬ PaddingAgrees s call) (hstep : s.step call = some s') : ¬ s'.OneCallback := by
  rw [oneCallback_iff] at h ⊢
  unfold PaddingAgrees at hdiffers
  split at hdiffers
  · rename_i data fn old newNotify
    simp only [Classical.not_forall] at hdiffers
    obtain ⟨hfn, hnew, entry, hmem, hentryFn, hfields, hpadding⟩ := hdiffers
    have hfind : findRegistered s.notifyList data fn = none := by
      rw [findRegistered_eq_none_iff]
      rintro other hother hotherFn rfl
      have hsame : entry.fields = other.fields := by
        rw [NotifyEntry.fields, hfields, hentryFn, ← hotherFn]
        rfl
      exact hpadding (List.inj_on_of_nodup_map h hmem hother hsame ▸ rfl)
    rw [NotifyListState.step] at hstep
    split at hstep
    · obtain rfl := Option.some.inj hstep
      simp only [registerKeyNotify, if_neg hfn, hfind, if_neg hnew]
      rw [List.map_append, List.nodup_append]
      rintro ⟨-, -, hdisjoint⟩
      refine hdisjoint entry.fields (List.mem_map_of_mem hmem) _ (List.mem_singleton.mpr rfl) ?_
      rw [NotifyEntry.fields, hfields, hentryFn]
      rfl
    · cases hstep
  · exact absurd trivial hdiffers

/-- `NotifyList` never holds two entries with one function and the same four fields,
    and a dispatched key never calls a registration twice, exactly if no call
    registers listed fields and a listed function with other padding. -/
theorem oneCallback_always_iff {calls : List NotifyListCall} {s : NotifyListState}
    (hrun : run NotifyListState.step .initial calls = some s) :
    Always NotifyListState.step NotifyListState.OneCallback .initial calls ↔
      AllSteps NotifyListState.step PaddingAgrees .initial calls := by
  apply Run.always_iff_allSteps NotifyListState.OneCallback ?_ ?_ hrun
  · exact (oneCallback_iff _).mpr .nil
  · exact fun _ _ _ h hagrees hstep => hagrees.keeps h hstep
  · exact fun _ _ _ h hdiffers hstep => PaddingAgrees.breaks h hdiffers hstep

/-- Two registrations of the same bytes share one entry. -/
theorem oneCallback_always_iff_same_padding :
    Always NotifyListState.step NotifyListState.OneCallback .initial
        [.register (some (escBytes 0)) 0x10 (some 0) 0x1000,
         .register (some (escBytes 0)) 0x10 (some 0) 0x2000] ↔
      AllSteps NotifyListState.step PaddingAgrees .initial
        [.register (some (escBytes 0)) 0x10 (some 0) 0x1000,
         .register (some (escBytes 0)) 0x10 (some 0) 0x2000] :=
  oneCallback_always_iff (s := ⟨[⟨0x1000, escBytes 0, 0x10⟩], [.issued 0x1000, .issued 0x1000]⟩) rfl

/-- The escape key registered twice for one function, with padding bytes 0 and 1:
    two entries, and one press of the key calls the function twice. -/
theorem escBytes_registered_twice :
    ∃ s, run NotifyListState.step .initial
        [.register (some (escBytes 0)) 0x10 (some 0) 0x1000,
         .register (some (escBytes 1)) 0x10 (some 0) 0x2000] = some s ∧
      (escBytes 0).keyData = (escBytes 1).keyData ∧
      ¬ (s.notifyList.map NotifyEntry.fields).Nodup ∧
      ∃ dev : GoldfishEventsDev, dev.notifyList = s.notifyList.map NotifyEntry.toNotify ∧
        callsToRegistration dev (escBytes 0).keyData 0x10 = 2 :=
  ⟨_, rfl, by decide, by decide,
    { keyShift := false, keyCtrl := false, keyAlt := false, key := .null, keyReady := false
      notifyKeyReady := true
      notifyKeyData := ⟨⟨SCAN_ESC, CHAR_NULL⟩, buildKeyState ⟨false, false, false⟩⟩
      notifyList := [⟨0x1000, (escBytes 0).keyData, 0x10⟩, ⟨0x2000, (escBytes 1).keyData, 0x10⟩] },
    rfl, by decide⟩

end UemuPkg
