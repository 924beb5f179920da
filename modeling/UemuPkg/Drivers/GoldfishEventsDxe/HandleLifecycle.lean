/-
  UemuPkg.Drivers.GoldfishEventsDxe.HandleLifecycle

  The lifecycle of notify handles.  Over any calls of `RegisterKeyNotify` and
  `UnregisterKeyNotify`, `NotifyList` is the list of handles that were issued and
  not unregistered since.
-/

import UemuPkg.Drivers.GoldfishEventsDxe.NotifyList
import UemuPkg.Generic.Lifetime
import UemuPkg.Generic.Run

namespace UemuPkg

open Run (run)
open Lifetime (live)

-- ============================================================================
-- The system
-- ============================================================================

/-- `NotifyList`, and what the calls so far have issued and dropped. -/
structure NotifyListState where
  notifyList : List NotifyEntry
  history : List (Lifetime.Event UINT64)

inductive NotifyListCall where
  | register (keyData : Option KeyDataBytes) (keyNotificationFunction : UINT64)
      (notifyHandle : Option UINT64) (newNotify : UINT64)
  | unregister (notificationHandle : UINT64)

/-- One call.  `AllocateZeroPool` returns NULL or an address of no live entry. -/
def NotifyListState.step (s : NotifyListState) : NotifyListCall → Option NotifyListState
  | .register keyData fn notifyHandle newNotify =>
    if newNotify = 0 ∨ newNotify ∉ s.notifyList.map NotifyEntry.handle then
      let result := registerKeyNotify s.notifyList keyData fn notifyHandle newNotify
      let issued :=
        match result.status, result.notifyHandle with
        | .success, some handle => [.issued handle]
        | _, _ => []
      some { notifyList := result.notifyList, history := s.history ++ issued }
    else
      none
  | .unregister handle =>
    let result := unregisterKeyNotify s.notifyList handle
    let dropped := if result.1 = .success then [.dropped handle] else []
    some { notifyList := result.2, history := s.history ++ dropped }

/-- After initialisation. -/
def NotifyListState.initial : NotifyListState := ⟨[], []⟩

-- ============================================================================
-- The invariant
-- ============================================================================

/-- The bytes and the function an entry was registered with. -/
def NotifyEntry.registration (entry : NotifyEntry) : KeyDataBytes × UINT64 :=
  (entry.keyData, entry.keyNotificationFn)

structure NotifyListState.WellFormed (s : NotifyListState) : Prop where
  /-- The entries are the handles in use, in the order of their first registration. -/
  handles : s.notifyList.map NotifyEntry.handle = live s.history
  /-- No registration is listed twice. -/
  registrations : (s.notifyList.map NotifyEntry.registration).Nodup
  nonnull : ∀ entry ∈ s.notifyList, entry.handle ≠ 0 ∧ entry.keyNotificationFn ≠ 0

theorem NotifyListState.WellFormed.nodup {s : NotifyListState} (h : s.WellFormed) :
    (s.notifyList.map NotifyEntry.handle).Nodup :=
  h.handles ▸ Lifetime.nodup_live s.history

theorem NotifyListState.WellFormed.initial : NotifyListState.initial.WellFormed where
  handles := rfl
  registrations := .nil
  nonnull := fun _ h => absurd h List.not_mem_nil

/-- A registration keeps the invariant. -/
theorem NotifyListState.WellFormed.register {s s' : NotifyListState} (h : s.WellFormed)
    {keyData : Option KeyDataBytes} {fn : UINT64} {notifyHandle : Option UINT64}
    {newNotify : UINT64}
    (hstep : s.step (.register keyData fn notifyHandle newNotify) = some s') : s'.WellFormed := by
  rw [NotifyListState.step] at hstep
  split at hstep
  · rename_i hfresh
    obtain rfl := Option.some.inj hstep
    rcases registerKeyNotify_cases s.notifyList keyData fn notifyHandle newNotify with
      ⟨status, hstatus, hresult⟩ | ⟨entry, hmem, -, -, hresult⟩ |
        ⟨data, -, hfn, -, hnew, hfind, hresult⟩
    · -- A failed call issues nothing.
      simp only [hresult]
      refine ⟨?_, h.registrations, h.nonnull⟩
      cases status <;> first | exact absurd rfl hstatus | simpa using h.handles
    · -- A duplicate gets the handle that is in use.
      simp only [hresult]
      refine ⟨?_, h.registrations, h.nonnull⟩
      have hlive : entry.handle ∈ live s.history :=
        h.handles ▸ List.mem_map_of_mem hmem
      dsimp only
      rw [Lifetime.live_concat_issued, if_pos hlive, h.handles]
    · -- A new entry goes to the end.
      simp only [hresult]
      have hunused : newNotify ∉ s.notifyList.map NotifyEntry.handle := hfresh.resolve_left hnew
      refine ⟨?_, ?_, ?_⟩
      · dsimp only
        rw [Lifetime.live_concat_issued, if_neg (h.handles ▸ hunused), List.map_append, h.handles]
        rfl
      · dsimp only
        rw [List.map_append, List.nodup_append]
        refine ⟨h.registrations, List.nodup_singleton _, ?_⟩
        rintro _ hold _ hsame rfl
        obtain ⟨entry, hmem, hentry⟩ := List.mem_map.mp hold
        rw [List.map_singleton, List.mem_singleton, NotifyEntry.registration] at hsame
        rw [NotifyEntry.registration, hsame] at hentry
        obtain ⟨hdata, hentryFn⟩ := Prod.mk.inj hentry
        exact findRegistered_eq_none_iff.mp hfind entry hmem hentryFn hdata
      · intro entry hmem
        rcases List.mem_append.mp hmem with hold | hnewEntry
        · exact h.nonnull entry hold
        · rw [List.mem_singleton.mp hnewEntry]
          exact ⟨hnew, hfn⟩
  · cases hstep

/-- So does taking an entry out. -/
theorem NotifyListState.WellFormed.unregister {s s' : NotifyListState} (h : s.WellFormed)
    {handle : UINT64} (hstep : s.step (.unregister handle) = some s') : s'.WellFormed := by
  obtain rfl := Option.some.inj hstep
  have hsublist := unregisterKeyNotify_sublist s.notifyList handle
  refine ⟨?_, h.registrations.sublist (hsublist.map _), fun e he => h.nonnull e (hsublist.mem he)⟩
  rcases unregisterKeyNotify_cases s.notifyList handle with
    ⟨-, hresult⟩ | ⟨before, entry, after, hsplit, rfl, hresult⟩
  · simpa [hresult] using h.handles
  · simp only [hresult, if_true]
    have hnodup := h.nodup
    rw [hsplit, List.map_append, List.map_cons, List.nodup_middle, List.nodup_cons,
      ← List.map_append] at hnodup
    rw [Lifetime.live_concat_dropped, ← h.handles, hsplit, List.map_append, List.map_append,
      List.map_cons, List.filter_append, List.filter_cons_of_neg (by simp), ← List.filter_append,
      ← List.map_append]
    symm
    rw [List.filter_eq_self]
    intro other hother
    simpa using ne_of_mem_of_not_mem hother hnodup.1

/-- Every call keeps the invariant. -/
theorem NotifyListState.WellFormed.step {s s' : NotifyListState} (h : s.WellFormed)
    {call : NotifyListCall} (hstep : s.step call = some s') : s'.WellFormed := by
  cases call with
  | register keyData fn notifyHandle newNotify => exact h.register hstep
  | unregister handle => exact h.unregister hstep

theorem NotifyListState.wellFormed_of_run {calls : List NotifyListCall} {s : NotifyListState}
    (hrun : run NotifyListState.step .initial calls = some s) : s.WellFormed :=
  Run.run_invariant NotifyListState.WellFormed (fun _ _ _ h hstep => h.step hstep) hrun .initial

-- ============================================================================
-- The lifecycle
-- ============================================================================

/-- Entries with the same bytes and function are the same entry. -/
theorem NotifyListState.WellFormed.eq_of_registration {s : NotifyListState} (h : s.WellFormed)
    {entry other : NotifyEntry} (hentry : entry ∈ s.notifyList) (hother : other ∈ s.notifyList)
    (hsame : entry.registration = other.registration) : entry = other :=
  List.inj_on_of_nodup_map h.registrations hentry hother hsame

/-- Registering again what is in the list returns the handle it has. -/
theorem NotifyListState.WellFormed.register_again {s : NotifyListState} (h : s.WellFormed)
    {entry : NotifyEntry} (hmem : entry ∈ s.notifyList) (old newNotify : UINT64) :
    registerKeyNotify s.notifyList (some entry.keyData) entry.keyNotificationFn (some old) newNotify
      = ⟨.success, s.notifyList, some entry.handle⟩ := by
  have hfn := (h.nonnull entry hmem).2
  simp only [registerKeyNotify, if_neg hfn]
  cases hfind : findRegistered s.notifyList entry.keyData entry.keyNotificationFn with
  | none => exact absurd rfl (findRegistered_eq_none_iff.mp hfind entry hmem rfl)
  | some found =>
      obtain ⟨hfound, hfoundFn, hfoundData⟩ := findRegistered_eq_some hfind
      have hsame : found.registration = entry.registration := by
        rw [NotifyEntry.registration, hfoundFn, hfoundData]
        rfl
      rw [h.eq_of_registration hfound hmem hsame]

theorem NotifyListState.WellFormed.unregister_iff {s : NotifyListState} (h : s.WellFormed)
    (handle : UINT64) :
    (unregisterKeyNotify s.notifyList handle).1 = .success ↔
      handle ∈ s.notifyList.map NotifyEntry.handle := by
  rcases unregisterKeyNotify_cases s.notifyList handle with
    ⟨hmissing, hresult⟩ | ⟨before, entry, after, hsplit, rfl, hresult⟩
  · rw [hresult]
    refine iff_of_false (fun h => nomatch h) ?_
    intro hmem
    rcases hmissing with rfl | hnot
    · obtain ⟨entry, hentry, hzero⟩ := List.mem_map.mp hmem
      exact (h.nonnull entry hentry).1 hzero
    · exact hnot hmem
  · rw [hresult]
    refine iff_of_true rfl (List.mem_map_of_mem ?_)
    rw [hsplit]
    exact List.mem_append_right before List.mem_cons_self

/-- The handles of `NotifyList`, over any calls: exactly those issued and not
    unregistered since, in the order of their first registration, each once.
    Registering what is listed returns its handle; unregistering succeeds for the
    listed handles and takes one entry out; a call that fails changes nothing. -/
theorem notifyList_lifecycle {calls : List NotifyListCall} {s : NotifyListState}
    (hrun : run NotifyListState.step .initial calls = some s) :
    s.notifyList.map NotifyEntry.handle = live s.history ∧
      (s.notifyList.map NotifyEntry.handle).Nodup ∧
      (∀ handle, handle ∈ s.notifyList.map NotifyEntry.handle ↔
        ∃ before since, s.history = before ++ .issued handle :: since ∧
          .dropped handle ∉ since) ∧
      (∀ entry ∈ s.notifyList, ∀ old newNotify,
        registerKeyNotify s.notifyList (some entry.keyData) entry.keyNotificationFn (some old)
            newNotify
          = ⟨.success, s.notifyList, some entry.handle⟩) ∧
      (∀ keyData fn notifyHandle newNotify,
        (registerKeyNotify s.notifyList keyData fn notifyHandle newNotify).status ≠ .success →
          (registerKeyNotify s.notifyList keyData fn notifyHandle newNotify).notifyList
              = s.notifyList ∧
            (registerKeyNotify s.notifyList keyData fn notifyHandle newNotify).notifyHandle
              = notifyHandle) ∧
      ∀ handle,
        ((unregisterKeyNotify s.notifyList handle).1 = .success ↔
          handle ∈ s.notifyList.map NotifyEntry.handle) ∧
        ((unregisterKeyNotify s.notifyList handle).1 = .success →
          ∃ before entry after, s.notifyList = before ++ entry :: after ∧
            entry.handle = handle ∧
            (unregisterKeyNotify s.notifyList handle).2 = before ++ after) ∧
        ((unregisterKeyNotify s.notifyList handle).1 ≠ .success →
          (unregisterKeyNotify s.notifyList handle).2 = s.notifyList) := by
  have hs := NotifyListState.wellFormed_of_run hrun
  refine ⟨hs.handles, hs.nodup, ?_, fun entry hmem => hs.register_again hmem, ?_, ?_⟩
  · intro handle
    rw [hs.handles]
    exact Lifetime.mem_live_iff
  · intro keyData fn notifyHandle newNotify hfails
    rcases registerKeyNotify_cases s.notifyList keyData fn notifyHandle newNotify with
      ⟨status, -, hresult⟩ | ⟨entry, -, -, -, hresult⟩ | ⟨data, -, -, -, -, -, hresult⟩
    · rw [hresult]
      exact ⟨rfl, rfl⟩
    · rw [hresult] at hfails
      exact absurd rfl hfails
    · rw [hresult] at hfails
      exact absurd rfl hfails
  · intro handle
    refine ⟨hs.unregister_iff handle, ?_, ?_⟩
    · intro hsuccess
      rcases unregisterKeyNotify_cases s.notifyList handle with
        ⟨-, hresult⟩ | ⟨before, entry, after, hsplit, hentry, hresult⟩
      · rw [hresult] at hsuccess
        cases hsuccess
      · exact ⟨before, entry, after, hsplit, hentry, by rw [hresult]⟩
    · intro hfails
      rcases unregisterKeyNotify_cases s.notifyList handle with
        ⟨-, hresult⟩ | ⟨before, entry, after, -, -, hresult⟩
      · rw [hresult]
      · rw [hresult] at hfails
        exact absurd rfl hfails

/-- The escape key without modifiers, with the given bytes behind the fields. -/
def escBytes (padding : UINT8) : KeyDataBytes :=
  ⟨#v[0x17, 0, 0, 0, 0, 0, 0, 0, 0, padding, padding, padding]⟩

/-- An address is issued, dropped, and issued again behind another. -/
theorem notifyList_lifecycle_reuse :
    ∃ s, run NotifyListState.step .initial
        [.register (some (escBytes 0)) 0x10 (some 0) 0x1000,
         .register (some (escBytes 0)) 0x20 (some 0) 0x2000,
         .unregister 0x1000,
         .register (some (escBytes 0)) 0x10 (some 0) 0x1000] = some s ∧
      s.notifyList.map NotifyEntry.handle = live s.history ∧
      live s.history = [0x2000, 0x1000] := by
  have hrun : run NotifyListState.step .initial
      [.register (some (escBytes 0)) 0x10 (some 0) 0x1000,
       .register (some (escBytes 0)) 0x20 (some 0) 0x2000,
       .unregister 0x1000,
       .register (some (escBytes 0)) 0x10 (some 0) 0x1000] = some _ := rfl
  exact ⟨_, hrun, (notifyList_lifecycle hrun).1, by decide⟩

end UemuPkg
