/-
  UemuPkg.Drivers.GoldfishEventsDxe.DispatchWalk

  The walk of `KeyNotifyProcessHandler` with callbacks that register and unregister.
  The handler takes the forward link out of an entry after its callback has returned,
  so the walk is sound exactly if no callback unregisters the entry it was called for.
-/

import UemuPkg.Drivers.GoldfishEventsDxe.NotifyList
import UemuPkg.Generic.Run
import Mathlib.Data.List.Nodup

namespace UemuPkg

open Run (run AllSteps Always)

-- ============================================================================
-- The system
-- ============================================================================

/-- Where the handler is. -/
inductive WalkPc where
  /-- The loop test.  `Link` points to the entry at that address, or to the head of
      the list. -/
  | visit (link : Option UINT64)
  /-- The callback of the entry at `link` is running; `freed` tells whether that entry
      has been removed since. -/
  | callback (link : UINT64) (freed : Bool)
  | done
  /-- The handler has read an entry that is not there any more. -/
  | fault
  deriving DecidableEq

structure DispatchState where
  notifyList : List NotifyEntry
  pc : WalkPc
  /-- The entries whose function has been called. -/
  calls : List UINT64

inductive DispatchAction where
  /-- The handler goes on: from the loop test into a callback or to the next test, or
      from the end of a callback to the next test. -/
  | walk
  /-- The running callback calls `RegisterKeyNotify`. -/
  | register (keyData : Option KeyDataBytes) (keyNotificationFunction : UINT64)
      (notifyHandle : Option UINT64) (newNotify : UINT64)
  /-- The running callback calls `UnregisterKeyNotify`. -/
  | unregister (notificationHandle : UINT64)

/-- `GetNextNode`: the entry behind the one at `link`, if it is not the last. -/
def forwardLink (notifyList : List NotifyEntry) (link : UINT64) : Option UINT64 :=
  match notifyList.dropWhile fun entry => entry.handle ≠ link with
  | _ :: next :: _ => some next.handle
  | _ => none

/-- The dispatch of `keyData`.  A freed entry is not there, whatever has been
    allocated at its address since. -/
def DispatchState.step (keyData : EfiKeyData) (s : DispatchState) :
    DispatchAction → Option DispatchState
  | .walk =>
    match s.pc with
    | .visit none => some { s with pc := .done }
    | .visit (some link) =>
      match s.notifyList.find? fun entry => entry.handle = link with
      | none => some { s with pc := .fault }
      | some notifyEntry =>
        if isKeyRegistered notifyEntry.keyData.keyData keyData then
          some { s with pc := .callback link false, calls := s.calls ++ [link] }
        else
          some { s with pc := .visit (forwardLink s.notifyList link) }
    | .callback link freed =>
      if freed then
        some { s with pc := .fault }
      else
        some { s with pc := .visit (forwardLink s.notifyList link) }
    | .done => none
    | .fault => none
  | .register data fn notifyHandle newNotify =>
    match s.pc with
    | .callback _ _ =>
      if newNotify = 0 ∨ newNotify ∉ s.notifyList.map NotifyEntry.handle then
        some { s with
          notifyList := (registerKeyNotify s.notifyList data fn notifyHandle newNotify).notifyList }
      else
        none
    | _ => none
  | .unregister handle =>
    match s.pc with
    | .callback link freed =>
      let result := unregisterKeyNotify s.notifyList handle
      some { s with
        notifyList := result.2
        pc := .callback link (freed || (handle = link && result.1 = .success)) }
    | _ => none

/-- The start of the walk, at `GetFirstNode`. -/
def DispatchState.initial (entries : List NotifyEntry) : DispatchState where
  notifyList := entries
  pc := .visit (entries.head?.map NotifyEntry.handle)
  calls := []

-- ============================================================================
-- The position of the walk
-- ============================================================================

/-- The walk is between the entries `passed` and the entries `upcoming`; the entry
    whose callback is running is the last one passed. -/
def DispatchState.At (s : DispatchState) (passed upcoming : List NotifyEntry) : Prop :=
  s.notifyList = passed ++ upcoming ∧
    match s.pc with
    | .visit link => link = upcoming.head?.map NotifyEntry.handle
    | .callback link freed =>
      freed = false ∧ passed.getLast?.map NotifyEntry.handle = some link
    | .done => upcoming = []
    | .fault => False

/-- The addresses of the entries are addresses of distinct live allocations. -/
structure DispatchState.Allocated (s : DispatchState) : Prop where
  nodup : (s.notifyList.map NotifyEntry.handle).Nodup
  nonnull : 0 ∉ s.notifyList.map NotifyEntry.handle

/-- In a list of distinct addresses the entries before one have other addresses. -/
theorem handle_ne_of_mem_before {before after : List NotifyEntry} {entry : NotifyEntry}
    (hnodup : ((before ++ entry :: after).map NotifyEntry.handle).Nodup) :
    ∀ other ∈ before, other.handle ≠ entry.handle := by
  intro other hother
  rw [List.map_append, List.nodup_append] at hnodup
  exact hnodup.2.2 _ (List.mem_map_of_mem hother) _
    (List.mem_map_of_mem List.mem_cons_self)

theorem find_handle {before after : List NotifyEntry} {entry : NotifyEntry}
    (hnodup : ((before ++ entry :: after).map NotifyEntry.handle).Nodup) :
    (before ++ entry :: after).find? (fun other => other.handle = entry.handle) = some entry := by
  rw [List.find?_append, List.find?_eq_none.mpr, Option.none_or, List.find?_cons_of_pos]
  · exact decide_eq_true rfl
  · intro other hother
    simpa using handle_ne_of_mem_before hnodup other hother

theorem forwardLink_eq {before after : List NotifyEntry} {entry : NotifyEntry}
    (hnodup : ((before ++ entry :: after).map NotifyEntry.handle).Nodup) :
    forwardLink (before ++ entry :: after) entry.handle
      = after.head?.map NotifyEntry.handle := by
  have hdrop : (before ++ entry :: after).dropWhile (fun other => other.handle ≠ entry.handle)
      = entry :: after := by
    rw [List.dropWhile_append_of_pos, List.dropWhile_cons_of_neg]
    · simp
    · intro other hother
      simpa using handle_ne_of_mem_before hnodup other hother
  rw [forwardLink, hdrop]
  cases after <;> rfl

variable {keyData : EfiKeyData} {s s' : DispatchState} {passed upcoming : List NotifyEntry}

/-- A registration comes from a running callback, and adds at most one entry, at an
    address of its own. -/
theorem DispatchState.step_register {data : Option KeyDataBytes} {fn : UINT64}
    {notifyHandle : Option UINT64} {newNotify : UINT64}
    (hstep : s.step keyData (.register data fn notifyHandle newNotify) = some s') :
    (∃ link freed, s.pc = .callback link freed) ∧
      ∃ added, s' = { s with notifyList := s.notifyList ++ added } ∧
        ∀ entry ∈ added, added = [entry] ∧ entry.handle ≠ 0 ∧
          entry.handle ∉ s.notifyList.map NotifyEntry.handle := by
  obtain ⟨added, hadded, hentry⟩ :=
    registerKeyNotify_notifyList s.notifyList data fn notifyHandle newNotify
  rw [DispatchState.step] at hstep
  split at hstep
  · rename_i link freed hcallback
    split at hstep
    · rename_i hfresh
      obtain rfl := Option.some.inj hstep
      refine ⟨⟨link, freed, hcallback⟩, added, ?_, ?_⟩
      · rw [hadded]
      · intro entry hmem
        obtain ⟨rfl, hnew, hone⟩ := hentry entry hmem
        exact ⟨hone, hnew, hfresh.resolve_left hnew⟩
    · cases hstep
  · cases hstep

/-- Walking leaves the list as it is. -/
theorem DispatchState.step_walk_notifyList (hstep : s.step keyData .walk = some s') :
    s'.notifyList = s.notifyList := by
  rw [DispatchState.step] at hstep
  split at hstep
  · exact Option.some.inj hstep ▸ rfl
  · split at hstep
    · exact Option.some.inj hstep ▸ rfl
    · split at hstep
      · exact Option.some.inj hstep ▸ rfl
      · exact Option.some.inj hstep ▸ rfl
  · split at hstep
    · exact Option.some.inj hstep ▸ rfl
    · exact Option.some.inj hstep ▸ rfl
  · cases hstep
  · cases hstep

/-- The handler's own steps: it visits the next entry and calls its function if it
    matches, or it moves no further. -/
theorem DispatchState.At.walk (h : s.At passed upcoming) (hs : s.Allocated)
    (hstep : s.step keyData .walk = some s') :
    (s'.At passed upcoming ∧ s'.calls = s.calls) ∨
      ∃ entry rest, upcoming = entry :: rest ∧ s'.At (passed ++ [entry]) rest ∧
        s'.calls = s.calls ++
          if isKeyRegistered entry.keyData.keyData keyData then [entry.handle] else [] := by
  obtain ⟨hlist, hpc⟩ := h
  have hnodup := hs.nodup
  rw [hlist] at hnodup
  rw [DispatchState.step] at hstep
  split at hstep
  · -- The end of the list.
    rename_i hvisit
    rw [hvisit] at hpc
    obtain rfl := Option.some.inj hstep
    have hend : upcoming = [] := by
      rw [← List.head?_eq_none_iff, ← Option.map_eq_none_iff]
      exact hpc.symm
    exact .inl ⟨⟨hlist, hend⟩, rfl⟩
  · -- An entry.
    rename_i link hvisit
    rw [hvisit] at hpc
    obtain ⟨entry, hhead, rfl⟩ := Option.map_eq_some_iff.mp hpc.symm
    obtain ⟨rest, rfl⟩ := List.head?_eq_some_iff.mp hhead
    rw [hlist, find_handle hnodup] at hstep
    have hpassed : passed ++ entry :: rest = passed ++ [entry] ++ rest := by simp
    dsimp only at hstep
    split at hstep
    · rename_i hmatch
      obtain rfl := Option.some.inj hstep
      refine .inr ⟨entry, rest, rfl, ⟨hpassed, rfl, ?_⟩, ?_⟩
      · simp
      · rw [if_pos hmatch]
    · rename_i hmatch
      obtain rfl := Option.some.inj hstep
      refine .inr ⟨entry, rest, rfl, ⟨hpassed, ?_⟩, ?_⟩
      · exact forwardLink_eq hnodup
      · rw [if_neg hmatch, List.append_nil]
  · -- The callback returns.
    rename_i link freed hcallback
    rw [hcallback] at hpc
    obtain ⟨rfl, hlast⟩ := hpc
    obtain ⟨entry, hentry, rfl⟩ := Option.map_eq_some_iff.mp hlast
    obtain ⟨init, rfl⟩ := List.getLast?_eq_some_iff.mp hentry
    rw [List.append_assoc, List.singleton_append] at hnodup
    obtain rfl := Option.some.inj hstep
    refine .inl ⟨⟨hlist, ?_⟩, rfl⟩
    dsimp only
    rw [hlist, List.append_assoc, List.singleton_append]
    exact forwardLink_eq hnodup
  · cases hstep
  · cases hstep

/-- A registration adds at most an entry at the end, at an address of its own. -/
theorem DispatchState.At.register (h : s.At passed upcoming) {data : Option KeyDataBytes}
    {fn : UINT64} {notifyHandle : Option UINT64} {newNotify : UINT64}
    (hstep : s.step keyData (.register data fn notifyHandle newNotify) = some s') :
    s'.calls = s.calls ∧ ∃ added, s'.At passed (upcoming ++ added) ∧
      ∀ entry ∈ added, added = [entry] ∧ entry.handle ≠ 0 ∧
        entry.handle ∉ s.notifyList.map NotifyEntry.handle := by
  obtain ⟨hlist, hpc⟩ := h
  obtain ⟨⟨link, freed, hcallback⟩, added, rfl, hentry⟩ := DispatchState.step_register hstep
  rw [hcallback] at hpc
  refine ⟨rfl, added, ⟨?_, ?_⟩, hentry⟩
  · dsimp only
    rw [hlist, List.append_assoc]
  · dsimp only
    rw [hcallback]
    exact hpc

/-- Taking out an entry other than the last one passed leaves the last one passed where
    it is. -/
theorem split_remove {passed upcoming before after : List NotifyEntry} {entry : NotifyEntry}
    {link : UINT64} (hsplit : passed ++ upcoming = before ++ entry :: after)
    (hlast : passed.getLast?.map NotifyEntry.handle = some link) (hother : entry.handle ≠ link) :
    ∃ passed' upcoming', before ++ after = passed' ++ upcoming' ∧
      passed'.getLast?.map NotifyEntry.handle = some link ∧
      passed'.Sublist passed ∧ upcoming'.Sublist upcoming := by
  rcases List.append_eq_append_iff.mp hsplit with ⟨mid, rfl, rfl⟩ | ⟨mid, rfl, htail⟩
  · -- The entry is still to come.
    refine ⟨passed, mid ++ after, List.append_assoc _ _ _, hlast, List.Sublist.refl _, ?_⟩
    exact List.Sublist.append_left (List.sublist_cons_self entry after) mid
  · -- The entry has been passed, and is not the last one passed.
    cases mid with
    | nil =>
        rw [List.nil_append] at htail
        rw [List.append_nil] at hlast ⊢
        refine ⟨before, after, rfl, hlast, List.Sublist.refl _, ?_⟩
        exact htail ▸ List.sublist_cons_self entry after
    | cons first mid =>
        rw [List.cons_append] at htail
        obtain ⟨rfl, rfl⟩ := List.cons.inj htail
        refine ⟨before ++ mid, upcoming, (List.append_assoc _ _ _).symm, ?_,
          List.Sublist.append_left (List.sublist_cons_self entry mid) before,
          List.Sublist.refl _⟩
        rw [List.getLast?_append] at hlast ⊢
        cases mid with
        | nil =>
            rw [List.getLast?_singleton] at hlast
            exact absurd (Option.some.inj hlast) hother
        | cons second mid => simpa [List.getLast?_cons] using hlast

/-- Removing an entry other than that of the running callback keeps the position. -/
theorem DispatchState.At.unregister (h : s.At passed upcoming) {handle : UINT64}
    (hother : ∀ freed, s.pc ≠ .callback handle freed)
    (hstep : s.step keyData (.unregister handle) = some s') :
    s'.calls = s.calls ∧ ∃ passed' upcoming', s'.At passed' upcoming' ∧
      passed'.Sublist passed ∧ upcoming'.Sublist upcoming := by
  obtain ⟨hlist, hpc⟩ := h
  rw [DispatchState.step] at hstep
  split at hstep
  · rename_i link freed hcallback
    rw [hcallback] at hpc hother
    obtain ⟨rfl, hlast⟩ := hpc
    have hlink : handle ≠ link := fun heq => hother false (heq ▸ rfl)
    obtain rfl := Option.some.inj hstep
    rcases unregisterKeyNotify_cases s.notifyList handle with
      ⟨-, hresult⟩ | ⟨before, entry, after, hsplit, rfl, hresult⟩
    · refine ⟨rfl, passed, upcoming, ⟨?_, ?_, hlast⟩, List.Sublist.refl _, List.Sublist.refl _⟩
      · dsimp only
        rw [hresult, hlist]
      · simp [hlink]
    · rw [hlist] at hsplit
      obtain ⟨passed', upcoming', hrest, hlast', hsubPassed, hsubUpcoming⟩ :=
        split_remove hsplit hlast hlink
      refine ⟨rfl, passed', upcoming', ⟨?_, ?_, hlast'⟩, hsubPassed, hsubUpcoming⟩
      · dsimp only
        rw [hresult, hrest]
      · simp [hlink]
  · cases hstep

-- ============================================================================
-- Runs
-- ============================================================================

/-- No callback unregisters the entry it was called for. -/
def KeepsCurrent (s : DispatchState) : DispatchAction → Prop
  | .unregister handle => ∀ freed, s.pc ≠ .callback handle freed
  | _ => True

/-- The handler has a position in the list. -/
def DispatchState.Sound (s : DispatchState) : Prop :=
  s.Allocated ∧ ∃ passed upcoming, s.At passed upcoming

/-- The handler has read a freed entry, or is about to. -/
def DispatchState.Dangling (s : DispatchState) : Prop :=
  s.pc = .fault ∨ ∃ link, s.pc = .callback link true

theorem DispatchState.Sound.not_dangling (h : s.Sound) : ¬ s.Dangling := by
  obtain ⟨-, passed, upcoming, -, hpc⟩ := h
  rintro (hfault | ⟨link, hcallback⟩)
  · rw [hfault] at hpc
    exact hpc
  · rw [hcallback] at hpc
    exact Bool.noConfusion hpc.1

/-- `entry` is registered, and has been called once if the walk has passed it and not at
    all if it is still to come. -/
def DispatchState.Tracks (entry : NotifyEntry) (s : DispatchState) : Prop :=
  s.Allocated ∧ entry ∈ s.notifyList ∧ ∃ passed upcoming, s.At passed upcoming ∧
    (entry ∈ passed → s.calls.count entry.handle = 1) ∧
    (entry ∈ upcoming → s.calls.count entry.handle = 0)

/-- What a step does to the list: it may take entries out, and put one at the end. -/
theorem DispatchState.step_notifyList {action : DispatchAction}
    (hstep : s.step keyData action = some s') :
    ∃ kept added, s'.notifyList = kept ++ added ∧ kept.Sublist s.notifyList ∧
      ∀ entry ∈ added, added = [entry] ∧ entry.handle ≠ 0 ∧
        entry.handle ∉ s.notifyList.map NotifyEntry.handle := by
  cases action with
  | walk =>
      refine ⟨s'.notifyList, [], (List.append_nil _).symm, ?_, fun _ h => absurd h List.not_mem_nil⟩
      rw [DispatchState.step_walk_notifyList hstep]
  | register data fn notifyHandle newNotify =>
      obtain ⟨-, added, rfl, hentry⟩ := DispatchState.step_register hstep
      exact ⟨s.notifyList, added, rfl, List.Sublist.refl _, hentry⟩
  | unregister handle =>
      refine ⟨s'.notifyList, [], (List.append_nil _).symm, ?_, fun _ h => absurd h List.not_mem_nil⟩
      rw [DispatchState.step] at hstep
      split at hstep
      · obtain rfl := Option.some.inj hstep
        exact unregisterKeyNotify_sublist s.notifyList handle
      · cases hstep

theorem DispatchState.Allocated.step (h : s.Allocated) {action : DispatchAction}
    (hstep : s.step keyData action = some s') : s'.Allocated := by
  obtain ⟨kept, added, hlist, hkept, hadded⟩ := DispatchState.step_notifyList hstep
  have hsub := hkept.map NotifyEntry.handle
  refine ⟨?_, ?_⟩
  · rw [hlist, List.map_append, List.nodup_append]
    refine ⟨h.nodup.sublist hsub, ?_, ?_⟩
    · cases added with
      | nil => exact .nil
      | cons entry rest =>
          rw [(hadded entry List.mem_cons_self).1]
          exact List.nodup_singleton _
    · rintro handle hold _ hnew rfl
      obtain ⟨entry, hmem, rfl⟩ := List.mem_map.mp hnew
      exact (hadded entry hmem).2.2 (hsub.mem hold)
  · rw [hlist, List.map_append, List.mem_append, not_or]
    refine ⟨fun hzero => h.nonnull (hsub.mem hzero), ?_⟩
    intro hzero
    obtain ⟨entry, hmem, hentry⟩ := List.mem_map.mp hzero
    exact (hadded entry hmem).2.1 hentry

theorem DispatchState.Sound.step (h : s.Sound) {action : DispatchAction}
    (hkeeps : KeepsCurrent s action) (hstep : s.step keyData action = some s') : s'.Sound := by
  obtain ⟨hallocated, passed, upcoming, hat⟩ := h
  refine ⟨hallocated.step hstep, ?_⟩
  cases action with
  | walk =>
      obtain ⟨hat', -⟩ | ⟨entry, rest, -, hat', -⟩ := hat.walk hallocated hstep
      · exact ⟨passed, upcoming, hat'⟩
      · exact ⟨passed ++ [entry], rest, hat'⟩
  | register data fn notifyHandle newNotify =>
      obtain ⟨-, added, hat', -⟩ := hat.register hstep
      exact ⟨passed, upcoming ++ added, hat'⟩
  | unregister handle =>
      obtain ⟨-, passed', upcoming', hat', -⟩ := hat.unregister hkeeps hstep
      exact ⟨passed', upcoming', hat'⟩

/-- A callback that unregisters its own entry leaves the handler at a freed entry. -/
theorem DispatchState.Sound.dangling (h : s.Sound) {action : DispatchAction}
    (hfrees : ¬ KeepsCurrent s action) (hstep : s.step keyData action = some s') :
    s'.Dangling := by
  obtain ⟨hallocated, passed, upcoming, hlist, hpc⟩ := h
  cases action with
  | walk => exact absurd trivial hfrees
  | register data fn notifyHandle newNotify => exact absurd trivial hfrees
  | unregister handle =>
      obtain ⟨freed, hfreed⟩ := Classical.not_forall.mp hfrees
      have hcallback : s.pc = .callback handle freed := Classical.not_not.mp hfreed
      rw [hcallback] at hpc
      obtain ⟨entry, hentry, rfl⟩ := Option.map_eq_some_iff.mp hpc.2
      have hmem : entry.handle ∈ s.notifyList.map NotifyEntry.handle := by
        rw [hlist]
        exact List.mem_map_of_mem (List.mem_append_left upcoming (List.mem_of_getLast? hentry))
      simp only [DispatchState.step, hcallback] at hstep
      obtain rfl := Option.some.inj hstep
      rcases unregisterKeyNotify_cases s.notifyList entry.handle with
        ⟨hnull | hmissing, -⟩ | ⟨before, found, after, -, -, hresult⟩
      · exact absurd (hnull ▸ hmem) hallocated.nonnull
      · exact absurd hmem hmissing
      · refine .inr ⟨entry.handle, ?_⟩
        simp [hresult]

theorem DispatchState.Dangling.step (h : s.Dangling) {action : DispatchAction}
    (hstep : s.step keyData action = some s') : s'.Dangling := by
  rcases h with hfault | ⟨link, hcallback⟩
  · cases action <;> simp [DispatchState.step, hfault] at hstep
  · cases action with
    | walk =>
        simp only [DispatchState.step, hcallback, if_true] at hstep
        exact .inl (Option.some.inj hstep ▸ rfl)
    | register data fn notifyHandle newNotify =>
        simp only [DispatchState.step, hcallback] at hstep
        split at hstep
        · exact .inr ⟨link, Option.some.inj hstep ▸ rfl⟩
        · cases hstep
    | unregister handle =>
        simp only [DispatchState.step, hcallback, Bool.true_or] at hstep
        exact .inr ⟨link, Option.some.inj hstep ▸ rfl⟩

/-- An entry that stays registered keeps its account. -/
theorem DispatchState.Tracks.step {entry : NotifyEntry}
    (hmatch : isKeyRegistered entry.keyData.keyData keyData = true) (h : s.Tracks entry)
    {action : DispatchAction} (hkeeps : KeepsCurrent s action) (hstays : entry ∈ s'.notifyList)
    (hstep : s.step keyData action = some s') : s'.Tracks entry := by
  obtain ⟨hallocated, hregistered, passed, upcoming, hat, hpassed, hupcoming⟩ := h
  refine ⟨hallocated.step hstep, hstays, ?_⟩
  cases action with
  | walk =>
      obtain ⟨hat', hcalls⟩ | ⟨visited, rest, rfl, hat', hcalls⟩ := hat.walk hallocated hstep
      · exact ⟨passed, upcoming, hat', hcalls ▸ hpassed, hcalls ▸ hupcoming⟩
      · have hnodup := hallocated.nodup
        rw [hat.1] at hnodup
        have hcount : entry.handle ≠ visited.handle →
            s'.calls.count entry.handle = s.calls.count entry.handle := by
          intro hne
          rw [hcalls, List.count_append]
          split
          · rw [List.count_singleton, if_neg (by simpa using hne.symm), Nat.add_zero]
          · rfl
        refine ⟨passed ++ [visited], rest, hat', ?_, ?_⟩
        · intro hmem
          rcases List.mem_append.mp hmem with hold | hvisited
          · rw [hcount (handle_ne_of_mem_before hnodup entry hold)]
            exact hpassed hold
          · obtain rfl := List.mem_singleton.mp hvisited
            rw [hcalls, if_pos hmatch, List.count_append, hupcoming List.mem_cons_self]
            simp
        · intro hmem
          have hne : entry.handle ≠ visited.handle := by
            rw [List.map_append, List.map_cons, List.nodup_middle, List.nodup_cons] at hnodup
            exact ne_of_mem_of_not_mem
              (List.mem_append_right _ (List.mem_map_of_mem hmem)) hnodup.1
          rw [hcount hne]
          exact hupcoming (List.mem_cons_of_mem _ hmem)
  | register data fn notifyHandle newNotify =>
      obtain ⟨hcalls, added, hat', hadded⟩ := hat.register hstep
      refine ⟨passed, upcoming ++ added, hat', hcalls ▸ hpassed, ?_⟩
      intro hmem
      rcases List.mem_append.mp hmem with hold | hnew
      · exact hcalls ▸ hupcoming hold
      · exact absurd (List.mem_map_of_mem hregistered) (hadded entry hnew).2.2
  | unregister handle =>
      obtain ⟨hcalls, passed', upcoming', hat', hsubPassed, hsubUpcoming⟩ :=
        hat.unregister hkeeps hstep
      refine ⟨passed', upcoming', hat', ?_, ?_⟩
      · exact fun hmem => hcalls ▸ hpassed (hsubPassed.mem hmem)
      · exact fun hmem => hcalls ▸ hupcoming (hsubUpcoming.mem hmem)

/-- With callbacks that leave the list as it is, the walk reaches the end and makes the
    calls of `keyNotifyProcessHandler`. -/
theorem DispatchState.walk_upcoming (keyData : EfiKeyData) (passed : List NotifyEntry)
    {upcoming : List NotifyEntry} (calls : List UINT64)
    (hnodup : ((passed ++ upcoming).map NotifyEntry.handle).Nodup) :
    ∃ n, run (DispatchState.step keyData)
        ⟨passed ++ upcoming, .visit (upcoming.head?.map NotifyEntry.handle), calls⟩
        (List.replicate n .walk)
      = some ⟨passed ++ upcoming, .done, calls ++ (upcoming.filter fun entry =>
          isKeyRegistered entry.keyData.keyData keyData).map NotifyEntry.handle⟩ := by
  induction upcoming generalizing passed calls with
  | nil => exact ⟨1, by simp [DispatchState.step]⟩
  | cons entry rest ih =>
      have hsplit : passed ++ entry :: rest = passed ++ [entry] ++ rest := by simp
      by_cases hmatch : isKeyRegistered entry.keyData.keyData keyData = true
      · obtain ⟨n, hn⟩ := ih (passed ++ [entry]) (calls ++ [entry.handle]) (hsplit ▸ hnodup)
        refine ⟨n + 2, ?_⟩
        rw [← hsplit] at hn
        rw [List.filter_cons_of_pos (by exact hmatch), List.map_cons]
        simp only [List.replicate_succ, run, DispatchState.step, List.head?_cons, Option.map_some,
          find_handle hnodup, hmatch, if_true, Option.bind_some, Bool.false_eq_true, if_false,
          forwardLink_eq hnodup, hn, List.append_assoc, List.singleton_append]
      · obtain ⟨n, hn⟩ := ih (passed ++ [entry]) calls (hsplit ▸ hnodup)
        refine ⟨n + 1, ?_⟩
        rw [← hsplit] at hn
        rw [List.filter_cons_of_neg (by exact hmatch)]
        simp only [List.replicate_succ, run, DispatchState.step, List.head?_cons, Option.map_some,
          find_handle hnodup, if_neg hmatch, Option.bind_some, forwardLink_eq hnodup, hn]

/-- `keyNotifyProcessHandler` is the walk whose callbacks do nothing to the list. -/
theorem keyNotifyProcessHandler_eq_walk (dev : GoldfishEventsDev) (entries : List NotifyEntry)
    (hready : dev.notifyKeyReady = true) (hlist : dev.notifyList = entries.map NotifyEntry.toNotify)
    (hnodup : (entries.map NotifyEntry.handle).Nodup) :
    ∃ n, run (DispatchState.step dev.notifyKeyData) (.initial entries) (List.replicate n .walk)
      = some ⟨entries, .done,
          (keyNotifyProcessHandler dev).2.map fun call => call.entry.handle⟩ := by
  obtain ⟨n, hn⟩ := DispatchState.walk_upcoming dev.notifyKeyData [] [] hnodup
  refine ⟨n, hn.trans ?_⟩
  rw [keyNotifyProcessHandler, if_pos hready, hlist]
  dsimp only
  rw [List.filter_map, List.map_map, List.map_map]
  rfl

theorem DispatchState.At.initial (entries : List NotifyEntry) :
    (DispatchState.initial entries).At [] entries := ⟨rfl, rfl⟩

variable {entries : List NotifyEntry} {actions : List DispatchAction}

/-- The entries a dispatch has to call, and how often it has called them. -/
def CallsOnce (keyData : EfiKeyData) (entries : List NotifyEntry) (actions : List DispatchAction)
    (s : DispatchState) : Prop :=
  ∀ entry ∈ entries, isKeyRegistered entry.keyData.keyData keyData = true →
    Always (DispatchState.step keyData) (fun t => entry ∈ t.notifyList) (.initial entries) actions →
      s.calls.count entry.handle ≤ 1 ∧ (s.pc = .done → s.calls.count entry.handle = 1)

/-- While no callback unregisters its own entry, an entry that stays registered is
    called once when the walk passes it. -/
theorem callsOnce_of_keepsCurrent (hallocated : (DispatchState.initial entries).Allocated)
    (hrun : run (DispatchState.step keyData) (.initial entries) actions = some s)
    (hall : AllSteps (DispatchState.step keyData) KeepsCurrent (.initial entries) actions) :
    CallsOnce keyData entries actions s := by
  intro entry hmem hmatch halways
  have hstart : (DispatchState.initial entries).Tracks entry :=
    ⟨hallocated, hmem, [], entries, .initial entries, fun h => absurd h List.not_mem_nil,
      fun _ => rfl⟩
  obtain ⟨-, hregistered, passed, upcoming, ⟨hlist, hpc⟩, hpassed, hupcoming⟩ :=
    Run.run_invariant_of (DispatchState.Tracks entry)
      (fun _ _ _ h hkeeps hstays hstep => h.step hmatch hkeeps hstays hstep)
      hrun hall halways hstart
  rw [hlist] at hregistered
  refine ⟨?_, ?_⟩
  · rcases List.mem_append.mp hregistered with hold | hnew
    · exact (hpassed hold).le
    · rw [hupcoming hnew]
      exact Nat.zero_le 1
  · intro hdone
    rw [hdone] at hpc
    rw [hpc, List.append_nil] at hregistered
    exact hpassed hregistered

/-- No freed entry is read exactly if no callback unregisters its own entry; before
    the end of the walk this is so unless the handler is about to. -/
theorem not_dangling_iff (hallocated : (DispatchState.initial entries).Allocated)
    (hrun : run (DispatchState.step keyData) (.initial entries) actions = some s) :
    ¬ s.Dangling ↔
      AllSteps (DispatchState.step keyData) KeepsCurrent (.initial entries) actions :=
  Run.not_bad_iff_allSteps DispatchState.Sound DispatchState.Dangling
    (fun _ _ _ h hkeeps hstep => h.step hkeeps hstep)
    (fun _ _ _ h hfrees hstep => h.dangling hfrees hstep)
    (fun _ _ _ h hstep => h.step hstep)
    (fun _ h => h.not_dangling)
    hrun ⟨hallocated, [], entries, .initial entries⟩

/-- The dispatch of a key over any list, with any behaviour of the callbacks.  If no
    callback unregisters the entry it was called for, the handler never reads a freed
    entry, and calls each matching entry that stays registered at most once, and
    exactly once by the end.  If one does, the walk does not end well. -/
theorem dispatch_sound_iff (hnodup : (entries.map NotifyEntry.handle).Nodup)
    (hnonnull : 0 ∉ entries.map NotifyEntry.handle)
    (hrun : run (DispatchState.step keyData) (.initial entries) actions = some s) :
    (AllSteps (DispatchState.step keyData) KeepsCurrent (.initial entries) actions →
      s.pc ≠ .fault ∧ CallsOnce keyData entries actions s) ∧
    (s.pc = .done ∨ s.pc = .fault → s.pc ≠ .fault ∧ CallsOnce keyData entries actions s →
      AllSteps (DispatchState.step keyData) KeepsCurrent (.initial entries) actions) := by
  have hallocated : (DispatchState.initial entries).Allocated := ⟨hnodup, hnonnull⟩
  rw [← not_dangling_iff hallocated hrun]
  refine ⟨?_, ?_⟩
  · intro hsound
    refine ⟨fun hfault => hsound (.inl hfault), ?_⟩
    exact callsOnce_of_keepsCurrent hallocated hrun ((not_dangling_iff hallocated hrun).mp hsound)
  · rintro hended ⟨hfault, -⟩ (hbad | ⟨link, hcallback⟩)
    · exact hfault hbad
    · rw [hcallback] at hended
      exact hended.elim WalkPc.noConfusion WalkPc.noConfusion

/-- Two registrations for the escape key. -/
def escEntries : List NotifyEntry :=
  [⟨0x1000, ⟨#v[0x17, 0, 0, 0, 0, 0, 0, 0, 0, 0, 0, 0]⟩, 0x10⟩,
   ⟨0x2000, ⟨#v[0x17, 0, 0, 0, 0, 0, 0, 0, 0, 0, 0, 0]⟩, 0x20⟩]

/-- The escape key, as `PollKeyboard` enqueues it. -/
def escPress : EfiKeyData := ⟨⟨SCAN_ESC, CHAR_NULL⟩, buildKeyState ⟨false, false, false⟩⟩

/-- The first callback unregisters the second entry and registers at its address. -/
theorem dispatch_sound_iff_reuse :
    ∃ s, run (DispatchState.step escPress) (.initial escEntries)
        [.walk, .unregister 0x2000,
         .register (some ⟨#v[0x17, 0, 0, 0, 0, 0, 0, 0, 0, 0, 0, 0]⟩) 0x30 (some 0) 0x2000,
         .walk, .walk, .walk, .walk] = some s ∧
      s.calls = [0x1000, 0x2000] ∧
      (s.pc = .done ∨ s.pc = .fault → s.pc ≠ .fault ∧ CallsOnce escPress escEntries
          [.walk, .unregister 0x2000,
           .register (some ⟨#v[0x17, 0, 0, 0, 0, 0, 0, 0, 0, 0, 0, 0]⟩) 0x30 (some 0) 0x2000,
           .walk, .walk, .walk, .walk] s →
        AllSteps (DispatchState.step escPress) KeepsCurrent (.initial escEntries)
          [.walk, .unregister 0x2000,
           .register (some ⟨#v[0x17, 0, 0, 0, 0, 0, 0, 0, 0, 0, 0, 0]⟩) 0x30 (some 0) 0x2000,
           .walk, .walk, .walk, .walk]) := by
  have hnodup : (escEntries.map NotifyEntry.handle).Nodup := by decide
  have hnonnull : 0 ∉ escEntries.map NotifyEntry.handle := by decide
  exact ⟨_, rfl, rfl, (dispatch_sound_iff hnodup hnonnull rfl).2⟩

/-- A callback that unregisters its own entry: the handler reads the freed entry's
    forward link when it returns, and the second entry is not called. -/
theorem dispatch_reads_freed_entry :
    ∃ s, run (DispatchState.step escPress) (.initial escEntries)
        [.walk, .unregister 0x1000, .walk] = some s ∧
      s.pc = .fault ∧ s.notifyList.map NotifyEntry.handle = [0x2000] ∧
      s.calls = [0x1000] :=
  ⟨_, rfl, rfl, rfl, rfl⟩

end UemuPkg
