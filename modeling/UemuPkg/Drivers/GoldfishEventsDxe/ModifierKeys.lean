/-
  UemuPkg.Drivers.GoldfishEventsDxe.ModifierKeys

  The modifier flags and the keys that are held.  A flag follows the last record of its
  two keys: it is set after a press only.  So it is right as long as that record is
  neither an autorepeat nor the release of one key while the other is held.
-/

import Mathlib.Data.List.Induction
import UemuPkg.Drivers.GoldfishEventsDxe.KeyNotify

namespace UemuPkg

open Run (run AllSteps)

-- ============================================================================
-- Keys and records
-- ============================================================================

/-- The key of a record, `(UINT16)Code`. -/
def KeyRecord.key (r : KeyRecord) : UINT16 := r.code.setWidth 16

/-- The last record of one of the keys. -/
def lastOf (keys : List UINT16) (records : List KeyRecord) : Option KeyRecord :=
  (records.filter fun r => r.key ∈ keys).getLast?

/-- A key is held unless it has no record or its last one is a release. -/
def held (records : List KeyRecord) (key : UINT16) : Bool :=
  match lastOf [key] records with
  | none => false
  | some r => r.value != 0

/-- A flag of `Modifiers` and its two keys. -/
structure ModifierKey where
  flag : Modifiers → Bool
  left : UINT16
  right : UINT16

def shiftKey : ModifierKey := ⟨Modifiers.keyShift, KEY_LEFTSHIFT, KEY_RIGHTSHIFT⟩
def ctrlKey : ModifierKey := ⟨Modifiers.keyCtrl, KEY_LEFTCTRL, KEY_RIGHTCTRL⟩
def altKey : ModifierKey := ⟨Modifiers.keyAlt, KEY_LEFTALT, KEY_RIGHTALT⟩

def modifierKeys : List ModifierKey := [shiftKey, ctrlKey, altKey]

def ModifierKey.keys (k : ModifierKey) : List UINT16 := [k.left, k.right]

/-- The flag is set exactly while one of its keys is held. -/
def ModifierKey.Right (k : ModifierKey) (m : Modifiers) (records : List KeyRecord) : Prop :=
  k.flag m = true ↔ held records k.left = true ∨ held records k.right = true

/-- The last record of the two keys is a press, or the release that leaves neither key
    held. -/
def ModifierKey.Settled (k : ModifierKey) (records : List KeyRecord) : Prop :=
  ∀ r, lastOf k.keys records = some r →
    r.value = 1 ∨ (r.value = 0 ∧ held records k.left = false ∧ held records k.right = false)

-- ============================================================================
-- A flag follows the last record
-- ============================================================================

theorem lastOf_concat (keys : List UINT16) (records : List KeyRecord) (r : KeyRecord) :
    lastOf keys (records ++ [r]) = if r.key ∈ keys then some r else lastOf keys records := by
  rw [lastOf, List.filter_append]
  split
  · rename_i hmem
    rw [List.filter_cons_of_pos (by simpa using hmem), List.filter_nil, List.getLast?_concat]
  · rename_i hmem
    rw [List.filter_cons_of_neg (by simpa using hmem), List.filter_nil, List.append_nil]
    rfl

theorem held_of_lastOf_eq_none {keys : List UINT16} {records : List KeyRecord} {key : UINT16}
    (h : lastOf keys records = none) (hmem : key ∈ keys) : held records key = false := by
  have hnone : lastOf [key] records = none := by
    rw [lastOf, List.getLast?_eq_none_iff, List.filter_eq_nil_iff] at h ⊢
    intro r hr
    have hother : r.key ∉ keys := by simpa using h r hr
    simpa using ne_of_mem_of_not_mem hmem hother |>.symm
  rw [held, hnone]

/-- The last record of a group of keys is the last record of its own key. -/
theorem lastOf_eq_some {keys : List UINT16} {records : List KeyRecord} {r : KeyRecord}
    (h : lastOf keys records = some r) :
    r ∈ records ∧ r.key ∈ keys ∧ held records r.key = (r.value != 0) := by
  have hlast : r ∈ records ∧ r.key ∈ keys ∧ lastOf [r.key] records = some r := by
    induction records using List.reverseRecOn with
    | nil => cases h
    | append_singleton records last ih =>
        rw [lastOf_concat] at h ⊢
        split at h
        · rename_i hmem
          obtain rfl := Option.some.inj h
          exact ⟨List.mem_append_right _ List.mem_cons_self, hmem,
            if_pos List.mem_cons_self⟩
        · rename_i hmem
          obtain ⟨hr, hkey, hown⟩ := ih h
          have hne : last.key ≠ r.key := fun heq => hmem (heq ▸ hkey)
          exact ⟨List.mem_append_left _ hr, hkey, by rw [if_neg (by simpa using hne), hown]⟩
  refine ⟨hlast.1, hlast.2.1, ?_⟩
  rw [held, hlast.2.2]

/-- `ConvertKeyCode` on the flags: each follows the events of its two keys. -/
theorem convertKeyCode_modifiers (m : Modifiers) (code : UINT16) (pressed : Bool) :
    (convertKeyCode m code pressed).1 =
      { keyShift := if code = KEY_LEFTSHIFT ∨ code = KEY_RIGHTSHIFT then pressed else m.keyShift
        keyCtrl := if code = KEY_LEFTCTRL ∨ code = KEY_RIGHTCTRL then pressed else m.keyCtrl
        keyAlt := if code = KEY_LEFTALT ∨ code = KEY_RIGHTALT then pressed else m.keyAlt } := by
  cases pressed with
  | false => rfl
  | true =>
      rw [convertKeyCode, if_neg (by decide)]
      by_cases hshift : code = KEY_LEFTSHIFT ∨ code = KEY_RIGHTSHIFT
      · have hctrl : ¬ (code = KEY_LEFTCTRL ∨ code = KEY_RIGHTCTRL) := by
          rcases hshift with rfl | rfl <;> decide
        have halt : ¬ (code = KEY_LEFTALT ∨ code = KEY_RIGHTALT) := by
          rcases hshift with rfl | rfl <;> decide
        rw [if_pos hshift, if_pos hshift, if_neg hctrl, if_neg halt]
      · rw [if_neg hshift, if_neg hshift]
        by_cases hctrl : code = KEY_LEFTCTRL ∨ code = KEY_RIGHTCTRL
        · have halt : ¬ (code = KEY_LEFTALT ∨ code = KEY_RIGHTALT) := by
            rcases hctrl with rfl | rfl <;> decide
          rw [if_pos hctrl, if_pos hctrl, if_neg halt]
        · rw [if_neg hctrl, if_neg hctrl]
          by_cases halt : code = KEY_LEFTALT ∨ code = KEY_RIGHTALT
          · rw [if_pos halt, if_pos halt]
          · -- The rest of the function leaves the flags alone.
            rw [if_neg halt, if_neg halt]
            split
            · rfl
            · split
              · rfl
              · split
                · rfl
                · split
                  · rfl
                  · rfl

/-- A record changes the flag of its own keys only, and sets it to whether it is a
    press. -/
theorem convert_flag {k : ModifierKey} (hk : k ∈ modifierKeys) (m : Modifiers) (r : KeyRecord) :
    k.flag (r.convert m).1 = if r.key ∈ k.keys then r.value == 1 else k.flag m := by
  rw [KeyRecord.convert, convertKeyCode_modifiers]
  simp only [modifierKeys, List.mem_cons, List.not_mem_nil, or_false] at hk
  rcases hk with rfl | rfl | rfl <;>
    simp only [shiftKey, ctrlKey, altKey, ModifierKey.keys, KeyRecord.key, List.mem_cons,
      List.not_mem_nil, or_false]

theorem modifiersAfter_flag {k : ModifierKey} (hk : k ∈ modifierKeys) (m : Modifiers)
    (records : List KeyRecord) :
    k.flag (modifiersAfter m records) = match lastOf k.keys records with
      | none => k.flag m
      | some r => r.value == 1 := by
  induction records using List.reverseRecOn with
  | nil => rfl
  | append_singleton records r ih =>
      have hnext : modifiersAfter m (records ++ [r])
          = (r.convert (modifiersAfter m records)).1 := modifiersAfter_append m records [r]
      rw [hnext, convert_flag hk, lastOf_concat, ih]
      split
      · rfl
      · rfl

/-- After records that started with no key held, a flag is right exactly if its keys
    have settled. -/
theorem right_iff_settled {k : ModifierKey} (hk : k ∈ modifierKeys) {records : List KeyRecord}
    (hvalues : ∀ r ∈ records, r.value = 0 ∨ r.value = 1 ∨ r.value = 2) :
    k.Right (modifiersAfter .none records) records ↔ k.Settled records := by
  have hflag := modifiersAfter_flag hk .none records
  rw [ModifierKey.Right, ModifierKey.Settled, hflag]
  cases hlast : lastOf k.keys records with
  | none =>
      have hleft : held records k.left = false :=
        held_of_lastOf_eq_none hlast List.mem_cons_self
      have hright : held records k.right = false :=
        held_of_lastOf_eq_none hlast (List.mem_cons_of_mem _ List.mem_cons_self)
      have hclear : k.flag .none = false := by
        simp only [modifierKeys, List.mem_cons, List.not_mem_nil, or_false] at hk
        rcases hk with rfl | rfl | rfl <;> rfl
      simp [hleft, hright, hclear]
  | some r =>
      obtain ⟨hmem, hkey, hheld⟩ := lastOf_eq_some hlast
      have hpair : r.key = k.left ∨ r.key = k.right := by simpa [ModifierKey.keys] using hkey
      have hany : held records r.key = true → held records k.left = true ∨
          held records k.right = true := by
        intro h
        rcases hpair with hl | hr
        · exact .inl (hl ▸ h)
        · exact .inr (hr ▸ h)
      simp only [Option.some.injEq, forall_eq']
      rcases hvalues r hmem with hvalue | hvalue | hvalue
      · -- A release.
        simp [hvalue]
      · -- A press.
        rw [hvalue] at hheld ⊢
        exact iff_of_true (iff_of_true rfl (hany (hheld.trans rfl))) (.inl rfl)
      · -- An autorepeat.
        rw [hvalue] at hheld ⊢
        refine iff_of_false ?_ (by simp)
        intro h
        exact absurd (h.mpr (hany (hheld.trans rfl))) (by decide)

-- ============================================================================
-- Runs
-- ============================================================================

/-- The arriving record goes on in the cycle of its key: a press, any number of
    autorepeats, a release. -/
def KeyCycles (s : KeyboardState) : KeyboardAction → Prop
  | .arrive r => if held s.stream r.key then r.value = 0 ∨ r.value = 2 else r.value = 1
  | _ => True

/-- After a poll that empties the queue each flag tells whether one of its keys is held. -/
def FlagsRight (s : KeyboardState) : KeyboardAction → Prop
  | .poll haveNotify => ∀ s', s.step (.poll haveNotify) = some s' → s'.fifo = [] →
      ∀ k ∈ modifierKeys, k.Right s'.dev.toModifiers s'.stream
  | _ => True

/-- At a poll the keys of each flag have settled. -/
def KeysSettled (s : KeyboardState) : KeyboardAction → Prop
  | .poll _ => ∀ k ∈ modifierKeys, k.Settled s.stream
  | _ => True

/-- The records polled so far have set the flags; the others are in the register. -/
structure FlagsFollow (s : KeyboardState) : Prop where
  framed : ∃ polled queued, s.stream = polled ++ queued ∧ s.fifo = eventWords queued ∧
    s.dev.toModifiers = modifiersAfter .none polled
  values : ∀ r ∈ s.stream, r.value = 0 ∨ r.value = 1 ∨ r.value = 2

/-- A poll empties the queue, and leaves the flags of all records that have arrived. -/
theorem FlagsFollow.poll {s s' : KeyboardState} (h : FlagsFollow s) {haveNotify : Bool}
    (hstep : s.step (.poll haveNotify) = some s') :
    s'.fifo = [] ∧ s'.stream = s.stream ∧ s'.dev.toModifiers = modifiersAfter .none s.stream := by
  obtain ⟨polled, queued, hstream, hfifo, hmodifiers⟩ := h.framed
  obtain ⟨hloopFifo, hloopModifiers⟩ := pollLoop_eventWords s.dev haveNotify queued
  obtain rfl := Option.some.inj hstep
  dsimp only [pollKeyboard]
  rw [hfifo]
  refine ⟨hloopFifo, rfl, ?_⟩
  rw [hloopModifiers, hmodifiers, ← modifiersAfter_append, ← hstream]

theorem FlagsFollow.step {s s' : KeyboardState} (h : FlagsFollow s) {action : KeyboardAction}
    (hcycles : KeyCycles s action) (hstep : s.step action = some s') : FlagsFollow s' := by
  obtain ⟨polled, queued, hstream, hfifo, hmodifiers⟩ := h.framed
  cases action with
  | arrive r =>
      obtain rfl := Option.some.inj hstep
      refine ⟨⟨polled, queued ++ [r], ?_, ?_, hmodifiers⟩, ?_⟩
      · dsimp only
        rw [hstream, List.append_assoc]
      · dsimp only
        rw [hfifo, eventWords_append]
      · intro r' hr'
        rcases List.mem_append.mp hr' with hold | hnew
        · exact h.values r' hold
        · rw [List.mem_singleton.mp hnew]
          rw [KeyCycles] at hcycles
          split at hcycles
          · exact hcycles.imp_right .inr
          · exact .inr (.inl hcycles)
  | poll haveNotify =>
      obtain ⟨hempty, hsame, hflags⟩ := h.poll hstep
      refine ⟨⟨s.stream, [], ?_, hempty, hflags⟩, hsame ▸ h.values⟩
      rw [hsame, List.append_nil]
  | dispatch =>
      rw [KeyboardState.step] at hstep
      split at hstep
      · obtain rfl := Option.some.inj hstep
        refine ⟨⟨polled, queued, hstream, hfifo, ?_⟩, h.values⟩
        dsimp only
        rw [keyNotifyProcessHandler]
        split
        · exact hmodifiers
        · exact hmodifiers
      · cases hstep

/-- Every poll of a run leaves each flag set exactly while one of its keys is held, if
    and only if the keys of each flag have settled at every poll.  The records form
    press, autorepeat and release cycles of each key, from no key held. -/
theorem flagsRight_iff {notifyList : List GoldfishEventsNotify} {actions : List KeyboardAction}
    {s : KeyboardState}
    (hrun : run KeyboardState.step (.initial notifyList) actions = some s)
    (hcycles : AllSteps KeyboardState.step KeyCycles (.initial notifyList) actions) :
    AllSteps KeyboardState.step FlagsRight (.initial notifyList) actions ↔
      AllSteps KeyboardState.step KeysSettled (.initial notifyList) actions := by
  have hstart : FlagsFollow (.initial notifyList) :=
    ⟨⟨[], [], rfl, rfl, rfl⟩, fun r h => absurd h List.not_mem_nil⟩
  refine Run.allSteps_congr FlagsFollow (fun _ _ _ h hcycle hstep => h.step hcycle hstep)
    ?_ hrun hcycles hstart
  intro t action t' ht _ hstep
  cases action with
  | arrive r => exact Iff.rfl
  | dispatch => exact Iff.rfl
  | poll haveNotify =>
      obtain ⟨hempty, hsame, hflags⟩ := ht.poll hstep
      rw [FlagsRight, KeysSettled]
      refine ⟨?_, ?_⟩
      · intro hright k hk
        rw [← right_iff_settled hk ht.values, ← hflags, ← hsame]
        exact hright t' hstep hempty k hk
      · intro hsettled t'' ht'' _ k hk
        obtain rfl := Option.some.inj (hstep.symm.trans ht'')
        rw [hflags, hsame, right_iff_settled hk ht.values]
        exact hsettled k hk

/-- The left shift key goes down and up again. -/
theorem flagsRight_iff_one_key :
    AllSteps KeyboardState.step FlagsRight (.initial [])
        [.arrive ⟨42, 1⟩, .poll false, .arrive ⟨42, 0⟩, .poll false] ↔
      AllSteps KeyboardState.step KeysSettled (.initial [])
        [.arrive ⟨42, 1⟩, .poll false, .arrive ⟨42, 0⟩, .poll false] := by
  refine flagsRight_iff (s := _) rfl ?_
  exact .cons rfl (rfl : (1 : UINT32) = 1) (.cons rfl trivial
    (.cons rfl (.inl rfl : (0 : UINT32) = 0 ∨ (0 : UINT32) = 2) (.cons rfl trivial trivial)))

/-- Both shift keys go down, the right one comes up again: the flag is clear while the
    left key is held. -/
theorem shift_released_while_held :
    AllSteps KeyboardState.step KeyCycles (.initial [])
        [.arrive ⟨42, 1⟩, .arrive ⟨54, 1⟩, .poll false, .arrive ⟨54, 0⟩] ∧
      ∃ s s', run KeyboardState.step (.initial [])
          [.arrive ⟨42, 1⟩, .arrive ⟨54, 1⟩, .poll false, .arrive ⟨54, 0⟩] = some s ∧
        s.step (.poll false) = some s' ∧ s'.fifo = [] ∧ held s'.stream KEY_LEFTSHIFT = true ∧
        s'.dev.keyShift = false ∧ ¬ FlagsRight s (.poll false) := by
  refine ⟨?_, _, _, rfl, rfl, rfl, by decide, by decide, ?_⟩
  · exact .cons rfl (rfl : (1 : UINT32) = 1) (.cons rfl (rfl : (1 : UINT32) = 1)
      (.cons rfl trivial
        (.cons rfl (.inl rfl : (0 : UINT32) = 0 ∨ (0 : UINT32) = 2) trivial)))
  · intro hright
    have hshift := hright _ rfl rfl shiftKey List.mem_cons_self
    exact absurd (hshift.mpr (.inl rfl)) (by decide)

end UemuPkg
