/-
  UemuPkg.Drivers.GoldfishEventsDxe.KeystrokeHistory

  Where keystrokes go.  Each of the two buffers holds at most one press, newer than all
  that have been handed out: so the keys read and the key data dequeued are presses of
  the same epoch, each once and in order.
-/

import UemuPkg.Drivers.GoldfishEventsDxe.Keystrokes

namespace UemuPkg

open Run (run)

-- ============================================================================
-- The buffers
-- ============================================================================

/-- The key that waits for `ReadKeyStroke`, if any. -/
def GoldfishEventsDev.keySlot (dev : GoldfishEventsDev) : List EfiInputKey :=
  if dev.keyReady then [dev.key] else []

/-- What was handed out are presses, each once and in order. -/
def Faithful (events : List KeyEvent) : Prop :=
  (takenIn events).Sublist ((pressesIn events).map Press.key) ∧
    (dequeuedIn events).Sublist ((pressesIn events).map Press.keyData)

/-- The buffers go on where the events of an epoch have stopped. -/
structure Follows (dev : GoldfishEventsDev) (epoch : List KeyEvent) : Prop where
  taken : (takenIn epoch ++ dev.keySlot).Sublist ((pressesIn epoch).map Press.key)
  dequeued : (dequeuedIn epoch ++ (dequeueNotify dev).toList).Sublist
    ((pressesIn epoch).map Press.keyData)
  /-- A key that waits is that of the last press, which the notify buffer holds too. -/
  last : dev.keyReady = true → ∃ p, (pressesIn epoch).getLast? = some p ∧
    dev.key = p.key ∧ dev.notifyKeyData = p.keyData
  faithful : ∀ upto, upto <+: epoch → Faithful upto

variable {dev dev' : GoldfishEventsDev} {epoch : List KeyEvent}

/-- Only the buffers matter. -/
theorem Follows.congr (h : Follows dev epoch) (hready : dev'.keyReady = dev.keyReady)
    (hkey : dev'.key = dev.key) (hnotifyReady : dev'.notifyKeyReady = dev.notifyKeyReady)
    (hnotify : dev'.notifyKeyData = dev.notifyKeyData) : Follows dev' epoch where
  taken := by
    rw [GoldfishEventsDev.keySlot, hready, hkey]
    exact h.taken
  dequeued := by
    rw [dequeueNotify, hnotifyReady, hnotify]
    exact h.dequeued
  last := by
    rw [hready, hkey, hnotify]
    exact h.last
  faithful := h.faithful

/-- An event after others of an epoch. -/
theorem faithful_concat {event : KeyEvent} (h : ∀ upto, upto <+: epoch → Faithful upto)
    (hevent : Faithful (epoch ++ [event])) :
    ∀ upto, upto <+: epoch ++ [event] → Faithful upto := by
  intro upto hupto
  rcases List.prefix_concat_iff.mp hupto with rfl | hbefore
  · exact hevent
  · exact h upto hbefore

/-- A press is the newest of its epoch, and fills both buffers. -/
theorem Follows.pressed (h : Follows dev epoch) (p : Press) :
    Follows
      { dev with
        toModifiers := p.modifiers
        key := p.key
        keyReady := true
        notifyKeyData := p.keyData
        notifyKeyReady := true }
      (epoch ++ [.pressed p]) := by
  have hpresses : pressesIn (epoch ++ [.pressed p]) = pressesIn epoch ++ [p] :=
    pressesIn_append epoch [.pressed p]
  have htaken : takenIn (epoch ++ [.pressed p]) = takenIn epoch := by
    rw [takenIn_append]
    exact List.append_nil _
  have hdequeued : dequeuedIn (epoch ++ [.pressed p]) = dequeuedIn epoch := by
    rw [dequeuedIn_append]
    exact List.append_nil _
  have hread : (takenIn epoch).Sublist ((pressesIn epoch).map Press.key) :=
    (List.sublist_append_left _ _).trans h.taken
  have hnotified : (dequeuedIn epoch).Sublist ((pressesIn epoch).map Press.keyData) :=
    (List.sublist_append_left _ _).trans h.dequeued
  refine ⟨?_, ?_, ?_, faithful_concat h.faithful ⟨?_, ?_⟩⟩
  · rw [htaken, hpresses, List.map_append]
    exact hread.append (List.Sublist.refl [p.key])
  · rw [hdequeued, hpresses, List.map_append]
    exact hnotified.append (List.Sublist.refl [p.keyData])
  · intro _
    exact ⟨p, by rw [hpresses, List.getLast?_concat], rfl, rfl⟩
  · rw [htaken, hpresses, List.map_append]
    exact hread.trans (List.sublist_append_left _ _)
  · rw [hdequeued, hpresses, List.map_append]
    exact hnotified.trans (List.sublist_append_left _ _)

/-- A poll. -/
theorem Follows.poll (h : Follows dev epoch) (haveNotify : Bool) (fifo : List UINT32) :
    Follows (pollKeyboard dev haveNotify fifo).dev
      (epoch ++ (pollPresses dev fifo).map .pressed) := by
  have hstart : Follows dev (epoch ++ ([] : List Press).map .pressed) := by
    rwa [List.map_nil, List.append_nil]
  have hloop := pollLoop_keeps (fun dev ps => Follows dev (epoch ++ ps.map .pressed)) ?_
    dev haveNotify fifo hstart
  · exact hloop
  · intro dev ps type code value hps
    rcases pollRecord_cases dev type code value with
      ⟨p, hpress, hrecord⟩ | ⟨hpress, modifiers, hrecord⟩
    · rw [hpress, hrecord, Option.toList_some, List.map_append, ← List.append_assoc]
      exact hps.pressed p
    · rw [hpress, hrecord, Option.toList_none, List.append_nil]
      exact hps.congr rfl rfl rfl rfl

/-- A read function takes the key out of its buffer. -/
theorem Follows.take (h : Follows dev epoch) (hready : dev.keyReady = true) :
    Follows { dev with keyReady := false } (epoch ++ [.taken dev.key]) := by
  have hpresses : pressesIn (epoch ++ [.taken dev.key]) = pressesIn epoch := by
    rw [pressesIn_append]
    exact List.append_nil _
  have htaken : takenIn (epoch ++ [.taken dev.key]) = takenIn epoch ++ [dev.key] :=
    takenIn_append epoch [.taken dev.key]
  have hdequeued : dequeuedIn (epoch ++ [.taken dev.key]) = dequeuedIn epoch := by
    rw [dequeuedIn_append]
    exact List.append_nil _
  have hread := h.taken
  rw [GoldfishEventsDev.keySlot, if_pos hready] at hread
  refine ⟨?_, ?_, fun hagain => Bool.noConfusion hagain, faithful_concat h.faithful ⟨?_, ?_⟩⟩
  · rw [htaken, hpresses]
    exact (List.append_nil _).symm ▸ hread
  · rw [hdequeued, hpresses]
    exact h.dequeued
  · rwa [htaken, hpresses]
  · rw [hdequeued, hpresses]
    exact (List.sublist_append_left _ _).trans h.dequeued

/-- The handler takes the key data out of its own. -/
theorem Follows.dequeue (h : Follows dev epoch) :
    Follows (keyNotifyProcessHandler dev).1
      (epoch ++ (dequeueNotify dev).toList.map .dequeued) := by
  have hnotified := h.dequeued
  by_cases hready : dev.notifyKeyReady = true
  · have htake : dequeueNotify dev = some dev.notifyKeyData := if_pos hready
    rw [htake, Option.toList_some] at hnotified
    rw [keyNotifyProcessHandler, if_pos hready, htake, Option.toList_some, List.map_singleton]
    have hpresses : pressesIn (epoch ++ [.dequeued dev.notifyKeyData]) = pressesIn epoch := by
      rw [pressesIn_append]
      exact List.append_nil _
    have htaken : takenIn (epoch ++ [.dequeued dev.notifyKeyData]) = takenIn epoch := by
      rw [takenIn_append]
      exact List.append_nil _
    have hdequeued : dequeuedIn (epoch ++ [.dequeued dev.notifyKeyData])
        = dequeuedIn epoch ++ [dev.notifyKeyData] :=
      dequeuedIn_append epoch [.dequeued dev.notifyKeyData]
    refine ⟨?_, ?_, ?_, faithful_concat h.faithful ⟨?_, ?_⟩⟩
    · rw [htaken, hpresses]
      exact h.taken
    · rw [hdequeued, hpresses]
      exact (List.append_nil _).symm ▸ hnotified
    · rw [hpresses]
      exact h.last
    · rw [htaken, hpresses]
      exact (List.sublist_append_left _ _).trans h.taken
    · rwa [hdequeued, hpresses]
  · have htake : dequeueNotify dev = none := if_neg hready
    rw [keyNotifyProcessHandler, if_neg hready, htake, Option.toList_none, List.map_nil,
      List.append_nil]
    exact h

theorem follows_clearKeys (dev : GoldfishEventsDev) : Follows dev.clearKeys [] where
  taken := List.Sublist.refl _
  dequeued := List.Sublist.refl _
  last := fun h => Bool.noConfusion h
  faithful := by
    intro upto hupto
    rw [List.prefix_nil.mp hupto]
    exact ⟨List.Sublist.refl _, List.Sublist.refl _⟩

-- ============================================================================
-- Runs
-- ============================================================================

/-- A read returns the key of the buffer, or fails and changes nothing. -/
theorem readKeyStroke_cases (dev : GoldfishEventsDev) (key : Option EfiInputKey) :
    (dev.keyReady = true ∧
      readKeyStroke dev key = (.success, { dev with keyReady := false }, some dev.key)) ∨
    ((key.isSome = true → dev.keyReady = false) ∧
      ∃ status, status ≠ .success ∧ readKeyStroke dev key = (status, dev, key)) := by
  cases key with
  | none => exact .inr ⟨fun h => Bool.noConfusion h, .invalidParameter, nofun, rfl⟩
  | some old =>
      rw [readKeyStroke]
      by_cases hready : dev.keyReady = true
      · exact .inl ⟨hready, if_pos hready⟩
      · exact .inr ⟨fun _ => Bool.eq_false_iff.mpr hready, .notReady, nofun, if_neg hready⟩

theorem readKeyStrokeEx_cases (dev : GoldfishEventsDev) (keyData : Option EfiKeyData) :
    (dev.keyReady = true ∧ keyData.isSome = true ∧
      readKeyStrokeEx dev keyData
        = (.success, { dev with keyReady := false }, some ⟨dev.key, buildKeyState dev.toModifiers⟩)) ∨
    ((keyData.isSome = true → dev.keyReady = false) ∧
      ∃ status, status ≠ .success ∧ readKeyStrokeEx dev keyData = (status, dev, keyData)) := by
  cases keyData with
  | none => exact .inr ⟨fun h => Bool.noConfusion h, .invalidParameter, nofun, rfl⟩
  | some old =>
      rw [readKeyStrokeEx]
      rcases readKeyStroke_cases dev (some .null) with
        ⟨hready, hread⟩ | ⟨hnot, status, hstatus, hread⟩
      · rw [hread]
        exact .inl ⟨hready, rfl, rfl⟩
      · rw [hread]
        refine .inr ⟨fun _ => hnot rfl, status, hstatus, ?_⟩
        cases status <;> first | exact absurd rfl hstatus | rfl

/-- A read takes the key that waits, or changes nothing. -/
theorem KeystrokeState.step_readKeyStroke {s s' : KeystrokeState} {key : Option EfiInputKey}
    (hstep : s.step (.readKeyStroke key) = some s') :
    (s.dev.keyReady = true ∧
      s' = { s with
        dev := { s.dev with keyReady := false }
        epoch := s.epoch ++ [.taken s.dev.key] }) ∨
    s' = s := by
  rw [KeystrokeState.step] at hstep
  rcases readKeyStroke_cases s.dev key with ⟨hready, hread⟩ | ⟨-, status, hstatus, hread⟩
  · rw [hread] at hstep
    exact .inl ⟨hready, (Option.some.inj hstep).symm⟩
  · rw [hread] at hstep
    refine .inr ?_
    cases status <;> first | exact absurd rfl hstatus | exact (Option.some.inj hstep).symm

theorem KeystrokeState.step_readKeyStrokeEx {s s' : KeystrokeState} {keyData : Option EfiKeyData}
    (hstep : s.step (.readKeyStrokeEx keyData) = some s') :
    (s.dev.keyReady = true ∧
      s' = { s with
        dev := { s.dev with keyReady := false }
        epoch := s.epoch ++ [.taken s.dev.key] }) ∨
    s' = s := by
  rw [KeystrokeState.step] at hstep
  rcases readKeyStrokeEx_cases s.dev keyData with
    ⟨hready, -, hread⟩ | ⟨-, status, hstatus, hread⟩
  · rw [hread] at hstep
    exact .inl ⟨hready, (Option.some.inj hstep).symm⟩
  · rw [hread] at hstep
    refine .inr ?_
    cases status <;> first | exact absurd rfl hstatus | exact (Option.some.inj hstep).symm

/-- The history of a state is that of its buffers. -/
structure KeystrokeState.Sound (s : KeystrokeState) : Prop where
  follows : Follows s.dev s.epoch
  past : ∀ epoch ∈ s.past, ∀ upto, upto <+: epoch → Faithful upto

theorem KeystrokeState.Sound.initial : KeystrokeState.initial.Sound where
  follows := follows_clearKeys idleDev
  past := fun _ h => absurd h List.not_mem_nil

theorem KeystrokeState.Sound.step {s s' : KeystrokeState} (h : s.Sound) {action : KeystrokeAction}
    (hstep : s.step action = some s') : s'.Sound := by
  cases action with
  | arrive words =>
      obtain rfl := Option.some.inj hstep
      exact ⟨h.follows, h.past⟩
  | poll haveNotify =>
      obtain rfl := Option.some.inj hstep
      exact ⟨h.follows.poll haveNotify s.fifo, h.past⟩
  | readKeyStroke key =>
      rcases KeystrokeState.step_readKeyStroke hstep with ⟨hready, rfl⟩ | rfl
      · exact ⟨h.follows.take hready, h.past⟩
      · exact h
  | readKeyStrokeEx keyData =>
      rcases KeystrokeState.step_readKeyStrokeEx hstep with ⟨hready, rfl⟩ | rfl
      · exact ⟨h.follows.take hready, h.past⟩
      · exact h
  | reset =>
      obtain rfl := Option.some.inj hstep
      refine ⟨follows_clearKeys s.dev, ?_⟩
      intro epoch hmem
      rcases List.mem_append.mp hmem with hpast | hlast
      · exact h.past epoch hpast
      · rw [List.mem_singleton.mp hlast]
        exact h.follows.faithful
  | registerKeyNotify keyData fn notifyHandle newNotify =>
      obtain rfl := Option.some.inj hstep
      exact ⟨h.follows.congr rfl rfl rfl rfl, h.past⟩
  | unregisterKeyNotify handle =>
      obtain rfl := Option.some.inj hstep
      exact ⟨h.follows.congr rfl rfl rfl rfl, h.past⟩
  | dispatch =>
      obtain rfl := Option.some.inj hstep
      exact ⟨h.follows.dequeue, h.past⟩

theorem KeystrokeState.sound_of_run {actions : List KeystrokeAction} {s : KeystrokeState}
    (hrun : run KeystrokeState.step .initial actions = some s) : s.Sound :=
  Run.run_invariant KeystrokeState.Sound (fun _ _ _ h hstep => h.step hstep) hrun .initial

theorem faithful_flatten {epochs : List (List KeyEvent)}
    (h : ∀ epoch ∈ epochs, Faithful epoch) : Faithful epochs.flatten := by
  induction epochs with
  | nil => exact ⟨List.Sublist.refl _, List.Sublist.refl _⟩
  | cons epoch epochs ih =>
      obtain ⟨htaken, hdequeued⟩ := h epoch List.mem_cons_self
      obtain ⟨ihTaken, ihDequeued⟩ := ih fun e he => h e (List.mem_cons_of_mem _ he)
      rw [List.flatten_cons, Faithful]
      simp only [takenIn_append, dequeuedIn_append, pressesIn_append, List.map_append]
      exact ⟨htaken.append ihTaken, hdequeued.append ihDequeued⟩

/-- Keystrokes are never made up, repeated or brought back, in any run from
    initialisation.  The keys that the read functions return are presses that were
    decoded, each at most once and in order, and so is the key data that is dequeued,
    with the modifier flags of the press.  This holds of each epoch between two Resets
    alone, and at each point of it. -/
theorem keystrokes_faithful {actions : List KeystrokeAction} {s : KeystrokeState}
    (hrun : run KeystrokeState.step .initial actions = some s) :
    Faithful (s.past ++ [s.epoch]).flatten ∧
      ∀ epoch ∈ s.past ++ [s.epoch], ∀ upto, upto <+: epoch → Faithful upto := by
  have hs := KeystrokeState.sound_of_run hrun
  have hepochs : ∀ epoch ∈ s.past ++ [s.epoch], ∀ upto, upto <+: epoch → Faithful upto := by
    intro epoch hmem
    rcases List.mem_append.mp hmem with hpast | hlast
    · exact hs.past epoch hpast
    · rw [List.mem_singleton.mp hlast]
      exact hs.follows.faithful
  refine ⟨faithful_flatten fun epoch hmem => ?_, hepochs⟩
  exact hepochs epoch hmem epoch (List.prefix_refl epoch)

/-- Two presses, one of them read; a third is cleared by a Reset. -/
theorem keystrokes_faithful_reset :
    ∃ s, run KeystrokeState.step .initial
        [.arrive [1, 1, 1, 1, 30, 1], .poll false, .readKeyStroke (some .null), .dispatch,
          .arrive [1, 31, 1], .poll false, .reset, .readKeyStroke (some .null)] = some s ∧
      Faithful (s.past ++ [s.epoch]).flatten ∧
      (pressesIn s.past.flatten).length = 3 ∧ (takenIn s.past.flatten).length = 1 ∧
      takenIn s.epoch = [] := by
  have hrun : run KeystrokeState.step .initial
      [.arrive [1, 1, 1, 1, 30, 1], .poll false, .readKeyStroke (some .null), .dispatch,
        .arrive [1, 31, 1], .poll false, .reset, .readKeyStroke (some .null)] = some _ := rfl
  exact ⟨_, hrun, (keystrokes_faithful hrun).1, rfl, rfl, rfl⟩

end UemuPkg
