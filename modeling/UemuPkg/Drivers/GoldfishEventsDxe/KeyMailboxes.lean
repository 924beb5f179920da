/-
  UemuPkg.Drivers.GoldfishEventsDxe.KeyMailboxes

  The two buffers of the driver are mailboxes.  A decoded press is put into both; the
  read functions take from one, the notification handler from the other, and Reset
  clears both.  So what a read returns is known from the last thing that happened to
  its buffer, and a press is lost only to another press or to a Reset.
-/

import UemuPkg.Drivers.GoldfishEventsDxe.KeystrokeHistory
import UemuPkg.Generic.Mailbox

namespace UemuPkg

open Mailbox (after puts lastPut)
open Run (run emitted run_emitted)

-- ============================================================================
-- The mailboxes
-- ============================================================================

/-- What a call does to the buffers. -/
inductive KeyboardEvent where
  | press (p : Press)
  /-- A read function, with a buffer for its result. -/
  | read
  /-- `KeyNotifyProcessHandler` -/
  | dispatch
  | reset

/-- What the calls do to `Key` and `KeyReady`. -/
def readerEvents (events : List KeyboardEvent) : List (Mailbox.Event Press) :=
  events.filterMap fun
    | .press p => some (.put p)
    | .read => some .take
    | .dispatch => none
    | .reset => some .clear

/-- What the calls do to `NotifyKeyData` and `NotifyKeyReady`. -/
def notifyEvents (events : List KeyboardEvent) : List (Mailbox.Event Press) :=
  events.filterMap fun
    | .press p => some (.put p)
    | .read => none
    | .dispatch => some .take
    | .reset => some .clear

@[simp] theorem readerEvents_append (xs ys : List KeyboardEvent) :
    readerEvents (xs ++ ys) = readerEvents xs ++ readerEvents ys := List.filterMap_append

@[simp] theorem notifyEvents_append (xs ys : List KeyboardEvent) :
    notifyEvents (xs ++ ys) = notifyEvents xs ++ notifyEvents ys := List.filterMap_append

@[simp] theorem readerEvents_press (p : Press) : readerEvents [.press p] = [.put p] := rfl
@[simp] theorem readerEvents_read : readerEvents [.read] = [.take] := rfl
@[simp] theorem readerEvents_dispatch : readerEvents [.dispatch] = [] := rfl
@[simp] theorem readerEvents_reset : readerEvents [.reset] = [.clear] := rfl
@[simp] theorem notifyEvents_press (p : Press) : notifyEvents [.press p] = [.put p] := rfl
@[simp] theorem notifyEvents_read : notifyEvents [.read] = [] := rfl
@[simp] theorem notifyEvents_dispatch : notifyEvents [.dispatch] = [.take] := rfl
@[simp] theorem notifyEvents_reset : notifyEvents [.reset] = [.clear] := rfl

/-- The events of one call. -/
def KeystrokeState.events (s : KeystrokeState) : KeystrokeAction → List KeyboardEvent
  | .arrive _ => []
  | .poll _ => (pollPresses s.dev s.fifo).map .press
  | .readKeyStroke key => if key.isSome then [.read] else []
  | .readKeyStrokeEx keyData => if keyData.isSome then [.read] else []
  | .reset => [.reset]
  | .registerKeyNotify .. => []
  | .unregisterKeyNotify _ => []
  | .dispatch => [.dispatch]

/-- The events of a run from initialisation. -/
def keyboardEvents (actions : List KeystrokeAction) : List KeyboardEvent :=
  emitted KeystrokeState.step KeystrokeState.events .initial actions

/-- The key that waits for the read functions. -/
def GoldfishEventsDev.waitingKey (dev : GoldfishEventsDev) : Option EfiInputKey :=
  if dev.keyReady then some dev.key else none

/-- All that happened, the epochs joined. -/
def KeystrokeState.history (s : KeystrokeState) : List KeyEvent := (s.past ++ [s.epoch]).flatten

/-- The buffers and the history are those of the mailboxes. -/
structure Mirrors (dev : GoldfishEventsDev) (history : List KeyEvent)
    (events : List KeyboardEvent) : Prop where
  key : dev.waitingKey = (after (readerEvents events)).content.map Press.key
  notify : dequeueNotify dev = (after (notifyEvents events)).content.map Press.keyData
  taken : takenIn history = (after (readerEvents events)).taken.map Press.key
  dequeued : dequeuedIn history = (after (notifyEvents events)).taken.map Press.keyData
  read : puts (readerEvents events) = pressesIn history
  notified : puts (notifyEvents events) = pressesIn history

-- ============================================================================
-- One event
-- ============================================================================

variable {dev dev' : GoldfishEventsDev} {history : List KeyEvent} {events : List KeyboardEvent}

@[simp] theorem pressesIn_pressed (p : Press) : pressesIn [.pressed p] = [p] := rfl
@[simp] theorem pressesIn_taken (key : EfiInputKey) : pressesIn [.taken key] = [] := rfl
@[simp] theorem pressesIn_dequeued (k : EfiKeyData) : pressesIn [.dequeued k] = [] := rfl
@[simp] theorem takenIn_pressed (p : Press) : takenIn [.pressed p] = [] := rfl
@[simp] theorem takenIn_taken (key : EfiInputKey) : takenIn [.taken key] = [key] := rfl
@[simp] theorem takenIn_dequeued (k : EfiKeyData) : takenIn [.dequeued k] = [] := rfl
@[simp] theorem dequeuedIn_pressed (p : Press) : dequeuedIn [.pressed p] = [] := rfl
@[simp] theorem dequeuedIn_taken (key : EfiInputKey) : dequeuedIn [.taken key] = [] := rfl
@[simp] theorem dequeuedIn_dequeued (k : EfiKeyData) : dequeuedIn [.dequeued k] = [k] := rfl

theorem mirrors_initial : Mirrors idleDev [] [] := ⟨rfl, rfl, rfl, rfl, rfl, rfl⟩

/-- Only the buffers matter. -/
theorem Mirrors.congr (h : Mirrors dev history events) (hkey : dev'.waitingKey = dev.waitingKey)
    (hnotify : dequeueNotify dev' = dequeueNotify dev) : Mirrors dev' history events where
  key := hkey.trans h.key
  notify := hnotify.trans h.notify
  taken := h.taken
  dequeued := h.dequeued
  read := h.read
  notified := h.notified

theorem Mirrors.press (h : Mirrors dev history events) (p : Press) :
    Mirrors
      { dev with
        toModifiers := p.modifiers
        key := p.key
        keyReady := true
        notifyKeyData := p.keyData
        notifyKeyReady := true }
      (history ++ [.pressed p]) (events ++ [.press p]) where
  key := by simp [GoldfishEventsDev.waitingKey, Mailbox.Box.next]
  notify := by simp [dequeueNotify, Mailbox.Box.next]
  taken := by simp [Mailbox.Box.next, h.taken]
  dequeued := by simp [Mailbox.Box.next, h.dequeued]
  read := by simp [h.read]
  notified := by simp [h.notified]

/-- A poll puts its presses into both. -/
theorem Mirrors.poll (h : Mirrors dev history events) (haveNotify : Bool) (fifo : List UINT32) :
    Mirrors (pollKeyboard dev haveNotify fifo).dev
      (history ++ (pollPresses dev fifo).map .pressed)
      (events ++ (pollPresses dev fifo).map .press) := by
  have hstart : Mirrors dev (history ++ ([] : List Press).map .pressed)
      (events ++ ([] : List Press).map .press) := by
    simpa using h
  have hloop := pollLoop_keeps
    (fun dev ps => Mirrors dev (history ++ ps.map .pressed) (events ++ ps.map .press)) ?_
    dev haveNotify fifo hstart
  · exact hloop
  · intro dev ps type code value hps
    rcases pollRecord_cases dev type code value with
      ⟨p, hpress, hrecord⟩ | ⟨hpress, modifiers, hrecord⟩
    · rw [hpress, hrecord, Option.toList_some, List.map_append, List.map_append,
        ← List.append_assoc, ← List.append_assoc]
      exact hps.press p
    · rw [hpress, hrecord, Option.toList_none, List.append_nil]
      exact hps.congr rfl rfl

/-- A read takes what is there. -/
theorem Mirrors.take (h : Mirrors dev history events) :
    Mirrors { dev with keyReady := false } (history ++ dev.waitingKey.toList.map .taken)
      (events ++ [.read]) where
  key := by simp [GoldfishEventsDev.waitingKey, Mailbox.Box.next]
  notify := by
    rw [notifyEvents_append, notifyEvents_read, List.append_nil]
    exact h.notify
  taken := by
    rw [h.key]
    cases hcontent : (after (readerEvents events)).content <;>
      simp [Mailbox.Box.next, h.taken, hcontent]
  dequeued := by
    cases dev.waitingKey <;> simp [h.dequeued]
  read := by
    cases dev.waitingKey <;> simp [h.read]
  notified := by
    cases dev.waitingKey <;> simp [h.notified]

/-- A read that fails finds the mailbox empty. -/
theorem Mirrors.miss (h : Mirrors dev history events) (hready : dev.keyReady = false) :
    Mirrors dev history (events ++ [.read]) := by
  have hwaiting : dev.waitingKey = none := by simp [GoldfishEventsDev.waitingKey, hready]
  have htake := h.take
  rw [hwaiting] at htake
  simp only [Option.toList_none, List.map_nil, List.append_nil] at htake
  refine htake.congr ?_ rfl
  rw [hwaiting]
  simp [GoldfishEventsDev.waitingKey]

theorem Mirrors.dispatch (h : Mirrors dev history events) :
    Mirrors (keyNotifyProcessHandler dev).1
      (history ++ (dequeueNotify dev).toList.map .dequeued) (events ++ [.dispatch]) where
  key := by
    have hkey : (keyNotifyProcessHandler dev).1.waitingKey = dev.waitingKey := by
      rw [keyNotifyProcessHandler]
      split <;> rfl
    simpa [hkey] using h.key
  notify := by
    rw [keyNotifyProcessHandler]
    split <;> simp_all [dequeueNotify, Mailbox.Box.next]
  taken := by
    cases dequeueNotify dev <;> simp [h.taken]
  dequeued := by
    rw [h.notify]
    cases hcontent : (after (notifyEvents events)).content <;>
      simp [Mailbox.Box.next, h.dequeued, hcontent]
  read := by
    cases dequeueNotify dev <;> simp [h.read]
  notified := by
    cases dequeueNotify dev <;> simp [h.notified]

theorem Mirrors.reset (h : Mirrors dev history events) :
    Mirrors dev.clearKeys history (events ++ [.reset]) where
  key := by simp [GoldfishEventsDev.waitingKey, GoldfishEventsDev.clearKeys, Mailbox.Box.next]
  notify := by simp [dequeueNotify, GoldfishEventsDev.clearKeys, Mailbox.Box.next]
  taken := by simp [Mailbox.Box.next, h.taken]
  dequeued := by simp [Mailbox.Box.next, h.dequeued]
  read := by simp [h.read]
  notified := by simp [h.notified]

-- ============================================================================
-- Runs
-- ============================================================================

variable {s s' : KeystrokeState} {actions : List KeystrokeAction}

/-- A read that succeeds takes the key that waits; one that fails with a buffer for its
    result has found none. -/
theorem KeystrokeState.step_read {action : KeystrokeAction} (hstep : s.step action = some s')
    (hread : (∃ key, action = .readKeyStroke key) ∨ ∃ keyData, action = .readKeyStrokeEx keyData) :
    (s.dev.keyReady = true ∧ s.events action = [.read] ∧
      s' = { s with
        dev := { s.dev with keyReady := false }
        epoch := s.epoch ++ [.taken s.dev.key] }) ∨
    ((s.events action = [.read] ∧ s.dev.keyReady = false ∨ s.events action = []) ∧ s' = s) := by
  rcases hread with ⟨key, rfl⟩ | ⟨keyData, rfl⟩
  · cases key with
    | none =>
        obtain rfl := Option.some.inj hstep
        exact .inr ⟨.inr rfl, rfl⟩
    | some key =>
        by_cases hready : s.dev.keyReady = true
        · simp only [KeystrokeState.step, readKeyStroke, hready, if_true] at hstep
          exact .inl ⟨hready, rfl, (Option.some.inj hstep).symm⟩
        · simp only [KeystrokeState.step, readKeyStroke, if_neg hready] at hstep
          exact .inr ⟨.inl ⟨rfl, Bool.eq_false_iff.mpr hready⟩, (Option.some.inj hstep).symm⟩
  · cases keyData with
    | none =>
        obtain rfl := Option.some.inj hstep
        exact .inr ⟨.inr rfl, rfl⟩
    | some keyData =>
        by_cases hready : s.dev.keyReady = true
        · simp only [KeystrokeState.step, readKeyStrokeEx, readKeyStroke, hready, if_true] at hstep
          exact .inl ⟨hready, rfl, (Option.some.inj hstep).symm⟩
        · simp only [KeystrokeState.step, readKeyStrokeEx, readKeyStroke, if_neg hready] at hstep
          exact .inr ⟨.inl ⟨rfl, Bool.eq_false_iff.mpr hready⟩, (Option.some.inj hstep).symm⟩

theorem Mirrors.step_read (h : Mirrors s.dev s.history events) {action : KeystrokeAction}
    (hstep : s.step action = some s')
    (hread : (∃ key, action = .readKeyStroke key) ∨ ∃ keyData, action = .readKeyStrokeEx keyData) :
    Mirrors s'.dev s'.history (events ++ s.events action) := by
  rcases KeystrokeState.step_read hstep hread with
    ⟨hready, hevents, rfl⟩ | ⟨⟨hevents, hready⟩ | hevents, rfl⟩
  · have htake := h.take
    rw [hevents]
    simpa [KeystrokeState.history, GoldfishEventsDev.waitingKey, hready] using htake
  · rw [hevents]
    exact h.miss hready
  · rwa [hevents, List.append_nil]

theorem Mirrors.step (h : Mirrors s.dev s.history events) {action : KeystrokeAction}
    (hstep : s.step action = some s') : Mirrors s'.dev s'.history (events ++ s.events action) := by
  have hnothing : events ++ ([] : List KeyboardEvent) = events := List.append_nil events
  cases action with
  | arrive words =>
      obtain rfl := Option.some.inj hstep
      rwa [KeystrokeState.events, hnothing]
  | poll haveNotify =>
      obtain rfl := Option.some.inj hstep
      have hpoll := h.poll haveNotify s.fifo
      simpa [KeystrokeState.events, KeystrokeState.history] using hpoll
  | readKeyStroke key => exact h.step_read hstep (.inl ⟨key, rfl⟩)
  | readKeyStrokeEx keyData => exact h.step_read hstep (.inr ⟨keyData, rfl⟩)
  | reset =>
      obtain rfl := Option.some.inj hstep
      have hreset := h.reset
      simpa [KeystrokeState.events, KeystrokeState.history, goldfishEventsReset] using hreset
  | registerKeyNotify keyData fn notifyHandle newNotify =>
      obtain rfl := Option.some.inj hstep
      rw [KeystrokeState.events, hnothing]
      exact h.congr rfl rfl
  | unregisterKeyNotify handle =>
      obtain rfl := Option.some.inj hstep
      rw [KeystrokeState.events, hnothing]
      exact h.congr rfl rfl
  | dispatch =>
      obtain rfl := Option.some.inj hstep
      have hdispatch := h.dispatch
      simpa [KeystrokeState.events, KeystrokeState.history] using hdispatch

theorem mirrors_of_run (hrun : run KeystrokeState.step .initial actions = some s) :
    Mirrors s.dev s.history (keyboardEvents actions) := by
  have hmirrors : Mirrors s.dev s.history ([] ++ keyboardEvents actions) :=
    run_emitted (fun s events => Mirrors s.dev s.history events)
      (fun _ _ _ _ h hstep => h.step hstep) hrun mirrors_initial
  rwa [List.nil_append] at hmirrors

/-- In every run from initialisation, the keys that were read and the key data that was
    dequeued are what was taken from the two mailboxes, and every decoded press was
    taken from each, or is still in it, or was lost there to a later press or a Reset. -/
theorem keystrokes_refine_mailboxes
    (hrun : run KeystrokeState.step .initial actions = some s) :
    takenIn s.history = (after (readerEvents (keyboardEvents actions))).taken.map Press.key ∧
    dequeuedIn s.history
      = (after (notifyEvents (keyboardEvents actions))).taken.map Press.keyData ∧
    ∀ box ∈ [after (readerEvents (keyboardEvents actions)),
        after (notifyEvents (keyboardEvents actions))],
      (pressesIn s.history).Perm (box.taken ++ box.lost ++ box.content.toList) := by
  have h := mirrors_of_run hrun
  refine ⟨h.taken, h.dequeued, ?_⟩
  intro box hbox
  rcases List.mem_pair.mp hbox with rfl | rfl
  · rw [← h.read]
    exact Mailbox.puts_perm _
  · rw [← h.notified]
    exact Mailbox.puts_perm _

/-- After every run from initialisation, the last thing that happened to a buffer tells
    what it answers.  A read returns a key exactly if that was a press, and then the key
    of this press; `ReadKeyStrokeEx` adds the present modifier flags, and the
    notification handler passes the flags of the press. -/
theorem keyboard_answers_last_press
    (hrun : run KeystrokeState.step .initial actions = some s) (key : EfiInputKey)
    (keyData : EfiKeyData) :
    (match lastPut (readerEvents (keyboardEvents actions)) with
      | some p =>
        readKeyStroke s.dev (some key)
            = (.success, { s.dev with keyReady := false }, some p.key) ∧
          readKeyStrokeEx s.dev (some keyData)
            = (.success, { s.dev with keyReady := false },
                some ⟨p.key, buildKeyState s.dev.toModifiers⟩)
      | none =>
        readKeyStroke s.dev (some key) = (.notReady, s.dev, some key) ∧
          readKeyStrokeEx s.dev (some keyData) = (.notReady, s.dev, some keyData)) ∧
    (keyNotifyProcessHandler s.dev).2
      = match lastPut (notifyEvents (keyboardEvents actions)) with
        | some p =>
          (s.dev.notifyList.filter fun entry => isKeyRegistered entry.keyData p.keyData).map
            fun entry => { entry, keyData := p.keyData }
        | none => [] := by
  have h := mirrors_of_run hrun
  refine ⟨?_, ?_⟩
  · have hkey := h.key
    rw [Mailbox.content_after] at hkey
    cases hlast : lastPut (readerEvents (keyboardEvents actions)) with
    | none =>
        have hready : s.dev.keyReady = false := by
          simpa [hlast, GoldfishEventsDev.waitingKey] using hkey
        simp [readKeyStrokeEx, readKeyStroke, hready]
    | some p =>
        obtain ⟨hready, hpress⟩ : s.dev.keyReady = true ∧ s.dev.key = p.key := by
          simpa [hlast, GoldfishEventsDev.waitingKey] using hkey
        simp [readKeyStrokeEx, readKeyStroke, hready, hpress]
  · have hnotify := h.notify
    rw [Mailbox.content_after] at hnotify
    cases hlast : lastPut (notifyEvents (keyboardEvents actions)) with
    | none =>
        have hready : s.dev.notifyKeyReady = false := by
          simpa [hlast, dequeueNotify] using hnotify
        simp [keyNotifyProcessHandler, hready]
    | some p =>
        obtain ⟨hready, hpress⟩ : s.dev.notifyKeyReady = true ∧ s.dev.notifyKeyData = p.keyData := by
          simpa [hlast, dequeueNotify] using hnotify
        simp [keyNotifyProcessHandler, hready, hpress]

/-- Two letters arrive before one poll, and Reset comes between two reads. -/
def letterRun : List KeystrokeAction :=
  [.arrive [1, 30, 1, 1, 30, 0, 1, 48, 1], .poll false, .readKeyStroke (some .null), .dispatch,
    .arrive [1, 46, 1], .poll false, .reset, .readKeyStroke (some .null)]

theorem keystrokes_refine_mailboxes_letters :
    ∃ s, run KeystrokeState.step .initial letterRun = some s ∧
      takenIn s.history = (after (readerEvents (keyboardEvents letterRun))).taken.map Press.key ∧
      (pressesIn s.history).length = 3 ∧ (takenIn s.history).length = 1 ∧
      (after (readerEvents (keyboardEvents letterRun))).lost.length = 2 := by
  have hrun : run KeystrokeState.step .initial letterRun = some _ := rfl
  exact ⟨_, hrun, (keystrokes_refine_mailboxes hrun).1, rfl, rfl, rfl⟩

theorem keyboard_answers_last_press_letters :
    ∃ s p, run KeystrokeState.step .initial (letterRun.take 2) = some s ∧
      readKeyStroke s.dev (some .null)
        = (.success, { s.dev with keyReady := false }, some (Press.key p)) ∧
      p.key.unicodeChar = 0x62 := by
  have hrun : run KeystrokeState.step .initial (letterRun.take 2) = some _ := rfl
  have hanswers := keyboard_answers_last_press hrun .null ⟨.null, ⟨0, 0⟩⟩
  exact ⟨_, ⟨⟨0x62, 0x62⟩, ⟨false, false, false⟩⟩, hrun, hanswers.1.1, rfl⟩

end UemuPkg
