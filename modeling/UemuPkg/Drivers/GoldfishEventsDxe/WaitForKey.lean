/-
  UemuPkg.Drivers.GoldfishEventsDxe.WaitForKey

  The events `WaitForKey` and `WaitForKeyEx`.  Their flags are set by the timer and by
  their own notify function, each time behind a test of `KeyReady`; but a key that is read
  or cleared leaves a flag behind, and the next `CheckEvent` reports a key that is gone.
-/

import Mathlib.Logic.Function.Basic
import UemuPkg.Drivers.GoldfishEventsDxe.KeystrokeHistory

namespace UemuPkg

open Run (run AllSteps Always)

-- ============================================================================
-- The events
-- ============================================================================

/-- The two events of type `EVT_NOTIFY_WAIT`. -/
inductive WaitEvent where
  | waitForKey
  | waitForKeyEx
  deriving DecidableEq

/-- The driver, its device and the flags of the events. -/
structure WaitState where
  dev : GoldfishEventsDev
  fifo : List UINT32
  /-- `SignalEvent` has been called, and no `CheckEvent` has seen it. -/
  pending : WaitEvent → Bool

/-- `gBS->SignalEvent` -/
def WaitState.signalEvent (s : WaitState) (event : WaitEvent) : WaitState :=
  { s with pending := Function.update s.pending event true }

/-- `CheckEvent` consumes the flag that it reports. -/
def WaitState.consumeEvent (s : WaitState) (event : WaitEvent) : WaitState :=
  { s with pending := Function.update s.pending event false }

/-- `PollKeyboard`, with what its uninitialised local holds. -/
def WaitState.poll (s : WaitState) (haveNotify : Bool) : WaitState :=
  let polled := pollKeyboard s.dev haveNotify s.fifo
  { s with dev := polled.dev, fifo := polled.fifo }

/-- `KeyboardTimerHandler` -/
def keyboardTimerHandler (s : WaitState) (haveNotify : Bool) : WaitState :=
  let s := s.poll haveNotify
  if s.dev.keyReady then
    (s.signalEvent .waitForKey).signalEvent .waitForKeyEx
  else
    s

/-- `GoldfishEventsWaitForKey`, to which `GoldfishEventsWaitForKeyEx` delegates. -/
def goldfishEventsWaitForKey (s : WaitState) (event : WaitEvent) (haveNotify : Bool) : WaitState :=
  let s := s.poll haveNotify
  if s.dev.keyReady then s.signalEvent event else s

/-- `gBS->CheckEvent`: whether it reports the event signalled.  The notify function of the
    event runs first if the flag is not set. -/
def checkEvent (s : WaitState) (event : WaitEvent) (haveNotify : Bool) : Bool × WaitState :=
  if s.pending event then
    (true, s.consumeEvent event)
  else
    let s := goldfishEventsWaitForKey s event haveNotify
    if s.pending event then
      (true, s.consumeEvent event)
    else
      (false, s)

inductive WaitAction where
  /-- The device appends any words. -/
  | arrive (words : List UINT32)
  /-- `KeyboardTimerHandler` -/
  | tick (haveNotify : Bool)
  | readKeyStroke (key : Option EfiInputKey)
  | readKeyStrokeEx (keyData : Option EfiKeyData)
  | reset
  | checkEvent (event : WaitEvent) (haveNotify : Bool)

/-- One call, which runs to its end. -/
def WaitState.step (s : WaitState) : WaitAction → Option WaitState
  | .arrive words => some { s with fifo := s.fifo ++ words }
  | .tick haveNotify => some (keyboardTimerHandler s haveNotify)
  | .readKeyStroke key => some { s with dev := (UemuPkg.readKeyStroke s.dev key).2.1 }
  | .readKeyStrokeEx keyData => some { s with dev := (UemuPkg.readKeyStrokeEx s.dev keyData).2.1 }
  | .reset =>
    let cleared := goldfishEventsReset s.dev s.fifo
    some { s with dev := cleared.1, fifo := cleared.2 }
  | .checkEvent event haveNotify => some (UemuPkg.checkEvent s event haveNotify).2

/-- After initialisation. -/
def WaitState.initial : WaitState where
  dev := idleDev
  fifo := []
  pending _ := false

-- ============================================================================
-- KeyReady
-- ============================================================================

variable {s s' : WaitState} {event : WaitEvent}

/-- A poll takes no key away. -/
theorem WaitState.poll_keyReady (haveNotify : Bool) (h : s.dev.keyReady = true) :
    (s.poll haveNotify).dev.keyReady = true := by
  show (pollLoop s.dev haveNotify s.fifo).1.keyReady = true
  apply @pollLoop_keeps (fun dev _ => dev.keyReady = true) ?_ s.dev haveNotify s.fifo [] h
  intro dev ps type code value hready
  rcases pollRecord_cases dev type code value with ⟨p, -, hrecord⟩ | ⟨-, modifiers, hrecord⟩
  · rw [hrecord]
  · rw [hrecord]
    exact hready

/-- A read with a buffer takes the key, if there is one. -/
theorem readKeyStroke_keyReady (dev : GoldfishEventsDev) (key : EfiInputKey) :
    (readKeyStroke dev (some key)).2.1.keyReady = false := by
  rw [readKeyStroke]
  cases hready : dev.keyReady with
  | true => rfl
  | false => exact hready

theorem readKeyStrokeEx_keyReady (dev : GoldfishEventsDev) (keyData : EfiKeyData) :
    (readKeyStrokeEx dev (some keyData)).2.1.keyReady = false := by
  rcases readKeyStrokeEx_cases dev (some keyData) with
    ⟨-, -, hread⟩ | ⟨hnot, status, -, hread⟩
  · rw [hread]
  · rw [hread]
    exact hnot rfl

/-- What a `CheckEvent` does: it reports a flag without another look at `KeyReady`, or
    polls and reports what it finds. -/
theorem checkEvent_cases (s : WaitState) (event : WaitEvent) (haveNotify : Bool) :
    (s.pending event = true ∧
      checkEvent s event haveNotify = (true, s.consumeEvent event)) ∨
    (s.pending event = false ∧ (s.poll haveNotify).dev.keyReady = true ∧
      checkEvent s event haveNotify
        = (true, ((s.poll haveNotify).signalEvent event).consumeEvent event)) ∨
    (s.pending event = false ∧ (s.poll haveNotify).dev.keyReady = false ∧
      checkEvent s event haveNotify = (false, s.poll haveNotify)) := by
  rw [checkEvent, goldfishEventsWaitForKey]
  cases hpending : s.pending event with
  | true => exact .inl ⟨rfl, if_pos rfl⟩
  | false =>
      right
      dsimp only
      rw [if_neg Bool.false_ne_true]
      cases hready : (s.poll haveNotify).dev.keyReady with
      | true =>
          have hsignalled : ((s.poll haveNotify).signalEvent event).pending event = true := by
            show Function.update (s.poll haveNotify).pending event true event = true
            rw [Function.update_self]
          rw [if_pos rfl, if_pos hsignalled]
          exact .inl ⟨rfl, rfl, rfl⟩
      | false =>
          have hclear : ¬ (s.poll haveNotify).pending event = true :=
            Bool.eq_false_iff.mp hpending
          rw [if_neg Bool.false_ne_true, if_neg hclear]
          exact .inr ⟨rfl, rfl, rfl⟩

-- ============================================================================
-- The flag and the key
-- ============================================================================

/-- If `CheckEvent` reports `WaitForKey` here, an immediately following `ReadKeyStroke`
    returns a key. -/
def KeyBehindSignal (s : WaitState) : Prop :=
  ∀ haveNotify s', checkEvent s .waitForKey haveNotify = (true, s') →
    ∀ key, (readKeyStroke s'.dev (some key)).1 = .success

/-- The call takes no key away while `WaitForKey` is signalled. -/
def KeepsSignalledKey (s : WaitState) : WaitAction → Prop
  | .readKeyStroke (some _) => s.pending .waitForKey = false
  | .readKeyStrokeEx (some _) => s.pending .waitForKey = false
  | .reset => s.pending .waitForKey = false
  | _ => True

theorem keyBehindSignal_iff (s : WaitState) :
    KeyBehindSignal s ↔ (s.pending .waitForKey = true → s.dev.keyReady = true) := by
  have hread : ∀ (dev : GoldfishEventsDev) (key : EfiInputKey),
      (readKeyStroke dev (some key)).1 = .success ↔ dev.keyReady = true := by
    intro dev key
    rw [readKeyStroke]
    cases dev.keyReady with
    | true => exact iff_of_true rfl rfl
    | false =>
        have hne : EfiStatus.notReady ≠ .success := by decide
        exact iff_of_false hne Bool.false_ne_true
  constructor
  · intro h hpending
    have hreport : checkEvent s .waitForKey false = (true, s.consumeEvent .waitForKey) :=
      if_pos hpending
    exact (hread s.dev .null).mp (h false _ hreport .null)
  · intro h haveNotify s' hreport key
    rw [hread]
    rcases checkEvent_cases s .waitForKey haveNotify with
      ⟨hpending, hcheck⟩ | ⟨-, hready, hcheck⟩ | ⟨-, -, hcheck⟩
    · rw [hcheck] at hreport
      obtain rfl := (Prod.mk.inj hreport).2
      exact h hpending
    · rw [hcheck] at hreport
      obtain rfl := (Prod.mk.inj hreport).2
      exact hready
    · rw [hcheck] at hreport
      cases (Prod.mk.inj hreport).1

/-- Where the key is gone, the flag must be too. -/
theorem keyBehindSignal_of_taken (hready : s'.dev.keyReady = false)
    (hpending : s'.pending = s.pending) :
    KeyBehindSignal s' ↔ s.pending .waitForKey = false := by
  rw [keyBehindSignal_iff, hready, hpending]
  cases s.pending .waitForKey with
  | true => decide
  | false => decide

/-- A poll keeps the key behind the flag. -/
theorem KeyBehindSignal.poll (h : KeyBehindSignal s) (haveNotify : Bool) :
    KeyBehindSignal (s.poll haveNotify) := by
  rw [keyBehindSignal_iff] at h ⊢
  intro hpending
  exact WaitState.poll_keyReady haveNotify (h hpending)

/-- The timer sets the flags only for a key that is there. -/
theorem KeyBehindSignal.keyboardTimerHandler (h : KeyBehindSignal s) (haveNotify : Bool) :
    KeyBehindSignal (keyboardTimerHandler s haveNotify) := by
  rw [UemuPkg.keyboardTimerHandler]
  by_cases hready : (s.poll haveNotify).dev.keyReady = true
  · rw [if_pos hready]
    apply (keyBehindSignal_iff _).mpr
    exact fun _ => hready
  · rw [if_neg hready]
    exact h.poll haveNotify

/-- No `CheckEvent` leaves a flag without a key. -/
theorem KeyBehindSignal.checkEvent (h : KeyBehindSignal s) (event : WaitEvent)
    (haveNotify : Bool) : KeyBehindSignal (checkEvent s event haveNotify).2 := by
  have hconsume : ∀ t : WaitState, KeyBehindSignal t → KeyBehindSignal (t.consumeEvent event) := by
    intro t ht
    rw [keyBehindSignal_iff] at ht ⊢
    intro hpending
    rw [WaitState.consumeEvent] at hpending
    by_cases hevent : event = .waitForKey
    · rw [hevent] at hpending
      exact absurd hpending (by simp)
    · exact ht (by simpa [Function.update_of_ne (Ne.symm hevent)] using hpending)
  rcases checkEvent_cases s event haveNotify with
    ⟨-, hcheck⟩ | ⟨-, hready, hcheck⟩ | ⟨-, -, hcheck⟩
  · rw [hcheck]
    exact hconsume s h
  · rw [hcheck]
    exact hconsume _ ((keyBehindSignal_iff _).mpr fun _ => hready)
  · rw [hcheck]
    exact h.poll haveNotify

/-- One call, with a key behind the flag before it. -/
theorem KeyBehindSignal.step_iff (h : KeyBehindSignal s) {action : WaitAction}
    (hstep : s.step action = some s') : KeyBehindSignal s' ↔ KeepsSignalledKey s action := by
  cases action with
  | arrive words =>
      obtain rfl := Option.some.inj hstep
      apply iff_of_true ?_ trivial
      exact (keyBehindSignal_iff _).mpr ((keyBehindSignal_iff s).mp h)
  | tick haveNotify =>
      obtain rfl := Option.some.inj hstep
      exact iff_of_true (h.keyboardTimerHandler haveNotify) trivial
  | readKeyStroke key =>
      obtain rfl := Option.some.inj hstep
      cases key with
      | none => exact iff_of_true h trivial
      | some key => exact keyBehindSignal_of_taken (readKeyStroke_keyReady s.dev key) rfl
  | readKeyStrokeEx keyData =>
      obtain rfl := Option.some.inj hstep
      cases keyData with
      | none => exact iff_of_true h trivial
      | some keyData => exact keyBehindSignal_of_taken (readKeyStrokeEx_keyReady s.dev keyData) rfl
  | reset =>
      obtain rfl := Option.some.inj hstep
      exact keyBehindSignal_of_taken rfl rfl
  | checkEvent event haveNotify =>
      obtain rfl := Option.some.inj hstep
      exact iff_of_true (h.checkEvent event haveNotify) trivial

-- ============================================================================
-- Runs
-- ============================================================================

/-- In every state of a run a reported `WaitForKey` means a key, exactly if no read and no
    Reset takes a key away while the event is signalled. -/
theorem keyBehindSignal_always_iff {actions : List WaitAction} {s : WaitState}
    (hrun : run WaitState.step .initial actions = some s) :
    Always WaitState.step KeyBehindSignal .initial actions ↔
      AllSteps WaitState.step KeepsSignalledKey .initial actions := by
  apply Run.always_iff_allSteps KeyBehindSignal ?_ ?_ hrun
  · exact (keyBehindSignal_iff _).mpr nofun
  · exact fun _ _ _ h hkeeps hstep => (h.step_iff hstep).mpr hkeeps
  · exact fun _ _ _ h hkeeps hstep => mt (h.step_iff hstep).mp hkeeps

/-- A press, found by the timer; the event is checked, and then the key is read. -/
theorem keyBehindSignal_always_iff_check_first :
    Always WaitState.step KeyBehindSignal .initial
        [.arrive [1, 30, 1], .tick false, .checkEvent .waitForKey false,
          .readKeyStroke (some .null)] ↔
      AllSteps WaitState.step KeepsSignalledKey .initial
        [.arrive [1, 30, 1], .tick false, .checkEvent .waitForKey false,
          .readKeyStroke (some .null)] := by
  have hrun : run WaitState.step .initial
      [.arrive [1, 30, 1], .tick false, .checkEvent .waitForKey false,
        .readKeyStroke (some .null)] = some _ := rfl
  exact keyBehindSignal_always_iff hrun

/-- A press, found by the timer and read at once: the next `CheckEvent` reports the event,
    and no key is there. -/
theorem checkEvent_reports_taken_key :
    ∃ s s', run WaitState.step .initial
        [.arrive [1, 30, 1], .tick false, .readKeyStroke (some .null)] = some s ∧
      checkEvent s .waitForKey false = (true, s') ∧
      (readKeyStroke s'.dev (some .null)).1 = .notReady ∧ ¬ KeyBehindSignal s := by
  refine ⟨_, _, rfl, rfl, rfl, ?_⟩
  intro h
  have hread := h false _ rfl .null
  cases hread

end UemuPkg
