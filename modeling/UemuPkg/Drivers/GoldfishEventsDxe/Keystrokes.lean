/-
  UemuPkg.Drivers.GoldfishEventsDxe.Keystrokes

  The keyboard under all its callers: polls, both read functions, Reset, the
  registration of notifications and their dispatch, in any order and on any words.
  The state keeps a history of the presses that were decoded and of the keys that were
  handed out, cut at each Reset.
-/

import UemuPkg.Drivers.GoldfishEventsDxe.NotifyList
import UemuPkg.Drivers.GoldfishEventsDxe.ResetFraming
import UemuPkg.Generic.Run

namespace UemuPkg

-- ============================================================================
-- Reset and the read functions
-- ============================================================================

/-- The loop of `GoldfishEventsReset` over the words in the event register: the words
    left. -/
def drainLoop : List UINT32 → List UINT32
  | [] => []
  | [_] => []
  | [type, code] => if type = 0 then [code] else []
  | type :: code :: value :: rest =>
    if type = 0 then code :: value :: rest else drainLoop rest

/-- `GoldfishEventsReset`: the device state and the words left. -/
def goldfishEventsReset (dev : GoldfishEventsDev) (fifo : List UINT32) :
    GoldfishEventsDev × List UINT32 :=
  (dev.clearKeys, drainLoop fifo)

/-- `GoldfishEventsReadKeyStroke`: the status, the device state and `*Key`. -/
def readKeyStroke (dev : GoldfishEventsDev) (key : Option EfiInputKey) :
    EfiStatus × GoldfishEventsDev × Option EfiInputKey :=
  match key with
  | none => (.invalidParameter, dev, none)
  | some _ =>
    if dev.keyReady then
      (.success, { dev with keyReady := false }, some dev.key)
    else
      (.notReady, dev, key)

/-- `GoldfishEventsReadKeyStrokeEx`: the status, the device state and `*KeyData`. -/
def readKeyStrokeEx (dev : GoldfishEventsDev) (keyData : Option EfiKeyData) :
    EfiStatus × GoldfishEventsDev × Option EfiKeyData :=
  match keyData with
  | none => (.invalidParameter, dev, none)
  | some _ =>
    match readKeyStroke dev (some .null) with
    | (.success, dev, some key) =>
      (.success, dev, some { key, keyState := buildKeyState dev.toModifiers })
    | (status, dev, _) => (status, dev, keyData)

/-- The key data that `KeyNotifyProcessHandler` takes from the notify queue. -/
def dequeueNotify (dev : GoldfishEventsDev) : Option EfiKeyData :=
  if dev.notifyKeyReady then some dev.notifyKeyData else none

-- ============================================================================
-- Presses
-- ============================================================================

/-- A press that decodes to a key, with the modifier flags at that moment. -/
structure Press where
  key : EfiInputKey
  modifiers : Modifiers
  deriving DecidableEq

def Press.keyData (p : Press) : EfiKeyData := ⟨p.key, buildKeyState p.modifiers⟩

/-- The press that a record is, if it decodes to a key. -/
def pressOf (m : Modifiers) (type code value : UINT32) : Option Press :=
  if type ≠ EV_KEY then
    none
  else
    let converted := convertKeyCode m (code.setWidth 16) (value == 1)
    if converted.2 = .null then none else some ⟨converted.2, converted.1⟩

/-- The presses that a poll decodes. -/
def pollPresses (dev : GoldfishEventsDev) : List UINT32 → List Press
  | [] => []
  | [type] => if type = 0 then [] else (pressOf dev.toModifiers type 0 0).toList
  | [type, code] => if type = 0 then [] else (pressOf dev.toModifiers type code 0).toList
  | type :: code :: value :: rest =>
    if type = 0 then
      []
    else
      (pressOf dev.toModifiers type code value).toList
        ++ pollPresses (pollRecord dev type code value).1 rest

/-- Only a key record of value 1 is a press. -/
theorem pressOf_eq_some {m : Modifiers} {type code value : UINT32} {p : Press}
    (h : pressOf m type code value = some p) : type = EV_KEY ∧ value = 1 ∧ p.key ≠ .null := by
  rw [pressOf] at h
  split at h
  · cases h
  · rename_i htype
    dsimp only at h
    split at h
    · cases h
    · rename_i hkey
      obtain rfl := Option.some.inj h
      refine ⟨Decidable.of_not_not htype, Decidable.of_not_not fun hvalue => hkey ?_, hkey⟩
      rw [beq_eq_false_iff_ne.mpr hvalue]
      rfl

/-- A press fills both buffers; any other record leaves them as they are. -/
theorem pollRecord_cases (dev : GoldfishEventsDev) (type code value : UINT32) :
    (∃ p, pressOf dev.toModifiers type code value = some p ∧
      (pollRecord dev type code value).1 =
        { dev with
          toModifiers := p.modifiers
          key := p.key
          keyReady := true
          notifyKeyData := p.keyData
          notifyKeyReady := true }) ∨
    (pressOf dev.toModifiers type code value = none ∧
      ∃ modifiers, (pollRecord dev type code value).1 = { dev with toModifiers := modifiers }) := by
  rw [pollRecord_eq, pressOf]
  by_cases htype : type = EV_KEY
  · rw [if_neg (not_not_intro htype), if_neg (not_not_intro htype)]
    dsimp only
    by_cases hkey : (convertKeyCode dev.toModifiers (code.setWidth 16) (value == 1)).2 = .null
    · rw [if_pos hkey, if_pos ((EfiInputKey.eq_null_iff _).mp hkey)]
      exact .inr ⟨rfl, _, rfl⟩
    · rw [if_neg hkey, if_neg (mt (EfiInputKey.eq_null_iff _).mpr hkey)]
      exact .inl ⟨_, rfl, rfl⟩
  · rw [if_pos htype, if_pos htype]
    exact .inr ⟨rfl, dev.toModifiers, rfl⟩

/-- What each record of a poll keeps, the poll keeps. -/
theorem pollLoop_keeps (inv : GoldfishEventsDev → List Press → Prop)
    (hrecord : ∀ dev ps type code value, inv dev ps →
      inv (pollRecord dev type code value).1
        (ps ++ (pressOf dev.toModifiers type code value).toList))
    (dev : GoldfishEventsDev) (haveNotify : Bool) (fifo : List UINT32) {ps : List Press}
    (h : inv dev ps) : inv (pollLoop dev haveNotify fifo).1 (ps ++ pollPresses dev fifo) := by
  fun_induction pollLoop dev haveNotify fifo generalizing ps with
  | case1 dev haveNotify => rwa [pollPresses, List.append_nil]
  | case2 dev haveNotify => rwa [pollPresses, if_pos rfl, List.append_nil]
  | case3 dev haveNotify type hne =>
      rw [pollPresses, if_neg hne]
      exact hrecord dev ps type 0 0 h
  | case4 dev haveNotify code => rwa [pollPresses, if_pos rfl, List.append_nil]
  | case5 dev haveNotify type code hne =>
      rw [pollPresses, if_neg hne]
      exact hrecord dev ps type code 0 h
  | case6 dev haveNotify code value rest => rwa [pollPresses, if_pos rfl, List.append_nil]
  | case7 dev haveNotify type code value rest hne polled =>
      rename_i ih
      rw [pollPresses, if_neg hne, ← List.append_assoc]
      exact ih (hrecord dev ps type code value h)

-- ============================================================================
-- The system
-- ============================================================================

/-- What a keystroke goes through. -/
inductive KeyEvent where
  /-- `PollKeyboard` has decoded a press to a key. -/
  | pressed (p : Press)
  /-- A read function has returned the key with `EFI_SUCCESS`. -/
  | taken (key : EfiInputKey)
  /-- `KeyNotifyProcessHandler` has dequeued the key data. -/
  | dequeued (keyData : EfiKeyData)

/-- The driver, its device and its history: the events since the last Reset, and those
    between the Resets before. -/
structure KeystrokeState where
  dev : GoldfishEventsDev
  fifo : List UINT32
  /-- `Dev->NotifyList` as it is in memory. -/
  notifyList : List NotifyEntry
  past : List (List KeyEvent)
  epoch : List KeyEvent

inductive KeystrokeAction where
  /-- The device appends any words. -/
  | arrive (words : List UINT32)
  /-- `PollKeyboard`, with what its uninitialised local holds. -/
  | poll (haveNotify : Bool)
  | readKeyStroke (key : Option EfiInputKey)
  | readKeyStrokeEx (keyData : Option EfiKeyData)
  | reset
  | registerKeyNotify (keyData : Option KeyDataBytes) (keyNotificationFunction : UINT64)
      (notifyHandle : Option UINT64) (newNotify : UINT64)
  | unregisterKeyNotify (notificationHandle : UINT64)
  /-- `KeyNotifyProcessHandler` -/
  | dispatch

/-- One call, which runs to its end. -/
def KeystrokeState.step (s : KeystrokeState) : KeystrokeAction → Option KeystrokeState
  | .arrive words => some { s with fifo := s.fifo ++ words }
  | .poll haveNotify =>
    let polled := pollKeyboard s.dev haveNotify s.fifo
    some { s with
      dev := polled.dev
      fifo := polled.fifo
      epoch := s.epoch ++ (pollPresses s.dev s.fifo).map .pressed }
  | .readKeyStroke key =>
    match readKeyStroke s.dev key with
    | (.success, dev, some key) => some { s with dev, epoch := s.epoch ++ [.taken key] }
    | (_, dev, _) => some { s with dev }
  | .readKeyStrokeEx keyData =>
    match readKeyStrokeEx s.dev keyData with
    | (.success, dev, some keyData) => some { s with dev, epoch := s.epoch ++ [.taken keyData.key] }
    | (_, dev, _) => some { s with dev }
  | .reset =>
    let cleared := goldfishEventsReset s.dev s.fifo
    some { s with
      dev := cleared.1
      fifo := cleared.2
      past := s.past ++ [s.epoch]
      epoch := [] }
  | .registerKeyNotify keyData fn notifyHandle newNotify =>
    let result := registerKeyNotify s.notifyList keyData fn notifyHandle newNotify
    some { s with
      dev := { s.dev with notifyList := result.notifyList.map NotifyEntry.toNotify }
      notifyList := result.notifyList }
  | .unregisterKeyNotify handle =>
    let result := unregisterKeyNotify s.notifyList handle
    some { s with
      dev := { s.dev with notifyList := result.2.map NotifyEntry.toNotify }
      notifyList := result.2 }
  | .dispatch =>
    some { s with
      dev := (keyNotifyProcessHandler s.dev).1
      epoch := s.epoch ++ (dequeueNotify s.dev).toList.map .dequeued }

/-- After initialisation. -/
def KeystrokeState.initial : KeystrokeState where
  dev := idleDev
  fifo := []
  notifyList := []
  past := []
  epoch := []

/-- The presses of a history. -/
def pressesIn (events : List KeyEvent) : List Press :=
  events.filterMap fun
    | .pressed p => some p
    | _ => none

/-- The keys returned by the read functions. -/
def takenIn (events : List KeyEvent) : List EfiInputKey :=
  events.filterMap fun
    | .taken key => some key
    | _ => none

/-- The key data dequeued for the registered functions. -/
def dequeuedIn (events : List KeyEvent) : List EfiKeyData :=
  events.filterMap fun
    | .dequeued keyData => some keyData
    | _ => none

@[simp] theorem pressesIn_append (xs ys : List KeyEvent) :
    pressesIn (xs ++ ys) = pressesIn xs ++ pressesIn ys := List.filterMap_append

@[simp] theorem takenIn_append (xs ys : List KeyEvent) :
    takenIn (xs ++ ys) = takenIn xs ++ takenIn ys := List.filterMap_append

@[simp] theorem dequeuedIn_append (xs ys : List KeyEvent) :
    dequeuedIn (xs ++ ys) = dequeuedIn xs ++ dequeuedIn ys := List.filterMap_append

end UemuPkg
