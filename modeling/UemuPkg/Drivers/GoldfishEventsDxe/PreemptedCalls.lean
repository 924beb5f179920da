/-
  UemuPkg.Drivers.GoldfishEventsDxe.PreemptedCalls

  The functions of the keyboard as they are preempted.  `Keystrokes` takes each call to run
  to its end; here the calls are made of single accesses to the driver's memory, and
  between any two of them the timer may poll the device, unless the TPL is `TPL_NOTIFY`, and
  the registered functions may be called, unless it is `TPL_CALLBACK`.  `RaiseTPL` makes the
  read functions, the registration and the dispatch of notifications behave as single
  steps.  Reset takes no such care, and has no part here.

  A poll runs at `TPL_NOTIFY` on the words that are there when it begins, and the registered
  functions do not call the driver.  What preempts the calls is recorded, in the order in
  which it takes effect.
-/

import UemuPkg.Drivers.GoldfishEventsDxe.Initialize
import UemuPkg.Drivers.GoldfishEventsDxe.KeyNotify
import UemuPkg.Drivers.GoldfishEventsDxe.KeystrokeHistory
import UemuPkg.Generic.Preemption

namespace UemuPkg

open Effects (Program)
open Preemption (Code World Executes atPresent atLevel raise restore)
open Run (run)

-- ============================================================================
-- Accesses
-- ============================================================================

/-- The memory of the driver, and the words in its device. -/
structure KeyboardMemory where
  dev : GoldfishEventsDev
  fifo : List UINT32
  notifyList : List NotifyEntry

def KeystrokeState.memory (s : KeystrokeState) : KeyboardMemory := ⟨s.dev, s.fifo, s.notifyList⟩

/-- Accesses to the fields of `GOLDFISH_EVENTS_DEV`. -/
inductive DevAccess where
  | loadKeyReady
  | loadKey
  | storeKeyReady (value : Bool)
  | loadKeyShift
  | loadKeyCtrl
  | loadKeyAlt
  | loadNotifyKeyReady
  | loadNotifyKeyData
  | storeNotifyKeyReady (value : Bool)
  /-- A walk over `NotifyList` by the functions that search it. -/
  | loadNotifyList
  /-- The same by the handler, which reads the fields of the entries. -/
  | walkNotifyList
  | storeNotifyList (notifyList : List NotifyEntry)

def DevAccess.Result : DevAccess → Type
  | .loadKeyReady | .loadKeyShift | .loadKeyCtrl | .loadKeyAlt | .loadNotifyKeyReady => Bool
  | .loadKey => EfiInputKey
  | .loadNotifyKeyData => EfiKeyData
  | .loadNotifyList => List NotifyEntry
  | .walkNotifyList => List GoldfishEventsNotify
  | .storeKeyReady _ | .storeNotifyKeyReady _ | .storeNotifyList _ => Unit

def KeyboardMemory.answer (m : KeyboardMemory) : (e : DevAccess) → e.Result × KeyboardMemory
  | .loadKeyReady => (m.dev.keyReady, m)
  | .loadKey => (m.dev.key, m)
  | .storeKeyReady value => ((), { m with dev := { m.dev with keyReady := value } })
  | .loadKeyShift => (m.dev.keyShift, m)
  | .loadKeyCtrl => (m.dev.keyCtrl, m)
  | .loadKeyAlt => (m.dev.keyAlt, m)
  | .loadNotifyKeyReady => (m.dev.notifyKeyReady, m)
  | .loadNotifyKeyData => (m.dev.notifyKeyData, m)
  | .storeNotifyKeyReady value => ((), { m with dev := { m.dev with notifyKeyReady := value } })
  | .loadNotifyList => (m.notifyList, m)
  | .walkNotifyList => (m.dev.notifyList, m)
  | .storeNotifyList notifyList =>
    ((), { m with
      dev := { m.dev with notifyList := notifyList.map NotifyEntry.toNotify }
      notifyList })

abbrev DevM := Program DevAccess DevAccess.Result

/-- A function of the driver, with its changes of the TPL. -/
abbrev KeyboardCode := Code DevAccess DevAccess.Result

def loadKeyReady : DevM Bool := Program.perform DevAccess.loadKeyReady
def loadKey : DevM EfiInputKey := Program.perform DevAccess.loadKey
def storeKeyReady (value : Bool) : DevM Unit := Program.perform (DevAccess.storeKeyReady value)
def loadKeyShift : DevM Bool := Program.perform DevAccess.loadKeyShift
def loadKeyCtrl : DevM Bool := Program.perform DevAccess.loadKeyCtrl
def loadKeyAlt : DevM Bool := Program.perform DevAccess.loadKeyAlt
def loadNotifyKeyReady : DevM Bool := Program.perform DevAccess.loadNotifyKeyReady
def loadNotifyKeyData : DevM EfiKeyData := Program.perform DevAccess.loadNotifyKeyData
def storeNotifyKeyReady (value : Bool) : DevM Unit :=
  Program.perform (DevAccess.storeNotifyKeyReady value)
def loadNotifyList : DevM (List NotifyEntry) := Program.perform DevAccess.loadNotifyList
def walkNotifyList : DevM (List GoldfishEventsNotify) := Program.perform DevAccess.walkNotifyList
def storeNotifyList (notifyList : List NotifyEntry) : DevM Unit :=
  Program.perform (DevAccess.storeNotifyList notifyList)

def raiseTpl (newTpl : UINTN) : KeyboardCode Nat := raise newTpl.toNat

-- ============================================================================
-- The functions of the driver
-- ============================================================================

/-- `GoldfishEventsReadKeyStroke`: the status and `*Key`. -/
def goldfishEventsReadKeyStroke (key : Option EfiInputKey) :
    KeyboardCode (EfiStatus × Option EfiInputKey) :=
  match key with
  | none => return (.invalidParameter, none)
  | some old => do
    let oldTpl ← raiseTpl TPL_NOTIFY
    let keyReady ← loadKeyReady
    if keyReady then
      let devKey ← loadKey
      storeKeyReady false
      restore oldTpl
      return (.success, some devKey)
    else
      restore oldTpl
      return (.notReady, some old)

/-- `BuildKeyState`, load by load. -/
def loadKeyState : DevM EfiKeyState := do
  let keyShift ← loadKeyShift
  let keyCtrl ← loadKeyCtrl
  let keyAlt ← loadKeyAlt
  return buildKeyState { keyShift, keyCtrl, keyAlt }

/-- `GoldfishEventsReadKeyStrokeEx`: the status and `*KeyData`.  Its second section comes
    after the first is over. -/
def goldfishEventsReadKeyStrokeEx (keyData : Option EfiKeyData) :
    KeyboardCode (EfiStatus × Option EfiKeyData) :=
  match keyData with
  | none => return (.invalidParameter, none)
  | some old => do
    let (status, key) ← goldfishEventsReadKeyStroke (some .null)
    if status.isError then
      return (status, some old)
    else
      let oldTpl ← raiseTpl TPL_NOTIFY
      let keyState ← loadKeyState
      restore oldTpl
      return (.success, some { key := key.getD .null, keyState })

/-- `GoldfishEventsRegisterKeyNotify`: the status and `*NotifyHandle`. -/
def goldfishEventsRegisterKeyNotify (keyData : Option KeyDataBytes)
    (keyNotificationFunction : UINT64) (notifyHandle : Option UINT64) (newNotify : UINT64) :
    KeyboardCode (EfiStatus × Option UINT64) :=
  match keyData, notifyHandle with
  | some keyData, some _ =>
    if keyNotificationFunction = 0 then
      return (.invalidParameter, notifyHandle)
    else do
      let oldTpl ← raiseTpl TPL_NOTIFY
      let notifyList ← loadNotifyList
      match findRegistered notifyList keyData keyNotificationFunction with
      | some existingNotify =>
        restore oldTpl
        return (.success, some existingNotify.handle)
      | none =>
        if newNotify = 0 then
          restore oldTpl
          return (.outOfResources, notifyHandle)
        else
          storeNotifyList (notifyList ++ [⟨newNotify, keyData, keyNotificationFunction⟩])
          restore oldTpl
          return (.success, some newNotify)
  | _, _ => return (.invalidParameter, notifyHandle)

/-- `GoldfishEventsUnregisterKeyNotify`: the status. -/
def goldfishEventsUnregisterKeyNotify (notificationHandle : UINT64) : KeyboardCode EfiStatus :=
  if notificationHandle = 0 then
    return .invalidParameter
  else do
    let oldTpl ← raiseTpl TPL_NOTIFY
    let notifyList ← loadNotifyList
    match removeEntry notificationHandle notifyList with
    | some rest =>
      storeNotifyList rest
      restore oldTpl
      return .success
    | none =>
      restore oldTpl
      return .invalidParameter

/-- The section of `KeyNotifyProcessHandler`. -/
def takeNotifyKey : DevM (Option EfiKeyData) := do
  let gotKey ← loadNotifyKeyReady
  if gotKey then
    let keyData ← loadNotifyKeyData
    storeNotifyKeyReady false
    return some keyData
  else
    return none

/-- `KeyNotifyProcessHandler`, with the calls that it makes. -/
def keyNotifyProcessHandlerCode : KeyboardCode (List NotifyCall) := do
  let oldTpl ← raiseTpl TPL_NOTIFY
  let gotKey ← takeNotifyKey
  restore oldTpl
  match gotKey with
  | none => return []
  | some keyData =>
    let notifyList ← walkNotifyList
    return (notifyList.filter fun entry => isKeyRegistered entry.keyData keyData).map
      fun entry => { entry, keyData }

-- ============================================================================
-- Sections
-- ============================================================================

/-- The section of `GoldfishEventsReadKeyStroke`. -/
def takeKey (old : EfiInputKey) : DevM (EfiStatus × Option EfiInputKey) := do
  let keyReady ← loadKeyReady
  if keyReady then
    let devKey ← loadKey
    storeKeyReady false
    return (.success, some devKey)
  else
    return (.notReady, some old)

/-- The section of `GoldfishEventsRegisterKeyNotify`. -/
def registerEntry (keyData : KeyDataBytes) (keyNotificationFunction : UINT64)
    (notifyHandle : Option UINT64) (newNotify : UINT64) : DevM (EfiStatus × Option UINT64) := do
  let notifyList ← loadNotifyList
  match findRegistered notifyList keyData keyNotificationFunction with
  | some existingNotify => return (.success, some existingNotify.handle)
  | none =>
    if newNotify = 0 then
      return (.outOfResources, notifyHandle)
    else
      storeNotifyList (notifyList ++ [⟨newNotify, keyData, keyNotificationFunction⟩])
      return (.success, some newNotify)

/-- The section of `GoldfishEventsUnregisterKeyNotify`. -/
def unregisterEntry (notificationHandle : UINT64) : DevM EfiStatus := do
  let notifyList ← loadNotifyList
  match removeEntry notificationHandle notifyList with
  | some rest =>
    storeNotifyList rest
    return .success
  | none => return .invalidParameter

/-- What `KeyNotifyProcessHandler` does with the key data, behind its section. -/
def callNotified (gotKey : Option EfiKeyData) : KeyboardCode (List NotifyCall) :=
  match gotKey with
  | none => return []
  | some keyData => do
    let notifyList ← walkNotifyList
    return (notifyList.filter fun entry => isKeyRegistered entry.keyData keyData).map
      fun entry => { entry, keyData }

theorem goldfishEventsReadKeyStroke_eq (old : EfiInputKey) :
    goldfishEventsReadKeyStroke (some old) = atLevel TPL_NOTIFY.toNat (takeKey old) := by
  refine Preemption.section_eq fun oldTpl keyReady => ?_
  cases keyReady with
  | false => rfl
  | true => rfl

theorem goldfishEventsRegisterKeyNotify_eq (keyData : KeyDataBytes) {fn : UINT64} (hfn : fn ≠ 0)
    (notifyHandle newNotify : UINT64) :
    goldfishEventsRegisterKeyNotify (some keyData) fn (some notifyHandle) newNotify
      = atLevel TPL_NOTIFY.toNat (registerEntry keyData fn (some notifyHandle) newNotify) := by
  rw [goldfishEventsRegisterKeyNotify, if_neg hfn]
  refine Preemption.section_eq fun oldTpl notifyList => ?_
  cases findRegistered notifyList keyData fn with
  | some existingNotify => rfl
  | none =>
      by_cases hnew : newNotify = 0
      · simp only [if_pos hnew]
        rfl
      · simp only [if_neg hnew]
        rfl

theorem goldfishEventsUnregisterKeyNotify_eq {handle : UINT64} (hhandle : handle ≠ 0) :
    goldfishEventsUnregisterKeyNotify handle
      = atLevel TPL_NOTIFY.toNat (unregisterEntry handle) := by
  rw [goldfishEventsUnregisterKeyNotify, if_neg hhandle]
  refine Preemption.section_eq fun oldTpl notifyList => ?_
  cases removeEntry handle notifyList with
  | some rest => rfl
  | none => rfl

/-- What `GoldfishEventsReadKeyStrokeEx` does with the key. -/
def addKeyState (old : EfiKeyData) (read : EfiStatus × Option EfiInputKey) :
    KeyboardCode (EfiStatus × Option EfiKeyData) :=
  if read.1.isError then
    return (read.1, some old)
  else do
    let keyState ← atLevel TPL_NOTIFY.toNat loadKeyState
    return (.success, some { key := read.2.getD .null, keyState })

theorem goldfishEventsReadKeyStrokeEx_eq (old : EfiKeyData) :
    goldfishEventsReadKeyStrokeEx (some old)
      = atLevel TPL_NOTIFY.toNat (takeKey .null) >>= addKeyState old := by
  rw [goldfishEventsReadKeyStrokeEx, goldfishEventsReadKeyStroke_eq]
  congr 1

theorem keyNotifyProcessHandlerCode_eq :
    keyNotifyProcessHandlerCode = atLevel TPL_NOTIFY.toNat takeNotifyKey >>= callNotified := by
  rw [Preemption.atLevel_bind]
  rfl

-- ============================================================================
-- The record
-- ============================================================================

/-- What is done by the device, the timer and the handler of notifications. -/
def KeystrokeAction.interferes : KeystrokeAction → Bool
  | .arrive _ | .poll _ | .dispatch => true
  | _ => false

/-- The memory, and what has been done to it so far by others than the callers. -/
structure KeyboardRecord extends KeyboardMemory where
  log : List KeystrokeAction

/-- The notifications are dispatched with the first access of the handler. -/
def DevAccess.record : DevAccess → List KeystrokeAction → List KeystrokeAction
  | .loadNotifyKeyReady, log => log ++ [.dispatch]
  | _, log => log

def DevAccess.Unrecorded : DevAccess → Prop
  | .loadNotifyKeyReady => False
  | _ => True

def KeyboardRecord.answer (m : KeyboardRecord) (e : DevAccess) : e.Result × KeyboardRecord :=
  ((m.toKeyboardMemory.answer e).1,
    { toKeyboardMemory := (m.toKeyboardMemory.answer e).2, log := e.record m.log })

/-- An action of the system, on the memory alone. -/
def KeyboardMemory.step (m : KeyboardMemory) (action : KeystrokeAction) : Option KeyboardMemory :=
  (KeystrokeState.step ⟨m.dev, m.fifo, m.notifyList, [], []⟩ action).map KeystrokeState.memory

def KeyboardRecord.step (m : KeyboardRecord) (action : KeystrokeAction) : Option KeyboardRecord :=
  (m.toKeyboardMemory.step action).map fun memory =>
    { toKeyboardMemory := memory, log := m.log ++ [action] }

variable {s s' t : KeystrokeState} {m m' : KeyboardRecord} {tpl tpl' : Nat}
  {action : KeystrokeAction} {actions : List KeystrokeAction}

/-- The history does not matter. -/
theorem KeystrokeState.step_memory (s : KeystrokeState) (action : KeystrokeAction) :
    (s.step action).map KeystrokeState.memory = s.memory.step action := by
  obtain ⟨dev, fifo, notifyList, past, epoch⟩ := s
  cases action with
  | readKeyStroke key =>
      cases key with
      | none => rfl
      | some key =>
          cases hready : dev.keyReady <;>
            simp [KeystrokeState.memory, KeyboardMemory.step, KeystrokeState.step, readKeyStroke,
              hready]
  | readKeyStrokeEx keyData =>
      cases keyData with
      | none => rfl
      | some keyData =>
          cases hready : dev.keyReady <;>
            simp [KeystrokeState.memory, KeyboardMemory.step, KeystrokeState.step, readKeyStroke,
              readKeyStrokeEx, hready]
  | _ => rfl

/-- A step of the memory is one of the system. -/
theorem KeystrokeState.exists_step {memory : KeyboardMemory}
    (h : s.memory.step action = some memory) :
    ∃ s', s.step action = some s' ∧ s'.memory = memory := by
  rw [← s.step_memory] at h
  exact Option.map_eq_some_iff.mp h

/-- A recorded run is one of the system. -/
theorem KeystrokeState.exists_run (hs : s.memory = m.toKeyboardMemory)
    (h : run KeyboardRecord.step m actions = some m') :
    ∃ s', run KeystrokeState.step s actions = some s' ∧ s'.memory = m'.toKeyboardMemory := by
  induction actions generalizing s m with
  | nil => exact ⟨s, rfl, Option.some.inj h ▸ hs⟩
  | cons action actions ih =>
      obtain ⟨u, hu, hrest⟩ := Run.run_cons h
      obtain ⟨memory, hmemory, rfl⟩ := Option.map_eq_some_iff.mp hu
      obtain ⟨t, ht, htu⟩ := KeystrokeState.exists_step (hs ▸ hmemory)
      obtain ⟨s', hs', hend⟩ := ih htu hrest
      exact ⟨s', by rw [run, ht]; exact hs', hend⟩

theorem log_of_run (h : run KeyboardRecord.step m actions = some m') :
    m'.log = m.log ++ actions := by
  induction actions generalizing m with
  | nil => rw [Option.some.inj h, List.append_nil]
  | cons action actions ih =>
      obtain ⟨u, hu, hrest⟩ := Run.run_cons h
      obtain ⟨memory, -, rfl⟩ := Option.map_eq_some_iff.mp hu
      rw [ih hrest, List.append_assoc]
      rfl

/-- Accesses that are not recorded are those to the memory. -/
theorem run_unrecorded {α : Type} {prog : DevM α} (h : prog.Calls DevAccess.Unrecorded)
    (m : KeyboardRecord) :
    prog.run KeyboardRecord.answer m
      = ((prog.run KeyboardMemory.answer m.toKeyboardMemory).1,
          { m with
            toKeyboardMemory := (prog.run KeyboardMemory.answer m.toKeyboardMemory).2 }) := by
  induction prog generalizing m with
  | ret a => rfl
  | call e next ih =>
      have hanswer : m.answer e = ((m.toKeyboardMemory.answer e).1,
          { m with toKeyboardMemory := (m.toKeyboardMemory.answer e).2 }) := by
        cases e with
        | loadNotifyKeyReady => exact absurd h.1 id
        | _ => rfl
      rw [Program.run, hanswer]
      exact ih _ (h.2 _) _

-- ============================================================================
-- Preemption
-- ============================================================================

/-- The device appends words at any time; the timer polls below `TPL_NOTIFY`. -/
def pollWorld : World DevAccess DevAccess.Result KeyboardRecord where
  answer := KeyboardRecord.answer
  interferes tpl m m' :=
    (∃ words, m.step (.arrive words) = some m') ∨
      (tpl < TPL_NOTIFY.toNat ∧ ∃ haveNotify, m.step (.poll haveNotify) = some m')

/-- Below `TPL_CALLBACK` notifications are dispatched as well, by code that is preempted in
    its turn. -/
def keyboardWorld : World DevAccess DevAccess.Result KeyboardRecord where
  answer := KeyboardRecord.answer
  interferes tpl m m' :=
    pollWorld.interferes tpl m m' ∨
      (tpl < TPL_CALLBACK.toNat ∧ ∃ calls, Executes pollWorld keyNotifyProcessHandlerCode
        TPL_CALLBACK.toNat m calls TPL_CALLBACK.toNat m')

theorem keyboardWorld_ranked : keyboardWorld.Ranked := by
  rintro low high m m' hle ((harrive | ⟨hlt, hpoll⟩) | ⟨hlt, hdispatch⟩)
  · exact .inl (.inl harrive)
  · exact .inl (.inr ⟨lt_of_le_of_lt hle hlt, hpoll⟩)
  · exact .inr ⟨lt_of_le_of_lt hle hlt, hdispatch⟩

theorem pollWorld_ranked : pollWorld.Ranked := by
  rintro low high m m' hle (harrive | ⟨hlt, hpoll⟩)
  · exact .inl harrive
  · exact .inr ⟨lt_of_le_of_lt hle hlt, hpoll⟩

/-- At `TPL_NOTIFY` only words arrive, and no function of the driver but a poll reads them. -/
theorem pollWorld_undisturbed :
    pollWorld.Undisturbed TPL_NOTIFY.toNat DevAccess.Unrecorded := by
  rintro m m' e he (⟨words, harrive⟩ | ⟨hlt, -⟩)
  · obtain rfl := Option.some.inj harrive
    cases e with
    | loadNotifyKeyReady => exact absurd he id
    | _ => exact ⟨rfl, .inl ⟨words, rfl⟩⟩
  · exact absurd hlt (lt_irrefl _)

theorem keyboardWorld_undisturbed :
    keyboardWorld.Undisturbed TPL_NOTIFY.toNat DevAccess.Unrecorded := by
  rintro m m' e he (hpoll | ⟨hlt, -⟩)
  · obtain ⟨hanswer, hafter⟩ := pollWorld_undisturbed m m' e he hpoll
    exact ⟨hanswer, .inl hafter⟩
  · exact absurd hlt (by decide)

-- ============================================================================
-- The dispatch of notifications
-- ============================================================================

/-- Others than the callers take the memory from one state to another, and all that they do
    is recorded. -/
structure Advances (m : KeyboardRecord) (actions : List KeystrokeAction) (m' : KeyboardRecord) :
    Prop where
  steps : run KeyboardRecord.step m actions = some m'
  interferes : ∀ action ∈ actions, action.interferes = true

theorem Advances.refl (m : KeyboardRecord) : Advances m [] m :=
  ⟨rfl, fun _ h => absurd h List.not_mem_nil⟩

theorem Advances.append {u : KeyboardRecord} {actions' : List KeystrokeAction}
    (h : Advances m actions u) (h' : Advances u actions' m') :
    Advances m (actions ++ actions') m' where
  steps := (Run.run_append h.steps).trans h'.steps
  interferes := by
    intro action haction
    rcases List.mem_append.mp haction with hfirst | hsecond
    · exact h.interferes action hfirst
    · exact h'.interferes action hsecond

theorem Advances.single (hstep : m.step action = some m') (h : action.interferes = true) :
    Advances m [action] m' :=
  ⟨by rw [Run.run_singleton, hstep], fun _ ha => List.mem_singleton.mp ha ▸ h⟩

theorem pollWorld_advances (h : pollWorld.Interferes tpl m m') :
    ∃ actions, Advances m actions m' := by
  induction h with
  | refl => exact ⟨[], .refl m⟩
  | tail _ hlast ih =>
      obtain ⟨actions, hbefore⟩ := ih
      rcases hlast with ⟨words, harrive⟩ | ⟨-, haveNotify, hpoll⟩
      · exact ⟨_, hbefore.append (.single harrive rfl)⟩
      · exact ⟨_, hbefore.append (.single hpoll rfl)⟩

/-- No poll touches the list. -/
theorem notifyList_of_interferes (h : pollWorld.Interferes tpl m m') :
    m'.dev.notifyList = m.dev.notifyList := by
  induction h with
  | refl => rfl
  | tail _ hlast ih =>
      rcases hlast with ⟨words, harrive⟩ | ⟨-, haveNotify, hpoll⟩
      · obtain rfl := Option.some.inj harrive
        exact ih
      · obtain rfl := Option.some.inj hpoll
        exact (pollLoop_notifyList _ _ _).trans ih

theorem keyNotifyProcessHandler_notifyList (dev : GoldfishEventsDev) :
    (keyNotifyProcessHandler dev).1.notifyList = dev.notifyList := by
  rw [keyNotifyProcessHandler]
  split <;> rfl

theorem takeNotifyKey_run (m : KeyboardRecord) :
    ∃ u, m.step .dispatch = some u ∧
      takeNotifyKey.run KeyboardRecord.answer m = (dequeueNotify m.dev, u) ∧
      u.dev.notifyList = m.dev.notifyList := by
  refine ⟨_, rfl, ?_, keyNotifyProcessHandler_notifyList m.dev⟩
  show Program.run KeyboardRecord.answer (if m.dev.notifyKeyReady = true then _ else _) _ = _
  by_cases hready : m.dev.notifyKeyReady = true
  · simp only [dequeueNotify, keyNotifyProcessHandler, KeystrokeState.memory, if_pos hready]
    rfl
  · simp only [dequeueNotify, keyNotifyProcessHandler, KeystrokeState.memory, if_neg hready]
    rfl

theorem takeNotifyKey_later : takeNotifyKey.CallsLater DevAccess.Unrecorded := by
  intro gotKey
  cases gotKey with
  | false => trivial
  | true => exact ⟨trivial, fun _ => ⟨trivial, fun _ => trivial⟩⟩

/-- What the handler calls after a while: the list has stayed as it was. -/
theorem callNotified_executes {gotKey : Option EfiKeyData} {calls : List NotifyCall}
    (h : Executes pollWorld (callNotified gotKey) tpl m calls tpl' m') :
    tpl' = tpl ∧ pollWorld.Interferes tpl m m' ∧
      calls = gotKey.elim [] fun keyData =>
        (m.dev.notifyList.filter fun entry => isKeyRegistered entry.keyData keyData).map
          fun entry => { entry, keyData } := by
  cases gotKey with
  | none =>
      obtain ⟨rfl, rfl, hrest⟩ := Preemption.executes_ret_iff.mp h
      exact ⟨rfl, hrest, rfl⟩
  | some keyData =>
      obtain ⟨t, ht, hwalked⟩ := Preemption.executes_access_iff.mp h
      obtain ⟨rfl, rfl, hrest⟩ := Preemption.executes_ret_iff.mp hwalked
      refine ⟨rfl, ht.trans hrest, ?_⟩
      rw [← notifyList_of_interferes ht]
      rfl

/-- The dispatch is one step between polls, and makes its calls. -/
theorem keyNotifyProcessHandlerCode_executes {calls : List NotifyCall}
    (h : Executes pollWorld keyNotifyProcessHandlerCode TPL_CALLBACK.toNat m calls tpl' m') :
    tpl' = TPL_CALLBACK.toNat ∧ ∃ t u, pollWorld.Interferes TPL_CALLBACK.toNat m t ∧
      t.step .dispatch = some u ∧ calls = (keyNotifyProcessHandler t.dev).2 ∧
      pollWorld.Interferes TPL_CALLBACK.toNat u m' := by
  rw [keyNotifyProcessHandlerCode_eq] at h
  obtain ⟨gotKey, middle, v, hsection, hcalls⟩ := Preemption.executes_bind_iff.mp h
  obtain ⟨rfl, t, ht, rfl, hv⟩ := (Preemption.executes_atLevel_iff pollWorld_ranked
    pollWorld_undisturbed takeNotifyKey_later (by decide)).mp hsection
  obtain ⟨rfl, hrest, hnotified⟩ := callNotified_executes hcalls
  obtain ⟨u, hstep, hrun, hlist⟩ := takeNotifyKey_run t
  have hrun' : takeNotifyKey.run pollWorld.answer t = (dequeueNotify t.dev, u) := hrun
  rw [hrun'] at hv hnotified
  refine ⟨rfl, t, u, ht, hstep, ?_, hv.trans hrest⟩
  rw [hnotified, notifyList_of_interferes hv, hlist, dequeueNotify, keyNotifyProcessHandler]
  split <;> rfl

/-- What preempts a caller are steps of the device, the timer and the handler. -/
theorem keyboardWorld_advances (h : keyboardWorld.Interferes tpl m m') :
    ∃ actions, Advances m actions m' := by
  induction h with
  | refl => exact ⟨[], .refl m⟩
  | tail _ hlast ih =>
      obtain ⟨actions, hbefore⟩ := ih
      rcases hlast with hpoll | ⟨-, calls, hdispatch⟩
      · obtain ⟨polls, hpolls⟩ := pollWorld_advances (Relation.ReflTransGen.single hpoll)
        exact ⟨_, hbefore.append hpolls⟩
      · obtain ⟨-, u, v, hu, hstep, -, hv⟩ := keyNotifyProcessHandlerCode_executes hdispatch
        obtain ⟨first, hfirst⟩ := pollWorld_advances hu
        obtain ⟨last, hlast⟩ := pollWorld_advances hv
        exact ⟨_, hbefore.append (hfirst.append ((Advances.single hstep rfl).append hlast))⟩

end UemuPkg
