/-
  UemuPkg.Drivers.GoldfishEventsDxe.Initialize

  `GoldfishEventsDxeInitialize` from the GCD on, with the events that it creates and
  closes.  The labels at its end fall through: each closes one event and goes on with
  the next, and a failure jumps to the label for what exists by then.
-/

import UemuPkg.Drivers.GoldfishEventsDxe.Registers
import UemuPkg.Generic.Custody

namespace UemuPkg

open Effects (Program Protocol Custody)

/-- `EFI_EVENT`, a pointer. -/
abbrev EfiEvent := UINT64

def EVT_TIMER : UINT32 := 0x80000000
def EVT_NOTIFY_WAIT : UINT32 := 0x00000100
def EVT_NOTIFY_SIGNAL : UINT32 := 0x00000200
/-- 10 ms in units of 100 ns. -/
def KEYBOARD_TIMER_INTERVAL : UINT64 := 10 * 10000

/-- `EFI_TIMER_DELAY` -/
inductive EfiTimerDelay where
  | timerCancel
  | timerPeriodic
  | timerRelative

/-- The functions that the events of the driver notify. -/
inductive KeyboardNotify where
  | goldfishEventsWaitForKey
  | goldfishEventsWaitForKeyEx
  | keyNotifyProcessHandler
  | keyboardTimerHandler

/-- The fields of `GOLDFISH_EVENTS_DEV` that hold an event. -/
inductive KeyboardField where
  | waitForKey
  | waitForKeyEx
  | keyNotifyProcessEvent
  | timerEvent
  deriving DecidableEq

/-- The calls of the entry point. -/
inductive InitializeCall where
  | driver (call : DriverCall)
  /-- `gBS->CreateEvent`; the event goes to `field`. -/
  | createEvent (type : UINT32) (notifyTpl : UINTN) (notifyFunction : KeyboardNotify)
      (field : KeyboardField)
  /-- `gBS->SetTimer` -/
  | setTimer (event : EfiEvent) (type : EfiTimerDelay) (triggerTime : UINT64)
  /-- `gBS->InstallMultipleProtocolInterfaces`, for the device path and both protocols -/
  | installMultipleProtocolInterfaces
  /-- `gBS->CloseEvent` -/
  | closeEvent (event : EfiEvent)
  /-- `FreePool (Dev)` -/
  | freePool

def InitializeCall.Result : InitializeCall → Type
  | .driver call => call.Result
  | .createEvent _ _ _ _ => EfiStatus × EfiEvent
  | .setTimer _ _ _ => EfiStatus
  | .installMultipleProtocolInterfaces => EfiStatus
  | .closeEvent _ => Unit
  | .freePool => Unit

abbrev InitializeM := Program InitializeCall InitializeCall.Result

/-- A function of the driver inside the entry point. -/
def ofDriver {α : Type} (prog : DriverM α) : InitializeM α :=
  prog.expand fun call => Program.perform (InitializeCall.driver call)

def createEvent (type : UINT32) (notifyTpl : UINTN) (notifyFunction : KeyboardNotify)
    (field : KeyboardField) : InitializeM (EfiStatus × EfiEvent) :=
  Program.perform (InitializeCall.createEvent type notifyTpl notifyFunction field)

def setTimer (event : EfiEvent) (type : EfiTimerDelay) (triggerTime : UINT64) :
    InitializeM EfiStatus :=
  Program.perform (InitializeCall.setTimer event type triggerTime)

def installMultipleProtocolInterfaces : InitializeM EfiStatus :=
  Program.perform InitializeCall.installMultipleProtocolInterfaces

def closeEvent (event : EfiEvent) : InitializeM Unit :=
  Program.perform (InitializeCall.closeEvent event)

def freePool : InitializeM Unit := Program.perform InitializeCall.freePool

-- ============================================================================
-- The labels
-- ============================================================================

/-- The events that `Dev` holds. -/
structure KeyboardEvents where
  waitForKey : EfiEvent
  waitForKeyEx : EfiEvent
  keyNotifyProcessEvent : EfiEvent
  timerEvent : EfiEvent

/-- What `AllocateZeroPool` leaves in the fields. -/
def KeyboardEvents.zero : KeyboardEvents := ⟨0, 0, 0, 0⟩

def freeDev (status : EfiStatus) : InitializeM EfiStatus := do
  freePool
  return status

def closeWaitForKey (dev : KeyboardEvents) (status : EfiStatus) : InitializeM EfiStatus := do
  closeEvent dev.waitForKey
  freeDev status

def closeWaitForKeyEx (dev : KeyboardEvents) (status : EfiStatus) : InitializeM EfiStatus := do
  closeEvent dev.waitForKeyEx
  closeWaitForKey dev status

def closeKeyNotifyProcess (dev : KeyboardEvents) (status : EfiStatus) :
    InitializeM EfiStatus := do
  closeEvent dev.keyNotifyProcessEvent
  closeWaitForKeyEx dev status

def closeTimer (dev : KeyboardEvents) (status : EfiStatus) : InitializeM EfiStatus := do
  closeEvent dev.timerEvent
  closeKeyNotifyProcess dev status

-- ============================================================================
-- The entry point
-- ============================================================================

/-- Everything behind the read of `REG_LEN`. -/
def startKeyboard (dev : KeyboardEvents) : InitializeM EfiStatus := do
  let (status, event) ←
    createEvent EVT_NOTIFY_WAIT TPL_NOTIFY .goldfishEventsWaitForKey .waitForKey
  if status.isError then
    freeDev status
  else
  let dev := { dev with waitForKey := event }
  let (status, event) ←
    createEvent EVT_NOTIFY_WAIT TPL_NOTIFY .goldfishEventsWaitForKeyEx .waitForKeyEx
  if status.isError then
    closeWaitForKey dev status
  else
  let dev := { dev with waitForKeyEx := event }
  let (status, event) ←
    createEvent EVT_NOTIFY_SIGNAL TPL_CALLBACK .keyNotifyProcessHandler .keyNotifyProcessEvent
  if status.isError then
    closeWaitForKeyEx dev status
  else
  let dev := { dev with keyNotifyProcessEvent := event }
  let (status, event) ←
    createEvent (EVT_TIMER ||| EVT_NOTIFY_SIGNAL) TPL_NOTIFY .keyboardTimerHandler .timerEvent
  if status.isError then
    closeKeyNotifyProcess dev status
  else
  let dev := { dev with timerEvent := event }
  let status ← setTimer dev.timerEvent .timerPeriodic KEYBOARD_TIMER_INTERVAL
  if status.isError then
    closeTimer dev status
  else
  let status ← installMultipleProtocolInterfaces
  if status.isError then
    closeTimer dev status
  else
    return .success

/-- `GoldfishEventsDxeInitialize`, from the GCD on. -/
def goldfishEventsDxeInitialize (m : MmioMapping) : InitializeM EfiStatus := do
  let _ ← ofDriver (addMemorySpace m.gcdBase m.gcdSize (EFI_MEMORY_UC ||| EFI_MEMORY_RUNTIME))
  let status ← ofDriver (setMemorySpaceAttributes m.gcdBase m.gcdSize EFI_MEMORY_UC)
  if status.isError then
    return status
  else
  if ← ofDriver allocateZeroPool then
    ofDriver (goldfishWrite32 m.base REG_SET_PAGE PAGE_ABSDATA)
    let _ ← ofDriver (goldfishRead32 m.base REG_LEN)
    startKeyboard .zero
  else
    return .outOfResources

/-- How the step of `goldfishEvents.start` that stands for the events is carried out. -/
def InitializeCall.body : (call : DriverCall) → InitializeM call.Result
  | .install => startKeyboard .zero
  | call => Program.perform (InitializeCall.driver call)

/-- The entry point is the one whose register accesses are described in `Registers`,
    with its last step carried out. -/
theorem goldfishEventsDxeInitialize_eq_expand (m : MmioMapping) :
    goldfishEventsDxeInitialize m = (goldfishEvents.start m).expand InitializeCall.body := by
  show Program.call _ (fun _ => Program.call _ fun status => _)
    = Program.call _ fun _ => Program.call _ fun status => _
  refine congrArg (Program.call _) (funext fun _ =>
    congrArg (Program.call _) (funext fun status => ?_))
  show (if status.isError then _ else _) = Program.expand _ (if status.isError then _ else _)
  split
  · rfl
  show Program.call _ (fun granted => _) = Program.call _ fun granted => _
  refine congrArg (Program.call _) (funext fun (granted : Bool) => ?_)
  cases granted with
  | false => rfl
  | true =>
      show Program.call _ (fun _ => Program.call _ fun _ => startKeyboard .zero)
        = Program.call _ fun _ => Program.call _ fun _ => startKeyboard .zero >>= Program.ret
      rw [Program.bind_ret]

-- ============================================================================
-- Failures and labels
-- ============================================================================

section Outcome

variable {E σ : Type} {R : E → Type} {P : Protocol E R σ} {failed works : σ → Prop} {s : σ}
  {status : EfiStatus} {label rest : Program E R EfiStatus}

/-- What holds where a function has returned with the status. -/
def Outcome (failed works : σ → Prop) (status : EfiStatus) (s : σ) : Prop :=
  if status.isError then failed s else works s

theorem Outcome.of_error (hstatus : status.isError = true) (h : Outcome failed works status s) :
    failed s := by
  rwa [Outcome, if_pos hstatus] at h

theorem Outcome.of_success (hstatus : status.isError = false) (h : Outcome failed works status s) :
    works s := by
  rwa [Outcome, if_neg (by simp [hstatus])] at h

/-- A label is reached with the status of the call that has failed, and returns it. -/
theorem keeps_label (hstatus : status.isError = true)
    (h : label.Keeps P (fun result s => result = status ∧ failed s) s) :
    (if status.isError then label else rest).Keeps P (Outcome failed works) s := by
  rw [if_pos hstatus]
  refine h.mono fun result t hreturns => ?_
  rw [Outcome, hreturns.1, if_pos hstatus]
  exact hreturns.2

theorem keeps_rest (hstatus : status.isError = false) (h : rest.Keeps P (Outcome failed works) s) :
    (if status.isError then label else rest).Keeps P (Outcome failed works) s := by
  rw [if_neg (by simp [hstatus])]
  exact h

/-- A status that is checked in a state that it has not changed. -/
theorem keeps_checked (hlabel : label.Keeps P (fun result s => result = status ∧ failed s) s)
    (hrest : rest.Keeps P (Outcome failed works) s) :
    (if status.isError then label else rest).Keeps P (Outcome failed works) s := by
  by_cases hstatus : status.isError = true
  · exact keeps_label hstatus hlabel
  · exact keeps_rest (Bool.eq_false_iff.mpr hstatus) hrest

end Outcome

-- ============================================================================
-- What the entry point holds
-- ============================================================================

inductive KeyboardResource where
  /-- The pool for `Dev` -/
  | dev
  | event (event : EfiEvent)
  deriving DecidableEq

/-- `AllocateZeroPool` and `CreateEvent` give, `FreePool` and `CloseEvent` take.  The events
    and the protocols are made for `Dev`. -/
def keyboardCustody : Custody InitializeCall InitializeCall.Result KeyboardResource where
  acquires
    | .driver .allocateZeroPool, true => some .dev
    | .createEvent _ _ _ _, (status, event) =>
      if status.isError then none else some (.event event)
    | _, _ => none
  releases
    | .closeEvent event => some (.event event)
    | .freePool => some .dev
    | _ => none
  uses
    | .createEvent _ _ _ _ => some .dev
    | .setTimer event _ _ => some (.event event)
    | .installMultipleProtocolInterfaces => some .dev
    | _ => none

/-- What a started keyboard holds, the timer last. -/
def KeyboardEvents.held (dev : KeyboardEvents) : List KeyboardResource :=
  [.event dev.timerEvent, .event dev.keyNotifyProcessEvent, .event dev.waitForKeyEx,
    .event dev.waitForKey, .dev]

variable {α : Type} {post : α → List KeyboardResource → Prop} {held : List KeyboardResource}

theorem freeDev_keeps (status : EfiStatus) :
    (freeDev status).Keeps keyboardCustody.stack (fun result held => result = status ∧ held = [])
      [.dev] :=
  Custody.keeps_release rfl rfl (fun _ => rfl) fun _ => ⟨rfl, rfl⟩

theorem closeWaitForKey_keeps (dev : KeyboardEvents) (status : EfiStatus) :
    (closeWaitForKey dev status).Keeps keyboardCustody.stack
      (fun result held => result = status ∧ held = []) [.event dev.waitForKey, .dev] :=
  Custody.keeps_release rfl rfl (fun _ => rfl) fun _ => freeDev_keeps status

theorem closeWaitForKeyEx_keeps (dev : KeyboardEvents) (status : EfiStatus) :
    (closeWaitForKeyEx dev status).Keeps keyboardCustody.stack
      (fun result held => result = status ∧ held = [])
      [.event dev.waitForKeyEx, .event dev.waitForKey, .dev] :=
  Custody.keeps_release rfl rfl (fun _ => rfl) fun _ => closeWaitForKey_keeps dev status

theorem closeKeyNotifyProcess_keeps (dev : KeyboardEvents) (status : EfiStatus) :
    (closeKeyNotifyProcess dev status).Keeps keyboardCustody.stack
      (fun result held => result = status ∧ held = [])
      [.event dev.keyNotifyProcessEvent, .event dev.waitForKeyEx, .event dev.waitForKey, .dev] :=
  Custody.keeps_release rfl rfl (fun _ => rfl) fun _ => closeWaitForKeyEx_keeps dev status

theorem closeTimer_keeps (dev : KeyboardEvents) (status : EfiStatus) :
    (closeTimer dev status).Keeps keyboardCustody.stack
      (fun result held => result = status ∧ held = []) dev.held :=
  Custody.keeps_release rfl rfl (fun _ => rfl) fun _ => closeKeyNotifyProcess_keeps dev status

/-- A failure holds nothing, a success all four events and `Dev`. -/
def KeyboardSettled : EfiStatus → List KeyboardResource → Prop :=
  Outcome (· = []) fun held => ∃ dev : KeyboardEvents, held = dev.held

/-- A created event is held, one that is not created is not. -/
theorem createEvent_keeps {type : UINT32} {notifyTpl : UINTN} {notifyFunction : KeyboardNotify}
    {field : KeyboardField} {rest : EfiStatus × EfiEvent → InitializeM EfiStatus}
    {held : List KeyboardResource} (hdev : .dev ∈ held)
    (hfails : ∀ status event, status.isError = true →
      (rest (status, event)).Keeps keyboardCustody.stack KeyboardSettled held)
    (hworks : ∀ status event, status.isError = false →
      (rest (status, event)).Keeps keyboardCustody.stack KeyboardSettled (.event event :: held)) :
    (createEvent type notifyTpl notifyFunction field >>= rest).Keeps keyboardCustody.stack
      KeyboardSettled held := by
  refine Custody.keeps_use rfl rfl hdev ?_
  rintro ⟨status, event⟩
  show Program.Keeps _ _ _ ((if status.isError then none else some _).toList ++ held)
  cases hstatus : status.isError with
  | true => exact hfails status event hstatus
  | false => exact hworks status event hstatus

theorem startKeyboard_keeps (dev : KeyboardEvents) :
    (startKeyboard dev).Keeps keyboardCustody.stack KeyboardSettled [.dev] := by
  refine createEvent_keeps (by simp) (fun status _ h => keeps_label h (freeDev_keeps status))
    fun _ waitForKey h => keeps_rest h ?_
  refine createEvent_keeps (by simp)
    (fun status _ h => keeps_label h (closeWaitForKey_keeps _ status))
    fun _ waitForKeyEx h => keeps_rest h ?_
  refine createEvent_keeps (by simp)
    (fun status _ h => keeps_label h (closeWaitForKeyEx_keeps _ status))
    fun _ keyNotifyProcessEvent h => keeps_rest h ?_
  refine createEvent_keeps (by simp)
    (fun status _ h => keeps_label h (closeKeyNotifyProcess_keeps _ status))
    fun _ timerEvent h => keeps_rest h ?_
  refine Custody.keeps_use rfl rfl (by simp) fun (status : EfiStatus) =>
    keeps_checked (closeTimer_keeps _ status) ?_
  refine Custody.keeps_use rfl rfl (by simp) fun (status : EfiStatus) =>
    keeps_checked (closeTimer_keeps _ status) ?_
  exact ⟨⟨waitForKey, waitForKeyEx, keyNotifyProcessEvent, timerEvent⟩, rfl⟩

theorem goldfishEventsDxeInitialize_keeps (m : MmioMapping) :
    (goldfishEventsDxeInitialize m).Keeps keyboardCustody.stack KeyboardSettled [] := by
  refine Custody.keeps_acquire rfl rfl fun _ => ?_
  refine Custody.keeps_acquire rfl rfl fun (status : EfiStatus) => ?_
  refine keeps_checked ⟨rfl, rfl⟩ (Custody.keeps_acquire rfl rfl fun (granted : Bool) => ?_)
  cases granted with
  | false => rfl
  | true =>
      exact Custody.keeps_acquire rfl rfl fun _ => Custody.keeps_acquire rfl rfl fun _ =>
        startKeyboard_keeps .zero

-- ============================================================================
-- What the timer and the callers of the protocols find
-- ============================================================================

/-- What exists after some calls. -/
structure StartState where
  /-- `Dev` is allocated. -/
  dev : Bool
  /-- The open events, each with the field it went to. -/
  events : List (KeyboardField × EfiEvent)
  /-- The event whose timer runs. -/
  armed : Option EfiEvent
  /-- The protocols are installed. -/
  installed : Bool

def StartState.initial : StartState := ⟨false, [], none, false⟩

/-- While the timer runs or the protocols are installed there is `Dev`, with an open
    event in each field. -/
def StartState.Usable (s : StartState) : Prop :=
  s.armed.isSome ∨ s.installed = true →
    s.dev = true ∧ ∀ field, ∃ event, (field, event) ∈ s.events

/-- Neither the timer nor a caller can enter the driver. -/
def StartState.Quiet (s : StartState) : Prop := s.armed = none ∧ s.installed = false

/-- Between any two calls the timer may fire and a caller use the protocols. -/
def keyboardProtocol : Protocol InitializeCall InitializeCall.Result StartState where
  allows s _ := s.Usable
  next
    | s, .driver .allocateZeroPool, granted => { s with dev := granted }
    | s, .driver _, _ => s
    | s, .createEvent _ _ _ field, (status, event) =>
      if status.isError then s else { s with events := (field, event) :: s.events }
    | s, .setTimer event type _, status =>
      match type, EfiStatus.isError status with
      | _, true => s
      | .timerCancel, false => { s with armed := none }
      | _, false => { s with armed := some event }
    | s, .installMultipleProtocolInterfaces, status =>
      if EfiStatus.isError status then s else { s with installed := true }
    | s, .closeEvent event, _ =>
      { s with
        events := s.events.filter (·.2 ≠ event)
        armed := if s.armed = some event then none else s.armed }
    | s, .freePool, _ => { s with dev := false }

/-- After a failure nothing can enter the driver, after a success the timer runs and the
    protocols are installed. -/
def KeyboardStarted : EfiStatus → StartState → Prop :=
  Outcome StartState.Quiet fun s => s.armed.isSome ∧ s.installed = true ∧ s.Usable

variable {s : StartState}

theorem StartState.Quiet.usable (h : s.Quiet) : s.Usable := by
  rintro (harmed | hinstalled)
  · simp [h.1] at harmed
  · simp [h.2] at hinstalled

theorem freeDev_quiet (status : EfiStatus) (h : s.Quiet) :
    (freeDev status).Keeps keyboardProtocol (fun result s => result = status ∧ s.Quiet) s :=
  ⟨h.usable, fun _ => ⟨rfl, h⟩⟩

theorem StartState.Quiet.close (h : s.Quiet) (event : EfiEvent) :
    (keyboardProtocol.next s (.closeEvent event) ()).Quiet := by
  refine ⟨?_, h.2⟩
  show (if s.armed = some event then none else s.armed) = none
  rw [h.1, if_neg nofun]

theorem closeWaitForKey_quiet (dev : KeyboardEvents) (status : EfiStatus) (h : s.Quiet) :
    (closeWaitForKey dev status).Keeps keyboardProtocol
      (fun result s => result = status ∧ s.Quiet) s :=
  ⟨h.usable, fun _ => freeDev_quiet status (h.close _)⟩

theorem closeWaitForKeyEx_quiet (dev : KeyboardEvents) (status : EfiStatus) (h : s.Quiet) :
    (closeWaitForKeyEx dev status).Keeps keyboardProtocol
      (fun result s => result = status ∧ s.Quiet) s :=
  ⟨h.usable, fun _ => closeWaitForKey_quiet dev status (h.close _)⟩

theorem closeKeyNotifyProcess_quiet (dev : KeyboardEvents) (status : EfiStatus) (h : s.Quiet) :
    (closeKeyNotifyProcess dev status).Keeps keyboardProtocol
      (fun result s => result = status ∧ s.Quiet) s :=
  ⟨h.usable, fun _ => closeWaitForKeyEx_quiet dev status (h.close _)⟩

/-- The timer is closed before anything that its handler uses. -/
theorem closeTimer_quiet (dev : KeyboardEvents) (status : EfiStatus) (husable : s.Usable)
    (harmed : s.armed = none ∨ s.armed = some dev.timerEvent) (hinstalled : s.installed = false) :
    (closeTimer dev status).Keeps keyboardProtocol
      (fun result s => result = status ∧ s.Quiet) s := by
  refine ⟨husable, fun _ => closeKeyNotifyProcess_quiet dev status ⟨?_, hinstalled⟩⟩
  show (if s.armed = some dev.timerEvent then none else s.armed) = none
  rcases harmed with harmed | harmed
  · rw [harmed, if_neg nofun]
  · rw [harmed, if_pos rfl]

/-- While the events are created nothing runs yet. -/
def StartState.creating (events : List (KeyboardField × EfiEvent)) : StartState :=
  ⟨true, events, none, false⟩

theorem StartState.creating_quiet (events : List (KeyboardField × EfiEvent)) :
    (creating events).Quiet := ⟨rfl, rfl⟩

variable {events : List (KeyboardField × EfiEvent)}

/-- A created event is in its field, one that is not created changes nothing. -/
theorem createEvent_started {type : UINT32} {notifyTpl : UINTN} {notifyFunction : KeyboardNotify}
    {field : KeyboardField} {rest : EfiStatus × EfiEvent → InitializeM EfiStatus}
    (hfails : ∀ status event, status.isError = true →
      (rest (status, event)).Keeps keyboardProtocol KeyboardStarted (.creating events))
    (hworks : ∀ status event, status.isError = false →
      (rest (status, event)).Keeps keyboardProtocol KeyboardStarted
        (.creating ((field, event) :: events))) :
    (createEvent type notifyTpl notifyFunction field >>= rest).Keeps keyboardProtocol
      KeyboardStarted (.creating events) := by
  refine (Program.keeps_perform_bind _ _).mpr ⟨(StartState.creating_quiet events).usable, ?_⟩
  rintro ⟨status, event⟩
  show Program.Keeps _ _ _
    (if status.isError then StartState.creating events else StartState.creating _)
  cases hstatus : status.isError with
  | true => exact hfails status event hstatus
  | false => exact hworks status event hstatus

/-- With an event in every field the timer may be armed and the protocols installed. -/
theorem armAndInstall_started (dev : KeyboardEvents)
    (hfields : ∀ field, ∃ event, (field, event) ∈ events) :
    (do
      let status ← setTimer dev.timerEvent .timerPeriodic KEYBOARD_TIMER_INTERVAL
      if status.isError then
        closeTimer dev status
      else
      let status ← installMultipleProtocolInterfaces
      if status.isError then
        closeTimer dev status
      else
        return .success : InitializeM EfiStatus).Keeps keyboardProtocol KeyboardStarted
      (.creating events) := by
  have husable (armed installed) : StartState.Usable ⟨true, events, armed, installed⟩ :=
    fun _ => ⟨rfl, hfields⟩
  refine (Program.keeps_perform_bind _ _).mpr ⟨husable _ _, fun (status : EfiStatus) => ?_⟩
  cases status with
  | success =>
      refine keeps_rest rfl ?_
      refine (Program.keeps_perform_bind _ _).mpr ⟨husable _ _, fun (status : EfiStatus) => ?_⟩
      cases status with
      | success => exact ⟨rfl, rfl, husable _ _⟩
      | _ => exact keeps_label rfl (closeTimer_quiet dev _ (husable _ _) (.inr rfl) rfl)
  | _ => exact keeps_label rfl (closeTimer_quiet dev _ (husable _ _) (.inl rfl) rfl)

theorem startKeyboard_started (dev : KeyboardEvents) :
    (startKeyboard dev).Keeps keyboardProtocol KeyboardStarted (.creating []) := by
  have hquiet := StartState.creating_quiet
  refine createEvent_started (fun status _ h => keeps_label h (freeDev_quiet status (hquiet _)))
    fun _ waitForKey h => keeps_rest h ?_
  refine createEvent_started
    (fun status _ h => keeps_label h (closeWaitForKey_quiet _ status (hquiet _)))
    fun _ waitForKeyEx h => keeps_rest h ?_
  refine createEvent_started
    (fun status _ h => keeps_label h (closeWaitForKeyEx_quiet _ status (hquiet _)))
    fun _ keyNotifyProcessEvent h => keeps_rest h ?_
  refine createEvent_started
    (fun status _ h => keeps_label h (closeKeyNotifyProcess_quiet _ status (hquiet _)))
    fun _ timerEvent h => keeps_rest h (armAndInstall_started _ ?_)
  rintro (_ | _ | _ | _)
  · exact ⟨waitForKey, by simp⟩
  · exact ⟨waitForKeyEx, by simp⟩
  · exact ⟨keyNotifyProcessEvent, by simp⟩
  · exact ⟨timerEvent, by simp⟩

theorem goldfishEventsDxeInitialize_started (m : MmioMapping) :
    (goldfishEventsDxeInitialize m).Keeps keyboardProtocol KeyboardStarted .initial := by
  have hinitial : StartState.initial.Quiet := ⟨rfl, rfl⟩
  refine (Program.keeps_perform_bind _ _).mpr ⟨hinitial.usable, fun _ => ?_⟩
  refine (Program.keeps_perform_bind _ _).mpr ⟨hinitial.usable, fun (status : EfiStatus) => ?_⟩
  refine keeps_checked ⟨rfl, hinitial⟩ ?_
  refine (Program.keeps_perform_bind _ _).mpr ⟨hinitial.usable, fun (granted : Bool) => ?_⟩
  cases granted with
  | false => exact hinitial
  | true =>
      have hquiet := StartState.creating_quiet []
      refine (Program.keeps_perform_bind _ _).mpr ⟨hquiet.usable, fun _ => ?_⟩
      exact (Program.keeps_perform_bind _ _).mpr ⟨hquiet.usable, fun _ =>
        startKeyboard_started .zero⟩

-- ============================================================================
-- Every run of the entry point
-- ============================================================================

theorem KeyboardStarted.usable {status : EfiStatus} (h : KeyboardStarted status s) : s.Usable := by
  cases hstatus : status.isError with
  | true => exact (Outcome.of_error hstatus h).usable
  | false => exact (Outcome.of_success hstatus h).2.2

section Runs

variable {m : MmioMapping} {trace : List (Effects.Entry InitializeCall InitializeCall.Result)}
  {rest : InitializeM EfiStatus}

/-- However the services answer, the entry point gives back its events and its pool in
    the reverse order, and never more often than it got them.  When it fails it has given
    everything back; when it succeeds it has kept `Dev` and its four events. -/
theorem goldfishEventsDxeInitialize_balanced
    (h : (goldfishEventsDxeInitialize m).Reaches trace rest) :
    keyboardCustody.stack.Accepts [] trace ∧
    (∀ k, keyboardCustody.released k trace ≤ keyboardCustody.acquired k trace) ∧
    ∀ status, rest = .ret status →
      (status.isError = true →
        ∀ k, keyboardCustody.released k trace = keyboardCustody.acquired k trace) ∧
      (status.isError = false → ∃ dev : KeyboardEvents, ∀ k,
        keyboardCustody.acquired k trace
          = keyboardCustody.released k trace + dev.held.count k) := by
  have hkeeps := goldfishEventsDxeInitialize_keeps m
  have haccepts := hkeeps.accepts h
  refine ⟨haccepts, Custody.released_le hkeeps h, ?_⟩
  rintro status rfl
  have hcount (k) := Custody.count_after (k := k) haccepts
  have hsettled := hkeeps.returns h
  refine ⟨fun hstatus k => ?_, fun hstatus => ?_⟩
  · have hk := hcount k
    rw [Outcome.of_error hstatus hsettled] at hk
    simpa using hk
  · obtain ⟨dev, hheld⟩ := Outcome.of_success hstatus hsettled
    refine ⟨dev, fun k => ?_⟩
    have hk := hcount k
    rw [hheld, List.count_nil] at hk
    omega

/-- Services that refuse one of the events, or else the protocols. -/
def refusingServices (refused : Option KeyboardField) (_ : Unit) :
    (call : InitializeCall) → call.Result × Unit
  | .driver (.mmioRead32 _) => ((0 : UINT32), ())
  | .driver (.mmioWrite32 _ _) => ((), ())
  | .driver (.addMemorySpace _ _ _) => (EfiStatus.success, ())
  | .driver (.setMemorySpaceAttributes _ _ _) => (EfiStatus.success, ())
  | .driver .allocateZeroPool => (true, ())
  | .driver .install => (EfiStatus.success, ())
  | .createEvent type _ _ field =>
    (if some field = refused then (.outOfResources, 0) else (.success, type.setWidth 64), ())
  | .setTimer _ _ _ => (EfiStatus.success, ())
  | .installMultipleProtocolInterfaces => (EfiStatus.invalidParameter, ())
  | .closeEvent _ => ((), ())
  | .freePool => ((), ())

theorem goldfishEventsDxeInitialize_balanced_refused :
    ∃ trace, (goldfishEventsDxeInitialize ⟨0x1000, 0x1000, 0x1000, 0x1000⟩).Reaches trace
        (.ret .outOfResources) ∧
      ∀ k, keyboardCustody.released k trace = keyboardCustody.acquired k trace := by
  have h : (goldfishEventsDxeInitialize ⟨0x1000, 0x1000, 0x1000, 0x1000⟩).Reaches _
      (.ret .outOfResources) :=
    Program.reaches_record (refusingServices (some .keyNotifyProcessEvent)) _ ()
  exact ⟨_, h, ((goldfishEventsDxeInitialize_balanced h).2.2 _ rfl).1 rfl⟩

/-- At every moment of the entry point: while the timer runs or the protocols are
    installed, `Dev` is allocated and the event of each of its fields is open.  In the end
    both are so exactly if the entry point succeeds. -/
theorem goldfishEventsDxeInitialize_usable
    (h : (goldfishEventsDxeInitialize m).Reaches trace rest) :
    (keyboardProtocol.after .initial trace).Usable ∧
    ∀ status, rest = .ret status →
      (status.isError = true → (keyboardProtocol.after .initial trace).Quiet) ∧
      (status.isError = false → (keyboardProtocol.after .initial trace).armed.isSome ∧
        (keyboardProtocol.after .initial trace).installed = true) := by
  have hkeeps := goldfishEventsDxeInitialize_started m
  refine ⟨hkeeps.always (fun _ _ husable => husable) (fun _ _ => KeyboardStarted.usable) h, ?_⟩
  rintro status rfl
  have hstarted := hkeeps.returns h
  refine ⟨fun hstatus => Outcome.of_error hstatus hstarted, fun hstatus => ?_⟩
  exact ⟨(Outcome.of_success hstatus hstarted).1, (Outcome.of_success hstatus hstarted).2.1⟩

theorem goldfishEventsDxeInitialize_usable_not_installed :
    ∃ trace, (goldfishEventsDxeInitialize ⟨0x1000, 0x1000, 0x1000, 0x1000⟩).Reaches trace
        (.ret .invalidParameter) ∧
      (keyboardProtocol.after .initial trace).Quiet := by
  have h : (goldfishEventsDxeInitialize ⟨0x1000, 0x1000, 0x1000, 0x1000⟩).Reaches _
      (.ret .invalidParameter) :=
    Program.reaches_record (refusingServices none) _ ()
  exact ⟨_, h, ((goldfishEventsDxeInitialize_usable h).2 _ rfl).1 rfl⟩

end Runs

end UemuPkg
