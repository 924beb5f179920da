/-
  UemuPkg.Drivers.GoldfishEventsDxe.Linearization

  What the callers of the keyboard see of preemption: whole calls, one after the other, among
  what the device, the timer and the handler of notifications have done, in its order.  Only
  `ReadKeyStrokeEx`, which takes the key and the modifier flags in two sections, can return
  flags of a later moment.
-/

import UemuPkg.Drivers.GoldfishEventsDxe.KeyMailboxes
import UemuPkg.Drivers.GoldfishEventsDxe.PreemptedCalls
import UemuPkg.Drivers.GoldfishEventsDxe.ScanCodes

namespace UemuPkg

open Effects (Program)
open Preemption (Executes atLevel)
open Run (run)

-- ============================================================================
-- Requests
-- ============================================================================

/-- A call of one of the functions that raise the TPL. -/
inductive KeyboardRequest where
  | readKeyStroke (key : Option EfiInputKey)
  | readKeyStrokeEx (keyData : Option EfiKeyData)
  | registerKeyNotify (keyData : Option KeyDataBytes) (keyNotificationFunction : UINT64)
      (notifyHandle : Option UINT64) (newNotify : UINT64)
  | unregisterKeyNotify (notificationHandle : UINT64)

/-- What it returns. -/
inductive KeyboardReply where
  | key (status : EfiStatus) (key : Option EfiInputKey)
  | keyData (status : EfiStatus) (keyData : Option EfiKeyData)
  | handle (status : EfiStatus) (notifyHandle : Option UINT64)
  | unregistered (status : EfiStatus)

def KeyboardRequest.code : KeyboardRequest → KeyboardCode KeyboardReply
  | .readKeyStroke key => do
    let (status, key) ← goldfishEventsReadKeyStroke key
    return .key status key
  | .readKeyStrokeEx keyData => do
    let (status, keyData) ← goldfishEventsReadKeyStrokeEx keyData
    return .keyData status keyData
  | .registerKeyNotify keyData fn notifyHandle newNotify => do
    let (status, notifyHandle) ← goldfishEventsRegisterKeyNotify keyData fn notifyHandle newNotify
    return .handle status notifyHandle
  | .unregisterKeyNotify handle => do
    let status ← goldfishEventsUnregisterKeyNotify handle
    return .unregistered status

/-- The step that the request is, if it is not preempted. -/
def KeyboardRequest.action : KeyboardRequest → KeystrokeAction
  | .readKeyStroke key => .readKeyStroke key
  | .readKeyStrokeEx keyData => .readKeyStrokeEx keyData
  | .registerKeyNotify keyData fn notifyHandle newNotify =>
    .registerKeyNotify keyData fn notifyHandle newNotify
  | .unregisterKeyNotify handle => .unregisterKeyNotify handle

/-- Its reply then. -/
def KeyboardMemory.reply (m : KeyboardMemory) : KeyboardRequest → KeyboardReply
  | .readKeyStroke key => .key (readKeyStroke m.dev key).1 (readKeyStroke m.dev key).2.2
  | .readKeyStrokeEx keyData =>
    .keyData (readKeyStrokeEx m.dev keyData).1 (readKeyStrokeEx m.dev keyData).2.2
  | .registerKeyNotify keyData fn notifyHandle newNotify =>
    let result := registerKeyNotify m.notifyList keyData fn notifyHandle newNotify
    .handle result.status result.notifyHandle
  | .unregisterKeyNotify handle => .unregistered (unregisterKeyNotify m.notifyList handle).1

/-- The reply without the modifier flags of `ReadKeyStrokeEx`. -/
def KeyboardReply.withoutState : KeyboardReply → KeyboardReply
  | .keyData status data => .key status (data.map EfiKeyData.key)
  | reply => reply

/-- One call: what it has asked for and got, and what was done by others from the return of
    the call before to its own. -/
structure KeyboardCall where
  request : KeyboardRequest
  reply : KeyboardReply
  meanwhile : List KeystrokeAction

def KeyboardRecord.initial : KeyboardRecord where
  toKeyboardMemory := KeystrokeState.initial.memory
  log := []

/-- A caller, one call after the other. -/
inductive ServesCalls : Nat → KeyboardRecord → List KeyboardCall → Nat → KeyboardRecord → Prop
  | nil (tpl : Nat) (m : KeyboardRecord) : ServesCalls tpl m [] tpl m
  | cons {tpl tpl' tpl'' : Nat} {m u m' : KeyboardRecord} {call : KeyboardCall}
      {calls : List KeyboardCall}
      (h : Executes keyboardWorld call.request.code tpl m call.reply tpl' u)
      (hmeanwhile : u.log = m.log ++ call.meanwhile) (rest : ServesCalls tpl' u calls tpl'' m') :
      ServesCalls tpl m (call :: calls) tpl'' m'

-- ============================================================================
-- Single steps
-- ============================================================================

/-- The call is one step, from `t` to `u`, among what is done meanwhile, with its reply but
    for the modifier flags; and those are the flags of a state between the step and the
    return. -/
structure TakesEffect (s t u s' : KeystrokeState) (call : KeyboardCall)
    (before behind : List KeystrokeAction) : Prop where
  meanwhile : call.meanwhile = before ++ behind
  runBefore : run KeystrokeState.step s before = some t
  step : t.step call.request.action = some u
  runBehind : run KeystrokeState.step u behind = some s'
  replied : (t.memory.reply call.request).withoutState = call.reply.withoutState
  flags : ∀ k, call.reply = .keyData .success (some k) →
    ∃ upto v, upto <+: behind ∧ run KeystrokeState.step u upto = some v ∧
      k.keyState = buildKeyState v.dev.toModifiers

/-- Each call takes effect as one step between the return of the call before and its own. -/
inductive Linearizes : KeystrokeState → List KeyboardCall → KeystrokeState → Prop
  | nil (s : KeystrokeState) : Linearizes s [] s
  | cons {s t u v s' : KeystrokeState} {call : KeyboardCall} {calls : List KeyboardCall}
      {before behind : List KeystrokeAction} (h : TakesEffect s t u v call before behind)
      (rest : Linearizes v calls s') : Linearizes s (call :: calls) s'

variable {s s' t u : KeystrokeState} {m m' x : KeyboardRecord} {memory memory' : KeyboardMemory}
  {tpl tpl' : Nat} {request : KeyboardRequest} {reply : KeyboardReply} {call : KeyboardCall}
  {calls : List KeyboardCall} {action : KeystrokeAction} {actions : List KeystrokeAction}

/-- A request that others take part in: whole at one moment, and the flags read at one that is
    not before it. -/
inductive Served (m : KeyboardRecord) (request : KeyboardRequest) (reply : KeyboardReply)
    (m' : KeyboardRecord) : Prop
  | intro {x w : KeyboardRecord} {memory : KeyboardMemory}
      {before between behind : List KeystrokeAction}
      (hbefore : Advances m before x)
      (hstep : x.toKeyboardMemory.step request.action = some memory)
      (hreply : (x.toKeyboardMemory.reply request).withoutState = reply.withoutState)
      (hbetween : Advances { x with toKeyboardMemory := memory } between w)
      (hflags : ∀ k, reply = .keyData .success (some k) →
        k.keyState = buildKeyState w.dev.toModifiers)
      (hbehind : Advances w behind m') : Served m request reply m'

/-- It has its moment in the system. -/
theorem Served.takesEffect (h : Served m call.request call.reply m')
    (hmeanwhile : m'.log = m.log ++ call.meanwhile) (hs : s.memory = m.toKeyboardMemory) :
    (∀ action ∈ call.meanwhile, action.interferes = true) ∧
      ∃ t u s' before behind, TakesEffect s t u s' call before behind ∧
        s'.memory = m'.toKeyboardMemory := by
  obtain @⟨x, w, memory, before, between, behind, hbefore, hstep, hreply, hbetween, hflags,
    hbehind⟩ := h
  have hlog : call.meanwhile = before ++ (between ++ behind) := by
    have hlast := log_of_run (hbetween.append hbehind).steps
    rw [log_of_run hbefore.steps, List.append_assoc, hmeanwhile] at hlast
    exact List.append_cancel_left hlast
  obtain ⟨t, ht, htx⟩ := KeystrokeState.exists_run hs hbefore.steps
  obtain ⟨u, hu, humemory⟩ := KeystrokeState.exists_step (htx ▸ hstep)
  obtain ⟨v, hv, hvw⟩ := KeystrokeState.exists_run (m := { x with toKeyboardMemory := memory })
    humemory hbetween.steps
  obtain ⟨s', hs', hend⟩ := KeystrokeState.exists_run hvw hbehind.steps
  refine ⟨?_, t, u, s', before, between ++ behind, ⟨hlog, ht, hu, ?_, ?_, ?_⟩, hend⟩
  · intro action haction
    rw [hlog] at haction
    rcases List.mem_append.mp haction with hfirst | hsecond
    · exact hbefore.interferes action hfirst
    · exact (hbetween.append hbehind).interferes action hsecond
  · rw [Run.run_append hv, hs']
  · rw [htx, hreply]
  · intro k hk
    refine ⟨between, v, List.prefix_append _ _, hv, ?_⟩
    rw [hflags k hk]
    exact congrArg (fun memory => buildKeyState memory.dev.toModifiers) hvw.symm

-- ============================================================================
-- The requests under preemption
-- ============================================================================

theorem takeKey_run (m : KeyboardMemory) (old : EfiInputKey) :
    (takeKey old).run KeyboardMemory.answer m
      = (((readKeyStroke m.dev (some old)).1, (readKeyStroke m.dev (some old)).2.2),
          { m with dev := (readKeyStroke m.dev (some old)).2.1 }) := by
  show Program.run KeyboardMemory.answer (if m.dev.keyReady = true then _ else _) m = _
  by_cases hready : m.dev.keyReady = true
  · simp only [readKeyStroke, if_pos hready]
    rfl
  · simp only [readKeyStroke, if_neg hready]
    rfl

/-- Both views of the list are of the same entries. -/
def KeyboardMemory.Consistent (m : KeyboardMemory) : Prop :=
  m.dev.notifyList = m.notifyList.map NotifyEntry.toNotify

/-- Storing the list that is there changes nothing. -/
theorem KeyboardMemory.Consistent.store (hm : memory.Consistent) :
    { memory with
      dev := { memory.dev with notifyList := memory.notifyList.map NotifyEntry.toNotify } }
      = memory := by
  rw [← hm]

theorem KeystrokeState.step_consistent (h : s.memory.Consistent) (hstep : s.step action = some s') :
    s'.memory.Consistent := by
  cases action with
  | arrive words =>
      obtain rfl := Option.some.inj hstep
      exact h
  | poll haveNotify =>
      obtain rfl := Option.some.inj hstep
      exact (pollLoop_notifyList _ _ _).trans h
  | readKeyStroke key =>
      rcases KeystrokeState.step_readKeyStroke hstep with ⟨-, rfl⟩ | rfl
      · exact h
      · exact h
  | readKeyStrokeEx keyData =>
      rcases KeystrokeState.step_readKeyStrokeEx hstep with ⟨-, rfl⟩ | rfl
      · exact h
      · exact h
  | reset =>
      obtain rfl := Option.some.inj hstep
      exact h
  | registerKeyNotify keyData fn notifyHandle newNotify =>
      obtain rfl := Option.some.inj hstep
      rfl
  | unregisterKeyNotify handle =>
      obtain rfl := Option.some.inj hstep
      rfl
  | dispatch =>
      obtain rfl := Option.some.inj hstep
      exact (keyNotifyProcessHandler_notifyList s.dev).trans h

theorem registerEntry_run (hm : memory.Consistent) (keyData : KeyDataBytes) {fn : UINT64}
    (hfn : fn ≠ 0) (notifyHandle newNotify : UINT64) :
    let result := registerKeyNotify memory.notifyList (some keyData) fn (some notifyHandle)
      newNotify
    (registerEntry keyData fn (some notifyHandle) newNotify).run KeyboardMemory.answer memory
      = ((result.status, result.notifyHandle),
          { memory with
            dev := { memory.dev with notifyList := result.notifyList.map NotifyEntry.toNotify }
            notifyList := result.notifyList }) := by
  simp only [registerKeyNotify, if_neg hfn]
  dsimp only [registerEntry, loadNotifyList, Program.perform, Bind.bind, Program.bind, Program.run,
    KeyboardMemory.answer]
  cases findRegistered memory.notifyList keyData fn with
  | some existingNotify =>
      simp only [hm.store]
      rfl
  | none =>
      by_cases hnew : newNotify = 0
      · simp only [if_pos hnew, hm.store]
        rfl
      · simp only [if_neg hnew]
        rfl

theorem unregisterEntry_run (hm : memory.Consistent) {handle : UINT64} (hhandle : handle ≠ 0) :
    let result := unregisterKeyNotify memory.notifyList handle
    (unregisterEntry handle).run KeyboardMemory.answer memory
      = (result.1,
          { memory with
            dev := { memory.dev with notifyList := result.2.map NotifyEntry.toNotify }
            notifyList := result.2 }) := by
  simp only [unregisterKeyNotify, if_neg hhandle]
  dsimp only [unregisterEntry, loadNotifyList, Program.perform, Bind.bind, Program.bind,
    Program.run, KeyboardMemory.answer]
  cases removeEntry handle memory.notifyList with
  | some rest => rfl
  | none =>
      simp only [hm.store]
      rfl

theorem takeKey_calls (old : EfiInputKey) : (takeKey old).Calls DevAccess.Unrecorded := by
  refine ⟨trivial, fun keyReady => ?_⟩
  cases keyReady with
  | false => trivial
  | true => exact ⟨trivial, fun _ => ⟨trivial, fun _ => trivial⟩⟩

theorem registerEntry_calls (keyData : KeyDataBytes) (fn : UINT64) (notifyHandle : Option UINT64)
    (newNotify : UINT64) :
    (registerEntry keyData fn notifyHandle newNotify).Calls DevAccess.Unrecorded := by
  refine ⟨trivial, fun notifyList => ?_⟩
  dsimp only [Program.bind]
  cases findRegistered notifyList keyData fn with
  | some existingNotify => trivial
  | none =>
      by_cases hnew : newNotify = 0
      · simp only [if_pos hnew]
        trivial
      · simp only [if_neg hnew]
        exact ⟨trivial, fun _ => trivial⟩

theorem unregisterEntry_calls (handle : UINT64) :
    (unregisterEntry handle).Calls DevAccess.Unrecorded := by
  refine ⟨trivial, fun notifyList => ?_⟩
  dsimp only [Program.bind]
  cases removeEntry handle notifyList with
  | some rest => exact ⟨trivial, fun _ => trivial⟩
  | none => trivial

theorem loadKeyState_calls : loadKeyState.Calls DevAccess.Unrecorded :=
  ⟨trivial, fun _ => ⟨trivial, fun _ => ⟨trivial, fun _ => trivial⟩⟩⟩

/-- A section of a caller. -/
theorem section_executes {α : Type} {body : DevM α} {a : α} (htpl : tpl ≤ TPL_NOTIFY.toNat)
    (hcalls : body.Calls DevAccess.Unrecorded)
    (h : Executes keyboardWorld (atLevel TPL_NOTIFY.toNat body) tpl m a tpl' m') :
    tpl' = tpl ∧ ∃ x before, Advances m before x ∧
      a = (body.run KeyboardMemory.answer x.toKeyboardMemory).1 ∧
      keyboardWorld.Interferes tpl
        { x with
          toKeyboardMemory := (body.run KeyboardMemory.answer x.toKeyboardMemory).2 } m' := by
  obtain ⟨rfl, x, hx, ha, hv⟩ := (Preemption.executes_atLevel_iff keyboardWorld_ranked
    keyboardWorld_undisturbed hcalls.later htpl).mp h
  have hrun : body.run keyboardWorld.answer x = _ := run_unrecorded hcalls x
  rw [hrun] at ha hv
  obtain ⟨before, hbefore⟩ := keyboardWorld_advances hx
  exact ⟨rfl, x, before, hbefore, ha, hv⟩

/-- A request that does not read the flags. -/
theorem Served.of_step {before : List KeystrokeAction} (hbefore : Advances m before x)
    (hreply : x.toKeyboardMemory.reply request = reply)
    (hstep : x.toKeyboardMemory.step request.action = some memory)
    (hflags : ∀ k, reply ≠ .keyData .success (some k))
    (h : keyboardWorld.Interferes tpl { x with toKeyboardMemory := memory } m') :
    Served m request reply m' := by
  obtain ⟨behind, hbehind⟩ := keyboardWorld_advances h
  exact .intro hbefore hstep (congrArg _ hreply) (.refl _) (fun k hk => absurd hk (hflags k))
    hbehind

theorem KeyboardMemory.step_consistent (h : memory.Consistent)
    (hstep : memory.step action = some memory') : memory'.Consistent := by
  obtain ⟨s', hs', rfl⟩ := Option.map_eq_some_iff.mp hstep
  exact KeystrokeState.step_consistent (s := ⟨_, _, _, [], []⟩) h hs'

theorem Advances.consistent (h : Advances m actions m') (hm : m.Consistent) : m'.Consistent := by
  refine Run.run_invariant (fun m : KeyboardRecord => m.Consistent) (fun m action m' hm hstep => ?_)
    h.steps hm
  obtain ⟨memory, hmemory, rfl⟩ := Option.map_eq_some_iff.mp hstep
  exact KeyboardMemory.step_consistent hm hmemory

theorem Served.consistent (h : Served m request reply m') (hm : m.Consistent) : m'.Consistent := by
  obtain ⟨hbefore, hstep, -, hbetween, -, hbehind⟩ := h
  exact hbehind.consistent
    (hbetween.consistent (KeyboardMemory.step_consistent (hbefore.consistent hm) hstep))

/-- A request of one section. -/
theorem Served.of_section {α : Type} {body : DevM α} {wrap : α → KeyboardReply}
    (htpl : tpl ≤ TPL_NOTIFY.toNat) (hm : m.Consistent)
    (hcalls : body.Calls DevAccess.Unrecorded)
    (hbody : ∀ memory : KeyboardMemory, memory.Consistent →
      memory.step request.action = some (body.run KeyboardMemory.answer memory).2 ∧
        memory.reply request = wrap (body.run KeyboardMemory.answer memory).1)
    (hflags : ∀ a k, wrap a ≠ .keyData .success (some k))
    (h : Executes keyboardWorld (atLevel TPL_NOTIFY.toNat body >>= fun a => pure (wrap a)) tpl
      m reply tpl' m') :
    tpl' = tpl ∧ Served m request reply m' := by
  obtain ⟨a, middle, v, hsection, hret⟩ := Preemption.executes_bind_iff.mp h
  obtain ⟨rfl, x, before, hbefore, rfl, hv⟩ := section_executes htpl hcalls hsection
  obtain ⟨rfl, rfl, hrest⟩ := Preemption.executes_ret_iff.mp hret
  obtain ⟨hstep, hreply⟩ := hbody x.toKeyboardMemory (hbefore.consistent hm)
  exact ⟨rfl, .of_step hbefore hreply hstep (hflags _) (hv.trans hrest)⟩

/-- The second section of `ReadKeyStrokeEx` reads the flags of the moment. -/
theorem addKeyState_executes (htpl : tpl ≤ TPL_NOTIFY.toNat) {old : EfiKeyData}
    {read : EfiStatus × Option EfiInputKey} {result : EfiStatus × Option EfiKeyData}
    (h : Executes keyboardWorld (addKeyState old read) tpl m result tpl' m') :
    tpl' = tpl ∧ ∃ x between, Advances m between x ∧ keyboardWorld.Interferes tpl x m' ∧
      result = if read.1.isError then (read.1, some old) else
        (.success, some ⟨read.2.getD .null, buildKeyState x.dev.toModifiers⟩) := by
  rw [addKeyState] at h
  by_cases herror : read.1.isError = true
  · rw [if_pos herror] at h
    obtain ⟨rfl, rfl, hrest⟩ := Preemption.executes_ret_iff.mp h
    exact ⟨rfl, m, [], .refl m, hrest, (if_pos herror).symm⟩
  · rw [if_neg herror] at h
    obtain ⟨keyState, middle, v, hsection, hret⟩ := Preemption.executes_bind_iff.mp h
    obtain ⟨rfl, x, between, hbetween, rfl, hv⟩ := section_executes htpl loadKeyState_calls hsection
    obtain ⟨rfl, rfl, hrest⟩ := Preemption.executes_ret_iff.mp hret
    exact ⟨rfl, x, between, hbetween, hv.trans hrest, (if_neg herror).symm⟩

/-- The first section of `ReadKeyStrokeEx` is all of it but for the modifier flags. -/
theorem takeKey_cases (memory : KeyboardMemory) (old : EfiKeyData) :
    (∃ taken key keyState, memory.step (.readKeyStrokeEx (some old)) = some taken ∧
      memory.reply (.readKeyStrokeEx (some old)) = .keyData .success (some ⟨key, keyState⟩) ∧
      (takeKey .null).run KeyboardMemory.answer memory = ((.success, some key), taken)) ∨
    (∃ status, status ≠ .success ∧ memory.step (.readKeyStrokeEx (some old)) = some memory ∧
      memory.reply (.readKeyStrokeEx (some old)) = .keyData status (some old) ∧
      (takeKey .null).run KeyboardMemory.answer memory = ((status, some .null), memory)) := by
  have hrun := takeKey_run memory .null
  simp only [KeyboardMemory.step, KeystrokeState.step, KeyboardMemory.reply, readKeyStrokeEx, hrun]
  rcases readKeyStroke_cases memory.dev (some .null) with ⟨-, htaken⟩ | ⟨-, status, hstatus, htaken⟩
  · rw [htaken]
    exact .inl ⟨_, _, _, rfl, rfl, rfl⟩
  · rw [htaken]
    refine .inr ⟨status, hstatus, ?_⟩
    cases status <;> first | exact absurd rfl hstatus | exact ⟨rfl, rfl, rfl⟩

/-- `ReadKeyStrokeEx` has taken the key when it comes to read the modifier flags. -/
theorem readKeyStrokeEx_served (htpl : tpl ≤ TPL_NOTIFY.toNat) (old : EfiKeyData)
    (h : Executes keyboardWorld (KeyboardRequest.readKeyStrokeEx (some old)).code tpl
      m reply tpl' m') :
    tpl' = tpl ∧ Served m (.readKeyStrokeEx (some old)) reply m' := by
  have hcode : (KeyboardRequest.readKeyStrokeEx (some old)).code
      = atLevel TPL_NOTIFY.toNat (takeKey .null) >>= addKeyState old >>= fun read =>
        pure (.keyData read.1 read.2) := by
    rw [← goldfishEventsReadKeyStrokeEx_eq]
    rfl
  rw [hcode] at h
  obtain ⟨result, level, v, hread, hret⟩ := Preemption.executes_bind_iff.mp h
  obtain ⟨rfl, rfl, hlast⟩ := Preemption.executes_ret_iff.mp hret
  obtain ⟨taken, level, w, htake, hadd⟩ := Preemption.executes_bind_iff.mp hread
  obtain ⟨rfl, x, before, hbefore, rfl, hw⟩ := section_executes htpl (takeKey_calls .null) htake
  obtain ⟨rfl, y, between, hbetween, hyv, hresult⟩ := addKeyState_executes htpl hadd
  -- What preempts the call before it reads the flags comes behind the step.
  obtain ⟨first, hfirst⟩ := keyboardWorld_advances hw
  obtain ⟨behind, hbehind⟩ := keyboardWorld_advances (hyv.trans hlast)
  refine ⟨rfl, ?_⟩
  rcases takeKey_cases x.toKeyboardMemory old with
    ⟨memory, key, keyState, hstep, hreply, hrun⟩ | ⟨status, hstatus, hstep, hreply, hrun⟩
  · rw [hrun] at hfirst hresult
    have hreturned : result = (.success, some ⟨key, buildKeyState y.dev.toModifiers⟩) := hresult
    rw [hreturned]
    refine .intro hbefore hstep ?_ (hfirst.append hbetween) ?_ hbehind
    · rw [hreply]
      rfl
    · rintro k ⟨⟩
      rfl
  · rw [hrun] at hfirst hresult
    have hreturned : result = (status, some old) :=
      hresult.trans (if_pos (bne_iff_ne.mpr hstatus))
    rw [hreturned]
    refine .intro hbefore hstep (congrArg _ hreply) (hfirst.append hbetween) ?_ hbehind
    rintro k ⟨⟩
    exact absurd rfl hstatus

/-- A request that returns at once. -/
theorem Served.of_ret {own : KeyboardReply} (hcode : request.code = pure own)
    (hreply : m.toKeyboardMemory.reply request = own)
    (hstep : m.toKeyboardMemory.step request.action = some m.toKeyboardMemory)
    (hflags : ∀ k, own ≠ .keyData .success (some k))
    (h : Executes keyboardWorld request.code tpl m reply tpl' m') :
    tpl' = tpl ∧ Served m request reply m' := by
  rw [hcode] at h
  obtain ⟨rfl, rfl, hrest⟩ := Preemption.executes_ret_iff.mp h
  exact ⟨rfl, .of_step (.refl m) hreply hstep hflags hrest⟩

theorem readKeyStroke_served (htpl : tpl ≤ TPL_NOTIFY.toNat) (hm : m.Consistent)
    (old : EfiInputKey)
    (h : Executes keyboardWorld (KeyboardRequest.readKeyStroke (some old)).code tpl
      m reply tpl' m') :
    tpl' = tpl ∧ Served m (.readKeyStroke (some old)) reply m' := by
  have hcode : (KeyboardRequest.readKeyStroke (some old)).code
      = atLevel TPL_NOTIFY.toNat (takeKey old) >>= fun read => pure (.key read.1 read.2) := by
    rw [← goldfishEventsReadKeyStroke_eq]
    rfl
  rw [hcode] at h
  refine Served.of_section htpl hm (takeKey_calls old) (fun memory _ => ?_)
    (fun _ _ hk => by cases hk) h
  rw [takeKey_run]
  refine ⟨?_, rfl⟩
  show Option.map _ (KeystrokeState.step _ (.readKeyStroke (some old))) = _
  rw [KeystrokeState.step]
  rcases readKeyStroke_cases memory.dev (some old) with ⟨-, hread⟩ | ⟨-, status, hstatus, hread⟩
  · simp only [KeystrokeState.memory, hread, Option.map_some]
  · simp only [hread]
    cases status <;> first | exact absurd rfl hstatus | rfl

theorem registerKeyNotify_served (htpl : tpl ≤ TPL_NOTIFY.toNat) (hm : m.Consistent)
    (keyData : KeyDataBytes) {fn : UINT64} (hfn : fn ≠ 0) (notifyHandle newNotify : UINT64)
    (h : Executes keyboardWorld
      (KeyboardRequest.registerKeyNotify (some keyData) fn (some notifyHandle) newNotify).code tpl
      m reply tpl' m') :
    tpl' = tpl ∧
      Served m (.registerKeyNotify (some keyData) fn (some notifyHandle) newNotify) reply m' := by
  have hcode : (KeyboardRequest.registerKeyNotify (some keyData) fn (some notifyHandle)
        newNotify).code
      = atLevel TPL_NOTIFY.toNat (registerEntry keyData fn (some notifyHandle) newNotify)
        >>= fun result => pure (.handle result.1 result.2) := by
    rw [← goldfishEventsRegisterKeyNotify_eq keyData hfn]
    rfl
  rw [hcode] at h
  refine Served.of_section htpl hm (registerEntry_calls _ _ _ _) (fun memory hmemory => ?_)
    (fun _ _ hk => by cases hk) h
  rw [registerEntry_run hmemory keyData hfn]
  exact ⟨rfl, rfl⟩

theorem unregisterKeyNotify_served (htpl : tpl ≤ TPL_NOTIFY.toNat) (hm : m.Consistent)
    {handle : UINT64} (hhandle : handle ≠ 0)
    (h : Executes keyboardWorld (KeyboardRequest.unregisterKeyNotify handle).code tpl
      m reply tpl' m') :
    tpl' = tpl ∧ Served m (.unregisterKeyNotify handle) reply m' := by
  have hcode : (KeyboardRequest.unregisterKeyNotify handle).code
      = atLevel TPL_NOTIFY.toNat (unregisterEntry handle)
        >>= fun status => pure (.unregistered status) := by
    rw [← goldfishEventsUnregisterKeyNotify_eq hhandle]
    rfl
  rw [hcode] at h
  refine Served.of_section htpl hm (unregisterEntry_calls _) (fun memory hmemory => ?_)
    (fun _ _ hk => by cases hk) h
  rw [unregisterEntry_run hmemory hhandle]
  exact ⟨rfl, rfl⟩

/-- A preempted request is served as one step. -/
theorem request_served (htpl : tpl ≤ TPL_NOTIFY.toNat) (hm : m.Consistent)
    (h : Executes keyboardWorld request.code tpl m reply tpl' m') :
    tpl' = tpl ∧ Served m request reply m' := by
  have hstored : some { m.toKeyboardMemory with
      dev := { m.dev with notifyList := m.notifyList.map NotifyEntry.toNotify } }
      = some m.toKeyboardMemory := congrArg some hm.store
  cases request with
  | readKeyStroke key =>
      cases key with
      | none => exact Served.of_ret rfl rfl rfl (fun _ hk => by cases hk) h
      | some old => exact readKeyStroke_served htpl hm old h
  | readKeyStrokeEx keyData =>
      cases keyData with
      | none => exact Served.of_ret rfl rfl rfl (fun _ hk => by cases hk) h
      | some old => exact readKeyStrokeEx_served htpl old h
  | registerKeyNotify keyData fn notifyHandle newNotify =>
      cases keyData with
      | none => exact Served.of_ret rfl rfl hstored (fun _ hk => by cases hk) h
      | some keyData =>
          cases notifyHandle with
          | none => exact Served.of_ret rfl rfl hstored (fun _ hk => by cases hk) h
          | some notifyHandle =>
              by_cases hfn : fn = 0
              · subst hfn
                exact Served.of_ret rfl rfl hstored (fun _ hk => by cases hk) h
              · exact registerKeyNotify_served htpl hm keyData hfn notifyHandle newNotify h
  | unregisterKeyNotify handle =>
      by_cases hhandle : handle = 0
      · subst hhandle
        exact Served.of_ret rfl rfl hstored (fun _ hk => by cases hk) h
      · exact unregisterKeyNotify_served htpl hm hhandle h

/-- So is each request of a caller. -/
theorem ServesCalls.linearizes (h : ServesCalls tpl m calls tpl' m') (htpl : tpl ≤ TPL_NOTIFY.toNat)
    (hm : m.Consistent) (hs : s.memory = m.toKeyboardMemory) :
    tpl' = tpl ∧ m'.log = m.log ++ calls.flatMap KeyboardCall.meanwhile ∧
      (∀ call ∈ calls, ∀ action ∈ call.meanwhile, action.interferes = true) ∧
      ∃ s', Linearizes s calls s' ∧ s'.memory = m'.toKeyboardMemory := by
  induction h generalizing s with
  | nil tpl m => exact ⟨rfl, (List.append_nil _).symm, fun _ h => absurd h List.not_mem_nil, s,
      .nil s, hs⟩
  | cons hfirst hmeanwhile _ ih =>
      obtain ⟨rfl, hserved⟩ := request_served htpl hm hfirst
      obtain ⟨hinterferes, t, u, v, before, behind, heffect, hv⟩ :=
        hserved.takesEffect hmeanwhile hs
      obtain ⟨rfl, hlog, hlater, s', hrest, hs'⟩ := ih htpl (hserved.consistent hm) hv
      refine ⟨rfl, ?_, ?_, s', .cons heffect hrest, hs'⟩
      · rw [hlog, hmeanwhile, List.append_assoc, List.flatMap_cons]
      · intro call hcall
        rcases List.mem_cons.mp hcall with rfl | hmem
        · exact hinterferes
        · exact hlater call hmem

-- ============================================================================
-- The keys that were read
-- ============================================================================

/-- The key that a read returns with `EFI_SUCCESS`. -/
def KeyboardReply.keyRead : KeyboardReply → Option EfiInputKey
  | .key .success read => read
  | .keyData .success read => read.map EfiKeyData.key
  | _ => none

def keysIn (replies : List KeyboardReply) : List EfiInputKey :=
  replies.filterMap KeyboardReply.keyRead

theorem KeyboardReply.keyRead_withoutState (reply : KeyboardReply) :
    reply.withoutState.keyRead = reply.keyRead := by
  cases reply with
  | keyData status read => cases status <;> rfl
  | _ => rfl

/-- A read takes the key that its reply holds. -/
theorem KeystrokeState.takenIn_request (hstep : s.step request.action = some s') :
    takenIn s'.history = takenIn s.history ++ (s.memory.reply request).keyRead.toList := by
  cases request with
  | readKeyStroke key =>
      rw [KeyboardRequest.action, KeystrokeState.step] at hstep
      rw [KeyboardMemory.reply, KeystrokeState.memory]
      rcases readKeyStroke_cases s.dev key with ⟨-, hread⟩ | ⟨-, status, hstatus, hread⟩
      · rw [hread] at hstep ⊢
        obtain rfl := Option.some.inj hstep
        simp [KeystrokeState.history, KeyboardReply.keyRead]
      · rw [hread] at hstep ⊢
        cases status <;> first
          | exact absurd rfl hstatus
          | (obtain rfl := Option.some.inj hstep
             simp [KeystrokeState.history, KeyboardReply.keyRead])
  | readKeyStrokeEx keyData =>
      rw [KeyboardRequest.action, KeystrokeState.step] at hstep
      rw [KeyboardMemory.reply, KeystrokeState.memory]
      rcases readKeyStrokeEx_cases s.dev keyData with ⟨-, -, hread⟩ | ⟨-, status, hstatus, hread⟩
      · rw [hread] at hstep ⊢
        obtain rfl := Option.some.inj hstep
        simp [KeystrokeState.history, KeyboardReply.keyRead]
      · rw [hread] at hstep ⊢
        cases status <;> first
          | exact absurd rfl hstatus
          | (obtain rfl := Option.some.inj hstep
             simp [KeystrokeState.history, KeyboardReply.keyRead])
  | _ =>
      obtain rfl := Option.some.inj hstep
      simp [KeystrokeState.history, KeyboardMemory.reply, KeyboardReply.keyRead]

/-- Nobody else takes a key. -/
theorem KeystrokeState.takenIn_interferes (hinterferes : action.interferes = true)
    (hstep : s.step action = some s') : takenIn s'.history = takenIn s.history := by
  cases action with
  | arrive words =>
      obtain rfl := Option.some.inj hstep
      rfl
  | poll haveNotify =>
      obtain rfl := Option.some.inj hstep
      simp [KeystrokeState.history, takenIn, List.filterMap_map]
  | dispatch =>
      obtain rfl := Option.some.inj hstep
      simp [KeystrokeState.history, takenIn, List.filterMap_map]
  | _ => cases hinterferes

theorem takenIn_of_interferes (hinterferes : ∀ action ∈ actions, action.interferes = true)
    (hrun : run KeystrokeState.step s actions = some s') :
    takenIn s'.history = takenIn s.history := by
  induction actions generalizing s with
  | nil => rw [Option.some.inj hrun]
  | cons action actions ih =>
      obtain ⟨t, ht, hrest⟩ := Run.run_cons hrun
      rw [ih (fun a ha => hinterferes a (List.mem_cons_of_mem _ ha)) hrest]
      exact KeystrokeState.takenIn_interferes (hinterferes action List.mem_cons_self) ht

/-- The keys in the replies are those that were taken. -/
theorem Linearizes.takenIn (h : Linearizes s calls s')
    (hinterferes : ∀ call ∈ calls, ∀ action ∈ call.meanwhile, action.interferes = true) :
    takenIn s'.history = takenIn s.history ++ keysIn (calls.map KeyboardCall.reply) := by
  induction h with
  | nil s => exact (List.append_nil _).symm
  | @cons s t u v s' call calls before behind heffect _ ih =>
      have hmeanwhile := hinterferes call List.mem_cons_self
      rw [heffect.meanwhile] at hmeanwhile
      have hbefore := takenIn_of_interferes
        (fun a ha => hmeanwhile a (List.mem_append_left _ ha)) heffect.runBefore
      have hbehind := takenIn_of_interferes
        (fun a ha => hmeanwhile a (List.mem_append_right _ ha)) heffect.runBehind
      have hreply : (t.memory.reply call.request).keyRead = call.reply.keyRead := by
        rw [← KeyboardReply.keyRead_withoutState, heffect.replied,
          KeyboardReply.keyRead_withoutState]
      rw [ih fun c hc => hinterferes c (List.mem_cons_of_mem _ hc), hbehind,
        KeystrokeState.takenIn_request heffect.step, hbefore, hreply, List.append_assoc]
      congr 1
      cases hread : call.reply.keyRead <;> simp [keysIn, hread]

theorem Linearizes.sound (h : Linearizes s calls s') (hs : s.Sound) : s'.Sound := by
  have hrun {s s' : KeystrokeState} {actions : List KeystrokeAction} (hs : s.Sound)
      (h : run KeystrokeState.step s actions = some s') : s'.Sound :=
    Run.run_invariant KeystrokeState.Sound (fun _ _ _ h hstep => h.step hstep) h hs
  induction h with
  | nil s => exact hs
  | cons heffect _ ih =>
      have hstep := (hrun hs heffect.runBefore).step heffect.step
      exact ih (hrun hstep heffect.runBehind)

-- ============================================================================
-- The presses
-- ============================================================================

/-- The same words wait, and the same presses were decoded. -/
structure SamePresses (s u : KeystrokeState) : Prop where
  fifo : s.fifo = u.fifo
  modifiers : s.dev.toModifiers = u.dev.toModifiers
  presses : pressesIn s.history = pressesIn u.history

/-- What a poll decodes depends on the modifier flags alone. -/
theorem pollLoop_congr {dev dev' : GoldfishEventsDev} (hdev : dev.toModifiers = dev'.toModifiers)
    (haveNotify haveNotify' : Bool) (fifo : List UINT32) :
    (pollLoop dev haveNotify fifo).1.toModifiers = (pollLoop dev' haveNotify' fifo).1.toModifiers ∧
      (pollLoop dev haveNotify fifo).2.2 = (pollLoop dev' haveNotify' fifo).2.2 ∧
      pollPresses dev fifo = pollPresses dev' fifo := by
  have hrecord {dev dev' : GoldfishEventsDev} (hdev : dev.toModifiers = dev'.toModifiers)
      (type code value : UINT32) : (pollRecord dev type code value).1.toModifiers
        = (pollRecord dev' type code value).1.toModifiers := by
    rw [pollRecord_modifiers, pollRecord_modifiers, hdev]
  fun_induction pollLoop dev haveNotify fifo generalizing dev' haveNotify' with
  | case1 dev haveNotify => exact ⟨hdev, rfl, rfl⟩
  | case2 dev haveNotify => exact ⟨hdev, rfl, rfl⟩
  | case3 dev haveNotify type hne =>
      simp only [pollLoop, pollPresses, if_neg hne, hdev, and_true]
      exact hrecord hdev _ _ _
  | case4 dev haveNotify code => exact ⟨hdev, rfl, rfl⟩
  | case5 dev haveNotify type code hne =>
      simp only [pollLoop, pollPresses, if_neg hne, hdev, and_true]
      exact hrecord hdev _ _ _
  | case6 dev haveNotify code value rest => exact ⟨hdev, rfl, rfl⟩
  | case7 dev haveNotify type code value rest hne polled =>
      rename_i ih
      obtain ⟨hmodifiers, hfifo, hpresses⟩ := ih (hrecord hdev type code value)
        (haveNotify' || (pollRecord dev' type code value).2)
      simp only [pollLoop, pollPresses, if_neg hne, hdev]
      exact ⟨hmodifiers, hfifo, congrArg _ hpresses⟩

theorem keyNotifyProcessHandler_modifiers (dev : GoldfishEventsDev) :
    (keyNotifyProcessHandler dev).1.toModifiers = dev.toModifiers := by
  rw [keyNotifyProcessHandler]
  split <;> rfl

theorem SamePresses.interferes (h : SamePresses s u) (hinterferes : action.interferes = true)
    (hstep : s.step action = some s') : ∃ u', u.step action = some u' ∧ SamePresses s' u' := by
  cases action with
  | arrive words =>
      obtain rfl := Option.some.inj hstep
      exact ⟨_, rfl, congrArg (· ++ words) h.fifo, h.modifiers, h.presses⟩
  | poll haveNotify =>
      obtain rfl := Option.some.inj hstep
      obtain ⟨hmodifiers, hfifo, hpresses⟩ :=
        pollLoop_congr h.modifiers haveNotify haveNotify s.fifo
      refine ⟨_, rfl, ?_, ?_, ?_⟩
      · rw [← h.fifo]
        exact hfifo
      · rw [← h.fifo]
        exact hmodifiers
      · have hbefore := h.presses
        simp only [KeystrokeState.history, List.flatten_append, List.flatten_singleton,
          pressesIn_append, ← List.append_assoc] at hbefore ⊢
        rw [hbefore, hpresses, h.fifo]
  | dispatch =>
      obtain rfl := Option.some.inj hstep
      refine ⟨_, rfl, h.fifo, ?_, ?_⟩
      · rw [keyNotifyProcessHandler_modifiers, keyNotifyProcessHandler_modifiers, h.modifiers]
      · have hbefore := h.presses
        simp [KeystrokeState.history, pressesIn, List.filterMap_map] at hbefore ⊢
        exact hbefore
  | _ => cases hinterferes

theorem SamePresses.run (h : SamePresses s u)
    (hinterferes : ∀ action ∈ actions, action.interferes = true)
    (hrun : run KeystrokeState.step s actions = some s') :
    ∃ u', run KeystrokeState.step u actions = some u' ∧ SamePresses s' u' := by
  induction actions generalizing s u with
  | nil => exact ⟨u, rfl, Option.some.inj hrun ▸ h⟩
  | cons action actions ih =>
      obtain ⟨t, ht, hrest⟩ := Run.run_cons hrun
      obtain ⟨v, hv, hsame⟩ := h.interferes (hinterferes action List.mem_cons_self) ht
      obtain ⟨u', hu', hlast⟩ := ih hsame (fun a ha => hinterferes a (List.mem_cons_of_mem _ ha))
        hrest
      exact ⟨u', by rw [run, hv]; exact hu', hlast⟩

/-- A request decodes no press. -/
theorem SamePresses.afterRequest (h : SamePresses s u) (hstep : s.step request.action = some s') :
    SamePresses s' u := by
  cases request with
  | readKeyStroke key =>
      rcases KeystrokeState.step_readKeyStroke hstep with ⟨-, rfl⟩ | rfl
      · exact ⟨h.fifo, h.modifiers, by simpa [KeystrokeState.history] using h.presses⟩
      · exact h
  | readKeyStrokeEx keyData =>
      rcases KeystrokeState.step_readKeyStrokeEx hstep with ⟨-, rfl⟩ | rfl
      · exact ⟨h.fifo, h.modifiers, by simpa [KeystrokeState.history] using h.presses⟩
      · exact h
  | registerKeyNotify keyData fn notifyHandle newNotify =>
      obtain rfl := Option.some.inj hstep
      exact ⟨h.fifo, h.modifiers, h.presses⟩
  | unregisterKeyNotify handle =>
      obtain rfl := Option.some.inj hstep
      exact ⟨h.fifo, h.modifiers, h.presses⟩

/-- Without the calls the same presses are decoded. -/
theorem Linearizes.samePresses (h : Linearizes s calls s')
    (hinterferes : ∀ call ∈ calls, ∀ action ∈ call.meanwhile, action.interferes = true)
    (hsame : SamePresses s u) :
    ∃ u', run KeystrokeState.step u (calls.flatMap KeyboardCall.meanwhile) = some u' ∧
      SamePresses s' u' := by
  induction h generalizing u with
  | nil s => exact ⟨u, rfl, hsame⟩
  | @cons s t _ v s' call calls before behind heffect _ ih =>
      have hmeanwhile := hinterferes call List.mem_cons_self
      rw [heffect.meanwhile] at hmeanwhile
      obtain ⟨x, hx, hxsame⟩ := hsame.run (fun a ha => hmeanwhile a (List.mem_append_left _ ha))
        heffect.runBefore
      obtain ⟨y, hy, hysame⟩ := (hxsame.afterRequest heffect.step).run
        (fun a ha => hmeanwhile a (List.mem_append_right _ ha)) heffect.runBehind
      obtain ⟨u', hu', hlast⟩ := ih (fun c hc => hinterferes c (List.mem_cons_of_mem _ hc)) hysame
      refine ⟨u', ?_, hlast⟩
      rw [List.flatMap_cons, heffect.meanwhile, List.append_assoc, Run.run_append hx,
        Run.run_append hy, hu']

theorem KeystrokeState.Sound.faithful_history (h : s.Sound) : Faithful s.history := by
  refine faithful_flatten fun epoch hmem => ?_
  rcases List.mem_append.mp hmem with hpast | hlast
  · exact h.past epoch hpast epoch (List.prefix_refl epoch)
  · rw [List.mem_singleton.mp hlast]
    exact h.follows.faithful _ (List.prefix_refl _)

/-- However the calls are preempted by the device, the timer and the dispatch of
    notifications, the caller gets the TPL back, and each call is one step among what has
    happened from the return of the call before to its own, with its reply, but for the
    modifier flags of `ReadKeyStrokeEx`: they are the flags of a state between the step and
    the return.  The keys that were read are presses that the polls have decoded, each at
    most once and in order. -/
theorem preempted_calls_linearize (htpl : tpl ≤ TPL_NOTIFY.toNat)
    (h : ServesCalls tpl .initial calls tpl' m') :
    tpl' = tpl ∧ (∀ action ∈ m'.log, action.interferes = true) ∧
      ∃ s, Linearizes .initial calls s ∧ s.memory = m'.toKeyboardMemory ∧
        keysIn (calls.map KeyboardCall.reply) = takenIn s.history ∧
        ∃ u, run KeystrokeState.step .initial m'.log = some u ∧
          (keysIn (calls.map KeyboardCall.reply)).Sublist
            ((pressesIn u.history).map Press.key) := by
  have hconsistent : KeyboardRecord.initial.Consistent := rfl
  obtain ⟨rfl, hlog, hinterferes, s, hlinearizes, hmemory⟩ := h.linearizes htpl hconsistent rfl
  have hlog' : m'.log = calls.flatMap KeyboardCall.meanwhile := hlog
  have htaken : takenIn s.history = keysIn (calls.map KeyboardCall.reply) :=
    hlinearizes.takenIn hinterferes
  obtain ⟨u, hu, hsame⟩ := hlinearizes.samePresses hinterferes ⟨rfl, rfl, rfl⟩
  refine ⟨rfl, ?_, s, hlinearizes, hmemory, htaken.symm, u, hlog'.symm ▸ hu, ?_⟩
  · intro action haction
    rw [hlog'] at haction
    obtain ⟨call, hcall, hmem⟩ := List.mem_flatMap.mp haction
    exact hinterferes call hcall action hmem
  · rw [← htaken, ← hsame.presses]
    exact (hlinearizes.sound .initial).faithful_history.1

/-- `ReadKeyStrokeEx` with the press of a key before it, and that of Shift before it
    returns. -/
def shiftedCall : KeyboardCall where
  request := .readKeyStrokeEx (some ⟨.null, ⟨0, 0⟩⟩)
  reply := .keyData .success (some ⟨⟨97, 97⟩, buildKeyState ⟨true, false, false⟩⟩)
  meanwhile := [.arrive [1, 30, 1], .poll false, .arrive [1, 42, 1], .poll false]

/-- The timer preempts `ReadKeyStrokeEx` at `TPL_APPLICATION` between its two sections: the
    key was pressed without Shift, which the reply says is down. -/
theorem preempted_calls_linearize_shift :
    ∃ m', ServesCalls 4 .initial [shiftedCall] 4 m' ∧ m'.log = shiftedCall.meanwhile ∧
      ∃ s, Linearizes .initial [shiftedCall] s ∧ s.memory = m'.toKeyboardMemory ∧
        takenIn s.history = [⟨97, 97⟩] := by
  have hstep (m m' : KeyboardRecord) (words : List UINT32)
      (h : m.step (.arrive words) = some m') : keyboardWorld.interferes 4 m m' :=
    .inl (.inl ⟨words, h⟩)
  have hpoll (m m' : KeyboardRecord) (h : m.step (.poll false) = some m') :
      keyboardWorld.interferes 4 m m' :=
    .inl (.inr ⟨by decide, false, h⟩)
  have h : ∃ m', Executes keyboardWorld shiftedCall.request.code 4 .initial shiftedCall.reply 4 m' ∧
      m'.log = shiftedCall.meanwhile := by
    apply Exists.intro
    apply And.intro
    · apply Executes.interfere (hstep _ _ [1, 30, 1] rfl)
      apply Executes.interfere (hpoll _ _ rfl)
      apply Executes.raise 16
      apply Executes.access
      apply Executes.access
      apply Executes.access
      apply Executes.restore 4
      apply Executes.interfere (hstep _ _ [1, 42, 1] rfl)
      apply Executes.interfere (hpoll _ _ rfl)
      apply Executes.raise 16
      apply Executes.access
      apply Executes.access
      apply Executes.access
      apply Executes.restore 4
      exact .ret _ _ _
    · rfl
  obtain ⟨m', hexecutes, hlog⟩ := h
  have hserves : ServesCalls 4 .initial [shiftedCall] 4 m' := .cons hexecutes hlog (.nil 4 m')
  obtain ⟨-, -, s, hlinearizes, hmemory, htaken, -⟩ := preempted_calls_linearize (by decide) hserves
  exact ⟨m', hserves, hlog, s, hlinearizes, hmemory, htaken.symm⟩

end UemuPkg
