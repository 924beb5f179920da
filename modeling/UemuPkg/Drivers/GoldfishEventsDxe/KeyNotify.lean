/-
  UemuPkg.Drivers.GoldfishEventsDxe.KeyNotify

  Delivery of hotkeys.  Presses pass from the event register through the one-slot
  notify queue to the registered functions.  A poll keeps only the last of the
  presses it finds, behind one that may still wait in the slot; the others are
  lost, and nothing else is.
-/

import Mathlib.Data.List.Nodup
import UemuPkg.Drivers.GoldfishEventsDxe.Model
import UemuPkg.Generic.Run

namespace UemuPkg

open Run (run AllSteps)

-- ============================================================================
-- The system
-- ============================================================================

/-- An `EV_KEY` record of the device. -/
structure KeyRecord where
  code : UINT32
  value : UINT32
  deriving DecidableEq, Repr

/-- The words of a list of records in the event register. -/
def eventWords (records : List KeyRecord) : List UINT32 :=
  records.flatMap fun r => [EV_KEY, r.code, r.value]

/-- The driver and its device.  `stream` and `calls` record what has happened.  Polls
    run at `TPL_NOTIFY`, so nothing of the driver runs inside one, and a record that
    arrives during a poll arrives for it or for the next.  The handler takes the key
    under `TPL_NOTIFY` and calls with its copy: a poll meanwhile is a poll after it. -/
structure KeyboardState where
  dev : GoldfishEventsDev
  fifo : List UINT32
  /-- `KeyNotifyProcessEvent` is signalled and its handler has not run. -/
  pending : Bool
  /-- The records that have arrived. -/
  stream : List KeyRecord
  /-- The calls of registered functions. -/
  calls : List NotifyCall

inductive KeyboardAction where
  | arrive (record : KeyRecord)
  /-- `PollKeyboard`, with what its uninitialised local holds. -/
  | poll (haveNotify : Bool)
  /-- `KeyNotifyProcessHandler` of a signalled event. -/
  | dispatch
  deriving DecidableEq, Repr

def KeyboardState.step (s : KeyboardState) : KeyboardAction → Option KeyboardState
  | .arrive record =>
    some { s with
      fifo := s.fifo ++ eventWords [record]
      stream := s.stream ++ [record] }
  | .poll haveNotify =>
    let polled := pollKeyboard s.dev haveNotify s.fifo
    some { s with
      dev := polled.dev
      fifo := polled.fifo
      pending := s.pending || polled.signalled }
  | .dispatch =>
    if s.pending then
      let handled := keyNotifyProcessHandler s.dev
      some { s with
        dev := handled.1
        pending := false
        calls := s.calls ++ handled.2 }
    else
      none

/-- After initialisation, with the given registrations. -/
def KeyboardState.initial (notifyList : List GoldfishEventsNotify) : KeyboardState where
  dev :=
    { keyShift := false
      keyCtrl := false
      keyAlt := false
      key := .null
      keyReady := false
      notifyKeyReady := false
      notifyKeyData := ⟨.null, ⟨0, 0⟩⟩
      notifyList }
  fifo := []
  pending := false
  stream := []
  calls := []

-- ============================================================================
-- Presses
-- ============================================================================

/-- `ConvertKeyCode` on a record. -/
def KeyRecord.convert (m : Modifiers) (r : KeyRecord) : Modifiers × EfiInputKey :=
  convertKeyCode m (r.code.setWidth 16) (r.value == 1)

/-- The modifiers after a list of records. -/
def modifiersAfter (m : Modifiers) (records : List KeyRecord) : Modifiers :=
  records.foldl (fun m r => (r.convert m).1) m

/-- What `ConvertKeyCode` decodes the presses of a list of records to. -/
def decodedPresses : Modifiers → List KeyRecord → List EfiInputKey
  | _, [] => []
  | m, r :: rs =>
    if r.value = 1 then
      (r.convert m).2 :: decodedPresses (r.convert m).1 rs
    else
      decodedPresses (r.convert m).1 rs

/-- The presses that decode to a key. -/
def keyPresses (m : Modifiers) (records : List KeyRecord) : List EfiInputKey :=
  (decodedPresses m records).filter (· ≠ .null)

theorem modifiersAfter_append (m : Modifiers) (xs ys : List KeyRecord) :
    modifiersAfter m (xs ++ ys) = modifiersAfter (modifiersAfter m xs) ys :=
  List.foldl_append

theorem decodedPresses_append (m : Modifiers) (xs ys : List KeyRecord) :
    decodedPresses m (xs ++ ys) = decodedPresses m xs ++ decodedPresses (modifiersAfter m xs) ys := by
  induction xs generalizing m with
  | nil => rfl
  | cons x xs ih =>
      have hnext : modifiersAfter m (x :: xs) = modifiersAfter (x.convert m).1 xs := rfl
      rw [List.cons_append, decodedPresses, decodedPresses, ih, hnext]
      split
      · rfl
      · rfl

/-- Releases decode to no key. -/
theorem convert_of_not_press (m : Modifiers) {r : KeyRecord} (h : r.value ≠ 1) :
    (r.convert m).2 = .null := by
  have hpressed : (r.value == 1) = false := beq_eq_false_iff_ne.mpr h
  rw [KeyRecord.convert, hpressed]
  rfl

theorem keyPresses_cons (m : Modifiers) (r : KeyRecord) (rs : List KeyRecord) :
    keyPresses m (r :: rs)
      = if (r.convert m).2 = .null then keyPresses (r.convert m).1 rs
        else (r.convert m).2 :: keyPresses (r.convert m).1 rs := by
  rw [keyPresses, decodedPresses]
  by_cases hpress : r.value = 1
  · rw [if_pos hpress]
    split
    · rename_i hnull
      rw [List.filter_cons_of_neg (by simpa using hnull)]
      rfl
    · rename_i hkey
      rw [List.filter_cons_of_pos (by simpa using hkey)]
      rfl
  · rw [if_neg hpress, if_pos (convert_of_not_press m hpress)]
    rfl

-- ============================================================================
-- One poll
-- ============================================================================

/-- The key that waits in the notify queue, if any. -/
def GoldfishEventsDev.slot (dev : GoldfishEventsDev) : List EfiInputKey :=
  if dev.notifyKeyReady then [dev.notifyKeyData.key] else []

/-- No record changes the registrations. -/
theorem pollRecord_notifyList (dev : GoldfishEventsDev) (type code value : UINT32) :
    (pollRecord dev type code value).1.notifyList = dev.notifyList := by
  rw [pollRecord_eq]
  split
  · rfl
  · dsimp only
    split
    · rfl
    · rfl

/-- A poll leaves the registrations alone. -/
theorem pollLoop_notifyList (dev : GoldfishEventsDev) (haveNotify : Bool) (fifo : List UINT32) :
    (pollLoop dev haveNotify fifo).1.notifyList = dev.notifyList := by
  fun_induction pollLoop dev haveNotify fifo with
  | case1 dev haveNotify => rfl
  | case2 dev haveNotify => rfl
  | case3 dev haveNotify type hne polled => exact pollRecord_notifyList dev type 0 0
  | case4 dev haveNotify code => rfl
  | case5 dev haveNotify type code hne polled => exact pollRecord_notifyList dev type code 0
  | case6 dev haveNotify code value rest => rfl
  | case7 dev haveNotify type code value rest hne polled ih =>
      exact ih.trans (pollRecord_notifyList dev type code value)

theorem pollRecord_key (dev : GoldfishEventsDev) (r : KeyRecord) :
    (pollRecord dev EV_KEY r.code r.value).1.toModifiers = (r.convert dev.toModifiers).1 ∧
      (if (r.convert dev.toModifiers).2 = .null then
        (pollRecord dev EV_KEY r.code r.value).2 = false ∧
          (pollRecord dev EV_KEY r.code r.value).1.slot = dev.slot
      else
        (pollRecord dev EV_KEY r.code r.value).2 = true ∧
          (pollRecord dev EV_KEY r.code r.value).1.slot = [(r.convert dev.toModifiers).2]) := by
  simp only [pollRecord_eq, ne_eq, not_true_eq_false, if_false, KeyRecord.convert]
  by_cases hkey : (convertKeyCode dev.toModifiers (r.code.setWidth 16) (r.value == 1)).2 = .null
  · rw [if_pos hkey, if_pos ((EfiInputKey.eq_null_iff _).mp hkey)]
    exact ⟨rfl, rfl, rfl⟩
  · rw [if_neg hkey, if_neg (mt (EfiInputKey.eq_null_iff _).mpr hkey)]
    exact ⟨rfl, rfl, rfl⟩

theorem pollLoop_eventWords_cons (dev : GoldfishEventsDev) (haveNotify : Bool) (r : KeyRecord)
    (rs : List KeyRecord) :
    pollLoop dev haveNotify (eventWords (r :: rs))
      = pollLoop (pollRecord dev EV_KEY r.code r.value).1
          (haveNotify || (pollRecord dev EV_KEY r.code r.value).2) (eventWords rs) := rfl

/-- A poll takes all records, and each of them sets the flags. -/
theorem pollLoop_eventWords (dev : GoldfishEventsDev) (haveNotify : Bool)
    (records : List KeyRecord) :
    (pollLoop dev haveNotify (eventWords records)).2.2 = [] ∧
      (pollLoop dev haveNotify (eventWords records)).1.toModifiers
        = modifiersAfter dev.toModifiers records := by
  induction records generalizing dev haveNotify with
  | nil => exact ⟨rfl, rfl⟩
  | cons r rs ih =>
      obtain ⟨hfifo, hmodifiers⟩ := ih (pollRecord dev EV_KEY r.code r.value).1
        (haveNotify || (pollRecord dev EV_KEY r.code r.value).2)
      rw [pollLoop_eventWords_cons]
      refine ⟨hfifo, ?_⟩
      rw [hmodifiers, (pollRecord_key dev r).1]
      rfl

/-- The slot then holds the last key of those it had and those that were pressed. -/
theorem pollLoop_eventWords_slot (dev : GoldfishEventsDev) (haveNotify : Bool)
    (records : List KeyRecord) :
    (pollLoop dev haveNotify (eventWords records)).1.slot
      = (dev.slot ++ keyPresses dev.toModifiers records).getLast?.toList := by
  induction records generalizing dev haveNotify with
  | nil =>
      show dev.slot = (dev.slot ++ []).getLast?.toList
      rw [GoldfishEventsDev.slot]
      split
      · rfl
      · rfl
  | cons r rs ih =>
      obtain ⟨hmodifiers, hkey⟩ := pollRecord_key dev r
      rw [pollLoop_eventWords_cons, ih, hmodifiers, keyPresses_cons]
      by_cases hnull : (r.convert dev.toModifiers).2 = .null
      · rw [if_pos hnull] at hkey ⊢
        rw [hkey.2]
      · rw [if_neg hnull] at hkey ⊢
        rw [hkey.2, List.getLast?_append, List.getLast?_append]
        cases keyPresses (r.convert dev.toModifiers).1 rs with
        | nil => rfl
        | cons key keys => simp [List.getLast?_cons]

/-- A press with a key sets `HaveNotify`. -/
theorem pollLoop_eventWords_haveNotify (dev : GoldfishEventsDev) (haveNotify : Bool)
    (records : List KeyRecord)
    (h : keyPresses dev.toModifiers records ≠ [] ∨ haveNotify = true) :
    (pollLoop dev haveNotify (eventWords records)).2.1 = true := by
  induction records generalizing dev haveNotify with
  | nil => exact h.resolve_left fun hne => hne rfl
  | cons r rs ih =>
      obtain ⟨hmodifiers, hkey⟩ := pollRecord_key dev r
      rw [pollLoop_eventWords_cons]
      apply ih
      rw [keyPresses_cons] at h
      rw [hmodifiers]
      by_cases hnull : (r.convert dev.toModifiers).2 = .null
      · rw [if_pos hnull] at hkey h
        rwa [hkey.1, Bool.or_false]
      · rw [if_neg hnull] at hkey
        exact .inr (by rw [hkey.1, Bool.or_true])

-- ============================================================================
-- Accounting
-- ============================================================================

/-- The records whose words are in the event register. -/
def recordsOf : List UINT32 → List KeyRecord
  | _ :: code :: value :: rest => ⟨code, value⟩ :: recordsOf rest
  | _ => []

@[simp] theorem recordsOf_eventWords (records : List KeyRecord) :
    recordsOf (eventWords records) = records := by
  induction records with
  | nil => rfl
  | cons r rs ih => exact congrArg (r :: ·) ih

theorem eventWords_append (xs ys : List KeyRecord) :
    eventWords (xs ++ ys) = eventWords xs ++ eventWords ys :=
  List.flatMap_append

def Modifiers.none : Modifiers := ⟨false, false, false⟩

/-- The presses of `key` that have arrived. -/
def KeyboardState.presses (s : KeyboardState) (key : EfiInputKey) : Nat :=
  (decodedPresses .none s.stream).count key

/-- The calls of the entry's function. -/
def KeyboardState.callsTo (s : KeyboardState) (entry : GoldfishEventsNotify) : Nat :=
  s.calls.countP fun call => call.entry.handle = entry.handle

/-- The presses of `key` in the event register. -/
def KeyboardState.queued (s : KeyboardState) (key : EfiInputKey) : Nat :=
  (decodedPresses s.dev.toModifiers (recordsOf s.fifo)).count key

/-- The keys a poll of this state overwrites in the notify queue: of the key that
    waits there and those the poll finds pressed, all but the last. -/
def KeyboardState.overwritten (s : KeyboardState) : List EfiInputKey :=
  (s.dev.slot ++ keyPresses s.dev.toModifiers (recordsOf s.fifo)).dropLast

/-- The presses of `key` that are lost by an action. -/
def KeyboardState.lostBy (s : KeyboardState) (key : EfiInputKey) : KeyboardAction → Nat
  | .poll _ => s.overwritten.count key + if key = .null then s.queued key else 0
  | _ => 0

/-- The state of a run in which `lost` presses of the entry's key have been lost. -/
structure Accounted (entry : GoldfishEventsNotify) (s : KeyboardState) (lost : Nat) : Prop where
  registered : entry ∈ s.dev.notifyList
  handles : (s.dev.notifyList.map GoldfishEventsNotify.handle).Nodup
  /-- The register holds the words of the last records, and the others were polled. -/
  framed : ∃ polled records, s.stream = polled ++ records ∧ s.fifo = eventWords records ∧
    s.dev.toModifiers = modifiersAfter .none polled
  signalled : s.dev.slot ≠ [] → s.pending = true
  balance : s.presses entry.keyData.key
    = s.callsTo entry + s.dev.slot.count entry.keyData.key + s.queued entry.keyData.key + lost

theorem Accounted.lost_unique {entry : GoldfishEventsNotify} {s : KeyboardState} {m n : Nat}
    (h : Accounted entry s m) (h' : Accounted entry s n) : m = n := by
  have hm := h.balance
  have hn := h'.balance
  omega

/-- Once the device and the dispatcher are done, the presses that were not lost have
    been delivered. -/
theorem Accounted.quiescent {entry : GoldfishEventsNotify} {s : KeyboardState} {lost : Nat}
    (h : Accounted entry s lost) (hfifo : s.fifo = []) (hpending : s.pending = false) :
    s.presses entry.keyData.key = s.callsTo entry + lost := by
  have hslot : s.dev.slot = [] := by
    by_contra hne
    rw [h.signalled hne] at hpending
    cases hpending
  have hqueued : s.queued entry.keyData.key = 0 := by
    rw [KeyboardState.queued, hfifo]
    rfl
  have hbalance := h.balance
  rw [hslot, hqueued] at hbalance
  exact hbalance

/-- A new record is queued. -/
theorem Accounted.arrive {entry : GoldfishEventsNotify} {s s' : KeyboardState} {lost : Nat}
    (h : Accounted entry s lost) {record : KeyRecord} (hstep : s.step (.arrive record) = some s') :
    Accounted entry s' lost := by
  obtain rfl := Option.some.inj hstep
  obtain ⟨polled, records, hstream, hfifo, hmodifiers⟩ := h.framed
  have hwords : s.fifo ++ eventWords [record] = eventWords (records ++ [record]) := by
    rw [hfifo, eventWords_append]
  refine ⟨h.registered, h.handles, ⟨polled, records ++ [record], ?_, hwords, hmodifiers⟩,
    h.signalled, ?_⟩
  · dsimp only
    rw [hstream, List.append_assoc]
  · have hbalance := h.balance
    simp only [KeyboardState.presses, KeyboardState.queued, KeyboardState.callsTo] at hbalance ⊢
    rw [hwords, recordsOf_eventWords, decodedPresses_append, decodedPresses_append, hmodifiers,
      hstream, modifiersAfter_append, List.count_append, List.count_append]
    rw [hfifo, recordsOf_eventWords, hmodifiers, hstream] at hbalance
    omega

/-- All but the last element, and the last. -/
theorem count_dropLast_add_getLast (key : EfiInputKey) (keys : List EfiInputKey) :
    keys.dropLast.count key + keys.getLast?.toList.count key = keys.count key := by
  rcases keys.eq_nil_or_concat with rfl | ⟨init, last, rfl⟩
  · rfl
  · simp [List.count_append]

/-- The null key is never enqueued; every other press is. -/
theorem count_keyPresses (m : Modifiers) (records : List KeyRecord) (key : EfiInputKey) :
    (keyPresses m records).count key
        + (if key = .null then (decodedPresses m records).count key else 0)
      = (decodedPresses m records).count key := by
  rw [keyPresses]
  split
  · rename_i hnull
    have hzero : ((decodedPresses m records).filter (· ≠ .null)).count key = 0 := by
      rw [List.count_eq_zero, List.mem_filter]
      rintro ⟨-, hne⟩
      simp [hnull] at hne
    rw [hzero, Nat.zero_add]
  · rename_i hkey
    rw [List.count_filter (by simpa using hkey), Nat.add_zero]

/-- A poll delivers nothing; it loses what it overwrites, and presses of the null key. -/
theorem Accounted.poll {entry : GoldfishEventsNotify} {s s' : KeyboardState} {lost : Nat}
    (h : Accounted entry s lost) {haveNotify : Bool}
    (hstep : s.step (.poll haveNotify) = some s') :
    Accounted entry s' (lost + s.lostBy entry.keyData.key (.poll haveNotify)) := by
  obtain rfl := Option.some.inj hstep
  obtain ⟨polled, records, hstream, hfifo, hmodifiers⟩ := h.framed
  obtain ⟨hloopFifo, hloopModifiers⟩ := pollLoop_eventWords s.dev haveNotify records
  have hloopSlot := pollLoop_eventWords_slot s.dev haveNotify records
  have hloopNotify := pollLoop_eventWords_haveNotify s.dev haveNotify records
  rw [← hfifo] at hloopFifo hloopModifiers hloopSlot hloopNotify
  have hloopList := pollLoop_notifyList s.dev haveNotify s.fifo
  have hnonempty : s.dev.notifyList.isEmpty = false := by
    rw [List.isEmpty_eq_false_iff]
    exact List.ne_nil_of_mem h.registered
  refine ⟨?_, ?_, ⟨s.stream, [], (List.append_nil _).symm, hloopFifo, ?_⟩, ?_, ?_⟩
  · exact hloopList ▸ h.registered
  · exact hloopList ▸ h.handles
  · dsimp only [pollKeyboard]
    rw [hloopModifiers, hmodifiers, ← modifiersAfter_append, ← hstream]
  · dsimp only [pollKeyboard]
    intro hslot
    rw [hloopSlot] at hslot
    rw [hloopList, hnonempty]
    by_cases hpress : keyPresses s.dev.toModifiers records = []
    · rw [hpress, List.append_nil] at hslot
      have hwaiting : s.dev.slot ≠ [] := by
        intro hnil
        rw [hnil] at hslot
        exact hslot rfl
      rw [h.signalled hwaiting]
      rfl
    · rw [hloopNotify (.inl hpress)]
      simp
  · have hbalance := h.balance
    have hlast := count_dropLast_add_getLast entry.keyData.key
      (s.dev.slot ++ keyPresses s.dev.toModifiers records)
    have hnull := count_keyPresses s.dev.toModifiers records entry.keyData.key
    rw [List.count_append] at hlast
    simp only [KeyboardState.presses, KeyboardState.queued, KeyboardState.callsTo,
      KeyboardState.lostBy, KeyboardState.overwritten, pollKeyboard, hloopFifo, hloopSlot] at hbalance ⊢
    rw [hfifo, recordsOf_eventWords] at hbalance ⊢
    have hdone : (decodedPresses (pollLoop s.dev haveNotify (eventWords records)).1.toModifiers
        (recordsOf [])).count entry.keyData.key = 0 := rfl
    rw [hdone]
    omega

/-- Without a key state to match, an entry matches by its key alone. -/
theorem isKeyRegistered_iff {registered : EfiKeyData} (input : EfiKeyData)
    (hshift : registered.keyState.keyShiftState = 0)
    (htoggle : registered.keyState.keyToggleState = 0) :
    isKeyRegistered registered input = true ↔ input.key = registered.key := by
  obtain ⟨⟨scan, char⟩, state⟩ := registered
  obtain ⟨⟨scan', char'⟩, state'⟩ := input
  dsimp only at hshift htoggle
  simp only [isKeyRegistered, hshift, htoggle, ne_eq, not_true_eq_false, false_and, if_false,
    EfiInputKey.mk.injEq]
  by_cases heq : scan' = scan ∧ char' = char
  · obtain ⟨rfl, rfl⟩ := heq
    simp
  · rw [if_pos, iff_false_left]
    · exact heq
    · decide
    · rw [← not_and_or]
      exact fun h => heq ⟨h.1.symm, h.2.symm⟩

/-- A dispatched key calls each matching entry once. -/
theorem countP_matching {entry : GoldfishEventsNotify} {entries : List GoldfishEventsNotify}
    (hmem : entry ∈ entries) (hnodup : (entries.map GoldfishEventsNotify.handle).Nodup)
    (keyData : EfiKeyData) :
    (((entries.filter fun e => isKeyRegistered e.keyData keyData).map
        fun e => NotifyCall.mk e keyData).countP fun call => call.entry.handle = entry.handle)
      = if isKeyRegistered entry.keyData keyData then 1 else 0 := by
  have hsame : ∀ e ∈ entries.filter fun e => isKeyRegistered e.keyData keyData,
      (decide (e.handle = entry.handle) = true ↔ (e == entry) = true) := by
    intro e he
    rw [decide_eq_true_iff, beq_iff_eq]
    refine ⟨?_, ?_⟩
    · exact fun h => List.inj_on_of_nodup_map hnodup (List.mem_of_mem_filter he) hmem h
    · exact fun h => h ▸ rfl
  have hentries : entries.Nodup := List.Nodup.of_map GoldfishEventsNotify.handle hnodup
  have hfilter := List.Nodup.filter (fun e => isKeyRegistered e.keyData keyData) hentries
  rw [List.countP_map]
  change (entries.filter fun e => isKeyRegistered e.keyData keyData).countP
    (fun e => decide (e.handle = entry.handle)) = _
  rw [List.countP_congr hsame]
  change (entries.filter fun e => isKeyRegistered e.keyData keyData).count entry = _
  rw [List.Nodup.count hfilter]
  simp only [List.mem_filter, hmem, true_and]

/-- The handler takes the waiting key and delivers it. -/
theorem Accounted.dispatch {entry : GoldfishEventsNotify} {s s' : KeyboardState} {lost : Nat}
    (hshift : entry.keyData.keyState.keyShiftState = 0)
    (htoggle : entry.keyData.keyState.keyToggleState = 0)
    (h : Accounted entry s lost) (hstep : s.step .dispatch = some s') : Accounted entry s' lost := by
  obtain ⟨polled, records, hstream, hfifo, hmodifiers⟩ := h.framed
  have hbalance := h.balance
  rw [KeyboardState.step] at hstep
  split at hstep
  · obtain rfl := Option.some.inj hstep
    rw [keyNotifyProcessHandler]
    by_cases hready : s.dev.notifyKeyReady = true
    · have hslot : s.dev.slot = [s.dev.notifyKeyData.key] := if_pos hready
      rw [if_pos hready]
      refine ⟨h.registered, h.handles, ⟨polled, records, hstream, hfifo, hmodifiers⟩,
        fun hne => absurd rfl hne, ?_⟩
      have hcalls := countP_matching h.registered h.handles s.dev.notifyKeyData
      have hmatch := isKeyRegistered_iff s.dev.notifyKeyData hshift htoggle
      have hcount : (if isKeyRegistered entry.keyData s.dev.notifyKeyData then 1 else 0)
          = s.dev.slot.count entry.keyData.key := by
        rw [hslot, List.count_singleton]
        exact if_congr (hmatch.trans beq_iff_eq.symm) rfl rfl
      simp only [KeyboardState.presses, KeyboardState.queued, KeyboardState.callsTo,
        List.countP_append] at hbalance ⊢
      rw [hcalls, hbalance, hcount]
      have hempty : GoldfishEventsDev.slot { s.dev with notifyKeyReady := false } = [] := rfl
      rw [hempty, List.count_nil]
      omega
    · rw [if_neg hready]
      have hslot : s.dev.slot = [] := if_neg hready
      refine ⟨h.registered, h.handles, ⟨polled, records, hstream, hfifo, hmodifiers⟩,
        fun hne => absurd hslot hne, ?_⟩
      simp only [KeyboardState.presses, KeyboardState.queued, KeyboardState.callsTo,
        List.append_nil] at hbalance ⊢
      exact hbalance
  · cases hstep

/-- Every step keeps the accounts. -/
theorem Accounted.step {entry : GoldfishEventsNotify} {s s' : KeyboardState} {lost : Nat}
    (hshift : entry.keyData.keyState.keyShiftState = 0)
    (htoggle : entry.keyData.keyState.keyToggleState = 0)
    (h : Accounted entry s lost) {action : KeyboardAction} (hstep : s.step action = some s') :
    Accounted entry s' (lost + s.lostBy entry.keyData.key action) := by
  cases action with
  | arrive record => exact h.arrive hstep
  | poll haveNotify => exact h.poll hstep
  | dispatch => exact h.dispatch hshift htoggle hstep

theorem accounted_initial {entry : GoldfishEventsNotify} {notifyList : List GoldfishEventsNotify}
    (hmem : entry ∈ notifyList)
    (hnodup : (notifyList.map GoldfishEventsNotify.handle).Nodup) :
    Accounted entry (.initial notifyList) 0 where
  registered := hmem
  handles := hnodup
  framed := ⟨[], [], rfl, rfl, rfl⟩
  signalled := fun hslot => absurd rfl hslot
  balance := rfl

-- ============================================================================
-- Delivery
-- ============================================================================

/-- An action that loses no press of `key`.  At a poll, `key` is at most the last of
    the key that waits in the notify queue and those pressed since the last poll, and
    no press decoded to it if it is the null key. -/
def KeepsPresses (key : EfiInputKey) (s : KeyboardState) : KeyboardAction → Prop
  | .poll _ =>
    key ∉ (s.dev.slot ++ keyPresses s.dev.toModifiers (recordsOf s.fifo)).dropLast ∧
      (key = .null → key ∉ decodedPresses s.dev.toModifiers (recordsOf s.fifo))
  | _ => True

theorem lostBy_eq_zero_iff (key : EfiInputKey) (s : KeyboardState) (action : KeyboardAction) :
    s.lostBy key action = 0 ↔ KeepsPresses key s action := by
  cases action with
  | arrive record => exact iff_of_true rfl trivial
  | dispatch => exact iff_of_true rfl trivial
  | poll haveNotify =>
      rw [KeyboardState.lostBy, KeepsPresses, Nat.add_eq_zero_iff, KeyboardState.overwritten,
        List.count_eq_zero]
      apply and_congr_right'
      split
      · rename_i hnull
        rw [KeyboardState.queued, List.count_eq_zero]
        exact ⟨fun h _ => h, fun h => h hnull⟩
      · rename_i hkey
        exact iff_of_true rfl fun hnull => absurd hnull hkey

/-- When the device's queue is empty and no dispatch is due, an entry's function has
    been called once for each press of its key exactly if every poll kept the presses
    of that key. -/
theorem callsTo_eq_presses_iff {entry : GoldfishEventsNotify}
    {notifyList : List GoldfishEventsNotify} (hmem : entry ∈ notifyList)
    (hnodup : (notifyList.map GoldfishEventsNotify.handle).Nodup)
    (hshift : entry.keyData.keyState.keyShiftState = 0)
    (htoggle : entry.keyData.keyState.keyToggleState = 0)
    {actions : List KeyboardAction} {s : KeyboardState}
    (hrun : run KeyboardState.step (.initial notifyList) actions = some s)
    (hfifo : s.fifo = []) (hpending : s.pending = false) :
    s.callsTo entry = s.presses entry.keyData.key ↔
      AllSteps KeyboardState.step (KeepsPresses entry.keyData.key) (.initial notifyList) actions := by
  have hstart := accounted_initial hmem hnodup
  have hlost : ∃ lost, Accounted entry s lost := by
    apply Run.run_invariant (fun t => ∃ lost, Accounted entry t lost) ?_ hrun ⟨0, hstart⟩
    rintro t action t' ⟨lost, ht⟩ hstep
    exact ⟨_, ht.step hshift htoggle hstep⟩
  rw [← Run.not_bad_iff_allSteps (fun t => Accounted entry t 0)
    (fun t => ∃ lost, 0 < lost ∧ Accounted entry t lost) ?_ ?_ ?_ ?_ hrun hstart]
  · obtain ⟨lost, hs⟩ := hlost
    have hquiescent := hs.quiescent hfifo hpending
    refine ⟨?_, ?_⟩
    · rintro heq ⟨lost', hpos, hs'⟩
      have hsame := hs.lost_unique hs'
      omega
    · intro hnot
      have hzero : lost = 0 := by
        by_contra hne
        exact hnot ⟨lost, Nat.pos_of_ne_zero hne, hs⟩
      omega
  · intro t action t' ht hkeeps hstep
    have ht' := ht.step hshift htoggle hstep
    rwa [(lostBy_eq_zero_iff _ _ _).mpr hkeeps] at ht'
  · intro t action t' ht hloses hstep
    have hne := mt (lostBy_eq_zero_iff _ _ _).mp hloses
    exact ⟨_, by omega, ht.step hshift htoggle hstep⟩
  · rintro t action t' ⟨lost, hpos, ht⟩ hstep
    exact ⟨_, by omega, ht.step hshift htoggle hstep⟩
  · rintro t ht ⟨lost, hpos, ht'⟩
    have hsame := ht.lost_unique ht'
    omega

/-- A registration for the escape key without modifiers. -/
def escEntry : GoldfishEventsNotify where
  handle := 0x1000
  keyData := ⟨⟨SCAN_ESC, CHAR_NULL⟩, ⟨0, 0⟩⟩
  keyNotificationFn := 0x2000

/-- A press, polled and dispatched, is delivered. -/
theorem callsTo_eq_presses_iff_one_press :
    ∃ s, run KeyboardState.step (.initial [escEntry])
        [.arrive ⟨1, 1⟩, .arrive ⟨1, 0⟩, .poll false, .dispatch] = some s ∧
      (s.callsTo escEntry = s.presses escEntry.keyData.key ↔
        AllSteps KeyboardState.step (KeepsPresses escEntry.keyData.key) (.initial [escEntry])
          [.arrive ⟨1, 1⟩, .arrive ⟨1, 0⟩, .poll false, .dispatch]) :=
  ⟨_, rfl, callsTo_eq_presses_iff (List.mem_singleton.mpr rfl) (List.nodup_singleton _) rfl rfl
    rfl rfl rfl⟩

/-- Two presses of the escape key before one poll make one call. -/
theorem two_presses_one_call :
    ∃ s, run KeyboardState.step (.initial [escEntry])
        [.arrive ⟨1, 1⟩, .arrive ⟨1, 0⟩, .arrive ⟨1, 1⟩, .poll false, .dispatch] = some s ∧
      s.fifo = [] ∧ s.pending = false ∧
      s.dev.notifyList = [escEntry] ∧ s.presses escEntry.keyData.key = 2 ∧
      s.callsTo escEntry = 1 :=
  ⟨_, rfl, rfl, rfl, rfl, by decide, by decide⟩

end UemuPkg
