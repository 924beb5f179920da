/-
  UemuPkg.Drivers.GoldfishEventsDxe.TypedText

  Text typed on the keyboard.  A character comes as the records of its key, with Shift
  around them where the key needs it.  With a poll and a read after each character the
  text is read as it was typed; of characters that come before one poll only the last is
  read.
-/

import UemuPkg.Drivers.GoldfishEventsDxe.KeyMailboxes
import UemuPkg.Drivers.GoldfishEventsDxe.ScanCodes

namespace UemuPkg

open Run (run)

-- ============================================================================
-- Keystrokes
-- ============================================================================

/-- The flags with at most Shift down. -/
def shiftOnly (shift : Bool) : Modifiers := ⟨shift, false, false⟩

/-- The keys of the layout, without Shift and with it. -/
def layoutKeys : List (Bool × UINT16) :=
  [false, true].flatMap fun shift =>
    (List.range MAX_KEYBOARD_CODE.toNat).map fun code => (shift, BitVec.ofNat 16 code)

/-- The first key that types the character. -/
def keyFor (c : UINT16) : Option (Bool × UINT16) :=
  layoutKeys.find? fun k => c ≠ CHAR_NULL ∧ (pressKey (shiftOnly k.1) k.2).unicodeChar = c

/-- The press that types the character. -/
def typedPress (k : Bool × UINT16) : Press := ⟨pressKey (shiftOnly k.1) k.2, shiftOnly k.1⟩

/-- The words of one record of a key. -/
def recordWords (code : UINT16) (value : UINT32) : List UINT32 := [EV_KEY, code.setWidth 32, value]

/-- What the device sends for a key that is pressed and released, with Shift held. -/
def keystrokeWords (k : Bool × UINT16) : List UINT32 :=
  (if k.1 then recordWords KEY_LEFTSHIFT 1 else []) ++ recordWords k.2 1 ++ recordWords k.2 0 ++
    (if k.1 then recordWords KEY_LEFTSHIFT 0 else [])

/-- What the device sends for a text. -/
def textWords (text : List UINT16) : List UINT32 := (text.filterMap keyFor).flatMap keystrokeWords

/-- Printable ASCII, Backspace, Tab and Enter. -/
def Typeable (c : UINT16) : Prop :=
  (0x20 ≤ c ∧ c ≤ 0x7E) ∨ c = CHAR_BACKSPACE ∨ c = CHAR_TAB ∨ c = CHAR_CARRIAGE_RETURN

instance (c : UINT16) : Decidable (Typeable c) := inferInstanceAs (Decidable (_ ∨ _))

theorem keyFor_spec {c : UINT16} {k : Bool × UINT16} (h : keyFor c = some k) :
    k ∈ layoutKeys ∧ c ≠ CHAR_NULL ∧ (typedPress k).key.unicodeChar = c := by
  refine ⟨List.mem_of_find?_eq_some h, ?_⟩
  rw [keyFor] at h
  simpa [typedPress] using List.find?_some h

/-- The layout types these characters and no other. -/
theorem keyFor_isSome_iff (c : UINT16) : (keyFor c).isSome = true ↔ Typeable c := by
  have hall : layoutKeys.all (fun k =>
      (typedPress k).key.unicodeChar = CHAR_NULL ∨ Typeable (typedPress k).key.unicodeChar)
      = true := by decide +kernel
  have htyped : ∀ c : Fin 128, Typeable (BitVec.ofNat 16 c) →
      (keyFor (BitVec.ofNat 16 c)).isSome = true := by decide +kernel
  constructor
  · intro h
    obtain ⟨k, hk⟩ := Option.isSome_iff_exists.mp h
    obtain ⟨hmem, hne, hchar⟩ := keyFor_spec hk
    have hkey := of_decide_eq_true (List.all_eq_true.mp hall k hmem)
    rw [hchar] at hkey
    exact hkey.resolve_left hne
  · intro h
    have hlt : c.toNat < 128 := by
      rcases h with ⟨-, hle⟩ | rfl | rfl | rfl
      · exact Nat.lt_succ_of_le (Nat.le_trans hle (by decide))
      · decide
      · decide
      · decide
    have hsome := htyped ⟨c.toNat, hlt⟩
    simp only [BitVec.ofNat_toNat, BitVec.setWidth_eq] at hsome
    exact hsome h

-- ============================================================================
-- Polling a keystroke
-- ============================================================================

variable {dev : GoldfishEventsDev} {haveNotify : Bool}

/-- The device state after a press. -/
def GoldfishEventsDev.press (dev : GoldfishEventsDev) (p : Press) : GoldfishEventsDev :=
  { dev with
    key := p.key
    keyReady := true
    notifyKeyData := p.keyData
    notifyKeyReady := true }

theorem pollLoop_recordWords (dev : GoldfishEventsDev) (haveNotify : Bool) (code : UINT16)
    (value : UINT32) (rest : List UINT32) :
    pollLoop dev haveNotify (recordWords code value ++ rest)
      = pollLoop (pollRecord dev EV_KEY (code.setWidth 32) value).1
          (haveNotify || (pollRecord dev EV_KEY (code.setWidth 32) value).2) rest := by
  show pollLoop dev haveNotify (EV_KEY :: code.setWidth 32 :: value :: rest) = _
  rw [pollLoop, if_neg (by decide)]

theorem pollRecord_shift_pressed (dev : GoldfishEventsDev) :
    pollRecord dev EV_KEY (KEY_LEFTSHIFT.setWidth 32) 1 = ({ dev with keyShift := true }, false) :=
  rfl

theorem pollRecord_shift_released (dev : GoldfishEventsDev) :
    pollRecord dev EV_KEY (KEY_LEFTSHIFT.setWidth 32) 0 = ({ dev with keyShift := false }, false) :=
  rfl

/-- A key that decodes leaves the flags as they are, when it is pressed and when it is
    released. -/
theorem convertKeyCode_key {m : Modifiers} {code : UINT16} (h : pressKey m code ≠ .null)
    (pressed : Bool) :
    convertKeyCode m code pressed = (m, if pressed then pressKey m code else .null) := by
  have hsilent : code ∉ silentCodes := fun hmem => h (pressKey_silent m hmem)
  simp only [silentCodes, List.mem_cons, List.not_mem_nil, or_false, not_or] at hsilent
  obtain ⟨hleftShift, hrightShift, hleftCtrl, hrightCtrl, hleftAlt, hrightAlt, -⟩ := hsilent
  apply Prod.ext
  · rw [convertKeyCode_modifiers, if_neg (not_or.mpr ⟨hleftShift, hrightShift⟩),
      if_neg (not_or.mpr ⟨hleftCtrl, hrightCtrl⟩), if_neg (not_or.mpr ⟨hleftAlt, hrightAlt⟩)]
  · cases pressed with
    | false => rfl
    | true => exact convertKeyCode_press m code

theorem pollRecord_press {k : Bool × UINT16} (hkey : (typedPress k).key ≠ .null)
    (hflags : dev.toModifiers = shiftOnly k.1) :
    pollRecord dev EV_KEY (k.2.setWidth 32) 1 = (dev.press (typedPress k), true) := by
  have hconvert := convertKeyCode_key hkey true
  have hcode : (k.2.setWidth 32).setWidth 16 = k.2 := by simp
  have hnull : ¬ ((pressKey (shiftOnly k.1) k.2).scanCode = SCAN_NULL ∧
      (pressKey (shiftOnly k.1) k.2).unicodeChar = CHAR_NULL) :=
    mt (EfiInputKey.eq_null_iff _).mpr hkey
  rw [pollRecord_eq, if_neg (by decide)]
  simp only [hcode, hflags, beq_self_eq_true, hconvert, if_true]
  rw [if_neg hnull, ← hflags]
  simp [GoldfishEventsDev.press, typedPress, Press.keyData, hflags]

theorem pollRecord_release {k : Bool × UINT16} (hkey : (typedPress k).key ≠ .null)
    (hflags : dev.toModifiers = shiftOnly k.1) :
    pollRecord dev EV_KEY (k.2.setWidth 32) 0 = (dev, false) := by
  have hconvert := convertKeyCode_key hkey false
  have hcode : (k.2.setWidth 32).setWidth 16 = k.2 := by simp
  have hvalue : ((0 : UINT32) == 1) = false := rfl
  rw [pollRecord_eq, if_neg (by decide)]
  simp only [hcode, hflags, hvalue, hconvert]
  rw [← hflags]
  rfl

/-- A keystroke leaves its press in the buffers, and the flags as they were. -/
theorem pollLoop_keystroke {c : UINT16} {k : Bool × UINT16} (hk : keyFor c = some k)
    (hflags : dev.toModifiers = shiftOnly false) (haveNotify : Bool) (rest : List UINT32) :
    pollLoop dev haveNotify (keystrokeWords k ++ rest)
      = pollLoop (dev.press (typedPress k)) true rest := by
  obtain ⟨-, hne, hchar⟩ := keyFor_spec hk
  have hkey : (typedPress k).key ≠ .null := by
    intro hnull
    rw [hnull] at hchar
    exact hne hchar.symm
  by_cases hshift : k.1 = true
  · have hheld : ({ dev with keyShift := true } : GoldfishEventsDev).toModifiers = shiftOnly k.1 := by
      simp [shiftOnly, hshift, congrArg Modifiers.keyCtrl hflags, congrArg Modifiers.keyAlt hflags]
    have hafter : (({ dev with keyShift := true } : GoldfishEventsDev).press
        (typedPress k)).toModifiers = shiftOnly k.1 := hheld
    have hreleased : dev.keyShift = false := congrArg Modifiers.keyShift hflags
    simp only [keystrokeWords, if_pos hshift, List.append_assoc, pollLoop_recordWords,
      pollRecord_shift_pressed, pollRecord_shift_released, pollRecord_press hkey hheld,
      pollRecord_release hkey hafter]
    simp [GoldfishEventsDev.press, ← hreleased]
  · have hheld : dev.toModifiers = shiftOnly k.1 := by
      rw [hflags, Bool.eq_false_iff.mpr hshift]
    have hafter : (dev.press (typedPress k)).toModifiers = shiftOnly k.1 := hheld
    simp only [keystrokeWords, if_neg hshift, List.nil_append, List.append_nil, List.append_assoc,
      pollLoop_recordWords, pollRecord_press hkey hheld, pollRecord_release hkey hafter]
    simp

/-- The device state after the keys of a text. -/
def GoldfishEventsDev.typeKeys (dev : GoldfishEventsDev) (keys : List (Bool × UINT16)) :
    GoldfishEventsDev :=
  keys.foldl (fun dev k => dev.press (typedPress k)) dev

theorem pollLoop_text (text : List UINT16) (hflags : dev.toModifiers = shiftOnly false)
    (haveNotify : Bool) :
    ∃ notify, pollLoop dev haveNotify (textWords text)
      = (dev.typeKeys (text.filterMap keyFor), notify, []) := by
  induction text generalizing dev haveNotify with
  | nil => exact ⟨haveNotify, rfl⟩
  | cons c text ih =>
      cases hk : keyFor c with
      | none =>
          obtain ⟨notify, hpoll⟩ := ih hflags haveNotify
          exact ⟨notify, by simpa [textWords, hk] using hpoll⟩
      | some k =>
          have hafter : (dev.press (typedPress k)).toModifiers = shiftOnly false := hflags
          obtain ⟨notify, hpoll⟩ := ih hafter true
          refine ⟨notify, ?_⟩
          have hwords : textWords (c :: text) = keystrokeWords k ++ textWords text := by
            simp [textWords, hk]
          rw [hwords, pollLoop_keystroke hk hflags, hpoll]
          simp [GoldfishEventsDev.typeKeys, hk]

-- ============================================================================
-- Sessions
-- ============================================================================

/-- A text that arrives at once, the poll that sees it, what others call then, and the
    read. -/
structure Burst where
  text : List UINT16
  haveNotify : Bool
  others : List KeystrokeAction
  /-- The read is one of `ReadKeyStrokeEx`. -/
  ex : Bool

def Burst.read (b : Burst) : KeystrokeAction :=
  if b.ex then .readKeyStrokeEx (some ⟨.null, ⟨0, 0⟩⟩) else .readKeyStroke (some .null)

def Burst.actions (b : Burst) : List KeystrokeAction :=
  .arrive (textWords b.text) :: .poll b.haveNotify :: (b.others ++ [b.read])

/-- The call neither reads a key nor resets the driver, and nothing arrives. -/
def KeystrokeAction.Quiet : KeystrokeAction → Prop
  | .arrive _ => False
  | .poll _ => True
  | .readKeyStroke key => key = none
  | .readKeyStrokeEx keyData => keyData = none
  | .reset => False
  | .registerKeyNotify .. => True
  | .unregisterKeyNotify _ => True
  | .dispatch => True

/-- Everything that has arrived was polled, no modifier is down, the waiting key has the
    character `c`, and the characters in `read` were read. -/
structure Waiting (s : KeystrokeState) (c : Option UINT16) (read : List UINT16) : Prop where
  fifo : s.fifo = []
  flags : s.dev.toModifiers = shiftOnly false
  char : s.dev.waitingKey.map EfiInputKey.unicodeChar = c
  read : (takenIn s.history).map EfiInputKey.unicodeChar = read

variable {s s' : KeystrokeState} {c : Option UINT16} {read : List UINT16}

theorem waiting_initial : Waiting .initial none [] := ⟨rfl, rfl, rfl, rfl⟩

theorem waitingKey_typeKeys (dev : GoldfishEventsDev) (keys : List (Bool × UINT16)) :
    (dev.typeKeys keys).waitingKey
      = match keys.getLast? with
        | none => dev.waitingKey
        | some k => some (typedPress k).key := by
  rcases List.eq_nil_or_concat' keys with rfl | ⟨before, k, rfl⟩
  · rfl
  · simp [GoldfishEventsDev.typeKeys, GoldfishEventsDev.press, GoldfishEventsDev.waitingKey]

theorem typeKeys_flags (dev : GoldfishEventsDev) (keys : List (Bool × UINT16)) :
    (dev.typeKeys keys).toModifiers = dev.toModifiers := by
  induction keys generalizing dev with
  | nil => rfl
  | cons k keys ih => exact ih _

/-- The last character of a text is the one that its last key types. -/
theorem typedPress_getLast? {text : List UINT16} (htext : ∀ c ∈ text, Typeable c) :
    (text.filterMap keyFor).getLast?.map (fun k => (typedPress k).key.unicodeChar)
      = text.getLast? := by
  rcases List.eq_nil_or_concat' text with rfl | ⟨before, c, rfl⟩
  · rfl
  · obtain ⟨k, hk⟩ := Option.isSome_iff_exists.mp
      ((keyFor_isSome_iff c).mpr (htext c List.mem_concat_self))
    simp [hk, (keyFor_spec hk).2.2]

theorem takenIn_map_pressed (ps : List Press) : takenIn (ps.map .pressed) = [] := by
  induction ps with
  | nil => rfl
  | cons p ps ih => exact ih

/-- A text arrives and is polled. -/
theorem Waiting.poll {text : List UINT16} (h : Waiting s none read)
    (htext : ∀ c ∈ text, Typeable c) (haveNotify : Bool)
    (hrun : run KeystrokeState.step s [.arrive (textWords text), .poll haveNotify] = some s') :
    Waiting s' text.getLast? read := by
  obtain rfl := Option.some.inj hrun
  obtain ⟨notify, hpoll⟩ := pollLoop_text text h.flags haveNotify
  refine ⟨?_, ?_, ?_, ?_⟩
  · simp [pollKeyboard, h.fifo, hpoll]
  · simp [pollKeyboard, h.fifo, hpoll, typeKeys_flags, h.flags]
  · rw [← typedPress_getLast? htext]
    have hempty : s.dev.waitingKey = none := Option.map_eq_none_iff.mp h.char
    simp only [pollKeyboard, h.fifo, List.nil_append, hpoll, waitingKey_typeKeys, hempty]
    cases (text.filterMap keyFor).getLast? <;> rfl
  · rw [← h.read]
    simp [KeystrokeState.history, takenIn_map_pressed]

/-- Quiet calls leave the key where it is. -/
theorem Waiting.quiet (h : Waiting s c read) {action : KeystrokeAction} (hquiet : action.Quiet)
    (hstep : s.step action = some s') : Waiting s' c read := by
  cases action with
  | arrive words => exact absurd hquiet id
  | reset => exact absurd hquiet id
  | poll haveNotify =>
      obtain rfl := Option.some.inj hstep
      have hpoll : pollLoop s.dev haveNotify s.fifo = (s.dev, haveNotify, []) := by
        rw [h.fifo]
        rfl
      refine ⟨by simp [pollKeyboard, hpoll], ?_, ?_, ?_⟩
      · simpa [pollKeyboard, hpoll] using h.flags
      · simpa [pollKeyboard, hpoll] using h.char
      · rw [← h.read]
        simp [KeystrokeState.history, takenIn_map_pressed]
  | readKeyStroke key =>
      obtain rfl := hquiet
      obtain rfl := Option.some.inj hstep
      exact h
  | readKeyStrokeEx keyData =>
      obtain rfl := hquiet
      obtain rfl := Option.some.inj hstep
      exact h
  | registerKeyNotify keyData fn notifyHandle newNotify =>
      obtain rfl := Option.some.inj hstep
      exact ⟨h.fifo, h.flags, h.char, h.read⟩
  | unregisterKeyNotify handle =>
      obtain rfl := Option.some.inj hstep
      exact ⟨h.fifo, h.flags, h.char, h.read⟩
  | dispatch =>
      obtain rfl := Option.some.inj hstep
      have hread : takenIn ((dequeueNotify s.dev).toList.map .dequeued) = [] := by
        cases dequeueNotify s.dev <;> rfl
      have hdev : (keyNotifyProcessHandler s.dev).1.toModifiers = s.dev.toModifiers ∧
          (keyNotifyProcessHandler s.dev).1.waitingKey = s.dev.waitingKey := by
        rw [keyNotifyProcessHandler]
        split <;> exact ⟨rfl, rfl⟩
      refine ⟨h.fifo, hdev.1.trans h.flags, ?_, ?_⟩
      · rw [← h.char, ← hdev.2]
      · rw [← h.read]
        simp [KeystrokeState.history, hread]

theorem Waiting.quiets (h : Waiting s c read) {actions : List KeystrokeAction}
    (hquiet : ∀ action ∈ actions, action.Quiet)
    (hrun : run KeystrokeState.step s actions = some s') : Waiting s' c read := by
  induction actions generalizing s with
  | nil => exact Option.some.inj hrun ▸ h
  | cons action actions ih =>
      obtain ⟨t, hstep, hrest⟩ := Run.run_cons hrun
      exact ih (h.quiet (hquiet action List.mem_cons_self) hstep)
        (fun a ha => hquiet a (List.mem_cons_of_mem _ ha)) hrest

/-- A read takes the character that waits. -/
theorem Waiting.take (h : Waiting s c read) {action : KeystrokeAction}
    (hevents : s.events action = [.read])
    (hread : (∃ key, action = .readKeyStroke key) ∨ ∃ keyData, action = .readKeyStrokeEx keyData)
    (hstep : s.step action = some s') : Waiting s' none (read ++ c.toList) := by
  have hchar := h.char
  rcases KeystrokeState.step_read hstep hread with
    ⟨hready, -, rfl⟩ | ⟨⟨-, hready⟩ | hnone, rfl⟩
  · rw [GoldfishEventsDev.waitingKey, if_pos hready, Option.map_some] at hchar
    refine ⟨h.fifo, h.flags, by simp [GoldfishEventsDev.waitingKey], ?_⟩
    rw [← hchar, ← h.read]
    simp [KeystrokeState.history]
  · rw [GoldfishEventsDev.waitingKey, hready] at hchar
    obtain rfl : c = none := hchar.symm
    rw [Option.toList_none, List.append_nil]
    exact h
  · rw [hevents] at hnone
    cases hnone

/-- A burst leaves its last character read. -/
theorem Waiting.burst (h : Waiting s none read) {b : Burst} (htext : ∀ c ∈ b.text, Typeable c)
    (hothers : ∀ action ∈ b.others, action.Quiet)
    (hrun : run KeystrokeState.step s b.actions = some s') :
    Waiting s' none (read ++ b.text.getLast?.toList) := by
  have hactions : b.actions
      = [.arrive (textWords b.text), .poll b.haveNotify] ++ (b.others ++ [b.read]) := rfl
  rw [hactions] at hrun
  obtain ⟨t, hpoll, hrest⟩ := Run.run_append_some hrun
  obtain ⟨u, hquiet, hlast⟩ := Run.run_append_some hrest
  rw [Run.run_singleton] at hlast
  have hwaiting := (h.poll htext b.haveNotify hpoll).quiets hothers hquiet
  rw [Burst.read] at hlast
  cases hex : b.ex with
  | false =>
      rw [hex] at hlast
      exact hwaiting.take rfl (.inl ⟨_, rfl⟩) hlast
  | true =>
      rw [hex] at hlast
      exact hwaiting.take rfl (.inr ⟨_, rfl⟩) hlast

theorem Waiting.bursts (h : Waiting s none read) {bursts : List Burst}
    (htext : ∀ b ∈ bursts, ∀ c ∈ b.text, Typeable c)
    (hothers : ∀ b ∈ bursts, ∀ action ∈ b.others, action.Quiet)
    (hrun : run KeystrokeState.step s (bursts.flatMap Burst.actions) = some s') :
    Waiting s' none (read ++ bursts.filterMap (·.text.getLast?)) := by
  induction bursts generalizing s read with
  | nil => simpa using Option.some.inj hrun ▸ h
  | cons b bursts ih =>
      obtain ⟨t, hburst, hrest⟩ := Run.run_append_some hrun
      have hfirst := h.burst (htext b List.mem_cons_self) (hothers b List.mem_cons_self) hburst
      have hall := ih hfirst (fun b hb => htext b (List.mem_cons_of_mem _ hb))
        (fun b hb => hothers b (List.mem_cons_of_mem _ hb)) hrest
      cases hlast : b.text.getLast? <;> simpa [hlast] using hall

/-- Of bursts of one character nothing is lost. -/
theorem filterMap_getLast?_text {bursts : List Burst} (h : ∀ b ∈ bursts, b.text.length = 1) :
    bursts.filterMap (·.text.getLast?) = bursts.flatMap Burst.text := by
  induction bursts with
  | nil => rfl
  | cons b bursts ih =>
      obtain ⟨c, hc⟩ := List.length_eq_one_iff.mp (h b List.mem_cons_self)
      have hrest := ih fun b hb => h b (List.mem_cons_of_mem _ hb)
      simp [hc, hrest]

/-- Text that is typed in bursts from initialisation, with a poll and a read after each
    burst and any quiet calls in between: the characters that are read are the last ones
    of the bursts, in order.  So a text typed one character at a time is read as it was
    typed, and at the end no key waits and no modifier is down. -/
theorem typed_text_read {bursts : List Burst} (htext : ∀ b ∈ bursts, ∀ c ∈ b.text, Typeable c)
    (hothers : ∀ b ∈ bursts, ∀ action ∈ b.others, action.Quiet)
    (hrun : run KeystrokeState.step .initial (bursts.flatMap Burst.actions) = some s) :
    (takenIn s.history).map EfiInputKey.unicodeChar = bursts.filterMap (·.text.getLast?) ∧
    ((∀ b ∈ bursts, b.text.length = 1) →
      (takenIn s.history).map EfiInputKey.unicodeChar = bursts.flatMap Burst.text) ∧
    s.dev.keyReady = false ∧ s.dev.toModifiers = ⟨false, false, false⟩ := by
  have hend := waiting_initial.bursts htext hothers hrun
  have hread : (takenIn s.history).map EfiInputKey.unicodeChar
      = bursts.filterMap (·.text.getLast?) := hend.read
  refine ⟨hread, ?_, ?_, hend.flags⟩
  · intro hsingle
    rw [hread, filterMap_getLast?_text hsingle]
  · have hempty : s.dev.waitingKey = none := Option.map_eq_none_iff.mp hend.char
    simpa [GoldfishEventsDev.waitingKey] using hempty

/-- No call is refused. -/
theorem exists_run (s : KeystrokeState) (actions : List KeystrokeAction) :
    ∃ s', run KeystrokeState.step s actions = some s' := by
  induction actions generalizing s with
  | nil => exact ⟨s, rfl⟩
  | cons action actions ih =>
      have hstep : ∃ t, s.step action = some t := by
        cases action with
        | readKeyStroke key =>
            rw [KeystrokeState.step]
            split <;> exact ⟨_, rfl⟩
        | readKeyStrokeEx keyData =>
            rw [KeystrokeState.step]
            split <;> exact ⟨_, rfl⟩
        | _ => exact ⟨_, rfl⟩
      obtain ⟨t, ht⟩ := hstep
      obtain ⟨s', hrun⟩ := ih t
      exact ⟨s', by rw [run, ht]; exact hrun⟩

/-- `h`, then `I` with Shift, and the notification handler before the second read. -/
def hiBursts : List Burst :=
  [⟨[0x68], false, [], false⟩, ⟨[0x49], true, [.dispatch], true⟩]

theorem typed_text_read_hi :
    ∃ s, run KeystrokeState.step .initial (hiBursts.flatMap Burst.actions) = some s ∧
      (takenIn s.history).map EfiInputKey.unicodeChar = [0x68, 0x49] := by
  obtain ⟨s, hrun⟩ := exists_run .initial (hiBursts.flatMap Burst.actions)
  have htext : ∀ b ∈ hiBursts, ∀ c ∈ b.text, Typeable c := by simp [hiBursts, Typeable]
  have hothers : ∀ b ∈ hiBursts, ∀ action ∈ b.others, action.Quiet := by
    simp [hiBursts, KeystrokeAction.Quiet]
  have hread := (typed_text_read htext hothers hrun).1
  have hlast : hiBursts.filterMap (·.text.getLast?) = [0x68, 0x49] := rfl
  exact ⟨s, hrun, hread.trans hlast⟩

end UemuPkg
