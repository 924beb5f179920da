/-
  UemuPkg.Drivers.GoldfishEventsDxe.Model

  The keyboard driver: its device state, the decoding of key codes, one poll of
  the event register and the dispatch of key notifications.  The event register is
  a list of words; reading it when it is empty returns 0.
-/

import UemuPkg.Base

namespace UemuPkg

-- ============================================================================
-- Protocol data
-- ============================================================================

def SCAN_NULL : UINT16 := 0x0000
def SCAN_UP : UINT16 := 0x0001
def SCAN_DOWN : UINT16 := 0x0002
def SCAN_RIGHT : UINT16 := 0x0003
def SCAN_LEFT : UINT16 := 0x0004
def SCAN_HOME : UINT16 := 0x0005
def SCAN_END : UINT16 := 0x0006
def SCAN_INSERT : UINT16 := 0x0007
def SCAN_DELETE : UINT16 := 0x0008
def SCAN_PAGE_UP : UINT16 := 0x0009
def SCAN_PAGE_DOWN : UINT16 := 0x000A
def SCAN_F1 : UINT16 := 0x000B
def SCAN_ESC : UINT16 := 0x0017

def CHAR_NULL : UINT16 := 0x0000
def CHAR_BACKSPACE : UINT16 := 0x0008
def CHAR_TAB : UINT16 := 0x0009
def CHAR_CARRIAGE_RETURN : UINT16 := 0x000D

def EFI_SHIFT_STATE_VALID : UINT32 := 0x80000000
def EFI_RIGHT_SHIFT_PRESSED : UINT32 := 0x00000001
def EFI_LEFT_SHIFT_PRESSED : UINT32 := 0x00000002
def EFI_RIGHT_CONTROL_PRESSED : UINT32 := 0x00000004
def EFI_LEFT_CONTROL_PRESSED : UINT32 := 0x00000008
def EFI_RIGHT_ALT_PRESSED : UINT32 := 0x00000010
def EFI_LEFT_ALT_PRESSED : UINT32 := 0x00000020
def EFI_TOGGLE_STATE_VALID : UINT8 := 0x80

def EV_KEY : UINT32 := 0x01

/-- `EFI_INPUT_KEY` -/
structure EfiInputKey where
  scanCode : UINT16
  unicodeChar : UINT16
  deriving DecidableEq, Repr

/-- `ScanCode == SCAN_NULL` and `UnicodeChar == CHAR_NULL`: no key. -/
def EfiInputKey.null : EfiInputKey := ⟨SCAN_NULL, CHAR_NULL⟩

theorem EfiInputKey.eq_null_iff (key : EfiInputKey) :
    key = .null ↔ key.scanCode = SCAN_NULL ∧ key.unicodeChar = CHAR_NULL := by
  cases key
  rw [EfiInputKey.null, EfiInputKey.mk.injEq]

/-- `EFI_KEY_STATE` -/
structure EfiKeyState where
  keyShiftState : UINT32
  keyToggleState : UINT8
  deriving DecidableEq, Repr

/-- `EFI_KEY_DATA` -/
structure EfiKeyData where
  key : EfiInputKey
  keyState : EfiKeyState
  deriving DecidableEq, Repr

-- ============================================================================
-- Driver state
-- ============================================================================

/-- `GOLDFISH_EVENTS_NOTIFY`: one registered function.  `handle` is the address of
    the entry. -/
structure GoldfishEventsNotify where
  handle : UINT64
  keyData : EfiKeyData
  keyNotificationFn : UINT64
  deriving DecidableEq, Repr

/-- The modifier flags of `GOLDFISH_EVENTS_DEV`. -/
structure Modifiers where
  keyShift : Bool
  keyCtrl : Bool
  keyAlt : Bool
  deriving DecidableEq, Repr

/-- `GOLDFISH_EVENTS_DEV` -/
structure GoldfishEventsDev extends Modifiers where
  key : EfiInputKey
  keyReady : Bool
  notifyKeyReady : Bool
  notifyKeyData : EfiKeyData
  notifyList : List GoldfishEventsNotify
  deriving DecidableEq, Repr

/-- `BuildKeyState` -/
def buildKeyState (m : Modifiers) : EfiKeyState :=
  let keyShiftState := EFI_SHIFT_STATE_VALID
  let keyShiftState :=
    if m.keyShift then keyShiftState ||| (EFI_LEFT_SHIFT_PRESSED ||| EFI_RIGHT_SHIFT_PRESSED)
    else keyShiftState
  let keyShiftState :=
    if m.keyCtrl then keyShiftState ||| (EFI_LEFT_CONTROL_PRESSED ||| EFI_RIGHT_CONTROL_PRESSED)
    else keyShiftState
  let keyShiftState :=
    if m.keyAlt then keyShiftState ||| (EFI_LEFT_ALT_PRESSED ||| EFI_RIGHT_ALT_PRESSED)
    else keyShiftState
  { keyShiftState, keyToggleState := EFI_TOGGLE_STATE_VALID }

/-- `IsKeyRegistered` -/
def isKeyRegistered (registeredData inputData : EfiKeyData) : Bool :=
  if registeredData.key.scanCode ≠ inputData.key.scanCode ∨
      registeredData.key.unicodeChar ≠ inputData.key.unicodeChar then
    false
  else if registeredData.keyState.keyShiftState ≠ 0 ∧
      registeredData.keyState.keyShiftState ≠ inputData.keyState.keyShiftState then
    false
  else if registeredData.keyState.keyToggleState ≠ 0 ∧
      registeredData.keyState.keyToggleState ≠ inputData.keyState.keyToggleState then
    false
  else
    true

-- ============================================================================
-- Key codes
-- ============================================================================

/-- A table with designated initialisers: each row starts at its code. -/
def keyTable (rows : List (Nat × List Char)) (code : UINT16) : UINT16 :=
  match rows.find? fun row => row.1 ≤ code.toNat && code.toNat < row.1 + row.2.length with
  | none => 0
  | some row => BitVec.ofNat 16 ((row.2.getD (code.toNat - row.1) (Char.ofNat 0)).toNat)

def mKeyMap : UINT16 → UINT16 :=
  keyTable
    [(2, ['1', '2', '3', '4', '5', '6', '7', '8', '9', '0']),
     (12, ['-', '=']),
     (16, ['q', 'w', 'e', 'r', 't', 'y', 'u', 'i', 'o', 'p']),
     (26, ['[', ']']),
     (30, ['a', 's', 'd', 'f', 'g', 'h', 'j', 'k', 'l']),
     (39, [';', Char.ofNat 0x27, Char.ofNat 0x60]),
     (43, [Char.ofNat 0x5C]),
     (44, ['z', 'x', 'c', 'v', 'b', 'n', 'm']),
     (51, [',', '.', '/']),
     (57, [' '])]

def mKeyMapShift : UINT16 → UINT16 :=
  keyTable
    [(2, ['!', '@', '#', '$', '%', '^', '&', '*', '(', ')']),
     (12, ['_', '+']),
     (16, ['Q', 'W', 'E', 'R', 'T', 'Y', 'U', 'I', 'O', 'P']),
     (26, [Char.ofNat 0x7B, Char.ofNat 0x7D]),
     (30, ['A', 'S', 'D', 'F', 'G', 'H', 'J', 'K', 'L']),
     (39, [':', Char.ofNat 0x22, '~']),
     (43, ['|']),
     (44, ['Z', 'X', 'C', 'V', 'B', 'N', 'M']),
     (51, ['<', '>', '?']),
     (57, [' '])]

def KEY_F1 : UINT16 := 59
def KEY_F10 : UINT16 := 68
def MAX_KEYBOARD_CODE : UINT16 := 112

/-- The keys of `ConvertKeyCode`'s `switch`. -/
def specialKey (code : UINT16) : Option EfiInputKey :=
  match code.toNat with
  | 1 => some ⟨SCAN_ESC, CHAR_NULL⟩
  | 14 => some ⟨SCAN_NULL, CHAR_BACKSPACE⟩
  | 15 => some ⟨SCAN_NULL, CHAR_TAB⟩
  | 28 => some ⟨SCAN_NULL, CHAR_CARRIAGE_RETURN⟩
  | 103 => some ⟨SCAN_UP, CHAR_NULL⟩
  | 108 => some ⟨SCAN_DOWN, CHAR_NULL⟩
  | 105 => some ⟨SCAN_LEFT, CHAR_NULL⟩
  | 106 => some ⟨SCAN_RIGHT, CHAR_NULL⟩
  | 102 => some ⟨SCAN_HOME, CHAR_NULL⟩
  | 107 => some ⟨SCAN_END, CHAR_NULL⟩
  | 104 => some ⟨SCAN_PAGE_UP, CHAR_NULL⟩
  | 109 => some ⟨SCAN_PAGE_DOWN, CHAR_NULL⟩
  | 110 => some ⟨SCAN_INSERT, CHAR_NULL⟩
  | 111 => some ⟨SCAN_DELETE, CHAR_NULL⟩
  | _ => none

def KEY_LEFTCTRL : UINT16 := 29
def KEY_LEFTSHIFT : UINT16 := 42
def KEY_RIGHTSHIFT : UINT16 := 54
def KEY_LEFTALT : UINT16 := 56
def KEY_CAPSLOCK : UINT16 := 58
def KEY_NUMLOCK : UINT16 := 69
def KEY_SCROLLLOCK : UINT16 := 70
def KEY_RIGHTCTRL : UINT16 := 97
def KEY_RIGHTALT : UINT16 := 100

/-- `ConvertKeyCode`: the modifier flags after the event, and the key. -/
def convertKeyCode (m : Modifiers) (code : UINT16) (pressed : Bool) : Modifiers × EfiInputKey :=
  if !pressed then
    ({ keyShift := if code = KEY_LEFTSHIFT ∨ code = KEY_RIGHTSHIFT then false else m.keyShift
       keyCtrl := if code = KEY_LEFTCTRL ∨ code = KEY_RIGHTCTRL then false else m.keyCtrl
       keyAlt := if code = KEY_LEFTALT ∨ code = KEY_RIGHTALT then false else m.keyAlt },
      .null)
  else if code = KEY_LEFTSHIFT ∨ code = KEY_RIGHTSHIFT then
    ({ m with keyShift := true }, .null)
  else if code = KEY_LEFTCTRL ∨ code = KEY_RIGHTCTRL then
    ({ m with keyCtrl := true }, .null)
  else if code = KEY_LEFTALT ∨ code = KEY_RIGHTALT then
    ({ m with keyAlt := true }, .null)
  else if code = KEY_CAPSLOCK ∨ code = KEY_NUMLOCK ∨ code = KEY_SCROLLLOCK then
    (m, .null)
  else if KEY_F1 ≤ code ∧ code ≤ KEY_F10 then
    (m, ⟨SCAN_F1 + (code - KEY_F1), CHAR_NULL⟩)
  else
    match specialKey code with
    | some key => (m, key)
    | none =>
      if code < MAX_KEYBOARD_CODE then
        let char := if m.keyShift then mKeyMapShift code else mKeyMap code
        -- Ctrl masks the character to [1..26]
        (m, { scanCode := char, unicodeChar := if m.keyCtrl then char &&& 0x1F else char })
      else
        (m, .null)

-- ============================================================================
-- Polling
-- ============================================================================

/-- What `PollKeyboard` makes of one record. -/
structure PolledRecord where
  dev : GoldfishEventsDev
  haveNotify : Bool
  /-- `Code` and `Value` of the call of `ConvertKeyCode`, if there is one. -/
  converted : Option (UINT32 × UINT32)

/-- The body of `PollKeyboard`'s loop, on a record that it has read. -/
def polledRecord (dev : GoldfishEventsDev) (type code value : UINT32) : PolledRecord :=
  if type ≠ EV_KEY then
    { dev, haveNotify := false, converted := none }
  else
    let (modifiers, localKey) := convertKeyCode dev.toModifiers (code.setWidth 16) (value == 1)
    let converted := some (code, value)
    let dev := { dev with toModifiers := modifiers }
    if localKey.scanCode = SCAN_NULL ∧ localKey.unicodeChar = CHAR_NULL then
      { dev, haveNotify := false, converted }
    else
      { dev := { dev with
          key := localKey
          keyReady := true
          notifyKeyData := { key := localKey, keyState := buildKeyState dev.toModifiers }
          notifyKeyReady := true }
        haveNotify := true
        converted }

/-- The same without the call: the device state, and whether `HaveNotify` is set. -/
def pollRecord (dev : GoldfishEventsDev) (type code value : UINT32) : GoldfishEventsDev × Bool :=
  let polled := polledRecord dev type code value
  (polled.dev, polled.haveNotify)

theorem pollRecord_eq (dev : GoldfishEventsDev) (type code value : UINT32) :
    pollRecord dev type code value =
      if type ≠ EV_KEY then
        (dev, false)
      else
        let (modifiers, localKey) := convertKeyCode dev.toModifiers (code.setWidth 16) (value == 1)
        let dev := { dev with toModifiers := modifiers }
        if localKey.scanCode = SCAN_NULL ∧ localKey.unicodeChar = CHAR_NULL then
          (dev, false)
        else
          ({ dev with
              key := localKey
              keyReady := true
              notifyKeyData := { key := localKey, keyState := buildKeyState dev.toModifiers }
              notifyKeyReady := true },
            true) := by
  rw [pollRecord, polledRecord]
  split
  · rfl
  · dsimp only
    split
    · rfl
    · rfl

/-- `ConvertKeyCode` is called for `EV_KEY` records. -/
theorem polledRecord_converted (dev : GoldfishEventsDev) (type code value : UINT32) :
    (polledRecord dev type code value).converted
      = if type = EV_KEY then some (code, value) else none := by
  rw [polledRecord]
  by_cases htype : type = EV_KEY
  · rw [if_neg (not_not_intro htype), if_pos htype]
    dsimp only
    split
    · rfl
    · rfl
  · rw [if_pos htype, if_neg htype]

/-- The loop of `PollKeyboard` over the words in the event register: the device state,
    `HaveNotify` and the words left.  The missing words of a cut record read as 0. -/
def pollLoop (dev : GoldfishEventsDev) (haveNotify : Bool) :
    List UINT32 → GoldfishEventsDev × Bool × List UINT32
  | [] => (dev, haveNotify, [])
  | [type] =>
    if type = 0 then
      (dev, haveNotify, [])
    else
      let polled := pollRecord dev type 0 0
      (polled.1, haveNotify || polled.2, [])
  | [type, code] =>
    if type = 0 then
      (dev, haveNotify, [code])
    else
      let polled := pollRecord dev type code 0
      (polled.1, haveNotify || polled.2, [])
  | type :: code :: value :: rest =>
    if type = 0 then
      (dev, haveNotify, code :: value :: rest)
    else
      let polled := pollRecord dev type code value
      pollLoop polled.1 (haveNotify || polled.2) rest

/-- What a call of `PollKeyboard` leaves behind. -/
structure PollResult where
  dev : GoldfishEventsDev
  fifo : List UINT32
  /-- `KeyNotifyProcessEvent` was signalled. -/
  signalled : Bool

/-- `PollKeyboard`; `haveNotify` is what its uninitialised local happens to hold. -/
def pollKeyboard (dev : GoldfishEventsDev) (haveNotify : Bool) (fifo : List UINT32) : PollResult :=
  let polled := pollLoop dev haveNotify fifo
  { dev := polled.1
    fifo := polled.2.2
    signalled := polled.2.1 && !polled.1.notifyList.isEmpty }

-- ============================================================================
-- Dispatch
-- ============================================================================

/-- A call of an entry's `KeyNotificationFn`. -/
structure NotifyCall where
  entry : GoldfishEventsNotify
  keyData : EfiKeyData
  deriving DecidableEq, Repr

/-- `KeyNotifyProcessHandler`, for callbacks that leave the list as it is. -/
def keyNotifyProcessHandler (dev : GoldfishEventsDev) : GoldfishEventsDev × List NotifyCall :=
  if dev.notifyKeyReady then
    let keyData := dev.notifyKeyData
    ({ dev with notifyKeyReady := false },
      (dev.notifyList.filter fun entry => isKeyRegistered entry.keyData keyData).map
        fun entry => { entry, keyData })
  else
    (dev, [])

end UemuPkg
