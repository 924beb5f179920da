/-
  UemuPkg.Drivers.GoldfishEventsDxe.ScanCodes

  Scan codes of printable keys.  A key has either a scan code or a character, but
  `ConvertKeyCode` stores the character of a table in both fields.  So an entry for a
  character matches no press of its key; only where Ctrl masks the character away, or the
  key is one of those without a table character, is the buffered key as it should be.
-/

import UemuPkg.Drivers.GoldfishEventsDxe.KeystrokeHistory
import UemuPkg.Drivers.GoldfishEventsDxe.ModifierKeys

namespace UemuPkg

open Run (run AllSteps Always)

-- ============================================================================
-- The key of a press
-- ============================================================================

/-- Exactly one of the two fields is set. -/
def EfiInputKey.Proper (key : EfiInputKey) : Prop :=
  key.scanCode = SCAN_NULL ↔ key.unicodeChar ≠ CHAR_NULL

instance (key : EfiInputKey) : Decidable key.Proper := inferInstanceAs (Decidable (_ ↔ _))

/-- The keys that `ConvertKeyCode` knows without the tables. -/
def plainKey (code : UINT16) : Option EfiInputKey :=
  if KEY_F1 ≤ code ∧ code ≤ KEY_F10 then
    some ⟨SCAN_F1 + (code - KEY_F1), CHAR_NULL⟩
  else
    specialKey code

/-- The character of the tables. -/
def keyChar (m : Modifiers) (code : UINT16) : UINT16 :=
  if m.keyShift then mKeyMapShift code else mKeyMap code

/-- The character after the mask of Ctrl. -/
def maskedChar (m : Modifiers) (code : UINT16) : UINT16 :=
  if m.keyCtrl then keyChar m code &&& 0x1F else keyChar m code

def pressKey (m : Modifiers) (code : UINT16) : EfiInputKey :=
  (plainKey code).getD ⟨keyChar m code, maskedChar m code⟩

/-- The press decodes to a key. -/
def HasKey (m : Modifiers) (code : UINT16) : Prop :=
  plainKey code ≠ none ∨ keyChar m code ≠ 0

instance (m : Modifiers) (code : UINT16) : Decidable (HasKey m code) :=
  inferInstanceAs (Decidable (_ ∨ _))

/-- The press of a key without a table character, or of one that Ctrl masks to 0. -/
def Plain (m : Modifiers) (code : UINT16) : Prop :=
  plainKey code ≠ none ∨ (m.keyCtrl = true ∧ keyChar m code &&& 0x1F = 0)

theorem specialKey_proper {code : UINT16} {key : EfiInputKey} (h : specialKey code = some key) :
    key.Proper := by
  rw [specialKey] at h
  split at h <;> cases h <;> decide

theorem plainKey_proper {code : UINT16} {key : EfiInputKey} (h : plainKey code = some key) :
    key.Proper := by
  rw [plainKey] at h
  split at h
  · rename_i hrange
    obtain ⟨hge, hle⟩ := hrange
    obtain rfl := Option.some.inj h
    rw [BitVec.le_def] at hge hle
    have hcode : code.toNat ≤ 68 := hle
    have hbase : 59 ≤ code.toNat := hge
    have hscan : (SCAN_F1 + (code - KEY_F1)).toNat = 11 + (code.toNat - 59) := by
      rw [SCAN_F1, KEY_F1]
      bv_omega
    rw [EfiInputKey.Proper]
    refine iff_of_false ?_ (not_not_intro rfl)
    intro hnull
    have hzero : (SCAN_F1 + (code - KEY_F1)).toNat = 0 := congrArg BitVec.toNat hnull
    omega
  · exact specialKey_proper h

/-- A table ends with its last row. -/
theorem keyTable_eq_zero {rows : List (Nat × List Char)} {code : UINT16} {n : Nat}
    (h : ∀ row ∈ rows, row.1 + row.2.length ≤ n) (hcode : n ≤ code.toNat) :
    keyTable rows code = 0 := by
  have hnone : rows.find? (fun row => row.1 ≤ code.toNat && code.toNat < row.1 + row.2.length)
      = none := by
    rw [List.find?_eq_none]
    intro row hrow hin
    rw [Bool.and_eq_true, decide_eq_true_iff, decide_eq_true_iff] at hin
    have hend := h row hrow
    omega
  rw [keyTable, hnone]

theorem keyChar_eq_zero {m : Modifiers} {code : UINT16} (hshift : mKeyMapShift code = 0)
    (hplain : mKeyMap code = 0) : keyChar m code = 0 := by
  rw [keyChar]
  split
  · exact hshift
  · exact hplain

/-- A press without a key of its own decodes to its character; to none, where that is 0. -/
theorem null_of_keyChar {m : Modifiers} {code : UINT16} (hkey : plainKey code = none)
    (hchar : keyChar m code = 0) : pressKey m code = .null := by
  rw [pressKey, hkey, maskedChar, hchar]
  split
  · rfl
  · rfl

/-- The modifiers and the locks. -/
def silentCodes : List UINT16 :=
  [KEY_LEFTSHIFT, KEY_RIGHTSHIFT, KEY_LEFTCTRL, KEY_RIGHTCTRL, KEY_LEFTALT, KEY_RIGHTALT,
    KEY_CAPSLOCK, KEY_NUMLOCK, KEY_SCROLLLOCK]

theorem pressKey_silent {code : UINT16} (m : Modifiers) (h : code ∈ silentCodes) :
    pressKey m code = .null := by
  have hall : silentCodes.all (fun code =>
      plainKey code == none && mKeyMapShift code == 0 && mKeyMap code == 0) = true := by decide
  have hcode := List.all_eq_true.mp hall code h
  simp only [Bool.and_eq_true, beq_iff_eq] at hcode
  obtain ⟨⟨hkey, hshift⟩, hplain⟩ := hcode
  exact null_of_keyChar hkey (keyChar_eq_zero hshift hplain)

/-- Their presses change the flags at most. -/
theorem convertKeyCode_silent {code : UINT16} (m : Modifiers) (h : code ∈ silentCodes) :
    (convertKeyCode m code true).2 = .null := by
  simp only [silentCodes, List.mem_cons, List.not_mem_nil, or_false] at h
  rcases h with rfl | rfl | rfl | rfl | rfl | rfl | rfl | rfl | rfl <;> rfl

/-- `ConvertKeyCode` on a press. -/
theorem convertKeyCode_press (m : Modifiers) (code : UINT16) :
    (convertKeyCode m code true).2 = pressKey m code := by
  by_cases hsilent : code ∈ silentCodes
  · rw [convertKeyCode_silent m hsilent, pressKey_silent m hsilent]
  simp only [silentCodes, List.mem_cons, List.not_mem_nil, or_false, not_or] at hsilent
  obtain ⟨hleftShift, hrightShift, hleftCtrl, hrightCtrl, hleftAlt, hrightAlt, hlocks⟩ := hsilent
  rw [convertKeyCode, if_neg (by decide), if_neg (not_or.mpr ⟨hleftShift, hrightShift⟩),
    if_neg (not_or.mpr ⟨hleftCtrl, hrightCtrl⟩), if_neg (not_or.mpr ⟨hleftAlt, hrightAlt⟩),
    if_neg (by simpa only [not_or] using hlocks)]
  by_cases hfunction : KEY_F1 ≤ code ∧ code ≤ KEY_F10
  · rw [if_pos hfunction, pressKey, plainKey, if_pos hfunction]
    rfl
  rw [if_neg hfunction]
  have hplain : plainKey code = specialKey code := if_neg hfunction
  cases hspecial : specialKey code with
  | some key =>
      rw [pressKey, hplain, hspecial]
      rfl
  | none =>
      rw [hspecial] at hplain
      dsimp only
      by_cases hcode : code < MAX_KEYBOARD_CODE
      · rw [if_pos hcode, pressKey, hplain]
        rfl
      · have hbehind : 112 ≤ code.toNat := Nat.le_of_not_lt hcode
        rw [if_neg hcode]
        exact (null_of_keyChar hplain (keyChar_eq_zero
          (keyTable_eq_zero (n := 112) (by decide) hbehind)
          (keyTable_eq_zero (n := 112) (by decide) hbehind))).symm

/-- The press decodes to a key exactly if it has one of its own or a character. -/
theorem pressKey_ne_null_iff (m : Modifiers) (code : UINT16) :
    pressKey m code ≠ .null ↔ HasKey m code := by
  rw [HasKey]
  cases hkey : plainKey code with
  | some key =>
      have hproper := plainKey_proper hkey
      refine iff_of_true ?_ (.inl nofun)
      rw [pressKey, hkey]
      rintro rfl
      exact absurd hproper (by decide)
  | none =>
      by_cases hchar : keyChar m code = 0
      · exact iff_of_false (not_not_intro (null_of_keyChar hkey hchar))
          (not_or.mpr ⟨not_not_intro rfl, not_not_intro hchar⟩)
      · refine iff_of_true ?_ (.inr hchar)
        rw [pressKey, hkey]
        intro hnull
        exact hchar (congrArg EfiInputKey.scanCode hnull)

/-- The key of a press is as it should be exactly if it has no table character left. -/
theorem pressKey_proper_iff {m : Modifiers} {code : UINT16} (h : HasKey m code) :
    (pressKey m code).Proper ↔ Plain m code := by
  rw [Plain]
  cases hkey : plainKey code with
  | some key =>
      rw [pressKey, hkey]
      exact iff_of_true (plainKey_proper hkey) (.inl nofun)
  | none =>
      have hchar : keyChar m code ≠ 0 := by
        rcases h with h | h
        · exact absurd hkey h
        · exact h
      have hproper : (pressKey m code).Proper ↔ maskedChar m code = 0 := by
        rw [pressKey, hkey, EfiInputKey.Proper]
        refine ⟨?_, ?_⟩
        · intro hiff
          by_contra hmasked
          exact hchar (hiff.mpr hmasked)
        · intro hmasked
          exact iff_of_false hchar (not_not_intro hmasked)
      rw [hproper, maskedChar]
      by_cases hctrl : m.keyCtrl = true
      · rw [if_pos hctrl]
        exact ⟨fun h0 => .inr ⟨hctrl, h0⟩, fun hplain =>
          (hplain.resolve_left (not_not_intro rfl)).2⟩
      · rw [if_neg hctrl]
        exact iff_of_false hchar (not_or.mpr ⟨not_not_intro rfl, fun hplain => hctrl hplain.1⟩)

-- ============================================================================
-- The last press of a poll
-- ============================================================================

/-- The modifier flags after a record. -/
def recordModifiers (m : Modifiers) (type code value : UINT32) : Modifiers :=
  let key : UINT16 := code.setWidth 16
  if type = EV_KEY then
    { keyShift := if key = KEY_LEFTSHIFT ∨ key = KEY_RIGHTSHIFT then value == 1 else m.keyShift
      keyCtrl := if key = KEY_LEFTCTRL ∨ key = KEY_RIGHTCTRL then value == 1 else m.keyCtrl
      keyAlt := if key = KEY_LEFTALT ∨ key = KEY_RIGHTALT then value == 1 else m.keyAlt }
  else
    m

/-- A press that has a key, with the flags before it. -/
def recordPress (m : Modifiers) (type code value : UINT32) : Option (Modifiers × UINT16) :=
  if type = EV_KEY ∧ value = 1 ∧ HasKey m (code.setWidth 16) then
    some (m, code.setWidth 16)
  else
    none

/-- The last press that has a key, among the records up to a type of 0. -/
def lastPress (m : Modifiers) : List UINT32 → Option (Modifiers × UINT16)
  | [] => none
  | [_] => none
  | [_, _] => none
  | type :: code :: value :: rest =>
    if type = 0 then
      none
    else
      (lastPress (recordModifiers m type code value) rest).or (recordPress m type code value)

theorem recordPress_hasKey {m : Modifiers} {type code value : UINT32} {p : Modifiers × UINT16}
    (h : recordPress m type code value = some p) : HasKey p.1 p.2 := by
  rw [recordPress] at h
  split at h
  · rename_i hpress
    obtain rfl := Option.some.inj h
    exact hpress.2.2
  · cases h

theorem lastPress_hasKey {m : Modifiers} {words : List UINT32} {p : Modifiers × UINT16}
    (h : lastPress m words = some p) : HasKey p.1 p.2 := by
  fun_induction lastPress m words with
  | case1 => cases h
  | case2 => cases h
  | case3 => cases h
  | case4 => cases h
  | case5 m type code value rest hne ih =>
      rcases Option.or_eq_some_iff.mp h with hlater | ⟨-, hnow⟩
      · exact ih hlater
      · exact recordPress_hasKey hnow

theorem pollRecord_modifiers (dev : GoldfishEventsDev) (type code value : UINT32) :
    (pollRecord dev type code value).1.toModifiers
      = recordModifiers dev.toModifiers type code value := by
  rw [pollRecord_eq, recordModifiers]
  by_cases htype : type = EV_KEY
  · rw [if_neg (not_not_intro htype), if_pos htype, ← convertKeyCode_modifiers]
    dsimp only
    split
    · rfl
    · rfl
  · rw [if_pos htype, if_neg htype]

theorem pressOf_key (m : Modifiers) (type code value : UINT32) :
    (pressOf m type code value).map Press.key
      = (recordPress m type code value).map fun p => pressKey p.1 p.2 := by
  rw [pressOf, recordPress]
  by_cases htype : type = EV_KEY
  · rw [if_neg (not_not_intro htype)]
    by_cases hvalue : value = 1
    · have hpressed : (value == 1) = true := beq_iff_eq.mpr hvalue
      have hkey := pressKey_ne_null_iff m (code.setWidth 16)
      dsimp only
      rw [hpressed, convertKeyCode_press]
      by_cases hnull : pressKey m (code.setWidth 16) = .null
      · rw [if_pos hnull, if_neg fun h => hkey.mpr h.2.2 hnull]
        rfl
      · rw [if_neg hnull, if_pos ⟨htype, hvalue, hkey.mp hnull⟩]
        rfl
    · have hreleased : (value == 1) = false := beq_eq_false_iff_ne.mpr hvalue
      have hnull : (convertKeyCode m (code.setWidth 16) false).2 = .null := rfl
      dsimp only
      rw [hreleased, if_pos hnull, if_neg fun h => hvalue h.2.1]
      rfl
  · rw [if_pos htype, if_neg fun h => htype h.1]
    rfl

/-- Only a record of value 1 is a press, so the cut records at the end are none. -/
theorem pressOf_released (m : Modifiers) (type code : UINT32) : pressOf m type code 0 = none := by
  cases h : pressOf m type code 0 with
  | none => rfl
  | some p => exact absurd (pressOf_eq_some h).2.1 (by decide)

/-- The last press that a poll decodes has the key of the last press in the register. -/
theorem getLast?_pollPresses (dev : GoldfishEventsDev) (words : List UINT32) :
    (pollPresses dev words).getLast?.map Press.key
      = (lastPress dev.toModifiers words).map fun p => pressKey p.1 p.2 := by
  fun_induction pollPresses dev words with
  | case1 dev => rfl
  | case2 dev => rfl
  | case3 dev type hne => rw [pressOf_released, lastPress]; rfl
  | case4 dev code => rfl
  | case5 dev type code hne => rw [pressOf_released, lastPress]; rfl
  | case6 dev code value rest => rw [lastPress, if_pos rfl]; rfl
  | case7 dev type code value rest hne ih =>
      rw [lastPress, if_neg hne, List.getLast?_append, Option.map_or, ih, Option.map_or,
        pollRecord_modifiers, ← pressOf_key]
      cases pressOf dev.toModifiers type code value with
      | none => rfl
      | some p => rfl

-- ============================================================================
-- The buffers after a poll
-- ============================================================================

/-- The buffers of `dev'` are those of `dev` after the presses `ps`. -/
def BuffersAfter (dev dev' : GoldfishEventsDev) (ps : List Press) : Prop :=
  match ps.getLast? with
  | none =>
    dev'.keyReady = dev.keyReady ∧ dev'.key = dev.key ∧
      dev'.notifyKeyReady = dev.notifyKeyReady ∧ dev'.notifyKeyData = dev.notifyKeyData
  | some p =>
    dev'.keyReady = true ∧ dev'.key = p.key ∧
      dev'.notifyKeyReady = true ∧ dev'.notifyKeyData = p.keyData

theorem pollKeyboard_buffers (dev : GoldfishEventsDev) (haveNotify : Bool) (fifo : List UINT32) :
    BuffersAfter dev (pollKeyboard dev haveNotify fifo).dev (pollPresses dev fifo) := by
  have hstart : BuffersAfter dev dev [] := ⟨rfl, rfl, rfl, rfl⟩
  refine pollLoop_keeps (BuffersAfter dev) ?_ dev haveNotify fifo hstart
  intro dev' ps type code value h
  rcases pollRecord_cases dev' type code value with
    ⟨p, hpress, hrecord⟩ | ⟨hpress, modifiers, hrecord⟩
  · rw [hpress, hrecord, BuffersAfter, Option.toList_some, List.getLast?_concat]
    exact ⟨rfl, rfl, rfl, rfl⟩
  · rw [hpress, hrecord, Option.toList_none, List.append_nil]
    exact h

-- ============================================================================
-- Runs
-- ============================================================================

/-- An entry for the character `c`, in any key state. -/
def charEntry (c : UINT16) : EfiKeyData := ⟨⟨SCAN_NULL, c⟩, ⟨0, 0⟩⟩

/-- The keys that wait are as they should be, so that an entry for the character of the
    waiting press matches it. -/
structure KeysProper (s : KeystrokeState) : Prop where
  key : s.dev.keyReady = true → s.dev.key.Proper
  notifyKey : s.dev.notifyKeyReady = true → s.dev.notifyKeyData.key.Proper
  registered : s.dev.notifyKeyReady = true → ∀ c, c ≠ CHAR_NULL →
    s.dev.notifyKeyData.key.unicodeChar = c →
    isKeyRegistered (charEntry c) s.dev.notifyKeyData = true

/-- The last press of a poll is plain. -/
def LastPressPlain (s : KeystrokeState) : KeystrokeAction → Prop
  | .poll _ => ∀ p, lastPress s.dev.toModifiers s.fifo = some p → Plain p.1 p.2
  | _ => True

theorem isKeyRegistered_charEntry {keyData : EfiKeyData} {c : UINT16}
    (hproper : keyData.key.Proper) (hc : c ≠ CHAR_NULL) (hchar : keyData.key.unicodeChar = c) :
    isKeyRegistered (charEntry c) keyData = true := by
  rw [isKeyRegistered_iff keyData rfl rfl]
  have hscan : keyData.key.scanCode = SCAN_NULL := by
    refine hproper.mpr ?_
    rw [hchar]
    exact hc
  exact EfiInputKey.mk.injEq .. ▸ ⟨hscan, hchar⟩

theorem KeysProper.of_keys {s : KeystrokeState} (hkey : s.dev.keyReady = true → s.dev.key.Proper)
    (hnotifyKey : s.dev.notifyKeyReady = true → s.dev.notifyKeyData.key.Proper) : KeysProper s :=
  ⟨hkey, hnotifyKey, fun hready _ hc hchar => isKeyRegistered_charEntry (hnotifyKey hready) hc hchar⟩

/-- Only the buffers matter. -/
theorem KeysProper.congr {s s' : KeystrokeState} (h : KeysProper s)
    (hready : s'.dev.keyReady = true → s.dev.keyReady = true ∧ s'.dev.key = s.dev.key)
    (hnotifyReady : s'.dev.notifyKeyReady = true →
      s.dev.notifyKeyReady = true ∧ s'.dev.notifyKeyData = s.dev.notifyKeyData) :
    KeysProper s' := by
  refine .of_keys ?_ ?_
  · intro h'
    obtain ⟨hold, hkey⟩ := hready h'
    rw [hkey]
    exact h.key hold
  · intro h'
    obtain ⟨hold, hkeyData⟩ := hnotifyReady h'
    rw [hkeyData]
    exact h.notifyKey hold

/-- A poll leaves the key of its last press in both buffers. -/
theorem KeysProper.poll_iff {s s' : KeystrokeState} (h : KeysProper s) {haveNotify : Bool}
    (hstep : s.step (.poll haveNotify) = some s') :
    KeysProper s' ↔ LastPressPlain s (.poll haveNotify) := by
  obtain rfl := Option.some.inj hstep
  have hbuffers := pollKeyboard_buffers s.dev haveNotify s.fifo
  have hlast := getLast?_pollPresses s.dev s.fifo
  rw [BuffersAfter] at hbuffers
  rw [LastPressPlain]
  cases hpress : lastPress s.dev.toModifiers s.fifo with
  | none =>
      rw [hpress, Option.map_none, Option.map_eq_none_iff] at hlast
      rw [hlast] at hbuffers
      obtain ⟨hready, hkey, hnotifyReady, hkeyData⟩ := hbuffers
      refine iff_of_true (h.congr ?_ ?_) nofun
      · exact fun h' => ⟨hready.symm.trans h', hkey⟩
      · exact fun h' => ⟨hnotifyReady.symm.trans h', hkeyData⟩
  | some p =>
      rw [hpress, Option.map_some, Option.map_eq_some_iff] at hlast
      obtain ⟨press, hpresses, hpressKey⟩ := hlast
      rw [hpresses] at hbuffers
      obtain ⟨hready, hkey, hnotifyReady, hkeyData⟩ := hbuffers
      have hproper := pressKey_proper_iff (lastPress_hasKey hpress)
      rw [← hpressKey] at hproper
      refine ⟨?_, ?_⟩
      · intro hkeys q hq
        obtain rfl := Option.some.inj hq
        rw [← hproper, ← hkey]
        exact hkeys.key hready
      · intro hplain
        have hpressProper := hproper.mpr (hplain p rfl)
        refine .of_keys ?_ ?_
        · intro _
          exact hkey ▸ hpressProper
        · intro _
          show (pollKeyboard s.dev haveNotify s.fifo).dev.notifyKeyData.key.Proper
          rw [hkeyData]
          exact hpressProper

/-- Every other call takes keys away, if it touches the buffers at all. -/
theorem KeysProper.step {s s' : KeystrokeState} (h : KeysProper s) {action : KeystrokeAction}
    (haction : ∀ haveNotify, action ≠ .poll haveNotify) (hstep : s.step action = some s') :
    KeysProper s' := by
  have hsame : ∀ {s' : KeystrokeState}, s'.dev.keyReady = s.dev.keyReady →
      s'.dev.key = s.dev.key → s'.dev.notifyKeyReady = s.dev.notifyKeyReady →
      s'.dev.notifyKeyData = s.dev.notifyKeyData → KeysProper s' := by
    intro s' hready hkey hnotifyReady hkeyData
    exact h.congr (fun h' => ⟨hready.symm.trans h', hkey⟩)
      fun h' => ⟨hnotifyReady.symm.trans h', hkeyData⟩
  cases action with
  | arrive words =>
      obtain rfl := Option.some.inj hstep
      exact hsame rfl rfl rfl rfl
  | poll haveNotify => exact absurd rfl (haction haveNotify)
  | readKeyStroke key =>
      rcases KeystrokeState.step_readKeyStroke hstep with ⟨-, rfl⟩ | rfl
      · exact h.congr (fun h' => absurd h' Bool.false_ne_true) fun h' => ⟨h', rfl⟩
      · exact h
  | readKeyStrokeEx keyData =>
      rcases KeystrokeState.step_readKeyStrokeEx hstep with ⟨-, rfl⟩ | rfl
      · exact h.congr (fun h' => absurd h' Bool.false_ne_true) fun h' => ⟨h', rfl⟩
      · exact h
  | reset =>
      obtain rfl := Option.some.inj hstep
      exact h.congr (fun h' => absurd h' Bool.false_ne_true) fun h' => absurd h' Bool.false_ne_true
  | registerKeyNotify keyData fn notifyHandle newNotify =>
      obtain rfl := Option.some.inj hstep
      exact hsame rfl rfl rfl rfl
  | unregisterKeyNotify handle =>
      obtain rfl := Option.some.inj hstep
      exact hsame rfl rfl rfl rfl
  | dispatch =>
      obtain rfl := Option.some.inj hstep
      cases hready : s.dev.notifyKeyReady with
      | true =>
          have hdev : (keyNotifyProcessHandler s.dev).1 = { s.dev with notifyKeyReady := false } := by
            rw [keyNotifyProcessHandler, if_pos hready]
          exact h.congr (by rw [hdev]; exact fun h' => ⟨h', rfl⟩) 
            (by rw [hdev]; exact fun h' => absurd h' Bool.false_ne_true)
      | false =>
          have hdev : (keyNotifyProcessHandler s.dev).1 = s.dev := by
            rw [keyNotifyProcessHandler, if_neg (Bool.eq_false_iff.mp hready)]
          exact hsame (by rw [hdev]) (by rw [hdev]) (by rw [hdev]) (by rw [hdev])

/-- One call, from keys as they should be. -/
theorem KeysProper.step_iff {s s' : KeystrokeState} (h : KeysProper s) {action : KeystrokeAction}
    (hstep : s.step action = some s') : KeysProper s' ↔ LastPressPlain s action := by
  by_cases hpoll : ∃ haveNotify, action = .poll haveNotify
  · obtain ⟨haveNotify, rfl⟩ := hpoll
    exact h.poll_iff hstep
  · have hother : ∀ haveNotify, action ≠ .poll haveNotify := not_exists.mp hpoll
    refine iff_of_true (h.step hother hstep) ?_
    cases action with
    | poll haveNotify => exact absurd rfl (hother haveNotify)
    | _ => exact trivial

theorem keysProper_initial : KeysProper .initial := .of_keys nofun nofun

/-- In every state of a run the keys that wait have a scan code or a character, not both,
    exactly if every poll ends on the press of a plain key: one without a table character,
    or one whose character Ctrl masks to 0. -/
theorem keysProper_always_iff {actions : List KeystrokeAction} {s : KeystrokeState}
    (hrun : run KeystrokeState.step .initial actions = some s) :
    Always KeystrokeState.step KeysProper .initial actions ↔
      AllSteps KeystrokeState.step LastPressPlain .initial actions := by
  refine Run.always_iff_allSteps KeysProper ?_ ?_ hrun keysProper_initial
  · exact fun _ _ _ h hplain hstep => (h.step_iff hstep).mpr hplain
  · exact fun _ _ _ h hplain hstep => mt (h.step_iff hstep).mp hplain

/-- Escape, and then Ctrl and the space bar. -/
theorem keysProper_always_iff_escape :
    Always KeystrokeState.step KeysProper .initial
        [.arrive [1, 1, 1, 1, 1, 0], .poll false, .arrive [1, 29, 1, 1, 57, 1], .poll false] ↔
      AllSteps KeystrokeState.step LastPressPlain .initial
        [.arrive [1, 1, 1, 1, 1, 0], .poll false, .arrive [1, 29, 1, 1, 57, 1], .poll false] := by
  have hrun : run KeystrokeState.step .initial
      [.arrive [1, 1, 1, 1, 1, 0], .poll false, .arrive [1, 29, 1, 1, 57, 1], .poll false]
      = some _ := rfl
  exact keysProper_always_iff hrun

/-- The `a` key: the scan code is the character too, and an entry for `a` does not match. -/
theorem letter_a_not_proper :
    ∃ s, run KeystrokeState.step .initial [.arrive [1, 30, 1], .poll false] = some s ∧
      s.dev.keyReady = true ∧ s.dev.key = ⟨0x61, 0x61⟩ ∧
      s.dev.notifyKeyReady = true ∧ s.dev.notifyKeyData.key = ⟨0x61, 0x61⟩ ∧
      isKeyRegistered (charEntry 0x61) s.dev.notifyKeyData = false ∧ ¬ KeysProper s := by
  refine ⟨_, rfl, rfl, rfl, rfl, rfl, rfl, ?_⟩
  intro h
  exact absurd (h.key rfl) (by decide)

end UemuPkg
