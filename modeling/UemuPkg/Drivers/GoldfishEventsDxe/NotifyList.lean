/-
  UemuPkg.Drivers.GoldfishEventsDxe.NotifyList

  Registration of key notifications.  The entries of `NotifyList` keep the raw bytes
  of the `EFI_KEY_DATA` they were registered with: the search for a duplicate
  compares memory, the dispatcher compares fields.
-/

import UemuPkg.Drivers.GoldfishEventsDxe.Model
import UemuPkg.Generic.Bytes

namespace UemuPkg

-- ============================================================================
-- EFI_KEY_DATA in memory
-- ============================================================================

/-- The 12 bytes of an `EFI_KEY_DATA`: `ScanCode` at 0, `UnicodeChar` at 2,
    `KeyShiftState` at 4, `KeyToggleState` at 8, and padding from 9 on. -/
structure KeyDataBytes where
  bytes : Vector UINT8 12
  deriving DecidableEq

namespace KeyDataBytes

/-- The fields, read little-endian. -/
def keyData (d : KeyDataBytes) : EfiKeyData where
  key :=
    { scanCode := d.bytes[1] ++ d.bytes[0]
      unicodeChar := d.bytes[3] ++ d.bytes[2] }
  keyState :=
    { keyShiftState := d.bytes[7] ++ d.bytes[6] ++ d.bytes[5] ++ d.bytes[4]
      keyToggleState := d.bytes[8] }

def padding (d : KeyDataBytes) : Vector UINT8 3 := #v[d.bytes[9], d.bytes[10], d.bytes[11]]

/-- `CompareMem (a, b, sizeof (EFI_KEY_DATA)) == 0` -/
def compareMemEq (a b : KeyDataBytes) : Bool := a.bytes == b.bytes

/-- Equal memory is equal fields and equal padding. -/
theorem eq_iff (a b : KeyDataBytes) : a = b ↔ a.keyData = b.keyData ∧ a.padding = b.padding := by
  refine ⟨fun h => h ▸ ⟨rfl, rfl⟩, ?_⟩
  rintro ⟨hdata, hpadding⟩
  obtain ⟨hkey, hstate⟩ := EfiKeyData.mk.inj hdata
  obtain ⟨hscan, hchar⟩ := EfiInputKey.mk.inj hkey
  obtain ⟨hshift, h8⟩ := EfiKeyState.mk.inj hstate
  obtain ⟨h1, h0⟩ := ByteString.append_byte_inj.mp hscan
  obtain ⟨h3, h2⟩ := ByteString.append_byte_inj.mp hchar
  obtain ⟨h765, h4⟩ := ByteString.append_byte_inj.mp hshift
  obtain ⟨h76, h5⟩ := ByteString.append_byte_inj.mp h765
  obtain ⟨h7, h6⟩ := ByteString.append_byte_inj.mp h76
  have hpad : ∀ i (h : i < 3), a.bytes[9 + i] = b.bytes[9 + i] := by
    intro i h
    have hget : a.padding[i] = b.padding[i] := by rw [hpadding]
    match i, h with
    | 0, _ | 1, _ | 2, _ => exact hget
  have hbytes : a.bytes = b.bytes := by
    apply Vector.ext
    intro i h
    match i, h with
    | 0, _ | 1, _ | 2, _ | 3, _ | 4, _ | 5, _ | 6, _ | 7, _ | 8, _ => assumption
    | j + 9, h => simpa only [Nat.add_comm] using hpad j (by omega)
  cases a
  cases b
  rw [KeyDataBytes.mk.injEq]
  exact hbytes

theorem compareMemEq_iff {a b : KeyDataBytes} : a.compareMemEq b = true ↔ a = b := by
  cases a
  cases b
  rw [compareMemEq, beq_iff_eq, KeyDataBytes.mk.injEq]

end KeyDataBytes

-- ============================================================================
-- The list
-- ============================================================================

/-- `GOLDFISH_EVENTS_NOTIFY`: `handle` is the address of the entry. -/
structure NotifyEntry where
  handle : UINT64
  keyData : KeyDataBytes
  keyNotificationFn : UINT64
  deriving DecidableEq

/-- Whether an address is none of the live entries is decided by a search. -/
instance instDecidableFresh (notifyList : List NotifyEntry) (newNotify : UINT64) :
    Decidable (newNotify ∉ notifyList.map NotifyEntry.handle) :=
  inferInstance

/-- The entry as the dispatcher reads it. -/
def NotifyEntry.toNotify (entry : NotifyEntry) : GoldfishEventsNotify where
  handle := entry.handle
  keyData := entry.keyData.keyData
  keyNotificationFn := entry.keyNotificationFn

-- ============================================================================
-- GoldfishEventsRegisterKeyNotify
-- ============================================================================

/-- The loop that looks for a duplicate registration. -/
def findRegistered (notifyList : List NotifyEntry) (keyData : KeyDataBytes)
    (keyNotificationFunction : UINT64) : Option NotifyEntry :=
  notifyList.find? fun existingNotify =>
    existingNotify.keyNotificationFn == keyNotificationFunction &&
      existingNotify.keyData.compareMemEq keyData

/-- What `GoldfishEventsRegisterKeyNotify` leaves behind: its status, `NotifyList`
    and `*NotifyHandle`. -/
structure RegisterResult where
  status : EfiStatus
  notifyList : List NotifyEntry
  notifyHandle : Option UINT64
  deriving DecidableEq

/-- `GoldfishEventsRegisterKeyNotify`.  `newNotify` is what `AllocateZeroPool`
    returns where it is called; 0 is NULL. -/
def registerKeyNotify (notifyList : List NotifyEntry) (keyData : Option KeyDataBytes)
    (keyNotificationFunction : UINT64) (notifyHandle : Option UINT64) (newNotify : UINT64) :
    RegisterResult :=
  match keyData, notifyHandle with
  | some keyData, some _ =>
    if keyNotificationFunction = 0 then
      ⟨.invalidParameter, notifyList, notifyHandle⟩
    else
      match findRegistered notifyList keyData keyNotificationFunction with
      | some existingNotify => ⟨.success, notifyList, some existingNotify.handle⟩
      | none =>
        if newNotify = 0 then
          ⟨.outOfResources, notifyList, notifyHandle⟩
        else
          ⟨.success, notifyList ++ [⟨newNotify, keyData, keyNotificationFunction⟩],
            some newNotify⟩
  | _, _ => ⟨.invalidParameter, notifyList, notifyHandle⟩

-- ============================================================================
-- GoldfishEventsUnregisterKeyNotify
-- ============================================================================

/-- The search of `GoldfishEventsUnregisterKeyNotify`: the list without the entry at
    `notificationHandle`, if there is one. -/
def removeEntry (notificationHandle : UINT64) : List NotifyEntry → Option (List NotifyEntry)
  | [] => none
  | notifyEntry :: rest =>
    if notifyEntry.handle = notificationHandle then
      some rest
    else
      (removeEntry notificationHandle rest).map (notifyEntry :: ·)

/-- `GoldfishEventsUnregisterKeyNotify`: the status and `NotifyList`. -/
def unregisterKeyNotify (notifyList : List NotifyEntry) (notificationHandle : UINT64) :
    EfiStatus × List NotifyEntry :=
  if notificationHandle = 0 then
    (.invalidParameter, notifyList)
  else
    match removeEntry notificationHandle notifyList with
    | some rest => (.success, rest)
    | none => (.invalidParameter, notifyList)

-- ============================================================================
-- What the calls do
-- ============================================================================

theorem findRegistered_eq_some {notifyList : List NotifyEntry} {keyData : KeyDataBytes}
    {fn : UINT64} {entry : NotifyEntry} (h : findRegistered notifyList keyData fn = some entry) :
    entry ∈ notifyList ∧ entry.keyNotificationFn = fn ∧ entry.keyData = keyData := by
  have hfound := List.find?_some h
  rw [Bool.and_eq_true, beq_iff_eq, KeyDataBytes.compareMemEq_iff] at hfound
  exact ⟨List.mem_of_find?_eq_some h, hfound⟩

theorem findRegistered_eq_none_iff {notifyList : List NotifyEntry} {keyData : KeyDataBytes}
    {fn : UINT64} : findRegistered notifyList keyData fn = none ↔
      ∀ entry ∈ notifyList, entry.keyNotificationFn = fn → entry.keyData ≠ keyData := by
  rw [findRegistered, List.find?_eq_none]
  simp only [Bool.and_eq_true, beq_iff_eq, KeyDataBytes.compareMemEq_iff, not_and, ne_eq]

/-- Everything a call of `RegisterKeyNotify` can do: it fails and changes nothing,
    it finds the same bytes and function, or it appends a new entry. -/
theorem registerKeyNotify_cases (notifyList : List NotifyEntry) (keyData : Option KeyDataBytes)
    (fn : UINT64) (notifyHandle : Option UINT64) (newNotify : UINT64) :
    (∃ status, status ≠ .success ∧
      registerKeyNotify notifyList keyData fn notifyHandle newNotify
        = ⟨status, notifyList, notifyHandle⟩) ∨
    (∃ entry ∈ notifyList, some entry.keyData = keyData ∧ entry.keyNotificationFn = fn ∧
      registerKeyNotify notifyList keyData fn notifyHandle newNotify
        = ⟨.success, notifyList, some entry.handle⟩) ∨
    (∃ data, keyData = some data ∧ fn ≠ 0 ∧ notifyHandle.isSome = true ∧ newNotify ≠ 0 ∧
      findRegistered notifyList data fn = none ∧
      registerKeyNotify notifyList keyData fn notifyHandle newNotify
        = ⟨.success, notifyList ++ [⟨newNotify, data, fn⟩], some newNotify⟩) := by
  cases keyData with
  | none => exact .inl ⟨.invalidParameter, nofun, rfl⟩
  | some data =>
      cases notifyHandle with
      | none => exact .inl ⟨.invalidParameter, nofun, rfl⟩
      | some old =>
          by_cases hfn : fn = 0
          · exact .inl ⟨.invalidParameter, nofun, by rw [registerKeyNotify, if_pos hfn]⟩
          · simp only [registerKeyNotify, if_neg hfn]
            cases hfind : findRegistered notifyList data fn with
            | some entry =>
                obtain ⟨hmem, hfnEq, hdata⟩ := findRegistered_eq_some hfind
                exact .inr (.inl ⟨entry, hmem, congrArg some hdata, hfnEq, rfl⟩)
            | none =>
                by_cases hnew : newNotify = 0
                · exact .inl ⟨.outOfResources, nofun, by rw [if_pos hnew]⟩
                · exact .inr (.inr ⟨data, rfl, hfn, rfl, hnew, hfind, by rw [if_neg hnew]⟩)

/-- The list grows by an entry at the new address, or not at all. -/
theorem registerKeyNotify_notifyList (notifyList : List NotifyEntry)
    (keyData : Option KeyDataBytes) (fn : UINT64) (notifyHandle : Option UINT64)
    (newNotify : UINT64) :
    ∃ added, (registerKeyNotify notifyList keyData fn notifyHandle newNotify).notifyList
        = notifyList ++ added ∧
      ∀ entry ∈ added, entry.handle = newNotify ∧ newNotify ≠ 0 ∧ added = [entry] := by
  rcases registerKeyNotify_cases notifyList keyData fn notifyHandle newNotify with
    ⟨status, -, hresult⟩ | ⟨entry, -, -, -, hresult⟩ | ⟨data, -, -, -, hnew, -, hresult⟩
  · exact ⟨[], by rw [hresult, List.append_nil], fun entry h => absurd h List.not_mem_nil⟩
  · exact ⟨[], by rw [hresult, List.append_nil], fun entry h => absurd h List.not_mem_nil⟩
  · refine ⟨[⟨newNotify, data, fn⟩], by rw [hresult], ?_⟩
    intro entry hentry
    obtain rfl := List.mem_singleton.mp hentry
    exact ⟨rfl, hnew, rfl⟩

theorem removeEntry_eq_none_iff {handle : UINT64} {notifyList : List NotifyEntry} :
    removeEntry handle notifyList = none ↔ handle ∉ notifyList.map NotifyEntry.handle := by
  induction notifyList with
  | nil => exact iff_of_true rfl List.not_mem_nil
  | cons entry rest ih =>
      rw [removeEntry, List.map_cons, List.mem_cons, not_or]
      by_cases hhere : entry.handle = handle
      · rw [if_pos hhere]
        exact iff_of_false (Option.some_ne_none rest) fun h => h.1 hhere.symm
      · rw [if_neg hhere, Option.map_eq_none_iff, ih]
        exact ⟨fun h => ⟨Ne.symm hhere, h⟩, And.right⟩

/-- The search takes one entry out and keeps the others in order. -/
theorem removeEntry_eq_some {handle : UINT64} {notifyList rest : List NotifyEntry}
    (h : removeEntry handle notifyList = some rest) :
    ∃ before entry after, notifyList = before ++ entry :: after ∧ entry.handle = handle ∧
      rest = before ++ after := by
  induction notifyList generalizing rest with
  | nil => cases h
  | cons entry tail ih =>
      rw [removeEntry] at h
      by_cases hhere : entry.handle = handle
      · rw [if_pos hhere] at h
        exact ⟨[], entry, tail, rfl, hhere, (Option.some.inj h).symm⟩
      · rw [if_neg hhere] at h
        obtain ⟨rest', hrest', rfl⟩ := Option.map_eq_some_iff.mp h
        obtain ⟨before, found, after, rfl, hfound, rfl⟩ := ih hrest'
        exact ⟨entry :: before, found, after, rfl, hfound, rfl⟩

/-- Everything a call of `UnregisterKeyNotify` can do. -/
theorem unregisterKeyNotify_cases (notifyList : List NotifyEntry) (handle : UINT64) :
    ((handle = 0 ∨ handle ∉ notifyList.map NotifyEntry.handle) ∧
      unregisterKeyNotify notifyList handle = (.invalidParameter, notifyList)) ∨
    (∃ before entry after, notifyList = before ++ entry :: after ∧ entry.handle = handle ∧
      unregisterKeyNotify notifyList handle = (.success, before ++ after)) := by
  rw [unregisterKeyNotify]
  by_cases hnull : handle = 0
  · exact .inl ⟨.inl hnull, by rw [if_pos hnull]⟩
  · rw [if_neg hnull]
    cases hremove : removeEntry handle notifyList with
    | none => exact .inl ⟨.inr (removeEntry_eq_none_iff.mp hremove), rfl⟩
    | some rest =>
        obtain ⟨before, entry, after, hsplit, hentry, rfl⟩ := removeEntry_eq_some hremove
        exact .inr ⟨before, entry, after, hsplit, hentry, rfl⟩

/-- The list loses one entry, or none. -/
theorem unregisterKeyNotify_sublist (notifyList : List NotifyEntry) (handle : UINT64) :
    (unregisterKeyNotify notifyList handle).2.Sublist notifyList := by
  rcases unregisterKeyNotify_cases notifyList handle with
    ⟨-, hresult⟩ | ⟨before, entry, after, hsplit, -, hresult⟩
  · have hlist : (unregisterKeyNotify notifyList handle).2 = notifyList :=
      congrArg Prod.snd hresult
    exact hlist.symm ▸ List.Sublist.refl notifyList
  · rw [hresult, hsplit]
    exact List.Sublist.append_left (List.sublist_cons_self entry after) before

end UemuPkg
