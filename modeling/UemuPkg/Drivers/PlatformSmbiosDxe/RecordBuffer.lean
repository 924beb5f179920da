/-
  UemuPkg.Drivers.PlatformSmbiosDxe.RecordBuffer

  The buffer of an SMBIOS record.  One loop adds up the sizes of the strings, another one
  copies them behind the fixed structure; the writes stay in the buffer exactly if the sum
  does not wrap, and fill it if the copied header holds the length that is read back from it.
-/

import UemuPkg.Drivers.PlatformSmbiosDxe.Record

namespace UemuPkg

open StringTable (encode)

variable {template : SmbiosTemplate} {stringPack : Option (List AsciiString)}

-- ============================================================================
-- The size
-- ============================================================================

/-- A `Size` that is right but for what has wrapped stays so. -/
theorem addSize_toNat {size : UINTN} {n : Nat} (h : size.toNat = n % 2 ^ 64) (k : Nat) :
    (size + BitVec.ofNat 64 k).toNat = (n + k) % 2 ^ 64 := by
  rw [BitVec.toNat_add, BitVec.toNat_ofNat, h]
  exact (Nat.add_mod n k (2 ^ 64)).symm

theorem addStringSizes_toNat (strings : List AsciiString) {size : UINTN} {n : Nat}
    (h : size.toNat = n % 2 ^ 64) :
    (strings.foldl (fun size s => size + BitVec.ofNat 64 (asciiStrSize s)) size).toNat
      = strings.foldl (fun size s => size + asciiStrSize s) n % 2 ^ 64 := by
  induction strings generalizing size n with
  | nil => exact h
  | cons s strings ih => exact ih (addSize_toNat h (asciiStrSize s))

/-- The sum wraps at `2 ^ 64`. -/
theorem smbiosRecordSize_toNat (template : SmbiosTemplate)
    (stringPack : Option (List AsciiString)) :
    (smbiosRecordSize template stringPack).toNat
      = smbiosRecordBytes template stringPack % 2 ^ 64 := by
  have hfixed : (template.length.setWidth 64 : UINTN).toNat = template.length.toNat % 2 ^ 64 :=
    BitVec.toNat_setWidth 64 template.length
  cases stringPack with
  | none => exact addSize_toNat hfixed 2
  | some strings =>
      have hsum := addStringSizes_toNat strings hfixed
      rw [smbiosRecordSize, smbiosRecordBytes]
      cases strings.isEmpty with
      | true => exact addSize_toNat (addSize_toNat hsum 1) 1
      | false => exact addSize_toNat hsum 1

-- ============================================================================
-- What is written
-- ============================================================================

/-- The strings of the array, each with its NUL. -/
def packBytes (stringPack : Option (List AsciiString)) : List UINT8 :=
  encode 0 (packChars (stringPack.getD []))

/-- Two zero bytes for a NULL or an empty array, and one otherwise. -/
def nulsBehind : Option (List AsciiString) → Nat
  | none => 2
  | some strings => trailingNuls strings

theorem smbiosRecordBytes_pack (template : SmbiosTemplate)
    (stringPack : Option (List AsciiString)) :
    smbiosRecordBytes template stringPack
      = template.length.toNat + (packBytes stringPack).length + nulsBehind stringPack := by
  cases stringPack with
  | none => rfl
  | some strings => exact smbiosRecordBytes_eq template strings

/-- The loop writes between the place where it starts and the one where it ends. -/
theorem appendStringPack_within (strings : List AsciiString) (str : Nat) :
    (appendStringPack str strings).2 = str + (encode 0 (packChars strings)).length ∧
      ∀ w ∈ (appendStringPack str strings).1,
        w.offset + w.bytes.length ≤ (appendStringPack str strings).2 := by
  induction strings generalizing str with
  | nil => exact ⟨rfl, fun w hw => absurd hw List.not_mem_nil⟩
  | cons s strings ih =>
      obtain ⟨hend, hwithin⟩ := ih (str + asciiStrSize s)
      have hsize : (s.chars ++ [0]).length = asciiStrSize s := List.length_append
      have hencode : encode 0 (packChars (s :: strings))
          = (s.chars ++ [0]) ++ encode 0 (packChars strings) := rfl
      rw [appendStringPack]
      dsimp only
      constructor
      · rw [hend, hencode, List.length_append, hsize, Nat.add_assoc]
      · intro w hw
        rcases List.mem_cons.mp hw with rfl | hlater
        · dsimp only
          rw [hend, hsize]
          omega
        · exact hwithin w hlater

/-- `Record->Length`, as it is read back from the copied header. -/
def SmbiosTemplate.stringsAt (template : SmbiosTemplate) : Nat :=
  if template.length = 1 then 0 else template.length.toNat

theorem SmbiosTemplate.stringsAt_of_ne_one (hlength : template.length ≠ 1) :
    template.stringsAt = template.length.toNat := if_neg hlength

theorem SmbiosTemplate.stringsAt_bounds (template : SmbiosTemplate) :
    template.stringsAt ≤ template.length.toNat ∧
      template.length.toNat ≤ template.stringsAt + 1 := by
  rw [SmbiosTemplate.stringsAt]
  split
  · rename_i hone
    rw [hone]
    decide
  · omega

/-- All writes: the fixed structure, the strings, and one NUL behind them. -/
theorem smbiosRecordWrites_eq (template : SmbiosTemplate)
    (stringPack : Option (List AsciiString)) :
    smbiosRecordWrites template stringPack
      = ⟨0, template.fixed⟩ :: (appendStringPack template.stringsAt (stringPack.getD [])).1
          ++ [⟨template.stringsAt + (packBytes stringPack).length, [0]⟩] := by
  have hstr := recordLength_eq template
    (smbiosRecordBytes template stringPack - template.length.toNat)
  have hpool := apply_fixed template (smbiosRecordBytes template stringPack)
  rw [← hpool, ← SmbiosTemplate.stringsAt] at hstr
  cases stringPack with
  | none =>
      rw [smbiosRecordWrites, ← SmbiosTemplate.fixed, hstr]
      rfl
  | some strings =>
      rw [smbiosRecordWrites, ← SmbiosTemplate.fixed, hstr,
        (appendStringPack_within strings template.stringsAt).1]
      rfl

/-- No byte is written past the end of the buffer. -/
def StaysInBuffer (template : SmbiosTemplate) (stringPack : Option (List AsciiString)) : Prop :=
  ∀ w ∈ smbiosRecordWrites template stringPack, ∀ i < w.bytes.length,
    w.offset + i < (smbiosRecordSize template stringPack).toNat

theorem nulsBehind_bounds (stringPack : Option (List AsciiString)) :
    0 < nulsBehind stringPack ∧ nulsBehind stringPack ≤ 2 := by
  cases stringPack with
  | none => decide
  | some strings =>
      rw [nulsBehind, trailingNuls]
      split <;> decide

/-- The writes stay in the buffer exactly if its size has not wrapped. -/
theorem staysInBuffer_iff (template : SmbiosTemplate) (stringPack : Option (List AsciiString)) :
    StaysInBuffer template stringPack ↔ smbiosRecordBytes template stringPack < 2 ^ 64 := by
  have halloc := smbiosRecordSize_toNat template stringPack
  have hbytes := smbiosRecordBytes_pack template stringPack
  have hnul := nulsBehind_bounds stringPack
  have hstart := template.stringsAt_bounds
  rw [StaysInBuffer, smbiosRecordWrites_eq]
  constructor
  · intro hstays
    by_contra hwraps
    have hlast := hstays ⟨template.stringsAt + (packBytes stringPack).length, [0]⟩
      (List.mem_append_right _ List.mem_cons_self) 0 Nat.one_pos
    dsimp only at hlast
    omega
  · intro hsize w hw i hi
    obtain ⟨hend, hwithin⟩ := appendStringPack_within (stringPack.getD []) template.stringsAt
    rw [← packBytes] at hend
    rw [halloc, Nat.mod_eq_of_lt hsize]
    rcases List.mem_append.mp hw with hwrite | hlast
    · rcases List.mem_cons.mp hwrite with rfl | hstring
      · rw [template.fixed_length] at hi
        dsimp only
        omega
      · have hle := hwithin w hstring
        omega
    · obtain rfl := List.mem_singleton.mp hlast
      dsimp only [List.length_singleton] at hi ⊢
      omega

/-- The record is filled to its end. -/
theorem smbiosRecord_fills (hlength : template.length ≠ 1)
    (stringPack : Option (List AsciiString)) :
    smbiosRecord template stringPack
      = template.fixed ++ (packBytes stringPack ++ List.replicate (nulsBehind stringPack) 0) := by
  cases stringPack with
  | some strings => exact smbiosRecord_eq strings hlength
  | none =>
      have hsize : smbiosRecordBytes template none = template.length.toNat + 2 := rfl
      have hpool := apply_fixed template (smbiosRecordBytes template none)
      rw [hsize, Nat.add_sub_cancel_left] at hpool
      rw [smbiosRecord, smbiosRecordWrites_eq, template.stringsAt_of_ne_one hlength, hsize]
      show PoolWrite.apply (PoolWrite.apply _ ⟨0, template.fixed⟩)
        ⟨template.length.toNat + 0, [0]⟩ = _
      rw [hpool, Nat.add_zero, PoolWrite.apply, ← template.fixed_length]
      dsimp only
      rw [List.take_left, ← List.drop_drop, List.drop_left, List.append_assoc]
      rfl

-- ============================================================================
-- What is read back
-- ============================================================================

/-- `LogSmbiosData` builds a record in its buffer whose strings are read back as they were
    given exactly if the size does not wrap and the condition of
    `smbiosDecode_smbiosRecord_iff` holds. -/
theorem logSmbiosData_decodes_iff (services : SmbiosServices) (template : SmbiosTemplate)
    (strings : List AsciiString) (dataSmbiosHandle : Option UINT16) (record : List UINT8)
    (hadded : (logSmbiosData services template (some strings) dataSmbiosHandle).added
      = some record) :
    (StaysInBuffer template (some strings) ∧
        smbiosDecode template.length record = some (packChars strings, []))
      ↔ smbiosRecordBytes template (some strings) < 2 ^ 64 ∧
        (strings = [] ∨ (template.length ≠ 1 ∧ packChars strings ≠ [[]] ∧
          ∀ s ∈ strings.tail, s.chars ≠ [])) := by
  rw [logSmbiosData_added hadded]
  exact and_congr (staysInBuffer_iff template (some strings))
    (smbiosDecode_smbiosRecord_iff template strings)

theorem logSmbiosData_decodes_iff_board :
    (StaysInBuffer mBoardInfoType2 (some [⟨[0x55], by decide⟩]) ∧
        smbiosDecode mBoardInfoType2.length
            (smbiosRecord mBoardInfoType2 (some [⟨[0x55], by decide⟩]))
          = some ([[0x55]], []))
      ↔ smbiosRecordBytes mBoardInfoType2 (some [⟨[0x55], by decide⟩]) < 2 ^ 64 ∧
        ([(⟨[0x55], by decide⟩ : AsciiString)] = [] ∨ (mBoardInfoType2.length ≠ 1 ∧
          packChars [⟨[0x55], by decide⟩] ≠ [[]] ∧
          ∀ s ∈ [(⟨[0x55], by decide⟩ : AsciiString)].tail, s.chars ≠ [])) :=
  logSmbiosData_decodes_iff acceptingServices mBoardInfoType2 [⟨[0x55], by decide⟩] none _ rfl

/-- The board record ends at its empty asset tag: the strings behind it are lost. -/
theorem logSmbiosData_board_strings_lost :
    (logSmbiosData acceptingServices mBoardInfoType2 (some mBoardInfoType2Strings) none).added
        = some (smbiosRecord mBoardInfoType2 (some mBoardInfoType2Strings)) ∧
      smbiosDecode mBoardInfoType2.length
          (smbiosRecord mBoardInfoType2 (some mBoardInfoType2Strings))
        ≠ some (packChars mBoardInfoType2Strings, []) := by
  refine ⟨rfl, fun hdecode => ?_⟩
  rcases (smbiosDecode_smbiosRecord_iff _ _).mp hdecode with h | ⟨-, -, htail⟩
  · cases h
  · exact htail ⟨[], by decide⟩ (by simp [mBoardInfoType2Strings]) rfl

end UemuPkg
