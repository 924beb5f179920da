/-
  UemuPkg.Drivers.PlatformSmbiosDxe.Record

  The contents of the records `LogSmbiosData` builds, and which string arrays are
  read back from them.
-/

import UemuPkg.Drivers.PlatformSmbiosDxe.Model

namespace UemuPkg

open StringTable (encode decode)

variable {template : SmbiosTemplate}

/-- The characters of the strings in an array. -/
def packChars (strings : List AsciiString) : List (List UINT8) := strings.map AsciiString.chars

theorem packChars_noNul (strings : List AsciiString) : ∀ s ∈ packChars strings, 0 ∉ s := by
  intro s hs
  obtain ⟨t, -, rfl⟩ := List.mem_map.mp hs
  exact t.noNul

-- ============================================================================
-- The writes
-- ============================================================================

/-- Two adjacent stores are one. -/
theorem apply_apply_adjacent (pool xs ys : List UINT8) {a : Nat} (ha : a ≤ pool.length) :
    PoolWrite.apply (PoolWrite.apply pool ⟨a, xs⟩) ⟨a + xs.length, ys⟩
      = PoolWrite.apply pool ⟨a, xs ++ ys⟩ := by
  have hlen : (pool.take a ++ xs).length = a + xs.length := by
    rw [List.length_append, List.length_take, Nat.min_eq_left ha]
  simp only [PoolWrite.apply]
  rw [← hlen, List.take_left, ← List.drop_drop, List.drop_left, List.drop_drop, hlen,
    List.length_append]
  simp only [List.append_assoc, Nat.add_assoc]

/-- Consecutive strings are written as one block. -/
theorem appendStringPack_spec (strings : List AsciiString) (pool : List UINT8) (str : Nat)
    (hstr : str ≤ pool.length) :
    (appendStringPack str strings).2 = str + (encode 0 (packChars strings)).length ∧
      (appendStringPack str strings).1.foldl PoolWrite.apply pool
        = PoolWrite.apply pool ⟨str, encode 0 (packChars strings)⟩ := by
  induction strings generalizing pool str with
  | nil =>
      refine ⟨rfl, ?_⟩
      simp [appendStringPack, PoolWrite.apply, packChars]
  | cons s strings ih =>
      have hsize : asciiStrSize s = (s.chars ++ [0]).length := by
        rw [asciiStrSize, List.length_append, List.length_singleton]
      have hstep : str + asciiStrSize s ≤ (PoolWrite.apply pool ⟨str, s.chars ++ [0]⟩).length := by
        simp only [PoolWrite.apply, List.length_append, List.length_take, List.length_drop] at hsize ⊢
        omega
      obtain ⟨hend, hwrites⟩ := ih (PoolWrite.apply pool ⟨str, s.chars ++ [0]⟩)
        (str + asciiStrSize s) hstep
      have hencode : encode 0 (packChars (s :: strings))
          = (s.chars ++ [0]) ++ encode 0 (packChars strings) := rfl
      refine ⟨?_, ?_⟩
      · rw [appendStringPack, hend, hencode, List.length_append, hsize, Nat.add_assoc]
      · rw [appendStringPack, List.foldl_cons, hwrites, hencode, hsize,
          apply_apply_adjacent pool _ _ hstr]

-- ============================================================================
-- The record
-- ============================================================================

/-- The NULs after the strings. -/
def trailingNuls (strings : List AsciiString) : Nat := if strings.isEmpty then 2 else 1

theorem smbiosRecordBytes_eq (template : SmbiosTemplate) (strings : List AsciiString) :
    smbiosRecordBytes template (some strings)
      = template.length.toNat + (encode 0 (packChars strings)).length + trailingNuls strings := by
  have hfold : ∀ size, strings.foldl (fun size s => size + asciiStrSize s) size
      = size + (encode 0 (packChars strings)).length := by
    induction strings with
    | nil => exact fun size => rfl
    | cons s strings ih =>
        intro size
        have hencode : encode 0 (packChars (s :: strings))
            = (s.chars ++ [0]) ++ encode 0 (packChars strings) := rfl
        rw [List.foldl_cons, ih, hencode, List.length_append, List.length_append, asciiStrSize,
          List.length_singleton]
        omega
  simp only [smbiosRecordBytes, hfold, trailingNuls]
  split <;> omega

/-- The fixed structure, as the copy leaves it. -/
def SmbiosTemplate.fixed (template : SmbiosTemplate) : List UINT8 :=
  template.bytes.take template.length.toNat

theorem SmbiosTemplate.fixed_length (template : SmbiosTemplate) :
    template.fixed.length = template.length.toNat := by
  rw [SmbiosTemplate.fixed, List.length_take]
  exact Nat.min_eq_left template.length_le

/-- The buffer after the header was copied. -/
theorem apply_fixed (template : SmbiosTemplate) (size : Nat) :
    PoolWrite.apply (List.replicate size 0) ⟨0, template.fixed⟩
      = template.fixed ++ List.replicate (size - template.length.toNat) 0 := by
  simp only [PoolWrite.apply, List.take_zero, List.nil_append, Nat.zero_add,
    template.fixed_length, List.drop_replicate]

/-- `Record->Length` is `Template->Length`, except that a header of one byte does not
    contain it. -/
theorem recordLength_eq (template : SmbiosTemplate) (k : Nat) :
    ((template.fixed ++ List.replicate k 0).getD 1 0).toNat
      = if template.length = 1 then 0 else template.length.toNat := by
  have hlen := template.fixed_length
  rw [List.getD_eq_getElem?_getD]
  by_cases h2 : 2 ≤ template.length.toNat
  · have hne : template.length ≠ 1 := by
      intro h
      rw [h] at h2
      exact absurd h2 (by decide)
    rw [if_neg hne, List.getElem?_append_left (by omega), SmbiosTemplate.fixed,
      List.getElem?_take_of_lt (by omega), ← List.getD_eq_getElem?_getD]
    rfl
  · have hpast : (((template.fixed ++ List.replicate k 0)[1]?).getD (0 : UINT8)).toNat = 0 := by
      rw [List.getElem?_append_right (by omega), List.getElem?_replicate]
      split <;> rfl
    rw [hpast]
    split
    · rfl
    · rename_i hne
      have hne1 : template.length.toNat ≠ 1 := fun h => hne (BitVec.eq_of_toNat_eq h)
      omega

/-- The strings and the final NUL go to where `Record->Length` points. -/
theorem smbiosRecord_eq_apply (template : SmbiosTemplate) (strings : List AsciiString) :
    smbiosRecord template (some strings)
      = PoolWrite.apply
          (template.fixed ++ List.replicate
            ((encode 0 (packChars strings)).length + trailingNuls strings) 0)
          ⟨if template.length = 1 then 0 else template.length.toNat,
            encode 0 (packChars strings) ++ [0]⟩ := by
  have hsize := smbiosRecordBytes_eq template strings
  have hpool := apply_fixed template (smbiosRecordBytes template (some strings))
  have hrest : smbiosRecordBytes template (some strings) - template.length.toNat
      = (encode 0 (packChars strings)).length + trailingNuls strings := by omega
  rw [hrest] at hpool
  have hbound : (if template.length = 1 then 0 else template.length.toNat)
      ≤ (template.fixed ++ List.replicate
          ((encode 0 (packChars strings)).length + trailingNuls strings) (0 : UINT8)).length := by
    rw [List.length_append, template.fixed_length]
    split <;> omega
  obtain ⟨hend, hwrites⟩ := appendStringPack_spec strings _ _ hbound
  rw [smbiosRecord, smbiosRecordWrites, ← SmbiosTemplate.fixed]
  simp only [List.cons_append, List.foldl_cons, List.foldl_append, List.foldl_nil, hpool,
    recordLength_eq, hwrites, hend]
  exact apply_apply_adjacent _ _ _ hbound

theorem trailingNuls_pos (strings : List AsciiString) : ∃ r, trailingNuls strings = 1 + r := by
  rw [trailingNuls]
  split
  · exact ⟨1, rfl⟩
  · exact ⟨0, rfl⟩

/-- The record in full, where the header holds its length byte. -/
theorem smbiosRecord_eq (strings : List AsciiString) (hlength : template.length ≠ 1) :
    smbiosRecord template (some strings)
      = template.fixed ++ (encode 0 (packChars strings)
          ++ List.replicate (trailingNuls strings) 0) := by
  obtain ⟨r, hr⟩ := trailingNuls_pos strings
  have hrest : (encode 0 (packChars strings)).length + (1 + r)
      - ((encode 0 (packChars strings)).length + 1) = r := by omega
  rw [smbiosRecord_eq_apply, if_neg hlength, PoolWrite.apply]
  dsimp only
  rw [← template.fixed_length, List.take_left, ← List.drop_drop, List.drop_left,
    List.drop_replicate, List.length_append, List.length_singleton, hr, hrest,
    ← List.replicate_append_replicate]
  simp only [List.append_assoc]
  rfl

/-- A header of one byte is overwritten by the strings. -/
theorem smbiosRecord_eq_of_one (strings : List AsciiString) (hlength : template.length = 1) :
    smbiosRecord template (some strings)
      = encode 0 (packChars strings) ++ List.replicate (trailingNuls strings + 1) 0 := by
  obtain ⟨b, hb⟩ : ∃ b, template.fixed = [b] := by
    apply List.length_eq_one_iff.mp
    rw [template.fixed_length, hlength]
    rfl
  obtain ⟨r, hr⟩ := trailingNuls_pos strings
  have hrest : (encode 0 (packChars strings)).length + (1 + r)
      - (encode 0 (packChars strings)).length = 1 + r := by omega
  rw [smbiosRecord_eq_apply, if_pos hlength, PoolWrite.apply, hb]
  dsimp only
  rw [List.take_zero, List.nil_append, Nat.zero_add, List.length_append, List.length_singleton,
    List.singleton_append, List.drop_succ_cons, List.drop_replicate, hr, hrest,
    List.replicate_succ, List.append_assoc]
  rfl

-- ============================================================================
-- Decoding
-- ============================================================================

theorem smbiosDecode_of_ne_one (strings : List AsciiString) (hlength : template.length ≠ 1) :
    smbiosDecode template.length (smbiosRecord template (some strings))
      = decode 0 (encode 0 (packChars strings) ++ List.replicate (trailingNuls strings) 0) := by
  rw [smbiosDecode, smbiosRecord_eq strings hlength, ← template.fixed_length, List.drop_left]

/-- The strings of a record are read back, up to its end, exactly if the array is
    empty, or if the header holds its length byte, no string after the first one is
    empty, and the first is not the only one if it is. -/
theorem smbiosDecode_smbiosRecord_iff (template : SmbiosTemplate) (strings : List AsciiString) :
    smbiosDecode template.length (smbiosRecord template (some strings))
        = some (packChars strings, [])
      ↔ strings = [] ∨ (template.length ≠ 1 ∧ packChars strings ≠ [[]] ∧
          ∀ s ∈ strings.tail, s.chars ≠ []) := by
  cases strings with
  | nil =>
      refine iff_of_true ?_ (.inl rfl)
      by_cases hlength : template.length = 1
      · rw [smbiosDecode, smbiosRecord_eq_of_one [] hlength, hlength]
        rfl
      · rw [smbiosDecode_of_ne_one [] hlength]
        rfl
  | cons s strings =>
      have hnul := packChars_noNul (s :: strings)
      have hcons : packChars (s :: strings) = s.chars :: packChars strings := rfl
      by_cases hlength : template.length = 1
      · refine iff_of_false ?_ ?_
        · intro h
          rw [smbiosDecode, smbiosRecord_eq_of_one (s :: strings) hlength, hlength,
            show (1 : UINT8).toNat = 1 from rfl, List.drop_one] at h
          exact StringTable.decode_encode_tail_ne hnul [] (congrArg (Option.map Prod.fst) h)
        · rintro (h | ⟨h, -⟩)
          · cases h
          · exact h hlength
      · rw [smbiosDecode_of_ne_one (s :: strings) hlength, hcons]
        rw [hcons] at hnul
        refine (StringTable.decode_encode_iff hnul).trans ?_
        refine ⟨?_, ?_⟩
        · rintro ⟨hsingle, htail⟩
          refine .inr ⟨hlength, hsingle, fun t ht => htail _ (List.mem_map_of_mem ht)⟩
        · rintro (h | ⟨-, hsingle, htail⟩)
          · cases h
          · refine ⟨hsingle, fun t ht => ?_⟩
            obtain ⟨u, hu, rfl⟩ := List.mem_map.mp ht
            exact htail u hu

/-- What `LogSmbiosData` adds is the record that it has built. -/
theorem logSmbiosData_added {services : SmbiosServices} {stringPack : Option (List AsciiString)}
    {dataSmbiosHandle : Option UINT16} {record : List UINT8}
    (hadded : (logSmbiosData services template stringPack dataSmbiosHandle).added = some record) :
    record = smbiosRecord template stringPack := by
  rw [logSmbiosData] at hadded
  split at hadded
  · cases hadded
  · split at hadded
    · exact (Option.some.inj hadded).symm
    · cases hadded

/-- The services of a system that accepts every record. -/
def acceptingServices : SmbiosServices where
  locateProtocol := .success
  allocateZeroPool _ := true
  add _ := (.success, 0)

/-- `mBoardInfoType2` -/
def mBoardInfoType2 : SmbiosTemplate where
  bytes := [2, 17, 0, 0, 1, 2, 3, 4, 5, 1, 6, 0, 0, 0x0A, 0, 0, 0]
  header_le := by decide
  length_le := by decide

/-- `mBoardInfoType2Strings`, whose asset tag is the zero-filled `mChassisAssetTag`. -/
def mBoardInfoType2Strings : List AsciiString :=
  [⟨ascii ['U', 'o', 't', 'a', 'n'], by decide⟩,
   ⟨ascii ['U', 'o', 't', 'a', 'n', ' ', 'R', 'I', 'S', 'C', '-', 'V', ' ', 'E', 'm', 'u', 'l',
      'a', 't', 'o', 'r'], by decide⟩,
   ⟨ascii ['1', '.', '0', '.', '0'], by decide⟩,
   ⟨ascii ['N', 'o', 't', ' ', 'S', 'p', 'e', 'c', 'i', 'f', 'i', 'e', 'd'], by decide⟩,
   ⟨[], by decide⟩,
   ⟨ascii ['V', 'i', 'r', 't', 'u', 'a', 'l', ' ', 'M', 'a', 'c', 'h', 'i', 'n', 'e'],
     by decide⟩]

end UemuPkg
