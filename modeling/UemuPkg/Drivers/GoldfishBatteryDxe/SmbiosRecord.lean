/-
  UemuPkg.Drivers.GoldfishBatteryDxe.SmbiosRecord

  `LogSmbiosRecord`, which builds its record the way `LogSmbiosData` of PlatformSmbiosDxe
  does.  What both of them write stays in the buffer that they have allocated, and fills it.
-/

import UemuPkg.Drivers.PlatformSmbiosDxe.RecordBuffer

namespace UemuPkg

open StringTable (encode)

/-- `LogSmbiosRecord`: its status, and the record that it gives to `Smbios->Add`. -/
def logSmbiosRecord (services : SmbiosServices) (template : SmbiosTemplate)
    (stringPack : Option (List AsciiString)) : EfiStatus × Option (List UINT8) :=
  let status := services.locateProtocol
  if status.isError then
    (status, none)
  else if services.allocateZeroPool (smbiosRecordSize template stringPack) then
    let record := smbiosRecord template stringPack
    let (status, _) := services.add record
    (status, some record)
  else
    (.outOfResources, none)

/-- `mBatteryType22` -/
def mBatteryType22 : SmbiosTemplate where
  bytes := [22, 26, 0, 0, 1, 2, 0, 0, 3, 6, 0, 0, 0, 0, 0, 0, 0, 0, 0, 0, 0, 0, 0, 0, 0, 0]
  header_le := by decide
  length_le := by decide

/-- The `StringPack` of `LogBatterySmbios` -/
def batteryStringPack : List AsciiString :=
  [⟨ascii "Internal".toList, by decide⟩, ⟨ascii "Goldfish".toList, by decide⟩,
    ⟨ascii "Virtual Battery".toList, by decide⟩]

/-- `LogBatterySmbios` -/
def logBatterySmbios (services : SmbiosServices) : EfiStatus × Option (List UINT8) :=
  logSmbiosRecord services mBatteryType22 (some batteryStringPack)

variable {services : SmbiosServices} {template : SmbiosTemplate}
  {stringPack : Option (List AsciiString)}

theorem logSmbiosRecord_added {record : List UINT8}
    (hadded : (logSmbiosRecord services template stringPack).2 = some record) :
    record = smbiosRecord template stringPack := by
  rw [logSmbiosRecord] at hadded
  split at hadded
  · cases hadded
  · split at hadded
    · exact (Option.some.inj hadded).symm
    · cases hadded

/-- The writes stay below the allocated size, and the record is the fixed structure, the
    strings with their NULs and one zero byte, or two if there is no string. -/
structure FillsBuffer (template : SmbiosTemplate) (stringPack : Option (List AsciiString))
    (record : List UINT8) : Prop where
  inBounds : StaysInBuffer template stringPack
  contents : record
    = template.fixed ++ (packBytes stringPack ++ List.replicate (nulsBehind stringPack) 0)
  size : record.length = (smbiosRecordSize template stringPack).toNat
  doubleNul : ∃ front, record = front ++ [0, 0]

theorem nulsBehind_of_ne_nil {strings : List AsciiString} (hne : strings ≠ []) :
    nulsBehind (some strings) = 1 :=
  if_neg fun h => hne (List.isEmpty_iff.mp h)

/-- The strings end with a NUL, so the zero byte behind them is a second one. -/
theorem packBytes_doubleNul (stringPack : Option (List AsciiString)) :
    ∃ front, packBytes stringPack ++ List.replicate (nulsBehind stringPack) 0 = front ++ [0, 0] := by
  have hencode : ∀ strings : List AsciiString, strings ≠ [] →
      ∃ front, encode 0 (packChars strings) = front ++ [0] := by
    intro strings hne
    obtain ⟨init, last, rfl⟩ := (List.eq_nil_or_concat strings).resolve_left hne
    refine ⟨encode 0 (packChars init) ++ last.chars, ?_⟩
    simp [encode, packChars]
  cases stringPack with
  | none => exact ⟨[], rfl⟩
  | some strings =>
      by_cases hne : strings = []
      · rw [hne]
        exact ⟨[], rfl⟩
      · obtain ⟨front, hfront⟩ := hencode strings hne
        refine ⟨front, ?_⟩
        rw [packBytes, Option.getD_some, hfront, nulsBehind_of_ne_nil hne, List.append_assoc]
        rfl

/-- A record whose header holds its length byte, and whose size does not wrap, fills its
    buffer. -/
theorem fillsBuffer_smbiosRecord (hlength : template.length ≠ 1)
    (hsize : smbiosRecordBytes template stringPack < 2 ^ 64) :
    FillsBuffer template stringPack (smbiosRecord template stringPack) := by
  have halloc := smbiosRecordSize_toNat template stringPack
  rw [Nat.mod_eq_of_lt hsize, smbiosRecordBytes_pack] at halloc
  constructor
  · exact (staysInBuffer_iff template stringPack).mpr hsize
  · exact smbiosRecord_fills hlength stringPack
  · rw [smbiosRecord_fills hlength, List.length_append, List.length_append,
      template.fixed_length, List.length_replicate, halloc, Nat.add_assoc]
  · obtain ⟨front, hfront⟩ := packBytes_doubleNul stringPack
    refine ⟨template.fixed ++ front, ?_⟩
    rw [smbiosRecord_fills hlength, hfront, List.append_assoc]

/-- The records that `LogSmbiosData` and `LogSmbiosRecord` add fill their buffers, if the
    template is not of length 1 and the record has less than `2 ^ 64` bytes. -/
theorem logSmbiosRecord_fillsBuffer (services : SmbiosServices) (template : SmbiosTemplate)
    (stringPack : Option (List AsciiString)) (dataSmbiosHandle : Option UINT16)
    (hlength : template.length ≠ 1) (hsize : smbiosRecordBytes template stringPack < 2 ^ 64) :
    (∀ record, (logSmbiosData services template stringPack dataSmbiosHandle).added = some record →
      FillsBuffer template stringPack record) ∧
    ∀ record, (logSmbiosRecord services template stringPack).2 = some record →
      FillsBuffer template stringPack record := by
  have hfills := fillsBuffer_smbiosRecord hlength hsize
  constructor
  · intro record hadded
    rw [logSmbiosData_added hadded]
    exact hfills
  · intro record hadded
    rw [logSmbiosRecord_added hadded]
    exact hfills

/-- The battery's record. -/
theorem logSmbiosRecord_fillsBuffer_battery :
    (∀ record,
      (logSmbiosData acceptingServices mBatteryType22 (some batteryStringPack) none).added
        = some record → FillsBuffer mBatteryType22 (some batteryStringPack) record) ∧
    ∀ record, (logBatterySmbios acceptingServices).2 = some record →
      FillsBuffer mBatteryType22 (some batteryStringPack) record := by
  apply logSmbiosRecord_fillsBuffer
  · decide
  · decide

/-- Strings that are `2 ^ 64` bytes long together leave no trace in the size. -/
theorem write_past_end (hlength : template.length ≠ 1)
    (hbytes : (packBytes stringPack).length = 2 ^ 64) (hnul : nulsBehind stringPack = 1) :
    ∃ w ∈ smbiosRecordWrites template stringPack, ∃ i < w.bytes.length,
      (smbiosRecordSize template stringPack).toNat ≤ w.offset + i := by
  have halloc := smbiosRecordSize_toNat template stringPack
  have hshort := template.length.isLt
  rw [smbiosRecordBytes_pack, hbytes, hnul] at halloc
  refine ⟨⟨template.length.toNat + (packBytes stringPack).length, [0]⟩, ?_, 0, Nat.one_pos, ?_⟩
  · rw [smbiosRecordWrites_eq, template.stringsAt_of_ne_one hlength]
    exact List.mem_append_right _ List.mem_cons_self
  · rw [hbytes, halloc]
    dsimp only
    omega

theorem packBytes_replicate (n : Nat) (s : AsciiString) :
    (packBytes (some (List.replicate n s))).length = n * (s.chars.length + 1) := by
  rw [packBytes, Option.getD_some]
  induction n with
  | zero => rw [Nat.zero_mul]; rfl
  | succ n ih =>
      have hencode : encode 0 (packChars (List.replicate (n + 1) s))
          = (s.chars ++ [0]) ++ encode 0 (packChars (List.replicate n s)) := rfl
      rw [hencode, List.length_append, ih, List.length_append, List.length_singleton,
        Nat.succ_mul, Nat.add_comm]

/-- A header of one byte is overwritten, and `2 ^ 33` pointers to one string of `2 ^ 31` bytes
    make the size wrap: the last write is past the end of the buffer. -/
theorem logSmbiosRecord_overruns :
    (∃ template : SmbiosTemplate, template.length = 1 ∧
      ∃ record, (logSmbiosRecord acceptingServices template none).2 = some record ∧
        ¬ FillsBuffer template none record) ∧
    ∃ s : AsciiString, s.chars.length = 2 ^ 31 - 1 ∧
      ∃ w ∈ smbiosRecordWrites mBatteryType22 (some (List.replicate (2 ^ 33) s)),
        ∃ i < w.bytes.length,
          (smbiosRecordSize mBatteryType22 (some (List.replicate (2 ^ 33) s))).toNat
            ≤ w.offset + i := by
  constructor
  · refine ⟨⟨[127, 1, 0, 0], by decide, by decide⟩, rfl, _, rfl, ?_⟩
    intro h
    exact absurd h.contents (by decide)
  · have hnoNul : (0 : UINT8) ∉ List.replicate (2 ^ 31 - 1) (0x41 : UINT8) := by
      intro h
      exact absurd (List.eq_of_mem_replicate h) (by decide)
    have hbytes : 2 ^ 33 * (2 ^ 31 - 1 + 1) = 2 ^ 64 := by decide
    refine ⟨⟨List.replicate (2 ^ 31 - 1) 0x41, hnoNul⟩, List.length_replicate, ?_⟩
    apply write_past_end
    · decide
    · rw [packBytes_replicate, List.length_replicate, hbytes]
    · apply nulsBehind_of_ne_nil
      rw [ne_eq, List.replicate_eq_nil_iff]
      decide

end UemuPkg
