/-
  UemuPkg.Drivers.PlatformSmbiosDxe.EmulatorVersion

  `UpdateEmulatorVersion`: the version of the emulator is a property of the root node.
  The array that it is copied to has room for 127 characters; anything else than one
  string of at most that length leads to the version in the source.
-/

import UemuPkg.Drivers.PlatformSmbiosDxe.CpuInfo
import UemuPkg.Drivers.PlatformSmbiosDxe.Model
import UemuPkg.Library.UemuFdtLib.Model

namespace UemuPkg

/-- The string in an array of characters. -/
def cString (array : List UINT8) : AsciiString where
  chars := array.takeWhile (· ≠ 0)
  noNul h := by simpa using List.mem_takeWhile_imp h

/-- `mSysInfoVersionName`, an array of 128 characters. -/
def mSysInfoVersionName : List UINT8 := ascii "1.0.0".toList ++ List.replicate 123 0

/-- `AsciiStrCpyS`: a string that does not fit is not copied. -/
def asciiStrCpyS (destination source : List UINT8) : List UINT8 :=
  let chars := source.takeWhile (· ≠ 0)
  if chars.length ≥ destination.length then destination
  else chars ++ [0] ++ destination.drop (chars.length + 1)

/-- The search in `UpdateEmulatorVersion`: the status, `Version` and `Size`. -/
def findEmulatorVersion (hob : Option FdtHob) : GetStringResult :=
  match uemuFdtGet hob (some none) with
  | (.success, some fdt) =>
    uemuFdtGetString (fdt.map FdtBlob.toFdt) 0 (some "uotan,emulator-version") (some []) (some 0)
  | (status, _) => ⟨status, none, none⟩

/-- `UpdateEmulatorVersion`: the array after it. -/
def updateEmulatorVersion (hob : Option FdtHob) (versionName : List UINT8) : List UINT8 :=
  match findEmulatorVersion hob with
  | ⟨.success, some version, some size⟩ =>
    if size ≤ 128 then asciiStrCpyS versionName version
    else asciiStrCpyS versionName (ascii "1.0.0".toList ++ [0])
  | _ => asciiStrCpyS versionName (ascii "1.0.0".toList ++ [0])

-- ============================================================================
-- The copies
-- ============================================================================

variable {destination source chars : List UINT8} {hob : Option FdtHob}

theorem takeWhile_terminated (hchars : 0 ∉ chars) (rest : List UINT8) :
    (chars ++ 0 :: rest).takeWhile (· ≠ 0) = chars := by
  rw [List.takeWhile_append_of_pos, List.takeWhile_cons_of_neg (by simp), List.append_nil]
  intro c hc
  simpa using fun h0 : c = 0 => hchars (h0 ▸ hc)

/-- A string that fits is in the array, and the array ends where it did. -/
theorem asciiStrCpyS_spec (hdestination : destination.length = 128) (hsource : 0 ∉ chars)
    (hfit : chars.length < 128) :
    (cString (asciiStrCpyS destination (chars ++ [0]))).chars = chars ∧
      IsVersionString (asciiStrCpyS destination (chars ++ [0])) := by
  have hcopy : asciiStrCpyS destination (chars ++ [0])
      = chars ++ 0 :: destination.drop (chars.length + 1) := by
    rw [asciiStrCpyS]
    rw [takeWhile_terminated hsource, if_neg (by omega), List.append_assoc]
    rfl
  rw [hcopy]
  refine ⟨takeWhile_terminated hsource _, ?_, ?_⟩
  · rw [List.length_append, List.length_cons, List.length_drop]
    omega
  · exact List.mem_append_right _ List.mem_cons_self

-- ============================================================================
-- The property
-- ============================================================================

/-- The root node of the hand-off device tree describes this version, in one string that
    has room in the array. -/
def DescribesVersion (hob : Option FdtHob) (chars : List UINT8) : Prop :=
  ∃ (fdt : FdtBlob) (prop : FdtProp), hob = some ⟨8, some fdt⟩ ∧ fdt.checkHeader = 0 ∧
    fdt.getProp 0 "uotan,emulator-version" = some prop ∧ prop.bytes = chars ++ [0] ∧
    0 ∉ chars ∧ chars.length < 128

/-- The version in the source -/
def defaultVersion : List UINT8 := ascii "1.0.0".toList

theorem uemuFdtGet_eq_some {fdt : Option FdtBlob}
    (h : uemuFdtGet hob (some none) = (.success, some fdt)) :
    ∃ blob, fdt = some blob ∧ hob = some ⟨8, some blob⟩ ∧ blob.checkHeader = 0 := by
  unfold uemuFdtGet at h
  split at h
  · cases h
  split at h
  · cases h
  rename_i found
  obtain ⟨dataSize, blob⟩ := found
  dsimp only at h
  split at h
  · cases h
  rename_i hsize
  obtain rfl := Decidable.not_not.mp hsize
  split at h
  · cases h
  · rename_i blob
    split at h
    · cases h
    · rename_i hheader
      obtain rfl := Option.some.inj (Prod.mk.inj h).2
      exact ⟨blob, rfl, rfl, Decidable.not_not.mp hheader⟩

/-- A string property with its NUL only at the end. -/
theorem uemuFdtGetString_terminated {fdt : Fdt} {node : Int} {property : String} {prop : FdtProp}
    (hprop : fdt.getProp node property = some prop) (hbytes : prop.bytes = chars ++ [0])
    (hchars : 0 ∉ chars) :
    uemuFdtGetString (some fdt) node (some property) (some []) (some 0)
      = ⟨.success, some (chars ++ [0]), some (toUINTN (chars.length + 1))⟩ := by
  have hlen : asciiStrnLenS prop.bytes = prop.bytes.length - 1 := by
    rw [asciiStrnLenS, hbytes, takeWhile_terminated hchars, List.length_append,
      List.length_singleton, Nat.add_sub_cancel]
  rw [uemuFdtGetString, hprop]
  dsimp only
  rw [if_neg ?_, hbytes]
  · simp
  · rw [not_or]
    refine ⟨?_, not_not_intro hlen⟩
    simp [hbytes]

/-- Any other string that is found has the NUL only at its end, too. -/
theorem uemuFdtGetString_success {fdt : Fdt} {node : Int} {property : String}
    {version : List UINT8} {size : Option UINTN}
    (h : uemuFdtGetString (some fdt) node (some property) (some []) (some 0)
      = ⟨.success, some version, size⟩) :
    ∃ prop : FdtProp, fdt.getProp node property = some prop ∧ prop.bytes = version ∧
      version = version.takeWhile (· ≠ 0) ++ [0] ∧ size = some (toUINTN version.length) := by
  rw [uemuFdtGetString] at h
  cases hprop : fdt.getProp node property with
  | none =>
      rw [hprop] at h
      cases h
  | some prop =>
      rw [hprop] at h
      dsimp only at h
      split at h
      · cases h
      · rename_i hguard
        obtain ⟨hpos, hlen⟩ := not_or.mp hguard
        obtain ⟨-, hversion, hsize⟩ := GetStringResult.mk.inj h
        obtain rfl := Option.some.inj hversion
        refine ⟨prop, rfl, rfl, ?_, hsize.symm⟩
        refine eq_concat_of_asciiStrnLenS ?_ (Decidable.not_not.mp hlen)
        intro h0
        exact hpos (by rw [h0]; exact Nat.le_refl 0)

-- ============================================================================
-- The version string
-- ============================================================================

variable {versionName : List UINT8}

theorem updateEmulatorVersion_described (h : DescribesVersion hob chars) :
    updateEmulatorVersion hob versionName = asciiStrCpyS versionName (chars ++ [0]) := by
  obtain ⟨fdt, prop, rfl, hheader, hprop, hbytes, hchars, hlen⟩ := h
  have hget : uemuFdtGet (some ⟨8, some fdt⟩) (some none) = (.success, some (some fdt)) := by
    simp [uemuFdtGet, hheader]
  have hsize : toUINTN (chars.length + 1) ≤ 128 := by
    rw [BitVec.le_def, toUINTN_toNat (by omega) (by omega)]
    show chars.length + 1 ≤ 128
    omega
  have hfind : findEmulatorVersion (some ⟨8, some fdt⟩)
      = ⟨.success, some (chars ++ [0]), some (toUINTN (chars.length + 1))⟩ := by
    rw [findEmulatorVersion, hget]
    exact uemuFdtGetString_terminated hprop hbytes hchars
  rw [updateEmulatorVersion, hfind]
  exact if_pos hsize

/-- A string that is found and has room describes the version. -/
theorem findEmulatorVersion_success {version : List UINT8} {size : UINTN}
    (h : findEmulatorVersion hob = ⟨.success, some version, some size⟩) (hsize : size ≤ 128) :
    DescribesVersion hob (version.takeWhile (· ≠ 0)) := by
  rw [findEmulatorVersion] at h
  split at h
  · rename_i fdt hget
    obtain ⟨blob, rfl, hhob, hheader⟩ := uemuFdtGet_eq_some hget
    obtain ⟨prop, hprop, rfl, hbytes, hlength⟩ := uemuFdtGetString_success h
    refine ⟨blob, prop, hhob, hheader, hprop, hbytes, ?_, ?_⟩
    · intro hmem
      simpa using List.mem_takeWhile_imp hmem
    · have hlt := prop.length_lt
      have hlen := congrArg List.length hbytes
      rw [List.length_append, List.length_singleton] at hlen
      rw [Option.some.inj hlength, BitVec.le_def, toUINTN_toNat (by omega) (by omega)] at hsize
      have hle : prop.bytes.length ≤ 128 := hsize
      omega
  · cases h

theorem updateEmulatorVersion_default (h : ∀ chars, ¬ DescribesVersion hob chars) :
    updateEmulatorVersion hob versionName = asciiStrCpyS versionName (defaultVersion ++ [0]) := by
  rw [updateEmulatorVersion]
  split
  · rename_i version size hfind
    refine if_neg fun hsize => ?_
    exact h _ (findEmulatorVersion_success hfind hsize)
  · rfl

theorem DescribesVersion.unique {other : List UINT8} (h : DescribesVersion hob chars)
    (hother : DescribesVersion hob other) : other = chars := by
  obtain ⟨fdt, prop, hhob, -, hprop, hbytes, -, -⟩ := h
  obtain ⟨fdt', prop', hhob', -, hprop', hbytes', -, -⟩ := hother
  obtain rfl : fdt' = fdt := by
    have heq := hhob'.symm.trans hhob
    simpa using heq
  obtain rfl := Option.some.inj (hprop'.symm.trans hprop)
  exact List.append_cancel_right (hbytes'.symm.trans hbytes)

/-- For every device tree the array holds the version that the root node describes or, if
    it describes none, the one in the source; and it holds a terminated string. -/
theorem updateEmulatorVersion_iff (hob : Option FdtHob) (versionName : List UINT8)
    (hlength : versionName.length = 128) (chars : List UINT8) :
    IsVersionString (updateEmulatorVersion hob versionName) ∧
      ((cString (updateEmulatorVersion hob versionName)).chars = chars ↔
        DescribesVersion hob chars ∨
          (∀ other, ¬ DescribesVersion hob other) ∧ chars = defaultVersion) := by
  by_cases hdescribed : ∃ version, DescribesVersion hob version
  · obtain ⟨version, hversion⟩ := hdescribed
    obtain ⟨-, -, -, -, -, -, hnul, hlt⟩ := id hversion
    obtain ⟨hchars, hterminated⟩ := asciiStrCpyS_spec hlength hnul hlt
    rw [updateEmulatorVersion_described hversion, hchars]
    refine ⟨hterminated, ?_, ?_⟩
    · rintro rfl
      exact .inl hversion
    · rintro (hother | ⟨hnone, -⟩)
      · exact hother.unique hversion
      · exact absurd hversion (hnone version)
  · have hnone := not_exists.mp hdescribed
    have hnul : 0 ∉ defaultVersion := by decide
    obtain ⟨hchars, hterminated⟩ := asciiStrCpyS_spec hlength hnul (by decide)
    rw [updateEmulatorVersion_default hnone, hchars]
    refine ⟨hterminated, ?_, ?_⟩
    · rintro rfl
      exact .inr ⟨hnone, rfl⟩
    · rintro (hother | ⟨-, rfl⟩)
      · exact absurd hother (hnone chars)
      · rfl

/-- A blob whose root node gives the version as a string. -/
def versionBlob (version : FdtProp) : FdtBlob where
  parentOffset _ := -FDT_ERR_NOTFOUND
  addressCells _ := 2
  sizeCells _ := 2
  getProp node name :=
    if node = 0 ∧ name = "uotan,emulator-version" then some version else none
  nextNode _ := -FDT_ERR_NOTFOUND
  subnodeOffset _ _ := -FDT_ERR_NOTFOUND
  firstSubnode _ := -FDT_ERR_NOTFOUND
  nextSubnode _ := -FDT_ERR_NOTFOUND
  numberOfReserveMapEntries := 0
  reserveMapEntry _ := none
  checkHeader := 0
  nodeOffsetByCompatible _ _ := -FDT_ERR_NOTFOUND

theorem updateEmulatorVersion_iff_described :
    (cString (updateEmulatorVersion
      (some ⟨8, some (versionBlob ⟨ascii "2.1".toList ++ [0], by decide⟩)⟩)
      mSysInfoVersionName)).chars = ascii "2.1".toList := by
  refine (updateEmulatorVersion_iff _ mSysInfoVersionName rfl _).2.mpr (.inl ?_)
  exact ⟨_, _, rfl, rfl, rfl, rfl, by decide, by decide⟩

end UemuPkg
