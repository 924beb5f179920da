/-
  UemuPkg.Library.UemuFdtLib.AlignRange

  `UemuFdtAlignRange` on numbers.  It rounds the base down and the end up to whole
  pages, and refuses the ranges whose rounded end would not fit.
-/

import UemuPkg.Generic.Align
import UemuPkg.Library.UemuFdtLib.Model

namespace UemuPkg

/-- The start of the page of `n`. -/
def pageFloor (n : Nat) : Nat := n / EFI_PAGE_SIZE * EFI_PAGE_SIZE

/-- The start of the first page that is not below `n`. -/
def pageCeil (n : Nat) : Nat := (n + 4095) / EFI_PAGE_SIZE * EFI_PAGE_SIZE

theorem pageFloor_le (n : Nat) : pageFloor n ≤ n := Nat.div_mul_le_self n EFI_PAGE_SIZE

theorem le_pageCeil (n : Nat) : n ≤ pageCeil n := by
  rw [pageCeil, EFI_PAGE_SIZE]
  omega

theorem pageCeil_lt (n : Nat) : pageCeil n < n + 4096 := by
  rw [pageCeil, EFI_PAGE_SIZE]
  omega

theorem alignedBase_toNat (base : UINT64) :
    (base &&& ~~~EFI_PAGE_MASK).toNat = pageFloor base.toNat := by
  have hdown : (base &&& ~~~EFI_PAGE_MASK).toNat = base.toNat - base.toNat % 4096 :=
    Align.toNat_and_not_lowMask (k := 12) base (by decide)
  rw [hdown, pageFloor, EFI_PAGE_SIZE]
  omega

/-- The end is rounded up where the sum fits. -/
theorem alignValue_toNat {rangeEnd : UINT64} (hfits : rangeEnd.toNat ≤ 2 ^ 64 - 4096) :
    (alignValue rangeEnd (BitVec.ofNat 64 EFI_PAGE_SIZE)).toNat = pageCeil rangeEnd.toNat := by
  have hlt : (Align.padding rangeEnd 12).toNat < 4096 :=
    Align.toNat_padding_lt (k := 12) rangeEnd (by decide)
  have hdvd : 4096 ∣ rangeEnd.toNat + (Align.padding rangeEnd 12).toNat :=
    Align.dvd_toNat_add_padding (k := 12) rangeEnd (by decide)
  have hadd : (alignValue rangeEnd (BitVec.ofNat 64 EFI_PAGE_SIZE)).toNat
      = (rangeEnd.toNat + (Align.padding rangeEnd 12).toNat) % 2 ^ 64 :=
    BitVec.toNat_add rangeEnd (Align.padding rangeEnd 12)
  rw [hadd, Nat.mod_eq_of_lt (by omega), pageCeil, EFI_PAGE_SIZE]
  omega

/-- `UemuFdtAlignRange` with both outputs. -/
theorem uemuFdtAlignRange_eq (base size b s : UINT64) :
    uemuFdtAlignRange base size (some b) (some s)
      = if size.toNat = 0 ∨ 2 ^ 64 - 1 < base.toNat + size.toNat then
          ⟨.invalidParameter, some b, some s⟩
        else if 2 ^ 64 - 4096 < base.toNat + size.toNat then
          ⟨.badBufferSize, some b, some s⟩
        else
          ⟨.success, some (BitVec.ofNat 64 (pageFloor base.toNat)),
            some (BitVec.ofNat 64
              (pageCeil (base.toNat + size.toNat) - pageFloor base.toNat))⟩ := by
  have hmax : MAX_UINT64.toNat = 2 ^ 64 - 1 := rfl
  have hsize : size = 0 ↔ size.toNat = 0 := by
    rw [← BitVec.toNat_inj]
    rfl
  have hwrap : base > MAX_UINT64 - size ↔ 2 ^ 64 - 1 < base.toNat + size.toNat := by
    have hle := size.isLt
    rw [gt_iff_lt, BitVec.lt_def, BitVec.toNat_sub_of_le (by rw [BitVec.le_def, hmax]; omega), hmax]
    omega
  rw [uemuFdtAlignRange]
  dsimp only
  by_cases hbad : size.toNat = 0 ∨ 2 ^ 64 - 1 < base.toNat + size.toNat
  · rw [if_pos (by rwa [hsize, hwrap]), if_pos hbad]
  · have hend : (base + size).toNat = base.toNat + size.toNat := by
      rw [BitVec.toNat_add]
      exact Nat.mod_eq_of_lt (by omega)
    have hlast : (MAX_UINT64 - EFI_PAGE_MASK).toNat = 2 ^ 64 - 4096 := rfl
    rw [if_neg (by rwa [hsize, hwrap]), if_neg hbad]
    by_cases htop : 2 ^ 64 - 4096 < base.toNat + size.toNat
    · rw [if_pos (by rw [gt_iff_lt, BitVec.lt_def, hlast, hend]; exact htop), if_pos htop]
    · have hfits : (base + size).toNat ≤ 2 ^ 64 - 4096 := by omega
      have hfloor := pageFloor_le base.toNat
      have hceil := le_pageCeil (base.toNat + size.toNat)
      have hceilEnd := alignValue_toNat hfits
      rw [hend] at hceilEnd
      have hbase : base &&& ~~~EFI_PAGE_MASK = BitVec.ofNat 64 (pageFloor base.toNat) := by
        rw [← alignedBase_toNat, BitVec.ofNat_toNat, BitVec.setWidth_eq]
      have hlen : alignValue (base + size) (BitVec.ofNat 64 EFI_PAGE_SIZE)
            - (base &&& ~~~EFI_PAGE_MASK)
          = BitVec.ofNat 64 (pageCeil (base.toNat + size.toNat) - pageFloor base.toNat) := by
        apply BitVec.eq_of_toNat_eq
        rw [BitVec.toNat_sub_of_le (by rw [BitVec.le_def, hceilEnd, alignedBase_toNat]; omega),
          hceilEnd, alignedBase_toNat, BitVec.toNat_ofNat, Nat.mod_eq_of_lt]
        have hlt := (alignValue (base + size) (BitVec.ofNat 64 EFI_PAGE_SIZE)).isLt
        omega
      rw [if_neg (by rw [gt_iff_lt, BitVec.lt_def, hlast, hend]; exact htop), if_neg htop,
        hlen, hbase]

theorem alignRange_eq (base size : UINT64) :
    alignRange base size
      = if size.toNat = 0 ∨ 2 ^ 64 - 1 < base.toNat + size.toNat then .error .invalidParameter
        else if 2 ^ 64 - 4096 < base.toNat + size.toNat then .error .badBufferSize
        else .ok (BitVec.ofNat 64 (pageFloor base.toNat),
          BitVec.ofNat 64 (pageCeil (base.toNat + size.toNat) - pageFloor base.toNat)) := by
  rw [alignRange, uemuFdtAlignRange_eq]
  by_cases hbad : size.toNat = 0 ∨ 2 ^ 64 - 1 < base.toNat + size.toNat
  · rw [if_pos hbad, if_pos hbad]
  · rw [if_neg hbad, if_neg hbad]
    by_cases htop : 2 ^ 64 - 4096 < base.toNat + size.toNat
    · rw [if_pos htop, if_pos htop]
    · rw [if_neg htop, if_neg htop]

/-- What the callers see on success: whole pages around the given range. -/
theorem alignRange_ok {base size b s : UINT64} (h : alignRange base size = .ok (b, s)) :
    b.toNat = pageFloor base.toNat ∧
      b.toNat + s.toNat = pageCeil (base.toNat + size.toNat) ∧
      base.toNat + size.toNat ≤ 2 ^ 64 - 4096 := by
  rw [alignRange_eq] at h
  split at h
  · cases h
  · split at h
    · cases h
    · rename_i htop
      obtain ⟨rfl, rfl⟩ := Prod.mk.inj (Except.ok.inj h)
      have hfloor := pageFloor_le base.toNat
      have hle := le_pageCeil (base.toNat + size.toNat)
      have hlt := pageCeil_lt (base.toNat + size.toNat)
      have hceil : pageCeil (base.toNat + size.toNat) ≤ 2 ^ 64 - 4096 := by
        rw [pageCeil, EFI_PAGE_SIZE]
        omega
      rw [BitVec.toNat_ofNat, BitVec.toNat_ofNat, Nat.mod_eq_of_lt (by omega),
        Nat.mod_eq_of_lt (by omega)]
      omega

end UemuPkg
