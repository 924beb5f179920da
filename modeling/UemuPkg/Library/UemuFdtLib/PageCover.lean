/-
  UemuPkg.Library.UemuFdtLib.PageCover

  What `UemuFdtAlignRange` is for: the least range of whole pages around a range.  The
  covers are ranges of integers; the function computes in 64 bits and refuses the ranges
  whose cover would reach the top of the address space.
-/

import UemuPkg.Library.UemuFdtLib.AlignRange

namespace UemuPkg

-- ============================================================================
-- Covers
-- ============================================================================

/-- The `s` bytes from `b` on are whole pages around the `size` bytes from `base` on. -/
structure PageCover (base size b s : Nat) : Prop where
  base_dvd : EFI_PAGE_SIZE ∣ b
  size_dvd : EFI_PAGE_SIZE ∣ s
  le_base : b ≤ base
  end_le : base + size ≤ b + s

/-- The cover that lies inside every other one. -/
structure LeastPageCover (base size b s : Nat) : Prop extends PageCover base size b s where
  least : ∀ b' s', PageCover base size b' s' → b' ≤ b ∧ b + s ≤ b' + s'

variable {n k : Nat}

theorem dvd_pageFloor (n : Nat) : EFI_PAGE_SIZE ∣ pageFloor n := Nat.dvd_mul_left _ _

theorem dvd_pageCeil (n : Nat) : EFI_PAGE_SIZE ∣ pageCeil n := Nat.dvd_mul_left _ _

theorem le_pageFloor (hk : EFI_PAGE_SIZE ∣ k) (hle : k ≤ n) : k ≤ pageFloor n := by
  obtain ⟨m, rfl⟩ := hk
  rw [EFI_PAGE_SIZE] at hle ⊢
  rw [pageFloor, EFI_PAGE_SIZE]
  omega

theorem pageCeil_le (hk : EFI_PAGE_SIZE ∣ k) (hle : n ≤ k) : pageCeil n ≤ k := by
  obtain ⟨m, rfl⟩ := hk
  rw [EFI_PAGE_SIZE] at hle ⊢
  rw [pageCeil, EFI_PAGE_SIZE]
  omega

theorem pageFloor_of_dvd (hk : EFI_PAGE_SIZE ∣ k) : pageFloor k = k :=
  Nat.le_antisymm (pageFloor_le k) (le_pageFloor hk (Nat.le_refl k))

theorem pageCeil_of_dvd (hk : EFI_PAGE_SIZE ∣ k) : pageCeil k = k :=
  Nat.le_antisymm (pageCeil_le hk (Nat.le_refl k)) (le_pageCeil k)

/-- Rounding both ends outwards gives the least cover. -/
theorem leastPageCover (base size : Nat) :
    LeastPageCover base size (pageFloor base) (pageCeil (base + size) - pageFloor base) := by
  have hfloor := pageFloor_le base
  have hceil := le_pageCeil (base + size)
  refine ⟨⟨dvd_pageFloor base, Nat.dvd_sub (dvd_pageCeil _) (dvd_pageFloor base), hfloor, ?_⟩, ?_⟩
  · omega
  · intro b' s' hcover
    have hb := le_pageFloor hcover.base_dvd hcover.le_base
    have hs := pageCeil_le ((Nat.dvd_add_right hcover.base_dvd).mpr hcover.size_dvd) hcover.end_le
    omega

/-- A range of whole pages is its own cover. -/
theorem LeastPageCover.of_pages {base size b s : Nat} (h : LeastPageCover base size b s) :
    pageFloor b = b ∧ pageCeil (b + s) = b + s :=
  ⟨pageFloor_of_dvd h.base_dvd, pageCeil_of_dvd ((Nat.dvd_add_right h.base_dvd).mpr h.size_dvd)⟩

-- ============================================================================
-- UemuFdtAlignRange
-- ============================================================================

/-- Where both outputs are given, the range is aligned exactly if its end rounds up to
    an address. -/
theorem uemuFdtAlignRange_success_iff (base size b s : UINT64) :
    (uemuFdtAlignRange base size (some b) (some s)).status = .success ↔
      size ≠ 0 ∧ base.toNat + size.toNat ≤ 2 ^ 64 - 4096 := by
  have hsize : size ≠ 0 ↔ size.toNat ≠ 0 := by
    rw [ne_eq, ne_eq, ← BitVec.toNat_inj]
    rfl
  rw [uemuFdtAlignRange_eq, hsize]
  split
  · refine iff_of_false nofun ?_
    omega
  · split
    · refine iff_of_false nofun ?_
      omega
    · refine iff_of_true rfl ?_
      omega

/-- The outputs are written on success only. -/
theorem uemuFdtAlignRange_unchanged (base size b s : UINT64)
    (hfails : (uemuFdtAlignRange base size (some b) (some s)).status ≠ .success) :
    (uemuFdtAlignRange base size (some b) (some s)).alignedBase = some b ∧
      (uemuFdtAlignRange base size (some b) (some s)).alignedSize = some s := by
  rw [uemuFdtAlignRange_eq] at hfails ⊢
  split
  · exact ⟨rfl, rfl⟩
  · rename_i hvalid
    rw [if_neg hvalid] at hfails
    split
    · exact ⟨rfl, rfl⟩
    · rename_i hfits
      rw [if_neg hfits] at hfails
      exact absurd rfl hfails

/-- On success the outputs are the least cover, below the top of the address space. -/
theorem uemuFdtAlignRange_covers {base size b s : UINT64}
    (hsuccess : (uemuFdtAlignRange base size (some b) (some s)).status = .success) :
    ∃ b' s', uemuFdtAlignRange base size (some b) (some s) = ⟨.success, some b', some s'⟩ ∧
      LeastPageCover base.toNat size.toNat b'.toNat s'.toNat ∧ s' ≠ 0 ∧
      b'.toNat + s'.toNat ≤ 2 ^ 64 - 4096 := by
  obtain ⟨hsize, hfits⟩ := (uemuFdtAlignRange_success_iff base size b s).mp hsuccess
  have hpos : size.toNat ≠ 0 := fun h0 => hsize (BitVec.eq_of_toNat_eq h0)
  have hfloor := pageFloor_le base.toNat
  have hceil := le_pageCeil (base.toNat + size.toNat)
  have htop : pageCeil (base.toNat + size.toNat) ≤ 2 ^ 64 - 4096 := pageCeil_le ⟨2 ^ 52 - 1, rfl⟩ hfits
  have hbase : (BitVec.ofNat 64 (pageFloor base.toNat)).toNat = pageFloor base.toNat :=
    Nat.mod_eq_of_lt (by omega)
  have hlen : (BitVec.ofNat 64 (pageCeil (base.toNat + size.toNat) - pageFloor base.toNat)).toNat
      = pageCeil (base.toNat + size.toNat) - pageFloor base.toNat := Nat.mod_eq_of_lt (by omega)
  refine ⟨BitVec.ofNat 64 (pageFloor base.toNat),
    BitVec.ofNat 64 (pageCeil (base.toNat + size.toNat) - pageFloor base.toNat), ?_, ?_, ?_, ?_⟩
  · rw [uemuFdtAlignRange_eq, if_neg (by omega), if_neg (by omega)]
  · rw [hbase, hlen]
    exact leastPageCover base.toNat size.toNat
  · intro h0
    rw [h0, show (0 : UINT64).toNat = 0 from rfl] at hlen
    omega
  · rw [hbase, hlen]
    omega

/-- Whole pages below the top of the address space are aligned to themselves. -/
theorem uemuFdtAlignRange_of_pages {base size : UINT64} (hsize : size ≠ 0)
    (hfits : base.toNat + size.toNat ≤ 2 ^ 64 - 4096) (hfloor : pageFloor base.toNat = base.toNat)
    (hceil : pageCeil (base.toNat + size.toNat) = base.toNat + size.toNat) (b s : UINT64) :
    uemuFdtAlignRange base size (some b) (some s) = ⟨.success, some base, some size⟩ := by
  have hpos : size.toNat ≠ 0 := fun h0 => hsize (BitVec.eq_of_toNat_eq h0)
  rw [uemuFdtAlignRange_eq, if_neg (by omega), if_neg (by omega), hfloor, hceil,
    Nat.add_sub_cancel_left, BitVec.ofNat_toNat, BitVec.ofNat_toNat, BitVec.setWidth_eq,
    BitVec.setWidth_eq]

/-- `UemuFdtAlignRange` computes the least page cover, or fails and changes nothing: it
    succeeds exactly for the ranges that are not empty and end at least a page below
    2^64, and its results are fixed points. -/
theorem uemuFdtAlignRange_least_cover (base size b s : UINT64) :
    ((uemuFdtAlignRange base size (some b) (some s)).status = .success ↔
      size ≠ 0 ∧ base.toNat + size.toNat ≤ 2 ^ 64 - 4096) ∧
    ((uemuFdtAlignRange base size (some b) (some s)).status = .success →
      ∃ b' s', uemuFdtAlignRange base size (some b) (some s) = ⟨.success, some b', some s'⟩ ∧
        LeastPageCover base.toNat size.toNat b'.toNat s'.toNat ∧
        b'.toNat + s'.toNat < 2 ^ 64 ∧
        ∀ c t, uemuFdtAlignRange b' s' (some c) (some t) = ⟨.success, some b', some s'⟩) ∧
    ((uemuFdtAlignRange base size (some b) (some s)).status ≠ .success →
      (uemuFdtAlignRange base size (some b) (some s)).alignedBase = some b ∧
        (uemuFdtAlignRange base size (some b) (some s)).alignedSize = some s) := by
  refine ⟨uemuFdtAlignRange_success_iff base size b s, ?_, uemuFdtAlignRange_unchanged base size b s⟩
  intro hsuccess
  obtain ⟨b', s', heq, hcover, hne, hfits⟩ := uemuFdtAlignRange_covers hsuccess
  obtain ⟨hfloor, hceil⟩ := hcover.of_pages
  exact ⟨b', s', heq, hcover, by omega, uemuFdtAlignRange_of_pages hne hfits hfloor hceil⟩

end UemuPkg
