/-
  UemuPkg.Library.GoldfishRealTimeClockLib.RoundTrip

  Setting the clock and reading it back.  `LibGetTime` adds the zone offset to a
  number of seconds, but `LibSetTime` subtracts it from a number of nanoseconds,
  so the two are inverse only for a zero offset.
-/

import UemuPkg.Library.GoldfishRealTimeClockLib.Model

namespace UemuPkg

open Calendar (Civil)

-- ============================================================================
-- The offset
-- ============================================================================

/-- The seconds by which the local time is ahead, as both functions take it. -/
def EfiTime.offset (t : EfiTime) : Int :=
  if t.timeZone ≠ EFI_UNSPECIFIED_TIMEZONE then
    t.timeZone.toInt * 60
  else if t.daylight &&& EFI_TIME_IN_DAYLIGHT = EFI_TIME_IN_DAYLIGHT then
    3600
  else
    0

theorem signExtend_mul_secPerMin (zone : INT16) :
    zone.signExtend 64 * SEC_PER_MIN = BitVec.ofInt 64 (zone.toInt * 60) := by
  rw [BitVec.ofInt_mul]
  rfl

/-- The date that is read back, from the counter and the offset. -/
theorem libGetTime_eq (lib : TimeBaseLib) (regs : RtcRegisters) (b : EfiTime)
    (capabilities : Option EfiTimeCapabilities) :
    libGetTime lib regs (some b) capabilities
      = (.success,
          some (lib.epochToEfiTime
            ((regs.timeHigh.setWidth 64 <<< 32 ||| regs.timeLow.setWidth 64) / NANO_SEC
              + BitVec.ofInt 64 b.offset) b),
          capabilities.map fun _ =>
            { resolution := 1, accuracy := 50000000, setsToZero := false }) := by
  simp only [libGetTime, EfiTime.offset]
  split_ifs
  · rw [signExtend_mul_secPerMin]
  · rfl
  · exact congrArg (fun s => (_, some (lib.epochToEfiTime s b), _)) (BitVec.add_zero _).symm

/-- The counter is split over the two registers. -/
def RtcRegisters.ofCounter (counter : UINT64) : RtcRegisters where
  timeLow := (counter &&& 0xFFFFFFFF).setWidth 32
  timeHigh := (counter >>> 32).setWidth 32

theorem libSetTime_eq (lib : TimeBaseLib) (regs : RtcRegisters) (t : EfiTime) :
    libSetTime lib regs (some t)
      = (.success,
          .ofCounter (lib.efiTimeToEpoch t * NANO_SEC - BitVec.ofInt 64 t.offset)) := by
  simp only [libSetTime, EfiTime.offset, RtcRegisters.ofCounter]
  split_ifs
  · rw [signExtend_mul_secPerMin]
  · rfl
  · exact congrArg (fun s => (_, RtcRegisters.ofCounter s)) (BitVec.sub_zero _).symm

/-- Joining the halves gives the counter back. -/
theorem join_ofCounter (counter : UINT64) :
    (RtcRegisters.ofCounter counter).timeHigh.setWidth 64 <<< 32
      ||| (RtcRegisters.ofCounter counter).timeLow.setWidth 64 = counter := by
  apply BitVec.eq_of_getLsbD_eq
  intro i hi
  rw [RtcRegisters.ofCounter, show (0xFFFFFFFF : UINT64) = (BitVec.allOnes 32).setWidth 64 from rfl]
  simp only [BitVec.getLsbD_or, BitVec.getLsbD_shiftLeft, BitVec.getLsbD_setWidth,
    BitVec.getLsbD_ushiftRight, BitVec.getLsbD_and, BitVec.getLsbD_allOnes]
  by_cases h : i < 32
  · simp [h, hi]
  · have hhigh : i - 32 < 32 := by omega
    have hword : i - 32 < 64 := by omega
    rw [show 32 + (i - 32) = i by omega]
    simp [h, hi, hhigh, hword]

-- ============================================================================
-- What is read back
-- ============================================================================

/-- The epoch value `LibGetTime` arrives at after `LibSetTime` programmed `epoch`. -/
def readBack (epoch : UINT64) (offset : Int) : UINT64 :=
  (epoch * NANO_SEC - BitVec.ofInt 64 offset) / NANO_SEC + BitVec.ofInt 64 offset

theorem libGetTime_libSetTime_eq (lib : TimeBaseLib) (regs : RtcRegisters) {t b : EfiTime}
    (hzone : b.timeZone = t.timeZone) (hdaylight : b.daylight = t.daylight)
    (capabilities : Option EfiTimeCapabilities) :
    (libGetTime lib (libSetTime lib regs (some t)).2 (some b) capabilities).2.1
      = some (lib.epochToEfiTime (readBack (lib.efiTimeToEpoch t) t.offset) b) := by
  have hoffset : b.offset = t.offset := by rw [EfiTime.offset, EfiTime.offset, hzone, hdaylight]
  rw [libSetTime_eq, libGetTime_eq, join_ofCounter, hoffset, readBack]

/-- Epochs whose nanoseconds fit the counter. -/
theorem mul_nanoSec_toNat (epoch : UINT64) (hepoch : epoch.toNat ≤ 18446744073) :
    (epoch * NANO_SEC).toNat = 1000000000 * epoch.toNat := by
  have hmul : (epoch * NANO_SEC).toNat = epoch.toNat * 1000000000 % 2 ^ 64 :=
    BitVec.toNat_mul epoch NANO_SEC
  omega

theorem readBack_zero {epoch : UINT64} (hepoch : epoch.toNat ≤ 18446744073) :
    readBack epoch 0 = epoch := by
  have hmul := mul_nanoSec_toNat epoch hepoch
  apply BitVec.eq_of_toNat_eq
  rw [readBack, show BitVec.ofInt 64 0 = 0#64 from rfl, BitVec.add_zero, BitVec.sub_zero,
    BitVec.toNat_udiv, hmul]
  exact Nat.mul_div_cancel_left _ (by decide)

/-- A clock that is ahead: the seconds taken off the nanoseconds cost one second,
    and the whole offset is added again. -/
theorem readBack_pos {epoch : UINT64} {k : Nat} (hepoch : epoch.toNat ≤ 18446744073)
    (hk : 0 < k) (hsmall : k ≤ 86400) (hutc : k ≤ epoch.toNat) :
    (readBack epoch k).toNat = epoch.toNat - 1 + k := by
  have hmul := mul_nanoSec_toNat epoch hepoch
  have hoff : (BitVec.ofInt 64 (k : Int)).toNat = k := by
    rw [BitVec.ofInt_natCast, BitVec.toNat_ofNat]
    exact Nat.mod_eq_of_lt (by omega)
  have hsub : (epoch * NANO_SEC - BitVec.ofInt 64 (k : Int)).toNat
      = 1000000000 * epoch.toNat - k := by
    rw [BitVec.toNat_sub_of_le (by rw [BitVec.le_def, hmul, hoff]; omega), hmul, hoff]
  have hdiv : (1000000000 * epoch.toNat - k) / 1000000000 = epoch.toNat - 1 := by omega
  rw [readBack, BitVec.toNat_add, BitVec.toNat_udiv, hsub, hoff,
    show NANO_SEC.toNat = 1000000000 from rfl, hdiv]
  exact Nat.mod_eq_of_lt (by omega)

/-- A clock that is behind: the seconds added to the nanoseconds are lost in the
    division, and the whole offset is taken off, modulo `2 ^ 64`. -/
theorem readBack_neg {epoch : UINT64} {k : Nat} (hutc : epoch.toNat + k ≤ 18446744073)
    (hsmall : k ≤ 86400) :
    (readBack epoch (-k)).toNat = (epoch.toNat + (2 ^ 64 - k)) % 2 ^ 64 := by
  have hmul := mul_nanoSec_toNat epoch (by omega)
  have hoff : BitVec.ofInt 64 (-(k : Int)) = -BitVec.ofNat 64 k := by
    rw [BitVec.ofInt_neg, BitVec.ofInt_natCast]
  have hnat : (BitVec.ofNat 64 k).toNat = k := by
    rw [BitVec.toNat_ofNat]
    exact Nat.mod_eq_of_lt (by omega)
  have hadd : (epoch * NANO_SEC - -BitVec.ofNat 64 k).toNat = 1000000000 * epoch.toNat + k := by
    rw [BitVec.sub_neg, BitVec.toNat_add, hmul, hnat]
    exact Nat.mod_eq_of_lt (by omega)
  have hdiv : (1000000000 * epoch.toNat + k) / 1000000000 = epoch.toNat := by omega
  rw [readBack, hoff, BitVec.toNat_add, BitVec.toNat_udiv, hadd,
    show NANO_SEC.toNat = 1000000000 from rfl, hdiv, BitVec.toNat_neg, hnat, Nat.add_mod_mod]

-- ============================================================================
-- The round trip
-- ============================================================================

/-- `LibSetTime (t)` and then `LibGetTime` on the unchanged counter succeed, and the
    buffer `b` receives the date and time of `t`. -/
def ClockRoundTrips (lib : TimeBaseLib) (regs : RtcRegisters) (t b : EfiTime)
    (capabilities : Option EfiTimeCapabilities) : Prop :=
  (libSetTime lib regs (some t)).1 = .success ∧
    (libGetTime lib (libSetTime lib regs (some t)).2 (some b) capabilities).1 = .success ∧
    (libGetTime lib (libSetTime lib regs (some t)).2 (some b) capabilities).2.1.map EfiTime.civil
      = some t.civil

theorem clockRoundTrips_iff_date (lib : TimeBaseLib) (regs : RtcRegisters) {t b : EfiTime}
    (hzone : b.timeZone = t.timeZone) (hdaylight : b.daylight = t.daylight)
    (capabilities : Option EfiTimeCapabilities) :
    ClockRoundTrips lib regs t b capabilities
      ↔ (lib.epochToEfiTime (readBack (lib.efiTimeToEpoch t) t.offset) b).civil = t.civil := by
  rw [ClockRoundTrips, libGetTime_libSetTime_eq lib regs hzone hdaylight, libSetTime_eq,
    libGetTime_eq, Option.map_some, Option.some.injEq]
  simp only [true_and]

/-- The offset is a whole number of minutes, of at most one day. -/
theorem EfiTime.Valid.offset_bound {t : EfiTime} (h : t.Valid) :
    -86400 ≤ t.offset ∧ t.offset ≤ 86400 ∧ t.offset % 60 = 0 := by
  rw [EfiTime.offset]
  split_ifs with hzone hdaylight
  · have hrange := h.timeZone.resolve_left hzone
    omega
  · decide
  · decide

theorem EfiTime.offset_eq_zero_iff (t : EfiTime) :
    t.offset = 0 ↔ t.timeZone = 0 ∨
      (t.timeZone = EFI_UNSPECIFIED_TIMEZONE ∧ t.daylight &&& EFI_TIME_IN_DAYLIGHT = 0) := by
  have hflag : t.daylight &&& EFI_TIME_IN_DAYLIGHT = EFI_TIME_IN_DAYLIGHT
      ∨ t.daylight &&& EFI_TIME_IN_DAYLIGHT = 0 := by
    generalize t.daylight = d
    revert d
    decide
  have hne : (0 : INT16) ≠ EFI_UNSPECIFIED_TIMEZONE := by decide
  have hzero : t.timeZone.toInt = 0 ↔ t.timeZone = 0 := by
    refine ⟨?_, ?_⟩
    · exact fun h => BitVec.eq_of_toInt_eq h
    · rintro h
      rw [h]
      rfl
  rw [EfiTime.offset]
  split_ifs with hzone hdaylight
  · rw [← hzero]
    refine ⟨?_, ?_⟩
    · exact fun h => .inl (by omega)
    · rintro (h | ⟨h, -⟩)
      · omega
      · exact absurd h hzone
  · rw [not_not] at hzone
    refine ⟨?_, ?_⟩
    · intro h
      cases h
    · rintro (h | ⟨-, h⟩)
      · exact absurd (h.symm.trans hzone) hne
      · rw [hdaylight] at h
        exact absurd h (by decide)
  · rw [not_not] at hzone
    exact iff_of_true rfl (.inr ⟨hzone, hflag.resolve_left hdaylight⟩)

/-- A count of seconds that converts to the same date is the same count: in range
    by the inverse, and beyond it by the seconds. -/
theorem TimeBaseLib.Exact.epoch_of_civil {lib : TimeBaseLib} (hlib : lib.Exact) {t b : EfiTime}
    {s : UINT64} (h : (lib.epochToEfiTime s b).civil = t.civil) (hs : s.toNat < 253402300800) :
    s = lib.efiTimeToEpoch t := by
  rw [← hlib.toEpoch_ofEpoch s b hs]
  exact hlib.toEpoch_congr _ _ h

/-- With an offset ahead of UTC another date is read. -/
theorem readBack_pos_ne {lib : TimeBaseLib} (hlib : lib.Exact) {t b : EfiTime} {k : Nat}
    (hepoch : (lib.efiTimeToEpoch t).toNat ≤ 18446744073) (hk : 1 < k) (hsmall : k ≤ 86400)
    (hahead : k ≤ (lib.efiTimeToEpoch t).toNat) :
    (lib.epochToEfiTime (readBack (lib.efiTimeToEpoch t) k) b).civil ≠ t.civil := by
  intro hsame
  have hread := readBack_pos hepoch (by omega) hsmall hahead
  have heq := hlib.epoch_of_civil hsame (by omega)
  rw [heq] at hread
  omega

/-- Wrapping changes the seconds, since `2 ^ 64` is 16 modulo 60. -/
theorem wrapped_second_ne {e k : Nat} (hlt : e < k) (hsmall : k ≤ 86400) (hminutes : k % 60 = 0) :
    (e + (2 ^ 64 - k)) % 2 ^ 64 % 60 ≠ e % 60 := by
  have hbelow : e + (2 ^ 64 - k) < 2 ^ 64 := by omega
  rw [Nat.mod_eq_of_lt hbelow]
  obtain ⟨m, rfl⟩ := Nat.dvd_of_mod_eq_zero hminutes
  omega

/-- With an offset behind UTC too: where the sum does not wrap it is another count,
    and where it wraps the seconds differ. -/
theorem readBack_neg_ne {lib : TimeBaseLib} (hlib : lib.Exact) {t b : EfiTime} {k : Nat}
    (hback : (lib.epochToEfiTime (lib.efiTimeToEpoch t) b).civil = t.civil)
    (hsum : (lib.efiTimeToEpoch t).toNat + k ≤ 18446744073) (hk : 0 < k) (hsmall : k ≤ 86400)
    (hminutes : k % 60 = 0) :
    (lib.epochToEfiTime (readBack (lib.efiTimeToEpoch t) (-k)) b).civil ≠ t.civil := by
  intro hsame
  have hread := readBack_neg hsum hsmall
  by_cases hwrap : k ≤ (lib.efiTimeToEpoch t).toNat
  · have heq := hlib.epoch_of_civil hsame (by omega)
    rw [heq] at hread
    omega
  · have hsecond := congrArg Civil.second hsame
    have hsecond' := congrArg Civil.second hback
    simp only [EfiTime.civil, hlib.second_ofEpoch] at hsecond hsecond'
    rw [hread, ← hsecond'] at hsecond
    exact wrapped_second_ne (Nat.lt_of_not_le hwrap) hsmall hminutes hsecond

/-- The clock is read back as it was set exactly when the offset is zero. -/
theorem libSetTime_libGetTime_iff (lib : TimeBaseLib) (hlib : lib.Exact) (regs : RtcRegisters)
    (t b : EfiTime) (capabilities : Option EfiTimeCapabilities)
    (hvalid : t.Valid) (hyear : 1970 ≤ t.year.toNat)
    (hlocal : (lib.efiTimeToEpoch t).toNat * 1000000000 < 2 ^ 64)
    (hutc : 0 ≤ (lib.efiTimeToEpoch t).toNat - t.offset ∧
      ((lib.efiTimeToEpoch t).toNat - t.offset) * 1000000000 < 2 ^ 64)
    (hzone : b.timeZone = t.timeZone) (hdaylight : b.daylight = t.daylight) :
    ClockRoundTrips lib regs t b capabilities
      ↔ t.timeZone = 0 ∨
        (t.timeZone = EFI_UNSPECIFIED_TIMEZONE ∧ t.daylight &&& EFI_TIME_IN_DAYLIGHT = 0) := by
  rw [clockRoundTrips_iff_date lib regs hzone hdaylight, ← EfiTime.offset_eq_zero_iff]
  have hback := hlib.ofEpoch_toEpoch t b hvalid hyear
  have hepoch : (lib.efiTimeToEpoch t).toNat ≤ 18446744073 := by omega
  obtain ⟨hlow, hhigh, hminutes⟩ := hvalid.offset_bound
  refine ⟨?_, ?_⟩
  · intro hsame
    rcases Int.lt_trichotomy t.offset 0 with hneg | hzero | hpos
    · exfalso
      obtain ⟨k, hk⟩ : ∃ k : Nat, t.offset = -k := ⟨(-t.offset).toNat, by omega⟩
      have hsum : (lib.efiTimeToEpoch t).toNat + k ≤ 18446744073 := by omega
      rw [hk] at hsame
      exact readBack_neg_ne hlib hback hsum (by omega) (by omega) (by omega) hsame
    · exact hzero
    · exfalso
      obtain ⟨k, hk⟩ : ∃ k : Nat, t.offset = k := ⟨t.offset.toNat, by omega⟩
      have hahead : k ≤ (lib.efiTimeToEpoch t).toNat := by omega
      rw [hk] at hsame
      exact readBack_pos_ne hlib hepoch (by omega) (by omega) hahead hsame
  · intro hzero
    rw [hzero, readBack_zero hepoch]
    exact hback

-- ============================================================================
-- A conversion library
-- ============================================================================

/-- TimeBaseLib on the Gregorian calendar. -/
def gregorianTimeBaseLib : TimeBaseLib where
  efiTimeToEpoch t := BitVec.ofNat 64 t.civil.seconds
  epochToEfiTime s buffer :=
    { buffer with
      year := BitVec.ofNat 16 (Calendar.ofSeconds s.toNat).year
      month := BitVec.ofNat 8 (Calendar.ofSeconds s.toNat).month
      day := BitVec.ofNat 8 (Calendar.ofSeconds s.toNat).day
      hour := BitVec.ofNat 8 (Calendar.ofSeconds s.toNat).hour
      minute := BitVec.ofNat 8 (Calendar.ofSeconds s.toNat).minute
      second := BitVec.ofNat 8 (Calendar.ofSeconds s.toNat).second
      nanosecond := 0 }

theorem EfiTime.Valid.civil {t : EfiTime} (h : t.Valid) (hyear : 1970 ≤ t.year.toNat) :
    t.civil.Valid where
  year := hyear
  month := h.month
  day := h.day
  hour := Nat.lt_succ_of_le h.hour
  minute := Nat.lt_succ_of_le h.minute
  second := Nat.lt_succ_of_le h.second

/-- In range no field is truncated. -/
theorem gregorian_civil {s : UINTN} (hs : s.toNat < 253402300800) (buffer : EfiTime) :
    (gregorianTimeBaseLib.epochToEfiTime s buffer).civil = Calendar.ofSeconds s.toNat := by
  have hvalid := Calendar.valid_ofSeconds s.toNat
  have hyear := Calendar.ofSeconds_year_le_iff.mpr hs
  have hmonth := hvalid.month
  have hday := hvalid.day
  have hlength := Calendar.daysInMonth_le (Calendar.ofSeconds s.toNat).year
    (Calendar.ofSeconds s.toNat).month
  have hhour := hvalid.hour
  have hminute := hvalid.minute
  have hsecond := hvalid.second
  ext
  · exact Nat.mod_eq_of_lt (by omega)
  · exact Nat.mod_eq_of_lt (by omega)
  · exact Nat.mod_eq_of_lt (by omega)
  · exact Nat.mod_eq_of_lt (by omega)
  · exact Nat.mod_eq_of_lt (by omega)
  · exact Nat.mod_eq_of_lt (by omega)

theorem gregorianTimeBaseLib_exact : gregorianTimeBaseLib.Exact where
  toEpoch_congr := by
    intro t u h
    dsimp only [gregorianTimeBaseLib]
    rw [h]
  ofEpoch_toEpoch := by
    intro t buffer hvalid hyear
    have hback := Calendar.ofSeconds_seconds (hvalid.civil hyear)
    have hrange : t.civil.seconds < 253402300800 := by
      rw [← Calendar.ofSeconds_year_le_iff, hback]
      exact hvalid.year.2
    have hepoch : (gregorianTimeBaseLib.efiTimeToEpoch t).toNat = t.civil.seconds :=
      Nat.mod_eq_of_lt (by omega)
    rw [gregorian_civil (by rw [hepoch]; exact hrange), hepoch, hback]
  toEpoch_ofEpoch := by
    intro s buffer hs
    have hcivil := gregorian_civil hs buffer
    dsimp only [gregorianTimeBaseLib] at hcivil ⊢
    rw [hcivil, Calendar.seconds_ofSeconds, BitVec.ofNat_toNat, BitVec.setWidth_eq]
  second_ofEpoch := by
    intro s buffer
    have hlt : s.toNat % 60 < 60 := Nat.mod_lt _ (by decide)
    exact Nat.mod_eq_of_lt (hlt.trans (by decide))

/-- The start of 2024, with a time zone of `zone` minutes. -/
def newYear2024 (zone : INT16) : EfiTime where
  year := 2024
  month := 1
  day := 1
  hour := 0
  minute := 0
  second := 0
  pad1 := 0
  nanosecond := 0
  timeZone := zone
  daylight := 0
  pad2 := 0

theorem newYear2024_valid {zone : INT16} (h : -1440 ≤ zone.toInt ∧ zone.toInt ≤ 1440) :
    (newYear2024 zone).Valid where
  year := ⟨by simp [newYear2024], by simp [newYear2024]⟩
  month := ⟨by simp [newYear2024], by simp [newYear2024]⟩
  day := ⟨by simp [newYear2024], by simp [newYear2024, Calendar.daysInMonth]⟩
  hour := by simp [newYear2024]
  minute := by simp [newYear2024]
  second := by simp [newYear2024]
  nanosecond := by simp [newYear2024]
  timeZone := .inr h

theorem libSetTime_libGetTime_iff_newYear :
    ClockRoundTrips gregorianTimeBaseLib ⟨0, 0⟩ (newYear2024 0) (newYear2024 0) none
      ↔ (newYear2024 0).timeZone = 0 ∨ ((newYear2024 0).timeZone = EFI_UNSPECIFIED_TIMEZONE ∧
        (newYear2024 0).daylight &&& EFI_TIME_IN_DAYLIGHT = 0) :=
  libSetTime_libGetTime_iff gregorianTimeBaseLib gregorianTimeBaseLib_exact ⟨0, 0⟩ (newYear2024 0)
    (newYear2024 0) none (newYear2024_valid (by decide)) (by decide) (by decide) (by decide) rfl rfl

/-- One hour ahead of UTC, another time is read. -/
theorem libSetTime_libGetTime_hour_ahead :
    ¬ ClockRoundTrips gregorianTimeBaseLib ⟨0, 0⟩ (newYear2024 60) (newYear2024 60) none := by
  rw [clockRoundTrips_iff_date gregorianTimeBaseLib ⟨0, 0⟩ rfl rfl]
  have hoffset : (newYear2024 60).offset = (3600 : Nat) := by decide
  rw [hoffset]
  exact readBack_pos_ne gregorianTimeBaseLib_exact (by decide) (by decide) (by decide) (by decide)

end UemuPkg
