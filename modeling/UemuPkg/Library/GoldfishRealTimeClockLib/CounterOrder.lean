/-
  UemuPkg.Library.GoldfishRealTimeClockLib.CounterOrder

  Later dates and larger counters.  `LibSetTime` multiplies the seconds by `NANO_SEC`
  modulo `2 ^ 64` and checks no range: the product wraps in the year 2554, and from there on
  a date may get a smaller counter than an earlier one.
-/

import UemuPkg.Generic.Wrap
import UemuPkg.Library.GoldfishRealTimeClockLib.RoundTrip

namespace UemuPkg

open Calendar (Civil)

/-- A date from 1970 to 9999 in whole seconds, without a time zone and not in daylight
    saving time. -/
structure EfiTime.Plain (t : EfiTime) : Prop where
  valid : t.Valid
  year : 1970 ≤ t.year.toNat
  nanosecond : t.nanosecond = 0
  timeZone : t.timeZone = EFI_UNSPECIFIED_TIMEZONE
  daylight : t.daylight &&& EFI_TIME_IN_DAYLIGHT = 0

/-- `EfiTimeToEpoch` is the exact count of seconds since 1970. -/
def TimeBaseLib.CountsSeconds (lib : TimeBaseLib) : Prop :=
  ∀ t : EfiTime, t.Valid → 1970 ≤ t.year.toNat →
    (lib.efiTimeToEpoch t).toNat = t.civil.seconds

/-- The counter that both registers hold together. -/
def RtcRegisters.counter (regs : RtcRegisters) : UINT64 :=
  regs.timeHigh.setWidth 64 <<< 32 ||| regs.timeLow.setWidth 64

/-- The counter that `LibSetTime` programs. -/
def programmedCounter (lib : TimeBaseLib) (regs : RtcRegisters) (t : EfiTime) : Nat :=
  (libSetTime lib regs (some t)).2.counter.toNat

/-- The nanoseconds of a date since 1970. -/
def EfiTime.nanoseconds (t : EfiTime) : Nat := t.civil.seconds * 1000000000

variable {lib : TimeBaseLib} {regs : RtcRegisters} {t t1 t2 : EfiTime}

/-- The counter is what is left of the nanoseconds. -/
theorem programmedCounter_eq (hlib : lib.CountsSeconds) (ht : t.Plain) :
    programmedCounter lib regs t = t.nanoseconds % 2 ^ 64 := by
  have hoffset : t.offset = 0 :=
    (EfiTime.offset_eq_zero_iff t).mpr (.inr ⟨ht.timeZone, ht.daylight⟩)
  rw [programmedCounter, libSetTime_eq, RtcRegisters.counter, join_ofCounter, hoffset]
  show (lib.efiTimeToEpoch t * NANO_SEC - 0#64).toNat = _
  rw [BitVec.sub_zero, BitVec.toNat_mul, hlib t ht.valid ht.year]
  rfl

/-- The last second whose nanoseconds fit the counter. -/
def lastSecond : Civil where
  year := 2554
  month := 7
  day := 21
  hour := 23
  minute := 34
  second := 33

theorem lastSecond_valid : lastSecond.Valid where
  year := by decide
  month := by decide
  day := by decide
  hour := by decide
  minute := by decide
  second := by decide

/-- The nanoseconds fit up to that second. -/
theorem nanoseconds_lt_iff (ht : t.Plain) :
    t.nanoseconds < 2 ^ 64 ↔ ¬ lastSecond.Earlier t.civil := by
  have hlast : lastSecond.seconds = 18446744073 := by decide
  rw [← lastSecond_valid.seconds_lt_iff (ht.valid.civil ht.year), hlast, EfiTime.nanoseconds]
  omega

/-- The times that the counter wraps from `t1` to `t2` take less than the nanoseconds between
    them. -/
def WrapsBehind (t1 t2 : EfiTime) : Prop :=
  (t2.nanoseconds / 2 ^ 64 - t1.nanoseconds / 2 ^ 64) * 2 ^ 64
    < (t2.civil.seconds - t1.civil.seconds) * 1000000000

instance (t1 t2 : EfiTime) : Decidable (WrapsBehind t1 t2) := inferInstanceAs (Decidable (_ < _))

/-- Two dates between the same wraps are in order. -/
theorem wrapsBehind_of_div_eq (hlt : t1.civil.seconds < t2.civil.seconds)
    (hdiv : t1.nanoseconds / 2 ^ 64 = t2.nanoseconds / 2 ^ 64) : WrapsBehind t1 t2 := by
  rw [WrapsBehind, hdiv, Nat.sub_self, Nat.zero_mul]
  omega

/-- An earlier date gets a smaller counter exactly if the counter does not wrap too often
    between the two, and the nanoseconds of a date are programmed without a wrap exactly up to
    2554-07-21 23:34:33. -/
theorem programmedCounter_lt_iff (hlib : lib.CountsSeconds) (regs : RtcRegisters)
    (h1 : t1.Plain) (h2 : t2.Plain) (hearlier : t1.civil.Earlier t2.civil) :
    (programmedCounter lib regs t1 < programmedCounter lib regs t2 ↔ WrapsBehind t1 t2) ∧
      ∀ t : EfiTime, t.Plain →
        (programmedCounter lib regs t = t.nanoseconds ↔ ¬ lastSecond.Earlier t.civil) := by
  constructor
  · have hlt := (h1.valid.civil h1.year).seconds_lt (h2.valid.civil h2.year) hearlier
    have hle : t1.nanoseconds / 2 ^ 64 ≤ t2.nanoseconds / 2 ^ 64 := by
      apply Nat.div_le_div_right
      rw [EfiTime.nanoseconds, EfiTime.nanoseconds]
      omega
    rw [programmedCounter_eq hlib h1, programmedCounter_eq hlib h2, Wrap.mod_lt_mod_iff,
      WrapsBehind]
    rw [EfiTime.nanoseconds, EfiTime.nanoseconds] at hle ⊢
    omega
  · intro t ht
    rw [programmedCounter_eq hlib ht, ← nanoseconds_lt_iff ht]
    constructor
    · intro hmod
      rw [← hmod]
      exact Nat.mod_lt _ (by decide)
    · exact Nat.mod_eq_of_lt

theorem gregorianTimeBaseLib_countsSeconds : gregorianTimeBaseLib.CountsSeconds := by
  intro t hvalid hyear
  have hback := Calendar.ofSeconds_seconds (hvalid.civil hyear)
  have hrange : t.civil.seconds < 253402300800 := by
    rw [← Calendar.ofSeconds_year_le_iff, hback]
    exact hvalid.year.2
  exact Nat.mod_eq_of_lt (by omega)

/-- The start of a year. -/
def newYear (year : UINT16) : EfiTime := { newYear2024 EFI_UNSPECIFIED_TIMEZONE with year }

theorem newYear_plain {year : UINT16} (h1970 : 1970 ≤ year.toNat) (h9999 : year.toNat ≤ 9999) :
    (newYear year).Plain := by
  have hsame : (newYear2024 0).Valid := newYear2024_valid (by decide)
  exact {
    valid := {
      year := ⟨(by decide : 1900 ≤ 1970).trans h1970, h9999⟩
      month := hsame.month
      day := ⟨hsame.day.1, Calendar.daysInMonth_pos _ _⟩
      hour := hsame.hour
      minute := hsame.minute
      second := hsame.second
      nanosecond := hsame.nanosecond
      timeZone := .inl rfl }
    year := h1970
    nanosecond := rfl
    timeZone := rfl
    daylight := by show (0 : UINT8) &&& EFI_TIME_IN_DAYLIGHT = 0; decide }

theorem programmedCounter_lt_iff_2025 :
    (programmedCounter gregorianTimeBaseLib ⟨0, 0⟩ (newYear 2024)
        < programmedCounter gregorianTimeBaseLib ⟨0, 0⟩ (newYear 2025) ↔
      WrapsBehind (newYear 2024) (newYear 2025)) ∧
      ∀ t : EfiTime, t.Plain → (programmedCounter gregorianTimeBaseLib ⟨0, 0⟩ t = t.nanoseconds ↔
        ¬ lastSecond.Earlier t.civil) := by
  apply programmedCounter_lt_iff gregorianTimeBaseLib_countsSeconds ⟨0, 0⟩
  · exact newYear_plain (by decide) (by decide)
  · exact newYear_plain (by decide) (by decide)
  · decide

/-- The start of 2555 gets a smaller counter than the start of 2024. -/
theorem programmedCounter_2555_lt :
    (newYear 2024).Plain ∧ (newYear 2555).Plain ∧
      (newYear 2024).civil.Earlier (newYear 2555).civil ∧
      programmedCounter gregorianTimeBaseLib ⟨0, 0⟩ (newYear 2555)
        < programmedCounter gregorianTimeBaseLib ⟨0, 0⟩ (newYear 2024) := by
  refine ⟨newYear_plain (by decide) (by decide), newYear_plain (by decide) (by decide), ?_, ?_⟩
  · decide
  · decide

end UemuPkg
