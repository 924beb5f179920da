/-
  UemuPkg.Generic.Calendar

  The Gregorian calendar from 1970 on, as a count of seconds.  `Civil.seconds`
  and `ofSeconds` are inverse between valid civil times and all numbers, and keep
  the order.  The inverse rests on `locate`, which finds the step of a strictly
  growing ladder that a number stands on.
-/

import Mathlib.Data.Nat.Find
import Mathlib.Order.WellFounded

namespace Calendar

-- ============================================================================
-- Ladders
-- ============================================================================

section Ladder

variable {f : Nat → Nat} {n k : Nat}

/-- The greatest step at or below `n`. -/
def locate (f : Nat → Nat) (n : Nat) : Nat := Nat.findGreatest (fun k => f k ≤ n) n

theorem locate_le (h0 : f 0 = 0) : f (locate f n) ≤ n :=
  Nat.findGreatest_spec (P := fun k => f k ≤ n) (Nat.zero_le n) (by rw [h0]; exact Nat.zero_le n)

theorem lt_locate_succ (hf : StrictMono f) : n < f (locate f n + 1) := by
  by_contra hnot
  have hle : f (locate f n + 1) ≤ n := by omega
  have hself : locate f n + 1 ≤ f (locate f n + 1) := hf.le_apply
  have hge : locate f n + 1 ≤ locate f n :=
    Nat.le_findGreatest (P := fun k => f k ≤ n) (by omega) hle
  omega

theorem locate_eq (hf : StrictMono f) (h0 : f 0 = 0) (hle : f k ≤ n) (hlt : n < f (k + 1)) :
    locate f n = k := by
  have h1 := hf.lt_iff_lt.mp ((locate_le (n := n) h0).trans_lt hlt)
  have h2 := hf.lt_iff_lt.mp (hle.trans_lt (lt_locate_succ (n := n) hf))
  omega

/-- The step is bounded by any ladder value the number stays below. -/
theorem locate_lt (hf : StrictMono f) (h0 : f 0 = 0) (hlt : n < f k) : locate f n < k :=
  hf.lt_iff_lt.mp ((locate_le h0).trans_lt hlt)

end Ladder

-- ============================================================================
-- Days
-- ============================================================================

def isLeap (year : Nat) : Bool := (year % 4 == 0 && year % 100 != 0) || year % 400 == 0

theorem isLeap_iff (year : Nat) :
    isLeap year = true ↔ (year % 4 = 0 ∧ year % 100 ≠ 0) ∨ year % 400 = 0 := by
  simp [isLeap]

def yearLength (year : Nat) : Nat := if isLeap year then 366 else 365

/-- Days from the start of 1970 to the start of year `1970 + k`. -/
def yearStart (k : Nat) : Nat :=
  365 * k + (k + 1) / 4 - (k + 69) / 100 + (k + 369) / 400

theorem yearStart_zero : yearStart 0 = 0 := rfl

theorem yearStart_succ (k : Nat) : yearStart (k + 1) = yearStart k + yearLength (1970 + k) := by
  have h4 : (k + 2) / 4 = (k + 1) / 4 + if 4 ∣ k + 2 then 1 else 0 := Nat.succ_div
  have h100 : (k + 70) / 100 = (k + 69) / 100 + if 100 ∣ k + 70 then 1 else 0 :=
    Nat.succ_div
  have h400 : (k + 370) / 400 = (k + 369) / 400 + if 400 ∣ k + 370 then 1 else 0 :=
    Nat.succ_div
  have hle : (k + 69) / 100 ≤ 365 * k := by omega
  have hleap : isLeap (1970 + k) = true ↔ (4 ∣ k + 2 ∧ ¬ 100 ∣ k + 70) ∨ 400 ∣ k + 370 := by
    rw [isLeap_iff]
    omega
  have hnext : yearStart (k + 1)
      = 365 * k + 365 + (k + 2) / 4 - (k + 70) / 100 + (k + 370) / 400 := rfl
  rw [hnext, yearStart, yearLength, h4, h100, h400]
  by_cases d4 : 4 ∣ k + 2
  · by_cases d100 : 100 ∣ k + 70
    · by_cases d400 : 400 ∣ k + 370
      · rw [if_pos d4, if_pos d100, if_pos d400, if_pos (hleap.mpr (.inr d400))]
        omega
      · rw [if_pos d4, if_pos d100, if_neg d400,
          if_neg (mt hleap.mp (by rintro (⟨-, h⟩ | h); exacts [h d100, d400 h]))]
        omega
    · have d400 : ¬ 400 ∣ k + 370 := by omega
      rw [if_pos d4, if_neg d100, if_neg d400, if_pos (hleap.mpr (.inl ⟨d4, d100⟩))]
      omega
  · have d100 : ¬ 100 ∣ k + 70 := by omega
    have d400 : ¬ 400 ∣ k + 370 := by omega
    rw [if_neg d4, if_neg d100, if_neg d400,
      if_neg (mt hleap.mp (by rintro (⟨h, -⟩ | h); exacts [d4 h, d400 h]))]
    omega

theorem yearStart_strictMono : StrictMono yearStart := by
  refine strictMono_nat_of_lt_succ fun k => ?_
  rw [yearStart_succ, yearLength]
  split <;> omega

def daysInMonth (year : Nat) : Nat → Nat
  | 2 => if isLeap year then 29 else 28
  | 4 | 6 | 9 | 11 => 30
  | _ => 31

theorem daysInMonth_pos (year month : Nat) : 0 < daysInMonth year month := by
  rw [daysInMonth.eq_def]
  split <;> first | omega | (split <;> omega)

theorem daysInMonth_le (year month : Nat) : daysInMonth year month ≤ 31 := by
  rw [daysInMonth.eq_def]
  split <;> first | omega | (split <;> omega)

/-- Days in the first `m` months of a year. -/
def monthStart (year : Nat) : Nat → Nat
  | 0 => 0
  | m + 1 => monthStart year m + daysInMonth year (m + 1)

theorem monthStart_strictMono (year : Nat) : StrictMono (monthStart year) := by
  refine strictMono_nat_of_lt_succ fun m => ?_
  have := daysInMonth_pos year (m + 1)
  rw [monthStart]
  omega

theorem monthStart_twelve (year : Nat) : monthStart year 12 = yearLength year := by
  rw [yearLength]
  cases h : isLeap year <;> simp [monthStart, daysInMonth, h]

-- ============================================================================
-- Civil times
-- ============================================================================

@[ext] structure Civil where
  year : Nat
  month : Nat
  day : Nat
  hour : Nat
  minute : Nat
  second : Nat
  deriving DecidableEq, Repr

structure Civil.Valid (c : Civil) : Prop where
  year : 1970 ≤ c.year
  month : 1 ≤ c.month ∧ c.month ≤ 12
  day : 1 ≤ c.day ∧ c.day ≤ daysInMonth c.year c.month
  hour : c.hour < 24
  minute : c.minute < 60
  second : c.second < 60

/-- Days since 1970-01-01. -/
def Civil.days (c : Civil) : Nat :=
  yearStart (c.year - 1970) + monthStart c.year (c.month - 1) + (c.day - 1)

/-- Seconds since 1970-01-01 00:00:00. -/
def Civil.seconds (c : Civil) : Nat :=
  ((c.days * 24 + c.hour) * 60 + c.minute) * 60 + c.second

def ofDays (days : Nat) : Nat × Nat × Nat :=
  let k := locate yearStart days
  let rest := days - yearStart k
  let m := locate (monthStart (1970 + k)) rest
  (1970 + k, m + 1, rest - monthStart (1970 + k) m + 1)

def ofSeconds (s : Nat) : Civil :=
  let date := ofDays (s / 86400)
  { year := date.1
    month := date.2.1
    day := date.2.2
    hour := s / 3600 % 24
    minute := s / 60 % 60
    second := s % 60 }

/-- The day of the year is below the year's length. -/
theorem rest_lt_yearLength (days : Nat) :
    days - yearStart (locate yearStart days) < monthStart (1970 + locate yearStart days) 12 := by
  have hle := locate_le (n := days) yearStart_zero
  have hlt := lt_locate_succ (n := days) yearStart_strictMono
  rw [yearStart_succ] at hlt
  rw [monthStart_twelve]
  omega

theorem valid_ofSeconds (s : Nat) : (ofSeconds s).Valid := by
  have hrest := rest_lt_yearLength (s / 86400)
  have hmono := monthStart_strictMono (1970 + locate yearStart (s / 86400))
  have hmonth := locate_lt hmono rfl hrest
  have hday := lt_locate_succ (n := s / 86400 - yearStart (locate yearStart (s / 86400))) hmono
  have hpos := daysInMonth_pos (1970 + locate yearStart (s / 86400))
    (locate (monthStart (1970 + locate yearStart (s / 86400)))
      (s / 86400 - yearStart (locate yearStart (s / 86400))) + 1)
  rw [monthStart] at hday
  exact {
    year := Nat.le_add_right _ _
    month := ⟨Nat.le_add_left _ _, hmonth⟩
    day := ⟨Nat.le_add_left _ _, by dsimp only [ofSeconds, ofDays]; omega⟩
    hour := Nat.mod_lt _ (by decide)
    minute := Nat.mod_lt _ (by decide)
    second := Nat.mod_lt _ (by decide) }

theorem seconds_ofSeconds (s : Nat) : (ofSeconds s).seconds = s := by
  have hyear := locate_le (n := s / 86400) yearStart_zero
  have hmonth := locate_le (f := monthStart (1970 + locate yearStart (s / 86400)))
    (n := s / 86400 - yearStart (locate yearStart (s / 86400))) rfl
  simp only [Civil.seconds, Civil.days, ofSeconds, ofDays, Nat.add_sub_cancel,
    Nat.add_sub_cancel_left]
  omega

theorem ofDays_days {c : Civil} (h : c.Valid) : ofDays c.days = (c.year, c.month, c.day) := by
  obtain ⟨k, hk⟩ : ∃ k, c.year = 1970 + k := ⟨c.year - 1970, by have := h.year; omega⟩
  obtain ⟨m, hm⟩ : ∃ m, c.month = m + 1 := ⟨c.month - 1, by have := h.month; omega⟩
  have hday := h.day
  have hmono := monthStart_strictMono (1970 + k)
  have hmonthEnd : monthStart (1970 + k) (m + 1) ≤ yearLength (1970 + k) := by
    rw [← monthStart_twelve]
    exact hmono.monotone (by have := h.month; omega)
  rw [hk, hm] at hday
  have hnext : monthStart (1970 + k) (m + 1)
      = monthStart (1970 + k) m + daysInMonth (1970 + k) (m + 1) := rfl
  have hyear : locate yearStart c.days = k := by
    refine locate_eq yearStart_strictMono yearStart_zero ?_ ?_ <;>
      simp only [Civil.days, hk, hm, yearStart_succ, Nat.add_sub_cancel_left, Nat.add_sub_cancel]
    · omega
    · omega
  have hrest : c.days - yearStart k = monthStart (1970 + k) m + (c.day - 1) := by
    simp only [Civil.days, hk, hm, Nat.add_sub_cancel_left, Nat.add_sub_cancel]
    omega
  have hmonth : locate (monthStart (1970 + k)) (c.days - yearStart k) = m := by
    refine locate_eq hmono rfl ?_ ?_ <;> rw [hrest]
    · omega
    · omega
  simp only [ofDays, hyear, hmonth]
  rw [hrest, hk, hm, Nat.add_sub_cancel_left, Nat.sub_add_cancel hday.1]

theorem ofSeconds_seconds {c : Civil} (h : c.Valid) : ofSeconds c.seconds = c := by
  have hhour := h.hour
  have hminute := h.minute
  have hsecond := h.second
  have hdays : c.seconds / 86400 = c.days := by rw [Civil.seconds]; omega
  ext
  · rw [ofSeconds, hdays, ofDays_days h]
  · rw [ofSeconds, hdays, ofDays_days h]
  · rw [ofSeconds, hdays, ofDays_days h]
  · dsimp only [ofSeconds, Civil.seconds]; omega
  · dsimp only [ofSeconds, Civil.seconds]; omega
  · dsimp only [ofSeconds, Civil.seconds]; omega

/-- Before the end of the year 9999, and only there, the year has four digits. -/
theorem ofSeconds_year_le_iff {s : Nat} : (ofSeconds s).year ≤ 9999 ↔ s < 253402300800 := by
  have hend : yearStart 8030 = 2932897 := rfl
  have hyear : (ofSeconds s).year = 1970 + locate yearStart (s / 86400) := rfl
  refine ⟨?_, ?_⟩
  · intro hle
    have hlt := lt_locate_succ (n := s / 86400) yearStart_strictMono
    have hmono := yearStart_strictMono.monotone
      (show locate yearStart (s / 86400) + 1 ≤ 8030 by omega)
    omega
  · intro hs
    have hlt := locate_lt yearStart_strictMono yearStart_zero
      (show s / 86400 < yearStart 8030 by omega)
    omega

-- ============================================================================
-- The order of civil times
-- ============================================================================

/-- Field by field, the year first. -/
def Civil.Earlier (c d : Civil) : Prop :=
  c.year < d.year ∨ c.year = d.year ∧ (c.month < d.month ∨ c.month = d.month ∧
    (c.day < d.day ∨ c.day = d.day ∧ (c.hour < d.hour ∨ c.hour = d.hour ∧
      (c.minute < d.minute ∨ c.minute = d.minute ∧ c.second < d.second))))

instance (c d : Civil) : Decidable (c.Earlier d) := inferInstanceAs (Decidable (_ ∨ _))

variable {c d : Civil}

/-- The day of the year is in the year. -/
theorem Civil.Valid.dayOfYear_lt (h : c.Valid) :
    monthStart c.year (c.month - 1) + (c.day - 1) < yearLength c.year := by
  have hmonth := h.month
  have hday := h.day
  have hend : monthStart c.year c.month ≤ monthStart c.year 12 :=
    (monthStart_strictMono c.year).monotone hmonth.2
  have hnext : monthStart c.year (c.month - 1 + 1)
      = monthStart c.year (c.month - 1) + daysInMonth c.year (c.month - 1 + 1) := rfl
  rw [Nat.sub_add_cancel hmonth.1] at hnext
  rw [monthStart_twelve] at hend
  omega

theorem Civil.Valid.days_lt_of_year_lt (hc : c.Valid) (hlt : c.year < d.year) :
    c.days < d.days := by
  have hyear := hc.year
  have hlast := hc.dayOfYear_lt
  have hnext := yearStart_succ (c.year - 1970)
  rw [Nat.add_sub_cancel' hyear] at hnext
  have hle : yearStart (c.year - 1970 + 1) ≤ yearStart (d.year - 1970) :=
    yearStart_strictMono.monotone (by omega)
  rw [Civil.days, Civil.days]
  omega

theorem Civil.Valid.days_lt_of_month_lt (hc : c.Valid) (hyear : c.year = d.year)
    (hlt : c.month < d.month) : c.days < d.days := by
  have hmonth := hc.month
  have hday := hc.day
  have hnext : monthStart c.year (c.month - 1 + 1)
      = monthStart c.year (c.month - 1) + daysInMonth c.year (c.month - 1 + 1) := rfl
  rw [Nat.sub_add_cancel hmonth.1] at hnext
  have hle : monthStart c.year c.month ≤ monthStart c.year (d.month - 1) :=
    (monthStart_strictMono c.year).monotone (by omega)
  rw [Civil.days, Civil.days, ← hyear]
  omega

/-- The count grows with the time. -/
theorem Civil.Valid.seconds_lt (hc : c.Valid) (hd : d.Valid) (h : c.Earlier d) :
    c.seconds < d.seconds := by
  have hhour := hc.hour
  have hminute := hc.minute
  have hsecond := hc.second
  have hday := hc.day
  rw [Civil.seconds, Civil.seconds]
  rcases h with hyear | ⟨hyear, hmonth | ⟨hmonth, hrest⟩⟩
  · have hdays := hc.days_lt_of_year_lt hyear
    omega
  · have hdays := hc.days_lt_of_month_lt hyear hmonth
    omega
  · have hdays : c.days + d.day = d.days + c.day := by
      have hday' := hd.day
      rw [Civil.days, Civil.days, hyear, hmonth]
      omega
    omega

theorem Civil.Valid.seconds_lt_iff (hc : c.Valid) (hd : d.Valid) :
    c.seconds < d.seconds ↔ c.Earlier d := by
  constructor
  · intro hlt
    by_contra hnot
    have hback : d.Earlier c ∨ c = d := by
      rw [Civil.ext_iff]
      simp only [Civil.Earlier] at hnot ⊢
      omega
    rcases hback with hlater | hsame
    · have hgt := hd.seconds_lt hc hlater
      omega
    · rw [hsame] at hlt
      omega
  · exact hc.seconds_lt hd

end Calendar
