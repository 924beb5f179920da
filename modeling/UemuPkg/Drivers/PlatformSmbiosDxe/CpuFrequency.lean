/-
  UemuPkg.Drivers.PlatformSmbiosDxe.CpuFrequency

  The arithmetic of `EstimateCpuFrequencyMHz`.  Two products of 64 bits are divided; either
  may wrap, the divisor even to 0, and the window of plausible values does not tell a
  quotient of what is left of them from the real one.
-/

import UemuPkg.Drivers.PlatformSmbiosDxe.CpuInfo
import UemuPkg.Generic.Wrap

namespace UemuPkg

open FuelLoop (Returns)
open Wrap (window)

variable {hob : Option FdtBlob} {stack : Int → INT32} {reads : CounterReads}

-- ============================================================================
-- The measurement
-- ============================================================================

/-- An array in order passes the verification. -/
theorem sortVerificationFails_of_sorted {sortArray : Int → INT32}
    (hsorted : ∀ i j, 0 ≤ i → i ≤ j → j ≤ (BENCH_SORT_SIZE - 1 : Int) →
      sortArray i ≤ sortArray j) : sortVerificationFails sortArray = false := by
  rw [sortVerificationFails, List.any_eq_false]
  intro idx hidx
  obtain ⟨hlow, hhigh⟩ := List.mem_range'_1.mp hidx
  have hsize : BENCH_SORT_SIZE = 4096 := rfl
  have hle : sortArray (idx - 1 : Int) ≤ sortArray idx := by
    apply hsorted
    · omega
    · omega
    · omega
  rw [decide_eq_true_eq]
  exact not_lt_of_ge hle

/-- The sort ends and the array passes its verification, so the result depends on the
    time base and the two differences only. -/
theorem estimateCpuFrequencyMHz_returns (hfreq : getTimeBaseFrequency hob ≠ 0) :
    Returns (estimateCpuFrequencyMHz hob stack reads)
      (cpuFrequencyMHz (getTimeBaseFrequency hob) reads.deltaTime reads.deltaCycle) := by
  obtain ⟨sorted, hreturns, hsorts⟩ := quickSortInt32_returns 0 (BENCH_SORT_SIZE - 1) (by decide)
    ⟨fillSortArray BENCH_SORT_SIZE 1 0 stack, []⟩
  obtain ⟨n, hn⟩ := hreturns
  refine ⟨n, ?_⟩
  intro fuel hle
  have hsort : quickSortInt32 fuel 0 (BENCH_SORT_SIZE - 1)
      ⟨fillSortArray BENCH_SORT_SIZE 1 0 stack, []⟩ = some sorted := hn fuel hle
  have hpasses : sortVerificationFails sorted.array = false :=
    sortVerificationFails_of_sorted hsorts.sorted
  rw [estimateCpuFrequencyMHz]
  dsimp only
  rw [if_neg hfreq, hsort, Option.bind_eq_bind, Option.bind_some, hpasses]
  rfl

-- ============================================================================
-- The arithmetic
-- ============================================================================

/-- `1000000` has six factors 2. -/
theorem two_pow_dvd_mul_million_iff (ticks : ℕ) : 2 ^ 64 ∣ ticks * 1000000 ↔ 2 ^ 58 ∣ ticks := by
  have hcoprime : Nat.Coprime (2 ^ 58) 15625 := Nat.Coprime.pow_left 58 (by decide)
  have hfactor : ticks * 1000000 = 2 ^ 6 * (ticks * 15625) := by ring
  rw [hfactor, show 2 ^ 64 = 2 ^ 6 * 2 ^ 58 from rfl, Nat.mul_dvd_mul_iff_left (by decide)]
  constructor
  · exact hcoprime.dvd_of_dvd_mul_right
  · exact fun h => h.trans (Nat.dvd_mul_right ticks 15625)

/-- The divisor is 0 for every multiple of `2 ^ 58` ticks. -/
theorem deltaTime_mul_eq_zero_iff (deltaTime : UINT64) :
    deltaTime * 1000000 = 0 ↔ 2 ^ 58 ∣ deltaTime.toNat := by
  rw [← BitVec.toNat_inj, BitVec.toNat_mul, ← two_pow_dvd_mul_million_iff]
  exact (Nat.dvd_iff_mod_eq_zero).symm

/-- What the code computes, on the numbers that its operands stand for. -/
theorem cpuFrequencyMHz_eq (timeBaseFreq : UINT32) {deltaTime deltaCycle : UINT64}
    (htime : deltaTime ≠ 0) (hcycle : deltaCycle ≠ 0) (hdivisor : ¬ 2 ^ 58 ∣ deltaTime.toNat) :
    ∃ freqMHz : UINT32,
      cpuFrequencyMHz (timeBaseFreq.setWidth 64) deltaTime deltaCycle = some freqMHz ∧
      freqMHz.toNat = window 10 10000 (deltaCycle.toNat * timeBaseFreq.toNat % 2 ^ 64 /
        (deltaTime.toNat * 1000000 % 2 ^ 64)) := by
  have hdividend : (deltaCycle * timeBaseFreq.setWidth 64).toNat
      = deltaCycle.toNat * timeBaseFreq.toNat % 2 ^ 64 := by
    rw [BitVec.toNat_mul, BitVec.toNat_setWidth_of_le (by decide)]
  have hquotient : (deltaCycle * timeBaseFreq.setWidth 64 / (deltaTime * 1000000)).toNat
      = deltaCycle.toNat * timeBaseFreq.toNat % 2 ^ 64 /
        (deltaTime.toNat * 1000000 % 2 ^ 64) := by
    rw [BitVec.toNat_udiv, hdividend, BitVec.toNat_mul]
    rfl
  rw [cpuFrequencyMHz, if_neg (not_or.mpr ⟨htime, hcycle⟩), divU64x64Remainder,
    if_neg (mt (deltaTime_mul_eq_zero_iff deltaTime).mp hdivisor), Option.bind_eq_bind,
    Option.bind_some, ← hquotient]
  generalize deltaCycle * timeBaseFreq.setWidth 64 / (deltaTime * 1000000) = freqMHz
  have hout : (freqMHz < 10 ∨ freqMHz > 10000) ↔ freqMHz.toNat < 10 ∨ 10000 < freqMHz.toNat :=
    or_congr BitVec.lt_def BitVec.lt_def
  rw [window]
  by_cases himplausible : freqMHz < 10 ∨ freqMHz > 10000
  · have hnat := hout.mp himplausible
    rw [if_pos himplausible, if_neg (by omega)]
    exact ⟨0, rfl, rfl⟩
  · have hnat := mt hout.mpr himplausible
    rw [if_neg himplausible, if_pos (by omega)]
    refine ⟨freqMHz.setWidth 32, rfl, ?_⟩
    rw [BitVec.toNat_setWidth, Nat.mod_eq_of_lt (by omega)]

/-- The count leaves the speeds alone. -/
theorem storeCount_speed (count : UINT32) :
    (mProcessorInfoType4.storeCount count).maxSpeed = 0 ∧
      (mProcessorInfoType4.storeCount count).currentSpeed = 0 := by
  rw [SmbiosTableType4.storeCount]
  split
  · exact ⟨rfl, rfl⟩
  · exact ⟨rfl, rfl⟩

/-- A plausible value fits the fields of the record. -/
theorem logCpuInfo_speed {fdtClient : FdtClientNodes} {freqMHz : UINT32} {fuel : Nat}
    {record : CpuInfoRecord} (hlog : logCpuInfo fdtClient freqMHz fuel = some record)
    (hle : freqMHz.toNat ≤ 10000) :
    record.type4.maxSpeed.toNat = freqMHz.toNat ∧
      record.type4.currentSpeed.toNat = freqMHz.toNat := by
  obtain ⟨counted, -, hrecord⟩ := Option.bind_eq_some_iff.mp hlog
  obtain rfl := Option.some.inj hrecord
  obtain ⟨hmax, hcurrent⟩ := storeCount_speed counted.1
  dsimp only
  rw [SmbiosTableType4.storeSpeed]
  by_cases hzero : freqMHz = 0
  · rw [if_neg (not_not_intro hzero), hzero, hmax, hcurrent]
    exact ⟨rfl, rfl⟩
  · have hnarrow : (freqMHz.setWidth 16).toNat = freqMHz.toNat := by
      rw [BitVec.toNat_setWidth, Nat.mod_eq_of_lt (by omega)]
    rw [if_pos hzero]
    exact ⟨hnarrow, hnarrow⟩

theorem window_le (q : ℕ) : window 10 10000 q ≤ 10000 := by
  rw [window]
  split
  · omega
  · omega

-- ============================================================================
-- Exactness
-- ============================================================================

/-- `DeltaCycle * F`, over the integers. -/
def CounterReads.dividend (reads : CounterReads) (timeBaseFreq : UINT32) : ℕ :=
  reads.deltaCycle.toNat * timeBaseFreq.toNat

/-- `DeltaTime * 10^6`, over the integers. -/
def CounterReads.divisor (reads : CounterReads) : ℕ := reads.deltaTime.toNat * 1000000

theorem CounterReads.divisor_pos (reads : CounterReads) (htime : reads.deltaTime ≠ 0) :
    0 < reads.divisor := by
  have hticks : 0 < reads.deltaTime.toNat := by
    apply Nat.pos_of_ne_zero
    intro hzero
    exact htime (BitVec.eq_of_toNat_eq hzero)
  rw [CounterReads.divisor]
  omega

/-- A blob with a `/cpus` node of this `timebase-frequency`. -/
def cpusBlob (timeBaseFreq : UINT32) : FdtBlob where
  parentOffset _ := -FDT_ERR_NOTFOUND
  addressCells _ := 2
  sizeCells _ := 2
  getProp node name :=
    if node = 8 ∧ name = "timebase-frequency" then
      some ⟨[ByteString.leByte timeBaseFreq 3, ByteString.leByte timeBaseFreq 2,
        ByteString.leByte timeBaseFreq 1, ByteString.leByte timeBaseFreq 0],
        by show 4 < 2 ^ 31; decide⟩
    else none
  nextNode _ := -FDT_ERR_NOTFOUND
  subnodeOffset node name := if node = 0 ∧ name = "cpus" then 8 else -FDT_ERR_NOTFOUND
  firstSubnode _ := -FDT_ERR_NOTFOUND
  nextSubnode _ := -FDT_ERR_NOTFOUND
  numberOfReserveMapEntries := 0
  reserveMapEntry _ := none
  checkHeader := 0
  nodeOffsetByCompatible _ _ := -FDT_ERR_NOTFOUND

/-- Every frequency can be read from a blob. -/
theorem getTimeBaseFrequency_cpusBlob (timeBaseFreq : UINT32) :
    getTimeBaseFrequency (some (cpusBlob timeBaseFreq)) = timeBaseFreq.setWidth 64 := by
  obtain ⟨h0, h1, h2, h3⟩ := ByteString.leByte_leCell (ByteString.leByte timeBaseFreq 3)
    (ByteString.leByte timeBaseFreq 2) (ByteString.leByte timeBaseFreq 1)
    (ByteString.leByte timeBaseFreq 0)
  have hswap : swapBytes32 (ByteString.leCell (ByteString.leByte timeBaseFreq 3)
      (ByteString.leByte timeBaseFreq 2) (ByteString.leByte timeBaseFreq 1)
      (ByteString.leByte timeBaseFreq 0)) = timeBaseFreq := by
    rw [swapBytes32, h0, h1, h2, h3, ByteString.beCell_leByte]
  exact congrArg (BitVec.setWidth 64) hswap

/-- The estimate is the quotient over the integers, rounded down, if that is from 10 to 10000,
    and 0 otherwise; and so are the speeds that `LogCpuInfo` stores. -/
def EstimatesExactly (hob : Option FdtBlob) (stack : Int → INT32) (reads : CounterReads)
    (timeBaseFreq : UINT32) : Prop :=
  ∃ freqMHz : UINT32,
    Returns (estimateCpuFrequencyMHz hob stack reads) (some freqMHz) ∧
    freqMHz.toNat = window 10 10000 (reads.dividend timeBaseFreq / reads.divisor) ∧
    ∀ fdtClient fuel record, logCpuInfo fdtClient freqMHz fuel = some record →
      record.type4.maxSpeed.toNat
        = window 10 10000 (reads.dividend timeBaseFreq / reads.divisor) ∧
      record.type4.currentSpeed.toNat
        = window 10 10000 (reads.dividend timeBaseFreq / reads.divisor)

/-- Without a division by 0 the estimate is the quotient of what the products have left. -/
theorem estimatesExactly_iff_window {timeBaseFreq : UINT32} (hpos : timeBaseFreq ≠ 0)
    (hfreq : getTimeBaseFrequency hob = timeBaseFreq.setWidth 64)
    (htime : reads.deltaTime ≠ 0) (hcycle : reads.deltaCycle ≠ 0) :
    EstimatesExactly hob stack reads timeBaseFreq ↔
      ¬ 2 ^ 58 ∣ reads.deltaTime.toNat ∧
        window 10 10000 (reads.dividend timeBaseFreq % 2 ^ 64 / (reads.divisor % 2 ^ 64))
          = window 10 10000 (reads.dividend timeBaseFreq / reads.divisor) := by
  have hne : getTimeBaseFrequency hob ≠ 0 := by
    rw [hfreq]
    intro hzero
    apply hpos
    apply BitVec.eq_of_toNat_eq
    have hwide := congrArg BitVec.toNat hzero
    rw [BitVec.toNat_setWidth_of_le (by decide)] at hwide
    exact hwide
  have hreturns := @estimateCpuFrequencyMHz_returns hob stack reads hne
  rw [hfreq] at hreturns
  by_cases hdivisor : 2 ^ 58 ∣ reads.deltaTime.toNat
  · -- The division has no result.
    apply iff_of_false
    · rintro ⟨freqMHz, hestimate, -⟩
      have hresult := hestimate.unique hreturns
      rw [cpuFrequencyMHz, if_neg (not_or.mpr ⟨htime, hcycle⟩), divU64x64Remainder,
        if_pos ((deltaTime_mul_eq_zero_iff reads.deltaTime).mpr hdivisor)] at hresult
      cases hresult
    · exact fun h => h.1 hdivisor
  · obtain ⟨freqMHz, hsome, hvalue⟩ := cpuFrequencyMHz_eq timeBaseFreq htime hcycle hdivisor
    rw [hsome] at hreturns
    rw [EstimatesExactly]
    constructor
    · rintro ⟨freqMHz', hestimate, hexact, -⟩
      obtain rfl := Option.some.inj (hestimate.unique hreturns)
      exact ⟨hdivisor, hvalue.symm.trans hexact⟩
    · rintro ⟨-, hwindow⟩
      have hexact := hvalue.trans hwindow
      refine ⟨freqMHz, hreturns, hexact, ?_⟩
      intro fdtClient fuel record hlog
      obtain ⟨hmax, hcurrent⟩ := logCpuInfo_speed hlog (hexact.le.trans (window_le _))
      exact ⟨hmax.trans hexact, hcurrent.trans hexact⟩

/-- A divisor below `2 ^ 64` is not 0 in 64 bits. -/
theorem CounterReads.not_dvd_deltaTime (htime : reads.deltaTime ≠ 0)
    (hdivisor : reads.divisor < 2 ^ 64) : ¬ 2 ^ 58 ∣ reads.deltaTime.toNat := by
  intro hdvd
  have hle := Nat.le_of_dvd (reads.divisor_pos htime) ((two_pow_dvd_mul_million_iff _).mpr hdvd)
  exact absurd hdivisor (Nat.not_lt.mpr hle)

/-- The estimate is exact if neither product reaches `2 ^ 64`.  It is wrong for every
    multiple of `2 ^ 58` ticks, where the code divides by 0; and as long as the divisor does
    not wrap, it is wrong for every real frequency in the window once the dividend does, and
    right for every real frequency below. -/
theorem estimateCpuFrequencyMHz_exact {timeBaseFreq : UINT32} (hpos : timeBaseFreq ≠ 0)
    (hfreq : getTimeBaseFrequency hob = timeBaseFreq.setWidth 64)
    (htime : reads.deltaTime ≠ 0) (hcycle : reads.deltaCycle ≠ 0) :
    (reads.dividend timeBaseFreq < 2 ^ 64 → reads.divisor < 2 ^ 64 →
      EstimatesExactly hob stack reads timeBaseFreq) ∧
    (2 ^ 58 ∣ reads.deltaTime.toNat → ¬ EstimatesExactly hob stack reads timeBaseFreq) ∧
    (reads.divisor < 2 ^ 64 → reads.dividend timeBaseFreq / reads.divisor ≤ 10000 →
      (EstimatesExactly hob stack reads timeBaseFreq ↔
        reads.dividend timeBaseFreq < 2 ^ 64 ∨
          reads.dividend timeBaseFreq / reads.divisor < 10)) := by
  rw [estimatesExactly_iff_window hpos hfreq htime hcycle]
  refine ⟨?_, ?_, ?_⟩
  · intro hdividend hdivisor
    refine ⟨reads.not_dvd_deltaTime htime hdivisor, ?_⟩
    rw [Nat.mod_eq_of_lt hdividend, Nat.mod_eq_of_lt hdivisor]
  · exact fun hdvd hexact => hexact.1 hdvd
  · intro hdivisor hplausible
    rw [and_iff_right (reads.not_dvd_deltaTime htime hdivisor)]
    exact Wrap.window_mod_div_mod_eq_iff (by decide) hdivisor (reads.divisor_pos htime) hplausible

/-- 10 MHz, 100000 ticks and 10000000 cycles: 1000 MHz. -/
theorem estimateCpuFrequencyMHz_exact_sample :
    EstimatesExactly (some (cpusBlob 10000000)) (fun _ => 0) ⟨0, 0, 10000000, 100000⟩ 10000000 := by
  have h := @estimateCpuFrequencyMHz_exact (some (cpusBlob 10000000)) (fun _ => 0)
    ⟨0, 0, 10000000, 100000⟩ 10000000 (by decide) (getTimeBaseFrequency_cpusBlob 10000000)
    (by decide) (by decide)
  apply h.1
  · decide
  · decide

/-- At 10 MHz, 2000 seconds at 1000 MHz are estimated as 77 MHz, and for `2 ^ 58` ticks the
    code divides by 0. -/
theorem estimateCpuFrequencyMHz_wraps :
    (Returns (estimateCpuFrequencyMHz (some (cpusBlob 10000000)) (fun _ => 0)
        ⟨0, 0, 2000000000000, 20000000000⟩) (some 77) ∧
      2000000000000 * 10000000 / (20000000000 * 1000000) = 1000 ∧
      ¬ EstimatesExactly (some (cpusBlob 10000000)) (fun _ => 0)
        ⟨0, 0, 2000000000000, 20000000000⟩ 10000000) ∧
    Returns (estimateCpuFrequencyMHz (some (cpusBlob 10000000)) (fun _ => 0)
        ⟨0, 0, 2000000000, 288230376151711744⟩) none ∧
      ¬ EstimatesExactly (some (cpusBlob 10000000)) (fun _ => 0)
        ⟨0, 0, 2000000000, 288230376151711744⟩ 10000000 := by
  have hreturns : ∀ reads, Returns (estimateCpuFrequencyMHz (some (cpusBlob 10000000))
      (fun _ => 0) reads) (cpuFrequencyMHz 10000000 reads.deltaTime reads.deltaCycle) := by
    intro reads
    have hread := getTimeBaseFrequency_cpusBlob 10000000
    have hresult := @estimateCpuFrequencyMHz_returns (some (cpusBlob 10000000)) (fun _ => 0) reads
      (by rw [hread]; decide)
    rw [hread] at hresult
    exact hresult
  have hwrapped := hreturns ⟨0, 0, 2000000000000, 20000000000⟩
  have hzero := hreturns ⟨0, 0, 2000000000, 288230376151711744⟩
  refine ⟨⟨hwrapped, rfl, ?_⟩, hzero, ?_⟩
  · rintro ⟨freqMHz, hestimate, hexact, -⟩
    obtain rfl := Option.some.inj (hestimate.unique hwrapped)
    revert hexact
    decide
  · rintro ⟨freqMHz, hestimate, -⟩
    cases hestimate.unique hzero

end UemuPkg
