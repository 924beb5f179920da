/-
  UemuPkg.Library.GoldfishRealTimeClockLib.Registers

  The clock over its registers: the entry point, and `LibGetTime` and `LibSetTime` as
  programs.  On a device that holds the two time registers the programs are `libGetTime`
  and `libSetTime`.
-/

import UemuPkg.Library.GoldfishRealTimeClockLib.Model
import UemuPkg.Library.UemuFdtLib.MmioRange

namespace UemuPkg

open Effects (Program)

def GOLDFISH_RTC_TIME_LOW : UINT64 := 0x00
def GOLDFISH_RTC_TIME_HIGH : UINT64 := 0x04
def GOLDFISH_RTC_CLEAR_INTERRUPT : UINT64 := 0x1c

/-- The register accesses of `LibGetTime`, and its result. -/
def getTimeRegisters (lib : TimeBaseLib) (mRtcRegisterBase : UINT64) (time : Option EfiTime)
    (capabilities : Option EfiTimeCapabilities) :
    DriverM (EfiStatus × Option EfiTime × Option EfiTimeCapabilities) :=
  match time with
  | none => return (.invalidParameter, none, capabilities)
  | some time => do
    let low ← mmioRead32 (mRtcRegisterBase + GOLDFISH_RTC_TIME_LOW)
    let high ← mmioRead32 (mRtcRegisterBase + GOLDFISH_RTC_TIME_HIGH)
    return libGetTime lib { timeLow := low, timeHigh := high } (some time) capabilities

/-- The register accesses of `LibSetTime`, and its status. -/
def setTimeRegisters (lib : TimeBaseLib) (mRtcRegisterBase : UINT64) (time : Option EfiTime) :
    DriverM EfiStatus :=
  match time with
  | none => return .invalidParameter
  | some time => do
    let regs := (libSetTime lib { timeLow := 0, timeHigh := 0 } (some time)).2
    mmioWrite32 (mRtcRegisterBase + GOLDFISH_RTC_TIME_LOW) regs.timeLow
    mmioWrite32 (mRtcRegisterBase + GOLDFISH_RTC_TIME_HIGH) regs.timeHigh
    return .success

/-- `GetGoldfishRtcBase`: `*BaseAddress` and `*MmioSize`. -/
def getGoldfishRtcBase (hob : Option FdtHob) (fuel : Nat) :
    Option (Except EfiStatus (UINT64 × UINT64)) :=
  checkedMmioRange "google,goldfish-rtc" (GOLDFISH_RTC_CLEAR_INTERRUPT + 4) hob fuel

/-- The driver for the clock.  `start` is `LibRtcInitialize` from the GCD on, where unlike
    in the other drivers either failure is fatal. -/
def goldfishRtc : MmioDriver where
  compatible := "google,goldfish-rtc"
  minSize := GOLDFISH_RTC_CLEAR_INTERRUPT + 4
  start m := do
    let status ← addMemorySpace m.gcdBase m.gcdSize
      (EFI_MEMORY_UC ||| EFI_MEMORY_RUNTIME ||| EFI_MEMORY_XP)
    if status.isError then
      return status
    else
      let status ← setMemorySpaceAttributes m.gcdBase m.gcdSize
        (EFI_MEMORY_UC ||| EFI_MEMORY_RUNTIME ||| EFI_MEMORY_XP)
      if status.isError then
        return status
      else
        install
  services mRtcRegisterBase call :=
    (∃ lib time capabilities,
      (getTimeRegisters lib mRtcRegisterBase time capabilities).Makes call) ∨
      ∃ lib time, (setTimeRegisters lib mRtcRegisterBase time).Makes call

-- ============================================================================
-- The registers touched
-- ============================================================================

theorem goldfishRtc_keepsToMapping : goldfishRtc.KeepsToMapping where
  start m h := by
    refine .bind (Program.calls_perform ⟨rfl, rfl⟩) fun status => ?_
    split
    · exact Program.calls_ret _
    · refine .bind (Program.calls_perform ⟨rfl, rfl⟩) fun status => ?_
      split
      · exact Program.calls_ret _
      · exact Program.calls_perform trivial
  services m h := by
    have hlow : GOLDFISH_RTC_TIME_LOW.toNat + 4 ≤ goldfishRtc.minSize.toNat := by
      show 0 + 4 ≤ 32
      omega
    have hhigh : GOLDFISH_RTC_TIME_HIGH.toNat + 4 ≤ goldfishRtc.minSize.toNat := by
      show 4 + 4 ≤ 32
      omega
    rintro call (⟨lib, time, capabilities, hmakes⟩ | ⟨lib, time, hmakes⟩)
    · refine Program.Calls.of_makes ?_ hmakes
      cases time with
      | none => exact Program.calls_ret _
      | some time =>
          exact .bind (Program.calls_perform (h.read hlow)) fun _ =>
            .bind (Program.calls_perform (h.read hhigh)) fun _ => Program.calls_ret _
    · refine Program.Calls.of_makes ?_ hmakes
      cases time with
      | none => exact Program.calls_ret _
      | some time =>
          exact .bind (Program.calls_perform (h.write hlow _)) fun _ =>
            .bind (Program.calls_perform (h.write hhigh _)) fun _ => Program.calls_ret _

-- ============================================================================
-- The functions on the time registers
-- ============================================================================

/-- What the device at `base` returns at an address. -/
def RtcRegisters.read (base : UINT64) (regs : RtcRegisters) (address : UINT64) : UINT32 :=
  if address = base + GOLDFISH_RTC_TIME_LOW then regs.timeLow
  else if address = base + GOLDFISH_RTC_TIME_HIGH then regs.timeHigh
  else 0

def RtcRegisters.write (base : UINT64) (regs : RtcRegisters) (address : UINT64)
    (value : UINT32) : RtcRegisters :=
  if address = base + GOLDFISH_RTC_TIME_LOW then { regs with timeLow := value }
  else if address = base + GOLDFISH_RTC_TIME_HIGH then { regs with timeHigh := value }
  else regs

/-- A device at `base` with the two time registers. -/
def rtcDevice (base : UINT64) (regs : RtcRegisters) :
    (call : DriverCall) → call.Result × RtcRegisters
  | .mmioRead32 address => (regs.read base address, regs)
  | .mmioWrite32 address value => ((), regs.write base address value)
  | .addMemorySpace _ _ _ => (.success, regs)
  | .setMemorySpaceAttributes _ _ _ => (.success, regs)
  | .allocateZeroPool => (true, regs)
  | .install => (.success, regs)

/-- The two registers have different addresses, whatever the base. -/
theorem rtc_registers_ne (base : UINT64) :
    base + GOLDFISH_RTC_TIME_HIGH ≠ base + GOLDFISH_RTC_TIME_LOW := by
  intro h
  have heq : GOLDFISH_RTC_TIME_HIGH = GOLDFISH_RTC_TIME_LOW := (BitVec.add_right_inj base).mp h
  exact absurd heq (by decide)

variable (base : UINT64) (regs : RtcRegisters)

theorem RtcRegisters.read_low : regs.read base (base + GOLDFISH_RTC_TIME_LOW) = regs.timeLow :=
  if_pos rfl

theorem RtcRegisters.read_high :
    regs.read base (base + GOLDFISH_RTC_TIME_HIGH) = regs.timeHigh := by
  rw [RtcRegisters.read, if_neg (rtc_registers_ne base), if_pos rfl]

theorem RtcRegisters.write_low (value : UINT32) :
    regs.write base (base + GOLDFISH_RTC_TIME_LOW) value = { regs with timeLow := value } :=
  if_pos rfl

theorem RtcRegisters.write_high (value : UINT32) :
    regs.write base (base + GOLDFISH_RTC_TIME_HIGH) value = { regs with timeHigh := value } := by
  rw [RtcRegisters.write, if_neg (rtc_registers_ne base), if_pos rfl]

theorem getTimeRegisters_run (lib : TimeBaseLib) (time : Option EfiTime)
    (capabilities : Option EfiTimeCapabilities) :
    (getTimeRegisters lib base time capabilities).run (rtcDevice base) regs
      = (libGetTime lib regs time capabilities, regs) := by
  cases time with
  | none => rfl
  | some time =>
      show (libGetTime lib
        { timeLow := regs.read base (base + GOLDFISH_RTC_TIME_LOW)
          timeHigh := regs.read base (base + GOLDFISH_RTC_TIME_HIGH) }
        (some time) capabilities, regs) = _
      rw [RtcRegisters.read_low, RtcRegisters.read_high]

theorem setTimeRegisters_run (lib : TimeBaseLib) (time : Option EfiTime) :
    (setTimeRegisters lib base time).run (rtcDevice base) regs = libSetTime lib regs time := by
  cases time with
  | none => rfl
  | some time =>
      let set := (libSetTime lib { timeLow := 0, timeHigh := 0 } (some time)).2
      show (EfiStatus.success,
        (regs.write base (base + GOLDFISH_RTC_TIME_LOW) set.timeLow).write base
          (base + GOLDFISH_RTC_TIME_HIGH) set.timeHigh) = _
      rw [RtcRegisters.write_low, RtcRegisters.write_high]
      rfl

end UemuPkg
