/-
  UemuPkg.Library.GoldfishRealTimeClockLib.Model

  `LibGetTime` and `LibSetTime` over the two time registers.  TimeBaseLib, which
  converts between `EFI_TIME` and seconds, is not part of the package: it is a
  parameter, and `TimeBaseLib.Exact` says what it promises.
-/

import UemuPkg.Base
import UemuPkg.Generic.Calendar

namespace UemuPkg

open Calendar (Civil)

/-- `NANO_SEC` -/
def NANO_SEC : UINT64 := 1000000000
def SEC_PER_MIN : UINTN := 60
def SEC_PER_HOUR : UINTN := 3600
def EFI_UNSPECIFIED_TIMEZONE : INT16 := 0x07FF
def EFI_TIME_IN_DAYLIGHT : UINT8 := 0x02

/-- `EFI_TIME` -/
structure EfiTime where
  year : UINT16
  month : UINT8
  day : UINT8
  hour : UINT8
  minute : UINT8
  second : UINT8
  pad1 : UINT8
  nanosecond : UINT32
  timeZone : INT16
  daylight : UINT8
  pad2 : UINT8
  deriving DecidableEq

/-- `EFI_TIME_CAPABILITIES` -/
structure EfiTimeCapabilities where
  resolution : UINT32
  accuracy : UINT32
  setsToZero : Bool
  deriving DecidableEq

/-- Year, month, day, hour, minute and second as numbers. -/
def EfiTime.civil (t : EfiTime) : Civil where
  year := t.year.toNat
  month := t.month.toNat
  day := t.day.toNat
  hour := t.hour.toNat
  minute := t.minute.toNat
  second := t.second.toNat

/-- The fields are in the ranges `EFI_TIME` allows. -/
structure EfiTime.Valid (t : EfiTime) : Prop where
  year : 1900 ≤ t.year.toNat ∧ t.year.toNat ≤ 9999
  month : 1 ≤ t.month.toNat ∧ t.month.toNat ≤ 12
  day : 1 ≤ t.day.toNat ∧ t.day.toNat ≤ Calendar.daysInMonth t.year.toNat t.month.toNat
  hour : t.hour.toNat ≤ 23
  minute : t.minute.toNat ≤ 59
  second : t.second.toNat ≤ 59
  nanosecond : t.nanosecond.toNat ≤ 999999999
  timeZone : t.timeZone = EFI_UNSPECIFIED_TIMEZONE ∨
    (-1440 ≤ t.timeZone.toInt ∧ t.timeZone.toInt ≤ 1440)

/-- The two conversions of TimeBaseLib.  `EpochToEfiTime` fills in a caller's buffer. -/
structure TimeBaseLib where
  efiTimeToEpoch : EfiTime → UINTN
  epochToEfiTime : UINTN → EfiTime → EfiTime

/-- The conversions are exact inverses on seconds since 1970, up to the end of the
    year 9999.  `EfiTimeToEpoch` reads only the six date and time fields, and the
    second is the rest of the count modulo 60 for any count. -/
structure TimeBaseLib.Exact (lib : TimeBaseLib) : Prop where
  toEpoch_congr : ∀ t u, t.civil = u.civil → lib.efiTimeToEpoch t = lib.efiTimeToEpoch u
  ofEpoch_toEpoch : ∀ t buffer, t.Valid → 1970 ≤ t.year.toNat →
    (lib.epochToEfiTime (lib.efiTimeToEpoch t) buffer).civil = t.civil
  toEpoch_ofEpoch : ∀ s buffer, s.toNat < 253402300800 →
    lib.efiTimeToEpoch (lib.epochToEfiTime s buffer) = s
  second_ofEpoch : ∀ s buffer, (lib.epochToEfiTime s buffer).second.toNat = s.toNat % 60

/-- The registers `GOLDFISH_RTC_TIME_LOW` and `GOLDFISH_RTC_TIME_HIGH`. -/
structure RtcRegisters where
  timeLow : UINT32
  timeHigh : UINT32
  deriving DecidableEq

/-- `LibGetTime`: the status, and what it leaves in the caller's two buffers. -/
def libGetTime (lib : TimeBaseLib) (regs : RtcRegisters) (time : Option EfiTime)
    (capabilities : Option EfiTimeCapabilities) :
    EfiStatus × Option EfiTime × Option EfiTimeCapabilities :=
  match time with
  | none => (.invalidParameter, none, capabilities)
  | some time =>
    let epochSeconds := regs.timeHigh.setWidth 64 <<< 32 ||| regs.timeLow.setWidth 64
    let epochSeconds := epochSeconds / NANO_SEC
    let epochSeconds :=
      if time.timeZone ≠ EFI_UNSPECIFIED_TIMEZONE then
        epochSeconds + time.timeZone.signExtend 64 * SEC_PER_MIN
      else if time.daylight &&& EFI_TIME_IN_DAYLIGHT = EFI_TIME_IN_DAYLIGHT then
        epochSeconds + SEC_PER_HOUR
      else
        epochSeconds
    (.success, some (lib.epochToEfiTime epochSeconds time), capabilities.map fun _ =>
      { resolution := 1, accuracy := 50000000, setsToZero := false })

/-- `LibSetTime`: the status, and the registers after it. -/
def libSetTime (lib : TimeBaseLib) (regs : RtcRegisters) (time : Option EfiTime) :
    EfiStatus × RtcRegisters :=
  match time with
  | none => (.invalidParameter, regs)
  | some time =>
    let epochSeconds := lib.efiTimeToEpoch time
    let epochSeconds := epochSeconds * NANO_SEC
    -- From here on the variable counts nanoseconds.
    let epochSeconds :=
      if time.timeZone ≠ EFI_UNSPECIFIED_TIMEZONE then
        epochSeconds - time.timeZone.signExtend 64 * SEC_PER_MIN
      else if time.daylight &&& EFI_TIME_IN_DAYLIGHT = EFI_TIME_IN_DAYLIGHT then
        epochSeconds - SEC_PER_HOUR
      else
        epochSeconds
    (.success,
      { timeLow := (epochSeconds &&& 0xFFFFFFFF).setWidth 32
        timeHigh := (epochSeconds >>> 32).setWidth 32 })

end UemuPkg
