/-
  UemuPkg.Drivers.GoldfishBatteryDxe.Registers

  The battery driver over its registers.
-/

import UemuPkg.Library.UemuFdtLib.MmioRange

namespace UemuPkg

open Effects (Program)

def REG_INT_STATUS : UINT32 := 0x00
def REG_AC_ONLINE : UINT32 := 0x08
def REG_STATUS : UINT32 := 0x0C
def REG_HEALTH : UINT32 := 0x10
def REG_PRESENT : UINT32 := 0x14
def REG_CAPACITY : UINT32 := 0x18
def REG_VOLTAGE : UINT32 := 0x1C
def REG_TEMP : UINT32 := 0x20
def REG_CHARGE_COUNTER : UINT32 := 0x24
def REG_VOLTAGE_MAX : UINT32 := 0x28
def REG_CURRENT_MAX : UINT32 := 0x2C
def REG_CURRENT_NOW : UINT32 := 0x30
def REG_CURRENT_AVG : UINT32 := 0x34
def REG_CHARGE_FULL_UAH : UINT32 := 0x38
def REG_CYCLE_COUNT : UINT32 := 0x40

/-- `GOLDFISH_BATTERY_INFO` -/
structure GoldfishBatteryInfo where
  acOnline : UINT32
  status : UINT32
  health : UINT32
  present : UINT32
  capacity : UINT32
  voltageNow : UINT32
  currentNow : UINT32
  voltageMax : UINT32
  currentMax : UINT32
  temp : UINT32
  cycleCount : UINT32
  chargeFullUah : UINT32
  chargeCounter : UINT32
  currentAvg : UINT32

/-- `BatteryRegRead32` -/
def batteryRegRead32 (base : UINT64) (offset : UINT32) : DriverM UINT32 :=
  mmioRead32 (base + offset.setWidth 64)

/-- `ReadBatteryInfo` -/
def readBatteryInfo (base : UINT64) : DriverM GoldfishBatteryInfo := do
  let _ ← batteryRegRead32 base REG_INT_STATUS
  let acOnline ← batteryRegRead32 base REG_AC_ONLINE
  let status ← batteryRegRead32 base REG_STATUS
  let health ← batteryRegRead32 base REG_HEALTH
  let present ← batteryRegRead32 base REG_PRESENT
  let capacity ← batteryRegRead32 base REG_CAPACITY
  let voltageNow ← batteryRegRead32 base REG_VOLTAGE
  let temp ← batteryRegRead32 base REG_TEMP
  let chargeCounter ← batteryRegRead32 base REG_CHARGE_COUNTER
  let voltageMax ← batteryRegRead32 base REG_VOLTAGE_MAX
  let currentMax ← batteryRegRead32 base REG_CURRENT_MAX
  let currentNow ← batteryRegRead32 base REG_CURRENT_NOW
  let currentAvg ← batteryRegRead32 base REG_CURRENT_AVG
  let chargeFullUah ← batteryRegRead32 base REG_CHARGE_FULL_UAH
  let cycleCount ← batteryRegRead32 base REG_CYCLE_COUNT
  return { acOnline, status, health, present, capacity, voltageNow, currentNow, voltageMax,
           currentMax, temp, cycleCount, chargeFullUah, chargeCounter, currentAvg }

/-- `GetBatteryInfo`: the status and `*Info`.  `located` says whether the driver finds its
    own protocol. -/
def getBatteryInfo (mmioBase : UINT64) (located : Bool) (info : Option GoldfishBatteryInfo) :
    DriverM (EfiStatus × Option GoldfishBatteryInfo) :=
  if located then
    match info with
    | none => return (.invalidParameter, none)
    | some _ => do
      let info ← readBatteryInfo mmioBase
      return (.success, some info)
  else
    return (.deviceError, info)

/-- The driver for the battery.  `start` is `GoldfishBatteryDxeInitialize` from the GCD
    on; the SMBIOS record it logs last touches no register. -/
def goldfishBattery : MmioDriver where
  compatible := "google,goldfish-battery"
  minSize := REG_CYCLE_COUNT.setWidth 64 + 4
  start m := registerMmioRange m do
    let _ ← readBatteryInfo m.base
    if ← allocateZeroPool then
      let status ← install
      if status.isError then
        return status
      else
        return .success
    else
      return .outOfResources
  services mmioBase call := ∃ located info, (getBatteryInfo mmioBase located info).Makes call

variable {m : MmioMapping}

/-- Every register up to the last one, which the size check names, may be read. -/
theorem batteryRegRead32_calls (h : m.Covers goldfishBattery.minSize) {offset : UINT32}
    (hoffset : offset.toNat ≤ 0x40) : (batteryRegRead32 m.base offset).Calls m.Allows := by
  refine Program.calls_perform (h.read ?_)
  show (offset.setWidth 64).toNat + 4 ≤ 0x44
  rw [toNat_registerOffset]
  omega

theorem readBatteryInfo_calls (h : m.Covers goldfishBattery.minSize) :
    (readBatteryInfo m.base).Calls m.Allows := by
  -- the fifteen reads, in order
  iterate 15 refine .bind (batteryRegRead32_calls h (by decide)) fun _ => ?_
  exact Program.calls_ret _

theorem goldfishBattery_keepsToMapping : goldfishBattery.KeepsToMapping where
  start m h := by
    refine registerMmioRange_calls (.bind (readBatteryInfo_calls h) fun _ => ?_)
    refine .bind (Program.calls_perform trivial) fun granted => ?_
    split
    · refine .bind (Program.calls_perform trivial) fun status => ?_
      split
      · exact Program.calls_ret _
      · exact Program.calls_ret _
    · exact Program.calls_ret _
  services m h := by
    rintro call ⟨located, info, hmakes⟩
    refine Program.Calls.of_makes ?_ hmakes
    cases located with
    | false => exact Program.calls_ret _
    | true =>
        cases info with
        | none => exact Program.calls_ret _
        | some buffer => exact .bind (readBatteryInfo_calls h) fun _ => Program.calls_ret _

end UemuPkg
