/-
  UemuPkg.Drivers.RegisterAccess

  Every register that a driver touches is inside the range it has mapped.  The size
  check of each driver reaches behind its last register, `UemuFdtGetReg` refuses ranges
  that wrap, and the pages given to the GCD contain the range; so an access at the base
  plus a register offset can neither wrap nor leave either range.
-/

import UemuPkg.Drivers.Bcm2835RngDxe.EntryPoint
import UemuPkg.Drivers.GoldfishBatteryDxe.Registers
import UemuPkg.Drivers.GoldfishEventsDxe.Registers
import UemuPkg.Library.GoldfishRealTimeClockLib.Registers
import UemuPkg.Library.PlatformSecLib.SystemMemory

namespace UemuPkg

/-- The drivers for memory-mapped registers. -/
def mmioDrivers : List MmioDriver := [bcm2835Rng, goldfishEvents, goldfishBattery, goldfishRtc]

theorem mmioDrivers_keepToMapping {d : MmioDriver} (hd : d ∈ mmioDrivers) :
    d.KeepsToMapping := by
  rcases List.mem_cons.mp hd with rfl | hd
  · exact bcm2835Rng_keepsToMapping
  rcases List.mem_cons.mp hd with rfl | hd
  · exact goldfishEvents_keepsToMapping
  rcases List.mem_cons.mp hd with rfl | hd
  · exact goldfishBattery_keepsToMapping
  obtain rfl := List.mem_singleton.mp hd
  exact goldfishRtc_keepsToMapping

/-- On every device tree `UemuFdtAlignRange` accepts the range that an entry point gives
    it or finds no room for its last page; and once the range is mapped, the accesses of
    the entry point and of the other functions of the driver lie in the range of the
    device and in the pages given to the GCD.  Neither range wraps. -/
theorem mmioDrivers_access_mapped_range (d : MmioDriver) (hd : d ∈ mmioDrivers)
    (hob : Option FdtHob) (fuel : Nat) :
    (∀ base size, d.range hob fuel = some (.ok (base, size)) → ∀ b s,
      (uemuFdtAlignRange base size (some b) (some s)).status ≠ .invalidParameter) ∧
    (∀ status, d.mapping hob fuel = some (.error status) →
      d.entryPoint hob fuel = some (.ret status)) ∧
    ∀ m, d.mapping hob fuel = some (.ok m) →
      m.base.toNat + m.size.toNat < 2 ^ 64 ∧
      m.gcdBase.toNat + m.gcdSize.toNat < 2 ^ 64 ∧
      (∃ prog, d.entryPoint hob fuel = some prog ∧ prog.Calls m.Allows) ∧
      ∀ call, d.services m.base call → m.Allows call := by
  have hkeeps := mmioDrivers_keepToMapping hd
  refine ⟨?_, ?_, ?_⟩
  · intro base size hrange b s
    exact checkedMmioRange_align_valid hrange b s
  · intro status hmapping
    rw [MmioDriver.entryPoint, hmapping]
    rfl
  · intro m hmapping
    have hcovers : m.Covers d.minSize := mapMmioRange_covers hmapping
    refine ⟨hcovers.end_lt, hcovers.gcdEnd_lt, ⟨d.start m, ?_, ?_⟩, ?_⟩
    · rw [MmioDriver.entryPoint, hmapping]
      rfl
    · exact hkeeps.start m hcovers
    · exact hkeeps.services m hcovers

/-- `sampleFdt` with its node at offset 8 compatible with any device. -/
def sampleBlob (reg : FdtProp) : FdtBlob where
  toFdt := sampleFdt reg
  checkHeader := 0
  nodeOffsetByCompatible start _ := if start < 8 then 8 else -FDT_ERR_NOTFOUND

def sampleHob (reg : FdtProp) : FdtHob := ⟨8, some (sampleBlob reg)⟩

/-- 68 bytes behind `0x101008`, all that the registers of the battery need. -/
def batteryReg : FdtProp := ⟨[0, 0x10, 0x10, 0x08, 0, 0, 0, 0x44], by decide⟩

theorem mmioDrivers_access_mapped_range_battery :
    ∃ m, goldfishBattery.mapping (some (sampleHob batteryReg)) 1 = some (.ok m) ∧
      m = { base := 0x101008, size := 0x44, gcdBase := 0x101000, gcdSize := 0x1000 } ∧
      (∃ prog, goldfishBattery.entryPoint (some (sampleHob batteryReg)) 1 = some prog ∧
        prog.Calls m.Allows) ∧
      ∀ call, goldfishBattery.services m.base call → m.Allows call := by
  have hmapping : goldfishBattery.mapping (some (sampleHob batteryReg)) 1
      = some (.ok { base := 0x101008, size := 0x44, gcdBase := 0x101000, gcdSize := 0x1000 }) :=
    rfl
  have hd : goldfishBattery ∈ mmioDrivers := .tail _ (.tail _ (.head _))
  obtain ⟨-, -, haccess⟩ := mmioDrivers_access_mapped_range goldfishBattery hd
    (some (sampleHob batteryReg)) 1
  obtain ⟨-, -, hentry, hservices⟩ := haccess _ hmapping
  exact ⟨_, hmapping, rfl, hentry, hservices⟩

end UemuPkg
