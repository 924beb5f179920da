/-
  UemuPkg.Drivers.Bcm2835RngDxe.EntryPoint

  The entry point of the RNG driver, and the registers that the driver touches.
-/

import Mathlib.Logic.Function.Iterate
import UemuPkg.Drivers.Bcm2835RngDxe.Model
import UemuPkg.Library.UemuFdtLib.MmioRange

namespace UemuPkg

open Effects (Program)

def RNG_CTRL : UINT64 := 0x0
def RNG_STATUS : UINT64 := 0x4
def RNG_DATA : UINT64 := 0x8
def RNG_CTRL_ENABLE : UINT32 := 0x1
def RNG_WARMUP_COUNT : UINT32 := 0x40000

/-- The register access of an event of `Bcm2835RngGetRNG`. -/
def RngEvent.call (mRngBase : UINT64) : RngEvent → Option DriverCall
  | .readStatus _ => some (.mmioRead32 (mRngBase + RNG_STATUS))
  | .readData _ => some (.mmioRead32 (mRngBase + RNG_DATA))
  | .store _ _ => none

/-- The driver for the BCM2835 RNG.  `start` is `Bcm2835RngEntryPoint` from the GCD on;
    whether the installation succeeds is only asserted. -/
def bcm2835Rng : MmioDriver where
  compatible := "brcm,bcm2835-rng"
  minSize := RNG_DATA + 4
  start m := registerMmioRange m do
    let _ ← install
    mmioWrite32 (m.base + RNG_STATUS) RNG_WARMUP_COUNT
    mmioWrite32 (m.base + RNG_CTRL) RNG_CTRL_ENABLE
    return .success
  services mRngBase call := ∃ dev this rngAlgorithm rngValueLength rngValue k,
    ∃ event ∈ ((RngState.step dev)^[k]
      (bcm2835RngGetRNG dev this rngAlgorithm rngValueLength rngValue)).trace,
      event.call mRngBase = some call

theorem bcm2835Rng_keepsToMapping : bcm2835Rng.KeepsToMapping where
  start m h := by
    refine registerMmioRange_calls ?_
    refine .bind (Program.calls_perform trivial) fun _ => ?_
    refine .bind (Program.calls_perform (h.write ?_ _)) fun _ => ?_
    · show 4 + 4 ≤ 12
      omega
    refine .bind (Program.calls_perform (h.write ?_ _)) fun _ => Program.calls_ret _
    show 0 + 4 ≤ 12
    omega
  services m h := by
    rintro call ⟨dev, this, rngAlgorithm, rngValueLength, rngValue, k, event, -, hcall⟩
    cases event with
    | readStatus value =>
        obtain rfl := Option.some.inj hcall
        refine h.read ?_
        show 4 + 4 ≤ 12
        omega
    | readData value =>
        obtain rfl := Option.some.inj hcall
        refine h.read ?_
        show 8 + 4 ≤ 12
        omega
    | store offset value => cases hcall

end UemuPkg
