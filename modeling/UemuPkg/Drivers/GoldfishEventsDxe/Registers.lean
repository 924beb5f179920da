/-
  UemuPkg.Drivers.GoldfishEventsDxe.Registers

  The keyboard driver over its registers: the entry point, and the loops of
  `PollKeyboard` and `GoldfishEventsReset` one register read at a time.  On a device
  that hands out the words of a queue the loops are `pollLoop` and `drainLoop`.
-/

import UemuPkg.Drivers.GoldfishEventsDxe.Keystrokes
import UemuPkg.Library.UemuFdtLib.MmioRange

namespace UemuPkg

open Effects (Program)

def REG_READ : UINT32 := 0x00
def REG_SET_PAGE : UINT32 := 0x00
def REG_LEN : UINT32 := 0x04
def REG_DATA : UINT32 := 0x08
def PAGE_ABSDATA : UINT32 := 0x20003

/-- `GoldfishRead32` -/
def goldfishRead32 (mmioBase : UINT64) (offset : UINT32) : DriverM UINT32 :=
  mmioRead32 (mmioBase + offset.setWidth 64)

/-- `GoldfishWrite32` -/
def goldfishWrite32 (mmioBase : UINT64) (offset value : UINT32) : DriverM Unit :=
  mmioWrite32 (mmioBase + offset.setWidth 64) value

/-- The loop of `PollKeyboard`: the device state and `HaveNotify`. -/
def pollRegister (mmioBase : UINT64) :
    Nat → GoldfishEventsDev → Bool → DriverM (Option (GoldfishEventsDev × Bool))
  | 0, _, _ => return none
  | fuel + 1, dev, haveNotify => do
    let type ← goldfishRead32 mmioBase REG_READ
    if type = 0 then
      return some (dev, haveNotify)
    else
      let code ← goldfishRead32 mmioBase REG_READ
      let value ← goldfishRead32 mmioBase REG_READ
      let polled := pollRecord dev type code value
      pollRegister mmioBase fuel polled.1 (haveNotify || polled.2)

/-- The loop of `GoldfishEventsReset`; `true` once it has seen the queue empty. -/
def drainRegister (mmioBase : UINT64) : Nat → DriverM Bool
  | 0 => return false
  | fuel + 1 => do
    let type ← goldfishRead32 mmioBase REG_READ
    if type = 0 then
      return true
    else
      let _ ← goldfishRead32 mmioBase REG_READ
      let _ ← goldfishRead32 mmioBase REG_READ
      drainRegister mmioBase fuel

/-- The driver for the keyboard.  `start` is `GoldfishEventsDxeInitialize` from the GCD
    on; its last step stands for everything behind the read of `REG_LEN`. -/
def goldfishEvents : MmioDriver where
  compatible := "google,goldfish-events-keypad"
  minSize := REG_DATA.setWidth 64 + 4
  start m := registerMmioRange m do
    if ← allocateZeroPool then
      goldfishWrite32 m.base REG_SET_PAGE PAGE_ABSDATA
      let _ ← goldfishRead32 m.base REG_LEN
      install
    else
      return .outOfResources
  services mmioBase call :=
    (∃ fuel dev haveNotify, (pollRegister mmioBase fuel dev haveNotify).Makes call) ∨
      ∃ fuel, (drainRegister mmioBase fuel).Makes call

-- ============================================================================
-- The registers touched
-- ============================================================================

variable {m : MmioMapping}

theorem goldfishEvents_read (h : m.Covers goldfishEvents.minSize) {offset : UINT32}
    (hoffset : offset.toNat ≤ 8) : (goldfishRead32 m.base offset).Calls m.Allows := by
  refine Program.calls_perform (h.read ?_)
  show (offset.setWidth 64).toNat + 4 ≤ 12
  rw [toNat_registerOffset]
  omega

theorem goldfishEvents_write (h : m.Covers goldfishEvents.minSize) {offset : UINT32}
    (hoffset : offset.toNat ≤ 8) (value : UINT32) :
    (goldfishWrite32 m.base offset value).Calls m.Allows := by
  refine Program.calls_perform (h.write ?_ value)
  show (offset.setWidth 64).toNat + 4 ≤ 12
  rw [toNat_registerOffset]
  omega

theorem pollRegister_calls (h : m.Covers goldfishEvents.minSize) (fuel : Nat)
    (dev : GoldfishEventsDev) (haveNotify : Bool) :
    (pollRegister m.base fuel dev haveNotify).Calls m.Allows := by
  have hread : (goldfishRead32 m.base REG_READ).Calls m.Allows :=
    goldfishEvents_read h (Nat.zero_le 8)
  induction fuel generalizing dev haveNotify with
  | zero => exact Program.calls_ret _
  | succ fuel ih =>
      refine .bind hread fun type => ?_
      split
      · exact Program.calls_ret _
      · exact .bind hread fun code => .bind hread fun value => ih _ _

theorem drainRegister_calls (h : m.Covers goldfishEvents.minSize) (fuel : Nat) :
    (drainRegister m.base fuel).Calls m.Allows := by
  have hread : (goldfishRead32 m.base REG_READ).Calls m.Allows :=
    goldfishEvents_read h (Nat.zero_le 8)
  induction fuel with
  | zero => exact Program.calls_ret _
  | succ fuel ih =>
      refine .bind hread fun type => ?_
      split
      · exact Program.calls_ret _
      · exact .bind hread fun _ => .bind hread fun _ => ih

theorem goldfishEvents_keepsToMapping : goldfishEvents.KeepsToMapping where
  start m h := by
    refine registerMmioRange_calls (.bind (Program.calls_perform trivial) fun granted => ?_)
    split
    · have hpage : REG_SET_PAGE.toNat ≤ 8 := Nat.zero_le 8
      have hlen : REG_LEN.toNat ≤ 8 := by decide
      exact .bind (goldfishEvents_write h hpage _) fun _ =>
        .bind (goldfishEvents_read h hlen) fun _ => Program.calls_perform trivial
    · exact Program.calls_ret _
  services m h := by
    rintro call (⟨fuel, dev, haveNotify, hmakes⟩ | ⟨fuel, hmakes⟩)
    · exact (pollRegister_calls h fuel dev haveNotify).of_makes hmakes
    · exact (drainRegister_calls h fuel).of_makes hmakes

-- ============================================================================
-- The loops on a queue of words
-- ============================================================================

/-- A device whose event register hands out the words of a queue, and 0 behind them. -/
def eventRegister (fifo : List UINT32) : (call : DriverCall) → call.Result × List UINT32
  | .mmioRead32 _ => (fifo.headD 0, fifo.tail)
  | .mmioWrite32 _ _ => ((), fifo)
  | .addMemorySpace _ _ _ => (.success, fifo)
  | .setMemorySpaceAttributes _ _ _ => (.success, fifo)
  | .allocateZeroPool => (true, fifo)
  | .install => (.success, fifo)

/-- A queue with a word leaves fuel for another turn. -/
theorem fuel_of_length_cons {word : UINT32} {fifo : List UINT32} {fuel : Nat}
    (h : (word :: fifo).length < fuel + 1) : ∃ k, fuel = k + 1 := by
  rw [List.length_cons] at h
  exact ⟨fuel - 1, by omega⟩

/-- One turn of the loop of `PollKeyboard`. -/
theorem pollRegister_run_succ (mmioBase : UINT64) (fuel : Nat) (dev : GoldfishEventsDev)
    (haveNotify : Bool) (fifo : List UINT32) :
    (pollRegister mmioBase (fuel + 1) dev haveNotify).run eventRegister fifo
      = if fifo.headD 0 = 0 then (some (dev, haveNotify), fifo.tail) else
          (pollRegister mmioBase fuel
            (pollRecord dev (fifo.headD 0) (fifo.tail.headD 0) (fifo.tail.tail.headD 0)).1
            (haveNotify || (pollRecord dev (fifo.headD 0) (fifo.tail.headD 0)
              (fifo.tail.tail.headD 0)).2)).run eventRegister fifo.tail.tail.tail := by
  rw [pollRegister]
  show (if fifo.headD 0 = 0 then _ else _ : DriverM _).run eventRegister fifo.tail = _
  split
  · rfl
  · rfl

/-- With fuel for all its words the loop on the registers is `pollLoop`. -/
theorem pollRegister_run (mmioBase : UINT64) (dev : GoldfishEventsDev) (haveNotify : Bool)
    (fifo : List UINT32) {fuel : Nat} (hfuel : fifo.length < fuel) :
    (pollRegister mmioBase fuel dev haveNotify).run eventRegister fifo
      = (some ((pollLoop dev haveNotify fifo).1, (pollLoop dev haveNotify fifo).2.1),
          (pollLoop dev haveNotify fifo).2.2) := by
  obtain ⟨fuel, rfl⟩ : ∃ k, fuel = k + 1 := ⟨fuel - 1, by omega⟩
  fun_induction pollLoop dev haveNotify fifo generalizing fuel with
  | case1 dev haveNotify => rfl
  | case2 dev haveNotify => rfl
  | case3 dev haveNotify type hne =>
      obtain ⟨fuel, rfl⟩ := fuel_of_length_cons hfuel
      rw [pollRegister_run_succ, List.headD_cons, if_neg hne]
      rfl
  | case4 dev haveNotify code => rfl
  | case5 dev haveNotify type code hne =>
      obtain ⟨fuel, rfl⟩ := fuel_of_length_cons hfuel
      rw [pollRegister_run_succ, List.headD_cons, if_neg hne]
      rfl
  | case6 dev haveNotify code value rest => rfl
  | case7 dev haveNotify type code value rest hne polled =>
      rename_i ih
      obtain ⟨fuel, rfl⟩ := fuel_of_length_cons hfuel
      rw [pollRegister_run_succ, List.headD_cons, if_neg hne]
      refine ih fuel ?_
      simp only [List.length_cons] at hfuel
      omega

theorem drainRegister_run_succ (mmioBase : UINT64) (fuel : Nat) (fifo : List UINT32) :
    (drainRegister mmioBase (fuel + 1)).run eventRegister fifo
      = if fifo.headD 0 = 0 then (true, fifo.tail) else
          (drainRegister mmioBase fuel).run eventRegister fifo.tail.tail.tail := by
  rw [drainRegister]
  show (if fifo.headD 0 = 0 then _ else _ : DriverM _).run eventRegister fifo.tail = _
  split
  · rfl
  · rfl

/-- With fuel for all its words the loop on the registers is `drainLoop`. -/
theorem drainRegister_run (mmioBase : UINT64) (fifo : List UINT32) {fuel : Nat}
    (hfuel : fifo.length < fuel) :
    (drainRegister mmioBase fuel).run eventRegister fifo = (true, drainLoop fifo) := by
  obtain ⟨fuel, rfl⟩ : ∃ k, fuel = k + 1 := ⟨fuel - 1, by omega⟩
  fun_induction drainLoop fifo generalizing fuel with
  | case1 => rfl
  | case2 type =>
      obtain ⟨fuel, rfl⟩ := fuel_of_length_cons hfuel
      rw [drainRegister_run_succ, List.headD_cons]
      split
      · rfl
      · rfl
  | case3 code => rfl
  | case4 type code hne =>
      obtain ⟨fuel, rfl⟩ := fuel_of_length_cons hfuel
      rw [drainRegister_run_succ, List.headD_cons, if_neg hne]
      rfl
  | case5 code value rest => rfl
  | case6 type code value rest hne ih =>
      obtain ⟨fuel, rfl⟩ := fuel_of_length_cons hfuel
      rw [drainRegister_run_succ, List.headD_cons, if_neg hne]
      refine ih fuel ?_
      simp only [List.length_cons] at hfuel
      omega

end UemuPkg
