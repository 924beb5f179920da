/-
  UemuPkg.Library.GoldfishRealTimeClockLib.VirtualMode

  The clock as a runtime service.  Until `SetVirtualAddressMap` the CPU uses physical
  addresses; from then on it uses those of the operating system, and `VirtualNotifyEvent`
  has converted the one address that the library keeps.  For the caller nothing changes.
-/

import UemuPkg.Drivers.RegisterAccess
import UemuPkg.Generic.Machine
import UemuPkg.Library.GoldfishRealTimeClockLib.RoundTrip

namespace UemuPkg

/-- The addresses of the operating system. -/
structure AddressMap where
  /-- `gRT->ConvertPointer` -/
  convertPointer : UINT64 → UINT64
  /-- The physical address behind a virtual one, where one is mapped. -/
  translate : UINT64 → Option UINT64

/-- The `size` bytes from `start` on are mapped as one block, and `ConvertPointer` knows it. -/
def AddressMap.MapsBlock (map : AddressMap) (start size : UINT64) : Prop :=
  ∃ virtualStart, ∀ offset : UINT64, offset.toNat < size.toNat →
    map.convertPointer (start + offset) = virtualStart + offset ∧
      map.translate (virtualStart + offset) = some (start + offset)

-- ============================================================================
-- The bus
-- ============================================================================

/-- The registers of the device, and whether an access has gone to an address behind which
    there is nothing. -/
structure RtcBus where
  regs : RtcRegisters
  fault : Bool

def RtcBus.read (base : UINT64) (bus : RtcBus) : Option UINT64 → UINT32 × RtcBus
  | some physical => (bus.regs.read base physical, bus)
  | none => (0, { bus with fault := true })

def RtcBus.write (base : UINT64) (bus : RtcBus) (value : UINT32) : Option UINT64 → RtcBus
  | some physical => { bus with regs := bus.regs.write base physical value }
  | none => { bus with fault := true }

/-- The device at the physical address `base`, accessed through an address translation. -/
def translatedDevice (translate : UINT64 → Option UINT64) (base : UINT64) (bus : RtcBus) :
    (call : DriverCall) → call.Result × RtcBus
  | .mmioRead32 address => bus.read base (translate address)
  | .mmioWrite32 address value => ((), bus.write base value (translate address))
  | .addMemorySpace _ _ _ => (.success, bus)
  | .setMemorySpaceAttributes _ _ _ => (.success, bus)
  | .allocateZeroPool => (true, bus)
  | .install => (.success, bus)

/-- The library's address for the registers leads to the device. -/
structure RegistersAt (translate : UINT64 → Option UINT64) (mRtcRegisterBase base : UINT64) :
    Prop where
  low : translate (mRtcRegisterBase + GOLDFISH_RTC_TIME_LOW) = some (base + GOLDFISH_RTC_TIME_LOW)
  high : translate (mRtcRegisterBase + GOLDFISH_RTC_TIME_HIGH)
    = some (base + GOLDFISH_RTC_TIME_HIGH)

variable {translate : UINT64 → Option UINT64} {mRtcRegisterBase base : UINT64}

theorem getTimeRegisters_translated (h : RegistersAt translate mRtcRegisterBase base)
    (lib : TimeBaseLib) (bus : RtcBus) (time : Option EfiTime)
    (capabilities : Option EfiTimeCapabilities) :
    (getTimeRegisters lib mRtcRegisterBase time capabilities).run
      (translatedDevice translate base) bus = (libGetTime lib bus.regs time capabilities, bus) := by
  cases time with
  | none => rfl
  | some time =>
      let low := bus.read base (translate (mRtcRegisterBase + GOLDFISH_RTC_TIME_LOW))
      let high := low.2.read base (translate (mRtcRegisterBase + GOLDFISH_RTC_TIME_HIGH))
      show (libGetTime lib { timeLow := low.1, timeHigh := high.1 } (some time) capabilities,
        high.2) = _
      have hlow : low = (bus.regs.timeLow, bus) := by
        show bus.read base _ = _
        rw [h.low, RtcBus.read, RtcRegisters.read_low]
      have hhigh : high = (bus.regs.timeHigh, bus) := by
        show low.2.read base _ = _
        rw [hlow, h.high, RtcBus.read, RtcRegisters.read_high]
      rw [hlow, hhigh]

theorem setTimeRegisters_translated (h : RegistersAt translate mRtcRegisterBase base)
    (lib : TimeBaseLib) (bus : RtcBus) (time : Option EfiTime) :
    (setTimeRegisters lib mRtcRegisterBase time).run (translatedDevice translate base) bus
      = ((libSetTime lib bus.regs time).1,
          { bus with regs := (libSetTime lib bus.regs time).2 }) := by
  cases time with
  | none => rfl
  | some time =>
      let set := (libSetTime lib { timeLow := 0, timeHigh := 0 } (some time)).2
      show (EfiStatus.success,
        (bus.write base set.timeLow (translate (mRtcRegisterBase + GOLDFISH_RTC_TIME_LOW))).write
          base set.timeHigh (translate (mRtcRegisterBase + GOLDFISH_RTC_TIME_HIGH))) = _
      rw [h.low, h.high, RtcBus.write, RtcBus.write, RtcRegisters.write_low,
        RtcRegisters.write_high]
      rfl

-- ============================================================================
-- The runtime
-- ============================================================================

/-- The calls of the operating system and of the firmware, in any order. -/
inductive RtcCall where
  | getTime (time : Option EfiTime) (capabilities : Option EfiTimeCapabilities)
  | setTime (time : Option EfiTime)
  | setVirtualAddressMap

/-- What the clock answers. -/
inductive RtcAnswer where
  | time (status : EfiStatus) (time : Option EfiTime) (capabilities : Option EfiTimeCapabilities)
  | status (status : EfiStatus)
  | none
  deriving DecidableEq

/-- The library's variable, the addressing mode and the device. -/
structure RtcRuntime where
  mRtcRegisterBase : UINT64
  virtualMode : Bool
  bus : RtcBus

/-- `VirtualNotifyEvent`. -/
def virtualNotifyEvent (map : AddressMap) (s : RtcRuntime) : RtcRuntime :=
  { s with mRtcRegisterBase := map.convertPointer s.mRtcRegisterBase }

/-- The translation in use. -/
def RtcRuntime.mmu (map : AddressMap) (s : RtcRuntime) : UINT64 → Option UINT64 :=
  if s.virtualMode then map.translate else some

/-- One call, on the device at `base`.  `SetVirtualAddressMap` works once: in virtual mode it
    is refused, and the event is not signalled again. -/
def RtcRuntime.next (map : AddressMap) (lib : TimeBaseLib) (base : UINT64) (s : RtcRuntime) :
    RtcCall → RtcRuntime
  | .getTime time capabilities =>
    { s with bus := ((getTimeRegisters lib s.mRtcRegisterBase time capabilities).run
        (translatedDevice (s.mmu map) base) s.bus).2 }
  | .setTime time =>
    { s with bus := ((setTimeRegisters lib s.mRtcRegisterBase time).run
        (translatedDevice (s.mmu map) base) s.bus).2 }
  | .setVirtualAddressMap =>
    if s.virtualMode then s else { virtualNotifyEvent map s with virtualMode := true }

/-- The answer to one call. -/
def RtcRuntime.answer (map : AddressMap) (lib : TimeBaseLib) (base : UINT64) (s : RtcRuntime) :
    RtcCall → RtcAnswer
  | .getTime time capabilities =>
    let result := ((getTimeRegisters lib s.mRtcRegisterBase time capabilities).run
      (translatedDevice (s.mmu map) base) s.bus).1
    .time result.1 result.2.1 result.2.2
  | .setTime time =>
    .status ((setTimeRegisters lib s.mRtcRegisterBase time).run
      (translatedDevice (s.mmu map) base) s.bus).1
  | .setVirtualAddressMap => .none

/-- The clock without addresses: its two registers. -/
def RtcRegisters.next (lib : TimeBaseLib) (regs : RtcRegisters) : RtcCall → RtcRegisters
  | .getTime _ _ => regs
  | .setTime time => (libSetTime lib regs time).2
  | .setVirtualAddressMap => regs

def RtcRegisters.answer (lib : TimeBaseLib) (regs : RtcRegisters) : RtcCall → RtcAnswer
  | .getTime time capabilities =>
    .time (libGetTime lib regs time capabilities).1 (libGetTime lib regs time capabilities).2.1
      (libGetTime lib regs time capabilities).2.2
  | .setTime time => .status (libSetTime lib regs time).1
  | .setVirtualAddressMap => .none

/-- The state that `LibRtcInitialize` leaves. -/
def bootRuntime (m : MmioMapping) (regs : RtcRegisters) : RtcRuntime where
  mRtcRegisterBase := m.base
  virtualMode := false
  bus := { regs, fault := false }

-- ============================================================================
-- The address that is kept
-- ============================================================================

variable {map : AddressMap} {lib : TimeBaseLib} {m : MmioMapping} {s : RtcRuntime}
  {regs : RtcRegisters}

/-- The library's address is the physical one before the change of mode and its conversion
    after it, and the device holds `regs`. -/
structure Serves (map : AddressMap) (base : UINT64) (s : RtcRuntime) (regs : RtcRegisters) :
    Prop where
  kept : s.mRtcRegisterBase = if s.virtualMode then map.convertPointer base else base
  bus : s.bus = { regs, fault := false }

/-- An offset below the last register's end stays in the pages that were registered. -/
theorem MmioMapping.Covers.offset_lt {minSize : UINT64} (h : m.Covers minSize) {offset : UINT64}
    (hoffset : offset.toNat < minSize.toNat) :
    (m.base - m.gcdBase + offset).toNat < m.gcdSize.toNat := by
  have hsize := h.size_le
  have hbase := h.gcdBase_le
  have hend := h.le_gcdEnd
  have htop := h.gcdEnd_lt
  have hsub : (m.base - m.gcdBase).toNat = m.base.toNat - m.gcdBase.toNat :=
    BitVec.toNat_sub_of_le (BitVec.le_def.mpr hbase)
  rw [BitVec.toNat_add, hsub, Nat.mod_eq_of_lt (by omega)]
  omega

/-- After the conversion every register is behind the address that its offset gives. -/
theorem AddressMap.MapsBlock.register (hmap : map.MapsBlock m.gcdBase m.gcdSize)
    (h : m.Covers goldfishRtc.minSize) {offset : UINT64}
    (hoffset : offset.toNat < goldfishRtc.minSize.toNat) :
    map.translate (map.convertPointer m.base + offset) = some (m.base + offset) := by
  obtain ⟨virtualStart, hblock⟩ := hmap
  have hphysical : ∀ o : UINT64, m.gcdBase + (m.base - m.gcdBase + o) = m.base + o := by
    intro o
    rw [← BitVec.add_assoc, BitVec.add_comm m.gcdBase, BitVec.sub_add_cancel]
  have hpos : (0#64).toNat < goldfishRtc.minSize.toNat := by
    show 0 < 32
    omega
  have hzero := (hblock _ (h.offset_lt hpos)).1
  have hreg := (hblock _ (h.offset_lt hoffset)).2
  rw [hphysical] at hzero hreg
  rw [BitVec.add_zero, BitVec.add_zero] at hzero
  rw [hzero, BitVec.add_assoc, hreg]

theorem Serves.registersAt (hserves : Serves map m.base s regs)
    (hmap : map.MapsBlock m.gcdBase m.gcdSize) (h : m.Covers goldfishRtc.minSize) :
    RegistersAt (s.mmu map) s.mRtcRegisterBase m.base := by
  have hkept := hserves.kept
  cases hmode : s.virtualMode with
  | false =>
      rw [hmode] at hkept
      have hmmu : s.mmu map = some := by simp [RtcRuntime.mmu, hmode]
      rw [hmmu, hkept]
      exact ⟨rfl, rfl⟩
  | true =>
      rw [hmode] at hkept
      have hmmu : s.mmu map = map.translate := by simp [RtcRuntime.mmu, hmode]
      rw [hmmu, hkept]
      have hlow : GOLDFISH_RTC_TIME_LOW.toNat < goldfishRtc.minSize.toNat := by
        show 0 < 32
        omega
      have hhigh : GOLDFISH_RTC_TIME_HIGH.toNat < goldfishRtc.minSize.toNat := by
        show 4 < 32
        omega
      exact ⟨hmap.register h hlow, hmap.register h hhigh⟩

/-- One call keeps the address. -/
theorem Serves.next (hserves : Serves map m.base s regs)
    (hmap : map.MapsBlock m.gcdBase m.gcdSize) (h : m.Covers goldfishRtc.minSize)
    (call : RtcCall) :
    Serves map m.base (s.next map lib m.base call) (regs.next lib call) := by
  have hat := hserves.registersAt hmap h
  cases call with
  | getTime time capabilities =>
      refine ⟨hserves.kept, ?_⟩
      show ((getTimeRegisters lib s.mRtcRegisterBase time capabilities).run _ _).2 = _
      rw [getTimeRegisters_translated hat]
      exact hserves.bus
  | setTime time =>
      refine ⟨hserves.kept, ?_⟩
      show ((setTimeRegisters lib s.mRtcRegisterBase time).run _ _).2 = _
      rw [setTimeRegisters_translated hat, hserves.bus]
      rfl
  | setVirtualAddressMap =>
      rw [RtcRuntime.next, RtcRegisters.next]
      split
      · exact hserves
      · rename_i hphysical
        have hkept : s.mRtcRegisterBase = m.base := hserves.kept.trans (if_neg hphysical)
        refine ⟨?_, hserves.bus⟩
        show map.convertPointer s.mRtcRegisterBase = map.convertPointer m.base
        rw [hkept]

/-- One call is answered as by the registers alone. -/
theorem Serves.answer (hserves : Serves map m.base s regs)
    (hmap : map.MapsBlock m.gcdBase m.gcdSize) (h : m.Covers goldfishRtc.minSize)
    (call : RtcCall) : s.answer map lib m.base call = regs.answer lib call := by
  have hat := hserves.registersAt hmap h
  have hregs : s.bus.regs = regs := by rw [hserves.bus]
  cases call with
  | getTime time capabilities =>
      rw [RtcRuntime.answer, getTimeRegisters_translated hat, hregs]
      rfl
  | setTime time =>
      rw [RtcRuntime.answer, setTimeRegisters_translated hat, hregs]
      rfl
  | setVirtualAddressMap => rfl

-- ============================================================================
-- The clock across the change of mode
-- ============================================================================

/-- In any order of calls, with the change to virtual addresses anywhere among them, the clock
    answers as its two registers alone do, no access goes astray, and at the end the
    device holds what the calls have set. -/
theorem rtc_survives_setVirtualAddressMap {hob : Option FdtHob} {fuel : Nat}
    (hmapping : goldfishRtc.mapping hob fuel = some (.ok m))
    (hmap : map.MapsBlock m.gcdBase m.gcdSize) (lib : TimeBaseLib) (regs : RtcRegisters)
    (calls : List RtcCall) :
    Machine.answers (RtcRuntime.next map lib m.base) (RtcRuntime.answer map lib m.base)
        (bootRuntime m regs) calls
      = Machine.answers (RtcRegisters.next lib) (RtcRegisters.answer lib) regs calls ∧
    (calls.foldl (RtcRuntime.next map lib m.base) (bootRuntime m regs)).bus
      = { regs := calls.foldl (RtcRegisters.next lib) regs, fault := false } := by
  have hcovers : m.Covers goldfishRtc.minSize := mapMmioRange_covers hmapping
  have hboot : Serves map m.base (bootRuntime m regs) regs := ⟨rfl, rfl⟩
  obtain ⟨hanswers, hend⟩ := Machine.answers_eq_of_simulation (Serves map m.base)
    (fun _ _ call hserves => hserves.next hmap hcovers call)
    (fun _ _ call hserves => hserves.answer hmap hcovers call) hboot calls
  exact ⟨hanswers, hend.bus⟩

/-- The `size` bytes at `start`, seen at `virtualStart`, and nothing else. -/
def blockMap (start size virtualStart : UINT64) : AddressMap where
  convertPointer address := virtualStart + (address - start)
  translate address :=
    if address - virtualStart < size then some (start + (address - virtualStart)) else none

theorem blockMap_mapsBlock (start size virtualStart : UINT64) :
    (blockMap start size virtualStart).MapsBlock start size := by
  refine ⟨virtualStart, fun offset hoffset => ?_⟩
  have hback : ∀ address : UINT64, address + offset - address = offset := by
    intro address
    rw [BitVec.add_comm, BitVec.add_sub_cancel]
  constructor
  · show virtualStart + (start + offset - start) = virtualStart + offset
    rw [hback]
  · have hinside : virtualStart + offset - virtualStart < size := by
      rw [hback]
      exact hoffset
    show (if virtualStart + offset - virtualStart < size then _ else none) = _
    rw [if_pos hinside, hback]

/-- Setting the clock in physical mode and reading it in virtual mode. -/
theorem rtc_survives_setVirtualAddressMap_set_get :
    let map := blockMap 0x101000 0x1000 0xFFFF800000000000
    let lib := gregorianTimeBaseLib
    let m : MmioMapping :=
      { base := 0x101008, size := 0x44, gcdBase := 0x101000, gcdSize := 0x1000 }
    let date := some (newYear2024 0)
    let set := (libSetTime lib ⟨0, 0⟩ date).2
    let calls := [RtcCall.setTime date, .setVirtualAddressMap, .getTime date none]
    Machine.answers (RtcRuntime.next map lib m.base) (RtcRuntime.answer map lib m.base)
        (bootRuntime m ⟨0, 0⟩) calls
      = [.status .success, .none, .time (libGetTime lib set date none).1
          (libGetTime lib set date none).2.1 (libGetTime lib set date none).2.2] ∧
    (calls.foldl (RtcRuntime.next map lib m.base) (bootRuntime m ⟨0, 0⟩)).bus
      = { regs := set, fault := false } := by
  intro map lib m date set calls
  have hmapping : goldfishRtc.mapping (some (sampleHob batteryReg)) 1 = some (.ok m) := rfl
  exact rtc_survives_setVirtualAddressMap hmapping (blockMap_mapsBlock _ _ _) lib ⟨0, 0⟩ calls

end UemuPkg
