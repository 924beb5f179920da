/-
  UemuPkg.Drivers.SimpleFbDxe.FrameBuffer

  An accepted framebuffer is addressable: the checks of `GetSimpleFrameBuffer` accept a
  geometry exactly if its rows fit into the range of the node, and then every pixel of
  the mode that `SimpleFbDxeInitialize` publishes has four bytes of its own in the range.
-/

import UemuPkg.Drivers.SimpleFbDxe.Model
import UemuPkg.Generic.Protocol
import UemuPkg.Generic.Raster

namespace UemuPkg

open Effects (Program Protocol)
open Raster (offset)

/-- The format the driver supports, with its NUL. -/
def x8r8g8b8 : List UINT8 := ascii ['x', '8', 'r', '8', 'g', '8', 'b', '8'] ++ [0]

variable {fb : FrameBuffer} {format : List UINT8}

-- ============================================================================
-- The checks
-- ============================================================================

/-- The geometry, over the integers: rows that hold their pixels, and a range that holds
    the rows. -/
structure FrameBuffer.Fits (fb : FrameBuffer) : Prop where
  width_pos : 1 ≤ fb.width.toNat
  height_pos : 1 ≤ fb.height.toNat
  stride_dvd : 4 ∣ fb.stride.toNat
  row_le : 4 * fb.width.toNat ≤ fb.stride.toNat
  rows_le : fb.stride.toNat * fb.height.toNat ≤ fb.size.toNat

theorem multU64x32_toNat (stride height : UINT32) :
    (multU64x32 (stride.setWidth 64) height).toNat = stride.toNat * height.toNat := by
  have hstride := stride.isLt
  have hheight := height.isLt
  have hmul : stride.toNat * height.toNat < 2 ^ 32 * 2 ^ 32 := Nat.mul_lt_mul'' hstride hheight
  rw [multU64x32, BitVec.toNat_mul, toNat_registerOffset, toNat_registerOffset,
    Nat.mod_eq_of_lt (by omega)]

/-- The checks before the division say that the rows hold their pixels. -/
theorem rows_guard (fb : FrameBuffer) :
    (fb.width = 0 ∨ fb.height = 0 ∨ fb.stride % FB_BYTES_PER_PIXEL ≠ 0 ∨
      fb.width > MAX_UINT32 / FB_BYTES_PER_PIXEL ∨
      fb.stride < fb.width * FB_BYTES_PER_PIXEL) ↔
    ¬ (1 ≤ fb.width.toNat ∧ 1 ≤ fb.height.toNat ∧ 4 ∣ fb.stride.toNat ∧
      4 * fb.width.toNat ≤ fb.stride.toNat) := by
  have hstride := fb.stride.isLt
  have hwidth : fb.width = 0 ↔ fb.width.toNat = 0 := BitVec.toNat_inj.symm
  have hheight : fb.height = 0 ↔ fb.height.toNat = 0 := BitVec.toNat_inj.symm
  have hdvd : fb.stride % FB_BYTES_PER_PIXEL = 0 ↔ 4 ∣ fb.stride.toNat := by
    rw [← BitVec.toNat_inj, BitVec.toNat_umod, Nat.dvd_iff_mod_eq_zero]
    rfl
  have hlimit : fb.width > MAX_UINT32 / FB_BYTES_PER_PIXEL ↔ 2 ^ 32 ≤ 4 * fb.width.toNat := by
    have hmax : (MAX_UINT32 / FB_BYTES_PER_PIXEL).toNat = 2 ^ 30 - 1 := by decide
    rw [gt_iff_lt, BitVec.lt_def, hmax]
    omega
  have hrow : fb.stride < fb.width * FB_BYTES_PER_PIXEL ↔
      fb.stride.toNat < fb.width.toNat * 4 % 2 ^ 32 := by
    rw [BitVec.lt_def, BitVec.toNat_mul]
    rfl
  rw [hwidth, hheight, ne_eq, hdvd, hlimit, hrow]
  omega

/-- The division is by a stride that the checks before it have shown not to be 0; it
    refuses no height, since a height is far below its result. -/
theorem maxHeight_eq (stride height : UINT32) (hstride : stride.toNat ≠ 0) :
    ∃ maxHeight, divU64 MAX_UINT64 (stride.setWidth 64) = some maxHeight ∧
      ¬ height.setWidth 64 > maxHeight := by
  have hne : stride.setWidth 64 ≠ 0 := by
    intro h0
    have h0 := congrArg BitVec.toNat h0
    rw [toNat_registerOffset] at h0
    exact hstride h0
  refine ⟨_, if_neg hne, ?_⟩
  have hlt := stride.isLt
  have hheight := height.isLt
  have hmax : 2 ^ 32 ≤ (2 ^ 64 - 1) / stride.toNat :=
    (Nat.le_div_iff_mul_le (by omega)).mpr (by omega)
  rw [gt_iff_lt, BitVec.lt_def, BitVec.toNat_udiv, toNat_registerOffset, toNat_registerOffset,
    show MAX_UINT64.toNat = 2 ^ 64 - 1 from rfl]
  omega

/-- What the checks before the size check come to. -/
theorem geometryRejected_eq (fb : FrameBuffer) (format : List UINT8) :
    geometryRejected fb format = some (decide (¬ (1 ≤ fb.width.toNat ∧ 1 ≤ fb.height.toNat ∧
      4 ∣ fb.stride.toNat ∧ 4 * fb.width.toNat ≤ fb.stride.toNat)) ||
      !asciiStrEq format x8r8g8b8) := by
  rw [geometryRejected]
  by_cases hrows : 1 ≤ fb.width.toNat ∧ 1 ≤ fb.height.toNat ∧ 4 ∣ fb.stride.toNat ∧
      4 * fb.width.toNat ≤ fb.stride.toNat
  · obtain ⟨maxHeight, hdiv, hheight⟩ :=
      maxHeight_eq fb.stride fb.height (by omega)
    rw [if_neg (mt (rows_guard fb).mp (not_not_intro hrows)), hdiv, Option.map_some,
      decide_eq_false hheight, decide_eq_false (not_not_intro hrows)]
    rfl
  · rw [if_pos ((rows_guard fb).mpr hrows), decide_eq_true hrows, Bool.true_or]

/-- A string that `UemuFdtGetString` has accepted is the format if it compares equal. -/
theorem asciiStrEq_x8r8g8b8 (hne : format ≠ [])
    (hterminated : asciiStrnLenS format = format.length - 1) :
    asciiStrEq format x8r8g8b8 = true ↔ format = x8r8g8b8 := by
  refine ⟨?_, ?_⟩
  · intro heq
    rw [eq_concat_of_asciiStrnLenS hne hterminated]
    exact congrArg (· ++ [0]) (beq_iff_eq.mp heq)
  · rintro rfl
    rfl

/-- Of the three size checks only the first can hold. -/
theorem size_guard (fb : FrameBuffer) :
    (multU64x32 (fb.stride.setWidth 64) fb.height > fb.size ∨
      multU64x32 (fb.stride.setWidth 64) fb.height > MAX_UINTN ∨ fb.base > MAX_UINTN) ↔
    ¬ fb.stride.toNat * fb.height.toNat ≤ fb.size.toNat := by
  have hsize := fb.size.isLt
  have hbase := fb.base.isLt
  rw [gt_iff_lt, gt_iff_lt, gt_iff_lt, BitVec.lt_def, BitVec.lt_def, BitVec.lt_def,
    multU64x32_toNat, show MAX_UINTN.toNat = 2 ^ 64 - 1 from rfl]
  omega

/-- The checks divide by 0 for no values, and accept exactly what fits. -/
theorem checkFrameBuffer_cases (fb : FrameBuffer) (format : List UINT8) :
    (checkFrameBuffer fb format = .found fb ∧ fb.Fits ∧ asciiStrEq format x8r8g8b8 = true) ∨
      (∃ status, status ≠ .success ∧ checkFrameBuffer fb format = .failed status) ∧
        ¬ (fb.Fits ∧ asciiStrEq format x8r8g8b8 = true) := by
  rw [checkFrameBuffer, geometryRejected_eq]
  by_cases hrows : 1 ≤ fb.width.toNat ∧ 1 ≤ fb.height.toNat ∧ 4 ∣ fb.stride.toNat ∧
      4 * fb.width.toNat ≤ fb.stride.toNat
  · rw [decide_eq_false (not_not_intro hrows), Bool.false_or]
    cases hformat : asciiStrEq format x8r8g8b8 with
    | false => exact .inr ⟨⟨.compromisedData, by decide, rfl⟩, fun h => nomatch h.2⟩
    | true =>
        dsimp only [Bool.not_true]
        by_cases hfits : fb.stride.toNat * fb.height.toNat ≤ fb.size.toNat
        · rw [if_neg (mt (size_guard fb).mp (not_not_intro hfits))]
          obtain ⟨hwidth, hheight, hdvd, hrow⟩ := hrows
          exact .inl ⟨rfl, ⟨hwidth, hheight, hdvd, hrow, hfits⟩, rfl⟩
        · rw [if_pos ((size_guard fb).mpr hfits)]
          exact .inr ⟨⟨.badBufferSize, by decide, rfl⟩, fun h => hfits h.1.rows_le⟩
  · rw [decide_eq_true hrows, Bool.true_or]
    refine .inr ⟨⟨.compromisedData, by decide, rfl⟩, ?_⟩
    rintro ⟨hfits, -⟩
    exact hrows ⟨hfits.width_pos, hfits.height_pos, hfits.stride_dvd, hfits.row_le⟩

-- ============================================================================
-- What is read
-- ============================================================================

/-- `GetSimpleFrameBuffer` finds a node and reads these values from it. -/
def ReadsFrameBuffer (hob : Option FdtHob) (fuel : Nat) (fb : FrameBuffer)
    (format : List UINT8) : Prop :=
  ∃ fdt node, uemuFdtGet hob (some none) = (.success, some (some fdt)) ∧
    uemuFdtFindCompatibleNode (some fdt) (some "simple-framebuffer") (some 0) fuel
      = some (.success, some node) ∧
    readReg fdt.toFdt node 0 = .ok (fb.base, fb.size) ∧
    readU32 fdt.toFdt node "width" = .ok fb.width ∧
    readU32 fdt.toFdt node "height" = .ok fb.height ∧
    readU32 fdt.toFdt node "stride" = .ok fb.stride ∧
    readString fdt.toFdt node "format" = .ok format

/-- A string that is read is not empty and ends with its only NUL. -/
theorem readString_ok {fdt : Fdt} {node : Int} {property : String}
    (h : readString fdt node property = .ok format) :
    format ≠ [] ∧ asciiStrnLenS format = format.length - 1 := by
  rw [readString, uemuFdtGetString] at h
  cases hdata : fdt.getProp node property with
  | none =>
      rw [hdata] at h
      cases h
  | some data =>
      rw [hdata] at h
      dsimp only at h
      split at h
      · rename_i hguard
        split at hguard
        · cases hguard
        · rename_i hterminated
          obtain ⟨hpos, hlen⟩ := not_or.mp hterminated
          cases hguard
          obtain rfl := Except.ok.inj h
          refine ⟨?_, Decidable.not_not.mp hlen⟩
          intro h0
          exact hpos (by rw [h0]; exact Nat.le_refl 0)
      · cases h

theorem ReadsFrameBuffer.format_eq_iff {hob : Option FdtHob} {fuel : Nat}
    (h : ReadsFrameBuffer hob fuel fb format) :
    asciiStrEq format x8r8g8b8 = true ↔ format = x8r8g8b8 := by
  obtain ⟨fdt, node, -, -, -, -, -, -, hformat⟩ := h
  obtain ⟨hne, hterminated⟩ := readString_ok hformat
  exact asciiStrEq_x8r8g8b8 hne hterminated

/-- What is read is checked. -/
theorem ReadsFrameBuffer.getSimpleFrameBuffer {hob : Option FdtHob} {fuel : Nat}
    (h : ReadsFrameBuffer hob fuel fb format) :
    getSimpleFrameBuffer hob fuel = some (checkFrameBuffer fb format) := by
  obtain ⟨fdt, node, hget, hfind, hreg, hwidth, hheight, hstride, hformat⟩ := h
  rw [UemuPkg.getSimpleFrameBuffer, hget]
  dsimp only
  rw [hfind, Option.map_some]
  dsimp only
  rw [readFrameBuffer, hreg, hwidth, hheight, hstride, hformat]
  rfl

/-- The values of a successful read, one by one. -/
theorem readFrameBuffer_ok {fdt : Fdt} {node : Int}
    (h : readFrameBuffer fdt node = .ok (fb, format)) :
    readReg fdt node 0 = .ok (fb.base, fb.size) ∧ readU32 fdt node "width" = .ok fb.width ∧
      readU32 fdt node "height" = .ok fb.height ∧ readU32 fdt node "stride" = .ok fb.stride ∧
      readString fdt node "format" = .ok format := by
  rw [readFrameBuffer] at h
  cases hreg : readReg fdt node 0 with
  | error status => rw [hreg] at h; cases h
  | ok range =>
  cases hwidth : readU32 fdt node "width" with
  | error status => rw [hreg, hwidth] at h; cases h
  | ok width =>
  cases hheight : readU32 fdt node "height" with
  | error status => rw [hreg, hwidth, hheight] at h; cases h
  | ok height =>
  cases hstride : readU32 fdt node "stride" with
  | error status => rw [hreg, hwidth, hheight, hstride] at h; cases h
  | ok stride =>
  cases hformat : readString fdt node "format" with
  | error status => rw [hreg, hwidth, hheight, hstride, hformat] at h; cases h
  | ok text =>
      rw [hreg, hwidth, hheight, hstride, hformat] at h
      obtain ⟨rfl, rfl⟩ := Prod.mk.inj (Except.ok.inj h)
      exact ⟨rfl, rfl, rfl, rfl, rfl⟩

/-- Either `GetSimpleFrameBuffer` fails on the way to the values, or it checks them. -/
theorem getSimpleFrameBuffer_cases {hob : Option FdtHob} {fuel : Nat}
    {lookup : FrameBufferLookup} (h : getSimpleFrameBuffer hob fuel = some lookup) :
    (∃ status, lookup = .failed status) ∨
      ∃ fb format, ReadsFrameBuffer hob fuel fb format ∧ lookup = checkFrameBuffer fb format := by
  rw [getSimpleFrameBuffer] at h
  split at h
  · rename_i fdt hget
    obtain ⟨found, hfind, hfound⟩ := Option.map_eq_some_iff.mp h
    split at hfound
    · rename_i node
      split at hfound
      · exact .inl ⟨_, hfound.symm⟩
      · rename_i fb format hread
        exact .inr ⟨fb, format, ⟨fdt, node, hget, hfind, readFrameBuffer_ok hread⟩, hfound.symm⟩
    · exact .inl ⟨_, hfound.symm⟩
  · exact .inl ⟨_, (Option.some.inj h).symm⟩

/-- The range that is read does not wrap. -/
theorem ReadsFrameBuffer.no_wrap {hob : Option FdtHob} {fuel : Nat}
    (h : ReadsFrameBuffer hob fuel fb format) :
    fb.base.toNat + fb.size.toNat ≤ 2 ^ 64 - 1 := by
  obtain ⟨fdt, node, -, -, hreg, -⟩ := h
  exact (readReg_no_wrap hreg).2

-- ============================================================================
-- Pixels
-- ============================================================================

/-- The address of the pixel in column `x` of row `y`, as a client of the mode finds it. -/
def DisplayMode.pixelAddress (mode : DisplayMode) (x y : Nat) : UINT64 :=
  mode.frameBufferBase + 4 * (BitVec.setWidth 64 mode.info.pixelsPerScanLine * BitVec.ofNat 64 y
    + BitVec.ofNat 64 x)

/-- Every pixel of the mode has four bytes of its own among the rows of `fb`, counted
    without wrap-around. -/
structure FrameBuffer.Addresses (fb : FrameBuffer) (mode : DisplayMode) : Prop where
  horizontalResolution : mode.info.horizontalResolution = fb.width
  verticalResolution : mode.info.verticalResolution = fb.height
  pixelAddress : ∀ x y, x < fb.width.toNat → y < fb.height.toNat →
    (mode.pixelAddress x y).toNat
      = fb.base.toNat + 4 * (fb.stride.toNat / 4 * y + x)
  inside : ∀ x y, x < fb.width.toNat → y < fb.height.toNat →
    fb.base.toNat ≤ (mode.pixelAddress x y).toNat ∧
      (mode.pixelAddress x y).toNat + 4
        ≤ fb.base.toNat + fb.stride.toNat * fb.height.toNat
  disjoint : ∀ x y x' y', x < fb.width.toNat → y < fb.height.toNat →
    x' < fb.width.toNat → y' < fb.height.toNat → (x, y) ≠ (x', y') →
    (mode.pixelAddress x y).toNat + 4 ≤ (mode.pixelAddress x' y').toNat ∨
      (mode.pixelAddress x' y').toNat + 4 ≤ (mode.pixelAddress x y).toNat

/-- The calls that keep to the range of the framebuffer. -/
def FrameBuffer.Allows (fb : FrameBuffer) : DisplayCall → Prop
  | .zeroMem buffer length =>
    buffer = fb.base ∧ length.toNat = fb.stride.toNat * fb.height.toNat ∧
      buffer.toNat + length.toNat ≤ fb.base.toNat + fb.size.toNat
  | .installDisplay mode => fb.Addresses mode
  | .frameBufferBltConfigure frameBuffer info _ =>
    frameBuffer = fb.displayMode.frameBufferBase ∧ info = fb.displayMode.info
  | .setMemoryAttributes baseAddress length _ => alignRange fb.base fb.size = .ok (baseAddress, length)
  | .allocateMode => True
  | .locateCpuArch => True
  | .allocatePool _ => True

/-- A row is a whole number of pixels, so the scan line of the mode is the stride. -/
theorem FrameBuffer.Fits.offset_eq (h : fb.Fits) (x y : Nat) :
    offset 4 fb.stride.toNat x y = 4 * (fb.stride.toNat / 4 * y + x) := by
  have hstride : 4 * (fb.stride.toNat / 4) = fb.stride.toNat := Nat.mul_div_cancel' h.stride_dvd
  rw [offset, Nat.mul_add, ← Nat.mul_assoc, hstride]

theorem DisplayMode.pixelAddress_toNat {mode : DisplayMode} {x y : Nat}
    (hfits : mode.frameBufferBase.toNat + 4 * (mode.info.pixelsPerScanLine.toNat * y + x)
      < 2 ^ 64) :
    (mode.pixelAddress x y).toNat
      = mode.frameBufferBase.toNat + 4 * (mode.info.pixelsPerScanLine.toNat * y + x) := by
  have hword : mode.pixelAddress x y = BitVec.ofNat 64
      (mode.frameBufferBase.toNat + 4 * (mode.info.pixelsPerScanLine.toNat * y + x)) := by
    rw [BitVec.ofNat_add, BitVec.ofNat_toNat, BitVec.setWidth_eq, BitVec.ofNat_mul,
      BitVec.ofNat_add, BitVec.ofNat_mul, BitVec.ofNat_toNat]
    rfl
  rw [hword, BitVec.toNat_ofNat, Nat.mod_eq_of_lt hfits]

theorem FrameBuffer.displayMode_scanLine (fb : FrameBuffer) :
    fb.displayMode.info.pixelsPerScanLine.toNat = fb.stride.toNat / 4 := BitVec.toNat_udiv

/-- A pixel of the published mode begins where the raster has it. -/
theorem FrameBuffer.Fits.pixelAddress (h : fb.Fits)
    (hend : fb.base.toNat + fb.size.toNat ≤ 2 ^ 64 - 1) {x y : Nat}
    (hx : x < fb.width.toNat) (hy : y < fb.height.toNat) :
    (fb.displayMode.pixelAddress x y).toNat = fb.base.toNat + offset 4 fb.stride.toNat x y := by
  have hrows := h.rows_le
  have hinside := Raster.offset_add_le h.row_le hx hy
  rw [h.offset_eq] at hinside ⊢
  rw [← fb.displayMode_scanLine] at hinside ⊢
  have hbase : fb.displayMode.frameBufferBase = fb.base := rfl
  rw [DisplayMode.pixelAddress_toNat (by rw [hbase]; omega), hbase]

/-- The published mode is addressable. -/
theorem FrameBuffer.Fits.addresses (h : fb.Fits)
    (hend : fb.base.toNat + fb.size.toNat ≤ 2 ^ 64 - 1) : fb.Addresses fb.displayMode where
  horizontalResolution := rfl
  verticalResolution := rfl
  pixelAddress := by
    intro x y hx hy
    rw [h.pixelAddress hend hx hy, h.offset_eq]
  inside := by
    intro x y hx hy
    have hinside := Raster.offset_add_le h.row_le hx hy
    rw [h.pixelAddress hend hx hy]
    omega
  disjoint := by
    intro x y x' y' hx hy hx' hy' hne
    have hdisjoint := Raster.disjoint_of_ne h.row_le hx hx' hne
    rw [h.pixelAddress hend hx hy, h.pixelAddress hend hx' hy']
    omega

-- ============================================================================
-- The entry point
-- ============================================================================

theorem allocateModeIfNull_calls {p : DisplayCall → Prop} (hp : p .allocateMode)
    {isNull : Bool} {next : DisplayM EfiStatus} (hnext : next.Calls p) :
    (allocateModeIfNull isNull next).Calls p := by
  rw [allocateModeIfNull]
  split
  · refine .bind (Program.calls_perform hp) fun status => ?_
    split
    · exact Program.calls_ret _
    · exact hnext
  · exact hnext

theorem setSimpleFrameBufferMemoryAttributes_calls (fb : FrameBuffer) :
    (setSimpleFrameBufferMemoryAttributes fb.base fb.size).Calls fb.Allows := by
  rw [setSimpleFrameBufferMemoryAttributes]
  split
  · exact Program.calls_ret _
  · rename_i halign
    refine .bind (Program.calls_perform trivial) fun result => ?_
    obtain ⟨status, located⟩ := result
    dsimp only
    split
    · exact Program.calls_ret _
    · exact Program.calls_perform halign

theorem configureBlt_calls (fb : FrameBuffer) (configured : Bool) :
    (configureBlt fb.displayMode configured).Calls fb.Allows := by
  refine .bind (Program.calls_perform ⟨rfl, rfl⟩) fun result => ?_
  cases result with
  | status status => exact Program.calls_ret _
  | bufferTooSmall configureSize =>
      refine .bind (Program.calls_perform trivial) fun granted => ?_
      split
      · exact .bind (Program.calls_perform ⟨rfl, rfl⟩) fun _ => Program.calls_ret _
      · exact Program.calls_ret _

/-- The entry point keeps to the range of the framebuffer that it has found. -/
theorem startDisplay_calls (h : fb.Fits) (hend : fb.base.toNat + fb.size.toNat ≤ 2 ^ 64 - 1)
    (before : DisplayVariables) : (startDisplay before fb).Calls fb.Allows := by
  have hzero : fb.Allows (.zeroMem fb.base fb.displayMode.frameBufferSize) := by
    have hrows := h.rows_le
    have hsize : fb.displayMode.frameBufferSize.toNat = fb.stride.toNat * fb.height.toNat :=
      multU64x32_toNat fb.stride fb.height
    refine ⟨rfl, hsize, ?_⟩
    rw [hsize]
    omega
  refine allocateModeIfNull_calls trivial (allocateModeIfNull_calls trivial ?_)
  refine .bind (setSimpleFrameBufferMemoryAttributes_calls fb) fun _ => ?_
  refine .bind (configureBlt_calls fb _) fun _ => ?_
  refine .bind (Program.calls_perform hzero) fun _ => ?_
  exact Program.calls_perform (h.addresses hend)

/-- A call of the entry point and what it returned. -/
abbrev DisplayEntry := Effects.Entry DisplayCall DisplayCall.Result

/-- If the mode and its information are allocated, the last two calls clear the rows and
    install the display, with what the installation returns. -/
def FrameBuffer.Publishes (fb : FrameBuffer) (status : EfiStatus) (trace : List DisplayEntry) :
    Prop :=
  (∀ granted : EfiStatus, ⟨.allocateMode, granted⟩ ∈ trace → granted = .success) →
    ∃ earlier, trace = earlier ++
      [⟨.zeroMem fb.base fb.displayMode.frameBufferSize, ()⟩,
        ⟨.installDisplay fb.displayMode, status⟩]

theorem allocateModeIfNull_publishes {isNull : Bool} {next : DisplayM EfiStatus}
    (hnext : ∀ past, next.Keeps (.history fun _ _ => True) fb.Publishes past)
    (past : List DisplayEntry) :
    (allocateModeIfNull isNull next).Keeps (.history fun _ _ => True) fb.Publishes past := by
  cases isNull with
  | false => exact hnext past
  | true =>
      refine (Program.keeps_perform_bind _ _).mpr ⟨trivial, fun (status : EfiStatus) => ?_⟩
      cases status with
      | success => exact hnext _
      | _ => exact fun hgranted => absurd (hgranted _ List.mem_concat_self) (by decide)

/-- Nothing that the attributes and the configuration come to keeps the driver from
    publishing the display. -/
theorem publishDisplay_publishes (fb : FrameBuffer) (configured : Bool)
    (past : List DisplayEntry) :
    (publishDisplay fb configured).Keeps (.history fun _ _ => True) fb.Publishes past := by
  have hany {α : Type} (prog : DisplayM α) (past : List DisplayEntry) :
      prog.Keeps (.history fun _ _ => True) (fun _ _ => True) past :=
    (Program.calls_true prog).keeps (fun _ => True) (fun _ _ _ _ => trivial)
      (fun _ _ _ _ _ => trivial) trivial
  refine (Program.keeps_bind _ _).mpr ((hany _ past).mono fun _ attributes _ => ?_)
  refine (Program.keeps_bind _ _).mpr ((hany _ attributes).mono fun _ configuration _ => ?_)
  refine (Program.keeps_perform_bind _ _).mpr ⟨trivial, fun _ => ⟨trivial, fun installed _ => ?_⟩⟩
  exact ⟨configuration, List.append_assoc _ _ _⟩

theorem startDisplay_publishes (fb : FrameBuffer) (before : DisplayVariables) :
    (startDisplay before fb).Keeps (.history fun _ _ => True) fb.Publishes [] :=
  allocateModeIfNull_publishes (allocateModeIfNull_publishes (publishDisplay_publishes fb _)) []

/-- `GetSimpleFrameBuffer` never divides by 0.  On the values it reads it succeeds exactly
    for the supported format and a geometry that fits.  After a success the range does
    not wrap, the rows lie in it, and `SimpleFbDxeInitialize` publishes a mode whose pixels
    are addressable, having cleared no more than the rows; so it does whenever it is
    granted the memory for the mode. -/
theorem simpleFrameBuffer_addressable (hob : Option FdtHob) (fuel : Nat) :
    getSimpleFrameBuffer hob fuel ≠ some .dividedByZero ∧
    (∀ fb format, ReadsFrameBuffer hob fuel fb format →
      ∃ lookup, getSimpleFrameBuffer hob fuel = some lookup ∧
        (lookup.status = some .success ↔ fb.Fits ∧ format = x8r8g8b8) ∧
        (lookup.status = some .success → lookup = .found fb)) ∧
    ∀ fb, getSimpleFrameBuffer hob fuel = some (.found fb) →
      fb.stride.toNat * fb.height.toNat ≤ fb.size.toNat ∧
      fb.base.toNat + fb.size.toNat < 2 ^ 64 ∧
      fb.Addresses fb.displayMode ∧
      fb.displayMode.frameBufferSize.toNat = fb.stride.toNat * fb.height.toNat ∧
      ∀ before, ∃ prog, simpleFbDxeInitialize before hob fuel = some prog ∧
        prog.Calls fb.Allows ∧
        ∀ trace status, prog.Reaches trace (.ret status) → fb.Publishes status trace := by
  refine ⟨?_, ?_, ?_⟩
  · intro hdivided
    rcases getSimpleFrameBuffer_cases hdivided with ⟨status, h⟩ | ⟨fb, format, -, h⟩
    · cases h
    · rcases checkFrameBuffer_cases fb format with ⟨hfound, -⟩ | ⟨⟨status, -, hfailed⟩, -⟩
      · cases h.trans hfound
      · cases h.trans hfailed
  · intro fb format hreads
    refine ⟨_, hreads.getSimpleFrameBuffer, ?_⟩
    rw [← hreads.format_eq_iff]
    rcases checkFrameBuffer_cases fb format with ⟨hfound, hfits⟩ | ⟨⟨status, hne, hfailed⟩, hnot⟩
    · rw [hfound]
      exact ⟨iff_of_true rfl hfits, fun _ => rfl⟩
    · have herror : (FrameBufferLookup.failed status).status ≠ some .success :=
        fun hsuccess => hne (Option.some.inj hsuccess)
      rw [hfailed]
      exact ⟨iff_of_false herror hnot, fun hsuccess => absurd hsuccess herror⟩
  · intro fb hfound
    rcases getSimpleFrameBuffer_cases hfound with ⟨status, h⟩ | ⟨fb', format, hreads, h⟩
    · cases h
    · rcases checkFrameBuffer_cases fb' format with
        ⟨haccepted, hfits, -⟩ | ⟨⟨status, -, hfailed⟩, -⟩
      · obtain rfl : fb = fb' := FrameBufferLookup.found.inj (h.trans haccepted)
        have hend := hreads.no_wrap
        refine ⟨hfits.rows_le, by omega, hfits.addresses hend,
          multU64x32_toNat fb.stride fb.height, ?_⟩
        intro before
        refine ⟨startDisplay before fb, ?_, startDisplay_calls hfits hend before, ?_⟩
        · rw [simpleFbDxeInitialize, hfound]
        · intro trace status hreaches
          have hpublishes := (startDisplay_publishes fb before).returns hreaches
          rwa [Protocol.after_history, List.nil_append] at hpublishes
      · cases h.trans hfailed

/-- A framebuffer of 2 by 2 pixels in rows of 12 bytes, at `0x80000000`. -/
def sampleFrameBufferBlob : FdtBlob where
  parentOffset _ := 0
  addressCells _ := 1
  sizeCells _ := 1
  getProp node name :=
    if node ≠ 8 then none
    else if name = "reg" then some ⟨[0x80, 0, 0, 0, 0, 0, 0, 0x40], by decide⟩
    else if name = "width" then some ⟨[0, 0, 0, 2], by decide⟩
    else if name = "height" then some ⟨[0, 0, 0, 2], by decide⟩
    else if name = "stride" then some ⟨[0, 0, 0, 12], by decide⟩
    else if name = "format" then some ⟨x8r8g8b8, by decide⟩
    else none
  nextNode _ := -FDT_ERR_NOTFOUND
  subnodeOffset _ _ := -FDT_ERR_NOTFOUND
  firstSubnode _ := -FDT_ERR_NOTFOUND
  nextSubnode _ := -FDT_ERR_NOTFOUND
  numberOfReserveMapEntries := 0
  reserveMapEntry _ := none
  checkHeader := 0
  nodeOffsetByCompatible start _ := if start < 8 then 8 else -FDT_ERR_NOTFOUND

theorem simpleFrameBuffer_addressable_sample :
    ∃ fb : FrameBuffer, getSimpleFrameBuffer (some ⟨8, some sampleFrameBufferBlob⟩) 1
        = some (.found fb) ∧
      fb.base = 0x80000000 ∧ fb.Addresses fb.displayMode ∧
      ∃ prog, simpleFbDxeInitialize ⟨true, true, true⟩ (some ⟨8, some sampleFrameBufferBlob⟩) 1
          = some prog ∧ prog.Calls fb.Allows := by
  obtain ⟨-, -, hfound⟩ :=
    simpleFrameBuffer_addressable (some ⟨8, some sampleFrameBufferBlob⟩) 1
  obtain ⟨-, -, haddresses, -, hprog⟩ := hfound
    { base := 0x80000000, size := 0x40, width := 2, height := 2, stride := 12 } (by decide +kernel)
  obtain ⟨prog, hinitialize, hcalls, -⟩ := hprog ⟨true, true, true⟩
  exact ⟨_, by decide +kernel, rfl, haddresses, prog, hinitialize, hcalls⟩

end UemuPkg
