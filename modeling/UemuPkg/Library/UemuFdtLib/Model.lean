/-
  UemuPkg.Library.UemuFdtLib.Model

  The device-tree helpers of UemuFdtLib.c.  A pointer argument is an `Option`:
  `none` is NULL, `some v` points to `v`.  A function with output pointers
  returns the status together with what those pointers hold afterwards.
-/

import UemuPkg.Generic.Loop
import UemuPkg.Library.FdtLib

namespace UemuPkg

open FuelLoop (loop)

def FDT_MAX_NCELLS : Nat := 4

-- ============================================================================
-- Finding the device tree and a node
-- ============================================================================

/-- The hand-off block `gFdtHobGuid`: the size of its data, and the blob its data
    points to; `none` is a NULL pointer. -/
structure FdtHob where
  dataSize : Nat
  fdt : Option FdtBlob

/-- `UemuFdtGet`: the status and `*Fdt`.  `hob` is what `GetFirstGuidHob` finds. -/
def uemuFdtGet (hob : Option FdtHob) (fdt : Option (Option FdtBlob)) :
    EfiStatus × Option (Option FdtBlob) :=
  match fdt with
  | none => (.invalidParameter, none)
  | some _ =>
    match hob with
    | none => (.notFound, fdt)
    | some hob =>
      if hob.dataSize ≠ 8 then (.notFound, fdt) else
      match hob.fdt with
      | none => (.compromisedData, some none)
      | some blob =>
        if blob.checkHeader ≠ 0 then (.compromisedData, some (some blob)) else
        (.success, some (some blob))

/-- `NodeIsEnabled` -/
def nodeIsEnabled (fdt : Fdt) (node : Int) : Bool :=
  match fdt.getProp node "status" with
  | none => true
  | some status =>
    if status.bytes.length ≤ 0 ∨ asciiStrnLenS status.bytes ≠ status.bytes.length - 1 then
      false
    else
      asciiStrEq status.bytes (ascii ['o', 'k', 'a', 'y'] ++ [0]) ||
        asciiStrEq status.bytes (ascii ['o', 'k'] ++ [0])

/-- The loop of `UemuFdtFindCompatibleNode`, from `Current` on. -/
def findCompatibleLoop (fdt : FdtBlob) (compatible : String) :
    Nat → Int → Option (Except EfiStatus Int) :=
  loop fun _ current =>
    let current := fdt.nodeOffsetByCompatible current compatible
    if current = -FDT_ERR_NOTFOUND then
      some (.leave (.error .notFound))
    else if current < 0 then
      some (.leave (.error .compromisedData))
    else if nodeIsEnabled fdt.toFdt current then
      some (.leave (.ok current))
    else
      some (.again current)

/-- `UemuFdtFindCompatibleNode`: the status and `*Node`. -/
def uemuFdtFindCompatibleNode (fdt : Option FdtBlob) (compatible : Option String)
    (node : Option Int) (fuel : Nat) : Option (EfiStatus × Option Int) :=
  match fdt, compatible, node with
  | some fdt, some compatible, some _ =>
    (findCompatibleLoop fdt compatible fuel (-1)).map fun found =>
      match found with
      | .error status => (status, node)
      | .ok current => (.success, some current)
  | _, _, _ => some (.invalidParameter, node)

-- ============================================================================
-- DecodeCells
-- ============================================================================

/-- The cell loop of `DecodeCells`: `remaining` cells from cell `k` on, with the
    value read so far in `result`. -/
def decodeCellsLoop (reg : FdtProp) (k : Nat) : Nat → UINT64 → Except EfiStatus UINT64
  | 0, result => .ok result
  | remaining + 1, result =>
    if result > MAX_UINT64 >>> 32 then
      .error .badBufferSize
    else
      decodeCellsLoop reg (k + 1) remaining
        ((result <<< 32) ||| (reg.cell k).setWidth 64)

/-- `DecodeCells`: `*Value` is written on success only. -/
def decodeCells (reg : FdtProp) (cells : Nat) (count : UINTN) : Except EfiStatus UINT64 :=
  if count = 0 ∨ count > BitVec.ofNat 64 FDT_MAX_NCELLS then
    .error .compromisedData
  else
    decodeCellsLoop reg cells count.toNat 0

-- ============================================================================
-- UemuFdtGetReg
-- ============================================================================

/-- What `UemuFdtGetReg` leaves behind: its status, `*Base` and `*Size`. -/
structure GetRegResult where
  status : EfiStatus
  base : Option UINT64
  size : Option UINT64
  deriving DecidableEq

/-- `UemuFdtGetReg`. -/
def uemuFdtGetReg (fdt : Option Fdt) (node : Int) (index : UINTN)
    (base size : Option UINT64) : GetRegResult :=
  let fail (status : EfiStatus) : GetRegResult := ⟨status, base, size⟩
  match fdt, base, size with
  | some fdt, some _, some _ =>
    let parent := fdt.parentOffset node
    if parent < 0 then fail .compromisedData else
    let addressCells := fdt.addressCells parent
    let sizeCells := fdt.sizeCells parent
    if addressCells ≤ 0 ∨ addressCells > FDT_MAX_NCELLS ∨
        sizeCells ≤ 0 ∨ sizeCells > FDT_MAX_NCELLS then fail .compromisedData else
    let tupleCells : UINTN := toUINTN addressCells + toUINTN sizeCells
    let tupleSize : UINTN := tupleCells * 4
    match fdt.getProp node "reg" with
    | none => fail .notFound
    | some reg =>
      let length : Int := reg.bytes.length
      if length ≤ 0 ∨ toUINTN length % tupleSize ≠ 0 then fail .compromisedData else
      if index ≥ toUINTN length / tupleSize then fail .notFound else
      let cells := (index * tupleCells).toNat
      match decodeCells reg cells (toUINTN addressCells) with
      | .error status => fail status
      | .ok address =>
        match decodeCells reg (cells + addressCells.toNat) (toUINTN sizeCells) with
        | .error status => fail status
        | .ok rangeSize =>
          if rangeSize = 0 ∨ address > MAX_UINT64 - rangeSize then fail .compromisedData else
          ⟨.success, some address, some rangeSize⟩
  | _, _, _ => fail .invalidParameter

/-- A call with the addresses of two local variables: the range read, or the
    status of the failure. -/
def readReg (fdt : Fdt) (node : Int) (index : UINTN) : Except EfiStatus (UINT64 × UINT64) :=
  match uemuFdtGetReg (some fdt) node index (some 0) (some 0) with
  | ⟨.success, some base, some size⟩ => .ok (base, size)
  | ⟨status, _, _⟩ => .error status

-- ============================================================================
-- UemuFdtGetU32 and UemuFdtGetString
-- ============================================================================

/-- `UemuFdtGetU32`: the status and `*Value`. -/
def uemuFdtGetU32 (fdt : Option Fdt) (node : Int) (property : Option String)
    (value : Option UINT32) : EfiStatus × Option UINT32 :=
  match fdt, property, value with
  | some fdt, some property, some _ =>
    match fdt.getProp node property with
    | none => (.notFound, value)
    | some data =>
      if data.bytes.length ≠ 4 then (.compromisedData, value) else
      (.success, some (data.cell 0))
  | _, _, _ => (.invalidParameter, value)

/-- What `UemuFdtGetString` leaves behind: its status, the string that `*Value` points
    to, and `*Size`. -/
structure GetStringResult where
  status : EfiStatus
  value : Option (List UINT8)
  size : Option UINTN
  deriving DecidableEq

/-- `UemuFdtGetString`; `size` is optional. -/
def uemuFdtGetString (fdt : Option Fdt) (node : Int) (property : Option String)
    (value : Option (List UINT8)) (size : Option UINTN) : GetStringResult :=
  match fdt, property, value with
  | some fdt, some property, some _ =>
    match fdt.getProp node property with
    | none => ⟨.notFound, value, size⟩
    | some data =>
      if data.bytes.length ≤ 0 ∨ asciiStrnLenS data.bytes ≠ data.bytes.length - 1 then
        ⟨.compromisedData, value, size⟩
      else
        ⟨.success, some data.bytes, size.map fun _ => toUINTN data.bytes.length⟩
  | _, _, _ => ⟨.invalidParameter, value, size⟩

/-- A call with the address of a local variable. -/
def readU32 (fdt : Fdt) (node : Int) (property : String) : Except EfiStatus UINT32 :=
  match uemuFdtGetU32 (some fdt) node (some property) (some 0) with
  | (.success, some value) => .ok value
  | (status, _) => .error status

/-- A call with the address of a local variable, and NULL for `Size`. -/
def readString (fdt : Fdt) (node : Int) (property : String) : Except EfiStatus (List UINT8) :=
  match uemuFdtGetString (some fdt) node (some property) (some []) none with
  | ⟨.success, some value, _⟩ => .ok value
  | ⟨status, _, _⟩ => .error status

-- ============================================================================
-- UemuFdtAlignRange
-- ============================================================================

/-- What `UemuFdtAlignRange` leaves behind: its status, `*AlignedBase` and
    `*AlignedSize`. -/
structure AlignRangeResult where
  status : EfiStatus
  alignedBase : Option UINT64
  alignedSize : Option UINT64
  deriving DecidableEq

/-- `UemuFdtAlignRange` -/
def uemuFdtAlignRange (base size : UINT64) (alignedBase alignedSize : Option UINT64) :
    AlignRangeResult :=
  let fail (status : EfiStatus) : AlignRangeResult := ⟨status, alignedBase, alignedSize⟩
  match alignedBase, alignedSize with
  | some _, some _ =>
    if size = 0 ∨ base > MAX_UINT64 - size then fail .invalidParameter else
    let rangeEnd := base + size
    if rangeEnd > MAX_UINT64 - EFI_PAGE_MASK then fail .badBufferSize else
    let alignedBase := base &&& ~~~EFI_PAGE_MASK
    let alignedEnd := alignValue rangeEnd (BitVec.ofNat 64 EFI_PAGE_SIZE)
    ⟨.success, some alignedBase, some (alignedEnd - alignedBase)⟩
  | _, _ => fail .invalidParameter

/-- A call with the addresses of two local variables: the aligned range, or the
    status of the failure. -/
def alignRange (base size : UINT64) : Except EfiStatus (UINT64 × UINT64) :=
  match uemuFdtAlignRange base size (some 0) (some 0) with
  | ⟨.success, some alignedBase, some alignedSize⟩ => .ok (alignedBase, alignedSize)
  | ⟨status, _, _⟩ => .error status

end UemuPkg
