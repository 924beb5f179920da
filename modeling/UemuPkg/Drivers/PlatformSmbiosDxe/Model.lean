/-
  UemuPkg.Drivers.PlatformSmbiosDxe.Model

  `LogSmbiosData`: a fixed structure and an array of strings become one SMBIOS
  record.  The record is built by writes into a zeroed pool buffer, which are kept
  as a list.  `Size` is a `UINTN` and wraps; where it does, the buffer is shorter than what
  is written.
-/

import UemuPkg.Base
import UemuPkg.Generic.StringTable

namespace UemuPkg

/-- A NUL-terminated string. -/
structure AsciiString where
  chars : List UINT8
  noNul : 0 ∉ chars

/-- `AsciiStrSize` -/
def asciiStrSize (s : AsciiString) : Nat := s.chars.length + 1

/-- The memory at an `EFI_SMBIOS_TABLE_HEADER *`: a header, and at least the
    `Length` bytes it announces. -/
structure SmbiosTemplate where
  bytes : List UINT8
  header_le : 4 ≤ bytes.length
  length_le : (bytes.getD 1 0).toNat ≤ bytes.length

/-- `Template->Length`, the second byte. -/
def SmbiosTemplate.length (template : SmbiosTemplate) : UINT8 := template.bytes.getD 1 0

/-- A store of consecutive bytes into the pool buffer. -/
structure PoolWrite where
  offset : Nat
  bytes : List UINT8
  deriving DecidableEq

def PoolWrite.apply (pool : List UINT8) (w : PoolWrite) : List UINT8 :=
  pool.take w.offset ++ w.bytes ++ pool.drop (w.offset + w.bytes.length)

/-- `Size`, of the fixed record and the string pack. -/
def smbiosRecordSize (template : SmbiosTemplate) (stringPack : Option (List AsciiString)) : UINTN :=
  let size := template.length.setWidth 64
  match stringPack with
  | none => size + 2
  | some strings =>
    let size := strings.foldl (fun size s => size + BitVec.ofNat 64 (asciiStrSize s)) size
    let size := if strings.isEmpty then size + 1 else size
    size + 1

/-- The same sum as a number: the bytes that there are from `Record` to the last NUL. -/
def smbiosRecordBytes (template : SmbiosTemplate) (stringPack : Option (List AsciiString)) : Nat :=
  let size := template.length.toNat
  match stringPack with
  | none => size + 2
  | some strings =>
    let size := strings.foldl (fun size s => size + asciiStrSize s) size
    let size := if strings.isEmpty then size + 1 else size
    size + 1

/-- The loop that appends the strings from `Str` on: its writes, and `Str` after it. -/
def appendStringPack : Nat → List AsciiString → List PoolWrite × Nat
  | str, [] => ([], str)
  | str, s :: strings =>
    let stringSize := asciiStrSize s
    let rest := appendStringPack (str + stringSize) strings
    (⟨str, s.chars ++ [0]⟩ :: rest.1, rest.2)

/-- The stores of `LogSmbiosData` into the record, in order.  `Record->Length` is read
    back from the copied header. -/
def smbiosRecordWrites (template : SmbiosTemplate) (stringPack : Option (List AsciiString)) :
    List PoolWrite :=
  let copyTemplate : PoolWrite := ⟨0, template.bytes.take template.length.toNat⟩
  let record := PoolWrite.apply (List.replicate (smbiosRecordBytes template stringPack) 0)
    copyTemplate
  let str := (record.getD 1 0).toNat
  let appended :=
    match stringPack with
    | none => ([], str)
    | some strings => appendStringPack str strings
  copyTemplate :: appended.1 ++ [⟨appended.2, [0]⟩]

/-- What `Smbios->Add` is given: the memory from `Record` on.  If `Size` has wrapped, that
    is more than the pool buffer. -/
def smbiosRecord (template : SmbiosTemplate) (stringPack : Option (List AsciiString)) :
    List UINT8 :=
  (smbiosRecordWrites template stringPack).foldl PoolWrite.apply
    (List.replicate (smbiosRecordBytes template stringPack) 0)

/-- The services `LogSmbiosData` calls: the result of `LocateProtocol`, whether a pool
    of a size is granted, and the status and handle of `Smbios->Add`. -/
structure SmbiosServices where
  locateProtocol : EfiStatus
  allocateZeroPool : UINTN → Bool
  add : List UINT8 → EfiStatus × UINT16

structure LogSmbiosResult where
  status : EfiStatus
  /-- The record that was added to the table, if it came to that. -/
  added : Option (List UINT8)
  /-- The caller's handle variable; `none` is a NULL pointer. -/
  dataSmbiosHandle : Option UINT16
  deriving DecidableEq

/-- `LogSmbiosData` -/
def logSmbiosData (services : SmbiosServices) (template : SmbiosTemplate)
    (stringPack : Option (List AsciiString)) (dataSmbiosHandle : Option UINT16) :
    LogSmbiosResult :=
  let status := services.locateProtocol
  if status.isError then
    { status, added := none, dataSmbiosHandle }
  else if services.allocateZeroPool (smbiosRecordSize template stringPack) then
    let record := smbiosRecord template stringPack
    let (status, smbiosHandle) := services.add record
    { status
      added := some record
      dataSmbiosHandle :=
        if status = .success then dataSmbiosHandle.map fun _ => smbiosHandle
        else dataSmbiosHandle }
  else
    { status := .outOfResources, added := none, dataSmbiosHandle }

/-- The standard reading of a record: skip the fixed structure, then split the
    strings up to the first double NUL.  Returns the strings and what follows it. -/
def smbiosDecode (length : UINT8) (record : List UINT8) :
    Option (List (List UINT8) × List UINT8) :=
  StringTable.decode 0 (record.drop length.toNat)

end UemuPkg
