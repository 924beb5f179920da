/-
  UemuPkg.Base

  Base types shared by every modelled component: the fixed-width integers of
  the RISC-V 64 build, `EFI_STATUS`, and the page constants.  Values that the
  code only compares (`INT32` node offsets and cell counts) are `Int`; values
  whose width matters are bit vectors.
-/

import Mathlib.Algebra.Group.Int.Defs
import Mathlib.Algebra.Group.Nat.Defs
import Mathlib.Data.Nat.Notation

namespace UemuPkg

abbrev UINT8 := BitVec 8
abbrev UINT16 := BitVec 16
abbrev UINT32 := BitVec 32
abbrev UINT64 := BitVec 64
/-- Read as a signed number where the code does. -/
abbrev INT16 := BitVec 16
abbrev INT32 := Int32
/-- The native word of the RISC-V 64 target. -/
abbrev UINTN := BitVec 64

/-- The C cast `(UINTN)x` of a signed value. -/
def toUINTN (x : Int) : UINTN := BitVec.ofInt 64 x

theorem toUINTN_toNat {x : Int} (h0 : 0 ≤ x) (hlt : x < 2 ^ 64) :
    (toUINTN x).toNat = x.toNat := by
  rw [toUINTN, BitVec.toNat_ofInt]
  congr 1
  exact Int.emod_eq_of_lt h0 hlt

def MAX_UINT64 : UINT64 := 0xFFFFFFFFFFFFFFFF

def TPL_CALLBACK : UINTN := 8

def TPL_NOTIFY : UINTN := 16

def EFI_PAGE_SIZE : Nat := 0x1000

def EFI_PAGE_MASK : UINT64 := 0xFFF

/-- `ALIGN_VALUE`, for 64-bit values. -/
def alignValue (value alignment : UINT64) : UINT64 :=
  value + ((alignment - value) &&& (alignment - 1))

/-- The characters of an ASCII literal, without its NUL. -/
def ascii (cs : List Char) : List UINT8 := cs.map fun c => BitVec.ofNat 8 c.toNat

/-- `AsciiStrCmp (a, b) == 0`: the strings agree up to their first NUL. -/
def asciiStrEq (a b : List UINT8) : Bool :=
  a.takeWhile (· ≠ 0) == b.takeWhile (· ≠ 0)

/-- `AsciiStrnLenS (s, Length)` on a string of `Length` bytes. -/
def asciiStrnLenS (s : List UINT8) : Nat := (s.takeWhile (· ≠ 0)).length

/-- A length of all bytes but one says that the NUL is the last byte. -/
theorem eq_concat_of_asciiStrnLenS {s : List UINT8} (hne : s ≠ [])
    (hlen : asciiStrnLenS s = s.length - 1) : s = s.takeWhile (· ≠ 0) ++ [0] := by
  induction s with
  | nil => exact absurd rfl hne
  | cons c rest ih =>
      by_cases hc : c = 0
      · have hrest : rest = [] := by
          rw [asciiStrnLenS, List.takeWhile_cons_of_neg (by simpa using hc)] at hlen
          exact List.eq_nil_of_length_eq_zero hlen.symm
        rw [hc, hrest]
        rfl
      · rw [asciiStrnLenS, List.takeWhile_cons_of_pos (by simpa using hc), List.length_cons,
          List.length_cons, Nat.add_sub_cancel] at hlen
        rw [List.takeWhile_cons_of_pos (by simpa using hc), List.cons_append]
        congr 1
        refine ih ?_ ?_
        · intro h0
          rw [h0] at hlen
          cases hlen
        · rw [asciiStrnLenS]
          omega

/-- The `EFI_STATUS` values the modelled functions return. -/
inductive EfiStatus where
  | success
  | invalidParameter
  | unsupported
  | badBufferSize
  | notReady
  | deviceError
  | outOfResources
  | notFound
  | compromisedData
  deriving DecidableEq, Repr

/-- `EFI_ERROR (Status)`. -/
def EfiStatus.isError (status : EfiStatus) : Bool := status != .success

end UemuPkg
