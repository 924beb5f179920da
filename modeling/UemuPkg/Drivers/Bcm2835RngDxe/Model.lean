/-
  UemuPkg.Drivers.Bcm2835RngDxe.Model

  `Bcm2835RngGetRNG` as a machine.  A state holds the program point, the
  variables and the trace of device reads and buffer stores; one step runs to the
  next test of a loop.  `RNGValue` is an offset from the start of the buffer.
-/

import UemuPkg.Base
import UemuPkg.Generic.Bytes

namespace UemuPkg

abbrev EFI_GUID := BitVec 128

/-- `RNG_MAX_RETRIES` -/
def RNG_MAX_RETRIES : UINT32 := 0x100

/-- The device: what the successive reads of its two registers return, and the
    identifier of the raw algorithm. -/
structure RngDevice where
  status : Nat → UINT32
  data : Nat → UINT32
  gEfiRngAlgorithmRaw : EFI_GUID

/-- Bits 31:24 of `RNG_STATUS`: the number of words in the FIFO. -/
def rngStatusCount (status : UINT32) : UINT32 := status >>> 24

inductive RngEvent where
  | readStatus (value : UINT32)
  | readData (value : UINT32)
  | store (offset : Nat) (value : UINT8)
  deriving DecidableEq, Repr

/-- Program points of `Bcm2835RngGetRNG`, each at the test of a loop. -/
inductive RngPc where
  /-- `while (RNGValueLength > 0)` -/
  | outer
  /-- the body of the `do`, which reads the count -/
  | poll
  /-- `while (RNGValueLength >= sizeof (UINT32) && Num > 0)` -/
  | words
  /-- `while (RNGValueLength--)` -/
  | tail
  | ret (status : EfiStatus)
  deriving DecidableEq, Repr

structure RngState where
  pc : RngPc
  rngValueLength : UINTN
  rngValue : Nat
  num : UINT32
  retries : UINT32
  val : UINT32
  statusReads : Nat
  dataReads : Nat
  trace : List RngEvent
  deriving DecidableEq, Repr

/-- `WriteUnaligned32` stores the bytes of a word in little-endian order. -/
def writeUnaligned32 (offset : Nat) (value : UINT32) : List RngEvent :=
  (List.range 4).map fun i => .store (offset + i) (ByteString.leByte value i)

/-- One step of `Bcm2835RngGetRNG`. -/
def RngState.step (dev : RngDevice) (s : RngState) : RngState :=
  match s.pc with
  | .outer =>
    if s.rngValueLength ≠ 0 then
      { s with pc := .poll, retries := RNG_MAX_RETRIES }
    else
      { s with pc := .ret .success }
  | .poll =>
    let status := dev.status s.statusReads
    let num := rngStatusCount status
    let s : RngState := { s with
      num, statusReads := s.statusReads + 1, trace := s.trace ++ [.readStatus status] }
    if num ≠ 0 then
      { s with pc := .words }
    else if s.retries ≠ 0 then
      { s with retries := s.retries - 1 }
    else
      { s with retries := s.retries - 1, pc := .ret .deviceError }
  | .words =>
    let value := dev.data s.dataReads
    if 4 ≤ s.rngValueLength.toNat ∧ s.num ≠ 0 then
      { s with
        rngValue := s.rngValue + 4
        rngValueLength := s.rngValueLength - 4
        num := s.num - 1
        dataReads := s.dataReads + 1
        trace := s.trace ++ .readData value :: writeUnaligned32 s.rngValue value }
    else if s.rngValueLength ≠ 0 ∧ s.num ≠ 0 then
      { s with
        pc := .tail
        val := value
        dataReads := s.dataReads + 1
        trace := s.trace ++ [.readData value] }
    else
      { s with pc := .outer }
  | .tail =>
    -- The post-decrement takes effect also when the test fails.
    if s.rngValueLength ≠ 0 then
      { s with
        rngValueLength := s.rngValueLength - 1
        rngValue := s.rngValue + 1
        val := s.val >>> 8
        trace := s.trace ++ [.store s.rngValue (s.val.setWidth 8)] }
    else
      { s with rngValueLength := s.rngValueLength - 1, pc := .outer }
  | .ret _ => s

/-- The state after the checks at the head of `Bcm2835RngGetRNG`.  The pointers
    `This` and `RNGValue` matter only as NULL or not. -/
def bcm2835RngGetRNG (dev : RngDevice) (this : UINT64) (rngAlgorithm : Option EFI_GUID)
    (rngValueLength : UINTN) (rngValue : UINT64) : RngState :=
  { pc :=
      if this = 0 ∨ rngValueLength = 0 ∨ rngValue = 0 then
        .ret .invalidParameter
      else
        match rngAlgorithm with
        | none => .outer
        | some algorithm =>
          if algorithm = dev.gEfiRngAlgorithmRaw then .outer else .ret .unsupported
    rngValueLength
    rngValue := 0
    num := 0
    retries := 0
    val := 0
    statusReads := 0
    dataReads := 0
    trace := [] }

/-- The buffer after a trace; `none` is a byte that was never stored. -/
def bufferAfter (trace : List RngEvent) (offset : Nat) : Option UINT8 :=
  trace.foldl
    (fun byte event =>
      match event with
      | .store o value => if o = offset then some value else byte
      | _ => byte)
    none

/-- Every store of the trace is to one of the first `n` bytes. -/
def StoresBelow (n : Nat) (trace : List RngEvent) : Prop :=
  ∀ offset value, RngEvent.store offset value ∈ trace → offset < n

-- ============================================================================
-- Traces
-- ============================================================================

@[simp] theorem bufferAfter_append_store (trace : List RngEvent) (o : Nat) (value : UINT8)
    (offset : Nat) :
    bufferAfter (trace ++ [.store o value]) offset
      = if o = offset then some value else bufferAfter trace offset := by
  rw [bufferAfter, List.foldl_append]
  rfl

@[simp] theorem bufferAfter_append_readStatus (trace : List RngEvent) (value : UINT32)
    (offset : Nat) :
    bufferAfter (trace ++ [.readStatus value]) offset = bufferAfter trace offset := by
  rw [bufferAfter, List.foldl_append]
  rfl

@[simp] theorem bufferAfter_append_readData (trace : List RngEvent) (value : UINT32)
    (offset : Nat) :
    bufferAfter (trace ++ [.readData value]) offset = bufferAfter trace offset := by
  rw [bufferAfter, List.foldl_append]
  rfl

/-- A word's four bytes, one store after the other. -/
theorem append_writeUnaligned32 (trace : List RngEvent) (o : Nat) (value : UINT32) :
    trace ++ .readData value :: writeUnaligned32 o value
      = trace ++ [.readData value] ++ [.store o (ByteString.leByte value 0)]
          ++ [.store (o + 1) (ByteString.leByte value 1)]
          ++ [.store (o + 2) (ByteString.leByte value 2)]
          ++ [.store (o + 3) (ByteString.leByte value 3)] := by
  simp only [List.append_assoc]
  rfl

theorem StoresBelow.append {n : Nat} {xs ys : List RngEvent} (hx : StoresBelow n xs)
    (hy : StoresBelow n ys) : StoresBelow n (xs ++ ys) := by
  intro offset value hmem
  rcases List.mem_append.mp hmem with h | h
  · exact hx offset value h
  · exact hy offset value h

theorem storesBelow_writeUnaligned32 {n offset : Nat} {value : UINT32} (h : offset + 4 ≤ n) :
    StoresBelow n (.readData value :: writeUnaligned32 offset value) := by
  intro o v hmem
  rcases List.mem_cons.mp hmem with heq | hmem
  · cases heq
  · obtain ⟨i, hi, heq⟩ := List.mem_map.mp hmem
    obtain ⟨rfl, -⟩ := RngEvent.store.inj heq
    rw [List.mem_range] at hi
    omega

theorem storesBelow_readStatus (n : Nat) (value : UINT32) :
    StoresBelow n [.readStatus value] := by
  intro o v hmem
  cases List.mem_singleton.mp hmem

end UemuPkg
