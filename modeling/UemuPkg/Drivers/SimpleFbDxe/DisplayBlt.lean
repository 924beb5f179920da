/-
  UemuPkg.Drivers.SimpleFbDxe.DisplayBlt

  The blits of SimpleFbDxe.c under preemption.  `DisplayBlt` raises the TPL so that no event,
  such as that of a cursor, draws into the middle of a blit.  The blits of an application and
  of the notification functions that preempt it and one another are whole ones, one after
  the other.

  `FrameBufferBlt` of `FrameBufferBltLib` is a parameter: any accesses to any memory.
-/

import UemuPkg.Base
import UemuPkg.Generic.Ceiling

namespace UemuPkg

open Effects (Program)
open Preemption (Code Executes atLevel nested operate raise restore Serial)

/-- The arguments of `DisplayBlt`. -/
structure BltArguments where
  bltBuffer : UINT64
  bltOperation : UINT32
  sourceX : UINTN
  sourceY : UINTN
  destinationX : UINTN
  destinationY : UINTN
  width : UINTN
  height : UINTN
  delta : UINTN

variable {E σ : Type} {R : E → Type}

section

-- `mFrameBufferBltLibConfigure` and `FrameBufferBlt`
variable (configure : UINT64) (frameBufferBlt : UINT64 → BltArguments → Program E R EfiStatus)

/-- `DisplayBlt` -/
def displayBlt (arguments : BltArguments) : Code E R EfiStatus := do
  let tpl ← raise TPL_NOTIFY.toNat
  let status ← frameBufferBlt configure arguments
  restore tpl
  return if status.isError then .invalidParameter else .success

/-- A blit that is not preempted. -/
def wholeBlt (arguments : BltArguments) : Program E R EfiStatus := do
  let status ← frameBufferBlt configure arguments
  return if status.isError then .invalidParameter else .success

theorem displayBlt_eq (arguments : BltArguments) :
    displayBlt configure frameBufferBlt arguments
      = atLevel TPL_NOTIFY.toNat (wholeBlt configure frameBufferBlt arguments) :=
  Preemption.section_eq fun _ _ => rfl

end

variable {configure : UINT64} {frameBufferBlt : UINT64 → BltArguments → Program E R EfiStatus}
  {answer : σ → (e : E) → R e × σ} {depth tpl tpl' : Nat} {s s' : σ}
  {requests : List BltArguments} {replies : List EfiStatus}

/-- However deeply the notification functions of the system nest, at whatever levels up to
    `TPL_NOTIFY`, and whatever they draw: the memory is left as by a sequence of whole
    blits, among them those of the caller in order and with the results that it gets, and
    the caller gets its TPL back. -/
theorem displayBlt_serial (htpl : tpl ≤ TPL_NOTIFY.toNat)
    (h : Executes (nested answer TPL_NOTIFY.toNat (displayBlt configure frameBufferBlt) depth)
      (operate (displayBlt configure frameBufferBlt) requests) tpl s replies tpl' s') :
    tpl' = tpl ∧ replies.length = requests.length ∧
      Serial answer (wholeBlt configure frameBufferBlt) s (requests.zip replies) s' :=
  Preemption.executes_nested_serial (displayBlt_eq configure frameBufferBlt) htpl h

/-- A fill of two pixels, each of them a store that is appended to a list. -/
def fillTwoPixels (_configure : UINT64) (arguments : BltArguments) :
    Program UINT64 (fun _ => Unit) EfiStatus := do
  Program.perform arguments.bltBuffer
  Program.perform arguments.bltBuffer
  return .success

def fillWith (pixel : UINT64) : BltArguments := ⟨pixel, 0, 0, 0, 0, 0, 2, 1, 0⟩

/-- A notification function draws before an application at `TPL_APPLICATION` raises the TPL,
    and again when it has restored it. -/
theorem displayBlt_serial_cursor :
    Executes (nested (fun s e => ((), s ++ [e])) TPL_NOTIFY.toNat (displayBlt 0 fillTwoPixels) 1)
        (operate (displayBlt 0 fillTwoPixels) [fillWith 1]) 4 [] [.success] 4 [2, 2, 1, 1, 2, 2] ∧
      Serial (fun s e => ((), s ++ [e])) (wholeBlt 0 fillTwoPixels) []
        [(fillWith 1, .success)] [2, 2, 1, 1, 2, 2] := by
  have hcursor (s : List UINT64) :
      (nested (fun s e => ((), s ++ [e])) TPL_NOTIFY.toNat (displayBlt 0 fillTwoPixels) 1).interferes
        4 s (s ++ [2] ++ [2]) := by
    refine ⟨8, by decide, by decide, [fillWith 2], [.success], ?_⟩
    apply Executes.raise 16
    apply Executes.access
    apply Executes.access
    apply Executes.restore 8
    exact .ret _ _ _
  have h : Executes
      (nested (fun s e => ((), s ++ [e])) TPL_NOTIFY.toNat (displayBlt 0 fillTwoPixels) 1)
      (operate (displayBlt 0 fillTwoPixels) [fillWith 1]) 4 [] [.success] 4 [2, 2, 1, 1, 2, 2] := by
    apply Executes.interfere (hcursor _)
    apply Executes.raise 16
    apply Executes.access
    apply Executes.access
    apply Executes.restore 4
    apply Executes.interfere (hcursor _)
    exact .ret _ _ _
  exact ⟨h, (displayBlt_serial (by decide) h).2.2⟩

end UemuPkg
