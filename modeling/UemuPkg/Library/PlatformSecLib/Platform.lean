/-
  UemuPkg.Library.PlatformSecLib.Platform

  Platform.c: the hand-off blocks of the device tree and of the devices that no
  DXE driver adds to the GCD.  The search loop of `PopulateIoResources` leaves at
  one libfdt result only, so it runs on fuel.
-/

import UemuPkg.Library.PlatformSecLib.Hob
import UemuPkg.Library.UemuFdtLib.Model

namespace UemuPkg

open FuelLoop (Returns Turn loop)
open Cursor (Enumerates EndsAt)

-- ============================================================================
-- The model
-- ============================================================================

/-- `AddIoMemoryBaseSizeHob` -/
def addIoMemoryBaseSizeHob (memoryBase memorySize : UINT64) (hobs : List Hob) : List Hob :=
  match alignRange memoryBase memorySize with
  | .error _ => hobs
  | .ok (alignedBase, alignedSize) =>
    hobs ++ [.resourceDescriptor .memoryMappedIo [.present, .initialized, .uncacheable, .tested]
      alignedBase alignedSize]

/-- The loop of `PopulateIoResources`, from `Node` on. -/
def populateIoLoop (fdt : FdtBlob) (compatible : String) :
    Nat → Int × List Hob → Option (List Hob) :=
  loop fun _ (node, hobs) =>
    if node = -FDT_ERR_NOTFOUND then
      some (.leave hobs)
    else
      let hobs :=
        match readReg fdt.toFdt node 0 with
        | .error _ => hobs
        | .ok (base, size) => addIoMemoryBaseSizeHob base size hobs
      some (.again (fdt.nodeOffsetByCompatible node compatible, hobs))

/-- `PopulateIoResources` -/
def populateIoResources (fdt : FdtBlob) (compatible : String) (fuel : Nat) (hobs : List Hob) :
    Option (List Hob) :=
  populateIoLoop fdt compatible fuel (fdt.nodeOffsetByCompatible (-1) compatible, hobs)

/-- What `PlatformInitialization` leaves behind: its status, the block that holds
    the address of the copied blob, and the other blocks. -/
structure PlatformResult where
  status : EfiStatus
  fdtHob : Option FdtHob
  hobs : List Hob

/-- `PlatformInitialization`.  `newBase` is the copy `FdtOpenInto` leaves in the
    allocated pages, `none` where the allocation fails, and `guidHob` tells
    whether `BuildGuidHob` has room. -/
def platformInitialization (base : FdtBlob) (newBase : Option FdtBlob) (guidHob : Bool)
    (fuel : Nat) (hobs : List Hob) : Option PlatformResult :=
  if base.checkHeader ≠ 0 then
    some ⟨.unsupported, none, hobs⟩
  else
    match newBase, guidHob with
    | none, _ | _, false => some ⟨.unsupported, none, hobs⟩
    | some newBase, true => do
      let hobs ← populateIoResources base "ns16550a" fuel hobs
      let hobs ← populateIoResources base "virtio,mmio" fuel hobs
      let hobs ← populateIoResources base "simple-framebuffer" fuel hobs
      return ⟨.success, some ⟨8, some newBase⟩, hobs⟩

-- ============================================================================
-- One search
-- ============================================================================

variable {fdt : FdtBlob} {compatible : String}

/-- The block a node contributes: its first `reg` range, rounded to whole pages. -/
def ioResource (fdt : FdtBlob) (node : Int) : Option Hob :=
  match readReg fdt.toFdt node 0 with
  | .error _ => none
  | .ok (base, size) =>
    match alignRange base size with
    | .error _ => none
    | .ok (alignedBase, alignedSize) =>
      some (.resourceDescriptor .memoryMappedIo [.present, .initialized, .uncacheable, .tested]
        alignedBase alignedSize)

/-- One turn appends the node's block, if it has one. -/
theorem populateIoResources_turn (node : Int) (hobs : List Hob) :
    (match readReg fdt.toFdt node 0 with
      | .error _ => hobs
      | .ok (base, size) => addIoMemoryBaseSizeHob base size hobs)
      = hobs ++ (ioResource fdt node).toList := by
  rw [ioResource]
  cases readReg fdt.toFdt node 0 with
  | error status => exact (List.append_nil hobs).symm
  | ok range =>
      dsimp only
      rw [addIoMemoryBaseSizeHob]
      cases alignRange range.1 range.2 with
      | error status => exact (List.append_nil hobs).symm
      | ok aligned => rfl

/-- `PopulateIoResources` returns, and has appended at most one block for each
    compatible node. -/
def PopulatesOnce (fdt : FdtBlob) (compatible : String) (hobs : List Hob) : Prop :=
  ∃ nodes : List Int, nodes.Pairwise (· < ·) ∧
    (∀ node ∈ nodes, 0 ≤ node ∧ ∃ start, node = fdt.nextCompatible compatible start) ∧
    Returns (fun fuel => populateIoResources fdt compatible fuel hobs)
      (hobs ++ nodes.filterMap (ioResource fdt))

/-- A search that ends with `FDT_ERR_NOTFOUND` ends the loop, and each node it
    visits contributes its block. -/
theorem populateIoLoop_returns {node : Int} {nodes : List Int}
    (hnodes : Enumerates (fdt.nextCompatible compatible) node nodes)
    (hend : EndsAt (fdt.nextCompatible compatible) node (-FDT_ERR_NOTFOUND)) (hobs : List Hob) :
    Returns (fun fuel => populateIoLoop fdt compatible fuel (node, hobs))
      (hobs ++ nodes.filterMap (ioResource fdt)) := by
  induction hnodes generalizing hobs with
  | @stop node hneg =>
      have hnode : node = -FDT_ERR_NOTFOUND := by
        cases hend with
        | stop _ => rfl
        | visit hpos _ => omega
      refine Returns.loop_leave ?_
      simp only [if_pos hnode, List.filterMap_nil, List.append_nil]
      exact FuelLoop.returns_pure _
  | @visit node nodes hpos _ ih =>
      have hnode : node ≠ -FDT_ERR_NOTFOUND := by
        rw [FDT_ERR_NOTFOUND]
        omega
      have hrest : EndsAt (fdt.nextCompatible compatible)
          (fdt.nextCompatible compatible node) (-FDT_ERR_NOTFOUND) := by
        cases hend with
        | stop hneg => omega
        | visit _ rest => exact rest
      have hblocks : hobs ++ (node :: nodes).filterMap (ioResource fdt)
          = hobs ++ (ioResource fdt node).toList ++ nodes.filterMap (ioResource fdt) := by
        rw [List.append_assoc, List.filterMap_cons]
        cases ioResource fdt node <;> rfl
      rw [hblocks]
      refine Returns.loop_again ?_ (ih hrest _)
      simp only [if_neg hnode, populateIoResources_turn]
      exact FuelLoop.returns_pure _

/-- Any other error restarts the search at the first node, which leads to that
    error again: the loop never returns. -/
theorem populateIoResources_diverges {e : Int} (hother : e ≠ -FDT_ERR_NOTFOUND)
    (hrestart : ∀ node, node < 0 →
      fdt.nextCompatible compatible node = fdt.nextCompatible compatible (-1))
    (hend : EndsAt (fdt.nextCompatible compatible) (fdt.nextCompatible compatible (-1)) e)
    (hobs : List Hob) (fuel : Nat) : populateIoResources fdt compatible fuel hobs = none := by
  -- The invariant: the walk from the current node ends at `e`.
  refine Option.eq_none_iff_forall_ne_some.mpr fun built hbuilt => ?_
  refine FuelLoop.loop_post
    (fun st => EndsAt (fdt.nextCompatible compatible) st.1 e) (fun _ => False) ?_ ?_ hend hbuilt
  · rintro - ⟨node, mid⟩ s' hwalk hturn
    dsimp only at hwalk hturn
    split at hturn
    · cases hturn
    · obtain rfl := Turn.again.inj (Option.some.inj hturn)
      cases hwalk with
      | stop hneg =>
          show EndsAt (fdt.nextCompatible compatible) (fdt.nextCompatible compatible e) e
          rw [hrestart e hneg]
          exact hend
      | visit _ rest => exact rest
  · rintro - ⟨node, mid⟩ r hwalk hturn
    dsimp only at hwalk hturn
    split at hturn
    · rename_i hnode
      subst hnode
      exact hother (hwalk.unique (.stop (by decide)))
    · cases hturn

theorem not_populatesOnce {e : Int} (hother : e ≠ -FDT_ERR_NOTFOUND)
    (hrestart : ∀ node, node < 0 →
      fdt.nextCompatible compatible node = fdt.nextCompatible compatible (-1))
    (hend : EndsAt (fdt.nextCompatible compatible) (fdt.nextCompatible compatible (-1)) e)
    (hobs : List Hob) : ¬ PopulatesOnce fdt compatible hobs := by
  rintro ⟨nodes, -, -, n, hreturns⟩
  have hbuilt : populateIoResources fdt compatible n hobs = some _ := hreturns n (Nat.le_refl n)
  rw [populateIoResources_diverges hother hrestart hend] at hbuilt
  cases hbuilt

/-- `PopulateIoResources` returns, with at most one block a compatible node,
    exactly if the search over the tree ends with `FDT_ERR_NOTFOUND`.  Where it
    ends with another error the loop starts over, and never returns. -/
theorem populatesOnce_iff (bound : Int)
    (hadvances : Cursor.Advances (fdt.nextCompatible compatible) bound)
    (hrestart : ∀ node, node < 0 →
      fdt.nextCompatible compatible node = fdt.nextCompatible compatible (-1))
    (hobs : List Hob) :
    PopulatesOnce fdt compatible hobs ↔
      EndsAt (fdt.nextCompatible compatible) (fdt.nextCompatible compatible (-1))
        (-FDT_ERR_NOTFOUND) := by
  obtain ⟨nodes, hnodes⟩ := hadvances.enumerates (fdt.nextCompatible compatible (-1))
  refine ⟨?_, ?_⟩
  · intro honce
    obtain ⟨e, he⟩ := hnodes.endsAt
    by_cases hother : e = -FDT_ERR_NOTFOUND
    · exact hother ▸ he
    · exact absurd honce (not_populatesOnce hother hrestart he hobs)
  · intro hend
    refine ⟨nodes, hadvances.pairwise hnodes, ?_, populateIoLoop_returns hnodes hend hobs⟩
    intro node hmem
    obtain ⟨hpos, hfirst | ⟨start, hsucc⟩⟩ := hnodes.mem hmem
    · exact ⟨hpos, -1, hfirst⟩
    · exact ⟨hpos, start, hsucc⟩

-- ============================================================================
-- PlatformInitialization
-- ============================================================================

/-- The compatible strings `PlatformInitialization` searches for. -/
def ioCompatibles : List String := ["ns16550a", "virtio,mmio", "simple-framebuffer"]

/-- `PlatformInitialization` succeeds where each of its searches ends with
    `FDT_ERR_NOTFOUND`; the copied blob is the one `UemuFdtGet` finds later. -/
theorem platformInitialization_returns {base newBase : FdtBlob} (bound : Int)
    (hheader : base.checkHeader = 0) (hcopy : newBase.checkHeader = 0)
    (hadvances : ∀ compatible, Cursor.Advances (base.nextCompatible compatible) bound)
    (hend : ∀ compatible ∈ ioCompatibles, EndsAt (base.nextCompatible compatible)
      (base.nextCompatible compatible (-1)) (-FDT_ERR_NOTFOUND)) (hobs : List Hob) :
    ∃ result : PlatformResult,
      Returns (fun fuel => platformInitialization base (some newBase) true fuel hobs) result ∧
      result.status = .success ∧
      uemuFdtGet result.fdtHob (some none) = (.success, some (some newBase)) := by
  have hsearch : ∀ compatible ∈ ioCompatibles, ∀ hobs, ∃ built,
      Returns (fun fuel => populateIoResources base compatible fuel hobs) built := by
    intro compatible hmem hobs
    obtain ⟨nodes, hnodes⟩ :=
      (hadvances compatible).enumerates (base.nextCompatible compatible (-1))
    exact ⟨_, populateIoLoop_returns hnodes (hend compatible hmem) hobs⟩
  obtain ⟨uarts, huarts⟩ := hsearch "ns16550a" (by simp [ioCompatibles]) hobs
  obtain ⟨virtios, hvirtios⟩ := hsearch "virtio,mmio" (by simp [ioCompatibles]) uarts
  obtain ⟨framebuffers, hframebuffers⟩ :=
    hsearch "simple-framebuffer" (by simp [ioCompatibles]) virtios
  refine ⟨⟨.success, some ⟨8, some newBase⟩, framebuffers⟩, ?_, rfl, ?_⟩
  · simp only [platformInitialization, if_neg (not_not_intro hheader)]
    exact huarts.bind (hvirtios.bind (hframebuffers.bind (FuelLoop.returns_pure _)))
  · simp only [uemuFdtGet, hcopy]
    rfl

-- ============================================================================
-- A UART
-- ============================================================================

/-- A UART at offset 8 with one page of registers at `0x10000000`.  The search
    reports `error` after it. -/
def uartBlob (error : Int) : FdtBlob where
  parentOffset _ := 0
  addressCells _ := 1
  sizeCells _ := 1
  getProp node name :=
    if node = 8 ∧ name = "reg" then
      some ⟨[0x10, 0, 0, 0, 0, 0, 0x10, 0], by decide⟩
    else
      none
  nextNode node := if node = 0 then 8 else error
  subnodeOffset _ _ := -FDT_ERR_NOTFOUND
  firstSubnode _ := -FDT_ERR_NOTFOUND
  nextSubnode _ := -FDT_ERR_NOTFOUND
  numberOfReserveMapEntries := 0
  reserveMapEntry _ := none
  checkHeader := 0
  nodeOffsetByCompatible node _ := if node < 8 then 8 else error

theorem uartBlob_advances {error : Int} (herror : error < 0) (compatible : String) :
    Cursor.Advances ((uartBlob error).nextCompatible compatible) 8 where
  lt_next := by
    intro n _
    dsimp only [FdtBlob.nextCompatible, uartBlob]
    split
    · right; assumption
    · left; exact herror
  next_le := by
    intro n
    dsimp only [FdtBlob.nextCompatible, uartBlob]
    split <;> omega

theorem uartBlob_restarts (error : Int) (compatible : String) (node : Int) (hneg : node < 0) :
    (uartBlob error).nextCompatible compatible node
      = (uartBlob error).nextCompatible compatible (-1) := by
  dsimp only [FdtBlob.nextCompatible, uartBlob]
  rw [if_pos (by omega), if_pos (by decide)]

/-- The walk reaches the UART and ends with the error. -/
theorem uartBlob_endsAt {error : Int} (herror : error < 0) (compatible : String) :
    EndsAt ((uartBlob error).nextCompatible compatible)
      ((uartBlob error).nextCompatible compatible (-1)) error :=
  .visit (n := 8) (by decide) (.stop herror)

theorem populatesOnce_iff_uart :
    PopulatesOnce (uartBlob (-FDT_ERR_NOTFOUND)) "ns16550a" [] ↔
      EndsAt ((uartBlob (-FDT_ERR_NOTFOUND)).nextCompatible "ns16550a")
        ((uartBlob (-FDT_ERR_NOTFOUND)).nextCompatible "ns16550a" (-1)) (-FDT_ERR_NOTFOUND) :=
  populatesOnce_iff 8 (uartBlob_advances (by decide) _) (uartBlob_restarts _ _) []

/-- A blob whose structure block breaks off after the UART: the search reports
    `FDT_ERR_BADSTRUCTURE` (11), and `PopulateIoResources` starts over for ever. -/
theorem not_populatesOnce_badStructure :
    (uartBlob (-11)).checkHeader = 0 ∧
      Cursor.Advances ((uartBlob (-11)).nextCompatible "ns16550a") 8 ∧
      (∀ node, node < 0 → (uartBlob (-11)).nextCompatible "ns16550a" node
        = (uartBlob (-11)).nextCompatible "ns16550a" (-1)) ∧
      ¬ PopulatesOnce (uartBlob (-11)) "ns16550a" [] := by
  refine ⟨rfl, uartBlob_advances (by decide) _, uartBlob_restarts _ _, ?_⟩
  exact not_populatesOnce (by decide) (uartBlob_restarts _ _) (uartBlob_endsAt (by decide) _) []

end UemuPkg
