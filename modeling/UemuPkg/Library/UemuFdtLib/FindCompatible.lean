/-
  UemuPkg.Library.UemuFdtLib.FindCompatible

  `UemuFdtFindCompatibleNode` on any tree.  FdtLib's search is a parameter; it is
  assumed to step to the next compatible offset, or to report an error.  The function
  returns the first enabled node that the search reaches, and else says how it ended.
-/

import UemuPkg.Library.UemuFdtLib.Model
import Mathlib.Order.Bounds.Defs

namespace UemuPkg

open FuelLoop (Returns)
open Cursor (Enumerates EndsAt Advances)

-- ============================================================================
-- Enabled nodes
-- ============================================================================

/-- The `status` of the node is absent, "okay" or "ok", with one NUL at the end. -/
def Fdt.Enabled (fdt : Fdt) (node : Int) : Prop :=
  ∀ status, fdt.getProp node "status" = some status →
    status.bytes = ascii ['o', 'k', 'a', 'y'] ++ [0] ∨ status.bytes = ascii ['o', 'k'] ++ [0]

theorem nodeIsEnabled_iff (fdt : Fdt) (node : Int) :
    nodeIsEnabled fdt node = true ↔ fdt.Enabled node := by
  rw [nodeIsEnabled, Fdt.Enabled]
  cases fdt.getProp node "status" with
  | none => exact iff_of_true rfl fun _ h => nomatch h
  | some status =>
      obtain ⟨bytes, hlength⟩ := status
      dsimp only
      refine ⟨?_, ?_⟩
      · intro henabled status hstatus
        obtain rfl := Option.some.inj hstatus
        dsimp only
        split at henabled
        · cases henabled
        · rename_i hterminated
          rw [not_or, Decidable.not_not] at hterminated
          obtain ⟨hpos, hlen⟩ := hterminated
          have hne : bytes ≠ [] := fun h0 => hpos (by rw [h0]; exact Nat.le_refl 0)
          rw [eq_concat_of_asciiStrnLenS hne hlen]
          rcases Bool.or_eq_true_iff.mp henabled with hokay | hok
          · exact .inl (congrArg (· ++ [0]) (beq_iff_eq.mp hokay))
          · exact .inr (congrArg (· ++ [0]) (beq_iff_eq.mp hok))
      · intro henabled
        rcases henabled ⟨bytes, hlength⟩ rfl with rfl | rfl
        · rfl
        · rfl

-- ============================================================================
-- The search
-- ============================================================================

/-- `FdtNodeOffsetByCompatible` returns the least compatible offset above its start, or
    an error; `bound` is the size of the blob. -/
structure FdtBlob.Searches (fdt : FdtBlob) (compatible : String) (isCompatible : Int → Prop)
    (bound : Int) : Prop where
  least : ∀ start, 0 ≤ fdt.nextCompatible compatible start →
    IsLeast { n | 0 ≤ n ∧ start < n ∧ isCompatible n } (fdt.nextCompatible compatible start)
  next_le : ∀ start, fdt.nextCompatible compatible start ≤ bound

variable {fdt : FdtBlob} {compatible : String} {isCompatible : Int → Prop} {bound : Int}

theorem FdtBlob.Searches.advances (h : fdt.Searches compatible isCompatible bound) :
    Advances (fdt.nextCompatible compatible) bound where
  lt_next := by
    intro n _
    rcases Int.lt_or_le (fdt.nextCompatible compatible n) 0 with hneg | hpos
    · exact .inl hneg
    · exact .inr (h.least n hpos).1.2.1
  next_le := h.next_le

/-- The search visits every compatible node before the one at which it has arrived. -/
theorem FdtBlob.Searches.mem_of_le (h : fdt.Searches compatible isCompatible bound)
    {nodes : List Int} (hnodes : Enumerates (fdt.nextCompatible compatible)
      (fdt.nextCompatible compatible (-1)) nodes)
    {m n : Int} (hm : 0 ≤ m) (hcompatible : isCompatible m) (hn : n ∈ nodes) (hmn : m ≤ n) :
    m ∈ nodes := by
  refine Enumerates.mem_of_least (p := fun k => 0 ≤ k ∧ isCompatible k) ?_ hnodes
    ⟨hm, hcompatible⟩ (by omega) hn hmn (h.advances.pairwise hnodes)
  rintro k hpos m hkm ⟨h0, hcomp⟩
  exact (h.least k hpos).2 ⟨h0, hkm, hcomp⟩

/-- The first hit in an ascending list is the least one. -/
theorem find?_least {p : Int → Bool} {nodes : List Int} (hsorted : nodes.Pairwise (· < ·))
    {n : Int} (hfind : nodes.find? p = some n) : ∀ m ∈ nodes, p m = true → n ≤ m := by
  induction nodes with
  | nil => cases hfind
  | cons first rest ih =>
      obtain ⟨hfirst, hrest⟩ := List.pairwise_cons.mp hsorted
      intro m hm hp
      by_cases hhit : p first = true
      · rw [List.find?_cons_of_pos hhit] at hfind
        obtain rfl := Option.some.inj hfind
        rcases List.mem_cons.mp hm with rfl | hlater
        · exact Int.le_refl m
        · exact Int.le_of_lt (hfirst m hlater)
      · rw [List.find?_cons_of_neg hhit] at hfind
        rcases List.mem_cons.mp hm with rfl | hlater
        · exact absurd hp hhit
        · exact ih hrest hfind m hlater hp

/-- How the loop ends: at the first enabled node, or with the search. -/
def firstEnabled (fdt : Fdt) (nodes : List Int) (e : Int) : Except EfiStatus Int :=
  match nodes.find? (nodeIsEnabled fdt) with
  | some node => .ok node
  | none => if e = -FDT_ERR_NOTFOUND then .error .notFound else .error .compromisedData

theorem findCompatibleLoop_returns {current first e : Int} {nodes : List Int}
    (hfirst : fdt.nextCompatible compatible current = first)
    (hnodes : Enumerates (fdt.nextCompatible compatible) first nodes)
    (hend : EndsAt (fdt.nextCompatible compatible) first e) :
    Returns (fun fuel => findCompatibleLoop fdt compatible fuel current)
      (firstEnabled fdt.toFdt nodes e) := by
  rw [FdtBlob.nextCompatible] at hfirst
  induction hnodes generalizing current with
  | @stop node hneg =>
      have hsame : e = node := hend.unique (.stop hneg)
      refine Returns.loop_leave (FuelLoop.returns_of_eq fun _ => ?_)
      dsimp only
      rw [hfirst, firstEnabled, List.find?_nil, hsame]
      by_cases hnotFound : node = -FDT_ERR_NOTFOUND
      · rw [if_pos hnotFound]
        simp only [if_pos hnotFound]
      · rw [if_neg hnotFound, if_pos hneg]
        simp only [if_neg hnotFound]
  | @visit node nodes hpos _ ih =>
      have hrest : EndsAt (fdt.nextCompatible compatible)
          (fdt.nextCompatible compatible node) e := by
        cases hend with
        | stop hneg => omega
        | visit _ rest => exact rest
      have hnotFound : node ≠ -FDT_ERR_NOTFOUND := by
        rw [FDT_ERR_NOTFOUND]
        omega
      rw [firstEnabled]
      by_cases henabled : nodeIsEnabled fdt.toFdt node = true
      · rw [List.find?_cons_of_pos henabled]
        refine Returns.loop_leave (FuelLoop.returns_of_eq fun _ => ?_)
        dsimp only
        rw [hfirst, if_neg hnotFound, if_neg (by omega), if_pos henabled]
      · rw [List.find?_cons_of_neg henabled]
        refine Returns.loop_again (FuelLoop.returns_of_eq fun _ => ?_) (ih rfl hrest)
        dsimp only
        rw [hfirst, if_neg hnotFound, if_neg (by omega), if_neg henabled]

/-- `UemuFdtFindCompatibleNode` ends on every tree.  It returns the least compatible and
    enabled node if the search reaches one; else it tells an error of the search from
    its regular end; and it writes `*Node` on success only. -/
theorem uemuFdtFindCompatibleNode_first (h : fdt.Searches compatible isCompatible bound)
    (old : Int) :
    ∃ nodes e result,
      Enumerates (fdt.nextCompatible compatible) (fdt.nextCompatible compatible (-1)) nodes ∧
      EndsAt (fdt.nextCompatible compatible) (fdt.nextCompatible compatible (-1)) e ∧
      Returns (fun fuel => uemuFdtFindCompatibleNode (some fdt) (some compatible) (some old) fuel)
        result ∧
      ((∃ node ∈ nodes, fdt.Enabled node) →
        ∃ node, result = (.success, some node) ∧
          IsLeast { n | 0 ≤ n ∧ isCompatible n ∧ fdt.Enabled n } node) ∧
      ((∀ node ∈ nodes, ¬ fdt.Enabled node) → e ≠ -FDT_ERR_NOTFOUND →
        result = (.compromisedData, some old)) ∧
      ((∀ node ∈ nodes, ¬ fdt.Enabled node) → e = -FDT_ERR_NOTFOUND →
        result = (.notFound, some old)) := by
  obtain ⟨nodes, hnodes⟩ := h.advances.enumerates (fdt.nextCompatible compatible (-1))
  obtain ⟨e, hend⟩ := hnodes.endsAt
  have hloop := findCompatibleLoop_returns rfl hnodes hend
  have hnone : (∀ node ∈ nodes, ¬ fdt.Enabled node) →
      nodes.find? (nodeIsEnabled fdt.toFdt) = none := by
    intro hdisabled
    rw [List.find?_eq_none]
    intro node hnode henabled
    exact hdisabled node hnode ((nodeIsEnabled_iff fdt.toFdt node).mp henabled)
  refine ⟨nodes, e, _, hnodes, hend, hloop.map _, ?_, ?_, ?_⟩
  · rintro ⟨node, hnode, henabled⟩
    have hsome : (nodes.find? (nodeIsEnabled fdt.toFdt)).isSome = true :=
      List.find?_isSome.mpr ⟨node, hnode, (nodeIsEnabled_iff fdt.toFdt node).mpr henabled⟩
    obtain ⟨found, hfound⟩ := Option.isSome_iff_exists.mp hsome
    have hmem := List.mem_of_find?_eq_some hfound
    have hvisited := hnodes.mem hmem
    refine ⟨found, by rw [firstEnabled, hfound], ⟨hvisited.1, ?_, ?_⟩, ?_⟩
    · obtain ⟨hpos, hfirst | ⟨start, hsucc⟩⟩ := hvisited
      · rw [hfirst] at hpos ⊢
        exact (h.least _ hpos).1.2.2
      · rw [hsucc] at hpos ⊢
        exact (h.least _ hpos).1.2.2
    · exact (nodeIsEnabled_iff fdt.toFdt found).mp (List.find?_some hfound)
    · rintro m ⟨h0, hcompatible, hm⟩
      by_contra hlt
      have hle : m ≤ found := by omega
      have hmemM := h.mem_of_le hnodes h0 hcompatible hmem hle
      have hleast := find?_least (h.advances.pairwise hnodes) hfound m hmemM
        ((nodeIsEnabled_iff fdt.toFdt m).mpr hm)
      omega
  · intro hdisabled hother
    rw [firstEnabled, hnone hdisabled]
    simp only [if_neg hother]
  · intro hdisabled hregular
    rw [firstEnabled, hnone hdisabled]
    simp only [if_pos hregular]

/-- Two compatible nodes, the first one disabled. -/
def twoNodesBlob : FdtBlob where
  parentOffset _ := 0
  addressCells _ := 1
  sizeCells _ := 1
  getProp node name :=
    if node = 8 ∧ name = "status" then
      some ⟨ascii ['d', 'i', 's', 'a', 'b', 'l', 'e', 'd'] ++ [0], by decide⟩
    else
      none
  nextNode _ := -FDT_ERR_NOTFOUND
  subnodeOffset _ _ := -FDT_ERR_NOTFOUND
  firstSubnode _ := -FDT_ERR_NOTFOUND
  nextSubnode _ := -FDT_ERR_NOTFOUND
  numberOfReserveMapEntries := 0
  reserveMapEntry _ := none
  checkHeader := 0
  nodeOffsetByCompatible start _ :=
    if start < 8 then 8 else if start < 16 then 16 else -FDT_ERR_NOTFOUND

theorem twoNodesBlob_searches (compatible : String) :
    twoNodesBlob.Searches compatible (fun n => n = 8 ∨ n = 16) 16 where
  least := by
    intro start hpos
    dsimp only [FdtBlob.nextCompatible, twoNodesBlob] at hpos ⊢
    split at hpos
    · rename_i hlt
      rw [if_pos hlt]
      refine ⟨⟨by decide, hlt, .inl rfl⟩, ?_⟩
      rintro n ⟨-, -, rfl | rfl⟩ <;> decide
    · rename_i hge
      split at hpos
      · rename_i hlt
        rw [if_neg hge, if_pos hlt]
        refine ⟨⟨by decide, hlt, .inr rfl⟩, ?_⟩
        rintro n ⟨-, hsn, rfl | rfl⟩
        · omega
        · decide
      · exact absurd hpos (by decide)
  next_le := by
    intro start
    dsimp only [FdtBlob.nextCompatible, twoNodesBlob]
    split
    · decide
    · split
      · decide
      · decide

theorem uemuFdtFindCompatibleNode_first_twoNodes :
    ∃ node, Returns (fun fuel =>
        uemuFdtFindCompatibleNode (some twoNodesBlob) (some "simple-framebuffer") (some 0) fuel)
        (.success, some node) ∧
      IsLeast { n : Int | 0 ≤ n ∧ (n = 8 ∨ n = 16) ∧ twoNodesBlob.Enabled n } node := by
  obtain ⟨nodes, e, result, hnodes, -, hreturns, hfirst, -⟩ :=
    uemuFdtFindCompatibleNode_first (twoNodesBlob_searches "simple-framebuffer") 0
  have hmem : 16 ∈ nodes := by
    cases hnodes with
    | stop hneg => exact absurd hneg (by decide)
    | visit _ rest =>
        cases rest with
        | stop hneg => exact absurd hneg (by decide)
        | visit _ _ => exact .tail _ (.head _)
  obtain ⟨node, rfl, hleast⟩ := hfirst ⟨16, hmem, (nodeIsEnabled_iff _ 16).mp (by decide)⟩
  exact ⟨node, hreturns, hleast⟩

end UemuPkg
