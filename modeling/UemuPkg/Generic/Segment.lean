/-
  UemuPkg.Generic.Segment

  Segments of arrays, as functions from indices.  The first part is about
  rearranging the elements from `l` to `r` and about sorting them.  The second part is
  the partition with two indices that run towards each other: the scans have no bound
  of their own, and stop at elements that the invariant keeps in their way.
-/

import Mathlib.Data.Int.Range
import Mathlib.Data.List.Nodup
import Mathlib.Logic.Equiv.Basic
import Mathlib.Order.Defs.LinearOrder

namespace Segment

variable {α : Type*}

-- ============================================================================
-- Rearranging
-- ============================================================================

/-- The elements from `l` to `r`, in order. -/
def contents (a : Int → α) (l r : Int) : List α := (Int.range l (r + 1)).map a

/-- `b` is `a` with the elements from `l` to `r` in some order. -/
def Rearranges (l r : Int) (a b : Int → α) : Prop :=
  ∃ σ : Equiv.Perm Int, (∀ i, i < l ∨ r < i → σ i = i) ∧ b = a ∘ σ

variable {l r l' r' i j : Int} {a b c : Int → α}

theorem Rearranges.refl (l r : Int) (a : Int → α) : Rearranges l r a a :=
  ⟨Equiv.refl Int, fun _ _ => rfl, rfl⟩

theorem Rearranges.trans (h : Rearranges l r a b) (h' : Rearranges l r b c) :
    Rearranges l r a c := by
  obtain ⟨σ, hσ, rfl⟩ := h
  obtain ⟨τ, hτ, rfl⟩ := h'
  refine ⟨τ.trans σ, ?_, rfl⟩
  intro i hi
  rw [Equiv.trans_apply, hτ i hi, hσ i hi]

theorem Rearranges.mono (h : Rearranges l r a b) (hl : l' ≤ l) (hr : r ≤ r') :
    Rearranges l' r' a b := by
  obtain ⟨σ, hσ, rfl⟩ := h
  exact ⟨σ, fun i hi => hσ i (by omega), rfl⟩

theorem Rearranges.swap (hli : l ≤ i) (hir : i ≤ r) (hlj : l ≤ j) (hjr : j ≤ r) :
    Rearranges l r a (Function.update (Function.update a i (a j)) j (a i)) := by
  refine ⟨Equiv.swap j i, ?_, (Equiv.comp_swap_eq_update j i a).symm⟩
  intro k hk
  exact Equiv.swap_apply_of_ne_of_ne (by omega) (by omega)

/-- The other elements stay where they are. -/
theorem Rearranges.outside (h : Rearranges l r a b) (hi : i < l ∨ r < i) : b i = a i := by
  obtain ⟨σ, hσ, rfl⟩ := h
  exact congrArg a (hσ i hi)

/-- What holds of all elements of the segment holds of them in any order. -/
theorem Rearranges.forall_mem (h : Rearranges l r a b) {p : α → Prop}
    (hp : ∀ i, l ≤ i → i ≤ r → p (a i)) (hl : l ≤ i) (hr : i ≤ r) : p (b i) := by
  obtain ⟨σ, hσ, rfl⟩ := h
  by_cases hin : l ≤ σ i ∧ σ i ≤ r
  · exact hp (σ i) hin.1 hin.2
  · have hfixed : σ i = i := σ.injective (hσ (σ i) (by omega))
    omega

theorem Rearranges.perm (h : Rearranges l r a b) : (contents b l r).Perm (contents a l r) := by
  obtain ⟨σ, hσ, rfl⟩ := h
  have hnodup : (Int.range l (r + 1)).Nodup := by
    refine List.Nodup.map ?_ List.nodup_range
    intro m n hsame
    dsimp only at hsame
    omega
  have hsame : ((Int.range l (r + 1)).map σ).Perm (Int.range l (r + 1)) := by
    refine (List.perm_ext_iff_of_nodup (hnodup.map σ.injective) hnodup).mpr ?_
    intro k
    rw [List.mem_map, Int.mem_range_iff]
    refine ⟨?_, ?_⟩
    · rintro ⟨i, hi, rfl⟩
      rw [Int.mem_range_iff] at hi
      by_contra hout
      have hfixed : σ i = i := σ.injective (hσ (σ i) (by omega))
      omega
    · intro hk
      refine ⟨σ.symm k, ?_, σ.apply_symm_apply k⟩
      rw [Int.mem_range_iff]
      by_contra hout
      have hfixed : σ (σ.symm k) = σ.symm k := hσ (σ.symm k) (by omega)
      rw [σ.apply_symm_apply] at hfixed
      omega
  rw [contents, contents, ← List.map_map]
  exact hsame.map a

-- ============================================================================
-- Sorting
-- ============================================================================

variable [LinearOrder α] {p : α}

def SortedOn (l r : Int) (a : Int → α) : Prop := ∀ i j, l ≤ i → i ≤ j → j ≤ r → a i ≤ a j

theorem SortedOn.congr (h : SortedOn l r a) (hsame : ∀ i, l ≤ i → i ≤ r → b i = a i) :
    SortedOn l r b := by
  intro i j hl hij hr
  rw [hsame i hl (by omega), hsame j (by omega) hr]
  exact h i j hl hij hr

/-- Two sorted segments that meet at `p` make one. -/
theorem SortedOn.join {m : Int} (hlow : SortedOn l m a) (hhigh : SortedOn (m + 1) r a)
    (hle : ∀ i, l ≤ i → i ≤ m → a i ≤ p) (hge : ∀ i, m + 1 ≤ i → i ≤ r → p ≤ a i) :
    SortedOn l r a := by
  intro i j hl hij hr
  by_cases hjm : j ≤ m
  · exact hlow i j hl hij hjm
  · by_cases him : i ≤ m
    · exact (hle i hl him).trans (hge j (by omega) hr)
    · exact hhigh i j (by omega) hij hr

-- ============================================================================
-- Partitions
-- ============================================================================

/-- The elements below `i` are at most `p`, those above `j` at least `p`, and there is
    an element in the way of either scan.  The last field keeps the end of the
    partition off `r`. -/
structure Partitions (p : α) (l r : Int) (a : Int → α) (i j : Int) : Prop where
  le_left : l ≤ i
  le_right : j ≤ r
  low : ∀ k, l ≤ k → k < i → a k ≤ p
  high : ∀ k, j < k → k ≤ r → p ≤ a k
  stopUp : ∃ u, i ≤ u ∧ u ≤ r ∧ p ≤ a u ∧ (j < r ∨ u < r)
  stopDown : ∃ d, l ≤ d ∧ d ≤ j ∧ a d ≤ p

/-- At the start the pivot is in the way of both scans. -/
theorem partitions_initial {m : Int} (hl : l ≤ m) (hr : m < r) :
    Partitions (a m) l r a l r where
  le_left := Int.le_refl l
  le_right := Int.le_refl r
  low := fun k hk hlt => absurd hk (by omega)
  high := fun k hlt hk => absurd hk (by omega)
  stopUp := ⟨m, hl, by omega, le_refl _, .inr hr⟩
  stopDown := ⟨m, hl, by omega, le_refl _⟩

/-- One step of the scan from the left. -/
theorem Partitions.up (h : Partitions p l r a i j) (hlt : a i < p) :
    Partitions p l r a (i + 1) j := by
  obtain ⟨u, hiu, hur, hup, hlast⟩ := h.stopUp
  have hne : u ≠ i := fun heq => absurd (heq ▸ hup) (not_le_of_gt hlt)
  refine ⟨?_, h.le_right, ?_, h.high, ⟨u, by omega, hur, hup, hlast⟩, h.stopDown⟩
  · have hle := h.le_left
    omega
  · intro k hl hk
    rcases Int.lt_or_eq_of_le (show k ≤ i by omega) with hbefore | rfl
    · exact h.low k hl hbefore
    · exact le_of_lt hlt

/-- One step of the scan from the right. -/
theorem Partitions.down (h : Partitions p l r a i j) (hlt : p < a j) :
    Partitions p l r a i (j - 1) := by
  obtain ⟨d, hld, hdj, hdp⟩ := h.stopDown
  obtain ⟨u, hiu, hur, hup, -⟩ := h.stopUp
  have hle := h.le_right
  have hne : d ≠ j := fun heq => absurd (heq ▸ hdp) (not_le_of_gt hlt)
  refine ⟨h.le_left, by omega, h.low, ?_, ⟨u, hiu, hur, hup, .inl (by omega)⟩,
    ⟨d, hld, by omega, hdp⟩⟩
  intro k hk hr
  rcases Int.lt_or_eq_of_le (show j ≤ k by omega) with hafter | rfl
  · exact h.high k hafter hr
  · exact le_of_lt hlt

/-- Exchanging the elements at which the scans have stopped. -/
theorem Partitions.exchange (h : Partitions p l r a i j) (hij : i < j) (hi : p ≤ a i)
    (hj : a j ≤ p) :
    Partitions p l r (Function.update (Function.update a i (a j)) j (a i)) (i + 1) (j - 1) := by
  have hleft := h.le_left
  have hright := h.le_right
  have hat : ∀ k, k ≠ i → k ≠ j →
      Function.update (Function.update a i (a j)) j (a i) k = a k := by
    intro k hki hkj
    rw [Function.update_of_ne hkj, Function.update_of_ne hki]
  have hati : Function.update (Function.update a i (a j)) j (a i) i = a j := by
    rw [Function.update_of_ne (by omega), Function.update_self]
  have hatj : Function.update (Function.update a i (a j)) j (a i) j = a i :=
    Function.update_self ..
  refine ⟨by omega, by omega, ?_, ?_, ⟨j, by omega, hright, ?_, .inl (by omega)⟩,
    ⟨i, hleft, by omega, ?_⟩⟩
  · intro k hl hk
    rcases Int.lt_or_eq_of_le (show k ≤ i by omega) with hbefore | rfl
    · rw [hat k (by omega) (by omega)]
      exact h.low k hl hbefore
    · rw [hati]
      exact hj
  · intro k hk hr
    rcases Int.lt_or_eq_of_le (show j ≤ k by omega) with hafter | rfl
    · rw [hat k (by omega) (by omega)]
      exact h.high k hafter hr
    · rw [hatj]
      exact hi
  · rw [hatj]
    exact hi
  · rw [hati]
    exact hj

/-- Where the scans have met, the segment falls into two that are not empty. -/
theorem Partitions.finish (h : Partitions p l r a i j) (hmet : j ≤ i) (hj : a j ≤ p) :
    l ≤ j ∧ j < r ∧ (∀ k, l ≤ k → k ≤ j → a k ≤ p) ∧ ∀ k, j + 1 ≤ k → k ≤ r → p ≤ a k := by
  obtain ⟨u, hiu, hur, -, hlast⟩ := h.stopUp
  obtain ⟨d, hld, hdj, -⟩ := h.stopDown
  refine ⟨by omega, by omega, ?_, fun k hk hr => h.high k (by omega) hr⟩
  intro k hl hk
  rcases Int.lt_or_eq_of_le hk with hbefore | rfl
  · exact h.low k hl (by omega)
  · exact hj

end Segment
