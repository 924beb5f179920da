/-
  UemuPkg.Generic.KeyedList

  Lists whose entries are deleted by key.  `sweep` deletes what a snapshot marks; on a
  snapshot of the list itself, with distinct keys, it is a filter.  `upkeep` adds an entry
  unless one like it is listed and filters the rest; it settles after one turn.
-/

import Mathlib.Data.List.Nodup

namespace KeyedList

variable {α κ : Type*} [DecidableEq κ] {key : α → κ} {stale : α → Bool} {l : List α} {x : α}

-- ============================================================================
-- Deletion
-- ============================================================================

/-- Delete the entries with this key. -/
def delete (key : α → κ) (l : List α) (k : κ) : List α := l.filter fun x => key x ≠ k

/-- Delete by key, one after the other, what is marked in the snapshot. -/
def sweep (key : α → κ) (stale : α → Bool) (snapshot l : List α) : List α :=
  snapshot.foldl (fun l x => if stale x then delete key l (key x) else l) l

/-- What is left are the entries whose key no marked entry of the snapshot has. -/
theorem sweep_eq_filter (snapshot : List α) :
    sweep key stale snapshot l
      = l.filter fun x => snapshot.all fun y => !(stale y) || key y != key x := by
  induction snapshot generalizing l with
  | nil =>
      rw [sweep, List.foldl_nil]
      exact (List.filter_eq_self.mpr fun _ _ => rfl).symm
  | cons y snapshot ih =>
      have htail : sweep key stale (y :: snapshot) l
          = sweep key stale snapshot (if stale y then delete key l (key y) else l) := rfl
      rw [htail, ih]
      cases hstale : stale y with
      | false =>
          rw [if_neg Bool.false_ne_true]
          apply List.filter_congr
          intro x _
          rw [List.all_cons, hstale, Bool.not_false, Bool.true_or, Bool.true_and]
      | true =>
          rw [if_pos rfl, delete, List.filter_filter]
          apply List.filter_congr
          intro x _
          rw [List.all_cons, hstale, Bool.not_true, Bool.false_or, Bool.and_comm]
          congr 1
          rw [Bool.eq_iff_iff, decide_eq_true_eq, bne_iff_ne]
          exact ne_comm

/-- With distinct keys, what is left of the list itself are its unmarked entries. -/
theorem sweep_self (hdistinct : (l.map key).Nodup) :
    sweep key stale l l = l.filter fun x => !(stale x) := by
  rw [sweep_eq_filter]
  apply List.filter_congr
  intro x hx
  rw [Bool.eq_iff_iff, List.all_eq_true]
  constructor
  · intro hall
    have hself := hall x hx
    rwa [bne_self_eq_false, Bool.or_false] at hself
  · intro hunmarked y hy
    by_cases hkey : key y = key x
    · rw [List.inj_on_of_nodup_map hdistinct hy hx hkey, hunmarked, Bool.true_or]
    · rw [bne_iff_ne.mpr hkey, Bool.or_true]

-- ============================================================================
-- Upkeep
-- ============================================================================

/-- Add `x` unless an entry like it is listed. -/
def addMissing (like : α → Bool) (l : List α) (x : α) : List α := if l.any like then l else l ++ [x]

/-- Add `x` unless an entry like it is listed, and keep what passes the test. -/
def upkeep (like keep : α → Bool) (l : List α) (x : α) : List α := (addMissing like l x).filter keep

/-- All entries pass the test, and an entry is listed unless none like it passes. -/
def Settled (like keep : α → Bool) (l : List α) : Prop :=
  (∀ x ∈ l, keep x = true) ∧ (l.any like = true ∨ ∀ x, like x = true → keep x = false)

variable {like keep : α → Bool}

/-- One turn settles the list, if the test does not tell like entries apart. -/
theorem settled_upkeep (halike : ∀ x y, like x = true → like y = true → keep x = keep y)
    (hx : like x = true) : Settled like keep (upkeep like keep l x) := by
  constructor
  · intro y hy
    exact (List.mem_filter.mp hy).2
  · have hlisted : ∃ y ∈ addMissing like l x, like y = true := by
      rw [addMissing]
      split
      · rename_i hany
        exact List.any_eq_true.mp hany
      · exact ⟨x, List.mem_append_right l List.mem_cons_self, hx⟩
    obtain ⟨y, hy, hlike⟩ := hlisted
    cases hkeep : keep y with
    | true =>
        left
        exact List.any_eq_true.mpr ⟨y, List.mem_filter.mpr ⟨hy, hkeep⟩, hlike⟩
    | false =>
        right
        intro z hz
        exact (halike z y hz hlike).trans hkeep

/-- A settled list stays as it is. -/
theorem Settled.upkeep_eq (h : Settled like keep l) (hx : like x = true) :
    upkeep like keep l x = l := by
  have hself : l.filter keep = l := List.filter_eq_self.mpr h.1
  rw [upkeep, addMissing]
  split
  · exact hself
  · rename_i hany
    have hstale : keep x = false := h.2.resolve_left hany x hx
    rw [List.filter_append, hself, List.filter_cons_of_neg (Bool.eq_false_iff.mp hstale),
      List.filter_nil, List.append_nil]

/-- Of the entries that were listed before, those that pass the test are left. -/
theorem mem_upkeep_iff {y : α} (hy : y ∈ l) : y ∈ upkeep like keep l x ↔ keep y = true := by
  have hadded : y ∈ addMissing like l x := by
    rw [addMissing]
    split
    · exact hy
    · exact List.mem_append_left [x] hy
  rw [upkeep, List.mem_filter]
  exact and_iff_right hadded

/-- The entries that pass keep their order, and at most the new one comes behind them. -/
theorem filter_prefix_upkeep (l : List α) (x : α) : l.filter keep <+: upkeep like keep l x := by
  rw [upkeep, addMissing]
  split
  · exact List.prefix_refl _
  · rw [List.filter_append]
    exact List.prefix_append _ _

/-- Entries that always pass are those of before, if the new one is not of their kind. -/
theorem filter_upkeep (p : α → Bool) (hp : ∀ y, p y = true → keep y = true) (hx : p x = false) :
    (upkeep like keep l x).filter p = l.filter p := by
  have hadded : (addMissing like l x).filter p = l.filter p := by
    rw [addMissing]
    split
    · rfl
    · simp [hx]
  rw [upkeep, List.filter_filter, ← hadded]
  apply List.filter_congr
  intro y _
  cases hy : p y with
  | false => rfl
  | true => exact (Bool.true_and _).trans (hp y hy)

/-- Of one kind, at most one entry is listed, or no more than before. -/
theorem countP_upkeep_le {q : α → Bool}
    (hlike : q x = true → ∀ y, q y = true → like y = true) :
    (upkeep like keep l x).countP q ≤ max 1 (l.countP q) := by
  have hle : (upkeep like keep l x).countP q ≤ (addMissing like l x).countP q :=
    List.filter_sublist.countP_le
  rw [addMissing] at hle
  split at hle
  · omega
  · rename_i hany
    rw [List.countP_append, List.countP_singleton] at hle
    by_cases hx : q x = true
    · have hnone : l.countP q = 0 := by
        rw [List.countP_eq_zero]
        intro y hy hq
        exact hany (List.any_eq_true.mpr ⟨y, hy, hlike hx y hq⟩)
      rw [if_pos hx] at hle
      omega
    · rw [if_neg hx] at hle
      omega

end KeyedList
