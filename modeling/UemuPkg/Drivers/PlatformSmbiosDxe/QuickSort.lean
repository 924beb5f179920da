/-
  UemuPkg.Drivers.PlatformSmbiosDxe.QuickSort

  `QuickSortInt32`, the benchmark's sort.  An index is an integer (the sum of two indices
  of an array fits an `INTN`) and the array is the whole memory around it, so that an
  access outside the array is an access like any other; the state records the indices
  that have been read or written.  The two scan loops test no index.
-/

import UemuPkg.Base
import UemuPkg.Generic.Loop
import UemuPkg.Generic.Segment

namespace UemuPkg

open FuelLoop (Returns Turn loop)
open Segment (Rearranges Partitions SortedOn contents)

instance : LinearOrder INT32 where
  le_refl := Int32.le_refl
  le_trans _ _ _ := Int32.le_trans
  le_antisymm _ _ := Int32.le_antisymm
  le_total := Int32.le_total
  lt_iff_le_not_ge _ _ := Std.lt_iff_le_and_not_ge
  toDecidableLE := inferInstance

-- ============================================================================
-- The model
-- ============================================================================

structure SortState where
  array : Int → INT32
  /-- The indices of the reads and writes so far, the last one first. -/
  accessed : List Int

/-- A read of `Array[i]`. -/
def SortState.load (st : SortState) (i : Int) : INT32 × SortState :=
  (st.array i, { st with accessed := i :: st.accessed })

/-- A write of `Array[i]`. -/
def SortState.store (st : SortState) (i : Int) (value : INT32) : SortState :=
  { array := Function.update st.array i value, accessed := i :: st.accessed }

/-- `Tmp = Array[i]; Array[i] = Array[j]; Array[j] = Tmp;` -/
def SortState.exchange (st : SortState) (i j : Int) : SortState :=
  let (tmp, st) := st.load i
  let (value, st) := st.load j
  (st.store i value).store j tmp

/-- `if (Array[i] > Array[j])` exchange them. -/
def SortState.orderPair (st : SortState) (i j : Int) : SortState :=
  let (x, st) := st.load i
  let (y, st) := st.load j
  if x > y then st.exchange i j else st

/-- `while (Array[I] < Pivot) I++;` -/
def scanUp (pivot : INT32) : Nat → Int × SortState → Option (Int × SortState) :=
  loop fun _ (i, st) =>
    let (x, st) := st.load i
    if x < pivot then some (.again (i + 1, st)) else some (.leave (i, st))

/-- `while (Array[J] > Pivot) J--;` -/
def scanDown (pivot : INT32) : Nat → Int × SortState → Option (Int × SortState) :=
  loop fun _ (j, st) =>
    let (x, st) := st.load j
    if x > pivot then some (.again (j - 1, st)) else some (.leave (j, st))

/-- The loop `while (1)`: `J` where it breaks. -/
def partitionLoop (pivot : INT32) : Nat → Int × Int × SortState → Option (Int × SortState) :=
  loop fun fuel (i, j, st) => do
    let (i, st) ← scanUp pivot fuel (i, st)
    let (j, st) ← scanDown pivot fuel (j, st)
    if i ≥ j then
      return .leave (j, st)
    else
      return .again (i + 1, j - 1, st.exchange i j)

/-- `QuickSortInt32` up to the recursive calls: the median of three and the partition. -/
def quickSortPartition (left right : Int) (fuel : Nat) (st : SortState) :
    Option (Int × SortState) :=
  let i := (left + right).tdiv 2
  let st := st.orderPair left i
  let st := st.orderPair left right
  let st := st.orderPair i right
  let (pivot, st) := st.load i
  partitionLoop pivot fuel (left, right, st)

/-- `QuickSortInt32` -/
def quickSortInt32 : Nat → Int → Int → SortState → Option SortState
  | 0, _, _, _ => none
  | fuel + 1, left, right, st =>
    if left ≥ right then
      some st
    else do
      let (j, st) ← quickSortPartition left right fuel st
      let st ← quickSortInt32 fuel left j st
      quickSortInt32 fuel (j + 1) right st

-- ============================================================================
-- What a part of the sort may do
-- ============================================================================

/-- From `st` to `st'` the elements from `left` to `right` have been rearranged, and no
    other has been accessed. -/
structure WorksWithin (left right : Int) (st st' : SortState) : Prop where
  rearranges : Rearranges left right st.array st'.array
  accesses : ∃ new, st'.accessed = new ++ st.accessed ∧ ∀ i ∈ new, left ≤ i ∧ i ≤ right

variable {left right left' right' i j : Int} {st st' st'' : SortState} {pivot : INT32}

theorem WorksWithin.refl (left right : Int) (st : SortState) : WorksWithin left right st st :=
  ⟨.refl left right st.array, [], rfl, fun _ h => absurd h List.not_mem_nil⟩

theorem WorksWithin.trans (h : WorksWithin left right st st')
    (h' : WorksWithin left right st' st'') : WorksWithin left right st st'' := by
  obtain ⟨new, hnew, hin⟩ := h.accesses
  obtain ⟨new', hnew', hin'⟩ := h'.accesses
  refine ⟨h.rearranges.trans h'.rearranges, new' ++ new, ?_, ?_⟩
  · rw [hnew', hnew, List.append_assoc]
  · intro i hi
    exact (List.mem_append.mp hi).elim (hin' i) (hin i)

theorem WorksWithin.mono (h : WorksWithin left right st st') (hl : left' ≤ left)
    (hr : right ≤ right') : WorksWithin left' right' st st' := by
  obtain ⟨new, hnew, hin⟩ := h.accesses
  refine ⟨h.rearranges.mono hl hr, new, hnew, ?_⟩
  intro i hi
  have hbounds := hin i hi
  omega

theorem worksWithin_load (hl : left ≤ i) (hr : i ≤ right) :
    WorksWithin left right st (st.load i).2 := by
  refine ⟨.refl left right st.array, [i], rfl, ?_⟩
  intro k hk
  rw [List.mem_singleton.mp hk]
  exact ⟨hl, hr⟩

theorem worksWithin_exchange (hli : left ≤ i) (hir : i ≤ right) (hlj : left ≤ j)
    (hjr : j ≤ right) : WorksWithin left right st (st.exchange i j) := by
  refine ⟨.swap hli hir hlj hjr, [j, i, j, i], rfl, ?_⟩
  intro k hk
  simp only [List.mem_cons, List.not_mem_nil, or_false] at hk
  omega

theorem worksWithin_orderPair (hli : left ≤ i) (hir : i ≤ right) (hlj : left ≤ j)
    (hjr : j ≤ right) : WorksWithin left right st (st.orderPair i j) := by
  have hloads : WorksWithin left right st ((st.load i).2.load j).2 :=
    (worksWithin_load hli hir).trans (worksWithin_load hlj hjr)
  rw [SortState.orderPair]
  dsimp only [SortState.load]
  split
  · exact hloads.trans (worksWithin_exchange hli hir hlj hjr)
  · exact hloads

-- ============================================================================
-- The partition
-- ============================================================================

/-- A scan has come to the index `s.1`, and has only read. -/
structure Scanned (left right : Int) (st : SortState) (s : Int × SortState) : Prop where
  array : s.2.array = st.array
  works : WorksWithin left right st s.2

theorem Scanned.load {s : Int × SortState} (h : Scanned left right st s) (hl : left ≤ s.1)
    (hr : s.1 ≤ right) (k : Int) : Scanned left right st (k, (s.2.load s.1).2) :=
  ⟨h.array, h.works.trans (worksWithin_load hl hr)⟩

/-- The scan from the left stops inside the segment, at an element that is not below
    the pivot. -/
theorem scanUp_returns (h : Partitions pivot left right st.array i j) :
    ∃ s, Returns (fun fuel => scanUp pivot fuel (i, st)) s ∧
      (Scanned left right st s ∧ i ≤ s.1 ∧ Partitions pivot left right st.array s.1 j) ∧
      pivot ≤ st.array s.1 := by
  refine FuelLoop.loop_returns_post
    (fun s => Scanned left right st s ∧ i ≤ s.1 ∧ Partitions pivot left right st.array s.1 j)
    _ (fun s => (right + 1 - s.1).toNat) ?_ ⟨⟨rfl, .refl left right st⟩, Int.le_refl i, h⟩
  rintro ⟨k, mid⟩ ⟨hscan, hle, hparts⟩
  have harray : mid.array = st.array := hscan.array
  dsimp only at hle hparts
  obtain ⟨u, hku, hur, -⟩ := hparts.stopUp
  by_cases hlt : mid.array k < pivot
  · refine .inr ⟨(k + 1, (mid.load k).2), ?_,
      ⟨hscan.load hparts.le_left (by omega) _, by omega, hparts.up (harray ▸ hlt)⟩, ?_⟩
    · exact FuelLoop.returns_of_eq fun _ => if_pos hlt
    · dsimp only
      omega
  · refine .inl ⟨(k, (mid.load k).2), ?_,
      ⟨hscan.load hparts.le_left (by omega) _, hle, hparts⟩, harray ▸ le_of_not_gt hlt⟩
    exact FuelLoop.returns_of_eq fun _ => if_neg hlt

theorem scanDown_returns (h : Partitions pivot left right st.array i j) :
    ∃ s, Returns (fun fuel => scanDown pivot fuel (j, st)) s ∧
      (Scanned left right st s ∧ s.1 ≤ j ∧ Partitions pivot left right st.array i s.1) ∧
      st.array s.1 ≤ pivot := by
  refine FuelLoop.loop_returns_post
    (fun s => Scanned left right st s ∧ s.1 ≤ j ∧ Partitions pivot left right st.array i s.1)
    _ (fun s => (s.1 + 1 - left).toNat) ?_ ⟨⟨rfl, .refl left right st⟩, Int.le_refl j, h⟩
  rintro ⟨k, mid⟩ ⟨hscan, hle, hparts⟩
  have harray : mid.array = st.array := hscan.array
  dsimp only at hle hparts
  obtain ⟨d, hld, hdk, -⟩ := hparts.stopDown
  by_cases hgt : mid.array k > pivot
  · refine .inr ⟨(k - 1, (mid.load k).2), ?_,
      ⟨hscan.load (by omega) hparts.le_right _, by omega, hparts.down (harray ▸ hgt)⟩, ?_⟩
    · exact FuelLoop.returns_of_eq fun _ => if_pos hgt
    · dsimp only
      omega
  · refine .inl ⟨(k, (mid.load k).2), ?_,
      ⟨hscan.load (by omega) hparts.le_right _, hle, hparts⟩, harray ▸ le_of_not_gt hgt⟩
    exact FuelLoop.returns_of_eq fun _ => if_neg hgt

/-- What a partition leaves behind: no element of the segment up to `J` is above one
    behind it, and neither part is empty. -/
structure Partitioned (left right : Int) (st : SortState) (result : Int × SortState) : Prop where
  left_le : left ≤ result.1
  lt_right : result.1 < right
  works : WorksWithin left right st result.2
  split : ∃ pivot, (∀ k, left ≤ k → k ≤ result.1 → result.2.array k ≤ pivot) ∧
    ∀ k, result.1 + 1 ≤ k → k ≤ right → pivot ≤ result.2.array k

theorem partitionLoop_returns (st : SortState)
    (h : Partitions pivot left right st.array i j) :
    ∃ result, Returns (fun fuel => partitionLoop pivot fuel (i, j, st)) result ∧
      Partitioned left right st result := by
  refine FuelLoop.loop_returns_post
    (fun s : Int × Int × SortState => WorksWithin left right st s.2.2 ∧
      Partitions pivot left right s.2.2.array s.1 s.2.1)
    (Partitioned left right st) (fun s => (s.2.1 + 1 - s.1).toNat) ?_ ⟨.refl left right st, h⟩
  rintro ⟨i, j, mid⟩ ⟨hworks, hparts⟩
  dsimp only at hworks hparts
  obtain ⟨⟨i', up⟩, hup, ⟨⟨harrayUp, hworksUp⟩, hleUp, hpartsUp⟩, hstopUp⟩ := scanUp_returns hparts
  dsimp only at harrayUp hworksUp hleUp hpartsUp hstopUp
  rw [← harrayUp] at hpartsUp hstopUp
  obtain ⟨⟨j', down⟩, hdown, ⟨⟨harrayDown, hworksDown⟩, hleDown, hpartsDown⟩, hstopDown⟩ :=
    scanDown_returns hpartsUp
  dsimp only at harrayDown hworksDown hleDown hpartsDown hstopDown
  rw [← harrayDown] at hpartsDown hstopUp hstopDown
  have hmid : WorksWithin left right st down := hworks.trans (hworksUp.trans hworksDown)
  by_cases hmet : i' ≥ j'
  · obtain ⟨hl, hr, hlow, hhigh⟩ := hpartsDown.finish hmet hstopDown
    refine .inl ⟨(j', down), ?_, hl, hr, hmid, pivot, hlow, hhigh⟩
    refine hup.bind (hdown.bind ?_)
    simp only [if_pos hmet]
    exact FuelLoop.returns_pure _
  · have hlt : i' < j' := by omega
    have hle := hpartsDown.le_left
    have hge := hpartsDown.le_right
    refine .inr ⟨(i' + 1, j' - 1, down.exchange i' j'), ?_, ⟨?_, ?_⟩, ?_⟩
    · refine hup.bind (hdown.bind ?_)
      simp only [if_neg hmet]
      exact FuelLoop.returns_pure _
    · exact hmid.trans (worksWithin_exchange hle (by omega) (by omega) hge)
    · exact hpartsDown.exchange hlt hstopUp hstopDown
    · dsimp only
      omega

/-- The partition of a segment of two or more elements, around the middle one. -/
theorem quickSortPartition_returns {left right : Int} (h0 : 0 ≤ left) (hlt : left < right)
    (st : SortState) :
    ∃ result, Returns (fun fuel => quickSortPartition left right fuel st) result ∧
      Partitioned left right st result := by
  obtain ⟨m, hm, hlm, hmr⟩ : ∃ m, (left + right).tdiv 2 = m ∧ left ≤ m ∧ m < right := by
    refine ⟨_, rfl, ?_⟩
    rw [Int.tdiv_eq_ediv_of_nonneg (by omega)]
    omega
  have hfirst : WorksWithin left right st (st.orderPair left m) :=
    worksWithin_orderPair (Int.le_refl left) (by omega) hlm (by omega)
  have hsecond := hfirst.trans (worksWithin_orderPair (i := left) (j := right)
    (Int.le_refl left) (by omega) (by omega) (Int.le_refl right))
  have hthird := hsecond.trans (worksWithin_orderPair (i := m) (j := right)
    hlm (by omega) (by omega) (Int.le_refl right))
  have hpivot := hthird.trans (worksWithin_load hlm (by omega : m ≤ right))
  obtain ⟨result, hreturns, hresult⟩ := partitionLoop_returns
    (((((st.orderPair left m).orderPair left right).orderPair m right).load m).2)
    (Segment.partitions_initial hlm hmr)
  refine ⟨result, ?_, hresult.left_le, hresult.lt_right, hpivot.trans hresult.works, hresult.split⟩
  simp only [quickSortPartition, hm]
  exact hreturns

-- ============================================================================
-- The recursion
-- ============================================================================

theorem quickSortInt32_of_le (hle : right ≤ left) (st : SortState) :
    Returns (fun fuel => quickSortInt32 fuel left right st) st := by
  refine Returns.of_succ (fun fuel => ?_) (FuelLoop.returns_pure st)
  rw [quickSortInt32, if_pos hle]

/-- A call returns if its partition and the two calls inside it do. -/
theorem quickSortInt32_of_lt (hlt : left < right) {mid first done : SortState}
    (hpartition : Returns (fun fuel => quickSortPartition left right fuel st) (j, mid))
    (hfirst : Returns (fun fuel => quickSortInt32 fuel left j mid) first)
    (hsecond : Returns (fun fuel => quickSortInt32 fuel (j + 1) right first) done) :
    Returns (fun fuel => quickSortInt32 fuel left right st) done := by
  have hbody : Returns (fun fuel => (quickSortPartition left right fuel st).bind fun parts =>
      (quickSortInt32 fuel left parts.1 parts.2).bind fun first =>
        quickSortInt32 fuel (parts.1 + 1) right first) done :=
    hpartition.bind (hfirst.bind hsecond)
  refine Returns.of_succ (fun fuel => ?_) hbody
  rw [quickSortInt32, if_neg (by omega)]
  rfl

/-- What a call does to its segment. -/
structure Sorts (left right : Int) (st done : SortState) : Prop where
  works : WorksWithin left right st done
  sorted : SortedOn left right done.array

/-- The two calls sort the parts of a partitioned segment, and so the segment. -/
theorem Partitioned.sorts {mid first done : SortState}
    (h : Partitioned left right st (j, mid)) (hfirst : Sorts left j mid first)
    (hsecond : Sorts (j + 1) right first done) : Sorts left right st done := by
  have hl : left ≤ j := h.left_le
  have hr : j < right := h.lt_right
  obtain ⟨pivot, hlow, hhigh⟩ := h.split
  dsimp only at hlow hhigh
  have hdone : ∀ k, k ≤ j → done.array k = first.array k := fun k hk =>
    hsecond.works.rearranges.outside (.inl (by omega))
  have hmid : ∀ k, j + 1 ≤ k → first.array k = mid.array k := fun k hk =>
    hfirst.works.rearranges.outside (.inr (by omega))
  refine ⟨h.works.trans ((hfirst.works.mono (Int.le_refl left) (by omega)).trans
    (hsecond.works.mono (by omega) (Int.le_refl right))), ?_⟩
  refine SortedOn.join (p := pivot) (m := j) ?_ hsecond.sorted ?_ ?_
  · exact hfirst.sorted.congr fun k _ hk => hdone k hk
  · intro k hlk hk
    rw [hdone k hk]
    exact hfirst.works.rearranges.forall_mem (p := (· ≤ pivot)) hlow hlk hk
  · intro k hk hkr
    refine hsecond.works.rearranges.forall_mem (p := (pivot ≤ ·)) ?_ hk hkr
    intro i hi hir
    rw [hmid i hi]
    exact hhigh i hi hir

/-- Every call returns, and sorts its segment. -/
theorem quickSortInt32_returns (left right : Int) (h0 : 0 ≤ left) (st : SortState) :
    ∃ done, Returns (fun fuel => quickSortInt32 fuel left right st) done ∧
      Sorts left right st done := by
  -- Both parts of a partition are shorter than the segment.
  induction hn : (right - left).toNat using Nat.strongRecOn generalizing left right st with
  | _ n ih =>
      by_cases hle : right ≤ left
      · refine ⟨st, quickSortInt32_of_le hle st, .refl left right st, ?_⟩
        intro i j hi hij hj
        rw [show i = j by omega]
      · obtain ⟨⟨j, mid⟩, hpartition, hparts⟩ :=
          quickSortPartition_returns h0 (Int.lt_of_not_ge hle) st
        have hl : left ≤ j := hparts.left_le
        have hr : j < right := hparts.lt_right
        obtain ⟨first, hfirst, hfirstSorts⟩ :=
          ih (j - left).toNat (by omega) left j h0 mid rfl
        obtain ⟨done, hsecond, hsecondSorts⟩ :=
          ih (right - (j + 1)).toNat (by omega) (j + 1) right (by omega) first rfl
        exact ⟨done, quickSortInt32_of_lt (by omega) hpartition hfirst hsecond,
          hparts.sorts hfirstSorts hsecondSorts⟩

/-- `QuickSortInt32` sorts: the segment is in order afterwards, holds what it held, and
    the rest of the memory is as it was. -/
theorem quickSortInt32_sorts (array : Int → INT32) (left right : Int) (h0 : 0 ≤ left) :
    ∃ done, Returns (fun fuel => quickSortInt32 fuel left right ⟨array, []⟩) done ∧
      (∀ i j, left ≤ i → i ≤ j → j ≤ right → done.array i ≤ done.array j) ∧
      (contents done.array left right).Perm (contents array left right) ∧
      ∀ i, i < left ∨ right < i → done.array i = array i := by
  obtain ⟨done, hreturns, hworks, hsorted⟩ := quickSortInt32_returns left right h0 ⟨array, []⟩
  exact ⟨done, hreturns, hsorted, hworks.rearranges.perm, fun i hi => hworks.rearranges.outside hi⟩

/-- Three elements, two of them equal. -/
def sampleArray (i : Int) : INT32 := if i = 1 then -1 else 3

theorem quickSortInt32_sorts_sample :
    ∃ done, Returns (fun fuel => quickSortInt32 fuel 0 2 ⟨sampleArray, []⟩) done ∧
      done.array 0 ≤ done.array 1 ∧ done.array 1 ≤ done.array 2 ∧
      (contents done.array 0 2).Perm [3, -1, 3] := by
  obtain ⟨done, hreturns, hsorted, hperm, -⟩ :=
    quickSortInt32_sorts sampleArray 0 2 (by decide)
  exact ⟨done, hreturns, hsorted 0 1 (by decide) (by decide) (by decide),
    hsorted 1 2 (by decide) (by decide) (by decide), hperm⟩

/-- `QuickSortInt32` ends and keeps to its segment: the partition leaves two shorter
    segments that are not empty, on which the recursive calls return, and all accesses
    together are at indices of the segment. -/
theorem quickSortInt32_stays_within (left right : Int) (h0 : 0 ≤ left) (hlt : left < right)
    (st : SortState) :
    ∃ j mid first done,
      Returns (fun fuel => quickSortPartition left right fuel st) (j, mid) ∧
      left ≤ j ∧ j < right ∧
      Returns (fun fuel => quickSortInt32 fuel left j mid) first ∧
      Returns (fun fuel => quickSortInt32 fuel (j + 1) right first) done ∧
      Returns (fun fuel => quickSortInt32 fuel left right st) done ∧
      ∃ new, done.accessed = new ++ st.accessed ∧ ∀ i ∈ new, left ≤ i ∧ i ≤ right := by
  obtain ⟨⟨j, mid⟩, hpartition, hparts⟩ := quickSortPartition_returns h0 hlt st
  have hl : left ≤ j := hparts.left_le
  have hr : j < right := hparts.lt_right
  obtain ⟨first, hfirst, hfirstSorts⟩ := quickSortInt32_returns left j h0 mid
  obtain ⟨done, hsecond, hsecondSorts⟩ := quickSortInt32_returns (j + 1) right (by omega) first
  exact ⟨j, mid, first, done, hpartition, hl, hr, hfirst, hsecond,
    quickSortInt32_of_lt hlt hpartition hfirst hsecond,
    (hparts.sorts hfirstSorts hsecondSorts).works.accesses⟩

theorem quickSortInt32_stays_within_sample :
    ∃ done, Returns (fun fuel => quickSortInt32 fuel 0 2 ⟨sampleArray, []⟩) done ∧
      ∃ new, done.accessed = new ++ [] ∧ ∀ i ∈ new, 0 ≤ i ∧ i ≤ 2 := by
  obtain ⟨-, -, -, done, -, -, -, -, -, hreturns, haccesses⟩ :=
    quickSortInt32_stays_within 0 2 (by decide) (by decide) ⟨sampleArray, []⟩
  exact ⟨done, hreturns, haccesses⟩

end UemuPkg
