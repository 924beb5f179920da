/-
  UemuPkg.Library.PlatformSecLib.SystemMemory

  The blocks `MemoryInitialization` builds, in closed form.  A tuple loop emits
  one block for each range in the node's `regPrefix`; the node loops concatenate
  these over the nodes they visit.
-/

import UemuPkg.Library.PlatformSecLib.Memory

namespace UemuPkg

open FuelLoop (Returns Turn)
open Cursor (Enumerates)

variable {fdt : Fdt}

-- ============================================================================
-- One node
-- ============================================================================

theorem index_succ_toNat {index : UINTN} {n : Nat} (h : index.toNat < n) (hn : n ≤ 2 ^ 31) :
    (index + 1).toNat = index.toNat + 1 := by
  rw [BitVec.toNat_add, show (1 : UINTN).toNat = 1 from rfl]
  exact Nat.mod_eq_of_lt (by omega)

/-- The tuple loop ends, with one block for each range of the longest valid
    prefix. -/
theorem tupleLoop_returns (fdt : Fdt) (node : Int) (emit : UINT64 → UINT64 → Hob) (hobs : List Hob) :
    Returns (fun fuel => tupleLoop fdt node emit fuel (0, hobs))
      (hobs ++ (fdt.regPrefix node).map fun t => emit t.1 t.2) := by
  have hcount := fdt.regCount_le node
  -- The invariant: the blocks of the tuples before `index` have been built.
  refine FuelLoop.loop_returns_of_measure
    (fun st => st.1.toNat ≤ fdt.regCount node ∧
      st.2 = hobs ++ (fdt.tuplesBefore node st.1.toNat).map fun t => emit t.1 t.2)
    (fun st => fdt.regCount node - st.1.toNat) ?_ ⟨Nat.zero_le _, by simp⟩
  rintro ⟨index, built⟩ ⟨hle, hbuilt⟩
  dsimp only at hle hbuilt
  have hindex : BitVec.ofNat 64 index.toNat = index := by
    rw [BitVec.ofNat_toNat, BitVec.setWidth_eq]
  rcases Nat.lt_or_eq_of_le hle with hlt | heq
  · obtain ⟨⟨base, size⟩, ht⟩ := Fdt.regTuple_of_lt_regCount hlt
    have hread := Fdt.regTuple_eq_some_iff.mp ht
    rw [hindex] at hread
    have hsucc : (index + 1).toNat = index.toNat + 1 := index_succ_toNat hlt hcount
    right
    refine ⟨(index + 1, built ++ [emit base size]), ?_, ?_, ?_⟩
    · simp only [hread]
      exact FuelLoop.returns_pure _
    · refine ⟨by rw [hsucc]; exact hlt, ?_⟩
      dsimp only
      rw [hsucc, Fdt.tuplesBefore_succ ht, hbuilt, List.map_append, List.append_assoc]
      rfl
    · dsimp only
      rw [hsucc]
      omega
  · obtain ⟨status, hread⟩ := Fdt.regTuple_eq_none_iff.mp (fdt.regTuple_regCount node)
    rw [← heq, hindex] at hread
    left
    rw [hbuilt, heq]
    cases status <;> simp only [hread] <;> exact FuelLoop.returns_pure _

/-- A RAM block carries the range as it was read: the round trip through the
    limit subtracts what was added. -/
theorem initializeRamRegions_eq (base size : UINT64) :
    initializeRamRegions base size
      = .resourceDescriptor .systemMemory
          [.present, .initialized, .uncacheable, .writeCombineable, .writeThroughCacheable,
            .writeBackCacheable, .tested] base size := by
  rw [initializeRamRegions, addMemoryRangeHob, addMemoryBaseSizeHob, BitVec.add_comm,
    BitVec.add_sub_cancel]

-- ============================================================================
-- All nodes
-- ============================================================================

/-- The RAM blocks of one node. -/
def ramHobs (fdt : Fdt) (node : Int) : List Hob :=
  (fdt.regPrefix node).map fun t => initializeRamRegions t.1 t.2

/-- The node loop ends, with the RAM blocks of the memory nodes it visits. -/
theorem memoryNodeLoop_returns {prev : Int} {nodes : List Int}
    (hnodes : Enumerates fdt.nextNode (fdt.nextNode prev) nodes) (hobs : List Hob) :
    Returns (fun fuel => memoryNodeLoop fdt fuel (prev, hobs))
      (hobs ++ (nodes.filter (isMemoryNode fdt)).flatMap (ramHobs fdt)) := by
  induction nodes generalizing prev hobs with
  | nil =>
      cases hnodes with
      | stop hneg =>
          refine Returns.loop_leave ?_
          simp only [if_pos hneg, List.filter_nil, List.flatMap_nil, List.append_nil]
          exact FuelLoop.returns_pure _
  | cons node nodes ih =>
      generalize hnext : fdt.nextNode prev = next at hnodes
      cases hnodes with
      | visit hpos hrest =>
          have hneg : ¬ fdt.nextNode prev < 0 := by omega
          by_cases hmem : isMemoryNode fdt node = true
          · have htuples := tupleLoop_returns fdt node initializeRamRegions hobs
            rw [List.filter_cons_of_pos hmem, List.flatMap_cons, ← List.append_assoc]
            refine Returns.loop_again ?_ (ih hrest _)
            simp only [hnext, if_neg (hnext ▸ hneg), if_pos hmem]
            exact htuples.map fun hobs => Turn.again (node, hobs)
          · rw [List.filter_cons_of_neg hmem]
            refine Returns.loop_again ?_ (ih hrest hobs)
            simp only [hnext, if_neg (hnext ▸ hneg), if_neg hmem]
            exact FuelLoop.returns_pure _

/-- The reserve-map entries `AddReservedMemoryMap` accepts, as blocks. -/
def reserveMapHobs (fdt : Fdt) : List Hob :=
  (List.range fdt.numberOfReserveMapEntries.toNat).flatMap fun i =>
    match fdt.reserveMapEntry i with
    | none => []
    | some (addr, size) =>
      if size ≠ 0 ∧ addr ≤ MAX_UINT64 - size then
        [.memoryAllocation addr size .reservedMemoryType]
      else []

/-- The blocks of one child of `/reserved-memory`. -/
def reservedHobs (fdt : Fdt) (subNode : Int) : List Hob :=
  (fdt.regPrefix subNode).map fun t =>
    .memoryAllocation t.1 t.2 (reservedMemoryTypeOf fdt subNode)

/-- The children of `/reserved-memory`, in `FdtForEachSubnode` order. -/
def Fdt.ReservedChildren (fdt : Fdt) (children : List Int) : Prop :=
  if fdt.subnodeOffset 0 "reserved-memory" ≥ 0 then
    Enumerates fdt.nextSubnode (fdt.firstSubnode (fdt.subnodeOffset 0 "reserved-memory")) children
  else
    children = []

theorem reserveMap_foldl (hobs : List Hob) (is : List Nat) :
    is.foldl (addReserveMapEntry fdt) hobs
      = hobs ++ is.flatMap fun i =>
          match fdt.reserveMapEntry i with
          | none => []
          | some (addr, size) =>
            if size ≠ 0 ∧ addr ≤ MAX_UINT64 - size then
              [.memoryAllocation addr size .reservedMemoryType]
            else [] := by
  induction is generalizing hobs with
  | nil => simp
  | cons i is ih =>
      rw [List.foldl_cons, ih, List.flatMap_cons, ← List.append_assoc]
      congr 1
      rw [addReserveMapEntry]
      cases fdt.reserveMapEntry i with
      | none => simp
      | some entry =>
          dsimp only
          split_ifs <;> simp

/-- The loop over the children ends, with the blocks of every child. -/
theorem reservedNodeLoop_returns {subNode : Int} {children : List Int}
    (hchildren : Enumerates fdt.nextSubnode subNode children) (hobs : List Hob) :
    Returns (fun fuel => reservedNodeLoop fdt fuel (subNode, hobs))
      (hobs ++ children.flatMap (reservedHobs fdt)) := by
  induction hchildren generalizing hobs with
  | stop hneg =>
      refine Returns.loop_leave ?_
      simp only [if_pos hneg, List.flatMap_nil, List.append_nil]
      exact FuelLoop.returns_pure _
  | @visit child rest hpos _ ih =>
      have htuples := tupleLoop_returns fdt child
        (fun addr size => .memoryAllocation addr size (reservedMemoryTypeOf fdt child)) hobs
      rw [List.flatMap_cons, ← List.append_assoc]
      refine Returns.loop_again ?_ (ih _)
      simp only [if_neg (show ¬ child < 0 by omega)]
      exact htuples.map fun hobs => Turn.again (fdt.nextSubnode child, hobs)

/-- `AddReservedMemoryMap` ends, with the accepted reserve-map entries and then
    the blocks of every child. -/
theorem addReservedMemoryMap_returns {children : List Int}
    (hchildren : fdt.ReservedChildren children) (hobs : List Hob) :
    Returns (fun fuel => addReservedMemoryMap fdt fuel hobs)
      (hobs ++ reserveMapHobs fdt ++ children.flatMap (reservedHobs fdt)) := by
  simp only [addReservedMemoryMap, reserveMap_foldl]
  rw [← reserveMapHobs]
  rw [Fdt.ReservedChildren] at hchildren
  by_cases hnode : fdt.subnodeOffset 0 "reserved-memory" ≥ 0
  · rw [if_pos hnode] at hchildren
    simp only [if_pos hnode]
    exact reservedNodeLoop_returns hchildren _
  · rw [if_neg hnode] at hchildren
    simp only [if_neg hnode, hchildren, List.flatMap_nil, List.append_nil]
    exact FuelLoop.returns_pure _

-- ============================================================================
-- The published RAM
-- ============================================================================

/-- The node's `device_type` is exactly `"memory"`. -/
def Fdt.isMemory (fdt : Fdt) (node : Int) : Bool :=
  (fdt.getProp node "device_type").map FdtProp.bytes
    == some (ascii ['m', 'e', 'm', 'o', 'r', 'y'] ++ [0])

/-- A string of seven bytes that compares equal to a literal of six characters is
    the literal with its NUL. -/
theorem asciiStrEq_of_length {bs cs : List UINT8} (hlen : bs.length = cs.length + 1)
    (hcs : ∀ c ∈ cs, c ≠ 0) : asciiStrEq bs (cs ++ [0]) = true ↔ bs = cs ++ [0] := by
  have hliteral : (cs ++ [0]).takeWhile (· ≠ 0) = cs := by
    rw [List.takeWhile_append_of_pos (by simpa using hcs)]
    simp
  refine ⟨?_, ?_⟩
  · intro h
    have htake : bs.takeWhile (· ≠ 0) = cs := by
      have := eq_of_beq h
      rwa [hliteral] at this
    obtain ⟨c, hc⟩ : ∃ c, bs.dropWhile (· ≠ 0) = [c] := by
      have happ := congrArg List.length (List.takeWhile_append_dropWhile (p := (· ≠ 0)) (l := bs))
      rw [List.length_append, htake, hlen] at happ
      exact List.length_eq_one_iff.mp (by omega)
    have hzero : c = 0 := by
      have hhead := List.head?_dropWhile_not (· ≠ 0) bs
      rw [hc] at hhead
      simpa using hhead
    rw [← List.takeWhile_append_dropWhile (p := (· ≠ 0)) (l := bs), htake, hc, hzero]
  · rintro rfl
    simp [asciiStrEq]

theorem isMemoryNode_eq (fdt : Fdt) (node : Int) : isMemoryNode fdt node = fdt.isMemory node := by
  rw [isMemoryNode, Fdt.isMemory]
  cases fdt.getProp node "device_type" with
  | none => rfl
  | some type =>
      rw [Option.map_some, Bool.eq_iff_iff, Bool.and_eq_true, beq_iff_eq, beq_iff_eq,
        Option.some.injEq]
      refine ⟨?_, ?_⟩
      · rintro ⟨hlen, heq⟩
        exact (asciiStrEq_of_length hlen (by decide)).mp heq
      · intro h
        have hlen : type.bytes.length = 7 := by rw [h]; rfl
        exact ⟨hlen, (asciiStrEq_of_length hlen (by decide)).mpr h⟩

@[simp] theorem systemMemory_append (xs ys : List Hob) :
    systemMemory (xs ++ ys) = systemMemory xs ++ systemMemory ys :=
  List.filterMap_append

theorem systemMemory_ramHobs (fdt : Fdt) (node : Int) :
    systemMemory (ramHobs fdt node) = fdt.regPrefix node := by
  simp only [ramHobs, initializeRamRegions_eq]
  induction fdt.regPrefix node with
  | nil => rfl
  | cons t ts ih => rw [List.map_cons, systemMemory, List.filterMap_cons, ← systemMemory, ih]

theorem systemMemory_flatMap {α : Type} (f : α → List Hob) (xs : List α) :
    systemMemory (xs.flatMap f) = xs.flatMap fun x => systemMemory (f x) := by
  induction xs with
  | nil => rfl
  | cons x xs ih => rw [List.flatMap_cons, systemMemory_append, ih, List.flatMap_cons]

/-- `built` is `hobs` with blocks appended that are not RAM. -/
def ExtendsWithoutRam (hobs built : List Hob) : Prop :=
  ∃ rest, built = hobs ++ rest ∧ systemMemory rest = []

theorem ExtendsWithoutRam.refl (hobs : List Hob) : ExtendsWithoutRam hobs hobs :=
  ⟨[], (List.append_nil hobs).symm, rfl⟩

theorem ExtendsWithoutRam.trans {xs ys zs : List Hob} (h : ExtendsWithoutRam xs ys)
    (h' : ExtendsWithoutRam ys zs) : ExtendsWithoutRam xs zs := by
  obtain ⟨us, rfl, hus⟩ := h
  obtain ⟨vs, rfl, hvs⟩ := h'
  exact ⟨us ++ vs, List.append_assoc xs us vs, by rw [systemMemory_append, hus, hvs]; rfl⟩

theorem ExtendsWithoutRam.append_one {hobs built : List Hob} {hob : Hob}
    (h : ExtendsWithoutRam hobs built) (hhob : systemMemory [hob] = []) :
    ExtendsWithoutRam hobs (built ++ [hob]) :=
  h.trans ⟨[hob], rfl, hhob⟩

theorem ExtendsWithoutRam.systemMemory_eq {hobs built : List Hob}
    (h : ExtendsWithoutRam hobs built) : systemMemory built = systemMemory hobs := by
  obtain ⟨rest, rfl, hrest⟩ := h
  rw [systemMemory_append, hrest, List.append_nil]

theorem reserveMap_extends (fdt : Fdt) (hobs : List Hob) (is : List Nat) :
    ExtendsWithoutRam hobs (is.foldl (addReserveMapEntry fdt) hobs) := by
  induction is generalizing hobs with
  | nil => exact .refl hobs
  | cons i is ih =>
      refine ExtendsWithoutRam.trans ?_ (ih _)
      rw [addReserveMapEntry]
      cases fdt.reserveMapEntry i with
      | none => exact .refl hobs
      | some entry =>
          dsimp only
          split_ifs
          · exact (ExtendsWithoutRam.refl hobs).append_one rfl
          · exact .refl hobs

theorem tupleLoop_extends {node : Int} {emit : UINT64 → UINT64 → Hob}
    (hemit : ∀ base size, systemMemory [emit base size] = []) {fuel : Nat}
    {hobs built : List Hob} (h : tupleLoop fdt node emit fuel (0, hobs) = some built) :
    ExtendsWithoutRam hobs built := by
  refine FuelLoop.loop_post (fun st => ExtendsWithoutRam hobs st.2)
    (ExtendsWithoutRam hobs) ?_ ?_ (.refl hobs) h
  · rintro - ⟨index, mid⟩ s' hmid hturn
    dsimp only at hturn
    split at hturn
    · cases hturn
    · cases hturn
    · obtain rfl := Turn.again.inj (Option.some.inj hturn)
      exact hmid.append_one (hemit _ _)
  · rintro - ⟨index, mid⟩ r hmid hturn
    dsimp only at hturn
    split at hturn
    · exact Turn.leave.inj (Option.some.inj hturn) ▸ hmid
    · exact Turn.leave.inj (Option.some.inj hturn) ▸ hmid
    · cases hturn

theorem reservedNodeLoop_extends {fuel : Nat} {subNode : Int} {hobs built : List Hob}
    (h : reservedNodeLoop fdt fuel (subNode, hobs) = some built) :
    ExtendsWithoutRam hobs built := by
  refine FuelLoop.loop_post (fun st => ExtendsWithoutRam hobs st.2)
    (ExtendsWithoutRam hobs) ?_ ?_ (.refl hobs) h
  · rintro fuel ⟨node, mid⟩ s' hmid hturn
    dsimp only at hturn
    split_ifs at hturn
    · cases hturn
    · obtain ⟨mid', htuples, hnext⟩ := Option.map_eq_some_iff.mp hturn
      obtain rfl := Turn.again.inj hnext
      exact hmid.trans (tupleLoop_extends (fun _ _ => rfl) htuples)
  · rintro fuel ⟨node, mid⟩ r hmid hturn
    dsimp only at hturn
    split_ifs at hturn
    · exact Turn.leave.inj (Option.some.inj hturn) ▸ hmid
    · obtain ⟨mid', -, hnext⟩ := Option.map_eq_some_iff.mp hturn
      cases hnext

/-- Reservations are not RAM. -/
theorem addReservedMemoryMap_extends {fuel : Nat} {hobs built : List Hob}
    (h : addReservedMemoryMap fdt fuel hobs = some built) : ExtendsWithoutRam hobs built := by
  have hmap := reserveMap_extends fdt hobs
    (List.range fdt.numberOfReserveMapEntries.toNat)
  simp only [addReservedMemoryMap] at h
  split_ifs at h
  · exact hmap.trans (reservedNodeLoop_extends h)
  · exact Option.some.inj h ▸ hmap

theorem memoryInitialization_eq (pcds : MemoryTypePcds) (fuel : Nat) (hobs : List Hob) :
    memoryInitialization pcds fdt fuel hobs
      = (memoryNodeLoop fdt fuel (0, hobs)).bind fun hobs =>
          (addReservedMemoryMap fdt fuel hobs).map fun hobs =>
            (.success, hobs ++ [buildMemoryTypeHob pcds]) := by
  rw [memoryInitialization]
  cases memoryNodeLoop fdt fuel (0, hobs) with
  | none => rfl
  | some hobs => cases h : addReservedMemoryMap fdt fuel hobs <;> simp [h]

/-- `MemoryInitialization` publishes exactly the described RAM: both its loops
    end, and the system-memory blocks are the longest valid `reg` prefixes of the
    memory nodes, in `FdtNextNode` order.  No published range wraps, so the limit
    arithmetic is exact.  What follows the loops adds no RAM, and returns whenever
    the walk over the reserved children ends. -/
theorem memoryInitialization_publishes_ram (pcds : MemoryTypePcds) (fdt : Fdt) (totalSize : Int)
    (hnext : Cursor.Advances fdt.nextNode totalSize) (hobs : List Hob) :
    ∃ nodes ram, Enumerates fdt.nextNode (fdt.nextNode 0) nodes ∧
      Returns (fun fuel => memoryNodeLoop fdt fuel (0, hobs)) (hobs ++ ram) ∧
      systemMemory ram = (nodes.filter fdt.isMemory).flatMap fdt.regPrefix ∧
      (∀ t ∈ systemMemory ram, t.1.toNat + t.2.toNat < 2 ^ 64) ∧
      (∀ result, Returns (fun fuel => memoryInitialization pcds fdt fuel hobs) result →
        result.1 = .success ∧ systemMemory result.2 = systemMemory hobs ++ systemMemory ram) ∧
      ∀ children, fdt.ReservedChildren children →
        ∃ result, Returns (fun fuel => memoryInitialization pcds fdt fuel hobs) result := by
  obtain ⟨nodes, hnodes⟩ := hnext.enumerates (fdt.nextNode 0)
  have hloop := memoryNodeLoop_returns hnodes hobs
  have hmemory : isMemoryNode fdt = fdt.isMemory := funext (isMemoryNode_eq fdt)
  rw [hmemory] at hloop
  have hram : systemMemory ((nodes.filter fdt.isMemory).flatMap (ramHobs fdt))
      = (nodes.filter fdt.isMemory).flatMap fdt.regPrefix := by
    rw [systemMemory_flatMap]
    simp only [systemMemory_ramHobs]
  refine ⟨nodes, _, hnodes, hloop, hram, ?_, ?_, ?_⟩
  · intro t ht
    rw [hram] at ht
    obtain ⟨node, -, hmem⟩ := List.mem_flatMap.mp ht
    obtain ⟨i, -, hi⟩ := Fdt.mem_regPrefix.mp hmem
    have hend := (readReg_no_wrap (Fdt.regTuple_eq_some_iff.mp hi)).2
    omega
  · rintro result ⟨m, hm⟩
    obtain ⟨n, hn⟩ := hloop
    have hnodeLoop : memoryNodeLoop fdt (max n m) (0, hobs) = some _ :=
      hn (max n m) (Nat.le_max_left n m)
    have hresult : memoryInitialization pcds fdt (max n m) hobs = some result :=
      hm (max n m) (Nat.le_max_right n m)
    rw [memoryInitialization_eq, hnodeLoop, Option.bind_some] at hresult
    obtain ⟨built, hreserved, rfl⟩ := Option.map_eq_some_iff.mp hresult
    have htype : systemMemory [buildMemoryTypeHob pcds] = [] := rfl
    have hextends := (addReservedMemoryMap_extends hreserved).append_one htype
    exact ⟨rfl, by rw [hextends.systemMemory_eq, systemMemory_append]⟩
  · intro children hchildren
    have hdone := hloop.bind
      (g := fun hobs fuel => (addReservedMemoryMap fdt fuel hobs).map fun hobs =>
        (EfiStatus.success, hobs ++ [buildMemoryTypeHob pcds]))
      ((addReservedMemoryMap_returns hchildren _).map _)
    simp only [memoryInitialization_eq]
    exact ⟨_, hdone⟩

/-- A blob with one memory node, at offset 8, and one child of `/reserved-memory`,
    at offset 24, both with the same `reg` of one-cell numbers. -/
def sampleFdt (reg : FdtProp) : Fdt where
  parentOffset _ := 0
  addressCells _ := 1
  sizeCells _ := 1
  getProp node name :=
    if name = "reg" then
      some reg
    else if node = 8 ∧ name = "device_type" then
      some ⟨ascii ['m', 'e', 'm', 'o', 'r', 'y'] ++ [0], by decide⟩
    else
      none
  nextNode node := if node = 0 then 8 else if node = 8 then 16 else if node = 16 then 24 else -1
  subnodeOffset node name := if node = 0 ∧ name = "reserved-memory" then 16 else -1
  firstSubnode node := if node = 16 then 24 else -1
  nextSubnode _ := -1
  numberOfReserveMapEntries := 0
  reserveMapEntry _ := none

theorem sampleFdt_advances (reg : FdtProp) : Cursor.Advances (sampleFdt reg).nextNode 24 where
  lt_next := by
    intro n _
    dsimp only [sampleFdt]
    split_ifs <;> omega
  next_le := by
    intro n
    dsimp only [sampleFdt]
    split_ifs <;> omega

theorem sampleFdt_reservedChildren (reg : FdtProp) : (sampleFdt reg).ReservedChildren [24] := by
  simp only [Fdt.ReservedChildren, sampleFdt]
  exact .visit (by decide) (.stop (by decide))

/-- 256 MiB at `0x80000000`. -/
def sampleReg : FdtProp := ⟨[0x80, 0, 0, 0, 0x10, 0, 0, 0], by decide⟩

theorem memoryInitialization_publishes_ram_sample :
    ∃ nodes ram, Enumerates (sampleFdt sampleReg).nextNode 8 nodes ∧
      Returns (fun fuel => memoryNodeLoop (sampleFdt sampleReg) fuel (0, [])) ram ∧
      systemMemory ram = (nodes.filter (sampleFdt sampleReg).isMemory).flatMap
        (sampleFdt sampleReg).regPrefix := by
  obtain ⟨nodes, ram, hnodes, hloop, hram, -⟩ := memoryInitialization_publishes_ram
    ⟨0, 0, 0, 0, 0⟩ (sampleFdt sampleReg) 24 (sampleFdt_advances _) []
  exact ⟨nodes, ram, hnodes, hloop, hram⟩

end UemuPkg
