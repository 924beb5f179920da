/-
  UemuPkg.Drivers.Bcm2835RngDxe.GetRNG

  Which requests `Bcm2835RngGetRNG` fills exactly.  For lengths that are whole
  words the remaining length and the offset stay complementary, and every round
  makes progress.  For other lengths the post-decrement of the tail loop leaves
  the length at `2 ^ 64 - 1`, so the outer loop goes on past the buffer.
-/

import UemuPkg.Drivers.Bcm2835RngDxe.Model
import UemuPkg.Generic.Machine

namespace UemuPkg

variable {dev : RngDevice} {s : RngState} {n : Nat}

-- ============================================================================
-- One step
-- ============================================================================

theorem step_outer (dev : RngDevice) (hpc : s.pc = .outer) :
    (s.rngValueLength ≠ 0 ∧ s.step dev = { s with pc := .poll, retries := RNG_MAX_RETRIES }) ∨
    (s.rngValueLength = 0 ∧ s.step dev = { s with pc := .ret .success }) := by
  by_cases hlen : s.rngValueLength ≠ 0
  · exact .inl ⟨hlen, by simp only [RngState.step, hpc, if_pos hlen]⟩
  · exact .inr ⟨not_not.mp hlen, by simp only [RngState.step, hpc, if_neg hlen]⟩

theorem step_poll (dev : RngDevice) (hpc : s.pc = .poll) :
    ∃ status num, status = dev.status s.statusReads ∧ num = rngStatusCount status ∧
      ((num ≠ 0 ∧ s.step dev = { s with
          num, statusReads := s.statusReads + 1, trace := s.trace ++ [.readStatus status],
          pc := .words }) ∨
       (num = 0 ∧ s.retries ≠ 0 ∧ s.step dev = { s with
          num, statusReads := s.statusReads + 1, trace := s.trace ++ [.readStatus status],
          retries := s.retries - 1 }) ∨
       (num = 0 ∧ s.retries = 0 ∧ s.step dev = { s with
          num, statusReads := s.statusReads + 1, trace := s.trace ++ [.readStatus status],
          retries := s.retries - 1, pc := .ret .deviceError })) := by
  refine ⟨_, _, rfl, rfl, ?_⟩
  by_cases hnum : rngStatusCount (dev.status s.statusReads) ≠ 0
  · exact .inl ⟨hnum, by simp only [RngState.step, hpc, if_pos hnum]⟩
  · refine .inr ?_
    by_cases hretries : s.retries ≠ 0
    · refine .inl ⟨not_not.mp hnum, hretries, ?_⟩
      simp only [RngState.step, hpc, if_neg hnum, if_pos hretries]
    · refine .inr ⟨not_not.mp hnum, not_not.mp hretries, ?_⟩
      simp only [RngState.step, hpc, if_neg hnum, if_neg hretries]

theorem step_words (dev : RngDevice) (hpc : s.pc = .words) :
    ∃ value, value = dev.data s.dataReads ∧
      ((4 ≤ s.rngValueLength.toNat ∧ s.num ≠ 0 ∧ s.step dev = { s with
          rngValue := s.rngValue + 4, rngValueLength := s.rngValueLength - 4,
          num := s.num - 1, dataReads := s.dataReads + 1,
          trace := s.trace ++ .readData value :: writeUnaligned32 s.rngValue value }) ∨
       (s.rngValueLength.toNat < 4 ∧ s.rngValueLength ≠ 0 ∧ s.num ≠ 0 ∧ s.step dev = { s with
          pc := .tail, val := value, dataReads := s.dataReads + 1,
          trace := s.trace ++ [.readData value] }) ∨
       ((s.rngValueLength = 0 ∨ s.num = 0) ∧ s.step dev = { s with pc := .outer })) := by
  refine ⟨_, rfl, ?_⟩
  by_cases hlong : 4 ≤ s.rngValueLength.toNat ∧ s.num ≠ 0
  · exact .inl ⟨hlong.1, hlong.2, by simp only [RngState.step, hpc, if_pos hlong]⟩
  · by_cases hshort : s.rngValueLength ≠ 0 ∧ s.num ≠ 0
    · refine .inr (.inl ⟨by by_contra hge; exact hlong ⟨by omega, hshort.2⟩, hshort.1, hshort.2, ?_⟩)
      simp only [RngState.step, hpc, if_neg hlong, if_pos hshort]
    · refine .inr (.inr ⟨?_, by simp only [RngState.step, hpc, if_neg hlong, if_neg hshort]⟩)
      rwa [not_and_or, not_not, not_not] at hshort

theorem step_tail (dev : RngDevice) (hpc : s.pc = .tail) :
    (s.rngValueLength ≠ 0 ∧ s.step dev = { s with
      rngValueLength := s.rngValueLength - 1, rngValue := s.rngValue + 1, val := s.val >>> 8,
      trace := s.trace ++ [.store s.rngValue (s.val.setWidth 8)] }) ∨
    (s.rngValueLength = 0 ∧ s.step dev = { s with
      rngValueLength := s.rngValueLength - 1, pc := .outer }) := by
  by_cases hlen : s.rngValueLength ≠ 0
  · exact .inl ⟨hlen, by simp only [RngState.step, hpc, if_pos hlen]⟩
  · exact .inr ⟨not_not.mp hlen, by simp only [RngState.step, hpc, if_neg hlen]⟩

theorem step_ret {status : EfiStatus} (hpc : s.pc = .ret status) : s.step dev = s := by
  rw [RngState.step, hpc]

-- ============================================================================
-- Whole words
-- ============================================================================

/-- Byte `i` of the little-endian concatenation of the data words. -/
def rngByte (dev : RngDevice) (i : Nat) : UINT8 := ByteString.leByte (dev.data (i / 4)) (i % 4)

/-- The state while a buffer of `n` bytes is filled word by word. -/
structure Filling (dev : RngDevice) (n : Nat) (s : RngState) : Prop where
  not_tail : s.pc ≠ .tail
  count : s.rngValueLength.toNat + s.rngValue = n
  offset : s.rngValue = 4 * s.dataReads
  filled : ∀ i < s.rngValue, bufferAfter s.trace i = some (rngByte dev i)
  below : StoresBelow n s.trace
  more : s.pc = .poll → s.rngValueLength ≠ 0
  /-- While polling, every read of this round so far returned a zero count. -/
  zeros : s.pc = .poll → s.retries.toNat ≤ 256 ∧ 256 ≤ s.statusReads + s.retries.toNat ∧
    ∀ j, s.retries.toNat ≤ j → j < 256 →
      rngStatusCount (dev.status (s.statusReads + j - 256)) = 0
  done : ∀ status, s.pc = .ret status → status = .success ∧ s.rngValueLength = 0

/-- Steps that remain at most, weighted so that every step is paid for. -/
def RngState.remaining (s : RngState) : Nat :=
  match s.pc with
  | .outer => 1000 * s.rngValueLength.toNat + 900
  | .poll => 1000 * s.rngValueLength.toNat + 500 + s.retries.toNat
  | .words =>
    if 4 ≤ s.rngValueLength.toNat ∧ s.num ≠ 0 then
      1000 * s.rngValueLength.toNat + 400
    else
      1000 * s.rngValueLength.toNat + 2000
  | .tail => 0
  | .ret _ => 0

/-- The next word fills the next four bytes. -/
theorem bufferAfter_word {trace : List RngEvent} {k : Nat}
    (h : ∀ i < 4 * k, bufferAfter trace i = some (rngByte dev i)) :
    ∀ i < 4 * k + 4,
      bufferAfter (trace ++ .readData (dev.data k) :: writeUnaligned32 (4 * k) (dev.data k)) i
        = some (rngByte dev i) := by
  intro i hi
  simp only [append_writeUnaligned32, bufferAfter_append_store, bufferAfter_append_readData]
  by_cases hlt : i < 4 * k
  · rw [if_neg (by omega), if_neg (by omega), if_neg (by omega), if_neg (by omega), h i hlt]
  · obtain ⟨j, hj, rfl⟩ : ∃ j < 4, i = 4 * k + j := ⟨i - 4 * k, by omega, by omega⟩
    have hdiv : (4 * k + j) / 4 = k := by omega
    have hmod : (4 * k + j) % 4 = j := by omega
    rw [rngByte, hdiv, hmod]
    rcases (show j = 0 ∨ j = 1 ∨ j = 2 ∨ j = 3 by omega) with rfl | rfl | rfl | rfl <;> simp

theorem Filling.step_outer (h : Filling dev n s) (hpc : s.pc = .outer) :
    Filling dev n (s.step dev) ∧ (s.step dev).remaining < s.remaining := by
  rcases UemuPkg.step_outer dev hpc with ⟨hlen, hstep⟩ | ⟨hlen, hstep⟩
  · rw [hstep]
    refine ⟨⟨nofun, h.count, h.offset, h.filled, h.below, fun _ => hlen, fun _ => ?_, nofun⟩, ?_⟩
    · have hmax : RNG_MAX_RETRIES.toNat = 256 := rfl
      dsimp only
      rw [hmax]
      exact ⟨by omega, by omega, fun j hj hlt => by omega⟩
    · have hmax : RNG_MAX_RETRIES.toNat = 256 := rfl
      simp only [RngState.remaining, hpc, hmax]
      omega
  · rw [hstep]
    refine ⟨⟨nofun, h.count, h.offset, h.filled, h.below, nofun, nofun, ?_⟩, ?_⟩
    · intro status heq
      exact ⟨(RngPc.ret.inj heq).symm, hlen⟩
    · simp only [RngState.remaining, hpc]
      omega

/-- No 257 reads in a row report an empty FIFO, so polling ends with a count. -/
theorem Filling.step_poll (h : Filling dev n s) (hn : n % 4 = 0)
    (hcounts : ∀ k, ∃ j ≤ 256, rngStatusCount (dev.status (k + j)) ≠ 0) (hpc : s.pc = .poll) :
    Filling dev n (s.step dev) ∧ (s.step dev).remaining < s.remaining := by
  obtain ⟨hmax, hreads, hzeros⟩ := h.zeros hpc
  have hcount := h.count
  have hoffset := h.offset
  have hmore := h.more hpc
  have hlen : 4 ≤ s.rngValueLength.toNat := by
    have hpos : s.rngValueLength.toNat ≠ 0 := fun h0 => hmore (BitVec.eq_of_toNat_eq h0)
    omega
  have hbelow : ∀ status, StoresBelow n (s.trace ++ [.readStatus status]) :=
    fun status => h.below.append (storesBelow_readStatus n status)
  obtain ⟨status, num, rfl, rfl, ⟨hnum, hstep⟩ | ⟨hnum, hretries, hstep⟩ | ⟨hnum, hretries, -⟩⟩ :=
    UemuPkg.step_poll dev hpc
  · rw [hstep]
    refine ⟨⟨nofun, hcount, hoffset, ?_, hbelow _, nofun, nofun, nofun⟩, ?_⟩
    · intro i hi
      rw [bufferAfter_append_readStatus]
      exact h.filled i hi
    · simp only [RngState.remaining, hpc, if_pos (And.intro hlen hnum)]
      omega
  · have hdec : (s.retries - 1).toNat = s.retries.toNat - 1 := by bv_omega
    have hpos : s.retries.toNat ≠ 0 := fun h0 => hretries (BitVec.eq_of_toNat_eq h0)
    rw [hstep]
    refine ⟨⟨h.not_tail, hcount, hoffset, ?_, hbelow _, fun _ => hmore, fun _ => ?_, ?_⟩, ?_⟩
    · intro i hi
      rw [bufferAfter_append_readStatus]
      exact h.filled i hi
    · dsimp only
      rw [hdec]
      refine ⟨by omega, by omega, fun j hj hlt => ?_⟩
      rcases Nat.lt_or_eq_of_le (Nat.le_of_lt_succ hlt) with hbefore | rfl
      · rw [show s.statusReads + 1 + j - 256 = s.statusReads + (j + 1) - 256 by omega]
        exact hzeros (j + 1) (by omega) (by omega)
      · rw [show s.statusReads + 1 + 255 - 256 = s.statusReads by omega]
        exact hnum
    · intro status heq
      rw [hpc] at heq
      cases heq
    · simp only [RngState.remaining, hpc, hdec]
      omega
  · -- The retries are used up: the last 257 reads all returned zero.
    exfalso
    have hzero : s.retries.toNat = 0 := by rw [hretries]; rfl
    obtain ⟨j, hj, hne⟩ := hcounts (s.statusReads - 256)
    rcases Nat.lt_or_eq_of_le hj with hlt | rfl
    · rw [show s.statusReads - 256 + j = s.statusReads + j - 256 by omega] at hne
      exact hne (hzeros j (by omega) hlt)
    · rw [show s.statusReads - 256 + 256 = s.statusReads by omega] at hne
      exact hne hnum

theorem Filling.step_words (h : Filling dev n s) (hn : n % 4 = 0) (hpc : s.pc = .words) :
    Filling dev n (s.step dev) ∧ (s.step dev).remaining < s.remaining := by
  have hcount := h.count
  have hoffset := h.offset
  obtain ⟨value, rfl, ⟨hlen, hnum, hstep⟩ | ⟨hlt, hlen, -⟩ | ⟨hidle, hstep⟩⟩ :=
    UemuPkg.step_words dev hpc
  · have hsub : (s.rngValueLength - 4).toNat = s.rngValueLength.toNat - 4 := by bv_omega
    rw [hstep]
    refine ⟨⟨by rw [hpc]; nofun, ?_, ?_, ?_, ?_, ?_, ?_, ?_⟩, ?_⟩
    · dsimp only
      omega
    · dsimp only
      omega
    · have hfilled := h.filled
      dsimp only
      rw [hoffset] at hfilled ⊢
      exact bufferAfter_word hfilled
    · exact h.below.append (storesBelow_writeUnaligned32 (by omega))
    · rw [hpc]; nofun
    · rw [hpc]; nofun
    · rw [hpc]; nofun
    · simp only [RngState.remaining, hpc, if_pos (And.intro hlen hnum), hsub]
      split_ifs <;> omega
  · exfalso
    have hpos : s.rngValueLength.toNat ≠ 0 := fun h0 => hlen (BitVec.eq_of_toNat_eq h0)
    omega
  · have hnot : ¬ (4 ≤ s.rngValueLength.toNat ∧ s.num ≠ 0) := by
      rintro ⟨hlen, hnum⟩
      rcases hidle with h0 | h0
      · rw [h0] at hlen
        exact absurd hlen (by decide)
      · exact hnum h0
    rw [hstep]
    refine ⟨⟨nofun, hcount, hoffset, h.filled, h.below, nofun, nofun, nofun⟩, ?_⟩
    simp only [RngState.remaining, hpc, if_neg hnot]
    omega

theorem Filling.step (h : Filling dev n s) (hn : n % 4 = 0)
    (hcounts : ∀ k, ∃ j ≤ 256, rngStatusCount (dev.status (k + j)) ≠ 0) :
    Filling dev n (s.step dev) := by
  cases hpc : s.pc with
  | outer => exact (h.step_outer hpc).1
  | poll => exact (h.step_poll hn hcounts hpc).1
  | words => exact (h.step_words hn hpc).1
  | tail => exact absurd hpc h.not_tail
  | ret status => rwa [step_ret hpc]

/-- Whole-word requests are filled, whatever the counts. -/
theorem Filling.reaches_ret (h : Filling dev n s) (hn : n % 4 = 0)
    (hcounts : ∀ k, ∃ j ≤ 256, rngStatusCount (dev.status (k + j)) ≠ 0) :
    ∃ k, Filling dev n ((RngState.step dev)^[k] s) ∧
      ((RngState.step dev)^[k] s).pc = .ret .success := by
  obtain ⟨k, hfilling, status, hret⟩ := Machine.reaches_of_measure (Filling dev n)
    (fun s => ∃ status, s.pc = .ret status) RngState.remaining
    (fun s hs hnot => by
      cases hpc : s.pc with
      | outer => exact hs.step_outer hpc
      | poll => exact hs.step_poll hn hcounts hpc
      | words => exact hs.step_words hn hpc
      | tail => exact absurd hpc hs.not_tail
      | ret status => exact absurd ⟨status, hpc⟩ hnot) h
  refine ⟨k, hfilling, ?_⟩
  rw [hret, (hfilling.done status hret).1]

-- ============================================================================
-- A partial last word
-- ============================================================================

/-- The program points of the outer loop's body, before the tail. -/
def RngPc.inRound : RngPc → Prop
  | .outer | .poll | .words => True
  | .tail | .ret _ => False

/-- The states of a run with a partial last word, as long as nothing is stored
    past the buffer: it never returns `EFI_SUCCESS`. -/
inductive Unfinished (n : Nat) (s : RngState) : Prop where
  | filling (hpc : s.pc.inRound) (hcount : s.rngValueLength.toNat + s.rngValue = n)
      (haligned : 4 ∣ s.rngValue)
  | tail (hpc : s.pc = .tail) (hcount : s.rngValueLength.toNat + s.rngValue = n)
  /-- After the tail the length has wrapped and the offset is at the buffer's end. -/
  | wrapped (hpc : s.pc.inRound) (hlen : s.rngValueLength = MAX_UINT64) (hoffset : s.rngValue = n)
  | failed (hpc : s.pc = .ret .deviceError)

theorem Unfinished.not_success (h : Unfinished n s) : s.pc ≠ .ret .success := by
  intro hret
  cases h with
  | filling hpc => rw [hret] at hpc; exact hpc
  | tail hpc => rw [hret] at hpc; cases hpc
  | wrapped hpc => rw [hret] at hpc; exact hpc
  | failed hpc => rw [hret] at hpc; cases hpc

theorem Unfinished.step_outer (h : Unfinished n s) (hn : n % 4 ≠ 0) (hpc : s.pc = .outer) :
    Unfinished n (s.step dev) := by
  rcases UemuPkg.step_outer dev hpc with ⟨-, hstep⟩ | ⟨hlen, -⟩
  · rw [hstep]
    cases h with
    | filling _ hcount haligned => exact .filling trivial hcount haligned
    | tail htail => rw [hpc] at htail; cases htail
    | wrapped _ hlen hoffset => exact .wrapped trivial hlen hoffset
    | failed hfailed => rw [hpc] at hfailed; cases hfailed
  · exfalso
    cases h with
    | filling _ hcount haligned =>
        have hzero : s.rngValueLength.toNat = 0 := by rw [hlen]; rfl
        omega
    | tail htail => rw [hpc] at htail; cases htail
    | wrapped _ hmax => rw [hlen] at hmax; exact absurd hmax (by decide)
    | failed hfailed => rw [hpc] at hfailed; cases hfailed

theorem Unfinished.step_poll (h : Unfinished n s) (hpc : s.pc = .poll) :
    Unfinished n (s.step dev) := by
  obtain ⟨status, num, -, -, ⟨-, hstep⟩ | ⟨-, -, hstep⟩ | ⟨-, -, hstep⟩⟩ :=
    UemuPkg.step_poll dev hpc
  · rw [hstep]
    cases h with
    | filling _ hcount haligned => exact .filling trivial hcount haligned
    | tail htail => rw [hpc] at htail; cases htail
    | wrapped _ hlen hoffset => exact .wrapped trivial hlen hoffset
    | failed hfailed => rw [hpc] at hfailed; cases hfailed
  · rw [hstep]
    cases h with
    | filling hround hcount haligned => exact .filling hround hcount haligned
    | tail htail => rw [hpc] at htail; cases htail
    | wrapped hround hlen hoffset => exact .wrapped hround hlen hoffset
    | failed hfailed => rw [hpc] at hfailed; cases hfailed
  · rw [hstep]
    exact .failed rfl

/-- Past the end, the next word read is stored outside the buffer. -/
theorem Unfinished.step_words (h : Unfinished n s) (hpc : s.pc = .words)
    (hbelow : StoresBelow n (s.step dev).trace) : Unfinished n (s.step dev) := by
  obtain ⟨value, -, ⟨hlong, -, hstep⟩ | ⟨hlt, -, -, hstep⟩ | ⟨-, hstep⟩⟩ :=
    UemuPkg.step_words dev hpc
  · cases h with
    | filling hround hcount haligned =>
        have hsub : (s.rngValueLength - 4).toNat = s.rngValueLength.toNat - 4 := by bv_omega
        rw [hstep]
        refine .filling hround ?_ ?_
        · dsimp only
          omega
        · exact (Nat.dvd_add_right haligned).mpr (by decide)
    | tail htail => rw [hpc] at htail; cases htail
    | wrapped _ _ hoffset =>
        have hpast : RngEvent.store n (ByteString.leByte value 0) ∈ (s.step dev).trace := by
          rw [hstep, hoffset]
          simp [writeUnaligned32, List.range_succ]
        exact absurd (hbelow _ _ hpast) (Nat.lt_irrefl n)
    | failed hfailed => rw [hpc] at hfailed; cases hfailed
  · rw [hstep]
    cases h with
    | filling _ hcount => exact .tail rfl hcount
    | tail htail => rw [hpc] at htail; cases htail
    | wrapped _ hmax => rw [hmax] at hlt; exact absurd hlt (by decide)
    | failed hfailed => rw [hpc] at hfailed; cases hfailed
  · rw [hstep]
    cases h with
    | filling _ hcount haligned => exact .filling trivial hcount haligned
    | tail htail => rw [hpc] at htail; cases htail
    | wrapped _ hlen hoffset => exact .wrapped trivial hlen hoffset
    | failed hfailed => rw [hpc] at hfailed; cases hfailed

/-- The test that ends the tail loop wraps the length. -/
theorem Unfinished.step_tail (h : Unfinished n s) (hpc : s.pc = .tail) :
    Unfinished n (s.step dev) := by
  have hcount : s.rngValueLength.toNat + s.rngValue = n := by
    cases h with
    | filling hround => rw [hpc] at hround; cases hround
    | tail _ hcount => exact hcount
    | wrapped hround => rw [hpc] at hround; cases hround
    | failed hfailed => rw [hpc] at hfailed; cases hfailed
  rcases UemuPkg.step_tail dev hpc with ⟨hlen, hstep⟩ | ⟨hlen, hstep⟩
  · have hsub : (s.rngValueLength - 1).toNat = s.rngValueLength.toNat - 1 := by bv_omega
    have hpos : s.rngValueLength.toNat ≠ 0 := fun h0 => hlen (BitVec.eq_of_toNat_eq h0)
    rw [hstep]
    refine .tail hpc ?_
    dsimp only
    omega
  · have hzero : s.rngValueLength.toNat = 0 := by rw [hlen]; rfl
    rw [hstep]
    refine .wrapped trivial ?_ ?_
    · dsimp only
      rw [hlen]
      rfl
    · dsimp only
      omega

theorem Unfinished.step (hn : n % 4 ≠ 0) (s : RngState) (h : Unfinished n s)
    (hbelow : StoresBelow n (s.step dev).trace) : Unfinished n (s.step dev) := by
  cases hpc : s.pc with
  | outer => exact h.step_outer hn hpc
  | poll => exact h.step_poll hpc
  | words => exact h.step_words hpc hbelow
  | tail => exact h.step_tail hpc
  | ret status => rwa [step_ret hpc]

-- ============================================================================
-- The request
-- ============================================================================

/-- The run of a machine state fills a buffer of `n` bytes exactly. -/
structure FillsExactly (dev : RngDevice) (n : Nat) (s : RngState) : Prop where
  /-- It returns `EFI_SUCCESS` after `⌈n / 4⌉` data reads, with the first `n` bytes of
      their little-endian concatenation in the buffer. -/
  returns : ∃ k, ((RngState.step dev)^[k] s).pc = .ret .success ∧
    ((RngState.step dev)^[k] s).dataReads = (n + 3) / 4 ∧
    ∀ i < n, bufferAfter ((RngState.step dev)^[k] s).trace i = some (rngByte dev i)
  /-- No byte at or past offset `n` is ever stored. -/
  below : ∀ k, StoresBelow n ((RngState.step dev)^[k] s).trace

/-- The checks at the head let a request for the raw algorithm through. -/
theorem bcm2835RngGetRNG_pc (dev : RngDevice) {this rngValue : UINT64} {rngAlgorithm : Option EFI_GUID}
    {rngValueLength : UINTN} (hthis : this ≠ 0) (hvalue : rngValue ≠ 0) (hlen : rngValueLength ≠ 0)
    (halgorithm : rngAlgorithm = none ∨ rngAlgorithm = some dev.gEfiRngAlgorithmRaw) :
    (bcm2835RngGetRNG dev this rngAlgorithm rngValueLength rngValue).pc = .outer := by
  have hchecks : ¬ (this = 0 ∨ rngValueLength = 0 ∨ rngValue = 0) := by
    rintro (h | h | h)
    · exact hthis h
    · exact hlen h
    · exact hvalue h
  simp only [bcm2835RngGetRNG, if_neg hchecks]
  rcases halgorithm with rfl | rfl
  · rfl
  · exact if_pos rfl

theorem filling_of_outer (hpc : s.pc = .outer) (hvalue : s.rngValue = 0) (hreads : s.dataReads = 0)
    (htrace : s.trace = []) : Filling dev s.rngValueLength.toNat s where
  not_tail := by rw [hpc]; nofun
  count := by rw [hvalue]; rfl
  offset := by rw [hvalue, hreads]
  filled := by rw [hvalue]; nofun
  below := by rw [htrace]; nofun
  more := by rw [hpc]; nofun
  zeros := by rw [hpc]; nofun
  done := by rw [hpc]; nofun

theorem Filling.fillsExactly (h : Filling dev n s) (hn : n % 4 = 0)
    (hcounts : ∀ k, ∃ j ≤ 256, rngStatusCount (dev.status (k + j)) ≠ 0) :
    FillsExactly dev n s := by
  refine ⟨?_, ?_⟩
  · obtain ⟨k, hfilling, hret⟩ := h.reaches_ret hn hcounts
    have hzero := (hfilling.done _ hret).2
    have hcount := hfilling.count
    have hoffset := hfilling.offset
    rw [hzero, show (0 : UINTN).toNat = 0 from rfl, Nat.zero_add] at hcount
    refine ⟨k, hret, by omega, fun i hi => hfilling.filled i (by omega)⟩
  · intro k
    have hfilling : Filling dev n ((RngState.step dev)^[k] s) :=
      Function.Iterate.rec (Filling dev n) h (fun _ hs => hs.step hn hcounts) k
    exact hfilling.below

theorem not_fillsExactly_of_unfinished (h : Unfinished n s) (hn : n % 4 ≠ 0) :
    ¬ FillsExactly dev n s := by
  rintro ⟨⟨k, hret, -⟩, hbelow⟩
  have hunfinished := Machine.invariant_of_bounded (Unfinished n)
    (fun s => StoresBelow n s.trace) (Unfinished.step hn) h hbelow k
  exact hunfinished.not_success hret

/-- A request is filled exactly just when it is for whole words. -/
theorem bcm2835RngGetRNG_fills_iff (dev : RngDevice) (this rngValue : UINT64)
    (rngAlgorithm : Option EFI_GUID) (rngValueLength : UINTN)
    (hthis : this ≠ 0) (hvalue : rngValue ≠ 0) (hlen : rngValueLength ≠ 0)
    (halgorithm : rngAlgorithm = none ∨ rngAlgorithm = some dev.gEfiRngAlgorithmRaw)
    (hcounts : ∀ k, ∃ j ≤ 256, rngStatusCount (dev.status (k + j)) ≠ 0) :
    FillsExactly dev rngValueLength.toNat
        (bcm2835RngGetRNG dev this rngAlgorithm rngValueLength rngValue)
      ↔ rngValueLength.toNat % 4 = 0 := by
  have hpc := bcm2835RngGetRNG_pc dev hthis hvalue hlen halgorithm
  refine ⟨?_, ?_⟩
  · intro hfills
    by_contra hn
    have hstart : Unfinished rngValueLength.toNat
        (bcm2835RngGetRNG dev this rngAlgorithm rngValueLength rngValue) :=
      .filling (by rw [hpc]; trivial) rfl (Nat.dvd_zero 4)
    exact not_fillsExactly_of_unfinished hstart hn hfills
  · intro hn
    exact (filling_of_outer hpc rfl rfl rfl).fillsExactly hn hcounts

/-- A device with one word in the FIFO at every read. -/
def steadyRng : RngDevice where
  status _ := 0x01000000
  data _ := 0x04030201
  gEfiRngAlgorithmRaw := 0

theorem bcm2835RngGetRNG_fills_iff_steady :
    FillsExactly steadyRng 8 (bcm2835RngGetRNG steadyRng 0x1000 none 8 0x2000) ↔ 8 % 4 = 0 :=
  bcm2835RngGetRNG_fills_iff steadyRng 0x1000 0x2000 none 8 (by decide) (by decide) (by decide)
    (.inl rfl) (fun _ => ⟨0, by decide, show rngStatusCount 0x01000000 ≠ 0 by decide⟩)

/-- A request for one byte stores a second one. -/
theorem bcm2835RngGetRNG_one_byte :
    RngEvent.store 1 0x01
        ∈ ((RngState.step steadyRng)^[8] (bcm2835RngGetRNG steadyRng 0x1000 none 1 0x2000)).trace ∧
      ¬ FillsExactly steadyRng 1 (bcm2835RngGetRNG steadyRng 0x1000 none 1 0x2000) := by
  have hpast : RngEvent.store 1 0x01
      ∈ ((RngState.step steadyRng)^[8]
        (bcm2835RngGetRNG steadyRng 0x1000 none 1 0x2000)).trace := by decide
  exact ⟨hpast, fun hfills => absurd (hfills.below 8 1 _ hpast) (by decide)⟩

end UemuPkg
