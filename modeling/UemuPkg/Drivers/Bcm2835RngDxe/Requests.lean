/-
  UemuPkg.Drivers.Bcm2835RngDxe.Requests

  One request after the other.  The device goes on where the last call has stopped
  reading, so a caller gets what the ones before it have left.  Requests for whole words
  only: the others store past their buffer.
-/

import Mathlib.Data.List.Forall2
import UemuPkg.Drivers.Bcm2835RngDxe.GetRNG

namespace UemuPkg

/-- `sizeof (EFI_RNG_ALGORITHM)` -/
def sizeOfRngAlgorithm : UINTN := 16

/-- The statuses of `Bcm2835RngGetInfo`, with what it leaves in `*RNGAlgorithmListSize` and
    `RNGAlgorithmList`. -/
inductive RngInfo where
  | invalidParameter
  | bufferTooSmall (rngAlgorithmListSize : UINTN)
  | success (rngAlgorithmListSize : UINTN) (rngAlgorithmList : List EFI_GUID)
  deriving DecidableEq

/-- `Bcm2835RngGetInfo`.  The pointers `This` and `RNGAlgorithmList` matter only as NULL
    or not. -/
def bcm2835RngGetInfo (dev : RngDevice) (this : UINT64) (rngAlgorithmListSize : Option UINTN)
    (rngAlgorithmList : UINT64) : RngInfo :=
  match rngAlgorithmListSize with
  | none => .invalidParameter
  | some size =>
    if this = 0 then .invalidParameter
    else if size < sizeOfRngAlgorithm then .bufferTooSmall sizeOfRngAlgorithm
    else if rngAlgorithmList = 0 then .invalidParameter
    else .success sizeOfRngAlgorithm [dev.gEfiRngAlgorithmRaw]

/-- The arguments of one call of `Bcm2835RngGetRNG`. -/
structure RngRequest where
  this : UINT64
  rngAlgorithm : Option EFI_GUID
  rngValueLength : UINTN
  rngValue : UINT64

def RngRequest.start (dev : RngDevice) (r : RngRequest) : RngState :=
  bcm2835RngGetRNG dev r.this r.rngAlgorithm r.rngValueLength r.rngValue

/-- The device after some reads of its registers. -/
def RngDevice.after (dev : RngDevice) (statusReads dataReads : Nat) : RngDevice where
  status i := dev.status (statusReads + i)
  data i := dev.data (dataReads + i)
  gEfiRngAlgorithmRaw := dev.gEfiRngAlgorithmRaw

/-- The call returns in state `s`. -/
def RngRequest.EndsIn (dev : RngDevice) (r : RngRequest) (s : RngState) : Prop :=
  ∃ k status, s = (RngState.step dev)^[k] (r.start dev) ∧ s.pc = .ret status

/-- Calls in turn, and the states in which they return. -/
inductive RngCalls : RngDevice → List RngRequest → List RngState → Prop where
  | nil (dev : RngDevice) : RngCalls dev [] []
  | cons {dev : RngDevice} {r : RngRequest} {s : RngState} {requests : List RngRequest}
      {states : List RngState} (ends : r.EndsIn dev s)
      (rest : RngCalls (dev.after s.statusReads s.dataReads) requests states) :
      RngCalls dev (r :: requests) (s :: states)

/-- The bytes that a call has stored, in the order of the buffer. -/
def RngState.delivered (s : RngState) : List UINT8 :=
  (List.range s.rngValue).filterMap (bufferAfter s.trace)

/-- `count` bytes of the device's stream, from byte `first` on. -/
def rngBytes (dev : RngDevice) (first count : Nat) : List UINT8 :=
  (List.range count).map fun i => rngByte dev (first + i)

variable {dev : RngDevice} {s : RngState} {n : Nat} {r : RngRequest}
  {requests : List RngRequest} {states : List RngState}

-- ============================================================================
-- The stream
-- ============================================================================

theorem rngBytes_length (first count : Nat) : (rngBytes dev first count).length = count := by
  simp [rngBytes]

theorem rngBytes_append (first a b : Nat) :
    rngBytes dev first (a + b) = rngBytes dev first a ++ rngBytes dev (first + a) b := by
  simp [rngBytes, List.range_add, Function.comp_def, Nat.add_assoc]

/-- The later device has the rest of the stream. -/
theorem rngByte_after (statusReads dataReads i : Nat) :
    rngByte (dev.after statusReads dataReads) i = rngByte dev (4 * dataReads + i) := by
  have hdiv : (4 * dataReads + i) / 4 = dataReads + i / 4 := by omega
  have hmod : (4 * dataReads + i) % 4 = i % 4 := by omega
  rw [rngByte, rngByte, hdiv, hmod]
  rfl

theorem rngBytes_after (statusReads dataReads count : Nat) :
    rngBytes (dev.after statusReads dataReads) 0 count = rngBytes dev (4 * dataReads) count := by
  simp [rngBytes, rngByte_after]

-- ============================================================================
-- One call
-- ============================================================================

/-- A buffer of `n` bytes while it is filled word by word, on any device: the call may give up
    at any word. -/
structure Drawing (dev : RngDevice) (n : Nat) (s : RngState) : Prop where
  not_tail : s.pc ≠ .tail
  count : s.rngValueLength.toNat + s.rngValue = n
  offset : s.rngValue = 4 * s.dataReads
  filled : ∀ i < s.rngValue, bufferAfter s.trace i = some (rngByte dev i)
  below : StoresBelow s.rngValue s.trace
  more : s.pc = .poll → s.rngValueLength ≠ 0
  done : ∀ status, s.pc = .ret status →
    (status = .success ∧ s.rngValueLength = 0) ∨ (status = .deviceError ∧ s.rngValueLength ≠ 0)

theorem StoresBelow.mono {m : Nat} {trace : List RngEvent} (h : StoresBelow m trace)
    (hle : m ≤ n) : StoresBelow n trace :=
  fun offset value hmem => Nat.lt_of_lt_of_le (h offset value hmem) hle

theorem Drawing.step_outer (h : Drawing dev n s) (hpc : s.pc = .outer) :
    Drawing dev n (s.step dev) ∧ (s.step dev).remaining < s.remaining := by
  have hmax : RNG_MAX_RETRIES.toNat = 256 := rfl
  rcases UemuPkg.step_outer dev hpc with ⟨hlen, hstep⟩ | ⟨hlen, hstep⟩
  · rw [hstep]
    refine ⟨⟨by simp, h.count, h.offset, h.filled, h.below, fun _ => hlen, by simp⟩, ?_⟩
    simp only [RngState.remaining, hpc, hmax]
    omega
  · rw [hstep]
    refine ⟨⟨by simp, h.count, h.offset, h.filled, h.below, by simp, ?_⟩, ?_⟩
    · intro status heq
      exact .inl ⟨(RngPc.ret.inj heq).symm, hlen⟩
    · simp only [RngState.remaining, hpc]
      omega

theorem Drawing.step_poll (h : Drawing dev n s) (hn : n % 4 = 0) (hpc : s.pc = .poll) :
    Drawing dev n (s.step dev) ∧ (s.step dev).remaining < s.remaining := by
  have hcount := h.count
  have hoffset := h.offset
  have hmore := h.more hpc
  have hlen : 4 ≤ s.rngValueLength.toNat := by
    have hpos : s.rngValueLength.toNat ≠ 0 := fun h0 => hmore (BitVec.eq_of_toNat_eq h0)
    omega
  have hfilled : ∀ status, ∀ i < s.rngValue,
      bufferAfter (s.trace ++ [.readStatus status]) i = some (rngByte dev i) := by
    intro status i hi
    rw [bufferAfter_append_readStatus]
    exact h.filled i hi
  have hbelow : ∀ status, StoresBelow s.rngValue (s.trace ++ [.readStatus status]) :=
    fun status => h.below.append (storesBelow_readStatus s.rngValue status)
  obtain ⟨status, num, rfl, rfl, ⟨hnum, hstep⟩ | ⟨-, hretries, hstep⟩ | ⟨-, -, hstep⟩⟩ :=
    UemuPkg.step_poll dev hpc
  · rw [hstep]
    refine ⟨⟨by simp, hcount, hoffset, hfilled _, hbelow _, by simp, by simp⟩, ?_⟩
    simp only [RngState.remaining, hpc, if_pos (And.intro hlen hnum)]
    omega
  · have hdec : (s.retries - 1).toNat = s.retries.toNat - 1 := by bv_omega
    have hpos : s.retries.toNat ≠ 0 := fun h0 => hretries (BitVec.eq_of_toNat_eq h0)
    rw [hstep]
    refine ⟨⟨h.not_tail, hcount, hoffset, hfilled _, hbelow _, fun _ => hmore, ?_⟩, ?_⟩
    · intro status heq
      cases hpc.symm.trans heq
    · simp only [RngState.remaining, hpc, hdec]
      omega
  · -- The retries are used up: what is in the buffer stays there.
    rw [hstep]
    refine ⟨⟨by simp, hcount, hoffset, hfilled _, hbelow _, by simp, ?_⟩, ?_⟩
    · intro status heq
      exact .inr ⟨(RngPc.ret.inj heq).symm, hmore⟩
    · simp only [RngState.remaining, hpc]
      omega

theorem Drawing.step_words (h : Drawing dev n s) (hn : n % 4 = 0) (hpc : s.pc = .words) :
    Drawing dev n (s.step dev) ∧ (s.step dev).remaining < s.remaining := by
  have hcount := h.count
  have hoffset := h.offset
  obtain ⟨value, rfl, ⟨hlen, hnum, hstep⟩ | ⟨hlt, hlen, -⟩ | ⟨hidle, hstep⟩⟩ :=
    UemuPkg.step_words dev hpc
  · have hsub : (s.rngValueLength - 4).toNat = s.rngValueLength.toNat - 4 := by bv_omega
    have hwords : ∀ p, p ≠ RngPc.words → s.pc ≠ p := fun p hne heq => hne (heq.symm.trans hpc)
    rw [hstep]
    refine ⟨⟨hwords _ (by simp), ?_, ?_, ?_, ?_, fun heq => absurd heq (hwords _ (by simp)),
      fun status heq => absurd heq (hwords _ (by simp))⟩, ?_⟩
    · dsimp only
      omega
    · dsimp only
      omega
    · have hfilled := h.filled
      dsimp only
      rw [hoffset] at hfilled ⊢
      exact bufferAfter_word hfilled
    · exact (h.below.mono (Nat.le_add_right _ 4)).append
        (storesBelow_writeUnaligned32 (Nat.le_refl _))
    · simp only [RngState.remaining, hpc, if_pos (And.intro hlen hnum), hsub]
      split_ifs <;> omega
  · exfalso
    have hpos : s.rngValueLength.toNat ≠ 0 := fun h0 => hlen (BitVec.eq_of_toNat_eq h0)
    omega
  · have hnot : ¬ (4 ≤ s.rngValueLength.toNat ∧ s.num ≠ 0) := by
      rintro ⟨hlen, hnum⟩
      rcases hidle with h0 | h0
      · simp [h0] at hlen
      · exact hnum h0
    rw [hstep]
    refine ⟨⟨by simp, hcount, hoffset, h.filled, h.below, by simp, by simp⟩, ?_⟩
    simp only [RngState.remaining, hpc, if_neg hnot]
    omega

theorem Drawing.step (h : Drawing dev n s) (hn : n % 4 = 0) : Drawing dev n (s.step dev) := by
  cases hpc : s.pc with
  | outer => exact (h.step_outer hpc).1
  | poll => exact (h.step_poll hn hpc).1
  | words => exact (h.step_words hn hpc).1
  | tail => exact absurd hpc h.not_tail
  | ret status => rwa [step_ret hpc]

theorem Drawing.reaches_ret (h : Drawing dev n s) (hn : n % 4 = 0) :
    ∃ k status, ((RngState.step dev)^[k] s).pc = .ret status := by
  obtain ⟨k, -, status, hret⟩ := Machine.reaches_of_measure (Drawing dev n)
    (fun s => ∃ status, s.pc = .ret status) RngState.remaining
    (fun s hs hnot => by
      cases hpc : s.pc with
      | outer => exact hs.step_outer hpc
      | poll => exact hs.step_poll hn hpc
      | words => exact hs.step_words hn hpc
      | tail => exact absurd hpc hs.not_tail
      | ret status => exact absurd ⟨status, hpc⟩ hnot) h
  exact ⟨k, status, hret⟩

/-- The buffer holds the words that were read, and nothing else. -/
theorem Drawing.delivered_eq (h : Drawing dev n s) :
    s.delivered = rngBytes dev 0 (4 * s.dataReads) := by
  rw [RngState.delivered, rngBytes, h.offset, ← List.filterMap_eq_map]
  refine List.filterMap_congr fun i hi => ?_
  rw [h.filled i (h.offset ▸ List.mem_range.mp hi), Function.comp_apply, Nat.zero_add]

-- ============================================================================
-- The outcome of a call
-- ============================================================================

/-- A call that has returned: refused before the first read, or filled, or given up with a
    part of the buffer filled. -/
inductive GetAnswered (r : RngRequest) (s : RngState) : Prop where
  | refused (status : s.pc = .ret .invalidParameter ∨ s.pc = .ret .unsupported)
      (unread : s.statusReads = 0 ∧ s.dataReads = 0)
  | filled (status : s.pc = .ret .success)
      (length : s.delivered.length = r.rngValueLength.toNat)
  | gaveUp (status : s.pc = .ret .deviceError)
      (length : s.delivered.length < r.rngValueLength.toNat)

theorem drawing_start (hpc : (r.start dev).pc = .outer) :
    Drawing dev r.rngValueLength.toNat (r.start dev) where
  not_tail := by rw [hpc]; nofun
  count := rfl
  offset := rfl
  filled := nofun
  below := nofun
  more := by rw [hpc]; nofun
  done := by rw [hpc]; nofun

/-- The checks at the head end the call or start the drawing. -/
theorem RngRequest.start_cases (dev : RngDevice) (r : RngRequest) :
    (r.start dev).pc = .outer ∨ (r.start dev).pc = .ret .invalidParameter ∨
      (r.start dev).pc = .ret .unsupported := by
  dsimp only [RngRequest.start, bcm2835RngGetRNG]
  split
  · exact .inr (.inl rfl)
  · split
    · exact .inl rfl
    · split
      · exact .inl rfl
      · exact .inr (.inr rfl)

/-- `GetRNG` refuses exactly the algorithms that `GetInfo` does not list. -/
theorem start_unsupported_iff {size listSize : UINTN} {rngAlgorithmList : UINT64}
    {algorithms : List EFI_GUID} {algorithm : EFI_GUID}
    (hinfo : bcm2835RngGetInfo dev r.this (some listSize) rngAlgorithmList
      = .success size algorithms)
    (hlen : r.rngValueLength ≠ 0) (hvalue : r.rngValue ≠ 0)
    (halgorithm : r.rngAlgorithm = some algorithm) :
    (r.start dev).pc = .ret .unsupported ↔ algorithm ∉ algorithms := by
  dsimp only [bcm2835RngGetInfo] at hinfo
  split_ifs at hinfo with hthis hsmall hlist
  obtain ⟨-, rfl⟩ := RngInfo.success.inj hinfo
  have hchecks : ¬ (r.this = 0 ∨ r.rngValueLength = 0 ∨ r.rngValue = 0) := by
    rintro (h | h | h)
    · exact hthis h
    · exact hlen h
    · exact hvalue h
  simp only [RngRequest.start, bcm2835RngGetRNG, if_neg hchecks, halgorithm, List.mem_singleton]
  by_cases hraw : algorithm = dev.gEfiRngAlgorithmRaw
  · simp [hraw]
  · simp [hraw]

theorem iterate_step_ret {status : EfiStatus} (hpc : s.pc = .ret status) (k : Nat) :
    (RngState.step dev)^[k] s = s :=
  Function.iterate_fixed (step_ret hpc) k

theorem RngRequest.exists_endsIn (dev : RngDevice) (hwords : r.rngValueLength.toNat % 4 = 0) :
    ∃ s, r.EndsIn dev s := by
  rcases r.start_cases dev with hpc | hpc | hpc
  · obtain ⟨k, status, hret⟩ := (drawing_start hpc).reaches_ret hwords
    exact ⟨_, k, status, rfl, hret⟩
  · exact ⟨_, 0, _, rfl, hpc⟩
  · exact ⟨_, 0, _, rfl, hpc⟩

/-- What a call delivers is what it has read. -/
theorem RngRequest.EndsIn.answered (h : r.EndsIn dev s)
    (hwords : r.rngValueLength.toNat % 4 = 0) :
    s.delivered = rngBytes dev 0 (4 * s.dataReads) ∧ GetAnswered r s := by
  obtain ⟨k, status, rfl, hret⟩ := h
  rcases r.start_cases dev with hpc | hpc | hpc
  · have hdrawing : Drawing dev r.rngValueLength.toNat ((RngState.step dev)^[k] (r.start dev)) :=
      Function.Iterate.rec (Drawing dev r.rngValueLength.toNat) (drawing_start hpc)
        (fun _ hs => hs.step hwords) k
    have hcount := hdrawing.count
    have hlength : ((RngState.step dev)^[k] (r.start dev)).delivered.length
        = ((RngState.step dev)^[k] (r.start dev)).rngValue := by
      rw [hdrawing.delivered_eq, rngBytes_length, hdrawing.offset]
    refine ⟨hdrawing.delivered_eq, ?_⟩
    rcases hdrawing.done status hret with ⟨rfl, hlen⟩ | ⟨rfl, hlen⟩
    · refine .filled hret ?_
      rw [hlen] at hcount
      rw [hlength, ← hcount]
      exact (Nat.zero_add _).symm
    · have hpos : ((RngState.step dev)^[k] (r.start dev)).rngValueLength.toNat ≠ 0 :=
        fun h0 => hlen (BitVec.eq_of_toNat_eq h0)
      refine .gaveUp hret ?_
      omega
  · rw [iterate_step_ret hpc k]
    exact ⟨rfl, .refused (.inl hpc) ⟨rfl, rfl⟩⟩
  · rw [iterate_step_ret hpc k]
    exact ⟨rfl, .refused (.inr hpc) ⟨rfl, rfl⟩⟩

-- ============================================================================
-- Calls in turn
-- ============================================================================

/-- The words that calls have read. -/
def wordsRead (states : List RngState) : Nat := (states.map RngState.dataReads).sum

theorem exists_rngCalls (dev : RngDevice) (requests : List RngRequest)
    (hwords : ∀ r ∈ requests, r.rngValueLength.toNat % 4 = 0) :
    ∃ states, RngCalls dev requests states := by
  induction requests generalizing dev with
  | nil => exact ⟨[], .nil dev⟩
  | cons r requests ih =>
      obtain ⟨s, hs⟩ := RngRequest.exists_endsIn dev (hwords r List.mem_cons_self)
      obtain ⟨states, hstates⟩ := ih (dev.after s.statusReads s.dataReads)
        fun r hr => hwords r (List.mem_cons_of_mem _ hr)
      exact ⟨s :: states, .cons hs hstates⟩

/-- The buffers of all calls, one behind the other, are the device's stream. -/
theorem RngCalls.delivered (h : RngCalls dev requests states)
    (hwords : ∀ r ∈ requests, r.rngValueLength.toNat % 4 = 0) :
    states.flatMap RngState.delivered = rngBytes dev 0 (4 * wordsRead states) ∧
      List.Forall₂ GetAnswered requests states := by
  induction h with
  | nil dev => exact ⟨rfl, .nil⟩
  | @cons dev r s requests states hends _ ih =>
      obtain ⟨hfirst, hanswered⟩ := hends.answered (hwords r List.mem_cons_self)
      obtain ⟨hrest, hall⟩ := ih fun r hr => hwords r (List.mem_cons_of_mem _ hr)
      refine ⟨?_, .cons hanswered hall⟩
      have hwordsRead : wordsRead (s :: states) = s.dataReads + wordsRead states := by
        simp [wordsRead]
      rw [List.flatMap_cons, hfirst, hrest, rngBytes_after, hwordsRead, Nat.mul_add,
        rngBytes_append, Nat.zero_add]

/-- Requests for whole words in turn, on any device: every call returns, filled, or given up
    on an empty FIFO, or refused without a read; and what the calls deliver is the
    device's stream, no byte of it twice and none passed over. -/
theorem rngCalls_share_stream (dev : RngDevice) (requests : List RngRequest)
    (hwords : ∀ r ∈ requests, r.rngValueLength.toNat % 4 = 0) :
    (∃ states, RngCalls dev requests states) ∧
    ∀ states, RngCalls dev requests states →
      states.flatMap RngState.delivered = rngBytes dev 0 (4 * wordsRead states) ∧
        List.Forall₂ GetAnswered requests states :=
  ⟨exists_rngCalls dev requests hwords, fun _ h => h.delivered hwords⟩

/-- Two words, and one more. -/
theorem rngCalls_share_stream_steady :
    ∃ states, RngCalls steadyRng [⟨0x1000, none, 8, 0x2000⟩, ⟨0x1000, none, 4, 0x2000⟩] states ∧
      states.flatMap RngState.delivered = rngBytes steadyRng 0 (4 * wordsRead states) := by
  have hwords : ∀ r ∈ [RngRequest.mk 0x1000 none 8 0x2000, ⟨0x1000, none, 4, 0x2000⟩],
      r.rngValueLength.toNat % 4 = 0 := by
    simp
  obtain ⟨⟨states, hcalls⟩, hshare⟩ := rngCalls_share_stream steadyRng _ hwords
  exact ⟨states, hcalls, (hshare states hcalls).1⟩

end UemuPkg
