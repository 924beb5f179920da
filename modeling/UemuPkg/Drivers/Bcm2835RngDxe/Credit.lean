/-
  UemuPkg.Drivers.Bcm2835RngDxe.Credit

  What `Bcm2835RngGetRNG` takes from the FIFO.  A count read from `RNG_STATUS` is a credit
  of data words; the word loop and the tail spend it.  The discipline holds for every
  length and every device, also past the end of the buffer.
-/

import UemuPkg.Drivers.Bcm2835RngDxe.GetRNG
import UemuPkg.Generic.Credit

namespace UemuPkg

open Credit (Account Standing Within Covered)
open Streak (streak streak_concat_self streak_concat_of_ne replicate_infix_concat_iff)

-- ============================================================================
-- Credits in a trace
-- ============================================================================

/-- The credit that an event grants. -/
def RngEvent.count : RngEvent → Option Nat
  | .readStatus value => some (rngStatusCount value).toNat
  | .readData _ => none
  | .store _ _ => none

def RngEvent.isDataRead : RngEvent → Bool
  | .readStatus _ => false
  | .readData _ => true
  | .store _ _ => false

/-- The counts of the status reads, in order. -/
def statusCounts (trace : List RngEvent) : List UINT32 :=
  trace.filterMap fun event =>
    match event with
    | .readStatus value => some (rngStatusCount value)
    | _ => none

@[simp] theorem statusCounts_append (xs ys : List RngEvent) :
    statusCounts (xs ++ ys) = statusCounts xs ++ statusCounts ys := List.filterMap_append

@[simp] theorem statusCounts_writeUnaligned32 (offset : Nat) (value : UINT32) :
    statusCounts (.readData value :: writeUnaligned32 offset value) = [] := rfl

@[simp] theorem statusCounts_readData (value : UINT32) : statusCounts [.readData value] = [] := rfl

@[simp] theorem statusCounts_store (offset : Nat) (value : UINT8) :
    statusCounts [.store offset value] = [] := rfl

theorem statusCounts_readStatus (trace : List RngEvent) (status : UINT32) :
    statusCounts (trace ++ [.readStatus status])
      = statusCounts trace ++ [rngStatusCount status] := statusCounts_append _ _

/-- The values of the status reads, in order. -/
def statusWords (trace : List RngEvent) : List UINT32 :=
  trace.filterMap fun event =>
    match event with
    | .readStatus value => some value
    | _ => none

/-- The values of the data reads, in order. -/
def dataWords (trace : List RngEvent) : List UINT32 :=
  trace.filterMap fun event =>
    match event with
    | .readData value => some value
    | _ => none

@[simp] theorem statusWords_append (xs ys : List RngEvent) :
    statusWords (xs ++ ys) = statusWords xs ++ statusWords ys := List.filterMap_append

@[simp] theorem dataWords_append (xs ys : List RngEvent) :
    dataWords (xs ++ ys) = dataWords xs ++ dataWords ys := List.filterMap_append

@[simp] theorem statusWords_readStatus (value : UINT32) (rest : List RngEvent) :
    statusWords (.readStatus value :: rest) = value :: statusWords rest := rfl

@[simp] theorem dataWords_readStatus (value : UINT32) (rest : List RngEvent) :
    dataWords (.readStatus value :: rest) = dataWords rest := rfl

@[simp] theorem statusWords_readData (value : UINT32) (rest : List RngEvent) :
    statusWords (.readData value :: rest) = statusWords rest := rfl

@[simp] theorem dataWords_readData (value : UINT32) (rest : List RngEvent) :
    dataWords (.readData value :: rest) = value :: dataWords rest := rfl

/-- What has been read is what the registers of the device held, read by read. -/
structure ReadsDevice (dev : RngDevice) (s : RngState) : Prop where
  status : statusWords s.trace = (List.range s.statusReads).map dev.status
  data : dataWords s.trace = (List.range s.dataReads).map dev.data

variable {trace : List RngEvent} {standing : Standing} {status : UINT32} {m n : Nat}

theorem account_refused (h : Account RngEvent.count RngEvent.isDataRead trace (.left m))
    (hnum : rngStatusCount status = 0) :
    Account RngEvent.count RngEvent.isDataRead (trace ++ [.readStatus status]) (.left 0) := by
  refine h.refuse ?_ rfl
  rw [RngEvent.count, hnum]
  rfl

theorem account_granted (h : Account RngEvent.count RngEvent.isDataRead trace (.left m))
    (hnum : rngStatusCount status ≠ 0) :
    Account RngEvent.count RngEvent.isDataRead (trace ++ [.readStatus status])
      (.granted (rngStatusCount status).toNat) :=
  h.grant rfl (fun h0 => hnum (BitVec.eq_of_toNat_eq h0)) rfl

/-- A zero count makes the streak longer. -/
theorem streak_refused (hnum : rngStatusCount status = 0) :
    streak 0 (statusCounts (trace ++ [.readStatus status]))
      = streak 0 (statusCounts trace) + 1 := by
  rw [statusCounts_readStatus, hnum, streak_concat_self]

/-- Any other count ends it. -/
theorem streak_granted (hnum : rngStatusCount status ≠ 0) :
    streak 0 (statusCounts (trace ++ [.readStatus status])) = 0 := by
  rw [statusCounts_readStatus, streak_concat_of_ne hnum]

/-- The 257 zero counts in a row end with this status read, or were there before. -/
theorem exhausted_readStatus_iff :
    List.replicate 257 0 <:+: statusCounts (trace ++ [.readStatus status]) ↔
      257 ≤ streak 0 (statusCounts (trace ++ [.readStatus status])) ∨
        List.replicate 257 0 <:+: statusCounts trace := by
  rw [statusCounts_readStatus]
  exact replicate_infix_concat_iff

/-- The word that is written spends one unit. -/
theorem account_word (offset : Nat)
    (value : UINT32) (h : Account RngEvent.count RngEvent.isDataRead trace standing)
    (hamount : standing.amount = n + 1) :
    Account RngEvent.count RngEvent.isDataRead
      (trace ++ .readData value :: writeUnaligned32 offset value) (.left n) := by
  rw [append_writeUnaligned32]
  exact ((((h.spend hamount rfl rfl).other rfl rfl).other rfl rfl).other rfl rfl).other rfl rfl

-- ============================================================================
-- The invariant
-- ============================================================================

variable {dev : RngDevice} {s : RngState}

/-- How the variables of a run stand to its trace. -/
structure Metered (s : RngState) : Prop where
  /-- In the word loop `Num` is what is left of the credit.  Only there, and only before
      its first test, a credit is untouched. -/
  account : ∃ standing, Account RngEvent.count RngEvent.isDataRead s.trace standing ∧
    (s.pc = .words → standing.amount = s.num.toNat) ∧
    ∀ n, standing = .granted n → s.pc = .words ∧ s.rngValueLength ≠ 0
  more : s.pc = .poll → s.rngValueLength ≠ 0
  /-- While polling, the retries count the zero counts in a row. -/
  polling : s.pc = .poll → streak 0 (statusCounts s.trace) + s.retries.toNat = 256
  idle : s.pc = .outer ∨ s.pc = .words ∨ s.pc = .tail → streak 0 (statusCounts s.trace) = 0
  failed : List.replicate 257 0 <:+: statusCounts s.trace ↔ s.pc = .ret .deviceError

/-- Outside the word loop no credit is untouched. -/
theorem Metered.account_left (h : Metered s) (hpc : s.pc ≠ .words) :
    ∃ m, Account RngEvent.count RngEvent.isDataRead s.trace (.left m) := by
  obtain ⟨standing, haccount, -, hgranted⟩ := h.account
  cases standing with
  | granted n => exact absurd (hgranted n rfl).1 hpc
  | left m => exact ⟨m, haccount⟩

theorem Metered.step_outer (h : Metered s) (hpc : s.pc = .outer) : Metered (s.step dev) := by
  obtain ⟨m, haccount⟩ := h.account_left (by rw [hpc]; nofun)
  have hfailed := h.failed
  rw [hpc] at hfailed
  rcases UemuPkg.step_outer dev hpc with ⟨hlen, hstep⟩ | ⟨-, hstep⟩
  · rw [hstep]
    refine ⟨⟨_, haccount, nofun, nofun⟩, fun _ => hlen, fun _ => ?_, nofun, ?_⟩
    · rw [h.idle (.inl hpc)]
      rfl
    · exact hfailed.trans (iff_of_false nofun nofun)
  · rw [hstep]
    exact ⟨⟨_, haccount, nofun, nofun⟩, nofun, nofun, nofun,
      hfailed.trans (iff_of_false nofun nofun)⟩

/-- The 257th zero count in a row ends the call. -/
theorem Metered.step_poll (h : Metered s) (hpc : s.pc = .poll) : Metered (s.step dev) := by
  obtain ⟨m, haccount⟩ := h.account_left (by rw [hpc]; nofun)
  have hpolling := h.polling hpc
  have hno : ¬ List.replicate 257 0 <:+: statusCounts s.trace := by
    rw [h.failed, hpc]
    nofun
  have hretries := s.retries.isLt
  obtain ⟨status, num, -, rfl, ⟨hnum, hstep⟩ | ⟨hnum, hretry, hstep⟩ | ⟨hnum, hretry, hstep⟩⟩ :=
    UemuPkg.step_poll dev hpc
  · have hstreak := @streak_granted s.trace status hnum
    rw [hstep]
    refine ⟨⟨_, account_granted haccount hnum, fun _ => rfl, fun _ _ => ⟨rfl, h.more hpc⟩⟩,
      nofun, nofun, fun _ => hstreak, iff_of_false ?_ nofun⟩
    rw [exhausted_readStatus_iff, hstreak, not_or]
    exact ⟨by omega, hno⟩
  · have hpos : s.retries.toNat ≠ 0 := fun h0 => hretry (BitVec.eq_of_toNat_eq h0)
    have hdec : (s.retries - 1).toNat = s.retries.toNat - 1 := by bv_omega
    have hstreak := @streak_refused s.trace status hnum
    rw [hstep]
    refine ⟨⟨_, account_refused haccount hnum, ?_, nofun⟩, fun _ => h.more hpc, fun _ => ?_, ?_,
      iff_of_false ?_ ?_⟩
    · intro hwords
      rw [hpc] at hwords
      cases hwords
    · dsimp only
      rw [hstreak, hdec]
      omega
    · rw [hpc]
      nofun
    · rw [exhausted_readStatus_iff, hstreak, not_or]
      exact ⟨by omega, hno⟩
    · rw [hpc]
      nofun
  · have hzero : s.retries.toNat = 0 := by rw [hretry]; rfl
    have hstreak := @streak_refused s.trace status hnum
    rw [hstep]
    refine ⟨⟨_, account_refused haccount hnum, nofun, nofun⟩, nofun, nofun, nofun,
      iff_of_true ?_ rfl⟩
    rw [exhausted_readStatus_iff, hstreak]
    exact .inl (by omega)

theorem Metered.step_words (h : Metered s) (hpc : s.pc = .words) : Metered (s.step dev) := by
  obtain ⟨standing, haccount, hamount, hgranted⟩ := h.account
  have hnum := hamount hpc
  have hidle := h.idle (.inr (.inl hpc))
  have hfailed := h.failed
  rw [hpc] at hfailed
  have hno : ¬ List.replicate 257 0 <:+: statusCounts s.trace := fun hin => nomatch hfailed.mp hin
  obtain ⟨value, -, ⟨-, hmore, hstep⟩ | ⟨-, -, hmore, hstep⟩ | ⟨hdone, hstep⟩⟩ :=
    UemuPkg.step_words dev hpc
  · have hpos : s.num.toNat ≠ 0 := fun h0 => hmore (BitVec.eq_of_toNat_eq h0)
    have hdec : (s.num - 1).toNat = s.num.toNat - 1 := by bv_omega
    rw [hstep]
    refine ⟨⟨_, account_word s.rngValue value haccount (n := s.num.toNat - 1) (by omega), ?_,
      nofun⟩, ?_, ?_, fun _ => ?_, ?_⟩
    · intro _
      exact hdec.symm
    · rw [hpc]
      nofun
    · rw [hpc]
      nofun
    · rw [statusCounts_append, statusCounts_writeUnaligned32, List.append_nil]
      exact hidle
    · rw [statusCounts_append, statusCounts_writeUnaligned32, List.append_nil, hpc]
      exact hfailed
  · have hpos : s.num.toNat ≠ 0 := fun h0 => hmore (BitVec.eq_of_toNat_eq h0)
    rw [hstep]
    refine ⟨⟨_, haccount.spend (n := s.num.toNat - 1) (by omega) rfl rfl, nofun, nofun⟩,
      nofun, nofun, fun _ => ?_, ?_⟩
    · rw [statusCounts_append, statusCounts_readData, List.append_nil]
      exact hidle
    · rw [statusCounts_append, statusCounts_readData, List.append_nil]
      exact iff_of_false hno nofun
  · rw [hstep]
    refine ⟨⟨standing, haccount, nofun, ?_⟩, nofun, nofun, fun _ => hidle, iff_of_false hno nofun⟩
    -- An untouched credit has a first word to be spent on.
    rintro n rfl
    exfalso
    rcases hdone with hlen | hzero
    · exact (hgranted n rfl).2 hlen
    · rw [hzero] at hnum
      exact haccount.granted_ne_zero hnum

theorem Metered.step_tail (h : Metered s) (hpc : s.pc = .tail) : Metered (s.step dev) := by
  obtain ⟨m, haccount⟩ := h.account_left (by rw [hpc]; nofun)
  have hidle := h.idle (.inr (.inr hpc))
  have hfailed := h.failed
  rw [hpc] at hfailed
  rcases UemuPkg.step_tail dev hpc with ⟨-, hstep⟩ | ⟨-, hstep⟩
  · rw [hstep]
    refine ⟨⟨_, haccount.other rfl rfl, ?_, nofun⟩, ?_, ?_, fun _ => ?_, ?_⟩
    · rw [hpc]
      nofun
    · rw [hpc]
      nofun
    · rw [hpc]
      nofun
    · rw [statusCounts_append, statusCounts_store, List.append_nil]
      exact hidle
    · rw [statusCounts_append, statusCounts_store, List.append_nil, hpc]
      exact hfailed
  · rw [hstep]
    exact ⟨⟨_, haccount, nofun, nofun⟩, nofun, nofun, fun _ => hidle,
      hfailed.trans (iff_of_false nofun nofun)⟩

theorem Metered.step (h : Metered s) : Metered (s.step dev) := by
  cases hpc : s.pc with
  | outer => exact h.step_outer hpc
  | poll => exact h.step_poll hpc
  | words => exact h.step_words hpc
  | tail => exact h.step_tail hpc
  | ret status => rwa [step_ret hpc]

-- ============================================================================
-- The run
-- ============================================================================

/-- The checks at the head do not return `EFI_DEVICE_ERROR`. -/
theorem bcm2835RngGetRNG_pc_cases (dev : RngDevice) (this rngValue : UINT64)
    (rngAlgorithm : Option EFI_GUID) (rngValueLength : UINTN) :
    (bcm2835RngGetRNG dev this rngAlgorithm rngValueLength rngValue).pc = .outer ∨
      ∃ status, status ≠ .deviceError ∧
        (bcm2835RngGetRNG dev this rngAlgorithm rngValueLength rngValue).pc = .ret status := by
  dsimp only [bcm2835RngGetRNG]
  split
  · exact .inr ⟨.invalidParameter, by decide, rfl⟩
  · split
    · exact .inl rfl
    · split
      · exact .inl rfl
      · exact .inr ⟨.unsupported, by decide, rfl⟩

theorem bcm2835RngGetRNG_metered (dev : RngDevice) (this rngValue : UINT64)
    (rngAlgorithm : Option EFI_GUID) (rngValueLength : UINTN) :
    Metered (bcm2835RngGetRNG dev this rngAlgorithm rngValueLength rngValue) := by
  obtain ⟨hpoll, hwords, hfailed⟩ :
      (bcm2835RngGetRNG dev this rngAlgorithm rngValueLength rngValue).pc ≠ .poll ∧
      (bcm2835RngGetRNG dev this rngAlgorithm rngValueLength rngValue).pc ≠ .words ∧
      (bcm2835RngGetRNG dev this rngAlgorithm rngValueLength rngValue).pc ≠ .ret .deviceError := by
    rcases bcm2835RngGetRNG_pc_cases dev this rngValue rngAlgorithm rngValueLength with
      hpc | ⟨status, hstatus, hpc⟩
    · rw [hpc]
      exact ⟨nofun, nofun, nofun⟩
    · rw [hpc]
      exact ⟨nofun, nofun, fun heq => hstatus (RngPc.ret.inj heq)⟩
  have hno : ¬ List.replicate 257 (0 : UINT32) <:+: [] := by
    rw [List.infix_nil]
    exact List.cons_ne_nil _ _
  exact ⟨⟨_, .start, fun h => absurd h hwords, nofun⟩, fun h => absurd h hpoll,
    fun h => absurd h hpoll, fun _ => rfl, iff_of_false hno hfailed⟩

theorem ReadsDevice.readStatus {s' : RngState} (h : ReadsDevice dev s)
    (htrace : s'.trace = s.trace ++ [.readStatus (dev.status s.statusReads)])
    (hstatus : s'.statusReads = s.statusReads + 1) (hdata : s'.dataReads = s.dataReads) :
    ReadsDevice dev s' where
  status := by
    rw [htrace, hstatus, statusWords_append, statusWords_readStatus, List.range_succ,
      List.map_append, h.status]
    rfl
  data := by
    rw [htrace, hdata, dataWords_append, dataWords_readStatus, ← h.data]
    exact List.append_nil _

theorem ReadsDevice.readData {s' : RngState} {rest : List RngEvent} (h : ReadsDevice dev s)
    (htrace : s'.trace = s.trace ++ .readData (dev.data s.dataReads) :: rest)
    (hstores : statusWords rest = [] ∧ dataWords rest = [])
    (hstatus : s'.statusReads = s.statusReads) (hdata : s'.dataReads = s.dataReads + 1) :
    ReadsDevice dev s' where
  status := by
    rw [htrace, hstatus, statusWords_append, statusWords_readData, hstores.1, List.append_nil,
      h.status]
  data := by
    rw [htrace, hdata, dataWords_append, dataWords_readData, hstores.2, List.range_succ,
      List.map_append, h.data]
    rfl

theorem ReadsDevice.step (h : ReadsDevice dev s) : ReadsDevice dev (s.step dev) := by
  cases hpc : s.pc with
  | outer =>
      rcases UemuPkg.step_outer dev hpc with ⟨-, hstep⟩ | ⟨-, hstep⟩
      · rw [hstep]
        exact ⟨h.status, h.data⟩
      · rw [hstep]
        exact ⟨h.status, h.data⟩
  | poll =>
      obtain ⟨status, num, rfl, -, ⟨-, hstep⟩ | ⟨-, -, hstep⟩ | ⟨-, -, hstep⟩⟩ :=
        UemuPkg.step_poll dev hpc
      · rw [hstep]
        exact h.readStatus rfl rfl rfl
      · rw [hstep]
        exact h.readStatus rfl rfl rfl
      · rw [hstep]
        exact h.readStatus rfl rfl rfl
  | words =>
      obtain ⟨value, rfl, ⟨-, -, hstep⟩ | ⟨-, -, -, hstep⟩ | ⟨-, hstep⟩⟩ :=
        UemuPkg.step_words dev hpc
      · rw [hstep]
        exact h.readData rfl ⟨rfl, rfl⟩ rfl rfl
      · rw [hstep]
        exact h.readData rfl ⟨rfl, rfl⟩ rfl rfl
      · rw [hstep]
        exact ⟨h.status, h.data⟩
  | tail =>
      rcases UemuPkg.step_tail dev hpc with ⟨-, hstep⟩ | ⟨-, hstep⟩
      · rw [hstep]
        refine ⟨?_, ?_⟩
        · exact ((statusWords_append _ _).trans (List.append_nil _)).trans h.status
        · exact ((dataWords_append _ _).trans (List.append_nil _)).trans h.data
      · rw [hstep]
        exact ⟨h.status, h.data⟩
  | ret status =>
      rw [step_ret hpc]
      exact h

/-- A step only adds to the trace. -/
theorem step_trace (dev : RngDevice) (s : RngState) :
    ∃ more, (s.step dev).trace = s.trace ++ more := by
  have hnone : ∃ more, s.trace = s.trace ++ more := ⟨[], (List.append_nil _).symm⟩
  cases hpc : s.pc with
  | outer =>
      rcases UemuPkg.step_outer dev hpc with ⟨-, hstep⟩ | ⟨-, hstep⟩
      · rw [hstep]
        exact hnone
      · rw [hstep]
        exact hnone
  | poll =>
      obtain ⟨status, num, -, -, ⟨-, hstep⟩ | ⟨-, -, hstep⟩ | ⟨-, -, hstep⟩⟩ :=
        UemuPkg.step_poll dev hpc
      · exact ⟨_, by rw [hstep]⟩
      · exact ⟨_, by rw [hstep]⟩
      · exact ⟨_, by rw [hstep]⟩
  | words =>
      obtain ⟨value, -, ⟨-, -, hstep⟩ | ⟨-, -, -, hstep⟩ | ⟨-, hstep⟩⟩ :=
        UemuPkg.step_words dev hpc
      · exact ⟨_, by rw [hstep]⟩
      · exact ⟨_, by rw [hstep]⟩
      · rw [hstep]
        exact hnone
  | tail =>
      rcases UemuPkg.step_tail dev hpc with ⟨-, hstep⟩ | ⟨-, hstep⟩
      · exact ⟨_, by rw [hstep]⟩
      · rw [hstep]
        exact hnone
  | ret status =>
      rw [step_ret hpc]
      exact hnone

/-- With words wanted and words in the FIFO, the next event is a data read. -/
theorem step_words_trace (dev : RngDevice) (hpc : s.pc = .words) (hlen : s.rngValueLength ≠ 0)
    (hnum : s.num ≠ 0) :
    ∃ value rest, (s.step dev).trace = s.trace ++ .readData value :: rest := by
  obtain ⟨value, -, ⟨-, -, hstep⟩ | ⟨-, -, -, hstep⟩ | ⟨hdone, -⟩⟩ := UemuPkg.step_words dev hpc
  · exact ⟨value, _, by rw [hstep]⟩
  · exact ⟨value, [], by rw [hstep]⟩
  · exact absurd hdone (not_or.mpr ⟨hlen, hnum⟩)

/-- A nonzero count is answered by a data read in the next step, if it was not before. -/
theorem Metered.answered (h : Metered s) {before after : List RngEvent} {status : UINT32}
    (hsplit : s.trace = before ++ .readStatus status :: after)
    (hnum : rngStatusCount status ≠ 0) :
    ∃ value rest, (s.step dev).trace = before ++ .readStatus status :: .readData value :: rest := by
  obtain ⟨standing, haccount, hamount, hgranted⟩ := h.account
  have hcount : (rngStatusCount status).toNat ≠ 0 := fun h0 => hnum (BitVec.eq_of_toNat_eq h0)
  rcases haccount.used_or_granted hsplit rfl hcount with ⟨rfl, rfl⟩ | ⟨event, rest, rfl, hread⟩
  · obtain ⟨hpc, hlen⟩ := hgranted _ rfl
    have hleft : s.num ≠ 0 := by
      intro h0
      have hzero := hamount hpc
      rw [h0] at hzero
      exact hcount hzero
    obtain ⟨value, rest, htrace⟩ := step_words_trace dev hpc hlen hleft
    exact ⟨value, rest, by rw [htrace, hsplit, List.append_assoc]; rfl⟩
  · cases event with
    | readStatus value => cases hread
    | store offset value => cases hread
    | readData value =>
        obtain ⟨more, hmore⟩ := step_trace dev s
        refine ⟨value, rest ++ more, ?_⟩
        rw [hmore, hsplit, List.append_assoc]
        rfl

/-- The credit discipline of `Bcm2835RngGetRNG`, for every request, device and number of
    steps, on the values that the registers of the device return.  Between one status read
    and the next there are at most as many data reads as the first has counted; every data
    read has a nonzero count before it, which the next event after it uses; and the call
    fails exactly when 257 counts in a row were 0. -/
theorem bcm2835RngGetRNG_credit (dev : RngDevice) (this rngValue : UINT64)
    (rngAlgorithm : Option EFI_GUID) (rngValueLength : UINTN) (k : Nat) :
    let run k := (RngState.step dev)^[k]
      (bcm2835RngGetRNG dev this rngAlgorithm rngValueLength rngValue)
    ReadsDevice dev (run k) ∧
    Within RngEvent.count RngEvent.isDataRead (run k).trace ∧
    Covered RngEvent.count RngEvent.isDataRead (run k).trace ∧
    (∀ before status after, (run k).trace = before ++ .readStatus status :: after →
      rngStatusCount status ≠ 0 →
      ∃ value rest, (run (k + 1)).trace
        = before ++ .readStatus status :: .readData value :: rest) ∧
    ((run k).pc = .ret .deviceError ↔
      List.replicate 257 0 <:+: statusCounts (run k).trace) := by
  intro run
  have hmetered : Metered (run k) :=
    Function.Iterate.rec Metered
      (bcm2835RngGetRNG_metered dev this rngValue rngAlgorithm rngValueLength)
      (fun _ hs => hs.step) k
  have hreads : ReadsDevice dev (run k) :=
    Function.Iterate.rec (ReadsDevice dev) ⟨rfl, rfl⟩ (fun _ hs => hs.step) k
  obtain ⟨standing, haccount, -⟩ := hmetered.account
  refine ⟨hreads, haccount.within, haccount.covered, ?_, hmetered.failed.symm⟩
  intro before status after hsplit hnum
  have hnext : run (k + 1) = (run k).step dev := Function.iterate_succ_apply' _ _ _
  rw [hnext]
  exact hmetered.answered hsplit hnum

end UemuPkg
