/-
  UemuPkg.Drivers.GoldfishEventsDxe.EventFraming

  The event register with `EV_SYN` records, which are all zero, and records that arrive
  between two reads of a loop.  A 0 in the type position ends a poll and a Reset, so
  they may leave one or two words of an `EV_SYN` record behind.  These are zeros too:
  the next polls end at them, one at each, and stay in step with the records.
-/

import UemuPkg.Drivers.GoldfishEventsDxe.ResetFraming

namespace UemuPkg

open Run (run)

-- ============================================================================
-- The event register
-- ============================================================================

/-- A record of the device. -/
structure StreamRecord where
  type : UINT32
  code : UINT32
  value : UINT32
  /-- Type 0 is `EV_SYN`, and that record is all zero. -/
  syn_zero : type = 0 → code = 0 ∧ value = 0

/-- A word of a record. -/
structure StreamWord where
  field : EventField
  word : UINT32
  /-- The record is `EV_SYN`. -/
  syn : Bool
  deriving DecidableEq

def StreamRecord.words (r : StreamRecord) : List StreamWord :=
  [⟨.type, r.type, r.type == 0⟩, ⟨.code, r.code, r.type == 0⟩, ⟨.value, r.value, r.type == 0⟩]

/-- The words of a list of records. -/
def streamOf (records : List StreamRecord) : List StreamWord :=
  records.flatMap StreamRecord.words

/-- The records other than `EV_SYN`. -/
def dataRecords (records : List StreamRecord) : List StreamRecord :=
  records.filter fun r => r.type ≠ 0

/-- Type, code and value. -/
abbrev RecordData := UINT32 × UINT32 × UINT32

def StreamRecord.data (r : StreamRecord) : RecordData := (r.type, r.code, r.value)

-- ============================================================================
-- The readers
-- ============================================================================

/-- Who drains the register: `PollKeyboard`, with its `HaveNotify`, or
    `GoldfishEventsReset`. -/
inductive Reader where
  | poll (haveNotify : Bool)
  | reset

/-- The next register read, with the words read of the record so far. -/
inductive ReaderPc where
  | idle
  | type (reader : Reader)
  | code (reader : Reader) (type : UINT32)
  | value (reader : Reader) (type code : UINT32)

/-- A record as its reader has read it. -/
structure TakenRecord where
  data : RecordData
  byPoll : Bool

structure FramingState where
  dev : GoldfishEventsDev
  fifo : List StreamWord
  pc : ReaderPc
  /-- `KeyNotifyProcessEvent` is signalled. -/
  pending : Bool
  /-- The records that have arrived. -/
  arrived : List StreamRecord
  /-- The words read in the type position. -/
  typeReads : List StreamWord
  /-- The records read to their end. -/
  taken : List TakenRecord
  /-- `Code` and `Value` of the calls of `ConvertKeyCode`. -/
  converted : List (UINT32 × UINT32)

inductive FramingAction where
  | arrive (record : StreamRecord)
  /-- A call of `PollKeyboard`, up to its first read. -/
  | pollStart (haveNotify : Bool)
  /-- A call of `GoldfishEventsReset`, up to its first read. -/
  | resetStart
  /-- One register read of the running loop. -/
  | read

/-- What a read of `REG_READ` returns. -/
def wordAt (fifo : List StreamWord) : UINT32 :=
  match fifo with
  | [] => 0
  | event :: _ => event.word

/-- Either loop from one register read to the next. -/
def FramingState.read (s : FramingState) : Option FramingState :=
  let word := wordAt s.fifo
  let rest := { s with fifo := s.fifo.tail }
  match s.pc with
  | .idle => none
  | .type reader =>
    let rest := { rest with typeReads := s.typeReads ++ s.fifo.head?.toList }
    if word = 0 then
      match reader with
      | .poll haveNotify =>
        some { rest with
          pc := .idle
          pending := s.pending || (haveNotify && !s.dev.notifyList.isEmpty) }
      | .reset => some { rest with pc := .idle }
    else
      some { rest with pc := .code reader word }
  | .code reader type => some { rest with pc := .value reader type word }
  | .value (.poll haveNotify) type code =>
    let polled := polledRecord s.dev type code word
    some { rest with
      dev := polled.dev
      pc := .type (.poll (haveNotify || polled.haveNotify))
      taken := s.taken ++ [⟨(type, code, word), true⟩]
      converted := s.converted ++ polled.converted.toList }
  | .value .reset type code =>
    some { rest with
      pc := .type .reset
      taken := s.taken ++ [⟨(type, code, word), false⟩] }

/-- A record arrives at any time.  A poll and a Reset run one after the other. -/
def FramingState.step (s : FramingState) : FramingAction → Option FramingState
  | .arrive record =>
    some { s with fifo := s.fifo ++ record.words, arrived := s.arrived ++ [record] }
  | .pollStart haveNotify =>
    match s.pc with
    | .idle => some { s with pc := .type (.poll haveNotify) }
    | _ => none
  | .resetStart =>
    match s.pc with
    | .idle => some { s with dev := s.dev.clearKeys, pc := .type .reset }
    | _ => none
  | .read => s.read

/-- An empty register, and no reader at work. -/
def FramingState.initial (dev : GoldfishEventsDev) : FramingState where
  dev
  fifo := []
  pc := .idle
  pending := false
  arrived := []
  typeReads := []
  taken := []
  converted := []

-- ============================================================================
-- Framing
-- ============================================================================

/-- The words that the reader has read of its record. -/
def ReaderPc.words : ReaderPc → List StreamWord
  | .idle => []
  | .type _ => []
  | .code _ typeWord => [⟨.type, typeWord, false⟩]
  | .value _ typeWord codeWord => [⟨.type, typeWord, false⟩, ⟨.code, codeWord, false⟩]

/-- The calls of `ConvertKeyCode` that the records read by polls make. -/
def conversions (taken : List TakenRecord) : List (UINT32 × UINT32) :=
  (taken.filter fun t => t.byPoll && t.data.1 == EV_KEY).map fun t => t.data.2

/-- The reader is in step: behind what is left of an `EV_SYN` record come whole records,
    and those before them have been read. -/
structure Framed (s : FramingState) (left : List StreamWord) (unread : List StreamRecord) :
    Prop where
  words : s.pc.words ++ s.fifo = left ++ streamOf unread
  leftSyn : ∀ event ∈ left, event.word = 0 ∧ event.field ≠ .type ∧ event.syn = true
  leftShort : left.length ≤ 2
  /-- Within a record of its own, a reader has left none behind. -/
  within : s.pc.words ≠ [] → left = []
  accounted : (dataRecords s.arrived).map StreamRecord.data
    = s.taken.map TakenRecord.data ++ (dataRecords unread).map StreamRecord.data
  typeReads : ∀ event ∈ s.typeReads, event.word ≠ 0 → event.field = .type
  converted : s.converted = conversions s.taken

theorem framed_initial (dev : GoldfishEventsDev) : Framed (.initial dev) [] [] where
  words := rfl
  leftSyn := fun _ h => absurd h List.not_mem_nil
  leftShort := Nat.zero_le 2
  within := fun _ => rfl
  accounted := rfl
  typeReads := fun _ h => absurd h List.not_mem_nil
  converted := rfl

theorem conversions_concat (taken : List TakenRecord) (t : TakenRecord) :
    conversions (taken ++ [t])
      = conversions taken ++ if t.byPoll = true ∧ t.data.1 = EV_KEY then [t.data.2] else [] := by
  rw [conversions, List.filter_append, List.map_append]
  congr 1
  split
  · rename_i h
    rw [List.filter_cons_of_pos (by simp [h.1, h.2])]
    rfl
  · rename_i h
    rw [List.filter_cons_of_neg (by simpa using h)]
    rfl

theorem streamOf_cons (r : StreamRecord) (records : List StreamRecord) :
    streamOf (r :: records) = r.words ++ streamOf records := List.flatMap_cons

variable {s s' : FramingState} {left : List StreamWord} {unread : List StreamRecord}

/-- A record arrives behind the others. -/
theorem Framed.arrive (h : Framed s left unread) {record : StreamRecord}
    (hstep : s.step (.arrive record) = some s') : Framed s' left (unread ++ [record]) := by
  obtain rfl := Option.some.inj hstep
  refine ⟨?_, h.leftSyn, h.leftShort, h.within, ?_, h.typeReads, h.converted⟩
  · rw [streamOf, List.flatMap_append, ← List.append_assoc, ← List.append_assoc, ← streamOf,
      ← h.words]
    simp
  · rw [dataRecords, dataRecords, List.filter_append, List.filter_append, List.map_append,
      List.map_append, ← List.append_assoc]
    exact congrArg (· ++ _) h.accounted

-- ============================================================================
-- One read
-- ============================================================================

/-- A 0 in the type position ends either loop. -/
theorem read_of_zero {reader : Reader} (hpc : s.pc = .type reader) (hzero : wordAt s.fifo = 0) :
    ∃ pending, s.read = some { s with
      fifo := s.fifo.tail
      pc := .idle
      pending
      typeReads := s.typeReads ++ s.fifo.head?.toList } := by
  rw [FramingState.read, hpc]
  dsimp only
  rw [if_pos hzero]
  cases reader with
  | poll haveNotify => exact ⟨_, rfl⟩
  | reset => exact ⟨s.pending, rfl⟩

theorem read_of_ne_zero {reader : Reader} (hpc : s.pc = .type reader)
    (hne : wordAt s.fifo ≠ 0) :
    s.read = some { s with
      fifo := s.fifo.tail
      pc := .code reader (wordAt s.fifo)
      typeReads := s.typeReads ++ s.fifo.head?.toList } := by
  rw [FramingState.read, hpc]
  exact if_neg hne

theorem read_code {reader : Reader} {type : UINT32} (hpc : s.pc = .code reader type) :
    s.read = some { s with
      fifo := s.fifo.tail
      pc := .value reader type (wordAt s.fifo) } := by
  rw [FramingState.read, hpc]

/-- The last read of a record: a poll handles it, a Reset drops it. -/
theorem read_value {reader : Reader} {type code : UINT32} (hpc : s.pc = .value reader type code) :
    ∃ dev reader' byPoll, s.read = some { s with
      dev
      fifo := s.fifo.tail
      pc := .type reader'
      taken := s.taken ++ [⟨(type, code, wordAt s.fifo), byPoll⟩]
      converted := s.converted ++
        if byPoll = true ∧ type = EV_KEY then [(code, wordAt s.fifo)] else [] } := by
  rw [FramingState.read, hpc]
  cases reader with
  | poll haveNotify =>
      refine ⟨(polledRecord s.dev type code (wordAt s.fifo)).dev,
        .poll (haveNotify || (polledRecord s.dev type code (wordAt s.fifo)).haveNotify), true, ?_⟩
      simp only [true_and, polledRecord_converted]
      split
      · rfl
      · rfl
  | reset =>
      refine ⟨s.dev, .reset, false, ?_⟩
      simp

/-- The words in the register that belong to `EV_SYN` records. -/
def FramingState.synWords (s : FramingState) : Nat := s.fifo.countP StreamWord.syn

/-- How a read comes out: it ends the loop, at a word of an `EV_SYN` record or at the
    empty register; or the loop goes on, past a word of another record. -/
def ReadsOn (s s' : FramingState) : Prop :=
  (s'.pc = .idle ∧ (s'.fifo = [] ∨ s'.synWords + 1 = s.synWords)) ∨
    (s'.pc ≠ .idle ∧ s'.synWords = s.synWords ∧ s'.fifo.length < s.fifo.length)

theorem dataRecords_cons_of_zero {r : StreamRecord} (hzero : r.type = 0)
    (records : List StreamRecord) : dataRecords (r :: records) = dataRecords records :=
  List.filter_cons_of_neg (by simpa using hzero)

theorem dataRecords_cons_of_ne_zero {r : StreamRecord} (hne : r.type ≠ 0)
    (records : List StreamRecord) : dataRecords (r :: records) = r :: dataRecords records :=
  List.filter_cons_of_pos (by simpa using hne)

theorem words_of_ne_zero {r : StreamRecord} (hne : r.type ≠ 0) :
    r.words = [⟨.type, r.type, false⟩, ⟨.code, r.code, false⟩, ⟨.value, r.value, false⟩] := by
  rw [StreamRecord.words, beq_eq_false_iff_ne.mpr hne]

theorem words_of_zero {r : StreamRecord} (hzero : r.type = 0) :
    r.words = [⟨.type, 0, true⟩, ⟨.code, 0, true⟩, ⟨.value, 0, true⟩] := by
  obtain ⟨hcode, hvalue⟩ := r.syn_zero hzero
  rw [StreamRecord.words, hcode, hvalue, hzero]
  rfl

/-- A word joins those that were read in the type position. -/
theorem Framed.typeReads_concat (h : Framed s left unread) {event : StreamWord}
    (hevent : event.word ≠ 0 → event.field = .type) :
    ∀ e ∈ s.typeReads ++ [event], e.word ≠ 0 → e.field = .type := by
  intro e he
  rcases List.mem_append.mp he with hold | hnew
  · exact h.typeReads e hold
  · rw [List.mem_singleton.mp hnew]
    exact hevent

/-- A loop that ends at a 0 leaves the framing that it finds behind that word. -/
theorem Framed.read_zero (h : Framed s left unread) {reader : Reader} (hpc : s.pc = .type reader)
    (hzero : wordAt s.fifo = 0) (hstep : s.read = some s') {left' : List StreamWord}
    {unread' : List StreamRecord} (hwords : s.fifo.tail = left' ++ streamOf unread')
    (hleft : ∀ event ∈ left', event.word = 0 ∧ event.field ≠ .type ∧ event.syn = true)
    (hshort : left'.length ≤ 2) (hdata : dataRecords unread = dataRecords unread') :
    s'.pc = .idle ∧ s'.fifo = s.fifo.tail ∧ Framed s' left' unread' := by
  obtain ⟨pending, hread⟩ := read_of_zero hpc hzero
  obtain rfl := Option.some.inj (hread.symm.trans hstep)
  refine ⟨rfl, rfl, hwords, hleft, hshort, fun hne => absurd rfl hne, hdata ▸ h.accounted, ?_,
    h.converted⟩
  cases hfifo : s.fifo with
  | nil => exact (List.append_nil s.typeReads).symm ▸ h.typeReads
  | cons event fifo =>
      have hevent : event.word = 0 := by rwa [hfifo] at hzero
      exact h.typeReads_concat fun hne => absurd hevent hne

/-- A read in the type position. -/
theorem Framed.read_type (h : Framed s left unread) {reader : Reader}
    (hpc : s.pc = .type reader) (hstep : s.read = some s') :
    ReadsOn s s' ∧ ∃ left' unread', Framed s' left' unread' := by
  have hwords := h.words
  rw [hpc, ReaderPc.words, List.nil_append] at hwords
  cases left with
  | cons event left =>
      -- The rest of an `EV_SYN` record that an earlier loop has left.
      rw [List.cons_append] at hwords
      obtain ⟨hzero, hfield, hsyn⟩ := h.leftSyn event List.mem_cons_self
      have hshort := h.leftShort
      rw [List.length_cons] at hshort
      obtain ⟨hidle, hfifo, hframed⟩ := h.read_zero hpc (by rw [hwords]; exact hzero) hstep
        (by rw [hwords]; rfl) (fun e he => h.leftSyn e (List.mem_cons_of_mem _ he)) (by omega) rfl
      refine ⟨.inl ⟨hidle, .inr ?_⟩, left, unread, hframed⟩
      rw [FramingState.synWords, FramingState.synWords, hfifo, hwords,
        List.countP_cons_of_pos hsyn]
      rfl
  | nil =>
      rw [List.nil_append] at hwords
      cases unread with
      | nil =>
          -- The empty register.
          have hempty : s.fifo = [] := hwords
          obtain ⟨hidle, hfifo, hframed⟩ := h.read_zero hpc (by rw [hempty]; rfl) hstep
            (by rw [hempty]; rfl) h.leftSyn h.leftShort rfl
          refine ⟨.inl ⟨hidle, .inl ?_⟩, [], [], hframed⟩
          rw [hfifo, hempty]
          rfl
      | cons r records =>
          rw [streamOf_cons] at hwords
          by_cases hzero : r.type = 0
          · -- An `EV_SYN` record.
            rw [words_of_zero hzero] at hwords
            obtain ⟨hidle, hfifo, hframed⟩ := h.read_zero hpc (by rw [hwords]; rfl) hstep
              (show s.fifo.tail = [⟨.code, 0, true⟩, ⟨.value, 0, true⟩] ++ streamOf records by
                rw [hwords]; rfl)
              (by simp) (Nat.le_refl 2) (dataRecords_cons_of_zero hzero records)
            refine ⟨.inl ⟨hidle, .inr ?_⟩, _, records, hframed⟩
            rw [FramingState.synWords, FramingState.synWords, hfifo, hwords, List.cons_append,
              List.countP_cons_of_pos rfl]
            rfl
          · -- Any other record.
            rw [words_of_ne_zero hzero] at hwords
            have hword : wordAt s.fifo = r.type := by rw [hwords]; rfl
            have hread := read_of_ne_zero hpc (by rwa [hword])
            obtain rfl := Option.some.inj (hread.symm.trans hstep)
            refine ⟨.inr ⟨(fun hidle => nomatch hidle), ?_, ?_⟩, [], r :: records, ?_⟩
            · rw [FramingState.synWords, FramingState.synWords, hwords]
              rfl
            · dsimp only
              rw [hwords]
              exact Nat.lt_succ_self _
            · refine ⟨?_, h.leftSyn, h.leftShort, fun _ => rfl, h.accounted, ?_, h.converted⟩
              · dsimp only
                rw [hword, hwords, streamOf_cons, words_of_ne_zero hzero]
                rfl
              · dsimp only
                rw [hwords]
                exact h.typeReads_concat fun _ => rfl

/-- Within a record, the reader has its first words, and the register the others. -/
theorem Framed.in_record (h : Framed s left unread) {typeWord : UINT32} {rest : List StreamWord}
    (hpc : s.pc.words = ⟨.type, typeWord, false⟩ :: rest) :
    ∃ r records, unread = r :: records ∧ r.type ≠ 0 ∧ typeWord = r.type ∧
      rest ++ s.fifo
        = ⟨.code, r.code, false⟩ :: ⟨.value, r.value, false⟩ :: streamOf records := by
  have hwords := h.words
  rw [h.within (by rw [hpc]; exact List.cons_ne_nil _ _), hpc, List.nil_append,
    List.cons_append] at hwords
  cases unread with
  | nil => cases hwords
  | cons r records =>
      rw [streamOf_cons] at hwords
      obtain ⟨htype, hrest⟩ := List.cons.inj hwords
      obtain ⟨-, hword, hsyn⟩ := StreamWord.mk.inj htype
      have hne : r.type ≠ 0 := beq_eq_false_iff_ne.mp hsyn.symm
      rw [← hsyn] at hrest
      exact ⟨r, records, rfl, hne, hword, hrest⟩

/-- A read within a record. -/
theorem Framed.read_code (h : Framed s left unread) {reader : Reader} {type : UINT32}
    (hpc : s.pc = .code reader type) (hstep : s.read = some s') :
    ReadsOn s s' ∧ ∃ left' unread', Framed s' left' unread' := by
  obtain ⟨r, records, rfl, hne, rfl, hfifo⟩ := h.in_record (by rw [hpc, ReaderPc.words])
  rw [List.nil_append] at hfifo
  obtain rfl := Option.some.inj ((UemuPkg.read_code hpc).symm.trans hstep)
  refine ⟨.inr ⟨(fun hidle => nomatch hidle), ?_, ?_⟩, left, r :: records, ?_⟩
  · rw [FramingState.synWords, FramingState.synWords, hfifo]
    rfl
  · dsimp only
    rw [hfifo]
    exact Nat.lt_succ_self _
  · have hleft : left = [] := h.within (by rw [hpc]; exact List.cons_ne_nil _ _)
    refine ⟨?_, h.leftSyn, h.leftShort, fun _ => hleft, h.accounted, h.typeReads, h.converted⟩
    dsimp only
    rw [hfifo, hleft, streamOf_cons, words_of_ne_zero hne]
    rfl

/-- The last read of a record. -/
theorem Framed.read_value (h : Framed s left unread) {reader : Reader} {type code : UINT32}
    (hpc : s.pc = .value reader type code) (hstep : s.read = some s') :
    ReadsOn s s' ∧ ∃ left' unread', Framed s' left' unread' := by
  obtain ⟨r, records, rfl, hne, rfl, hrest⟩ := h.in_record (by rw [hpc, ReaderPc.words])
  rw [List.singleton_append] at hrest
  obtain ⟨hcode, hfifo⟩ := List.cons.inj hrest
  obtain ⟨-, rfl, -⟩ := StreamWord.mk.inj hcode
  obtain ⟨dev, reader', byPoll, hread⟩ := UemuPkg.read_value hpc
  obtain rfl := Option.some.inj (hread.symm.trans hstep)
  have hword : wordAt s.fifo = r.value := by rw [hfifo]; rfl
  refine ⟨.inr ⟨(fun hidle => nomatch hidle), ?_, ?_⟩, [], records, ?_⟩
  · rw [FramingState.synWords, FramingState.synWords, hfifo]
    rfl
  · dsimp only
    rw [hfifo]
    exact Nat.lt_succ_self _
  · refine ⟨?_, fun _ hmem => absurd hmem List.not_mem_nil, Nat.zero_le 2, fun _ => rfl, ?_,
      h.typeReads, ?_⟩
    · dsimp only
      rw [hfifo]
      rfl
    · have haccounted := h.accounted
      rw [dataRecords_cons_of_ne_zero hne] at haccounted
      dsimp only
      rw [haccounted, hword, List.map_append, List.append_assoc]
      rfl
    · dsimp only
      rw [conversions_concat, h.converted]

/-- Every read keeps the framing, and goes on or ends its loop. -/
theorem Framed.read (h : Framed s left unread) (hstep : s.read = some s') :
    ReadsOn s s' ∧ ∃ left' unread', Framed s' left' unread' := by
  cases hpc : s.pc with
  | idle =>
      rw [FramingState.read, hpc] at hstep
      cases hstep
  | type reader => exact h.read_type hpc hstep
  | code reader type => exact h.read_code hpc hstep
  | value reader type code => exact h.read_value hpc hstep

theorem Framed.step (h : Framed s left unread) {action : FramingAction}
    (hstep : s.step action = some s') : ∃ left' unread', Framed s' left' unread' := by
  cases action with
  | arrive record => exact ⟨left, unread ++ [record], h.arrive hstep⟩
  | read => exact (h.read hstep).2
  | pollStart haveNotify =>
      rw [FramingState.step] at hstep
      split at hstep
      · rename_i hidle
        obtain rfl := Option.some.inj hstep
        have hwords := h.words
        rw [hidle] at hwords
        exact ⟨left, unread, hwords, h.leftSyn, h.leftShort, fun hne => absurd rfl hne,
          h.accounted, h.typeReads, h.converted⟩
      · cases hstep
  | resetStart =>
      rw [FramingState.step] at hstep
      split at hstep
      · rename_i hidle
        obtain rfl := Option.some.inj hstep
        have hwords := h.words
        rw [hidle] at hwords
        exact ⟨left, unread, hwords, h.leftSyn, h.leftShort, fun hne => absurd rfl hne,
          h.accounted, h.typeReads, h.converted⟩
      · cases hstep

-- ============================================================================
-- Polls after the last arrival
-- ============================================================================

/-- A whole call of `PollKeyboard` during which nothing arrives. -/
def PollRun (s : FramingState) (haveNotify : Bool) (s' : FramingState) : Prop :=
  ∃ n, run FramingState.step s (.pollStart haveNotify :: List.replicate n .read) = some s' ∧
    s'.pc = .idle

/-- Such calls one after the other, for each the value of its uninitialised local. -/
inductive PollRuns : FramingState → List Bool → FramingState → Prop where
  | nil (s : FramingState) : PollRuns s [] s
  | cons {s t s' : FramingState} {haveNotify : Bool} {rest : List Bool}
      (first : PollRun s haveNotify t) (others : PollRuns t rest s') :
      PollRuns s (haveNotify :: rest) s'

/-- An idle reader reads nothing. -/
theorem run_read_idle (hidle : s.pc = .idle) {n : Nat}
    (hrun : run FramingState.step s (List.replicate n .read) = some s') : n = 0 := by
  cases n with
  | zero => rfl
  | succ n =>
      obtain ⟨t, ht, -⟩ := Run.run_cons hrun
      rw [FramingState.step, FramingState.read, hidle] at ht
      cases ht

/-- Left to itself a loop ends in one way. -/
theorem run_read_unique {t t' : FramingState} {n m : Nat}
    (hn : run FramingState.step s (List.replicate n .read) = some t) (ht : t.pc = .idle)
    (hm : run FramingState.step s (List.replicate m .read) = some t') (ht' : t'.pc = .idle) :
    t = t' := by
  induction n generalizing s m with
  | zero =>
      obtain rfl := Option.some.inj hn
      obtain rfl := run_read_idle ht hm
      exact Option.some.inj hm
  | succ n ih =>
      cases m with
      | zero =>
          obtain rfl := Option.some.inj hm
          exact absurd (run_read_idle ht' hn) (Nat.succ_ne_zero n)
      | succ m =>
          obtain ⟨u, hu, hrest⟩ := Run.run_cons hn
          obtain ⟨u', hu', hrest'⟩ := Run.run_cons hm
          obtain rfl := Option.some.inj (hu.symm.trans hu')
          exact ih hrest hrest'

theorem wordAt_eq (fifo : List StreamWord) :
    wordAt fifo = (fifo.map StreamWord.word).headD 0 := by
  cases fifo with
  | nil => rfl
  | cons event rest => rfl

/-- The three reads of a record, and its handling. -/
theorem run_read_record {haveNotify : Bool} (hpc : s.pc = .type (.poll haveNotify))
    (hne : wordAt s.fifo ≠ 0) :
    ∃ t, run FramingState.step s [.read, .read, .read] = some t ∧
      t.dev = (pollRecord s.dev (wordAt s.fifo) (wordAt s.fifo.tail) (wordAt s.fifo.tail.tail)).1 ∧
      t.fifo = s.fifo.tail.tail.tail ∧ t.pending = s.pending ∧
      t.pc = .type (.poll (haveNotify ||
        (pollRecord s.dev (wordAt s.fifo) (wordAt s.fifo.tail) (wordAt s.fifo.tail.tail)).2)) := by
  simp only [run, FramingState.step, read_of_ne_zero hpc hne, Option.bind_some]
  exact ⟨_, rfl, rfl, rfl, rfl, rfl⟩

/-- The reads of a poll that nothing interrupts come to what `pollKeyboard` does. -/
theorem run_read_pollKeyboard {haveNotify : Bool} (hpc : s.pc = .type (.poll haveNotify)) :
    ∃ n s', run FramingState.step s (List.replicate n .read) = some s' ∧ s'.pc = .idle ∧
      s'.dev = (pollKeyboard s.dev haveNotify (s.fifo.map StreamWord.word)).dev ∧
      s'.fifo.map StreamWord.word
        = (pollKeyboard s.dev haveNotify (s.fifo.map StreamWord.word)).fifo ∧
      s'.pending
        = (s.pending || (pollKeyboard s.dev haveNotify (s.fifo.map StreamWord.word)).signalled) := by
  induction hlength : s.fifo.length using Nat.strongRecOn generalizing s haveNotify with
  | _ length ih =>
    by_cases hzero : wordAt s.fifo = 0
    · have hloop := pollLoop_of_zero s.dev haveNotify ((wordAt_eq s.fifo).symm.trans hzero)
      have hread : s.read = some { s with
          fifo := s.fifo.tail
          pc := .idle
          pending := s.pending || (haveNotify && !s.dev.notifyList.isEmpty)
          typeReads := s.typeReads ++ s.fifo.head?.toList } := by
        rw [FramingState.read, hpc]
        exact if_pos hzero
      refine ⟨1, _, (Run.run_singleton s FramingAction.read).trans hread, rfl, ?_⟩
      rw [pollKeyboard, hloop]
      exact ⟨rfl, List.map_tail, rfl⟩
    · have hloop := pollLoop_of_ne_zero s.dev haveNotify fun h =>
        hzero ((wordAt_eq s.fifo).trans h)
      obtain ⟨t, hrecord, hdev, hfifo, hpending, hnext⟩ := run_read_record hpc hzero
      have hshorter : t.fifo.length < length := by
        have hne : s.fifo ≠ [] := fun h => hzero (by rw [h]; rfl)
        have hpos := List.length_pos_iff.mpr hne
        rw [hfifo]
        simp only [List.length_tail]
        omega
      obtain ⟨n, s', hrest, hidle, hend⟩ := ih _ hshorter hnext rfl
      refine ⟨3 + n, s', ?_, hidle, ?_⟩
      · rw [← List.replicate_append_replicate]
        exact (Run.run_append hrecord).trans hrest
      · simp only [pollKeyboard, hloop, hdev, hfifo, hpending, wordAt_eq, List.map_tail] at hend ⊢
        exact hend

/-- A loop that nothing interrupts ends, at a word of an `EV_SYN` record or with the
    register empty. -/
theorem run_read_ends (h : Framed s left unread) (hbusy : s.pc ≠ .idle) :
    ∃ n s', run FramingState.step s (List.replicate n .read) = some s' ∧ s'.pc = .idle ∧
      (s'.fifo = [] ∨ s'.synWords + 1 = s.synWords) ∧ ∃ left' unread', Framed s' left' unread' := by
  induction hlength : s.fifo.length using Nat.strongRecOn generalizing s left unread with
  | _ length ih =>
      obtain ⟨t, ht⟩ : ∃ t, s.read = some t := by
        cases hpc : s.pc with
        | idle => exact absurd hpc hbusy
        | type reader =>
            by_cases hzero : wordAt s.fifo = 0
            · obtain ⟨pending, hread⟩ := read_of_zero hpc hzero
              exact ⟨_, hread⟩
            · exact ⟨_, read_of_ne_zero hpc hzero⟩
        | code reader type => exact ⟨_, read_code hpc⟩
        | value reader type code =>
            obtain ⟨dev, reader', byPoll, hread⟩ := read_value hpc
            exact ⟨_, hread⟩
      obtain ⟨hends | ⟨hbusy', hsame, hshorter⟩, left', unread', hframed⟩ := h.read ht
      · refine ⟨1, t, ?_, hends.1, hends.2, left', unread', hframed⟩
        exact (Run.run_singleton s FramingAction.read).trans ht
      · obtain ⟨n, s', hrun, hidle, hend, hframed'⟩ :=
          ih t.fifo.length (hlength ▸ hshorter) hframed hbusy' rfl
        refine ⟨n + 1, s', ?_, hidle, hsame ▸ hend, hframed'⟩
        rw [List.replicate_succ, run, FramingState.step, ht]
        exact hrun

/-- From an idle reader, a poll runs to its end in one way, and takes an `EV_SYN` word
    unless it empties the register. -/
theorem pollRun_exists (h : Framed s left unread) (hidle : s.pc = .idle) (haveNotify : Bool) :
    ∃ s', PollRun s haveNotify s' ∧ (s'.fifo = [] ∨ s'.synWords + 1 = s.synWords) ∧
      (∃ left' unread', Framed s' left' unread') ∧ ∀ t, PollRun s haveNotify t → t = s' := by
  have hstart : s.step (.pollStart haveNotify)
      = some { s with pc := .type (.poll haveNotify) } := by
    rw [FramingState.step, hidle]
  obtain ⟨left₁, unread₁, hframed⟩ := h.step hstart
  obtain ⟨n, s', hrun, hidle', hend, hframed'⟩ :=
    run_read_ends hframed (fun hpc => nomatch hpc)
  refine ⟨s', ⟨n, ?_, hidle'⟩, hend, hframed', ?_⟩
  · rw [run, hstart]
    exact hrun
  · rintro t ⟨m, hm, ht⟩
    obtain ⟨u, hu, hrest⟩ := Run.run_cons hm
    obtain rfl := Option.some.inj (hstart.symm.trans hu)
    exact run_read_unique hrest ht hrun hidle'

/-- A poll that nothing interrupts is a call of `pollKeyboard`. -/
theorem pollRun_eq {haveNotify : Bool} (h : PollRun s haveNotify s') :
    s'.dev = (pollKeyboard s.dev haveNotify (s.fifo.map StreamWord.word)).dev ∧
      s'.fifo.map StreamWord.word
        = (pollKeyboard s.dev haveNotify (s.fifo.map StreamWord.word)).fifo := by
  obtain ⟨m, hm, hidle⟩ := h
  obtain ⟨u, hu, hrest⟩ := Run.run_cons hm
  rw [FramingState.step] at hu
  split at hu
  · obtain rfl := Option.some.inj hu
    obtain ⟨n, t, hrun, hidle', hdev, hfifo, -⟩ :=
      run_read_pollKeyboard (s := { s with pc := .type (.poll haveNotify) }) rfl
    rw [run_read_unique hrest hidle hrun hidle']
    exact ⟨hdev, hfifo⟩
  · cases hu

/-- Enough polls empty the register. -/
theorem pollRuns_exists (h : Framed s left unread) (hidle : s.pc = .idle) (polls : List Bool)
    (hpolls : s.fifo = [] ∨ s.synWords < polls.length) :
    ∃ s', PollRuns s polls s' ∧ s'.fifo = [] ∧ ∀ t, PollRuns s polls t → t = s' := by
  induction polls generalizing s left unread with
  | nil =>
      refine ⟨s, .nil s, hpolls.resolve_right (Nat.not_lt_zero _), ?_⟩
      intro t ht
      cases ht
      rfl
  | cons haveNotify polls ih =>
      obtain ⟨u, hpoll, hend, ⟨left', unread', hframed⟩, hunique⟩ :=
        pollRun_exists h hidle haveNotify
      have henough : u.fifo = [] ∨ u.synWords < polls.length := by
        rcases hend with hempty | hone
        · exact .inl hempty
        · rcases hpolls with hempty | hlt
          · rw [FramingState.synWords, FramingState.synWords, hempty] at hone
            exact absurd hone (Nat.succ_ne_zero _)
          · rw [List.length_cons] at hlt
            exact .inr (by omega)
      have hidle' : u.pc = .idle := by
        obtain ⟨n, -, hidle'⟩ := hpoll
        exact hidle'
      obtain ⟨s', hothers, hempty, huniqueOthers⟩ := ih hframed hidle' henough
      refine ⟨s', .cons hpoll hothers, hempty, ?_⟩
      intro t ht
      cases ht with
      | cons first others =>
          obtain rfl := hunique _ first
          exact huniqueOthers t others

/-- The readers stay in step with the records, `EV_SYN` records included, wherever these
    arrive.  A word read in the type position is 0 or the first of a record.  The records
    other than `EV_SYN` that have arrived are those that were read, each once and in
    order, and those still to be read; `ConvertKeyCode` is called for the `EV_KEY`
    records among those that polls have read.  After the last arrival one poll for each
    word of an `EV_SYN` record, and one more, leave the register empty. -/
theorem records_framed (dev : GoldfishEventsDev) {actions : List FramingAction}
    {s : FramingState} (hrun : run FramingState.step (.initial dev) actions = some s) :
    (∀ event ∈ s.typeReads, event.word ≠ 0 → event.field = .type) ∧
      s.converted = conversions s.taken ∧
      (∃ left unread, s.pc.words ++ s.fifo = left ++ streamOf unread ∧
        (∀ event ∈ left, event.word = 0 ∧ event.field ≠ .type ∧ event.syn = true) ∧
        left.length ≤ 2 ∧
        (dataRecords s.arrived).map StreamRecord.data
          = s.taken.map TakenRecord.data ++ (dataRecords unread).map StreamRecord.data) ∧
      (s.pc = .idle → ∀ polls : List Bool, polls.length = s.synWords + 1 →
        ∃ s', PollRuns s polls s' ∧ s'.fifo = [] ∧ ∀ t, PollRuns s polls t → t = s') := by
  obtain ⟨left, unread, h⟩ : ∃ left unread, Framed s left unread := by
    apply Run.run_invariant (fun t => ∃ left unread, Framed t left unread) ?_ hrun
      ⟨[], [], framed_initial dev⟩
    rintro t action t' ⟨left, unread, ht⟩ hstep
    exact ht.step hstep
  refine ⟨h.typeReads, h.converted,
    ⟨left, unread, h.words, h.leftSyn, h.leftShort, h.accounted⟩, ?_⟩
  intro hidle polls hpolls
  exact pollRuns_exists h hidle polls (.inr (by omega))

/-- The press of a key. -/
def keyRecord : StreamRecord := ⟨EV_KEY, 30, 1, fun h => absurd h (by decide)⟩

/-- `EV_SYN` -/
def synRecord : StreamRecord := ⟨0, 0, 0, fun _ => ⟨rfl, rfl⟩⟩

/-- An `EV_SYN` record arrives between the reads of a key, and a key behind it.  The
    poll reads the first key and one word of the `EV_SYN` record. -/
theorem records_framed_syn :
    ∃ s, run FramingState.step (.initial idleDev)
        [.arrive keyRecord, .pollStart false, .read, .arrive synRecord, .arrive keyRecord,
          .read, .read, .read] = some s ∧
      s.pc = .idle ∧ s.synWords = 2 ∧ s.converted = conversions s.taken ∧
      s.converted = [(30, 1)] := by
  have hrun : run FramingState.step (.initial idleDev)
      [.arrive keyRecord, .pollStart false, .read, .arrive synRecord, .arrive keyRecord,
        .read, .read, .read] = some _ := rfl
  exact ⟨_, hrun, rfl, rfl, (records_framed idleDev hrun).2.1, rfl⟩

end UemuPkg
