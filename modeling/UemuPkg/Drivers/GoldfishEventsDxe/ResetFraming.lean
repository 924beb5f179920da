/-
  UemuPkg.Drivers.GoldfishEventsDxe.ResetFraming

  `PollKeyboard` and `GoldfishEventsReset` as two readers of the event register, one
  register read at a time.  Both take records of three words and keep no place in
  the queue but their own: a poll that starts inside a record of `Reset` reads the
  wrong word as the type.  It is the only way to get out of step.
-/

import UemuPkg.Drivers.GoldfishEventsDxe.Model
import UemuPkg.Generic.Run

namespace UemuPkg

open Run (run AllSteps)

-- ============================================================================
-- The event register
-- ============================================================================

inductive EventField where
  | type | code | value
  deriving DecidableEq, Repr

/-- A word of a record. -/
structure EventWord where
  field : EventField
  word : UINT32
  deriving DecidableEq, Repr

structure EventRecord where
  type : UINT32
  code : UINT32
  value : UINT32
  /-- A type of 0 stands for the empty queue. -/
  type_ne_zero : type ≠ 0

def EventRecord.words (r : EventRecord) : List EventWord :=
  [⟨.type, r.type⟩, ⟨.code, r.code⟩, ⟨.value, r.value⟩]

/-- The words of a list of records. -/
def queueOf (records : List EventRecord) : List EventWord :=
  records.flatMap EventRecord.words

/-- What a read of `REG_READ` returns. -/
def registerValue : Option EventWord → UINT32
  | none => 0
  | some event => event.word

-- ============================================================================
-- The readers
-- ============================================================================

/-- The next register read of `PollKeyboard`, with its locals. -/
inductive PollPc where
  | idle
  | type (haveNotify : Bool)
  | code (haveNotify : Bool) (type : UINT32)
  | value (haveNotify : Bool) (type code : UINT32)
  deriving DecidableEq, Repr

/-- The next register read of `GoldfishEventsReset`. -/
inductive ResetPc where
  | idle | type | code | value
  deriving DecidableEq, Repr

structure ReaderState where
  dev : GoldfishEventsDev
  fifo : List EventWord
  pollPc : PollPc
  resetPc : ResetPc
  /-- `KeyNotifyProcessEvent` is signalled. -/
  pending : Bool
  /-- What was read in the type position: a word, or the empty queue. -/
  typeReads : List (Option EventWord)

inductive ReaderAction where
  | arrive (record : EventRecord)
  /-- The timer calls `PollKeyboard`. -/
  | pollStart (haveNotify : Bool)
  | pollRead
  /-- A call of `GoldfishEventsReset`, up to its first read. -/
  | resetStart
  | resetRead

/-- `PollKeyboard` from one register read to the next. -/
def ReaderState.pollRead (s : ReaderState) : Option ReaderState :=
  let word := registerValue s.fifo.head?
  let rest := { s with fifo := s.fifo.tail }
  match s.pollPc with
  | .idle => none
  | .type haveNotify =>
    let rest := { rest with typeReads := s.typeReads ++ [s.fifo.head?] }
    if word = 0 then
      some { rest with
        pollPc := .idle
        pending := s.pending || (haveNotify && !s.dev.notifyList.isEmpty) }
    else
      some { rest with pollPc := .code haveNotify word }
  | .code haveNotify type => some { rest with pollPc := .value haveNotify type word }
  | .value haveNotify type code =>
    let polled := pollRecord s.dev type code word
    some { rest with dev := polled.1, pollPc := .type (haveNotify || polled.2) }

/-- The fields that `GoldfishEventsReset` clears before it drains the queue. -/
def GoldfishEventsDev.clearKeys (dev : GoldfishEventsDev) : GoldfishEventsDev :=
  { dev with
    keyReady := false
    keyShift := false
    keyCtrl := false
    keyAlt := false
    notifyKeyReady := false
    key := .null
    notifyKeyData := ⟨.null, ⟨0, 0⟩⟩ }

/-- `GoldfishEventsReset` from one register read to the next. -/
def ReaderState.resetRead (s : ReaderState) : Option ReaderState :=
  let word := registerValue s.fifo.head?
  let rest := { s with fifo := s.fifo.tail }
  match s.resetPc with
  | .idle => none
  | .type =>
    some { rest with
      typeReads := s.typeReads ++ [s.fifo.head?]
      resetPc := if word = 0 then .idle else .code }
  | .code => some { rest with resetPc := .value }
  | .value => some { rest with resetPc := .type }

/-- A poll runs at `TPL_NOTIFY` and may start between any two steps of `Reset`, which
    goes on when the poll has ended. -/
def ReaderState.step (s : ReaderState) : ReaderAction → Option ReaderState
  | .arrive record => some { s with fifo := s.fifo ++ record.words }
  | .pollStart haveNotify =>
    if s.pollPc = .idle then some { s with pollPc := .type haveNotify } else none
  | .pollRead => s.pollRead
  | .resetStart =>
    if s.pollPc = .idle ∧ s.resetPc = .idle then
      some { s with dev := s.dev.clearKeys, resetPc := .type }
    else
      none
  | .resetRead => if s.pollPc = .idle then s.resetRead else none

/-- Neither reader is at work on a queue of records. -/
def ReaderState.initial (dev : GoldfishEventsDev) (records : List EventRecord) : ReaderState where
  dev
  fifo := queueOf records
  pollPc := .idle
  resetPc := .idle
  pending := false
  typeReads := []

-- ============================================================================
-- Polls
-- ============================================================================

theorem registerValue_head (fifo : List EventWord) :
    registerValue fifo.head? = (fifo.map EventWord.word).headD 0 := by
  cases fifo with
  | nil => rfl
  | cons event rest => rfl

theorem pollLoop_of_zero (dev : GoldfishEventsDev) (haveNotify : Bool) {words : List UINT32}
    (h : words.headD 0 = 0) : pollLoop dev haveNotify words = (dev, haveNotify, words.tail) := by
  match words with
  | [] => rfl
  | [type] => exact if_pos h
  | [type, code] => exact if_pos h
  | type :: code :: value :: rest =>
      rw [pollLoop]
      exact if_pos h

/-- One iteration, on a record whose missing words read as 0. -/
theorem pollLoop_of_ne_zero (dev : GoldfishEventsDev) (haveNotify : Bool) {words : List UINT32}
    (h : words.headD 0 ≠ 0) :
    pollLoop dev haveNotify words
      = pollLoop
          (pollRecord dev (words.headD 0) (words.tail.headD 0) (words.tail.tail.headD 0)).1
          (haveNotify
            || (pollRecord dev (words.headD 0) (words.tail.headD 0) (words.tail.tail.headD 0)).2)
          words.tail.tail.tail := by
  match words with
  | [] => exact absurd rfl h
  | [type] => exact if_neg h
  | [type, code] => exact if_neg h
  | type :: code :: value :: rest =>
      rw [pollLoop]
      exact if_neg h

/-- A read of 0 in the type position ends the poll. -/
theorem pollRead_of_zero {s : ReaderState} {haveNotify : Bool} (hpc : s.pollPc = .type haveNotify)
    (hzero : registerValue s.fifo.head? = 0) :
    s.pollRead = some { s with
      fifo := s.fifo.tail
      pollPc := .idle
      pending := s.pending || (haveNotify && !s.dev.notifyList.isEmpty)
      typeReads := s.typeReads ++ [s.fifo.head?] } := by
  rw [ReaderState.pollRead, hpc]
  exact if_pos hzero

/-- Any other type is followed by two more reads and the handling of the record. -/
theorem run_pollRead_record {s : ReaderState} {haveNotify : Bool}
    (hpc : s.pollPc = .type haveNotify) (hne : registerValue s.fifo.head? ≠ 0) :
    run ReaderState.step s [.pollRead, .pollRead, .pollRead] = some
      (let polled := pollRecord s.dev (registerValue s.fifo.head?)
        (registerValue s.fifo.tail.head?) (registerValue s.fifo.tail.tail.head?)
      { s with
        dev := polled.1
        fifo := s.fifo.tail.tail.tail
        pollPc := .type (haveNotify || polled.2)
        typeReads := s.typeReads ++ [s.fifo.head?] }) := by
  have hread : s.pollRead = some { s with
      fifo := s.fifo.tail
      pollPc := .code haveNotify (registerValue s.fifo.head?)
      typeReads := s.typeReads ++ [s.fifo.head?] } := by
    rw [ReaderState.pollRead, hpc]
    exact if_neg hne
  rw [run, ReaderState.step, hread]
  rfl

/-- Left to itself, a poll ends as `pollKeyboard` does. -/
theorem run_pollRead {s : ReaderState} {haveNotify : Bool} (hpc : s.pollPc = .type haveNotify) :
    ∃ n s', run ReaderState.step s (List.replicate n .pollRead) = some s' ∧
      s'.pollPc = .idle ∧ s'.resetPc = s.resetPc ∧
      s'.dev = (pollKeyboard s.dev haveNotify (s.fifo.map EventWord.word)).dev ∧
      s'.fifo.map EventWord.word = (pollKeyboard s.dev haveNotify (s.fifo.map EventWord.word)).fifo ∧
      s'.pending
        = (s.pending || (pollKeyboard s.dev haveNotify (s.fifo.map EventWord.word)).signalled) := by
  induction hlength : s.fifo.length using Nat.strongRecOn generalizing s haveNotify with
  | _ length ih =>
    by_cases hzero : registerValue s.fifo.head? = 0
    · have hloop := pollLoop_of_zero s.dev haveNotify ((registerValue_head s.fifo).symm.trans hzero)
      have hrun : run ReaderState.step s (List.replicate 1 .pollRead) = s.pollRead :=
        Run.run_singleton s ReaderAction.pollRead
      refine ⟨1, _, hrun.trans (pollRead_of_zero hpc hzero), rfl, rfl, ?_⟩
      rw [pollKeyboard, hloop]
      exact ⟨rfl, List.map_tail, rfl⟩
    · have hloop := pollLoop_of_ne_zero s.dev haveNotify fun h =>
        hzero ((registerValue_head s.fifo).trans h)
      have hrecord := run_pollRead_record hpc hzero
      have hshorter : s.fifo.tail.tail.tail.length < length := by
        have hne : s.fifo ≠ [] := fun h => hzero (by rw [h]; rfl)
        have hpos := List.length_pos_iff.mpr hne
        simp only [List.length_tail]
        omega
      obtain ⟨n, s', hrest, hpoll, hreset, hend⟩ := ih _ hshorter
        (s := { s with
          dev := (pollRecord s.dev (registerValue s.fifo.head?)
            (registerValue s.fifo.tail.head?) (registerValue s.fifo.tail.tail.head?)).1
          fifo := s.fifo.tail.tail.tail
          pollPc := .type (haveNotify || (pollRecord s.dev (registerValue s.fifo.head?)
            (registerValue s.fifo.tail.head?) (registerValue s.fifo.tail.tail.head?)).2)
          typeReads := s.typeReads ++ [s.fifo.head?] }) rfl rfl
      refine ⟨3 + n, s', ?_, hpoll, hreset, ?_⟩
      · rw [← List.replicate_append_replicate]
        exact (Run.run_append hrecord).trans hrest
      · simp only [pollKeyboard, hloop, registerValue_head, List.map_tail] at hend ⊢
        exact hend

-- ============================================================================
-- Alignment
-- ============================================================================

/-- What a reader still has to read of its record. -/
def PollPc.awaits : PollPc → List EventField
  | .idle => []
  | .type _ => []
  | .code _ _ => [.code, .value]
  | .value _ _ _ => [.value]

def ResetPc.awaits : ResetPc → List EventField
  | .idle => []
  | .type => []
  | .code => [.code, .value]
  | .value => [.value]

theorem ResetPc.type_not_mem_awaits (pc : ResetPc) : .type ∉ pc.awaits := by
  cases pc <;> decide

/-- A read of a poll is one in the type position or takes the next of what it awaits. -/
theorem pollRead_cases {s s' : ReaderState} (hstep : s.pollRead = some s') :
    (∃ haveNotify, s.pollPc = .type haveNotify ∧ s'.fifo = s.fifo.tail ∧
      s'.resetPc = s.resetPc ∧ s'.typeReads = s.typeReads ++ [s.fifo.head?] ∧
      s'.pollPc.awaits = if registerValue s.fifo.head? = 0 then [] else [.code, .value]) ∨
    (∃ field, s.pollPc.awaits = field :: s'.pollPc.awaits ∧ s'.fifo = s.fifo.tail ∧
      s'.resetPc = s.resetPc ∧ s'.typeReads = s.typeReads) := by
  rw [ReaderState.pollRead] at hstep
  cases hpc : s.pollPc with
  | idle =>
      rw [hpc] at hstep
      cases hstep
  | type haveNotify =>
      rw [hpc] at hstep
      dsimp only at hstep
      split at hstep
      · rename_i hzero
        obtain rfl := Option.some.inj hstep
        exact .inl ⟨haveNotify, rfl, rfl, rfl, rfl, (if_pos hzero).symm⟩
      · rename_i hne
        obtain rfl := Option.some.inj hstep
        exact .inl ⟨haveNotify, rfl, rfl, rfl, rfl, (if_neg hne).symm⟩
  | code haveNotify type =>
      rw [hpc] at hstep
      obtain rfl := Option.some.inj hstep
      exact .inr ⟨.code, rfl, rfl, rfl, rfl⟩
  | value haveNotify type code =>
      rw [hpc] at hstep
      obtain rfl := Option.some.inj hstep
      exact .inr ⟨.value, rfl, rfl, rfl, rfl⟩

/-- So is one of `Reset`. -/
theorem resetRead_cases {s s' : ReaderState} (hstep : s.resetRead = some s') :
    (s.resetPc = .type ∧ s'.fifo = s.fifo.tail ∧
      s'.pollPc = s.pollPc ∧ s'.typeReads = s.typeReads ++ [s.fifo.head?] ∧
      s'.resetPc.awaits = if registerValue s.fifo.head? = 0 then [] else [.code, .value]) ∨
    (∃ field, s.resetPc.awaits = field :: s'.resetPc.awaits ∧ s'.fifo = s.fifo.tail ∧
      s'.pollPc = s.pollPc ∧ s'.typeReads = s.typeReads) := by
  rw [ReaderState.resetRead] at hstep
  cases hpc : s.resetPc with
  | idle =>
      rw [hpc] at hstep
      cases hstep
  | type =>
      rw [hpc] at hstep
      obtain rfl := Option.some.inj hstep
      refine .inl ⟨rfl, rfl, rfl, rfl, ?_⟩
      dsimp only
      split
      · rfl
      · rfl
  | code =>
      rw [hpc] at hstep
      obtain rfl := Option.some.inj hstep
      exact .inr ⟨.code, rfl, rfl, rfl, rfl⟩
  | value =>
      rw [hpc] at hstep
      obtain rfl := Option.some.inj hstep
      exact .inr ⟨.value, rfl, rfl, rfl, rfl⟩

/-- A word other than a type is among those read in the type position. -/
def Misread (typeReads : List (Option EventWord)) : Prop :=
  ∃ event, some event ∈ typeReads ∧ event.field ≠ .type

/-- The readers are in step with the queue: what is left of a record is what its one
    reader awaits. -/
structure Aligned (s : ReaderState) : Prop where
  queue : ∃ rest records, s.fifo = rest ++ queueOf records ∧
    rest.map EventWord.field = s.pollPc.awaits ++ s.resetPc.awaits
  oneReader : s.pollPc.awaits = [] ∨ s.resetPc.awaits = []
  typeReads : ¬ Misread s.typeReads

/-- A poll reads a type only where `Reset` is not between the reads of a record. -/
def PollsBetweenRecords (s : ReaderState) : ReaderAction → Prop
  | .pollRead => ∀ haveNotify, s.pollPc = .type haveNotify → s.resetPc.awaits = []
  | _ => True

theorem aligned_initial (dev : GoldfishEventsDev) (records : List EventRecord) :
    Aligned (.initial dev records) where
  queue := ⟨[], records, rfl, rfl⟩
  oneReader := .inl rfl
  typeReads := by
    rintro ⟨event, hmem, -⟩
    cases hmem

theorem misread_append (typeReads : List (Option EventWord)) (read : Option EventWord) :
    Misread (typeReads ++ [read]) ↔
      Misread typeReads ∨ ∃ event, read = some event ∧ event.field ≠ .type := by
  rw [Misread, Misread, ← exists_or]
  apply exists_congr
  intro event
  rw [List.mem_append, List.mem_singleton, or_and_right, @eq_comm _ read]

/-- At the end of a record, the register holds the type of the next one or nothing. -/
theorem read_type (records : List EventRecord) :
    (¬ ∃ event, (queueOf records).head? = some event ∧ event.field ≠ .type) ∧
      ∃ rest records', (queueOf records).tail = rest ++ queueOf records' ∧
        rest.map EventWord.field
          = if registerValue (queueOf records).head? = 0 then [] else [.code, .value] := by
  cases records with
  | nil =>
      refine ⟨?_, [], [], rfl, rfl⟩
      rintro ⟨event, hhead, -⟩
      cases hhead
  | cons r rest =>
      refine ⟨?_, [⟨.code, r.code⟩, ⟨.value, r.value⟩], rest, rfl, (if_neg r.type_ne_zero).symm⟩
      rintro ⟨event, hhead, hfield⟩
      obtain rfl := Option.some.inj hhead
      exact hfield rfl

/-- Within a record, it holds the field that the reader of the record awaits. -/
theorem read_rest {rest : List EventWord} (fifo : List EventWord) {field : EventField}
    {fields : List EventField} (h : rest.map EventWord.field = field :: fields) :
    (∃ event, (rest ++ fifo).head? = some event ∧ event.field = field) ∧
      ∃ rest', (rest ++ fifo).tail = rest' ++ fifo ∧ rest'.map EventWord.field = fields := by
  cases rest with
  | nil => cases h
  | cons event rest' =>
      obtain ⟨hfield, hfields⟩ := List.cons.inj h
      exact ⟨⟨event, rfl, hfield⟩, rest', rfl, hfields⟩

/-- A new record comes after all others. -/
theorem Aligned.arrive {s s' : ReaderState} (h : Aligned s) {record : EventRecord}
    (hstep : s.step (.arrive record) = some s') : Aligned s' := by
  obtain rfl := Option.some.inj hstep
  obtain ⟨rest, records, hfifo, hrest⟩ := h.queue
  refine ⟨⟨rest, records ++ [record], ?_, hrest⟩, h.oneReader, h.typeReads⟩
  have hwords : queueOf (records ++ [record]) = queueOf records ++ record.words := by
    rw [queueOf, List.flatMap_append]
    exact congrArg _ (List.append_nil _)
  rw [hwords, ← List.append_assoc, ← hfifo]

/-- Between records, the register holds whole records. -/
theorem Aligned.between {s : ReaderState} (h : Aligned s)
    (hpoll : s.pollPc.awaits = []) (hreset : s.resetPc.awaits = []) :
    ∃ records, s.fifo = queueOf records := by
  obtain ⟨rest, records, hfifo, hrest⟩ := h.queue
  rw [hpoll, hreset] at hrest
  obtain rfl := List.map_eq_nil_iff.mp hrest
  exact ⟨records, hfifo⟩

/-- A read between records is a type read in step. -/
theorem Aligned.readType {s : ReaderState} (h : Aligned s)
    (hpoll : s.pollPc.awaits = []) (hreset : s.resetPc.awaits = []) :
    ¬ Misread (s.typeReads ++ [s.fifo.head?]) ∧
      ∃ rest records, s.fifo.tail = rest ++ queueOf records ∧
        rest.map EventWord.field
          = if registerValue s.fifo.head? = 0 then [] else [.code, .value] := by
  obtain ⟨records, hfifo⟩ := h.between hpoll hreset
  obtain ⟨hhead, htail⟩ := read_type records
  rw [← hfifo] at hhead htail
  exact ⟨mt (misread_append _ _).mp (not_or_intro h.typeReads hhead), htail⟩

/-- A read within a record takes the next word of the record. -/
theorem Aligned.readRest {s : ReaderState} (h : Aligned s) (field : EventField)
    (fields : List EventField) (hawaits : s.pollPc.awaits ++ s.resetPc.awaits = field :: fields) :
    (∃ event, s.fifo.head? = some event ∧ event.field = field) ∧
      ∃ rest records, s.fifo.tail = rest ++ queueOf records ∧
        rest.map EventWord.field = fields := by
  obtain ⟨rest, records, hfifo, hrest⟩ := h.queue
  rw [hawaits] at hrest
  obtain ⟨hhead, rest', htail, hrest'⟩ := read_rest (queueOf records) hrest
  rw [← hfifo] at hhead htail
  exact ⟨hhead, rest', records, htail, hrest'⟩

theorem Aligned.pollRead {s s' : ReaderState} (h : Aligned s)
    (hbetween : PollsBetweenRecords s .pollRead) (hstep : s.pollRead = some s') : Aligned s' := by
  rcases pollRead_cases hstep with
    ⟨haveNotify, hpc, hfifo, hresetPc, hreads, hnext⟩ | ⟨field, hawaits, hfifo, hresetPc, hreads⟩
  · have hpoll : s.pollPc.awaits = [] := by
      rw [hpc]
      rfl
    have hreset := hbetween haveNotify hpc
    obtain ⟨haligned, rest, records, htail, hrest⟩ := h.readType hpoll hreset
    refine ⟨⟨rest, records, hfifo.trans htail, ?_⟩, .inr ?_, ?_⟩
    · rw [hrest, hnext, hresetPc, hreset, List.append_nil]
    · rw [hresetPc, hreset]
    · rwa [hreads]
  · have hreset : s.resetPc.awaits = [] := by
      apply h.oneReader.resolve_left
      rw [hawaits]
      exact List.cons_ne_nil _ _
    obtain ⟨-, rest, records, htail, hrest⟩ :=
      h.readRest field s'.pollPc.awaits (by rw [hawaits, hreset, List.append_nil])
    refine ⟨⟨rest, records, hfifo.trans htail, ?_⟩, .inr ?_, ?_⟩
    · rw [hrest, hresetPc, hreset, List.append_nil]
    · rw [hresetPc, hreset]
    · rw [hreads]
      exact h.typeReads

theorem Aligned.resetRead {s s' : ReaderState} (h : Aligned s) (hidle : s.pollPc = .idle)
    (hstep : s.resetRead = some s') : Aligned s' := by
  have hpoll : s.pollPc.awaits = [] := by
    rw [hidle]
    rfl
  rcases resetRead_cases hstep with
    ⟨hpc, hfifo, hpollPc, hreads, hnext⟩ | ⟨field, hawaits, hfifo, hpollPc, hreads⟩
  · have hreset : s.resetPc.awaits = [] := by
      rw [hpc]
      rfl
    obtain ⟨haligned, rest, records, htail, hrest⟩ := h.readType hpoll hreset
    refine ⟨⟨rest, records, hfifo.trans htail, ?_⟩, .inl ?_, ?_⟩
    · rw [hrest, hnext, hpollPc, hpoll, List.nil_append]
    · rw [hpollPc, hpoll]
    · rwa [hreads]
  · obtain ⟨-, rest, records, htail, hrest⟩ :=
      h.readRest field s'.resetPc.awaits (by rw [hawaits, hpoll, List.nil_append])
    refine ⟨⟨rest, records, hfifo.trans htail, ?_⟩, .inl ?_, ?_⟩
    · rw [hrest, hpollPc, hpoll, List.nil_append]
    · rw [hpollPc, hpoll]
    · rw [hreads]
      exact h.typeReads

theorem Aligned.step {s s' : ReaderState} (h : Aligned s) {action : ReaderAction}
    (hbetween : PollsBetweenRecords s action) (hstep : s.step action = some s') : Aligned s' := by
  cases action with
  | arrive record => exact h.arrive hstep
  | pollStart haveNotify =>
      rw [ReaderState.step] at hstep
      split at hstep
      · rename_i hidle
        obtain rfl := Option.some.inj hstep
        have hpoll : s.pollPc.awaits = [] := by
          rw [hidle]
          rfl
        obtain ⟨rest, records, hfifo, hrest⟩ := h.queue
        rw [hpoll] at hrest
        exact ⟨⟨rest, records, hfifo, hrest⟩, .inl rfl, h.typeReads⟩
      · cases hstep
  | pollRead => exact h.pollRead hbetween hstep
  | resetStart =>
      rw [ReaderState.step] at hstep
      split at hstep
      · rename_i hidle
        obtain rfl := Option.some.inj hstep
        have hreset : s.resetPc.awaits = [] := by
          rw [hidle.2]
          rfl
        obtain ⟨rest, records, hfifo, hrest⟩ := h.queue
        rw [hreset] at hrest
        exact ⟨⟨rest, records, hfifo, hrest⟩, .inr rfl, h.typeReads⟩
      · cases hstep
  | resetRead =>
      rw [ReaderState.step] at hstep
      split at hstep
      · rename_i hidle
        exact h.resetRead hidle hstep
      · cases hstep

/-- A poll that reads a type within a record of `Reset` reads the code or the value. -/
theorem Aligned.misread {s s' : ReaderState} (h : Aligned s) {action : ReaderAction}
    (hwithin : ¬ PollsBetweenRecords s action) (hstep : s.step action = some s') :
    Misread s'.typeReads := by
  cases action with
  | arrive record => exact absurd trivial hwithin
  | pollStart haveNotify => exact absurd trivial hwithin
  | resetStart => exact absurd trivial hwithin
  | resetRead => exact absurd trivial hwithin
  | pollRead =>
      obtain ⟨haveNotify, hnot⟩ := Classical.not_forall.mp hwithin
      obtain ⟨hpc, hreset⟩ := Classical.not_imp.mp hnot
      obtain ⟨field, fields, hawaits⟩ := List.exists_cons_of_ne_nil hreset
      have hne : field ≠ .type := by
        rintro rfl
        apply ResetPc.type_not_mem_awaits s.resetPc
        rw [hawaits]
        exact List.mem_cons_self
      have hhead : ∃ event, s.fifo.head? = some event ∧ event.field ≠ .type := by
        obtain ⟨⟨event, hhead, hfield⟩, -⟩ :=
          h.readRest field fields (by rw [hpc, hawaits]; rfl)
        exact ⟨event, hhead, hfield ▸ hne⟩
      have hmisread := (misread_append s.typeReads s.fifo.head?).mpr (.inr hhead)
      rcases pollRead_cases hstep with ⟨-, -, -, -, hreads, -⟩ | ⟨_, hpollAwaits, -⟩
      · rwa [hreads]
      · rw [hpc] at hpollAwaits
        cases hpollAwaits

/-- A step adds to the type reads at most the word it reads. -/
theorem typeReads_step {s s' : ReaderState} {action : ReaderAction}
    (hstep : s.step action = some s') :
    s'.typeReads = s.typeReads ∨ s'.typeReads = s.typeReads ++ [s.fifo.head?] := by
  cases action with
  | arrive record =>
      obtain rfl := Option.some.inj hstep
      exact .inl rfl
  | pollStart haveNotify =>
      rw [ReaderState.step] at hstep
      split at hstep
      · obtain rfl := Option.some.inj hstep
        exact .inl rfl
      · cases hstep
  | resetStart =>
      rw [ReaderState.step] at hstep
      split at hstep
      · obtain rfl := Option.some.inj hstep
        exact .inl rfl
      · cases hstep
  | pollRead =>
      rcases pollRead_cases hstep with ⟨-, -, -, -, hreads, -⟩ | ⟨-, -, -, -, hreads⟩
      · exact .inr hreads
      · exact .inl hreads
  | resetRead =>
      rw [ReaderState.step] at hstep
      split at hstep
      · rcases resetRead_cases hstep with ⟨-, -, -, hreads, -⟩ | ⟨-, -, -, -, hreads⟩
        · exact .inr hreads
        · exact .inl hreads
      · cases hstep

/-- What was misread stays so. -/
theorem misread_step {s s' : ReaderState} {action : ReaderAction}
    (h : Misread s.typeReads) (hstep : s.step action = some s') : Misread s'.typeReads := by
  rcases typeReads_step hstep with hreads | hreads
  · rwa [hreads]
  · rw [hreads, misread_append]
    exact .inl h

/-- Every word read in the type position is the first of a record exactly if no poll
    reads a type while `Reset` is within a record. -/
theorem typeReads_aligned_iff (dev : GoldfishEventsDev) (records : List EventRecord)
    {actions : List ReaderAction} {s : ReaderState}
    (hrun : run ReaderState.step (.initial dev records) actions = some s) :
    (∀ event, some event ∈ s.typeReads → event.field = .type) ↔
      AllSteps ReaderState.step PollsBetweenRecords (.initial dev records) actions := by
  rw [← Run.not_bad_iff_allSteps Aligned (fun t => Misread t.typeReads) ?_ ?_ ?_ ?_ hrun
    (aligned_initial dev records)]
  · rw [Misread]
    refine ⟨?_, ?_⟩
    · rintro haligned ⟨event, hmem, hne⟩
      exact hne (haligned event hmem)
    · intro hnot event hmem
      exact Decidable.of_not_not fun hne => hnot ⟨event, hmem, hne⟩
  · intro t action t' ht hbetween hstep
    exact ht.step hbetween hstep
  · intro t action t' ht hwithin hstep
    exact ht.misread hwithin hstep
  · intro t action t' ht hstep
    exact misread_step ht hstep
  · intro t ht
    exact ht.typeReads

/-- The press of a key. -/
def pressRecord : EventRecord := ⟨EV_KEY, 30, 1, by decide⟩

def idleDev : GoldfishEventsDev where
  keyShift := false
  keyCtrl := false
  keyAlt := false
  key := .null
  keyReady := false
  notifyKeyReady := false
  notifyKeyData := ⟨.null, ⟨0, 0⟩⟩
  notifyList := []

/-- A poll between the last read of `Reset` in a record and its next one keeps the
    readers aligned. -/
theorem typeReads_aligned_iff_poll_between :
    ∃ s, run ReaderState.step (.initial idleDev [pressRecord])
        [.resetStart, .resetRead, .resetRead, .resetRead, .pollStart false, .pollRead,
          .resetRead] = some s ∧
      ((∀ event, some event ∈ s.typeReads → event.field = .type) ↔
        AllSteps ReaderState.step PollsBetweenRecords (.initial idleDev [pressRecord])
          [.resetStart, .resetRead, .resetRead, .resetRead, .pollStart false, .pollRead,
            .resetRead]) :=
  ⟨_, rfl, typeReads_aligned_iff idleDev [pressRecord] rfl⟩

/-- A poll after the first read of `Reset` takes the key code for a type. -/
theorem poll_reads_code_as_type :
    ∃ s, run ReaderState.step (.initial idleDev [pressRecord])
        [.resetStart, .resetRead, .pollStart false, .pollRead] = some s ∧
      some ⟨.code, 30⟩ ∈ s.typeReads ∧ s.pollPc = .code false 30 :=
  ⟨_, rfl, by decide, rfl⟩

end UemuPkg
