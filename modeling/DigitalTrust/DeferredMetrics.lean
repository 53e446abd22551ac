/-
# Measurements held for a transaction

`business-metrics.service.ts` and the subscriber that drives it.  TypeORM runs a nested transaction
as a savepoint on the same query runner, and broadcasts the same events for it.  The service keeps
one flat queue of records, and a stack with the offset at which each open level began.
-/
import DigitalTrust.NestedScopes

namespace DigitalTrust.DeferredMetrics

open NestedScopes

/-! ## Measurements -/

/-- The outcomes of an operation that is counted. -/
inductive OperationOutcome where
  | completed
  | failed
  deriving DecidableEq

/-- A record that waits for its transaction. -/
structure DeferredCredentialOperation where
  operationType : String
  outcome : OperationOutcome
  deriving DecidableEq

/-- The attributes under which `credential.operations` is incremented by one. -/
structure Measurement where
  operationType : String
  operationOutcome : OperationOutcome
  deriving DecidableEq

def unclassifiedLabel : String := "unclassified"

/-- `[A-Za-z]` -/
def isLetter (c : Char) : Bool := ('A' ≤ c ∧ c ≤ 'Z') ∨ ('a' ≤ c ∧ c ≤ 'z')

/-- `[0-9]` -/
def isDigit (c : Char) : Bool := '0' ≤ c ∧ c ≤ '9'

/-- `[0-9a-f]`, in either case. -/
def isHexDigit (c : Char) : Bool := isDigit c ∨ ('a' ≤ c ∧ c ≤ 'f') ∨ ('A' ≤ c ∧ c ≤ 'F')

/-- `UUID_PATTERN` : hexadecimal digits in groups of 8, 4, 4, 4 and 12, with hyphens between. -/
def isUuidShaped (value : String) : Bool :=
  value.toList.length = 36 ∧
    value.toList.zipIdx.all fun c =>
      if c.2 ∈ [8, 13, 18, 23] then c.1 = '-' else isHexDigit c.1

/-- `SAFE_LABEL_PATTERN` : a letter, then at most 63 letters, digits, dots, underscores, hyphens. -/
def isSafeLabel (value : String) : Bool :=
  match value.toList with
  | [] => false
  | c :: cs =>
    isLetter c ∧ cs.length ≤ 63 ∧
      cs.all fun c => isLetter c ∨ isDigit c ∨ c = '.' ∨ c = '_' ∨ c = '-'

def boundedLabel (value : String) : String :=
  if isUuidShaped value then unclassifiedLabel
  else if isSafeLabel value then value else unclassifiedLabel

/-- `emitCredentialOperation` : what is added to the counter.  A counter that throws is logged, and
nothing else follows from it. -/
def emitCredentialOperation (pending : DeferredCredentialOperation) : Measurement :=
  { operationType := boundedLabel pending.operationType, operationOutcome := pending.outcome }

/-! ## The query runner -/

/-- What the service and TypeORM keep on a query runner; `deferred` and `marks` are the entries of
`data` under `DEFERRED_KEY` and `MARKS_KEY`. -/
structure QueryRunner where
  isTransactionActive : Bool := false
  transactionDepth : ℕ := 0
  deferred : Option (List DeferredCredentialOperation) := none
  marks : Option (List ℕ) := none
  deriving DecidableEq

namespace QueryRunner

/-- `queue` : the pending records; an empty array is stored when there is none. -/
def queue (qr : QueryRunner) : List DeferredCredentialOperation := qr.deferred.getD []

/-- `marks` : the offsets at which the open levels began, the innermost last. -/
def offsets (qr : QueryRunner) : List ℕ := qr.marks.getD []

/-- `takeDeferred` : the records, and the query runner without the two entries. -/
def takeDeferred (qr : QueryRunner) : List DeferredCredentialOperation × QueryRunner :=
  (qr.queue, { qr with deferred := none, marks := none })

def popMark (qr : QueryRunner) : QueryRunner := { qr with marks := some qr.offsets.dropLast }

/-- `recordCredentialOperation`, with a manager of this query runner. -/
def recordCredentialOperation (qr : QueryRunner) (pending : DeferredCredentialOperation) :
    QueryRunner × List Measurement :=
  if qr.isTransactionActive then ({ qr with deferred := some (qr.queue ++ [pending]) }, [])
  else (qr, [emitCredentialOperation pending])

def beginDeferredScope (qr : QueryRunner) : QueryRunner :=
  { qr with deferred := some qr.queue, marks := some (qr.offsets ++ [qr.queue.length]) }

def flushDeferred (qr : QueryRunner) : QueryRunner × List Measurement :=
  let popped := qr.popMark
  if popped.isTransactionActive then (popped, [])
  else
    let (pendingRecords, rest) := popped.takeDeferred
    (rest, pendingRecords.map emitCredentialOperation)

/-- `discardDeferred`; the queue's length is set to the mark, which is never past its end. -/
def discardDeferred (qr : QueryRunner) : QueryRunner :=
  let mark := qr.offsets.getLast?
  let popped := qr.popMark
  if popped.isTransactionActive then
    { popped with deferred := some (popped.queue.take (mark.getD 0)) }
  else popped.takeDeferred.2

/-! ## What TypeORM does -/

/-- `startTransaction`, as a savepoint when a transaction is open. -/
def startLevel (qr : QueryRunner) : QueryRunner :=
  { qr with isTransactionActive := true, transactionDepth := qr.transactionDepth + 1 }

/-- `commitTransaction` and `rollbackTransaction` up to the broadcast: only the outermost level ends
the transaction. -/
def endLevel (qr : QueryRunner) : QueryRunner :=
  { qr with
    isTransactionActive := decide (1 < qr.transactionDepth)
    transactionDepth := qr.transactionDepth - 1 }

end QueryRunner

open QueryRunner

/-- A transaction or savepoint is started (`enter`), an operation is recorded, or the level opened
last is committed or released (`leave true`) or rolled back. -/
abbrev TransactionEvent := Event DeferredCredentialOperation

/-- One event, and the measurements that it emits; TypeORM throws when there is no level to end. -/
def step (qr : QueryRunner) : TransactionEvent → Option (QueryRunner × List Measurement)
  | .enter => some (qr.startLevel.beginDeferredScope, [])
  | .item pending => some (qr.recordCredentialOperation pending)
  | .leave kept =>
    if qr.isTransactionActive then
      some (if kept then qr.endLevel.flushDeferred else (qr.endLevel.discardDeferred, []))
    else none

/-- Puts measurements of earlier events in front. -/
def after (outs : List (List Measurement)) (r : Option (QueryRunner × List (List Measurement))) :
    Option (QueryRunner × List (List Measurement)) :=
  r.map fun x => (x.1, outs ++ x.2)

/-- A sequence of events, with the measurements emitted at each. -/
def run (qr : QueryRunner) :
    List TransactionEvent → Option (QueryRunner × List (List Measurement))
  | [] => some (qr, [])
  | e :: es => (step qr e).bind fun r => after [r.2] (run r.1 es)

theorem after_after (outs outs' : List (List Measurement))
    (r : Option (QueryRunner × List (List Measurement))) :
    after outs (after outs' r) = after (outs ++ outs') r := by
  simp [after, Function.comp_def]

theorem run_cons {qr qr' : QueryRunner} {e : TransactionEvent} {out : List Measurement}
    (h : step qr e = some (qr', out)) (es : List TransactionEvent) :
    run qr (e :: es) = after [out] (run qr' es) := by
  rw [run, h, Option.bind_some]

/-! ## Inside a transaction -/

/-- Inside a transaction with these records pending, and a mark for each open level. -/
def inTransaction (q : List DeferredCredentialOperation) (ms : List ℕ) : QueryRunner where
  isTransactionActive := true
  transactionDepth := ms.length
  deferred := some q
  marks := some ms

section Steps

variable (q : List DeferredCredentialOperation) (ms : List ℕ)

theorem step_start : step {} .enter = some (inTransaction [] [0], []) := rfl

theorem step_savepoint :
    step (inTransaction q ms) .enter = some (inTransaction q (ms ++ [q.length]), []) := by
  simp [step, startLevel, beginDeferredScope, inTransaction, queue, offsets]

theorem step_record (pending : DeferredCredentialOperation) :
    step (inTransaction q ms) (.item pending) =
      some (inTransaction (q ++ [pending]) ms, []) := rfl

theorem step_commit (m : ℕ) :
    step (inTransaction q [m]) (.leave true) = some ({}, q.map emitCredentialOperation) := rfl

theorem step_rollback (m : ℕ) :
    step (inTransaction q [m]) (.leave false) = some ({}, []) := rfl

variable {ms} (hms : ms ≠ []) (m : ℕ)
include hms

/-- Ending a level that is not the outermost leaves the transaction active. -/
theorem endLevel_nested :
    (inTransaction q (ms ++ [m])).endLevel =
      { inTransaction q ms with marks := some (ms ++ [m]) } := by
  have h : 0 < ms.length := List.length_pos_iff.mpr hms
  simp [endLevel, inTransaction, h]

theorem step_release :
    step (inTransaction q (ms ++ [m])) (.leave true) = some (inTransaction q ms, []) := by
  have hactive : (inTransaction q (ms ++ [m])).isTransactionActive = true := rfl
  rw [step, if_pos hactive, endLevel_nested q hms m]
  simp [flushDeferred, popMark, offsets, inTransaction]

theorem step_rollbackTo :
    step (inTransaction q (ms ++ [m])) (.leave false) =
      some (inTransaction (q.take m) ms, []) := by
  have hactive : (inTransaction q (ms ++ [m])).isTransactionActive = true := rfl
  rw [step, if_pos hactive, endLevel_nested q hms m]
  simp [discardDeferred, popMark, offsets, queue, inTransaction]

end Steps

/-- Inside a transaction, events whose levels are all closed again emit nothing and add their
survivors to the queue. -/
theorem run_inTransaction (t : Nesting DeferredCredentialOperation) :
    ∀ (q : List DeferredCredentialOperation) (ms : List ℕ) (es : List TransactionEvent), ms ≠ [] →
      run (inTransaction q ms) (t.events ++ es) =
        after (List.replicate t.events.length [])
          (run (inTransaction (q ++ t.survivors) ms) es) := by
  induction t with
  | nil =>
    intro q ms es _
    simp [Nesting.events, after]
  | item a rest ih =>
    intro q ms es hms
    rw [Nesting.events, List.cons_append, run_cons (step_record q ms a), ih _ _ _ hms,
      after_after, Nesting.survivors_item, List.append_assoc]
    rfl
  | scope inner kept rest ihInner ihRest =>
    intro q ms es hms
    have hne : ms ++ [q.length] ≠ [] := by simp
    -- what is pending once the level is closed: with the level's survivors, or cut at its mark
    have hclose : step (inTransaction (q ++ inner.survivors) (ms ++ [q.length])) (.leave kept) =
        some (inTransaction (q ++ if kept then inner.survivors else []) ms, []) := by
      cases kept with
      | true => exact step_release _ hms _
      | false => rw [step_rollbackTo _ hms, List.take_left]; simp
    rw [Nesting.events, List.cons_append, run_cons (step_savepoint q ms), List.append_assoc,
      ihInner _ _ _ hne, List.cons_append, run_cons hclose, ihRest _ _ _ hms, after_after,
      after_after, after_after, Nesting.survivors_scope]
    congr 1
    · simp [List.replicate_add, List.replicate_succ]
    · rw [List.append_assoc]

/-- An outermost transaction emits nothing before its end, and then its survivors if it commits. -/
theorem run_transaction (inner : Nesting DeferredCredentialOperation) (kept : Bool)
    (es : List TransactionEvent) :
    run {} (.enter :: (inner.events ++ .leave kept :: es)) =
      after ([] :: (List.replicate inner.events.length [] ++
        [(if kept then inner.survivors else []).map emitCredentialOperation])) (run {} es) := by
  have hclose : step (inTransaction ([] ++ inner.survivors) [0]) (.leave kept) =
      some ({}, (if kept then inner.survivors else []).map emitCredentialOperation) := by
    cases kept with
    | true => exact step_commit _ _
    | false => exact step_rollback _ _
  rw [run_cons step_start, run_inTransaction inner _ _ _ (List.cons_ne_nil _ _), run_cons hclose,
    after_after, after_after]
  rfl

/-- Started on a query runner without a transaction, the events of a nesting emit what the nesting
releases, and leave the query runner as it was. -/
theorem run_events (t : Nesting DeferredCredentialOperation) :
    run {} t.events = some ({}, t.releases.map (List.map emitCredentialOperation)) := by
  induction t with
  | nil => rfl
  | item a rest ih =>
    have hrecord : step {} (.item a) = some ({}, [emitCredentialOperation a]) := rfl
    rw [Nesting.events, run_cons hrecord, ih]
    rfl
  | scope inner kept rest _ ih =>
    rw [Nesting.events, run_transaction, ih]
    simp [after, Nesting.releases]

/-- In every well-bracketed sequence of events, the measurements are those of the records of which
every enclosing level was committed or released, each once and in order; a record made inside a
transaction is emitted at the commit of the outermost level. -/
theorem emits_committed (es : List TransactionEvent) (h : WellBracketed es) :
    ∃ (t : Nesting DeferredCredentialOperation) (outs : List (List Measurement)),
      t.events = es ∧ run {} es = some ({}, outs) ∧
        outs = t.releases.map (List.map emitCredentialOperation) ∧
        outs.flatten = t.survivors.map emitCredentialOperation := by
  obtain ⟨t, rfl⟩ := h.exists_nesting
  refine ⟨t, _, rfl, run_events t, rfl, ?_⟩
  rw [← List.map_flatten, Nesting.flatten_releases]

/-- A transaction with a savepoint rolled back and one released inside, then a record outside, of
a type that is no label. -/
def sampleEvents : List TransactionEvent :=
  let record (s : String) : TransactionEvent := .item ⟨s, .completed⟩
  [.enter, record "a", .enter, record "b", .leave false, .enter, record "c", .leave true,
    .leave true, record "of no type"]

/-- What is measured: two records at the commit, and the last one at once. -/
def sampleMeasurements : List (List Measurement) :=
  [[], [], [], [], [], [], [], [], [⟨"a", .completed⟩, ⟨"c", .completed⟩],
    [⟨"unclassified", .completed⟩]]

/-- The measurements of this sequence. -/
theorem emits_committed_sample :
    WellBracketed sampleEvents ∧ run {} sampleEvents = some ({}, sampleMeasurements) ∧
      ∃ t : Nesting DeferredCredentialOperation, t.events = sampleEvents ∧
        sampleMeasurements = t.releases.map (List.map emitCredentialOperation) ∧
        sampleMeasurements.flatten = t.survivors.map emitCredentialOperation := by
  have hrun : run {} sampleEvents = some ({}, sampleMeasurements) := by decide +kernel
  obtain ⟨t, outs, ht, houts, hreleases, hsurvivors⟩ := emits_committed sampleEvents (by decide)
  obtain rfl : sampleMeasurements = outs := by simpa using hrun.symm.trans houts
  exact ⟨by decide, hrun, t, ht, hreleases, hsurvivors⟩

end DigitalTrust.DeferredMetrics
