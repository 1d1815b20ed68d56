import Garive.Effects.Dispatcher
import Garive.Ledger.State

/-!
# Publishing effect batches

The publisher of a batch writes what the dispatcher reports: that a member started, and how it
ended. An end that the executor proved becomes a receipt, an outcome and an observation; an end that
the dispatcher settled itself becomes a failure and an observation; an end that nobody knows becomes
an uncertainty alone. Each report is one commit at the version the publisher holds.
-/

namespace Garive

/-- Frozen ownership, observation time and bounds of a committed plan. -/
structure EffectBatchAdmissionContext where
  turnId : TurnId
  executionId : ExecutionId
  maxParallelReads : Nat
  maxBufferedResultBytes : Nat
  recordedAt : String

/-! ## Facts -/

/-- The identity of a fact about one member. -/
def childId (lib : Externals) (plan invocation kind : String) : FactId where
  text := "fact-" ++ lib.sha256Hex (plan ++ ":" ++ invocation ++ ":" ++ kind)
  nonempty h := by
    have hlen : ("fact-" ++ lib.sha256Hex (plan ++ ":" ++ invocation ++ ":" ++ kind)).length = 0 :=
      congrArg String.length h
    rw [String.length_append _ _, show "fact-".length = 5 from rfl] at hlen
    omega

/-- A value kept inline with its digest. -/
def content (lib : Externals) (value : Value) : Except BatchRuntimeError Value := do
  let canonical ← (CanonicalPayload.fromValue lib value).mapError fun _ ↦ .invalidBinding
  return json [("digest", .string canonical.sha256), ("inline_utf8", .string canonical.json)]

/-- A fact of the batch's execution. -/
def batchFact (lib : Externals) (context : EffectBatchAdmissionContext) (id : FactId)
    (kind : RuntimeKind) (schemaVersion : UInt32) (tool : Option ToolInvocationId)
    (fields : List (String × Value)) : Except BatchRuntimeError FactDraft := do
  let payload ← (CanonicalPayload.fromValue lib (json fields)).mapError fun _ ↦ .invalidBinding
  return { factId := id, turnId := some context.turnId, executionId := some context.executionId
           modelRequestId := none, toolInvocationId := tool, kind := .known kind, schemaVersion
           payload, recordedAt := context.recordedAt }

/-- Checks a receipt against the invocation it is for and the fact it comes with. -/
def validateReceipt (lib : Externals) (invocation : AuthorizedBatchInvocation)
    (execution : PreparedExecution) (receipt : EffectReceipt) (fact : ExecutionFact) :
    Except BatchRuntimeError Unit := do
  ensure (receipt.validate = true) .invalidBinding
  let evidence ← okOr fact.evidence? .invalidBinding
  let canonical ← (CanonicalPayload.fromValue lib evidence).mapError fun _ ↦ .invalidBinding
  ensure (receipt.receiptId.text = invocation.receiptId ∧
    receipt.invocationId = invocation.invocationId ∧
    receipt.preparedDigest = invocation.prepared.inputDigest ∧
    receipt.grantId = invocation.grant.grantId ∧ receipt.executorId = execution.executorId ∧
    receipt.executorRevision = execution.executorRevision ∧
    receipt.resultDigest = canonical.sha256) .invalidBinding
  ensure (fact.hasClassification receipt.terminalClassification = true) .invalidBinding

def terminalClass : TerminalClassification → String
  | .completed => "completed"
  | .failed => "failed"

/-- The recorded code of a failure that an executor reports. -/
def stableFailure (code : String) : String :=
  if code = "timeout" then "timeout"
  else if code = "cancelled" then "cancelled"
  else if code = "executor_unavailable" then "executor_unavailable"
  else "tool_failure"

def validateExecution (execution : PreparedExecution) : Except BatchRuntimeError Unit :=
  ensure (execution.executorId ≠ "" ∧ execution.executorRevision ≠ "" ∧
    execution.dispatchAttemptId ≠ "") .invalidBinding

/-! ## Payloads -/

section Payloads

variable (invocation : AuthorizedBatchInvocation)

def startedFields (execution : PreparedExecution) : List (String × Value) :=
  [("prepared_digest", .string invocation.prepared.inputDigest),
    ("grant_id", .string invocation.grant.grantId.text),
    ("executor_id", .string execution.executorId),
    ("executor_revision", .string execution.executorRevision),
    ("dispatch_attempt_id", .string execution.dispatchAttemptId)]

def receiptFields (receipt : EffectReceipt) (resultOrEvidence : Value) : List (String × Value) :=
  [("receipt_id", .string receipt.receiptId.text),
    ("prepared_digest", .string invocation.prepared.inputDigest),
    ("grant_id", .string receipt.grantId.text), ("executor_id", .string receipt.executorId),
    ("executor_revision", .string receipt.executorRevision),
    ("classification", .string (terminalClass receipt.terminalClassification)),
    ("result_or_evidence", resultOrEvidence)]

def completedFields (receipt : EffectReceipt) (result : Value) : List (String × Value) :=
  [("prepared_digest", .string invocation.prepared.inputDigest),
    ("receipt_id", .string receipt.receiptId.text), ("result", result)]

/-- The evidence is written only when there is some. -/
def failedFields (receipt : EffectReceipt) (stable : String) (evidence : Option Value) :
    List (String × Value) :=
  [("prepared_digest", .string invocation.prepared.inputDigest),
    ("receipt_id", .string receipt.receiptId.text), ("code", .string stable)]
    ++ (evidence.map fun value ↦ ("evidence", value)).toList

/-- A failure without a receipt. -/
def failureFields (code : String) (evidence : Value) : List (String × Value) :=
  [("prepared_digest", .string invocation.prepared.inputDigest), ("code", .string code),
    ("evidence", evidence)]

def uncertainFields (evidence : Value) : List (String × Value) :=
  [("prepared_digest", .string invocation.prepared.inputDigest),
    ("reason", .string "executor_state_unknown"), ("evidence", evidence)]

def observationFields (observation : Value) : List (String × Value) :=
  [("prepared_digest", .string invocation.prepared.inputDigest),
    ("model_call_id", .string invocation.prepared.modelCallId), ("observation", observation)]

end Payloads

/-- What the model sees of a call that succeeded. -/
def succeededEnvelope (value : Value) (truncated : Bool) : Value :=
  json [("status", .string "succeeded"), ("content", value), ("truncated", .bool truncated)]

/-- What the model sees of a call that failed. -/
def failedEnvelope (code : String) (details : Option String) (partialContent : Option Value) : Value :=
  json [("status", .string "failed"), ("code", .string code),
    ("details", optionalJson (details.map .string)), ("partial", optionalJson partialContent)]

/-- The evidence of a failure, if there is some. -/
def failureEvidence (lib : Externals) (details : Option String) (partialContent : Option Value) :
    Except BatchRuntimeError (Option Value) :=
  if details.isSome ∨ partialContent.isSome then do
    let evidence ← content lib (json [("details", optionalJson (details.map .string)),
      ("partial", optionalJson partialContent)])
    return some evidence
  else .ok none

/-! ## The publisher -/

/-- The publisher of one committed plan. -/
structure SqliteEffectBatchPublisher where
  ledger : LedgerState
  sessionId : SessionId
  version : Nat
  context : EffectBatchAdmissionContext
  planDigest : String

namespace SqliteEffectBatchPublisher

variable (lib : Externals) (publisher : SqliteEffectBatchPublisher)
  (invocation : AuthorizedBatchInvocation)

def commit (facts : List FactDraft) : Except BatchRuntimeError Unit × SqliteEffectBatchPublisher :=
  match publisher.ledger.commit lib publisher.sessionId publisher.version facts with
  | (.ok result, ledger) => (.ok (), { publisher with ledger, version := result.sessionVersion })
  | (.error _, ledger) => (.error .durabilityFailure, { publisher with ledger })

/-- The identity of a fact about the invocation. -/
def memberId (name : String) : FactId :=
  childId lib publisher.planDigest invocation.invocationId.text name

/-- A fact about the invocation. -/
def memberFact (name : String) (kind : RuntimeKind) (fields : List (String × Value)) :
    Except BatchRuntimeError FactDraft :=
  batchFact lib publisher.context (publisher.memberId lib invocation name) kind 1
    (some invocation.invocationId) fields

def observationFact (envelope : Value) : Except BatchRuntimeError FactDraft := do
  let observation ← content lib envelope
  publisher.memberFact lib invocation "observation" .effectObservation
    (observationFields invocation observation)

/-- The outcome of an executor's fact, with what the model sees of it. -/
def outcomeFact (receipt : EffectReceipt) :
    ExecutionFact → Except BatchRuntimeError (FactDraft × Value)
  | .completed _ value truncated => do
    let result ← content lib value
    let fact ← publisher.memberFact lib invocation "terminal" .effectCompleted
      (completedFields invocation receipt result)
    return (fact, succeededEnvelope value truncated)
  | .failed _ code details partialContent => do
    let evidence ← failureEvidence lib details partialContent
    let fact ← publisher.memberFact lib invocation "terminal" .effectFailed
      (failedFields invocation receipt (stableFailure code) evidence)
    return (fact, failedEnvelope (stableFailure code) details partialContent)
  | _ => .error .invalidBinding

def executionTerminalFacts (execution : PreparedExecution) (fact : ExecutionFact) :
    Except BatchRuntimeError (List FactDraft) := do
  let receipt ← okOr fact.receipt? .invalidBinding
  validateReceipt lib invocation execution receipt fact
  let evidence ← okOr fact.evidence? .invalidBinding
  let resultOrEvidence ← content lib evidence
  let receiptFact ← publisher.memberFact lib invocation "receipt" .effectReceipt
    (receiptFields invocation receipt resultOrEvidence)
  let outcome ← publisher.outcomeFact lib invocation receipt fact
  let observation ← publisher.observationFact lib invocation outcome.2
  return [receiptFact, outcome.1, observation]

/-- The code of an end that the dispatcher settled. -/
def failureCode : BatchTerminal → Option String
  | .executionTimedOut => some "effect_execution_timeout"
  | .cancelled => some "cancelled"
  | .resultBoundExceeded => some "effect_batch_bound_exceeded"
  | _ => none

def failureFacts (terminal : BatchTerminal) : Except BatchRuntimeError (List FactDraft) := do
  let code ← okOr (failureCode terminal) .invalidBinding
  let evidence ← content lib (.string code)
  let failed ← publisher.memberFact lib invocation "terminal" .effectFailed
    (failureFields invocation code evidence)
  let observation ← publisher.observationFact lib invocation (failedEnvelope code none none)
  return [failed, observation]

def uncertainFacts : Except BatchRuntimeError (List FactDraft) := do
  let evidence ← content lib (.string "effect_batch_uncertain")
  let uncertain ← publisher.memberFact lib invocation "uncertain" .effectUncertain
    (uncertainFields invocation evidence)
  return [uncertain]

/-- The facts of an end. -/
def terminalFacts (execution : PreparedExecution) :
    BatchTerminal → Except BatchRuntimeError (List FactDraft)
  | .execution fact => publisher.executionTerminalFacts lib invocation execution fact
  | .uncertain => publisher.uncertainFacts lib invocation
  | terminal => publisher.failureFacts lib invocation terminal

def startedFact (execution : PreparedExecution) : Except BatchRuntimeError FactDraft := do
  validateExecution execution
  publisher.memberFact lib invocation "started" .effectStarted (startedFields invocation execution)

/-- Commits the facts, if they could be written. -/
def commitWritten (facts : Except BatchRuntimeError (List FactDraft)) :
    Except BatchRuntimeError Unit × SqliteEffectBatchPublisher :=
  match facts with
  | .ok facts => publisher.commit lib facts
  | .error e => (.error e, publisher)

def commitStarted (execution : PreparedExecution) :
    Except BatchRuntimeError Unit × SqliteEffectBatchPublisher :=
  publisher.commitWritten lib ((publisher.startedFact lib invocation execution).map ([·]))

def publishTerminal (execution : PreparedExecution) (terminal : BatchTerminal) :
    Except BatchRuntimeError Unit × SqliteEffectBatchPublisher :=
  publisher.commitWritten lib (publisher.terminalFacts lib invocation execution terminal)

end SqliteEffectBatchPublisher

end Garive
