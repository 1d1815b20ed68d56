import Garive.Lib.Calls
import Garive.Tools.Batch

/-!
# Dispatching effect batches

The dispatcher runs the steps of a batch plan: it waits for a permit for each member, lets the
executor prepare it, commits that it started, and only then polls the dispatches of the step. When
all of them are over it publishes their terminals in the order of the model.

The waiting, the executor and the publisher are calls (`BatchCall`), and so is the choice of the
dispatch that ends next, so a log is one schedule of one batch. How a single dispatch ends is its
`InvocationCourse`: it may return in time, or run into its deadline or into cancellation and then be
settled within the grace period, or by the evidence of the executor, or not at all.
-/

namespace Garive

abbrev GrantId := LedgerIdentity "grant"
abbrev ReceiptId := LedgerIdentity "receipt"

/-- The authority a call was granted, as far as a receipt is bound to it. -/
structure InvocationGrant where
  grantId : GrantId
  invocationId : ToolInvocationId
  preparedDigest : String

inductive TerminalClassification where
  | completed
  | failed

/-- Evidence of a terminal effect. -/
structure EffectReceipt where
  receiptId : ReceiptId
  invocationId : ToolInvocationId
  preparedDigest : String
  grantId : GrantId
  executorId : String
  executorRevision : String
  terminalClassification : TerminalClassification
  resultDigest : String

/-- Rejects empty evidence fields. -/
def EffectReceipt.validate (receipt : EffectReceipt) : Bool :=
  receipt.preparedDigest ≠ "" ∧ receipt.executorId ≠ "" ∧ receipt.executorRevision ≠ "" ∧
    receipt.resultDigest ≠ ""

/-- What is committed about an execution. -/
inductive ExecutionFact where
  | started (dispatchAttemptId : String)
  | completed (receipt : Option EffectReceipt) (content : Value) (truncated : Bool)
  | failed (receipt : Option EffectReceipt) (code : String) (details : Option String)
    (partialContent : Option Value)
  | uncertain (evidence : String)
  | unsupported (requirement : String)

/-- Executor identity and dispatch attempt, proven enforceable before the start. -/
structure PreparedExecution where
  executorId : String
  executorRevision : String
  dispatchAttemptId : String

/-- A frozen authorized invocation of a committed batch plan. -/
structure AuthorizedBatchInvocation where
  invocationId : ToolInvocationId
  prepared : PreparedToolCall
  grant : InvocationGrant
  receiptId : String

inductive ExecutorDispatchError where
  | startedWithoutReceipt
  | executorStateUnknown
  | receiptInvalid

/-- A normalized terminal, published in the order of the model. -/
inductive BatchTerminal where
  | execution (fact : ExecutionFact)
  | executionTimedOut
  | cancelled
  | uncertain
  | resultBoundExceeded

inductive BatchRuntimeError where
  | invalidBinding
  | queueTimeout
  | durabilityFailure

/-- Dispatcher bounds; the durations are in nanoseconds. -/
structure EffectBatchRuntimeLimits where
  maxParallelReads : Nat
  queueTimeout : Nat
  invocationTimeout : Nat
  cancellationGrace : Nat

structure EffectBatchReport where
  /-- The members whose start was committed. -/
  startedIndexes : List Nat
  /-- The terminals published, in the order of the model. -/
  terminals : List (Nat × BatchTerminal)

/-! ## Terminals -/

section Terminals

variable (lib : Preparing)

/-- An optional member as JSON: an absent one is null. -/
def optionalJson : Option Value → Value
  | some value => value
  | none => .null

/-- The receipt of a terminal fact. -/
def ExecutionFact.receipt? : ExecutionFact → Option EffectReceipt
  | completed receipt _ _ => receipt
  | failed receipt _ _ _ => receipt
  | _ => none

/-- What the result digest of a terminal fact is taken of. -/
def ExecutionFact.evidence? : ExecutionFact → Option Value
  | completed _ content _ => some content
  | failed _ code details partialContent =>
    some (json [("code", .string code), ("details", optionalJson (details.map .string)),
      ("partial", optionalJson partialContent)])
  | _ => none

def ExecutionFact.hasClassification : ExecutionFact → TerminalClassification → Bool
  | completed .., .completed => true
  | failed .., .failed => true
  | _, _ => false

def validTerminalBinding (fact : ExecutionFact) (invocation : AuthorizedBatchInvocation)
    (execution : PreparedExecution) : Bool :=
  match fact.receipt?, fact.evidence? with
  | some receipt, some evidence =>
    receipt.validate
      && decide (receipt.receiptId.text = invocation.receiptId)
      && decide (receipt.invocationId = invocation.invocationId)
      && decide (receipt.preparedDigest = invocation.prepared.inputDigest)
      && decide (receipt.grantId = invocation.grant.grantId)
      && decide (receipt.executorId = execution.executorId)
      && decide (receipt.executorRevision = execution.executorRevision)
      && (match CanonicalPayload.fromValue lib.toExternals evidence with
        | .ok canonical => decide (canonical.sha256 = receipt.resultDigest)
        | .error _ => false)
      && fact.hasClassification receipt.terminalClassification
  | _, _ => false

/-- The length of a canonical text in bytes, if there is one. -/
def canonicalLength (value : Value) : Option Nat := (lib.jcs value).map (·.utf8ByteSize)

/-- Whether the first is greater, where nothing is less than any number. -/
def optionGreater : Option Nat → Option Nat → Bool
  | some bytes, some maximum => decide (maximum < bytes)
  | some _, none => true
  | none, _ => false

/-- The size of what an executor returned. -/
def ExecutionFact.resultBytes? : ExecutionFact → Option Nat
  | completed _ content _ => canonicalLength lib content
  | failed _ _ _ none => some 0
  | failed _ _ _ (some value) => canonicalLength lib value
  | _ => none

/-- The terminal of a fact whose receipt is bound to the invocation. -/
def measuredTerminal (fact : ExecutionFact) (maxResultBytes : Option Nat) : BatchTerminal :=
  if optionGreater (fact.resultBytes? lib) maxResultBytes then .resultBoundExceeded
  else .execution fact

/-- The terminal of a dispatch that returned. -/
def normalize (result : Except ExecutorDispatchError ExecutionFact)
    (invocation : AuthorizedBatchInvocation) (execution : PreparedExecution) : BatchTerminal :=
  match result with
  | .error _ => .uncertain
  | .ok fact =>
    if validTerminalBinding lib fact invocation execution then
      match fact with
      | .completed .. => measuredTerminal lib fact invocation.prepared.maxResultBytes
      | .failed .. => measuredTerminal lib fact invocation.prepared.maxResultBytes
      | _ => .uncertain
    else .uncertain

/-- What the executor can prove after cancellation and its grace period. -/
inductive CancellationEvidence where
  | terminal (fact : ExecutionFact)
  | provenNotCompleted
  | unknown

/-- The end of a dispatch that was cancelled: within the grace period, or after it. -/
inductive GraceCourse where
  | returned (result : Except ExecutorDispatchError ExecutionFact)
  | expired (evidence : CancellationEvidence)

/-- The end of a dispatch. -/
inductive InvocationCourse where
  | returned (result : Except ExecutorDispatchError ExecutionFact)
  | timedOut (grace : GraceCourse)
  | cancelled (grace : GraceCourse)

/-- The terminal after cancellation, given the terminal of a proof that nothing completed. -/
def terminalAfterCancel (invocation : AuthorizedBatchInvocation) (execution : PreparedExecution)
    (unfinished : BatchTerminal) : GraceCourse → BatchTerminal
  | .returned result => normalize lib result invocation execution
  | .expired (.terminal fact) => normalize lib (.ok fact) invocation execution
  | .expired .provenNotCompleted => unfinished
  | .expired .unknown => .uncertain

/-- The terminal of one dispatch. -/
def runInvocation (invocation : AuthorizedBatchInvocation) (execution : PreparedExecution) :
    InvocationCourse → BatchTerminal
  | .returned result => normalize lib result invocation execution
  | .timedOut grace => terminalAfterCancel lib invocation execution .executionTimedOut grace
  | .cancelled grace => terminalAfterCancel lib invocation execution .cancelled grace

end Terminals

/-! ## Ports -/

/-- A dispatch that is started and not over. -/
structure RunningInvocation where
  index : Nat
  invocation : AuthorizedBatchInvocation
  execution : PreparedExecution

/-- How waiting for a permit ends. -/
inductive PermitAnswer where
  | granted
  | timedOut
  | closed

/-- The calls of the dispatcher. -/
inductive BatchCall where
  | isCancelled
  | acquirePermit (index : Nat)
  | prepare (index : Nat) (invocation : AuthorizedBatchInvocation)
  | commitStarted (index : Nat) (invocation : AuthorizedBatchInvocation)
    (execution : PreparedExecution)
  /-- Waits for the next of the running dispatches to end. -/
  | next (running : List RunningInvocation)
  | publishTerminal (index : Nat) (invocation : AuthorizedBatchInvocation)
    (execution : PreparedExecution) (terminal : BatchTerminal)

def BatchCall.Answer : BatchCall → Type
  | isCancelled => Bool
  | acquirePermit _ => PermitAnswer
  | prepare _ _ => Except String PreparedExecution
  | commitStarted .. => Except BatchRuntimeError Unit
  | next running => Fin running.length × InvocationCourse
  | publishTerminal .. => Except BatchRuntimeError Unit

def batchPorts : Interface where
  Call := BatchCall
  Answer := BatchCall.Answer

abbrev BatchEvent := batchPorts.Event

/-! ## Execution -/

/-- A part of the execution of a batch. -/
abbrev Dispatch (α : Type) := ExceptT BatchRuntimeError (Program batchPorts) α

/-- The terminals of a step by model index, until they are published. -/
abbrev Buffered := List (Option (PreparedExecution × BatchTerminal))

namespace Dispatch

open Program

/-- A call of a port. -/
def perform (c : BatchCall) : Dispatch c.Answer := (ask (I := batchPorts) c : Program batchPorts _)

/-- Leaves with the error of a check. -/
def check (result : Except BatchRuntimeError Unit) : Dispatch Unit :=
  match result with
  | .ok () => pure ()
  | .error e => throw e

def awaitPermit (index : Nat) : Dispatch Unit := do
  match ← perform (.acquirePermit index) with
  | .granted => pure ()
  | .timedOut => throw .queueTimeout
  | .closed => throw .invalidBinding

def prepare (index : Nat) (invocation : AuthorizedBatchInvocation) : Dispatch PreparedExecution := do
  match ← perform (.prepare index invocation) with
  | .ok execution => pure execution
  | .error _ => throw .invalidBinding

def commitStarted (index : Nat) (invocation : AuthorizedBatchInvocation)
    (execution : PreparedExecution) : Dispatch Unit := do
  match ← perform (.commitStarted index invocation execution) with
  | .ok () => pure ()
  | .error _ => throw .durabilityFailure

def publishTerminal (index : Nat) (invocation : AuthorizedBatchInvocation)
    (execution : PreparedExecution) (terminal : BatchTerminal) : Dispatch Unit := do
  match ← perform (.publishTerminal index invocation execution terminal) with
  | .ok () => pure ()
  | .error _ => throw .durabilityFailure

/-- The invocation at an index. The code panics where there is none, which no plan leads to. -/
def invocationAt (invocations : List AuthorizedBatchInvocation) (index : Nat) :
    Dispatch AuthorizedBatchInvocation :=
  match invocations[index]? with
  | some invocation => pure invocation
  | none => throw .invalidBinding

/-- Starts one member. -/
def startMember (invocations : List AuthorizedBatchInvocation) (index : Nat) :
    Dispatch RunningInvocation := do
  awaitPermit index
  let invocation ← invocationAt invocations index
  let execution ← prepare index invocation
  commitStarted index invocation execution
  return { index, invocation, execution }

/-- Starts the members of a step, until cancellation. -/
def startMembers (invocations : List AuthorizedBatchInvocation) :
    List Nat → EffectBatchReport → List RunningInvocation →
      Dispatch (EffectBatchReport × List RunningInvocation)
  | [], report, running => pure (report, running)
  | index :: rest, report, running => do
    match ← perform .isCancelled with
    | true => pure (report, running)
    | false => do
      let member ← startMember invocations index
      startMembers invocations rest { report with startedIndexes := report.startedIndexes ++ [index] }
        (running ++ [member])

/-- Buffers the terminals of the running dispatches as they come to an end. -/
def drain (lib : Preparing) (running : List RunningInvocation) (buffered : Buffered) :
    Program batchPorts Buffered :=
  if running = [] then
    pure buffered
  else
    .call (.next running) fun (answer : Fin running.length × InvocationCourse) ↦
      let member := running.get answer.1
      drain lib (running.eraseIdx answer.1) (buffered.set member.index
        (some (member.execution, runInvocation lib member.invocation member.execution answer.2)))
termination_by running.length
decreasing_by
  have := answer.1.isLt
  rw [List.length_eraseIdx_of_lt this]
  omega

/-- Publishes the buffered terminals of the started members that are not published yet. -/
def publishBuffered (invocations : List AuthorizedBatchInvocation) :
    List Nat → EffectBatchReport → Buffered → Dispatch EffectBatchReport
  | [], report, _ => pure report
  | index :: rest, report, buffered =>
    if report.terminals.any (·.1 = index) then
      publishBuffered invocations rest report buffered
    else
      match buffered[index]?.join with
      | none => publishBuffered invocations rest report buffered
      | some (execution, terminal) => do
        let invocation ← invocationAt invocations index
        publishTerminal index invocation execution terminal
        publishBuffered invocations rest
          { report with terminals := report.terminals ++ [(index, terminal)] }
          (buffered.set index none)

def runSteps (lib : Preparing) (invocations : List AuthorizedBatchInvocation) :
    List EffectBatchStep → EffectBatchReport → Dispatch EffectBatchReport
  | [], report => pure report
  | step :: rest, report => do
    match ← perform .isCancelled with
    | true => pure report
    | false => do
      let (report, running) ← startMembers invocations step.indexes report []
      let buffered ← drain lib running (List.replicate invocations.length none)
      let report ← publishBuffered invocations report.startedIndexes report buffered
      runSteps lib invocations rest report

end Dispatch

/-- Checks one invocation against the digest the plan has at its index. -/
def validateInvocation (entry : AuthorizedBatchInvocation × String) : Except BatchRuntimeError Unit :=
  let (invocation, digest) := entry
  ensure (invocation.prepared.contractVersion = 2 ∧ invocation.prepared.inputDigest = digest ∧
    invocation.grant.invocationId = invocation.invocationId ∧
    invocation.grant.preparedDigest = digest ∧ invocation.receiptId ≠ "") .invalidBinding

/-- Whether a step can run at once under the limits. -/
def EffectBatchStep.fits (limits : EffectBatchRuntimeLimits) : EffectBatchStep → Bool
  | parallelReadGroup intentIndexes => intentIndexes.length ≤ limits.maxParallelReads
  | sequentialStep _ => true

def validateInputs (plan : EffectBatchPlanV1) (invocations : List AuthorizedBatchInvocation)
    (limits : EffectBatchRuntimeLimits) : Except BatchRuntimeError Unit := do
  ensure (invocations.length = plan.orderedPreparedDigests.length ∧ limits.maxParallelReads ≠ 0 ∧
    limits.queueTimeout ≠ 0 ∧ limits.invocationTimeout ≠ 0 ∧ limits.cancellationGrace ≠ 0)
    .invalidBinding
  checkAll validateInvocation (invocations.zip plan.orderedPreparedDigests)
  ensure (∀ step ∈ plan.steps, step.fits limits) .invalidBinding

/-- The dispatcher; its permits are a port. -/
structure EffectBatchDispatcher where
  maxParallelReads : Nat

namespace EffectBatchDispatcher

def new (limits : EffectBatchRuntimeLimits) : Except BatchRuntimeError EffectBatchDispatcher := do
  ensure (limits.maxParallelReads ≠ 0 ∧ limits.queueTimeout ≠ 0 ∧ limits.invocationTimeout ≠ 0 ∧
    limits.cancellationGrace ≠ 0) .invalidBinding
  return { maxParallelReads := limits.maxParallelReads }

/-- Executes a committed plan. -/
def execute (dispatcher : EffectBatchDispatcher) (lib : Preparing) (plan : EffectBatchPlanV1)
    (invocations : List AuthorizedBatchInvocation) (limits : EffectBatchRuntimeLimits) :
    Dispatch EffectBatchReport := do
  Dispatch.check (ensure (limits.maxParallelReads ≤ dispatcher.maxParallelReads) .invalidBinding)
  Dispatch.check (validateInputs plan invocations limits)
  Dispatch.runSteps lib invocations plan.steps { startedIndexes := [], terminals := [] }

end EffectBatchDispatcher

end Garive
