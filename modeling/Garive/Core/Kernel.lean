import Garive.Core.Context
import Garive.Lib.Calls
import Garive.Tools.Prepared

/-!
# The agent kernel

One bounded execution of the agent loop. An iteration reads context candidates, derives a surface,
builds one model request and invokes the model; the outcome ends the execution or sends the loop
round again, after governed tool calls, newly committed input, a context rebuild, a retry after
truncated output, or a move to the next model target.

The ports are calls of a `Program`. A call that spans others, the invocation of the model, which
shows events to the kernel's observer while it runs, is logged twice: where it begins and where it
returns. Every way out of an iteration carries the outcome it proposes and the usage accounted so
far; `finish` closes the execution with them.
-/

namespace Garive

/-! ## Requests -/

inductive ResumeInput where
  | externalInput (text : String)
  | reconciliation (text : String)
  | resourceReady

/-- How the runtime enters the turn. -/
inductive AgentEntry where
  | start (trustedInput : String)
  | resume (resumeInput : ResumeInput)

structure AgentCursor where
  completedIterations : Nat
  lastDurablePosition : Nat

/-- Policy for a result without usable token counts. -/
inductive MissingUsagePolicy where
  | stop
  | estimate (inputTokens outputTokens : Nat)

inductive TerminalRecoveryAction where
  | suspend
  | stop
  | fail
  | alternateThenSuspend
deriving DecidableEq

inductive OutputLimitAction where
  | completePartial
  | retry (maxRetries : Nat)
  | suspend
  | stop
  | fail

structure ModelRecoveryPolicy where
  maxContextRebuilds : Nat
  outputLimit : OutputLimitAction
  transport : TerminalRecoveryAction
  unavailable : TerminalRecoveryAction
  missingUsage : MissingUsagePolicy

structure ModelOnlyLimits where
  maxIterations : Nat
  maxTotalTokens : Option Nat
  deadlineTick : Option Nat

structure ExactToolReference where
  name : String
  exactRevision : String

/-- A skill activated for the execution, with the tools it allows. -/
structure ActivatedSkill where
  skillId : String
  allowedToolReferences : List ExactToolReference

/-- The immutable input of one execution. -/
structure AgentTurnRequest where
  sessionId : SessionId
  turnId : TurnId
  executionId : ExecutionId
  entry : AgentEntry
  cursor : AgentCursor
  contextRequest : ContextRequest
  activatedSkills : List ActivatedSkill
  capabilityContextCandidates : List ContextCandidate
  modelTargets : List String
  requiredCapabilities : List ModelCapability
  modelOutput : ModelOutputSettings
  recoveryPolicy : ModelRecoveryPolicy
  limits : ModelOnlyLimits

inductive AgentRequestError where
  | entryCursorMismatch
  | sessionMismatch
  | missingModelTarget
  | invalidModelTarget
  | invalidTokenLimit

/-- The entry agrees with the durable cursor. -/
def AgentTurnRequest.EntryMatches (request : AgentTurnRequest) : Prop :=
  match request.entry with
  | .start _ => request.cursor.completedIterations = 0 ∧ request.cursor.lastDurablePosition = 0
  | .resume _ => request.cursor.lastDurablePosition ≠ 0

instance (request : AgentTurnRequest) : Decidable request.EntryMatches := by
  unfold AgentTurnRequest.EntryMatches
  split <;> infer_instance

/-- Validates cross-field request invariants before any port is invoked. -/
def AgentTurnRequest.validate (request : AgentTurnRequest) : Except AgentRequestError Unit := do
  ensure request.EntryMatches .entryCursorMismatch
  ensure (request.contextRequest.sessionId = request.sessionId.text) .sessionMismatch
  ensure (request.modelTargets ≠ []) .missingModelTarget
  ensure (∀ target ∈ request.modelTargets, target ≠ "") .invalidModelTarget
  ensure (request.limits.maxTotalTokens ≠ some 0) .invalidTokenLimit

/-! ## Outcomes -/

structure UsageSummary where
  inputTokens : TokenCount
  outputTokens : TokenCount
  estimated : Bool

inductive SuspensionReason where
  | approvalRequired
  | externalInputRequired
  | operatorReconciliation
  | partialOutput
  | resourceUnavailable
  | delegationPending

inductive StopReason where
  | iterationLimit
  | tokenLimit
  | deadline
  | cancelled
  | resourceUnavailable

inductive AgentFailureReason where
  | invalidInput
  | invalidModelOutput
  | requiredCapabilityUnavailable
  | portFailure
  | invariantViolation

/-- Durable identities a governed suspension carries into the terminal of the execution. -/
inductive GovernedSuspensionBinding where
  | interaction (suspensionId interactionId invocationId preparedDigest : String)
  | operatorReconciliation (suspensionId invocationId preparedDigest : String)

/-- The one terminal proposal of an execution. -/
inductive AgentOutcome where
  | completed (responseItems : List ModelItem) (usage : UsageSummary)
  | suspended (reason : SuspensionReason) (partialItems : List ModelItem) (lastDurablePosition : Nat)
    (governedBinding : Option GovernedSuspensionBinding)
  | stopped (reason : StopReason)
  | failed (reason : AgentFailureReason)

structure ExecutionReport where
  outcome : AgentOutcome
  completedIterations : Nat
  usage : UsageSummary

/-! ## Governed results -/

inductive InteractionKind where
  | approval
  | externalInput

structure InteractionRequest where
  interactionId : String
  invocationId : String
  preparedDigest : String
  kind : InteractionKind

inductive SuspensionRequirement where
  | interaction (request : InteractionRequest)
  | operatorReconciliation (evidence : String)

inductive GovernedFailureCode where
  | grantMismatch
  | requirementUnsupported
  | invocationConflict
  | interactionConflict
  | corruptRecoveryState
  | invalidModelOutput

/-- What a governed operation comes to. The feedback of an observation is for the model only. -/
inductive GovernedToolResult where
  | observation
  | suspend (requirement : SuspensionRequirement)
  | fail (code : GovernedFailureCode)

structure CommittedGovernedResult where
  result : GovernedToolResult
  throughPosition : Nat
  suspensionBinding : Option GovernedSuspensionBinding

/-! ## Ports -/

inductive AgentEventKind where
  | executionStarted
  | iterationStarted (iteration : Nat)
  | contextDerived (itemCount utf8Bytes : Nat)
  | modelRequestPrepared (requestId targetId : String)
  | modelStream (event : ModelStreamEvent)
  | outcomeProposed

structure AgentEvent where
  sessionId : SessionId
  turnId : TurnId
  executionId : ExecutionId
  kind : AgentEventKind

inductive PortFailure where
  | context
  | event
  | clock
  | tool

inductive ContextPortError where
  | portFailure

structure ContextAdvance where
  throughPosition : Nat

/-- The calls of the kernel to its ports. -/
inductive KernelCall where
  | isCancelled
  | nowTick
  | emit (event : AgentEvent)
  | readCandidates (request : ContextRequest) (rebuildAttempt : Nat)
  | advanceAfterModel (consumedThroughPosition : Nat)
  | preflight (request : ModelRequest)
  | invokeModel (request : ModelRequest)
  | modelReturned (result : Except ModelPortFailure InvokeOutcome)
  | reject (sourceModelRequestId : String) (intent : ToolIntent) (error : PreparationError)
  | invoke (sourceModelRequestId : String) (prepared : PreparedToolCall)

/-- What the ports answer. The answer to an invocation of the model is the run it goes through; its
return is only noted. -/
def KernelCall.Answer : KernelCall → Type
  | isCancelled => Bool
  | nowTick => Except PortFailure Nat
  | emit _ => Except PortFailure Unit
  | readCandidates _ _ => Except ContextPortError (List ContextCandidate)
  | advanceAfterModel _ => Except ContextPortError (Option ContextAdvance)
  | preflight _ => Except ModelPortFailure Unit
  | invokeModel _ => ModelRun
  | modelReturned _ => Unit
  | reject .. => Except PortFailure CommittedGovernedResult
  | invoke .. => Except PortFailure CommittedGovernedResult

def kernelPorts : Interface where
  Call := KernelCall
  Answer := KernelCall.Answer

abbrev KernelEvent := kernelPorts.Event

/-! ## Control -/

inductive ExecutionOutcomeKind where
  | completed
  | suspended
  | stopped
  | failed

inductive ExecutionStatus where
  | active
  | closed (kind : ExecutionOutcomeKind)

inductive ControlError where
  | cursorBeyondLimit (completed maximum : Nat)
  | alreadyClosed

inductive BeginIteration where
  | started (iteration : Nat)
  | iterationLimitReached

/-- Disposable control projection of one execution. -/
structure ExecutionControl where
  maxIterations : Nat
  completedIterations : Nat
  status : ExecutionStatus
  within : completedIterations ≤ maxIterations

namespace ExecutionControl

/-- Restores an active controller from a durable cursor. -/
def new (completedIterations maxIterations : Nat) : Except ControlError ExecutionControl :=
  if h : completedIterations > maxIterations then
    .error (.cursorBeyondLimit completedIterations maxIterations)
  else
    .ok { maxIterations, completedIterations, status := .active, within := Nat.le_of_not_lt h }

/-- Starts the next iteration or closes the execution at its iteration cap. -/
def beginIteration (control : ExecutionControl) :
    Except ControlError (BeginIteration × ExecutionControl) :=
  match control.status with
  | .closed _ => .error .alreadyClosed
  | .active =>
    if h : control.completedIterations = control.maxIterations then
      .ok (.iterationLimitReached, { control with status := .closed .stopped })
    else
      .ok (.started (control.completedIterations + 1),
        { control with
          completedIterations := control.completedIterations + 1
          within := Nat.lt_of_le_of_ne control.within h })

/-- Closes an active execution with one terminal outcome class. -/
def close (control : ExecutionControl) (kind : ExecutionOutcomeKind) :
    Except ControlError ExecutionControl :=
  match control.status with
  | .closed _ => .error .alreadyClosed
  | .active => .ok { control with status := .closed kind }

theorem beginIteration_eq_started {control next : ExecutionControl} {iteration : Nat}
    (h : control.beginIteration = .ok (.started iteration, next)) :
    iteration = control.completedIterations + 1 ∧ next.completedIterations = iteration ∧
      next.maxIterations = control.maxIterations := by
  unfold beginIteration at h
  split at h
  · cases h
  · split at h
    · cases h
    · obtain ⟨⟨⟩, ⟨⟩⟩ := h
      exact ⟨rfl, rfl, rfl⟩

end ExecutionControl

/-! ## Usage -/

structure UsageAccumulator where
  input : TokenCount
  output : TokenCount
  estimated : Bool

inductive UsageError where
  | missing
  | overflow

/-- The count after one more, whether it was estimated, and whether it is missing. -/
def accumulate (current next : TokenCount) (policy : MissingUsagePolicy) (input : Bool) :
    Except UsageError (TokenCount × Bool × Bool) :=
  match current, next, policy with
  | .known current, .known value, _ =>
    okOr ((checkedAdd current value).map fun value ↦ (.known value, false, false)) .overflow
  | .unknown, .known _, _ => .ok (.unknown, false, false)
  | _, .unknown, .stop => .ok (.unknown, false, true)
  | .known current, .unknown, .estimate inputTokens outputTokens =>
    okOr ((checkedAdd current (if input then inputTokens else outputTokens)).map fun value ↦
      (.known value, true, false)) .overflow
  | .unknown, .unknown, .estimate _ _ => .ok (.unknown, true, false)

namespace UsageAccumulator

def initial : UsageAccumulator := { input := .known 0, output := .known 0, estimated := false }

/-- Adds the usage of one invocation. An overflow leaves the accumulator as it was, missing evidence
does not. -/
def add (usage : UsageAccumulator) (modelUsage : ModelUsage) (policy : MissingUsagePolicy) :
    UsageAccumulator × Except UsageError Unit :=
  match accumulate usage.input modelUsage.inputTokens policy true,
    accumulate usage.output modelUsage.outputTokens policy false with
  | .ok (input, inputEstimated, inputMissing), .ok (output, outputEstimated, outputMissing) =>
    ({ input, output, estimated := usage.estimated || (inputEstimated || outputEstimated) },
      ensure (¬(inputMissing || outputMissing) = true) .missing)
  | .error e, _ => (usage, .error e)
  | .ok _, .error e => (usage, .error e)

def total (usage : UsageAccumulator) : Option Nat :=
  match usage.input, usage.output with
  | .known input, .known output => checkedAdd input output
  | _, _ => none

def summary (usage : UsageAccumulator) : UsageSummary :=
  { inputTokens := usage.input, outputTokens := usage.output, estimated := usage.estimated }

end UsageAccumulator

/-- Accounts for one invocation, and the outcome if that ends the execution. -/
def accountOrLimit (usage : UsageAccumulator) (modelUsage : ModelUsage) (policy : ModelRecoveryPolicy)
    (maximum : Option Nat) : UsageAccumulator × Option AgentOutcome :=
  let added := usage.add modelUsage policy.missingUsage
  match added.2 with
  | .error _ => (added.1, some (.stopped .tokenLimit))
  | .ok () =>
    match added.1.total with
    | none => (added.1, some (.failed .invariantViolation))
    | some total =>
      (added.1, if maximum.any (total > ·) then some (.stopped .tokenLimit) else none)

/-! ## Execution -/

/-- A part of an iteration, which may leave it with an outcome and the usage accounted. -/
abbrev Kernel (α : Type) := ExceptT (AgentOutcome × UsageAccumulator) (Program kernelPorts) α

/-- What is frozen for one execution: the request, the admitted tools, the preparation port if there
is one, and whether there is an effect port. -/
structure KernelSetup where
  request : AgentTurnRequest
  lib : Preparing
  catalog : ToolCatalog
  toolDescriptors : List ToolDescriptor
  preparation : Option (ToolIntent → Except PreparationError PreparedToolCall)
  effects : Bool

/-- What the loop carries from one iteration to the next. -/
structure LoopState where
  usage : UsageAccumulator
  rebuildAttempt : Nat
  outputRetries : Nat
  targetIndex : Nat
  requestOrdinal : Nat
  throughPosition : Nat

namespace Kernel

open Program

def isCancelled : Kernel Bool := ask (I := kernelPorts) .isCancelled
def nowTick : Kernel (Except PortFailure Nat) := ask (I := kernelPorts) .nowTick
def emit (event : AgentEvent) : Kernel (Except PortFailure Unit) :=
  ask (I := kernelPorts) (.emit event)
def readCandidates (request : ContextRequest) (rebuildAttempt : Nat) :
    Kernel (Except ContextPortError (List ContextCandidate)) :=
  ask (I := kernelPorts) (.readCandidates request rebuildAttempt)
def advanceAfterModel (position : Nat) :
    Kernel (Except ContextPortError (Option ContextAdvance)) :=
  ask (I := kernelPorts) (.advanceAfterModel position)
def preflight (request : ModelRequest) : Kernel (Except ModelPortFailure Unit) :=
  ask (I := kernelPorts) (.preflight request)
def invokeModel (request : ModelRequest) : Kernel ModelRun :=
  ask (I := kernelPorts) (.invokeModel request)
def modelReturned (result : Except ModelPortFailure InvokeOutcome) : Kernel Unit :=
  ask (I := kernelPorts) (.modelReturned result)
def reject (source : String) (intent : ToolIntent) (error : PreparationError) :
    Kernel (Except PortFailure CommittedGovernedResult) :=
  ask (I := kernelPorts) (.reject source intent error)
def invoke (source : String) (prepared : PreparedToolCall) :
    Kernel (Except PortFailure CommittedGovernedResult) :=
  ask (I := kernelPorts) (.invoke source prepared)

/-- Leaves the iteration. -/
def leave {α : Type} (usage : UsageAccumulator) (outcome : AgentOutcome) : Kernel α :=
  throw (outcome, usage)

/-- Leaves the iteration if the condition holds. -/
def leaveIf (condition : Bool) (usage : UsageAccumulator) (outcome : AgentOutcome) : Kernel Unit :=
  if condition then leave usage outcome else pure ()

/-- The value of a port's answer, or the way out its failure calls for. -/
def orLeave {ε α : Type} (answer : Except ε α) (usage : UsageAccumulator)
    (outcome : ε → AgentOutcome) : Kernel α :=
  match answer with
  | .ok a => pure a
  | .error e => leave usage (outcome e)

end Kernel

open Kernel

def agentEvent (request : AgentTurnRequest) (kind : AgentEventKind) : AgentEvent :=
  { sessionId := request.sessionId, turnId := request.turnId, executionId := request.executionId, kind }

/-- Emits an event; a failure ends the execution. -/
def emitting (request : AgentTurnRequest) (usage : UsageAccumulator) (kind : AgentEventKind) :
    Kernel Unit := do
  let answer ← emit (agentEvent request kind)
  orLeave answer usage fun _ ↦ .failed .portFailure

def AgentOutcome.kind : AgentOutcome → ExecutionOutcomeKind
  | completed .. => .completed
  | suspended .. => .suspended
  | stopped _ => .stopped
  | failed _ => .failed

/-- The report of an execution that proposed an outcome, with the outcome a failed proposal or a
failed close puts in its place. -/
def closingReport (control : ExecutionControl) (usage : UsageAccumulator) (outcome : AgentOutcome) :
    ExecutionReport :=
  match control.status with
  | .closed _ =>
    { outcome, completedIterations := control.completedIterations, usage := usage.summary }
  | .active =>
    match control.close outcome.kind with
    | .ok control =>
      { outcome, completedIterations := control.completedIterations, usage := usage.summary }
    | .error _ =>
      { outcome := .failed .invariantViolation, completedIterations := control.completedIterations,
        usage := usage.summary }

/-- Proposes the outcome and closes the execution. -/
def finish (request : AgentTurnRequest) (control : ExecutionControl) (usage : UsageAccumulator)
    (outcome : AgentOutcome) : Program kernelPorts ExecutionReport :=
  .call (.emit (agentEvent request .outcomeProposed)) fun answer : Except PortFailure Unit ↦
    match answer with
    | .ok () => .done (closingReport control usage outcome)
    | .error _ => .done (closingReport control usage (.failed .portFailure))

/-- Whether the logical clock reached the deadline; a clock that fails ends the execution. -/
def deadlineReached (request : AgentTurnRequest) (usage : UsageAccumulator) : Kernel Bool :=
  match request.limits.deadlineTick with
  | none => pure false
  | some deadline => do
    let now ← nowTick
    let now ← orLeave now usage fun _ ↦ .failed .portFailure
    return decide (now ≥ deadline)

/-- The boundary before an iteration. -/
def checkBoundary (request : AgentTurnRequest) (usage : UsageAccumulator) : Kernel Unit := do
  let cancelled ← isCancelled
  leaveIf cancelled usage (.stopped .cancelled)
  let reached ← deadlineReached request usage
  leaveIf reached usage (.stopped .deadline)

def derivationOutcome : ContextDerivationError → AgentOutcome
  | .requiredFactsExceedBudget _ _ => .stopped .tokenLimit
  | _ => .failed .portFailure

/-- The surface of the candidates the context port and the capabilities supply. -/
def surfaceOf (request : AgentTurnRequest) (contextRequest : ContextRequest)
    (candidates : List ContextCandidate) : Except ContextDerivationError ContextSurface := do
  let values ← mergeContextCandidates candidates request.capabilityContextCandidates
  deriveContext contextRequest values

/-- The context request of an iteration. -/
def LoopState.contextRequest (request : AgentTurnRequest) (s : LoopState) : ContextRequest :=
  { request.contextRequest with throughPosition := s.throughPosition }

/-- Reads the candidates and derives the surface of an iteration. -/
def readSurface (request : AgentTurnRequest) (s : LoopState) : Kernel ContextSurface := do
  let contextRequest := s.contextRequest request
  let candidates ← readCandidates contextRequest s.rebuildAttempt
  let candidates ← orLeave candidates s.usage fun _ ↦ .failed .portFailure
  orLeave (surfaceOf request contextRequest candidates) s.usage derivationOutcome

/-- The identity of a model request. -/
def requestIdOf (request : AgentTurnRequest) (iteration requestOrdinal : Nat) : String :=
  request.executionId.text ++ ":" ++ toString iteration ++ ":" ++ toString requestOrdinal

/-- Builds the model request of an iteration. An index beyond the targets, on which the code would
panic, is never reached. -/
def buildModelRequest (request : AgentTurnRequest) (surface : ContextSurface)
    (iteration requestOrdinal targetIndex : Nat) (tools : List ToolDescriptor) :
    Except Unit ModelRequest := do
  let target ← okOr request.modelTargets[targetIndex]? ()
  let value : ModelRequest := {
    requestId := requestIdOf request iteration requestOrdinal
    targetId := target
    requiredCapabilities := request.requiredCapabilities
    inputItems := assembleModelInputs surface
    tools
    output := request.modelOutput
    traceMetadata := [("turn_id", request.turnId.text), ("execution_id", request.executionId.text)] }
  value.validate.mapError fun _ ↦ ()
  return value

/-- `checked_add` of one to a `u32` ordinal. -/
def nextOrdinal (requestOrdinal : Nat) : Except Unit Nat :=
  if requestOrdinal + 1 < 2 ^ 32 then .ok (requestOrdinal + 1) else .error ()

def modelFailure : ModelPortFailure → AgentFailureReason
  | .invalidRequest => .invalidInput
  | .unsupportedCapability => .requiredCapabilityUnavailable
  | .adapterInvariant => .invalidModelOutput
  | .requiredPortFailure => .portFailure

/-- The observer of an invocation: it forwards each event unless the execution is cancelled, and
remembers whether a forward failed. -/
def forward (request : AgentTurnRequest) :
    ModelRun → Bool → Kernel (Except ModelPortFailure InvokeOutcome × Bool)
  | .returned result, failed => do
    modelReturned result
    return (result, failed)
  | .observed event next, failed => do
    let cancelled ← isCancelled
    if cancelled then
      forward request (next .cancel) failed
    else
      let answer ← emit (agentEvent request (.modelStream event))
      match answer with
      | .error _ => forward request (next .cancel) true
      | .ok () => forward request (next .proceed) failed

/-- Invokes the model under the observer. -/
def runModel (request : AgentTurnRequest) (usage : UsageAccumulator) (modelRequest : ModelRequest) :
    Kernel InvokeOutcome := do
  let run ← invokeModel modelRequest
  let (result, observerFailed) ← forward request run false
  leaveIf observerFailed usage (.failed .portFailure)
  orLeave result usage fun failure ↦ .failed (modelFailure failure)

/-- The binding of a suspension is the one its requirement asks for. -/
def suspensionBinds (requirement : SuspensionRequirement) (binding : GovernedSuspensionBinding) :
    Bool :=
  match requirement, binding with
  | .interaction request, .interaction suspensionId interactionId invocationId preparedDigest =>
    suspensionId ≠ "" ∧ interactionId = request.interactionId ∧ invocationId = request.invocationId ∧
      preparedDigest = request.preparedDigest
  | .operatorReconciliation _, .operatorReconciliation suspensionId invocationId preparedDigest =>
    suspensionId ≠ "" ∧ invocationId ≠ "" ∧ preparedDigest ≠ ""
  | _, _ => false

def SuspensionRequirement.reason : SuspensionRequirement → SuspensionReason
  | interaction { kind := .approval, .. } => .approvalRequired
  | interaction { kind := .externalInput, .. } => .externalInputRequired
  | operatorReconciliation _ => .operatorReconciliation

/-- The outcome of a governed result that suspends. -/
def suspensionOutcome (items : List ModelItem) (committed : CommittedGovernedResult)
    (requirement : SuspensionRequirement) : AgentOutcome :=
  match committed.suspensionBinding with
  | none => .failed .invariantViolation
  | some binding =>
    if suspensionBinds requirement binding then
      .suspended requirement.reason items committed.throughPosition (some binding)
    else
      .failed .invariantViolation

def governedFailure : GovernedFailureCode → AgentFailureReason
  | .invalidModelOutput => .invalidModelOutput
  | _ => .invariantViolation

/-- The call an intent is prepared as, by the preparation port if there is one. -/
def KernelSetup.prepare (setup : KernelSetup) (intent : ToolIntent) :
    Except PreparationError PreparedToolCall :=
  match setup.preparation with
  | some port => port intent
  | none => setup.catalog.prepare setup.lib intent

/-- Hands one intent to the effect port: an invocation, or the rejection of its preparation. -/
def governIntent (setup : KernelSetup) (source : String) (intent : ToolIntent) :
    Kernel (Except PortFailure CommittedGovernedResult) :=
  match setup.prepare intent with
  | .ok prepared => invoke source prepared
  | .error error => reject source intent error

/-- Governs the intents of a response in order; `items` is the whole response. -/
def governToolIntents (setup : KernelSetup) (source : String) (usage : UsageAccumulator)
    (items : List ModelItem) : List ModelItem → Nat → Kernel Nat
  | [], position => pure position
  | .toolIntent modelCallId toolName argumentsJson :: rest, position => do
    let cancelled ← isCancelled
    leaveIf cancelled usage (.stopped .cancelled)
    let committed ← governIntent setup source { modelCallId, toolName, argumentsJson }
    let committed ← orLeave committed usage fun _ ↦ .failed .portFailure
    leaveIf (decide (committed.throughPosition < position)) usage (.failed .invariantViolation)
    match committed.result with
    | .observation => governToolIntents setup source usage items rest committed.throughPosition
    | .suspend requirement => leave usage (suspensionOutcome items committed requirement)
    | .fail code => leave usage (.failed (governedFailure code))
  | .text _ :: rest, position => governToolIntents setup source usage items rest position
  | .refusal _ :: rest, position => governToolIntents setup source usage items rest position
  | .reasoning _ :: rest, position => governToolIntents setup source usage items rest position
  | .toolObservation _ _ :: rest, position => governToolIntents setup source usage items rest position
  | .mediaReference _ _ :: rest, position => governToolIntents setup source usage items rest position

/-- Accounts for one invocation, leaving the iteration if that ends the execution. -/
def account (request : AgentTurnRequest) (usage : UsageAccumulator) (modelUsage : ModelUsage) :
    Kernel UsageAccumulator :=
  match accountOrLimit usage modelUsage request.recoveryPolicy request.limits.maxTotalTokens with
  | (usage, none) => pure usage
  | (usage, some outcome) => leave usage outcome

/-- What follows a complete response without tool intents. -/
def afterResponse (items : List ModelItem) (s : LoopState) : Kernel LoopState := do
  let advance ← advanceAfterModel s.throughPosition
  let advance ← orLeave advance s.usage fun _ ↦ .failed .portFailure
  match advance with
  | none => leave s.usage (.completed items s.usage.summary)
  | some advance =>
    leaveIf (!decide (advance.throughPosition > s.throughPosition)) s.usage (.failed .portFailure)
    return { s with throughPosition := advance.throughPosition }

/-- What follows a complete response. -/
def settleCompleted (setup : KernelSetup) (s : LoopState) (requestId : String)
    (items : List ModelItem) (modelUsage : ModelUsage) : Kernel LoopState := do
  let usage ← account setup.request s.usage modelUsage
  leaveIf (items.any ModelItem.isToolObservation) usage (.failed .invalidModelOutput)
  if items.any ModelItem.isToolIntent then
    leaveIf (!setup.effects) usage (.failed .requiredCapabilityUnavailable)
    let position ← governToolIntents setup requestId usage items items s.throughPosition
    return { s with usage, throughPosition := position }
  else
    afterResponse items { s with usage }

def recoveryOutcome (action : TerminalRecoveryAction) (throughPosition : Nat) : AgentOutcome :=
  match action with
  | .suspend => .suspended .resourceUnavailable [] throughPosition none
  | .alternateThenSuspend => .suspended .resourceUnavailable [] throughPosition none
  | .stop => .stopped .resourceUnavailable
  | .fail => .failed .portFailure

/-- What follows a response cut off at its output limit. -/
def settleOutputLimit (request : AgentTurnRequest) (s : LoopState) (partialItems : List ModelItem) :
    Kernel LoopState :=
  match request.recoveryPolicy.outputLimit with
  | .completePartial =>
    if partialItems.any ModelItem.isToolIntent then
      leave s.usage (.failed .requiredCapabilityUnavailable)
    else
      leave s.usage (.completed partialItems s.usage.summary)
  | .retry maxRetries =>
    if s.outputRetries < maxRetries then
      pure { s with outputRetries := s.outputRetries + 1 }
    else
      leave s.usage (.suspended .partialOutput partialItems s.throughPosition none)
  | .suspend => leave s.usage (.suspended .partialOutput partialItems s.throughPosition none)
  | .stop => leave s.usage (.stopped .tokenLimit)
  | .fail => leave s.usage (.failed .invalidModelOutput)

/-- What follows an interruption. -/
def settleInterrupted (request : AgentTurnRequest) (s : LoopState) (kind : InterruptionKind)
    (partialItems : List ModelItem) (modelUsage : ModelUsage) : Kernel LoopState := do
  let usage ← account request s.usage modelUsage
  match kind with
  | .cancelled => leave usage (.stopped .cancelled)
  | .outputLimit => settleOutputLimit request { s with usage } partialItems
  | .transport => leave usage (recoveryOutcome request.recoveryPolicy.transport s.throughPosition)

/-- What follows the outcome of an invocation: a way out, or the state of the next iteration. -/
def settle (setup : KernelSetup) (s : LoopState) (requestId : String) :
    InvokeOutcome → Kernel LoopState
  | .completed items modelUsage _ => settleCompleted setup s requestId items modelUsage
  | .rejected .contextOverflow _ =>
    if s.rebuildAttempt < setup.request.recoveryPolicy.maxContextRebuilds then
      pure { s with rebuildAttempt := s.rebuildAttempt + 1 }
    else
      leave s.usage (.failed .invalidModelOutput)
  | .rejected .authentication _ => leave s.usage (.failed .invalidModelOutput)
  | .rejected .contentPolicy _ => leave s.usage (.failed .invalidModelOutput)
  | .interrupted kind partialItems modelUsage =>
    settleInterrupted setup.request s kind partialItems modelUsage
  | .unavailable _ _ =>
    if setup.request.recoveryPolicy.unavailable = .alternateThenSuspend ∧
        s.targetIndex + 1 < setup.request.modelTargets.length then
      pure { s with targetIndex := s.targetIndex + 1 }
    else
      leave s.usage (recoveryOutcome setup.request.recoveryPolicy.unavailable s.throughPosition)

/-- The model request of an iteration, once its context is derived. -/
def prepareRequest (setup : KernelSetup) (iteration : Nat) (s : LoopState) (requestOrdinal : Nat)
    (surface : ContextSurface) : Kernel ModelRequest := do
  let modelRequest ← orLeave (buildModelRequest setup.request surface iteration requestOrdinal
    s.targetIndex setup.toolDescriptors) s.usage fun _ ↦ .failed .invalidInput
  let admission ← preflight modelRequest
  orLeave admission s.usage fun failure ↦ .failed (modelFailure failure)
  emitting setup.request s.usage (.modelRequestPrepared modelRequest.requestId modelRequest.targetId)
  return modelRequest

/-- One iteration, from its start to the state of the next one. -/
def iterate (setup : KernelSetup) (iteration : Nat) (s : LoopState) : Kernel LoopState := do
  emitting setup.request s.usage (.iterationStarted iteration)
  let surface ← readSurface setup.request s
  emitting setup.request s.usage (.contextDerived surface.itemCount surface.utf8Bytes)
  let cancelled ← isCancelled
  leaveIf cancelled s.usage (.stopped .cancelled)
  let requestOrdinal ← orLeave (nextOrdinal s.requestOrdinal) s.usage fun _ ↦
    .failed .invariantViolation
  let modelRequest ← prepareRequest setup iteration s requestOrdinal surface
  let outcome ← runModel setup.request s.usage modelRequest
  settle setup { s with requestOrdinal } modelRequest.requestId outcome

/-- The kernel loop. -/
def kernelLoop (setup : KernelSetup) (control : ExecutionControl) (s : LoopState) :
    Program kernelPorts ExecutionReport :=
  (checkBoundary setup.request s.usage).run >>= fun
  | .error (outcome, usage) => finish setup.request control usage outcome
  | .ok () =>
    match _h : control.beginIteration with
    | .error _ => finish setup.request control s.usage (.failed .invariantViolation)
    | .ok (.iterationLimitReached, closed) =>
      finish setup.request closed s.usage (.stopped .iterationLimit)
    | .ok (.started iteration, next) =>
      (iterate setup iteration s).run >>= fun
      | .error (outcome, usage) => finish setup.request next usage outcome
      | .ok s => kernelLoop setup next s
termination_by control.maxIterations - control.completedIterations
decreasing_by
  have hstarted := ExecutionControl.beginIteration_eq_started _h
  have hwithin := next.within
  omega

def toolDescriptor (lib : Preparing) (definition : ToolDefinition) : Except Unit ToolDescriptor := do
  let inputSchemaJson ← okOr (lib.toText definition.inputSchema) ()
  return {
    name := definition.name
    description := definition.description
    definitionRevision := definition.revision
    inputSchemaJson
    strict := true }

def prepareControl (request : AgentTurnRequest) : Except Unit ExecutionControl := do
  request.validate.mapError fun _ ↦ ()
  (ExecutionControl.new request.cursor.completedIterations request.limits.maxIterations).mapError
    fun _ ↦ ()

def invalidReport (request : AgentTurnRequest) : ExecutionReport :=
  { outcome := .failed .invalidInput
    completedIterations := request.cursor.completedIterations
    usage := UsageAccumulator.initial.summary }

/-- The state the loop starts in. -/
def LoopState.initial (request : AgentTurnRequest) : LoopState :=
  { usage := UsageAccumulator.initial
    rebuildAttempt := 0
    outputRetries := 0
    targetIndex := 0
    requestOrdinal := 0
    throughPosition := request.contextRequest.throughPosition }

/-- What an execution freezes of its tools. -/
def KernelSetup.new (lib : Preparing) (request : AgentTurnRequest) (definitions : List ToolDefinition)
    (preparation : Option (ToolIntent → Except PreparationError PreparedToolCall)) (effects : Bool) :
    Except Unit KernelSetup := do
  let catalog ← (ToolCatalog.new definitions).mapError fun _ ↦ ()
  let toolDescriptors ← collect (definitions.map (toolDescriptor lib))
  return { request, lib, catalog, toolDescriptors, preparation, effects }

/-- Announces the execution and enters the loop. -/
def startKernel (setup : KernelSetup) (control : ExecutionControl) :
    Program kernelPorts ExecutionReport :=
  (emitting setup.request UsageAccumulator.initial .executionStarted).run >>= fun
  | .error (outcome, usage) => finish setup.request control usage outcome
  | .ok () => kernelLoop setup control (LoopState.initial setup.request)

/-- Runs one bounded execution. -/
def executeKernel (lib : Preparing) (request : AgentTurnRequest) (definitions : List ToolDefinition)
    (preparation : Option (ToolIntent → Except PreparationError PreparedToolCall)) (effects : Bool) :
    Program kernelPorts ExecutionReport :=
  match prepareControl request with
  | .error () => .done (invalidReport request)
  | .ok control =>
    match KernelSetup.new lib request definitions preparation effects with
    | .error () => finish request control UsageAccumulator.initial (.failed .invalidInput)
    | .ok setup => startKernel setup control

/-- Runs one bounded execution without tools. -/
def executeModelOnly (lib : Preparing) (request : AgentTurnRequest) :
    Program kernelPorts ExecutionReport :=
  executeKernel lib request [] none false

end Garive
