import Garive.Ledger.RuntimeFacts.Validate
import Garive.Lib.Map

/-!
# The session projection: state

What a session's facts add up to. The projection keeps one record per turn, execution, model
request, tool invocation, interaction, knowledge request, schedule and delegation, and four sets
that only live for the duration of one commit.

Reading a fact's payload can fail, with `invalidFact`; a missing envelope identity is a
`missingReference`; and a fact that does not fit the state is an `invalidTransition`.
-/

namespace Garive

inductive TurnState where
  | «open»
  | suspended
  | completed
  | stopped
  | failed
deriving DecidableEq

inductive ExecutionState where
  | active
  | abandoned
  | completed
  | suspended
  | stopped
  | failed
deriving DecidableEq

/-- The states of a model request or a tool invocation. -/
inductive InvocationState where
  | prepared
  | authorized
  | started
  | receipt
  | completed
  | rejected
  | interrupted
  | unavailable
  | failed
  | denied
  | uncertain
  | reconciled
  | observed
deriving DecidableEq

structure InteractionRecord where
  execution : ExecutionId
  tool : ToolInvocationId
  suspensionId : String
  preparedDigest : String
  terminal : Bool
deriving DecidableEq

structure KnowledgeRecord where
  execution : ExecutionId
  requestDigest : String
  dispatchAttempts : List String
  terminal : Bool
deriving DecidableEq

structure EffectBatchRecord where
  tools : List ToolInvocationId
  nextStart : Nat
deriving DecidableEq

inductive SafetyDecisionState where
  | allow
  | deny
  | interactionRequired
deriving DecidableEq

structure SandboxProofRecord where
  bindingId : String
  executorId : String
  executorRevision : String
  grantId : Option String
  dispatchAttemptId : Option String
deriving DecidableEq

/-- The safety decision of a version-3 tool invocation, and its sandbox proof. -/
structure F0Record where
  decisionId : String
  disposition : SafetyDecisionState
  preparedDigest : String
  policyRevision : String
  constraintsDigest : Option String
  sandbox : Option SandboxProofRecord
deriving DecidableEq

inductive ScheduleState where
  | active
  | superseding
  | cancelled
  | failed
  | exhausted
deriving DecidableEq

structure ScheduleClaim where
  occurrenceId : String
  ordinal : Nat
  dueAtUtc : String
  leaseEpoch : Nat
deriving DecidableEq

structure ScheduleRecord where
  revisionId : String
  intentDigest : String
  lastHandledOrdinal : Nat
  pendingClaim : Option ScheduleClaim
  state : ScheduleState
deriving DecidableEq

inductive DelegationState where
  | requested
  | authorized
  | denied
  | started
  | terminal
  | observed
deriving DecidableEq

structure DelegationRecord where
  parentTurn : TurnId
  parentExecution : ExecutionId
  intentDigest : String
  grantId : Option String
  suspensionId : Option String
  childTurn : Option TurnId
  resultId : Option String
  resultDigest : Option String
  inputAdmitted : Bool
  state : DelegationState
deriving DecidableEq

/-- A delegation that needs no further fact. -/
def DelegationState.isSettled : DelegationState → Bool
  | denied | observed => true
  | _ => false

/-- The state a session's facts add up to. -/
structure SessionProjection where
  opened : Bool := false
  closed : Bool := false
  turns : Map TurnId TurnState := ∅
  executions : Map ExecutionId (TurnId × ExecutionState) := ∅
  executionIterations : Map ExecutionId Nat := ∅
  models : Map ModelRequestId (ExecutionId × InvocationState) := ∅
  modelDigests : Map ModelRequestId String := ∅
  tools : Map ToolInvocationId (ExecutionId × InvocationState) := ∅
  toolDigests : Map ToolInvocationId String := ∅
  toolRevisions : Map ToolInvocationId (String × String) := ∅
  toolAccessDigests : Map ToolInvocationId String := ∅
  toolSandboxDigests : Map ToolInvocationId String := ∅
  artifacts : List (String × Nat) := []
  toolContractVersions : Map ToolInvocationId UInt32 := ∅
  toolResultBytes : Map ToolInvocationId Nat := ∅
  toolBatchPlans : Map ToolInvocationId String := ∅
  effectBatches : Map String EffectBatchRecord := ∅
  f0 : Map ToolInvocationId F0Record := ∅
  toolGrants : Map ToolInvocationId String := ∅
  toolReceipts : Map ToolInvocationId String := ∅
  toolExecutors : Map ToolInvocationId (String × String) := ∅
  toolReconciledObservations : Map ToolInvocationId Value := ∅
  suspensions : Map TurnId String := ∅
  interactions : Map String InteractionRecord := ∅
  knowledge : Map String KnowledgeRecord := ∅
  schedules : Map String ScheduleRecord := ∅
  turnAgents : Map TurnId (String × String) := ∅
  delegations : Map String DelegationRecord := ∅
  turnsStartedInCommit : SetOf TurnId := ∅
  turnsSuspendedInCommit : SetOf TurnId := ∅
  turnsTerminalInCommit : SetOf TurnId := ∅
  toolsCompletedInCommit : SetOf ToolInvocationId := ∅

instance : Inhabited SessionProjection := ⟨{}⟩

/-! ## Reading a fact -/

/-- An envelope identity the operation cannot do without. -/
def required {α : Type} (value : Option α) : Except LedgerError α :=
  okOr value .missingReference

/-- The members of a fact's payload. -/
def payloadOf (lib : Externals) (fact : FactDraft) : Except LedgerError Object := do
  let value ← okOr (lib.fromStr fact.payload.json) .invalidFact
  okOr value.asObject .invalidFact

/-- The text of a payload field. -/
def textOf (value : Object) (key : String) : Except LedgerError String :=
  okOr ((value.get? key).bind Value.asStr) .invalidFact

/-- The number of a payload field. -/
def unsignedOf (value : Object) (key : String) : Except LedgerError Nat :=
  okOr ((value.get? key).bind Value.asU64) .invalidFact

/-- The members of a payload field. -/
def objectOf (value : Object) (key : String) : Except LedgerError Object :=
  okOr ((value.get? key).bind Value.asObject) .invalidFact

/-- The value a content binding holds inline, after checking its digest and canonical form. -/
def contentValue (lib : Externals) (value : Object) (key : String) : Except LedgerError Value := do
  let binding ← objectOf value key
  let json ← textOf binding "inline_utf8"
  let sha256 ← textOf binding "digest"
  let canonical ← (CanonicalPayload.fromCanonicalParts lib json sha256).mapError fun _ ↦ .invalidFact
  okOr (lib.fromStr canonical.json) .invalidFact

/-- The digest of a content binding. -/
def contentDigest (value : Object) (key : String) : Except LedgerError String := do
  let binding ← objectOf value key
  textOf binding "digest"

namespace SessionProjection

variable (p : SessionProjection)

/-! ## Questions about the state -/

/-- A started model request, or a started tool invocation without a terminal fact, optionally of
one execution. -/
def hasRecoveryPendingInvocation (execution : Option ExecutionId) : Bool :=
  let pending := fun (owner : ExecutionId) (state : InvocationState) ↦
    execution.all (· == owner) && (state == .started || state == .receipt)
  Map.any p.models (fun _ entry ↦ pending entry.1 entry.2)
    || Map.any p.tools (fun _ entry ↦ pending entry.1 entry.2)

/-- A knowledge request of the execution without a terminal fact. -/
def hasPendingKnowledge (execution : ExecutionId) : Bool :=
  Map.any p.knowledge fun _ record ↦ record.execution == execution && !record.terminal

/-- An unresolved interaction of the execution. -/
def hasPendingInteraction (execution : ExecutionId) : Bool :=
  Map.any p.interactions fun _ record ↦ record.execution == execution && !record.terminal

/-- An unresolved interaction of one of the turn's executions. -/
def hasPendingInteractionForTurn (turn : TurnId) : Bool :=
  Map.any p.interactions fun _ record ↦
    !record.terminal && p.executions[record.execution]?.any (·.1 == turn)

/-- Every delegation that waits on this suspension has been observed and its result admitted. -/
def delegationContinuationReady (turn : TurnId) (suspension : Option String) : Bool :=
  !Map.any p.delegations fun _ record ↦
    record.parentTurn == turn && record.suspensionId == suspension
      && !(record.state == .observed && record.inputAdmitted)

def requireOpenTurn (turn : TurnId) : Except LedgerError Unit :=
  ensure (p.turns[turn]? = some .open) .invalidTransition

def requireNonTerminalTurn (turn : TurnId) : Except LedgerError Unit :=
  match p.turns[turn]? with
  | some .open | some .suspended => .ok ()
  | some _ => .error .invalidTransition
  | none => .error .missingReference

def requireActiveExecution (fact : FactDraft) : Except LedgerError Unit := do
  let execution ← required fact.executionId
  let turn ← required fact.turnId
  match p.executions[execution]? with
  | some entry => ensure (entry = (turn, .active)) .invalidTransition
  | none => .error .missingReference

def requireSuspendedExecution (fact : FactDraft) : Except LedgerError Unit := do
  let turn ← required fact.turnId
  let execution ← required fact.executionId
  ensure (p.turns[turn]? = some .suspended
    ∧ p.executions[execution]? = some (turn, .suspended)) .invalidTransition

/-- Open or suspended turns, in order. -/
def recoverableTurns : List TurnId :=
  p.turns.toList.filterMap fun entry ↦
    if entry.2 = .open ∨ entry.2 = .suspended then some entry.1 else none

/-- Model requests that reached `started` without a terminal fact. -/
def uncertainModelRequests : List ModelRequestId :=
  p.models.toList.filterMap fun entry ↦ if entry.2.2 = .started then some entry.1 else none

/-- Tool invocations that reached `started` without a receipt or terminal fact. -/
def uncertainToolInvocations : List ToolInvocationId :=
  p.tools.toList.filterMap fun entry ↦ if entry.2.2 = .started then some entry.1 else none

end SessionProjection

end Garive
