import Garive.Ledger.Projection.State

/-!
# The session projection: turns, executions, models, knowledge

The operations by which facts open and close turns and executions, and by which an execution runs
its model and knowledge requests. Every operation either fails or returns the whole next state.
-/

namespace Garive.SessionProjection

variable (lib : Externals) (p : SessionProjection) (fact : FactDraft)

/-! ## Sessions -/

/-- Closes a session in which nothing is left to happen. -/
def closeSession : Except LedgerError SessionProjection := do
  ensure (¬(Map.any p.turns (fun _ state ↦ state == .open || state == .suspended)
    || Map.any p.executions (fun _ entry ↦ entry.2 == .active)
    || p.hasRecoveryPendingInvocation none
    || Map.any p.schedules (fun _ record ↦ record.state == .active)
    || Map.any p.delegations (fun _ record ↦ !record.state.isSettled)) = true) .invalidTransition
  return { p with closed := true }

/-! ## Turns -/

/-- Whether a turn may start, given its current state. -/
def startTurnValid (turn : TurnId) (kind : String) (prior : Option String) : Bool :=
  match p.turns[turn]? with
  | none => kind == "start" && prior.isNone
  | some .suspended =>
    kind == "continue" && p.suspensions[turn]? == prior && !p.hasPendingInteractionForTurn turn
      && p.delegationContinuationReady turn prior
  | _ => false

/-- Opens a new turn or continues a suspended one. -/
def startTurn : Except LedgerError SessionProjection := do
  let turn ← required fact.turnId
  let payload ← payloadOf lib fact
  let kind ← textOf payload "kind"
  let prior := (payload.get? "prior_suspension_id").bind Value.asStr
  ensure (p.startTurnValid turn kind prior = true) .invalidTransition
  if kind = "start" then do
    let agent ← textOf payload "agent_instance_id"
    let snapshot ← textOf payload "snapshot_digest"
    return { p with
      turns := p.turns.insert turn .open
      turnAgents := p.turnAgents.insert turn (agent, snapshot)
      turnsStartedInCommit := p.turnsStartedInCommit.insert turn
      suspensions := p.suspensions.erase turn }
  else
    return { p with
      turns := p.turns.insert turn .open
      suspensions := p.suspensions.erase turn }

/-- Whether a turn may move on, given its current state. -/
def turnMoves : TurnState → TurnState → Bool
  | current, .suspended => current == .open
  | current, .completed => current == .open
  | current, .stopped => current == .open || current == .suspended
  | current, .failed => current == .open || current == .suspended
  | _, .open => false

/-- Moves a turn without active executions; only suspension may leave interactions unresolved. -/
def transitionTurn (turn : TurnId) (next : TurnState) : Except LedgerError SessionProjection := do
  let current ← okOr p.turns[turn]? .missingReference
  ensure (turnMoves current next = true) .invalidTransition
  ensure (¬Map.any p.executions (fun _ entry ↦ entry.1 == turn && entry.2 == .active) = true)
    .invalidTransition
  ensure (¬(next ≠ .suspended ∧ p.hasPendingInteractionForTurn turn = true)) .invalidTransition
  return { p with turns := p.turns.insert turn next }

/-- The execution a turn's ending names. -/
def endingExecution (payload : Object) : Except LedgerError ExecutionId := do
  let text ← textOf payload "execution_id"
  okOr (LedgerIdentity.tryFrom text) .invalidFact

def suspendTurn : Except LedgerError SessionProjection := do
  let turn ← required fact.turnId
  let payload ← payloadOf lib fact
  let execution ← endingExecution payload
  ensure (p.executions[execution]? = some (turn, .suspended)) .invalidTransition
  let moved ← p.transitionTurn turn .suspended
  let suspension ← textOf payload "suspension_id"
  let reason ← textOf payload "reason"
  return { moved with
    suspensions := p.suspensions.insert turn suspension
    turnsSuspendedInCommit := if reason = "delegation_pending"
      then p.turnsSuspendedInCommit.insert turn else p.turnsSuspendedInCommit }

/-- The execution state a terminal turn state calls for. -/
def expectedExecution : TurnState → Option ExecutionState
  | .completed => some .completed
  | .stopped => some .stopped
  | .failed => some .failed
  | _ => none

/-- Ends a turn with its execution, or closes a suspended turn whose execution stays suspended. -/
def terminalTurn (next : TurnState) : Except LedgerError SessionProjection := do
  let turn ← required fact.turnId
  let payload ← payloadOf lib fact
  let execution ← endingExecution payload
  let expected ← okOr (expectedExecution next) .invalidTransition
  let actual := p.executions[execution]?
  ensure (actual = some (turn, expected) ∨ (next = .stopped ∨ next = .failed)
    ∧ p.turns[turn]? = some .suspended ∧ actual = some (turn, .suspended)) .invalidTransition
  let moved ← p.transitionTurn turn next
  return { moved with turnsTerminalInCommit := p.turnsTerminalInCommit.insert turn }

/-- Admits input to a turn. Only a delegation result changes the state, by marking the first
delegation it belongs to. -/
def admitTurnInput : Except LedgerError SessionProjection := do
  let turn ← required fact.turnId
  let payload ← payloadOf lib fact
  let kind ← textOf payload "input_kind"
  if kind = "delegation_result" then do
    let suspension ← textOf payload "suspension_id"
    let content ← objectOf payload "content"
    let digest ← textOf content "digest"
    let found ← okOr (Map.find? p.delegations fun _ record ↦
      record.parentTurn == turn && record.state == .observed
        && record.suspensionId == some suspension && record.resultDigest == some digest)
      .invalidTransition
    return { p with
      delegations := p.delegations.insert found.1 { found.2 with inputAdmitted := true } }
  else if kind = "trusted_user" ∨ kind = "trusted_system" then do
    p.requireOpenTurn turn
    return p
  else do
    ensure (p.turns[turn]? = some .suspended
      ∧ p.suspensions[turn]? = (payload.get? "suspension_id").bind Value.asStr) .invalidTransition
    return p

/-- Admits a steering message, into an open turn only. -/
def admitTurnSteered : Except LedgerError SessionProjection := do
  let turn ← required fact.turnId
  match p.turns[turn]? with
  | some .open => .ok p
  | some _ => .error .invalidTransition
  | none => .error .missingReference

def cancelRequested : Except LedgerError SessionProjection := do
  let turn ← required fact.turnId
  p.requireNonTerminalTurn turn
  return p

/-! ## Executions -/

def startExecution : Except LedgerError SessionProjection := do
  let turn ← required fact.turnId
  p.requireOpenTurn turn
  let execution ← required fact.executionId
  ensure (p.executions[execution]? = none) .invalidTransition
  let payload ← payloadOf lib fact
  let iterations ← unsignedOf payload "completed_iterations"
  return { p with
    executions := p.executions.insert execution (turn, .active)
    executionIterations := p.executionIterations.insert execution iterations }

def startIteration : Except LedgerError SessionProjection := do
  p.requireActiveExecution fact
  let execution ← required fact.executionId
  let payload ← payloadOf lib fact
  let iteration ← unsignedOf payload "iteration"
  let current ← okOr p.executionIterations[execution]? .missingReference
  ensure (checkedAdd current 1 = some iteration) .invalidTransition
  return { p with executionIterations := p.executionIterations.insert execution iteration }

/-- Ends an execution with no invocation in flight and no knowledge request pending; only
suspension may leave interactions unresolved. -/
def transitionExecution (next : ExecutionState) : Except LedgerError SessionProjection := do
  let execution ← required fact.executionId
  let turn ← required fact.turnId
  let entry ← okOr p.executions[execution]? .missingReference
  ensure (entry = (turn, .active)) .invalidTransition
  ensure (¬(p.hasRecoveryPendingInvocation (some execution) = true
    ∨ p.hasPendingKnowledge execution = true
    ∨ next ≠ .suspended ∧ p.hasPendingInteraction execution = true)) .invalidTransition
  return { p with executions := p.executions.insert execution (turn, next) }

/-! ## Model requests -/

def prepareModel : Except LedgerError SessionProjection := do
  p.requireActiveExecution fact
  let request ← required fact.modelRequestId
  let execution ← required fact.executionId
  ensure (p.models[request]? = none) .invalidTransition
  let payload ← payloadOf lib fact
  let digest ← textOf payload "request_digest"
  return { p with
    models := p.models.insert request (execution, .prepared)
    modelDigests := p.modelDigests.insert request digest }

/-- A model request starts once and then reaches any outcome. -/
def modelMoves (current next : InvocationState) : Bool :=
  current == .prepared && next == .started
    || current == .started && !(next == .prepared || next == .started)

def transitionModel (next : InvocationState) : Except LedgerError SessionProjection := do
  p.requireActiveExecution fact
  let request ← required fact.modelRequestId
  let execution ← required fact.executionId
  let entry ← okOr p.models[request]? .missingReference
  ensure (entry.1 = execution) .invalidTransition
  let payload ← payloadOf lib fact
  let digest ← textOf payload "request_digest"
  ensure (p.modelDigests[request]? = some digest) .invalidTransition
  ensure (modelMoves entry.2 next = true) .invalidTransition
  return { p with models := p.models.insert request (execution, next) }

/-! ## Knowledge requests -/

def requestKnowledge : Except LedgerError SessionProjection := do
  p.requireActiveExecution fact
  let execution ← required fact.executionId
  let payload ← payloadOf lib fact
  let request ← textOf payload "request_id"
  let digest ← textOf payload "request_digest"
  ensure (p.knowledge[request]? = none) .invalidTransition
  let record : KnowledgeRecord :=
    { execution, requestDigest := digest, dispatchAttempts := [], terminal := false }
  return { p with knowledge := p.knowledge.insert request record }

def dispatchKnowledge : Except LedgerError SessionProjection := do
  p.requireActiveExecution fact
  let execution ← required fact.executionId
  let payload ← payloadOf lib fact
  let request ← textOf payload "request_id"
  let record ← okOr p.knowledge[request]? .invalidTransition
  let attempt ← textOf payload "dispatch_attempt_id"
  ensure (record.execution = execution ∧ record.terminal = false) .invalidTransition
  let digest ← textOf payload "request_digest"
  ensure (record.requestDigest = digest ∧ attempt ∉ record.dispatchAttempts) .invalidTransition
  let next := { record with dispatchAttempts := attempt :: record.dispatchAttempts }
  return { p with knowledge := p.knowledge.insert request next }

/-- Whether the phase a terminal fact reports agrees with the dispatches so far. -/
def knowledgePhase (payload : Object) (dispatched : Bool) : Except LedgerError Bool :=
  if fact.kind = .known .knowledgeCompleted then .ok dispatched
  else do
    let phase ← textOf payload "phase"
    return if phase = "pre_dispatch" then !dispatched
      else (phase == "dispatched" || phase == "response_validation") && dispatched

def terminalKnowledge : Except LedgerError SessionProjection := do
  p.requireActiveExecution fact
  let execution ← required fact.executionId
  let payload ← payloadOf lib fact
  let request ← textOf payload "request_id"
  let record ← okOr p.knowledge[request]? .invalidTransition
  let validPhase ← knowledgePhase fact payload (!record.dispatchAttempts.isEmpty)
  ensure (record.execution = execution ∧ record.terminal = false) .invalidTransition
  let digest ← textOf payload "request_digest"
  ensure (record.requestDigest = digest ∧ validPhase = true) .invalidTransition
  return { p with knowledge := p.knowledge.insert request { record with terminal := true } }

end Garive.SessionProjection
