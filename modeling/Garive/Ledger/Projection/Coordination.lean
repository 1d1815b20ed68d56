import Garive.Ledger.Projection.State

/-!
# The session projection: schedules and delegations

The operations of schedules, which belong to the session alone, and of delegations, which tie a
suspended parent turn to the child turn that works for it.
-/

namespace Garive.SessionProjection

variable (lib : Externals) (p : SessionProjection) (fact : FactDraft)

/-! ## Schedules -/

def createSchedule : Except LedgerError SessionProjection := do
  let payload ← payloadOf lib fact
  let schedule ← textOf payload "schedule_id"
  let revision ← textOf payload "revision_id"
  let intent ← textOf payload "intent_digest"
  ensure (p.schedules[schedule]?.all (fun existing ↦
    existing.state == .superseding && existing.revisionId != revision) = true) .invalidTransition
  let record : ScheduleRecord :=
    { revisionId := revision, intentDigest := intent, lastHandledOrdinal := 0, pendingClaim := none
      state := .active }
  return { p with schedules := p.schedules.insert schedule record }

/-- The active schedule a payload names, at the revision it names. -/
def activeSchedule (payload : Object) : Except LedgerError (String × ScheduleRecord) := do
  let schedule ← textOf payload "schedule_id"
  let record ← okOr p.schedules[schedule]? .invalidTransition
  ensure (record.state = .active) .invalidTransition
  let revision ← textOf payload "revision_id"
  ensure (record.revisionId = revision) .invalidTransition
  return (schedule, record)

/-- A claim is for the next occurrence, or renews the pending one under a later lease. -/
def claimValid (record : ScheduleRecord) (claim : ScheduleClaim) (next : Nat) : Bool :=
  match record.pendingClaim with
  | none => claim.ordinal == next
  | some pending =>
    pending.ordinal == claim.ordinal && pending.occurrenceId == claim.occurrenceId
      && pending.dueAtUtc == claim.dueAtUtc && decide (pending.leaseEpoch < claim.leaseEpoch)

def claimSchedule : Except LedgerError SessionProjection := do
  let payload ← payloadOf lib fact
  let (schedule, record) ← p.activeSchedule payload
  let ordinal ← unsignedOf payload "ordinal"
  let occurrence ← textOf payload "occurrence_id"
  let due ← textOf payload "due_at_utc"
  let epoch ← unsignedOf payload "lease_epoch"
  let next ← okOr (checkedAdd record.lastHandledOrdinal 1) .invalidTransition
  let claim : ScheduleClaim :=
    { occurrenceId := occurrence, ordinal, dueAtUtc := due, leaseEpoch := epoch }
  ensure (claimValid record claim next = true) .invalidTransition
  return { p with
    schedules := p.schedules.insert schedule { record with pendingClaim := some claim } }

def fireSchedule : Except LedgerError SessionProjection := do
  let payload ← payloadOf lib fact
  let (schedule, record) ← p.activeSchedule payload
  let ordinal ← unsignedOf payload "ordinal"
  let occurrence ← textOf payload "occurrence_id"
  ensure (record.pendingClaim.any (fun pending ↦
    pending.ordinal == ordinal && pending.occurrenceId == occurrence) = true) .invalidTransition
  let next := { record with lastHandledOrdinal := ordinal, pendingClaim := none }
  return { p with schedules := p.schedules.insert schedule next }

def skipSchedule : Except LedgerError SessionProjection := do
  let payload ← payloadOf lib fact
  let (schedule, record) ← p.activeSchedule payload
  let first ← unsignedOf payload "first_ordinal"
  let last ← unsignedOf payload "last_ordinal"
  ensure (record.pendingClaim = none ∧ checkedAdd record.lastHandledOrdinal 1 = some first)
    .invalidTransition
  return { p with
    schedules := p.schedules.insert schedule { record with lastHandledOrdinal := last } }

def cancelSchedule : Except LedgerError SessionProjection := do
  let payload ← payloadOf lib fact
  let schedule ← textOf payload "schedule_id"
  let record ← okOr p.schedules[schedule]? .invalidTransition
  ensure (record.state = .active ∧ record.pendingClaim = none) .invalidTransition
  let revision ← textOf payload "expected_revision_id"
  ensure (record.revisionId = revision) .invalidTransition
  let reason ← textOf payload "reason"
  let state := if reason = "superseded" then ScheduleState.superseding else .cancelled
  return { p with schedules := p.schedules.insert schedule { record with state } }

/-- The occurrence a failure names is the pending one, or the next one when none is pending. -/
def failureMatches (record : ScheduleRecord) (occurrence : Option String)
    (ordinal : Option Nat) : Bool :=
  match record.pendingClaim, occurrence, ordinal with
  | none, none, none => true
  | none, some _, some number => checkedAdd record.lastHandledOrdinal 1 == some number
  | some pending, some id, some number => pending.occurrenceId == id && pending.ordinal == number
  | _, _, _ => false

def failSchedule : Except LedgerError SessionProjection := do
  let payload ← payloadOf lib fact
  let (schedule, record) ← p.activeSchedule payload
  ensure (failureMatches record ((payload.get? "occurrence_id").bind Value.asStr)
    ((payload.get? "ordinal").bind Value.asU64) = true) .invalidTransition
  let next := { record with pendingClaim := none, state := .failed }
  return { p with schedules := p.schedules.insert schedule next }

def exhaustSchedule : Except LedgerError SessionProjection := do
  let payload ← payloadOf lib fact
  let (schedule, record) ← p.activeSchedule payload
  ensure (record.pendingClaim = none) .invalidTransition
  let last ← unsignedOf payload "last_handled_ordinal"
  ensure (record.lastHandledOrdinal = last) .invalidTransition
  return { p with
    schedules := p.schedules.insert schedule { record with state := .exhausted } }

/-! ## Delegations -/

def requestDelegation : Except LedgerError SessionProjection := do
  p.requireActiveExecution fact
  let turn ← required fact.turnId
  let execution ← required fact.executionId
  let payload ← payloadOf lib fact
  let id ← textOf payload "delegation_id"
  ensure (p.delegations[id]? = none
    ∧ ¬Map.any p.delegations (fun _ item ↦ item.parentTurn == turn && !item.state.isSettled) = true)
    .invalidTransition
  let agent ← textOf payload "parent_agent_instance_id"
  ensure (p.turnAgents[turn]?.map (·.1) = some agent) .invalidTransition
  let intent ← textOf payload "intent_digest"
  let record : DelegationRecord :=
    { parentTurn := turn, parentExecution := execution, intentDigest := intent, grantId := none
      suspensionId := none, childTurn := none, resultId := none, resultDigest := none
      inputAdmitted := false, state := .requested }
  return { p with delegations := p.delegations.insert id record }

/-- The delegation a payload names, in the state the fact follows and owned by the fact's turn and
execution. -/
def ownedDelegation (payload : Object) (state : DelegationState) :
    Except LedgerError (String × DelegationRecord) := do
  let id ← textOf payload "delegation_id"
  let record ← okOr p.delegations[id]? .missingReference
  ensure (record.state = state) .invalidTransition
  let turn ← required fact.turnId
  ensure (record.parentTurn = turn) .invalidTransition
  let execution ← required fact.executionId
  ensure (record.parentExecution = execution) .invalidTransition
  return (id, record)

def authorizeDelegation : Except LedgerError SessionProjection := do
  p.requireActiveExecution fact
  let payload ← payloadOf lib fact
  let (id, record) ← p.ownedDelegation fact payload .requested
  let intent ← textOf payload "intent_digest"
  ensure (record.intentDigest = intent) .invalidTransition
  let grant ← textOf payload "grant_id"
  let next := { record with grantId := some grant, state := .authorized }
  return { p with delegations := p.delegations.insert id next }

def denyDelegation : Except LedgerError SessionProjection := do
  p.requireActiveExecution fact
  let payload ← payloadOf lib fact
  let (id, record) ← p.ownedDelegation fact payload .requested
  let intent ← textOf payload "intent_digest"
  ensure (record.intentDigest = intent) .invalidTransition
  return { p with delegations := p.delegations.insert id { record with state := .denied } }

/-- The child turn a payload names. -/
def childTurnOf (payload : Object) : Except LedgerError TurnId := do
  let text ← textOf payload "child_turn_id"
  okOr (LedgerIdentity.tryFrom text) .invalidFact

/-- The child turn starts in the commit that suspends its parent. -/
def startDelegationChild : Except LedgerError SessionProjection := do
  let payload ← payloadOf lib fact
  let child ← childTurnOf payload
  let (id, record) ← p.ownedDelegation fact payload .authorized
  let grant ← textOf payload "grant_id"
  ensure (record.grantId = some grant ∧ p.turnsSuspendedInCommit.contains record.parentTurn = true
    ∧ p.turnsStartedInCommit.contains child = true) .invalidTransition
  let agent ← textOf payload "child_agent_instance_id"
  ensure (p.turnAgents[child]?.map (·.1) = some agent) .invalidTransition
  let snapshot ← textOf payload "child_snapshot_digest"
  ensure (p.turnAgents[child]?.map (·.2) = some snapshot) .invalidTransition
  let suspension ← textOf payload "suspension_id"
  ensure (p.suspensions[record.parentTurn]? = some suspension) .invalidTransition
  let next := { record with
    suspensionId := some suspension, childTurn := some child, state := .started }
  return { p with delegations := p.delegations.insert id next }

/-- The child's result is recorded in the commit that ends the child turn. -/
def terminalDelegationChild : Except LedgerError SessionProjection := do
  let payload ← payloadOf lib fact
  let child ← childTurnOf payload
  let (id, record) ← p.ownedDelegation fact payload .started
  let grant ← textOf payload "grant_id"
  ensure (record.grantId = some grant) .invalidTransition
  let suspension ← textOf payload "suspension_id"
  ensure (record.suspensionId = some suspension ∧ record.childTurn = some child
    ∧ p.turnsTerminalInCommit.contains child = true) .invalidTransition
  let result ← textOf payload "result_id"
  let digest ← textOf payload "result_digest"
  let next := { record with
    resultId := some result, resultDigest := some digest, state := .terminal }
  return { p with delegations := p.delegations.insert id next }

def observeDelegation : Except LedgerError SessionProjection := do
  let payload ← payloadOf lib fact
  let (id, record) ← p.ownedDelegation fact payload .terminal
  let grant ← textOf payload "grant_id"
  ensure (record.grantId = some grant) .invalidTransition
  let suspension ← textOf payload "suspension_id"
  ensure (record.suspensionId = some suspension) .invalidTransition
  let result ← textOf payload "result_id"
  ensure (record.resultId = some result) .invalidTransition
  let digest ← textOf payload "result_digest"
  ensure (record.resultDigest = some digest) .invalidTransition
  return { p with delegations := p.delegations.insert id { record with state := .observed } }

end Garive.SessionProjection
