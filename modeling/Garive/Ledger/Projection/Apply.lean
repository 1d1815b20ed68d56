import Garive.Ledger.Projection.Coordination
import Garive.Ledger.Projection.Effects
import Garive.Ledger.Projection.Lifecycle

/-!
# The session projection: applying facts

`SessionProjection.apply` folds one fact into the projection. It dispatches on the kind alone, never
on the schema version, and a kind it does not name leaves the projection as it is. A commit clears
the per-commit sets first, applies its facts in order, and checks the commit boundary last.
-/

namespace Garive.SessionProjection

/-- The operation of a kind, in an open session. -/
def applyKind (lib : Externals) (p : SessionProjection) (fact : FactDraft) :
    RuntimeKind → Except LedgerError SessionProjection
  | .sessionClosed => p.closeSession
  | .turnStarted => p.startTurn lib fact
  | .turnSuspended => p.suspendTurn lib fact
  | .turnCompleted => p.terminalTurn lib fact .completed
  | .turnStopped => p.terminalTurn lib fact .stopped
  | .turnFailed => p.terminalTurn lib fact .failed
  | .turnInput => p.admitTurnInput lib fact
  | .turnSteered => p.admitTurnSteered fact
  | .turnCancelRequested => p.cancelRequested fact
  | .executionStarted => p.startExecution lib fact
  | .executionIterationStarted => p.startIteration lib fact
  | .executionAbandoned => p.transitionExecution fact .abandoned
  | .executionCompleted => p.transitionExecution fact .completed
  | .executionSuspended => p.transitionExecution fact .suspended
  | .executionStopped => p.transitionExecution fact .stopped
  | .executionFailed => p.transitionExecution fact .failed
  | .executionEffectBatchPlanned => p.planEffectBatch lib fact
  | .modelPrepared => p.prepareModel lib fact
  | .modelStarted => p.transitionModel lib fact .started
  | .modelCompleted => p.transitionModel lib fact .completed
  | .modelRejected => p.transitionModel lib fact .rejected
  | .modelInterrupted => p.transitionModel lib fact .interrupted
  | .modelUnavailable => p.transitionModel lib fact .unavailable
  | .modelUncertain => p.transitionModel lib fact .uncertain
  | .effectPrepared => p.prepareTool lib fact
  | .safetyDecided => p.decideSafety lib fact
  | .effectAuthorized => p.transitionTool lib fact .authorized
  | .sandboxBound => p.bindSandbox lib fact
  | .sandboxPreflighted => p.preflightSandbox lib fact
  | .effectStarted => p.transitionTool lib fact .started
  | .effectReceipt => p.transitionTool lib fact .receipt
  | .effectCompleted => p.transitionTool lib fact .completed
  | .artifactCommitted => p.commitArtifact lib fact
  | .effectFailed => p.transitionTool lib fact .failed
  | .effectDenied => p.transitionTool lib fact .denied
  | .effectUncertain => p.transitionTool lib fact .uncertain
  | .effectReconciled => p.reconcileTool lib fact
  | .effectObservation => p.observeTool lib fact
  | .toolPreparationRejected => p.rejectToolPreparation lib fact
  | .interactionRequested => p.requestInteraction lib fact
  | .interactionResolved => p.finishInteraction lib fact
  | .interactionCancelled => p.finishInteraction lib fact
  | .knowledgeRequested => p.requestKnowledge lib fact
  | .knowledgeDispatched => p.dispatchKnowledge lib fact
  | .knowledgeCompleted => p.terminalKnowledge lib fact
  | .knowledgeFailed => p.terminalKnowledge lib fact
  | .scheduleCreated => p.createSchedule lib fact
  | .scheduleClaimed => p.claimSchedule lib fact
  | .scheduleFired => p.fireSchedule lib fact
  | .scheduleSkipped => p.skipSchedule lib fact
  | .scheduleCancelled => p.cancelSchedule lib fact
  | .scheduleFailed => p.failSchedule lib fact
  | .scheduleExhausted => p.exhaustSchedule lib fact
  | .delegationRequested => p.requestDelegation lib fact
  | .delegationAuthorized => p.authorizeDelegation lib fact
  | .delegationDenied => p.denyDelegation lib fact
  | .delegationChildStarted => p.startDelegationChild lib fact
  | .delegationChildTerminal => p.terminalDelegationChild lib fact
  | .delegationObserved => p.observeDelegation lib fact
  | _ => .ok p

/-- The operations read a payload as an object, and the contents that the object binds. -/
theorem applyKind_congr {lib lib' : Externals} {p : SessionProjection} {fact : FactDraft}
    {kind : RuntimeKind} {value : Object} (payload : CanonicalPayload)
    (hread : payloadOf lib fact = .ok value)
    (hread' : payloadOf lib' { fact with payload } = .ok value)
    (hcont : ∀ key, contentValue lib value key = contentValue lib' value key) :
    p.applyKind lib fact kind = p.applyKind lib' { fact with payload } kind := by
  cases kind <;> first
    | rfl
    | simp only [applyKind, startTurn, suspendTurn, terminalTurn, admitTurnInput, startExecution,
        startIteration, prepareModel, transitionModel, requestKnowledge, dispatchKnowledge,
        terminalKnowledge, prepareTool, rejectToolPreparation, planEffectBatch, requestInteraction,
        finishInteraction, transitionTool, decideSafety, bindSandbox, preflightSandbox, observeTool,
        reconcileTool, commitArtifact, createSchedule, claimSchedule, fireSchedule, skipSchedule,
        cancelSchedule, failSchedule, exhaustSchedule, requestDelegation, authorizeDelegation,
        denyDelegation, startDelegationChild, terminalDelegationChild, observeDelegation, hread, hread',
        ok_bind, hcont] <;> rfl

/-- Opens a session that has never been opened. -/
def openSession (p : SessionProjection) : Except LedgerError SessionProjection := do
  ensure (p.opened = false ∧ p.closed = false) .invalidTransition
  return { p with opened := true }

/-- Folds one fact into the projection. -/
def apply (lib : Externals) (p : SessionProjection) (fact : FactDraft) :
    Except LedgerError SessionProjection := do
  fact.validate lib
  if fact.kind = .known .sessionOpened then p.openSession
  else do
    ensure (p.opened = true ∧ p.closed = false) .invalidTransition
    match fact.kind with
    | .known kind => p.applyKind lib fact kind
    | .other _ _ _ => .ok p

/-- Clears the sets that belong to one commit. -/
def beginCommit (p : SessionProjection) : SessionProjection :=
  { p with
    turnsStartedInCommit := ∅
    turnsSuspendedInCommit := ∅
    turnsTerminalInCommit := ∅
    toolsCompletedInCommit := ∅ }

/-- No schedule is left between two revisions, no parent suspended without starting its authorized
child, and no child ended without recording its result. -/
def validateCommitBoundary (p : SessionProjection) : Except LedgerError Unit :=
  ensure (¬(Map.any p.schedules (fun _ record ↦ record.state == .superseding)
    || Map.any p.delegations (fun _ record ↦
      p.turnsSuspendedInCommit.contains record.parentTurn && record.state == .authorized
        || record.childTurn.any (fun turn ↦
          p.turnsTerminalInCommit.contains turn && record.state == .started))) = true)
    .invalidTransition

theorem validateCommitBoundary_eq_ok_iff {p : SessionProjection} {u : Unit} :
    p.validateCommitBoundary = .ok u ↔
      (∀ (schedule : String) (record : ScheduleRecord), p.schedules[schedule]? = some record →
        record.state ≠ .superseding) ∧
      ∀ (id : String) (record : DelegationRecord), p.delegations[id]? = some record →
        ¬(p.turnsSuspendedInCommit.contains record.parentTurn ∧ record.state = .authorized) ∧
        ∀ child, record.childTurn = some child →
          ¬(p.turnsTerminalInCommit.contains child ∧ record.state = .started) := by
  simp only [validateCommitBoundary, ensure_eq_ok_iff, Bool.not_eq_true, Bool.or_eq_false_iff,
    Map.any_eq_false_iff]
  refine and_congr ?_ ?_
  · exact forall₃_congr fun _ _ _ ↦ beq_eq_false_iff_ne
  · refine forall₃_congr fun _ record _ ↦ and_congr ?_ ?_
    · rw [← Bool.not_eq_true, Bool.and_eq_true, beq_iff_eq]
    · cases record.childTurn with
      | none => simp
      | some child =>
        simp only [Option.any_some, Option.some.injEq, forall_eq']
        rw [← Bool.not_eq_true, Bool.and_eq_true, beq_iff_eq]

/-- Folds a batch of facts into the projection. -/
def applyAll (lib : Externals) (p : SessionProjection) :
    List FactDraft → Except LedgerError SessionProjection
  | [] => .ok p
  | fact :: rest => do
    let next ← p.apply lib fact
    applyAll lib next rest

end Garive.SessionProjection
