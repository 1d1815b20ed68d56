import Garive.Ledger.Projection.Step

/-!
# What an operation leaves alone

The tables of a projection fall into three parts that are written by different kinds of facts: the
tables of tool invocations, the tables of turns and delegations, and the schedules. The operation of
a kind writes at most one of them, so an invariant of one part only has to look at the kinds that
write it.
-/

namespace Garive

/-- A part of the projection. -/
inductive Part where
  | tools
  | turns
  | schedules
  | rest
deriving DecidableEq

/-- The part a kind's operation writes. -/
def RuntimeKind.writes : RuntimeKind → Part
  | .executionEffectBatchPlanned | .safetyDecided | .sandboxBound | .sandboxPreflighted => .tools
  | .turnStarted | .turnSuspended | .turnCompleted | .turnStopped | .turnFailed | .turnInput => .turns
  | kind =>
    match kind.ns with
    | .effect => .tools
    | .delegation => .turns
    | .schedule => .schedules
    | _ => .rest

/-- The part a fact of the kind writes. -/
def FactKind.writes : FactKind → Part
  | .known kind => kind.writes
  | .other _ _ _ => .rest

/-- What a projection knows about tool invocations, as far as starting them goes. -/
structure ToolTables where
  tools : Map ToolInvocationId (ExecutionId × InvocationState)
  toolDigests : Map ToolInvocationId String
  toolContractVersions : Map ToolInvocationId UInt32
  toolResultBytes : Map ToolInvocationId Nat
  toolBatchPlans : Map ToolInvocationId String
  effectBatches : Map String EffectBatchRecord
  f0 : Map ToolInvocationId F0Record
  toolGrants : Map ToolInvocationId String

/-- What a projection knows about turns and delegations. -/
structure TurnTables where
  turns : Map TurnId TurnState
  suspensions : Map TurnId String
  delegations : Map String DelegationRecord
  turnsStartedInCommit : SetOf TurnId
  turnsSuspendedInCommit : SetOf TurnId
  turnsTerminalInCommit : SetOf TurnId

/-- What a fact says, as far as the state of a turn, an execution, a model request or a tool
invocation is concerned. -/
inductive Role where
  | turn (state : TurnState)
  | execution (state : ExecutionState)
  | model (state : InvocationState)
  | tool (state : InvocationState)
  | other
deriving DecidableEq

/-- The role of a kind. -/
def roleOf : FactKind → Role
  | .known .turnStarted => .turn .open
  | .known .turnSuspended => .turn .suspended
  | .known .turnCompleted => .turn .completed
  | .known .turnStopped => .turn .stopped
  | .known .turnFailed => .turn .failed
  | .known .executionStarted => .execution .active
  | .known .executionAbandoned => .execution .abandoned
  | .known .executionCompleted => .execution .completed
  | .known .executionSuspended => .execution .suspended
  | .known .executionStopped => .execution .stopped
  | .known .executionFailed => .execution .failed
  | .known .modelPrepared => .model .prepared
  | .known .modelStarted => .model .started
  | .known .modelCompleted => .model .completed
  | .known .modelRejected => .model .rejected
  | .known .modelInterrupted => .model .interrupted
  | .known .modelUnavailable => .model .unavailable
  | .known .modelUncertain => .model .uncertain
  | .known .effectPrepared => .tool .prepared
  | .known .effectAuthorized => .tool .authorized
  | .known .effectStarted => .tool .started
  | .known .effectReceipt => .tool .receipt
  | .known .effectCompleted => .tool .completed
  | .known .effectFailed => .tool .failed
  | .known .effectDenied => .tool .denied
  | .known .effectUncertain => .tool .uncertain
  | .known .effectReconciled => .tool .reconciled
  | .known .effectObservation => .tool .observed
  | _ => .other

/-- The tables that hold what was said last. -/
@[ext] structure Registers where
  turns : Map TurnId TurnState := ∅
  executions : Map ExecutionId (TurnId × ExecutionState) := ∅
  models : Map ModelRequestId (ExecutionId × InvocationState) := ∅
  modelDigests : Map ModelRequestId String := ∅
  tools : Map ToolInvocationId (ExecutionId × InvocationState) := ∅
  toolDigests : Map ToolInvocationId String := ∅
  toolReceipts : Map ToolInvocationId String := ∅

namespace SessionProjection

def toolTables (p : SessionProjection) : ToolTables where
  tools := p.tools
  toolDigests := p.toolDigests
  toolContractVersions := p.toolContractVersions
  toolResultBytes := p.toolResultBytes
  toolBatchPlans := p.toolBatchPlans
  effectBatches := p.effectBatches
  f0 := p.f0
  toolGrants := p.toolGrants

def turnTables (p : SessionProjection) : TurnTables where
  turns := p.turns
  suspensions := p.suspensions
  delegations := p.delegations
  turnsStartedInCommit := p.turnsStartedInCommit
  turnsSuspendedInCommit := p.turnsSuspendedInCommit
  turnsTerminalInCommit := p.turnsTerminalInCommit

/-- The registers of a projection. -/
def registers (p : SessionProjection) : Registers where
  turns := p.turns
  executions := p.executions
  models := p.models
  modelDigests := p.modelDigests
  tools := p.tools
  toolDigests := p.toolDigests
  toolReceipts := p.toolReceipts

/-- At most the given part differs. -/
structure Keeps (p p' : SessionProjection) (part : Part) : Prop where
  toolTables_eq : part ≠ .tools → p'.toolTables = p.toolTables
  turnTables_eq : part ≠ .turns → p'.turnTables = p.turnTables
  schedules_eq : part ≠ .schedules → p'.schedules = p.schedules

variable {lib : Externals} {p p' : SessionProjection} {fact : FactDraft}

theorem Keeps.refl (part : Part) : p.Keeps p part :=
  ⟨fun _ ↦ rfl, fun _ ↦ rfl, fun _ ↦ rfl⟩

theorem Keeps.rest {part : Part} (htools : p'.toolTables = p.toolTables)
    (hturns : p'.turnTables = p.turnTables) (hscheds : p'.schedules = p.schedules) :
    p.Keeps p' part :=
  ⟨fun _ ↦ htools, fun _ ↦ hturns, fun _ ↦ hscheds⟩

theorem Keeps.tools (hturns : p'.turnTables = p.turnTables)
    (hscheds : p'.schedules = p.schedules) : p.Keeps p' .tools :=
  ⟨fun h ↦ absurd rfl h, fun _ ↦ hturns, fun _ ↦ hscheds⟩

theorem Keeps.turns (htools : p'.toolTables = p.toolTables)
    (hscheds : p'.schedules = p.schedules) : p.Keeps p' .turns :=
  ⟨fun _ ↦ htools, fun h ↦ absurd rfl h, fun _ ↦ hscheds⟩

theorem Keeps.schedules (htools : p'.toolTables = p.toolTables)
    (hturns : p'.turnTables = p.turnTables) : p.Keeps p' .schedules :=
  ⟨fun _ ↦ htools, fun _ ↦ hturns, fun h ↦ absurd rfl h⟩

/-- The step stays within what facts of the kind are about. -/
structure Confined (p p' : SessionProjection) (kind : RuntimeKind) : Prop where
  keeps : p.Keeps p' kind.writes
  registers_eq : roleOf (.known kind) = .other → p'.registers = p.registers
  opened_eq : p'.opened = p.opened
  toolExecutors_eq : kind ≠ .effectStarted → p'.toolExecutors = p.toolExecutors
  interactions_eq : kind.ns ≠ .interaction → p'.interactions = p.interactions

/-! ### Operations with steps of their own -/

/-- A transition of an invocation writes its state, its evidence and the cursor of its batch. -/
theorem transitionTool_eq {next : InvocationState} (h : p.transitionTool lib fact next = .ok p') :
    p' = { p with
      tools := p'.tools
      toolGrants := p'.toolGrants
      toolExecutors := p'.toolExecutors
      toolReceipts := p'.toolReceipts
      toolsCompletedInCommit := p'.toolsCompletedInCommit
      effectBatches := p'.effectBatches } ∧
    (next ≠ .started → p'.toolExecutors = p.toolExecutors) := by
  simp only [transitionTool, ok_iff] at h
  obtain ⟨-, _, -, _, -, _, -, _, -, -, _, -, -, -, -, -, _, hbound,
    rfl⟩ := h
  obtain ⟨heq, hexecutors⟩ := validateEffectBinding_eq hbound
  refine ⟨?_, hexecutors⟩
  rw [heq]

theorem transitionTurn_yields {turn : TurnId} {next : TurnState} : Yields (p.transitionTurn turn next)
    fun p' ↦ p' = { p with turns := p.turns.insert turn next } := by
  intro p' h
  exact (transitionTurn_eq_ok_iff.mp h).2.2.2

theorem suspendTurn_confined : Yields (p.suspendTurn lib fact) (p.Confined · .turnSuspended) := by
  unfold suspendTurn
  iterate 4 refine yields_bind fun _ ↦ ?_
  refine transitionTurn_yields.bind ?_
  rintro _ rfl
  repeat refine yields_bind fun _ ↦ ?_
  exact yields_pure ⟨.turns rfl rfl, nofun, rfl, fun _ ↦ rfl, fun _ ↦ rfl⟩

/-- The end of a turn, whatever kind of fact reports it. -/
theorem terminalTurn_confined {next : TurnState} {kind : RuntimeKind} (hwr : kind.writes = .turns)
    (hrole : roleOf (.known kind) ≠ .other) :
    Yields (p.terminalTurn lib fact next) (p.Confined · kind) := by
  unfold terminalTurn
  iterate 5 refine yields_bind fun _ ↦ ?_
  refine transitionTurn_yields.bind ?_
  rintro _ rfl
  exact yields_pure ⟨hwr ▸ .turns rfl rfl, fun h ↦ absurd h hrole, rfl, fun _ ↦ rfl, fun _ ↦ rfl⟩

theorem prepareTool_confined : Yields (p.prepareTool lib fact) (p.Confined · .effectPrepared) := by
  unfold prepareTool
  repeat refine yields_bind fun _ ↦ ?_
  intro p' h
  rw [prepareToolExtras_eq h]
  exact ⟨.tools rfl rfl, nofun, rfl, fun _ ↦ rfl, fun _ ↦ rfl⟩

/-! ### Every fact -/

/-- The operation of every kind stays within what its facts are about. -/
theorem applyKind_confined {kind : RuntimeKind} :
    Yields (p.applyKind lib fact kind) (p.Confined · kind) := by
  cases kind
  case effectAuthorized | effectStarted | effectReceipt | effectCompleted | effectFailed |
      effectDenied | effectUncertain =>
    intro p' h
    obtain ⟨heq, hexecutors⟩ := transitionTool_eq h
    rw [heq]
    exact ⟨.tools rfl rfl, fun hrole ↦ (by cases hrole), rfl,
      fun hne ↦ hexecutors (by first | decide | exact absurd rfl hne), fun _ ↦ rfl⟩
  case effectPrepared => exact prepareTool_confined
  case turnSteered =>
    intro p' h
    rw [admitTurnSteered_eq h]
    exact ⟨.refl _, fun _ ↦ rfl, rfl, fun _ ↦ rfl, fun _ ↦ rfl⟩
  case turnSuspended => exact suspendTurn_confined
  case turnCompleted | turnStopped | turnFailed => exact terminalTurn_confined rfl (by decide)
  -- What is left writes in its last step, so the steps before it can be dropped.
  all_goals
    dsimp only [applyKind, closeSession, startTurn, admitTurnInput, cancelRequested, startExecution,
      startIteration, transitionExecution, planEffectBatch, prepareModel, transitionModel,
      decideSafety, bindSandbox, preflightSandbox, commitArtifact, reconcileTool, observeTool,
      rejectToolPreparation, requestInteraction, finishInteraction, requestKnowledge,
      dispatchKnowledge, terminalKnowledge, createSchedule, claimSchedule, fireSchedule,
      skipSchedule, cancelSchedule, failSchedule, exhaustSchedule, requestDelegation,
      authorizeDelegation, denyDelegation, startDelegationChild, terminalDelegationChild,
      observeDelegation]
    repeat' first
      | refine yields_bind fun _ ↦ ?_
      | split
      | refine yields_pure ⟨⟨?_, ?_, ?_⟩, ?_, rfl, fun _ ↦ rfl, ?_⟩
      | exact fun _ ↦ rfl
      | exact fun h ↦ absurd rfl h
      | (intro hrole; cases hrole)

/-- An accepted fact writes at most the part of its kind. -/
theorem apply_keeps (h : p.apply lib fact = .ok p') : p.Keeps p' fact.kind.writes := by
  obtain ⟨-, ⟨-, -, -, rfl⟩ | ⟨-, -, -, ⟨kind, hkind, happly⟩ | ⟨-, rfl⟩⟩⟩ := apply_eq_ok_iff.mp h
  · exact .rest rfl rfl rfl
  · rw [hkind]
    exact (applyKind_confined p' happly).keeps
  · exact .refl _

/-- An accepted fact that writes a part is applied by the operation of its kind. -/
theorem applyKind_of_apply {part : Part} (hwr : fact.kind.writes = part) (hpart : part ≠ .rest)
    (h : p.apply lib fact = .ok p') : ∃ kind, fact.kind = .known kind ∧ kind.writes = part ∧
      p.applyKind lib fact kind = .ok p' := by
  obtain ⟨-, ⟨hkind, -⟩ | ⟨-, -, -, ⟨kind, hkind, happly⟩ | ⟨hother, -⟩⟩⟩ := apply_eq_ok_iff.mp h
  · rw [hkind] at hwr
    exact absurd hwr.symm hpart
  · rw [hkind] at hwr
    exact ⟨kind, hkind, hwr, happly⟩
  · cases hkind : fact.kind with
    | known kind => exact absurd hkind (hother kind)
    | other text nonempty unknown =>
      rw [hkind] at hwr
      exact absurd hwr.symm hpart

end SessionProjection

end Garive
