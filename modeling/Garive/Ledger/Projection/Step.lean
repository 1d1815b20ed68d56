import Garive.Ledger.Projection.Apply

/-!
# The lifecycle behind the projection

What the facts of a session do to its turns, executions, invocations, interactions, knowledge
requests, schedules and delegations, without the evidence they carry. `Lifecycle.Step` lists the
moves; `SessionProjection.step_of_apply` says that every fact the projection accepts is one of them.
Invariants of the lifecycle are proved about the moves and hold for the projection by that theorem.
-/

namespace Garive

open Option Map

/-- The part of a projection that says what is open, running or pending. -/
@[ext] structure Lifecycle where
  closed : Bool
  turns : Map TurnId TurnState
  executions : Map ExecutionId (TurnId × ExecutionState)
  models : Map ModelRequestId (ExecutionId × InvocationState)
  tools : Map ToolInvocationId (ExecutionId × InvocationState)
  interactions : Map String InteractionRecord
  knowledge : Map String KnowledgeRecord
  schedules : Map String ScheduleRecord
  delegations : Map String DelegationRecord

/-- Between dispatch and outcome. -/
def InvocationState.InFlight (state : InvocationState) : Prop :=
  state = .started ∨ state = .receipt

namespace Lifecycle

variable (l : Lifecycle)

/-- The execution is active. -/
def Active (execution : ExecutionId) : Prop :=
  ∃ turn, l.executions[execution]? = some (turn, .active)

/-- Nothing of the execution is between dispatch and outcome. -/
def Quiet (execution : ExecutionId) : Prop :=
  (∀ (request : ModelRequestId) (state : InvocationState),
    l.models[request]? = some (execution, state) → ¬state.InFlight) ∧
  (∀ (tool : ToolInvocationId) (state : InvocationState),
    l.tools[tool]? = some (execution, state) → ¬state.InFlight) ∧
  (∀ (request : String) (record : KnowledgeRecord), l.knowledge[request]? = some record →
    record.execution = execution → record.terminal = true)

/-- Everything of the session has ended. -/
structure Settled : Prop where
  turns : ∀ (turn : TurnId) (state : TurnState), l.turns[turn]? = some state →
    state ≠ .open ∧ state ≠ .suspended
  executions : ∀ execution, ¬l.Active execution
  models : ∀ (request : ModelRequestId) (execution : ExecutionId) (state : InvocationState),
    l.models[request]? = some (execution, state) → ¬state.InFlight
  tools : ∀ (tool : ToolInvocationId) (execution : ExecutionId) (state : InvocationState),
    l.tools[tool]? = some (execution, state) → ¬state.InFlight
  schedules : ∀ (schedule : String) (record : ScheduleRecord),
    l.schedules[schedule]? = some record → record.state ≠ .active
  delegations : ∀ (delegation : String) (record : DelegationRecord),
    l.delegations[delegation]? = some record → record.state.isSettled = true

/-- The moves of a session that is not closed. -/
inductive Step : Lifecycle → Prop
  /-- Only evidence changes. -/
  | evidence : Step l
  | close (h : l.Settled) : Step { l with closed := true }
  /-- A turn starts, or continues after a suspension. -/
  | openTurn (turn : TurnId) (h : l.turns[turn]? = none ∨ l.turns[turn]? = some .suspended) :
    Step { l with turns := l.turns.insert turn .open }
  /-- A turn without active executions is suspended or ends; only a suspension may leave
  interactions unresolved. -/
  | moveTurn (turn : TurnId) (next : TurnState) (hnext : next ≠ .open)
    (hexecs : ∀ execution : ExecutionId, l.executions[execution]? ≠ some (turn, .active))
    (hinters : next ≠ .suspended → ∀ (interaction : String) (record : InteractionRecord)
      (state : ExecutionState), l.interactions[interaction]? = some record →
      l.executions[record.execution]? = some (turn, state) → record.terminal = true) :
    Step { l with turns := l.turns.insert turn next }
  | startExecution (execution : ExecutionId) (turn : TurnId) (hturn : l.turns[turn]? = some .open)
    (hfresh : l.executions[execution]? = none) :
    Step { l with executions := l.executions.insert execution (turn, .active) }
  /-- A quiet execution is suspended or ends; only a suspension may leave interactions
  unresolved. -/
  | endExecution (execution : ExecutionId) (turn : TurnId) (next : ExecutionState)
    (hnext : next ≠ .active) (hact : l.executions[execution]? = some (turn, .active))
    (hquiet : l.Quiet execution)
    (hinters : next ≠ .suspended → ∀ (interaction : String) (record : InteractionRecord),
      l.interactions[interaction]? = some record → record.execution = execution →
      record.terminal = true) :
    Step { l with executions := l.executions.insert execution (turn, next) }
  | setModel (request : ModelRequestId) (execution : ExecutionId) (state : InvocationState)
    (hact : l.Active execution) :
    Step { l with models := l.models.insert request (execution, state) }
  | setTool (tool : ToolInvocationId) (execution : ExecutionId) (state : InvocationState)
    (hact : state.InFlight → l.Active execution) :
    Step { l with tools := l.tools.insert tool (execution, state) }
  | setInteraction (interaction : String) (record : InteractionRecord)
    (h : record.terminal = true ∨ l.Active record.execution) :
    Step { l with interactions := l.interactions.insert interaction record }
  | setKnowledge (request : String) (record : KnowledgeRecord)
    (hact : l.Active record.execution) :
    Step { l with knowledge := l.knowledge.insert request record }
  | setSchedule (schedule : String) (record : ScheduleRecord) :
    Step { l with schedules := l.schedules.insert schedule record }
  | setDelegation (delegation : String) (record : DelegationRecord) :
    Step { l with delegations := l.delegations.insert delegation record }

end Lifecycle

/-! ## Facts as moves -/

/-- The kinds the projection never shows. -/
def RuntimeKind.isInert : RuntimeKind → Bool
  | .turnSteered | .turnCancelRequested => true
  | kind =>
    match kind.ns with
    | .skill | .memory | .workspace | .goal | .plan | .context | .privacy | .tool => true
    | _ => false

namespace SessionProjection

variable {lib : Externals} {p p' : SessionProjection} {fact : FactDraft}

/-- The lifecycle part of a projection. -/
def lifecycle (p : SessionProjection) : Lifecycle where
  closed := p.closed
  turns := p.turns
  executions := p.executions
  models := p.models
  tools := p.tools
  interactions := p.interactions
  knowledge := p.knowledge
  schedules := p.schedules
  delegations := p.delegations

/-- A move of the lifecycle, or of the evidence alone, that the projection shows. -/
structure Moves (p p' : SessionProjection) : Prop where
  step : p.lifecycle.Step p'.lifecycle
  changes : p' ≠ p

/-- Projections that disagree on one entry of one of their tables differ. -/
theorem ne_of_get? {κ ν : Type} [Ord κ] [Std.TransOrd κ] (table : SessionProjection → Map κ ν)
    (key : κ) {old : Option ν} {new : ν} (hold : (table p)[key]? = old)
    (hnew : (table p')[key]? = some new) (hne : old ≠ some new) : p' ≠ p := by
  rintro rfl
  exact hne (hold.symm.trans hnew)

theorem required_eq_ok_iff {α : Type} {value : Option α} {a : α} :
    required value = .ok a ↔ value = some a :=
  okOr_eq_ok_iff

/-- An accepted fact of an active execution names it and its turn. -/
theorem requireActiveExecution_eq_ok_iff {u : Unit} :
    p.requireActiveExecution fact = .ok u ↔ ∃ execution turn, fact.executionId = some execution ∧
      fact.turnId = some turn ∧ p.executions[execution]? = some (turn, .active) := by
  simp only [requireActiveExecution, bind_eq_ok_iff, required_eq_ok_iff]
  constructor
  · rintro ⟨execution, hexec, turn, hturn, hrest⟩
    cases hentry : p.executions[execution]? with
    | none => simp [hentry] at hrest
    | some entry =>
      rw [hentry] at hrest
      have hact : entry = (turn, .active) := ensure_eq_ok_iff.mp hrest
      exact ⟨execution, turn, hexec, hturn, hact ▸ hentry⟩
  · rintro ⟨execution, turn, hexec, hturn, hentry⟩
    refine ⟨execution, hexec, turn, hturn, ?_⟩
    simp [hentry]

/-- The execution an accepted fact names is active. -/
theorem active_of_require {execution : ExecutionId} (h : p.requireActiveExecution fact = .ok ())
    (hexec : fact.executionId = some execution) : p.lifecycle.Active execution := by
  obtain ⟨_, turn, hfound, -, hentry⟩ := requireActiveExecution_eq_ok_iff.mp h
  rw [hexec, some.injEq] at hfound
  exact ⟨turn, hfound ▸ hentry⟩

variable {turn : TurnId}

theorem requireOpenTurn_eq_ok_iff {u : Unit} :
    p.requireOpenTurn turn = .ok u ↔ p.turns[turn]? = some .open :=
  ensure_eq_ok_iff

/-! ### Sessions and turns -/

theorem inFlight_iff {state : InvocationState} :
    (state == .started || state == .receipt) ↔ state.InFlight := by
  simp [InvocationState.InFlight]

theorem hasRecoveryPendingInvocation_eq_false_iff {execution : Option ExecutionId} :
    p.hasRecoveryPendingInvocation execution = false ↔
      (∀ (request : ModelRequestId) (owner : ExecutionId) (state : InvocationState),
        p.models[request]? = some (owner, state) → execution.all (· == owner) →
        ¬state.InFlight) ∧
      (∀ (tool : ToolInvocationId) (owner : ExecutionId) (state : InvocationState),
        p.tools[tool]? = some (owner, state) → execution.all (· == owner) →
        ¬state.InFlight) := by
  simp only [hasRecoveryPendingInvocation, Bool.or_eq_false_iff, any_eq_false_iff, Prod.forall,
    Bool.and_eq_false_imp, ← inFlight_iff, Bool.not_eq_true]

theorem closeSession_step (h : p.closeSession = .ok p') : p.lifecycle.Step p'.lifecycle := by
  simp only [closeSession, ok_iff, Bool.not_eq_true, Bool.or_eq_false_iff, any_eq_false_iff,
    hasRecoveryPendingInvocation_eq_false_iff, Prod.forall] at h
  obtain ⟨⟨⟨⟨⟨hturns, hexecs⟩, hmodels, htools⟩, hscheds⟩, hdelegs⟩, rfl⟩ := h
  refine .close ⟨?_, ?_, ?_, ?_, ?_, ?_⟩
  · intro turn state hget
    simpa using hturns turn state hget
  · rintro execution ⟨turn, hget⟩
    simpa using hexecs execution turn .active hget
  · intro request execution state hget
    exact hmodels request execution state hget rfl
  · intro tool execution state hget
    exact htools tool execution state hget rfl
  · intro schedule record hget
    simpa using hscheds schedule record hget
  · intro delegation record hget
    simpa using hdelegs delegation record hget

theorem startTurn_moves (h : p.startTurn lib fact = .ok p') : p.Moves p' := by
  simp only [startTurn, ok_iff] at h
  obtain ⟨turn, -, _, -, _, -, hvalid, h⟩ := h
  have hopens : p.turns[turn]? = none ∨ p.turns[turn]? = some .suspended := by
    unfold startTurnValid at hvalid
    split at hvalid
    · exact .inl ‹_›
    · exact .inr ‹_›
    · cases hvalid
  have hchanges : p.turns[turn]? ≠ some .open := by
    rcases hopens with hturn | hturn <;> simp [hturn]
  split at h
  · simp only [ok_iff] at h
    obtain ⟨_, -, _, -, rfl⟩ := h
    exact ⟨.openTurn turn hopens, ne_of_get? (·.turns) turn rfl (get?_insert_self ..) hchanges⟩
  · cases h
    exact ⟨.openTurn turn hopens, ne_of_get? (·.turns) turn rfl (get?_insert_self ..) hchanges⟩

variable {next : TurnState}

/-- What a turn's move asks for and does. -/
theorem transitionTurn_eq_ok_iff : p.transitionTurn turn next = .ok p' ↔
      (∃ current, p.turns[turn]? = some current ∧ turnMoves current next) ∧
      (∀ execution : ExecutionId, p.executions[execution]? ≠ some (turn, .active)) ∧
      (next ≠ .suspended → p.hasPendingInteractionForTurn turn = false) ∧
      p' = { p with turns := p.turns.insert turn next } := by
  simp only [transitionTurn, ok_iff, Bool.not_eq_true, any_eq_false_iff, Prod.forall, not_and]
  constructor
  · rintro ⟨current, hcur, hmoves, hexecs, hinters, rfl⟩
    refine ⟨⟨current, hcur, hmoves⟩, ?_, hinters, rfl⟩
    intro execution hget
    simpa using hexecs execution turn .active hget
  · rintro ⟨⟨current, hcur, hmoves⟩, hexecs, hinters, rfl⟩
    refine ⟨current, hcur, hmoves, ?_, hinters, rfl⟩
    intro execution owner state hget
    by_contra hne
    simp only [Bool.not_eq_false, Bool.and_eq_true, beq_iff_eq] at hne
    exact hexecs execution (hne.1 ▸ hne.2 ▸ hget)

theorem ne_of_turnMoves {current next : TurnState} (h : turnMoves current next) :
    current ≠ next := by
  rintro rfl
  cases current <;> simp [turnMoves] at h

theorem transitionTurn_step (h : p.transitionTurn turn next = .ok p') :
    p.lifecycle.Step p'.lifecycle := by
  obtain ⟨⟨_, -, hmoves⟩, hexecs, hinters, rfl⟩ := transitionTurn_eq_ok_iff.mp h
  refine .moveTurn turn next ?_ hexecs ?_
  · rintro rfl
    simp [turnMoves] at hmoves
  · intro hnext interaction record state hget hexec
    have hpend := any_eq_false_iff.mp (hinters hnext) interaction record hget
    have hexec' : p.executions[record.execution]? = some (turn, state) := hexec
    simpa [hexec'] using hpend

/-- A turn's move is visible whatever else is recorded with it. -/
theorem ne_of_transitionTurn {moved : SessionProjection}
    (h : p.transitionTurn turn next = .ok moved) (hturns : p'.turns = moved.turns) : p' ≠ p := by
  obtain ⟨⟨_, hcur, hmoves⟩, -, -, rfl⟩ := transitionTurn_eq_ok_iff.mp h
  have hnew : p'.turns[turn]? = some next := by
    rw [hturns]
    exact get?_insert_self ..
  refine ne_of_get? (·.turns) turn hcur hnew fun heq ↦ ?_
  exact ne_of_turnMoves hmoves (some.inj heq)

theorem suspendTurn_moves (h : p.suspendTurn lib fact = .ok p') : p.Moves p' := by
  simp only [suspendTurn, ok_iff] at h
  obtain ⟨_, -, _, -, _, -, -, _, hmoved, _, -, _, -, rfl⟩ := h
  have hstep := transitionTurn_step hmoved
  exact ⟨hstep, ne_of_transitionTurn hmoved rfl⟩

theorem terminalTurn_moves (h : p.terminalTurn lib fact next = .ok p') :
    p.Moves p' := by
  simp only [terminalTurn, ok_iff] at h
  obtain ⟨_, -, _, -, _, -, _, -, -, _, hmoved, rfl⟩ := h
  have hstep := transitionTurn_step hmoved
  exact ⟨hstep, ne_of_transitionTurn hmoved rfl⟩

/-- The delegation a delegation result belongs to. -/
def resultDelegation? (lib : Externals) (p : SessionProjection) (fact : FactDraft) :
    Option (String × DelegationRecord) := do
  let turn ← fact.turnId
  let payload ← (payloadOf lib fact).toOption
  let kind ← (textOf payload "input_kind").toOption
  if kind = "delegation_result" then
    let suspension ← (textOf payload "suspension_id").toOption
    let content ← (objectOf payload "content").toOption
    let digest ← (textOf content "digest").toOption
    find? p.delegations fun _ record ↦
      record.parentTurn == turn && record.state == .observed
        && record.suspensionId == some suspension && record.resultDigest == some digest
  else none

/-- An input is shown by the projection exactly when it is a delegation result that was not admitted
before. -/
theorem admitTurnInput_spec (h : p.admitTurnInput lib fact = .ok p') :
    p.lifecycle.Step p'.lifecycle ∧
      (p' = p ↔ (p.resultDelegation? lib fact).all (·.2.inputAdmitted)) := by
  simp only [admitTurnInput, bind_eq_ok_iff, required_eq_ok_iff] at h
  obtain ⟨_, hturn, _, hpay, _, hkind, h⟩ := h
  split at h
  · rename_i hres
    simp only [ok_iff] at h
    obtain ⟨_, hsuspn, _, hcont, _, hdig, found, hfound, rfl⟩ := h
    have hresult? : p.resultDelegation? lib fact = some found := by
      simp [resultDelegation?, hturn, hpay, hkind, hres, hsuspn, hcont, hdig,
        hfound, Except.toOption]
    have hget := (get?_of_find? hfound).1
    refine ⟨.setDelegation found.1 _, ?_⟩
    rw [hresult?, all_some]
    constructor
    · intro heq
      have hentry := congrArg (fun q : SessionProjection ↦ q.delegations[found.1]?) heq
      simp only [get?_insert_self, hget, some.injEq] at hentry
      exact (congrArg (·.inputAdmitted) hentry).symm
    · intro hadm
      have hrec : { found.2 with inputAdmitted := true } = found.2 := by rw [← hadm]
      rw [hrec, insert_eq_self hget]
  · rename_i hother
    have hresult? : p.resultDelegation? lib fact = none := by
      simp [resultDelegation?, hturn, hpay, hkind, hother, Except.toOption]
    have hsame : p' = p := by
      split at h
      all_goals
        simp only [ok_iff] at h
        exact h.2.symm
    rw [hresult?, hsame]
    exact ⟨.evidence, by simp⟩

theorem admitTurnSteered_eq (h : p.admitTurnSteered fact = .ok p') : p' = p := by
  simp only [admitTurnSteered, bind_eq_ok_iff] at h
  obtain ⟨_, -, h⟩ := h
  split at h
  · cases h
    rfl
  · cases h
  · cases h

theorem cancelRequested_eq (h : p.cancelRequested fact = .ok p') : p' = p := by
  simp only [cancelRequested, ok_iff] at h
  obtain ⟨_, -, -, -, rfl⟩ := h
  rfl

/-! ### Executions -/

theorem startExecution_moves (h : p.startExecution lib fact = .ok p') : p.Moves p' := by
  simp only [startExecution, ok_iff, requireOpenTurn_eq_ok_iff] at h
  obtain ⟨turn, -, hopen, execution, -, hfresh, _, -, _, -, rfl⟩ := h
  exact ⟨.startExecution execution turn hopen hfresh,
    ne_of_get? (·.executions) execution hfresh (get?_insert_self ..) (by simp)⟩

theorem startIteration_moves (h : p.startIteration lib fact = .ok p') : p.Moves p' := by
  simp only [startIteration, ok_iff, checkedAdd_eq_some_iff] at h
  obtain ⟨-, execution, -, _, -, _, -, _, hcur, ⟨rfl, -⟩, rfl⟩ := h
  exact ⟨.evidence,
    ne_of_get? (·.executionIterations) execution hcur (get?_insert_self ..) (by simp)⟩

/-- What an execution's end asks for and does. -/
theorem transitionExecution_eq_ok_iff {next : ExecutionState} :
    p.transitionExecution fact next = .ok p' ↔
      ∃ execution turn, fact.executionId = some execution ∧ fact.turnId = some turn ∧
        p.executions[execution]? = some (turn, .active) ∧
        p.hasRecoveryPendingInvocation (some execution) = false ∧
        p.hasPendingKnowledge execution = false ∧
        (next ≠ .suspended → p.hasPendingInteraction execution = false) ∧
        p' = { p with executions := p.executions.insert execution (turn, next) } := by
  simp only [transitionExecution, ok_iff, required_eq_ok_iff, not_or, Bool.not_eq_true, not_and]
  constructor
  · rintro ⟨execution, hexec, turn, hturn, _, hentry, rfl, ⟨hflight, hknow, hinter⟩,
      rfl⟩
    exact ⟨execution, turn, hexec, hturn, hentry, hflight, hknow, hinter, rfl⟩
  · rintro ⟨execution, turn, hexec, hturn, hentry, hflight, hknow, hinter, rfl⟩
    exact ⟨execution, hexec, turn, hturn, _, hentry, rfl, ⟨hflight, hknow, hinter⟩, rfl⟩

theorem transitionExecution_moves {next : ExecutionState} (hnext : next ≠ .active)
    (h : p.transitionExecution fact next = .ok p') : p.Moves p' := by
  obtain ⟨execution, turn, -, -, hentry, hflight, hknow, hinter, rfl⟩ :=
    transitionExecution_eq_ok_iff.mp h
  rw [hasRecoveryPendingInvocation_eq_false_iff] at hflight
  refine ⟨.endExecution execution turn next hnext hentry ⟨?_, ?_, ?_⟩ ?_,
    ne_of_get? (·.executions) execution hentry (get?_insert_self ..)
      (by simpa using hnext.symm)⟩
  · intro request state hget
    exact hflight.1 request execution state hget (by simp)
  · intro tool state hget
    exact hflight.2 tool execution state hget (by simp)
  · intro request record hget hexec
    simpa [hexec] using any_eq_false_iff.mp hknow request record hget
  · intro hsusp interaction record hget hexec
    simpa [hexec] using any_eq_false_iff.mp (hinter hsusp) interaction record hget

/-! ### Model and knowledge requests -/

theorem prepareModel_moves (h : p.prepareModel lib fact = .ok p') : p.Moves p' := by
  simp only [prepareModel, ok_iff, required_eq_ok_iff] at h
  obtain ⟨hact, request, -, execution, hexec, hfresh, _, -, _, -, rfl⟩ := h
  exact ⟨.setModel request execution .prepared (active_of_require hact hexec),
    ne_of_get? (·.models) request hfresh (get?_insert_self ..) (by simp)⟩

variable {next : InvocationState}

variable {current : InvocationState}

theorem ne_of_modelMoves (h : modelMoves current next) : current ≠ next := by
  rintro rfl
  cases current <;> simp [modelMoves] at h

theorem transitionModel_moves (h : p.transitionModel lib fact next = .ok p') : p.Moves p' := by
  simp only [transitionModel, ok_iff, required_eq_ok_iff] at h
  obtain ⟨hact, request, -, execution, hexec, _, hentry, -, _, -, _, -, -,
    hmoves, rfl⟩ := h
  refine ⟨.setModel request execution next (active_of_require hact hexec),
    ne_of_get? (·.models) request hentry (get?_insert_self ..) ?_⟩
  intro heq
  exact ne_of_modelMoves hmoves (congrArg (·.2) (some.inj heq))

theorem requestKnowledge_moves (h : p.requestKnowledge lib fact = .ok p') : p.Moves p' := by
  simp only [requestKnowledge, ok_iff, required_eq_ok_iff] at h
  obtain ⟨hact, _, hexec, _, -, request, -, _, -, hfresh, rfl⟩ := h
  exact ⟨.setKnowledge request _ (active_of_require hact hexec),
    ne_of_get? (·.knowledge) request hfresh (get?_insert_self ..) (by simp)⟩

theorem dispatchKnowledge_moves (h : p.dispatchKnowledge lib fact = .ok p') : p.Moves p' := by
  simp only [dispatchKnowledge, ok_iff, required_eq_ok_iff] at h
  obtain ⟨hact, _, hexec, _, -, request, -, _, hrec, _, -,
    ⟨rfl, -⟩, _, -, -, rfl⟩ := h
  refine ⟨.setKnowledge request _ (active_of_require hact hexec),
    ne_of_get? (·.knowledge) request hrec (get?_insert_self ..) ?_⟩
  intro heq
  have hatts := congrArg (fun found ↦ found.dispatchAttempts.length) (some.inj heq)
  simp at hatts

theorem terminalKnowledge_moves (h : p.terminalKnowledge lib fact = .ok p') : p.Moves p' := by
  simp only [terminalKnowledge, ok_iff, required_eq_ok_iff] at h
  obtain ⟨hact, _, hexec, payload, -, request, -, _, hrec, _, -,
    ⟨rfl, hterm⟩, _, -, -, rfl⟩ := h
  refine ⟨.setKnowledge request _ (active_of_require hact hexec),
    ne_of_get? (·.knowledge) request hrec (get?_insert_self ..) ?_⟩
  intro heq
  have hdone := congrArg (·.terminal) (some.inj heq)
  simp [hterm] at hdone

/-! ### Tool invocations -/

variable {payload : Object}

/-- The extras of a later contract version: what they bind stays outside the other tables. -/
theorem prepareToolExtras_eq {tool : ToolInvocationId}
    (h : p.prepareToolExtras fact tool payload = .ok p') : p' = { p with
      toolResultBytes := p'.toolResultBytes
      toolAccessDigests := p'.toolAccessDigests
      toolSandboxDigests := p'.toolSandboxDigests } := by
  unfold prepareToolExtras at h
  split at h
  · simp only [bind_eq_ok_iff] at h
    obtain ⟨_, -, h⟩ := h
    split at h
    · simp only [ok_iff] at h
      obtain ⟨_, -, _, -, rfl⟩ := h
      rfl
    · cases h
      rfl
  · cases h
    rfl

theorem prepareTool_moves (h : p.prepareTool lib fact = .ok p') : p.Moves p' := by
  simp only [prepareTool, ok_iff, required_eq_ok_iff] at h
  obtain ⟨hact, tool, -, execution, hexec, hfresh, _, -, _, -, _, -, _,
    -, h⟩ := h
  have hlife := congrArg lifecycle (prepareToolExtras_eq h)
  have hnew : p'.tools[tool]? = some (execution, .prepared) := by
    rw [show p'.tools = _ from congrArg Lifecycle.tools hlife]
    exact get?_insert_self ..
  refine ⟨?_, ne_of_get? (·.tools) tool hfresh hnew (by simp)⟩
  rw [hlife]
  exact .setTool tool execution .prepared fun _ ↦ active_of_require hact hexec

theorem rejectToolPreparation_eq (h : p.rejectToolPreparation lib fact = .ok p') : p' = p := by
  simp only [rejectToolPreparation, ok_iff] at h
  obtain ⟨-, -, _, -, _, -, _, -, _, -, -, _, -, -, rfl⟩ := h
  rfl

theorem planEffectBatch_moves (h : p.planEffectBatch lib fact = .ok p') : p.Moves p' := by
  simp only [planEffectBatch, ok_iff] at h
  obtain ⟨-, _, -, _, -, plan, -, hfresh, _, -, _, -, -, _, -, -, _,
    -, _, -, _, -, -, rfl⟩ := h
  exact ⟨.evidence, ne_of_get? (·.effectBatches) plan hfresh (get?_insert_self ..) (by simp)⟩

theorem requestInteraction_moves (h : p.requestInteraction lib fact = .ok p') : p.Moves p' := by
  simp only [requestInteraction, ok_iff, required_eq_ok_iff] at h
  obtain ⟨hact, _, -, _, hexec, -, -, _, -, interaction, -, _, -,
    ⟨-, hfresh⟩, _, -, rfl⟩ := h
  exact ⟨.setInteraction interaction _ (.inr (active_of_require hact hexec)),
    ne_of_get? (·.interactions) interaction hfresh (get?_insert_self ..) (by simp)⟩

theorem finishInteraction_moves (h : p.finishInteraction lib fact = .ok p') : p.Moves p' := by
  simp only [finishInteraction, ok_iff] at h
  obtain ⟨_, -, _, -, _, -, interaction, -, _, hrec, ⟨hterm, -⟩,
    _, -, -, _, -, -, rfl⟩ := h
  refine ⟨.setInteraction interaction _ (.inl rfl),
    ne_of_get? (·.interactions) interaction hrec (get?_insert_self ..) ?_⟩
  intro heq
  have hdone := congrArg (·.terminal) (some.inj heq)
  simp [hterm] at hdone

/-- The evidence of a move is a grant, an executor or a receipt; only a start names an executor. -/
theorem validateEffectBinding_eq {tool : ToolInvocationId}
    (h : p.validateEffectBinding tool current next payload = .ok p') : p' = { p with
      toolGrants := p'.toolGrants
      toolExecutors := p'.toolExecutors
      toolReceipts := p'.toolReceipts } ∧
    (next ≠ .started → p'.toolExecutors = p.toolExecutors) := by
  unfold validateEffectBinding at h
  split at h
  · simp only [ok_iff] at h
    obtain ⟨-, -, grant, -, rfl⟩ := h
    exact ⟨rfl, fun _ ↦ rfl⟩
  · simp only [ok_iff] at h
    obtain ⟨grant, -, -, -, -, -, executor, -, revision, -, rfl⟩ := h
    exact ⟨rfl, fun hnext ↦ absurd rfl hnext⟩
  · simp only [ok_iff] at h
    obtain ⟨grant, -, -, -, executor, -, revision, -, -, -, receipt, -, rfl⟩ := h
    exact ⟨rfl, fun _ ↦ rfl⟩
  · simp only [ok_iff] at h
    obtain ⟨receipt, -, -, -, rfl⟩ := h
    exact ⟨rfl, fun _ ↦ rfl⟩
  · simp only [ok_iff] at h
    obtain ⟨-, -, rfl⟩ := h
    exact ⟨rfl, fun _ ↦ rfl⟩
  · cases h
    exact ⟨rfl, fun _ ↦ rfl⟩

theorem ne_of_toolMoves (h : toolMoves current next) : current ≠ next := by
  rintro rfl
  cases current <;> simp [toolMoves] at h

theorem transitionTool_moves (h : p.transitionTool lib fact next = .ok p') : p.Moves p' := by
  simp only [transitionTool, ok_iff, required_eq_ok_iff] at h
  obtain ⟨hact, tool, -, execution, hexec, _, -, _, -, -, _, hentry, -, hmoves,
    -, -, bound, hbound, rfl⟩ := h
  have hlife : ({ bound with
      tools := p.tools.insert tool (execution, next)
      toolsCompletedInCommit := if next = .completed
        then p.toolsCompletedInCommit.insert tool else p.toolsCompletedInCommit
      effectBatches := p.advanceBatch tool next } : SessionProjection).lifecycle =
      { p.lifecycle with tools := p.tools.insert tool (execution, next) } := by
    have hsame := congrArg lifecycle (validateEffectBinding_eq hbound).1
    rw [← show bound.lifecycle = p.lifecycle from hsame]
    rfl
  refine ⟨?_, ne_of_get? (·.tools) tool hentry (get?_insert_self ..) ?_⟩
  · rw [hlife]
    exact .setTool tool execution next fun _ ↦ active_of_require hact hexec
  · intro heq
    exact ne_of_toolMoves hmoves (congrArg (·.2) (some.inj heq))

theorem decideSafety_moves (h : p.decideSafety lib fact = .ok p') : p.Moves p' := by
  simp only [decideSafety, ok_iff] at h
  obtain ⟨-, tool, -, _, -, ⟨-, -, hfresh⟩, _, -, _, -, -, _, -, _, -,
    -, _, -, -, _, -, -, _, -, _, -, _, -, _, -, rfl⟩ := h
  exact ⟨.evidence, ne_of_get? (·.f0) tool hfresh (get?_insert_self ..) (by simp)⟩

theorem bindSandbox_moves (h : p.bindSandbox lib fact = .ok p') : p.Moves p' := by
  simp only [bindSandbox, ok_iff] at h
  obtain ⟨-, tool, -, _, -, _, hrec, ⟨-, hunbound, -⟩, _, -, -, _, -, -,
    _, -, -, _, -, _, -, _, -, rfl⟩ := h
  refine ⟨.evidence, ne_of_get? (·.f0) tool hrec (get?_insert_self ..) ?_⟩
  intro heq
  have hbound := congrArg (·.sandbox) (some.inj heq)
  simp [hunbound] at hbound

theorem preflightSandbox_moves (h : p.preflightSandbox lib fact = .ok p') : p.Moves p' := by
  simp only [preflightSandbox, ok_iff] at h
  obtain ⟨-, tool, -, _, -, _, hrec, _, hproof, _, -, hungranted, _, -,
    -, _, -, -, _, -, -, _, -, -, _, -, -, -, _, -, rfl⟩ := h
  refine ⟨.evidence, ne_of_get? (·.f0) tool hrec (get?_insert_self ..) ?_⟩
  intro heq
  have hgranted := congrArg (fun found ↦ found.sandbox.bind (·.grantId)) (some.inj heq)
  simp [hproof, hungranted] at hgranted

theorem observeTool_moves (h : p.observeTool lib fact = .ok p') : p.Moves p' := by
  simp only [observeTool, ok_iff] at h
  obtain ⟨tool, -, execution, -, _, -, _, hentry, ⟨-, hobservable⟩, -, _, -, -,
    rfl⟩ := h
  refine ⟨.setTool tool execution .observed fun hflight ↦ ?_,
    ne_of_get? (·.tools) tool hentry (get?_insert_self ..) ?_⟩
  · simp [InvocationState.InFlight] at hflight
  · intro heq
    rw [some.inj heq] at hobservable
    cases hobservable

theorem reconcileTool_moves (h : p.reconcileTool lib fact = .ok p') : p.Moves p' := by
  simp only [reconcileTool, ok_iff] at h
  obtain ⟨-, tool, -, execution, -, _, -, _, -, ⟨-, hentry⟩, _, -, rfl⟩ := h
  refine ⟨.setTool tool execution .reconciled fun hflight ↦ ?_,
    ne_of_get? (·.tools) tool hentry (get?_insert_self ..) (by simp)⟩
  simp [InvocationState.InFlight] at hflight

theorem commitArtifact_moves (h : p.commitArtifact lib fact = .ok p') : p.Moves p' := by
  simp only [commitArtifact, ok_iff] at h
  obtain ⟨-, _, -, _, -, -, _, -, _, -, -, _, -, _, -, -,
    rfl⟩ := h
  refine ⟨.evidence, fun heq ↦ ?_⟩
  have hlen := congrArg (·.artifacts.length) heq
  simp at hlen

/-! ### Schedules and delegations -/

theorem activeSchedule_eq_ok_iff {schedule : String} {record : ScheduleRecord} :
    p.activeSchedule payload = .ok (schedule, record) ↔
      textOf payload "schedule_id" = .ok schedule ∧ p.schedules[schedule]? = some record ∧
        record.state = .active ∧ textOf payload "revision_id" = .ok record.revisionId := by
  simp only [activeSchedule, ok_iff, Prod.mk.injEq]
  constructor
  · rintro ⟨schedule, hsched, record, hrec, hact, _, hrev, rfl, rfl, rfl⟩
    exact ⟨hsched, hrec, hact, hrev⟩
  · rintro ⟨hsched, hrec, hact, hrev⟩
    exact ⟨schedule, hsched, record, hrec, hact, _, hrev, rfl, rfl, rfl⟩

/-- Replacing a schedule by a different record moves the projection. -/
theorem moves_of_schedule {schedule : String} {old : Option ScheduleRecord} {record : ScheduleRecord}
    (hold : p.schedules[schedule]? = old) (hne : old ≠ some record) :
    p.Moves { p with schedules := p.schedules.insert schedule record } :=
  ⟨.setSchedule schedule record,
    ne_of_get? (·.schedules) schedule hold (get?_insert_self ..) hne⟩

theorem createSchedule_moves (h : p.createSchedule lib fact = .ok p') : p.Moves p' := by
  simp only [createSchedule, ok_iff] at h
  obtain ⟨_, -, _, -, _, -, _, -, hreplaces, rfl⟩ := h
  refine moves_of_schedule rfl fun heq ↦ ?_
  rw [heq] at hreplaces
  simp at hreplaces

theorem claimSchedule_moves (h : p.claimSchedule lib fact = .ok p') : p.Moves p' := by
  simp only [claimSchedule, ok_iff, activeSchedule_eq_ok_iff, Prod.exists] at h
  obtain ⟨_, -, _, record, ⟨-, hget, -⟩, _, -, _, -, _, -, _, -, _, -, hvalid, rfl⟩ := h
  refine moves_of_schedule hget fun heq ↦ ?_
  have hpend := congrArg (·.pendingClaim) (some.inj heq)
  simp [claimValid, show record.pendingClaim = _ from hpend] at hvalid

theorem fireSchedule_moves (h : p.fireSchedule lib fact = .ok p') : p.Moves p' := by
  simp only [fireSchedule, ok_iff, activeSchedule_eq_ok_iff, Prod.exists] at h
  obtain ⟨_, -, _, record, ⟨-, hget, -⟩, _, -, _, -, hpend, rfl⟩ := h
  refine moves_of_schedule hget fun heq ↦ ?_
  have hnone := congrArg (·.pendingClaim) (some.inj heq)
  simp [show record.pendingClaim = _ from hnone] at hpend

/-- Whether a skip ends where the schedule already stands. -/
def skipsNothing (lib : Externals) (p : SessionProjection) (fact : FactDraft) :
    Except LedgerError Bool := do
  let payload ← payloadOf lib fact
  let (_, record) ← p.activeSchedule payload
  let last ← unsignedOf payload "last_ordinal"
  return record.lastHandledOrdinal == last

/-- A skip is shown by the projection exactly when it moves the last handled ordinal. -/
theorem skipSchedule_spec (h : p.skipSchedule lib fact = .ok p') :
    p.lifecycle.Step p'.lifecycle ∧
      (p' = p ↔ (p.skipsNothing lib fact).toOption.all id) := by
  simp only [skipSchedule, ok_iff, Prod.exists] at h
  obtain ⟨_, hpay, schedule, _, hact, _, -, _, hlast, -, rfl⟩ := h
  have hget := (activeSchedule_eq_ok_iff.mp hact).2.1
  refine ⟨.setSchedule schedule _, ?_⟩
  simp only [skipsNothing, hpay, hact, hlast, ok_bind, pure_eq_ok, Except.toOption,
    all_some, id_eq, beq_iff_eq]
  constructor
  · intro heq
    have hentry := congrArg (fun q : SessionProjection ↦ q.schedules[schedule]?) heq
    simp only [get?_insert_self, hget, some.injEq] at hentry
    exact (congrArg (·.lastHandledOrdinal) hentry).symm
  · rintro rfl
    rw [insert_eq_self hget]

theorem moves_of_ended {schedule : String} {old record : ScheduleRecord}
    (hold : p.schedules[schedule]? = some old) (hact : old.state = .active)
    (hend : record.state ≠ .active) :
    p.Moves { p with schedules := p.schedules.insert schedule record } :=
  moves_of_schedule hold fun heq ↦ hend (some.inj heq ▸ hact)

theorem cancelSchedule_moves (h : p.cancelSchedule lib fact = .ok p') : p.Moves p' := by
  simp only [cancelSchedule, ok_iff] at h
  obtain ⟨_, -, _, -, _, hget, ⟨hact, -⟩, _, -, -, _, -, rfl⟩ := h
  refine moves_of_ended hget hact ?_
  split <;> simp

theorem failSchedule_moves (h : p.failSchedule lib fact = .ok p') : p.Moves p' := by
  simp only [failSchedule, ok_iff, activeSchedule_eq_ok_iff, Prod.exists] at h
  obtain ⟨_, -, _, _, ⟨-, hget, hact, -⟩, -, rfl⟩ := h
  exact moves_of_ended hget hact (by simp)

theorem exhaustSchedule_moves (h : p.exhaustSchedule lib fact = .ok p') : p.Moves p' := by
  simp only [exhaustSchedule, ok_iff, activeSchedule_eq_ok_iff, Prod.exists] at h
  obtain ⟨_, -, _, _, ⟨-, hget, hact, -⟩, -, _, -, -, rfl⟩ := h
  exact moves_of_ended hget hact (by simp)

/-- Replacing a delegation by one in another state moves the projection. -/
theorem moves_of_delegation {id : String} {old record : DelegationRecord}
    (hold : p.delegations[id]? = some old) (hne : old.state ≠ record.state) :
    p.Moves { p with delegations := p.delegations.insert id record } :=
  ⟨.setDelegation id record, ne_of_get? (·.delegations) id hold (get?_insert_self ..)
    fun heq ↦ hne (congrArg (·.state) (some.inj heq))⟩

theorem ownedDelegation_eq_ok {state : DelegationState} {id : String} {record : DelegationRecord}
    (h : p.ownedDelegation fact payload state = .ok (id, record)) :
    textOf payload "delegation_id" = .ok id ∧ p.delegations[id]? = some record ∧
      record.state = state ∧ fact.turnId = some record.parentTurn := by
  simp only [ownedDelegation, ok_iff, required_eq_ok_iff, Prod.mk.injEq] at h
  obtain ⟨_, hid, _, hget, hstate, _, hturn, hpar, _, -, -, rfl, rfl⟩ := h
  exact ⟨hid, hget, hstate, hpar ▸ hturn⟩

theorem moves_of_owned {state : DelegationState} {id : String} {record next : DelegationRecord}
    (h : p.ownedDelegation fact payload state = .ok (id, record)) (hne : state ≠ next.state) :
    p.Moves { p with delegations := p.delegations.insert id next } :=
  moves_of_delegation (ownedDelegation_eq_ok h).2.1 ((ownedDelegation_eq_ok h).2.2.1 ▸ hne)

theorem requestDelegation_moves (h : p.requestDelegation lib fact = .ok p') : p.Moves p' := by
  simp only [requestDelegation, ok_iff] at h
  obtain ⟨-, _, -, _, -, _, -, id, -, ⟨hfresh, -⟩, _, -, -, _, -, rfl⟩ := h
  exact ⟨.setDelegation id _,
    ne_of_get? (·.delegations) id hfresh (get?_insert_self ..) (by simp)⟩

theorem authorizeDelegation_moves (h : p.authorizeDelegation lib fact = .ok p') : p.Moves p' := by
  simp only [authorizeDelegation, ok_iff, Prod.exists] at h
  obtain ⟨-, _, -, _, _, howned, _, -, -, _, -, rfl⟩ := h
  exact moves_of_owned howned (by simp)

theorem denyDelegation_moves (h : p.denyDelegation lib fact = .ok p') : p.Moves p' := by
  simp only [denyDelegation, ok_iff, Prod.exists] at h
  obtain ⟨-, _, -, _, _, howned, _, -, -, rfl⟩ := h
  exact moves_of_owned howned (by simp)

theorem startDelegationChild_moves (h : p.startDelegationChild lib fact = .ok p') : p.Moves p' := by
  simp only [startDelegationChild, ok_iff, Prod.exists] at h
  obtain ⟨_, -, _, -, _, _, howned, _, -, -, _, -, -, _, -, -,
    _, -, -, rfl⟩ := h
  exact moves_of_owned howned (by simp)

theorem terminalDelegationChild_moves (h : p.terminalDelegationChild lib fact = .ok p') :
    p.Moves p' := by
  simp only [terminalDelegationChild, ok_iff, Prod.exists] at h
  obtain ⟨_, -, _, -, _, _, howned, _, -, -, _, -, -, _, -, _,
    -, rfl⟩ := h
  exact moves_of_owned howned (by simp)

theorem observeDelegation_moves (h : p.observeDelegation lib fact = .ok p') : p.Moves p' := by
  simp only [observeDelegation, ok_iff, Prod.exists] at h
  obtain ⟨_, -, _, _, howned, _, -, -, _, -, -, _, -, -, _, -, -,
    rfl⟩ := h
  exact moves_of_owned howned (by simp)

/-! ### Every fact -/

/-- An accepted fact that leaves the projection as it is. -/
def inert (lib : Externals) (p : SessionProjection) (fact : FactDraft) : Bool :=
  match fact.kind with
  | .known .turnInput => (p.resultDelegation? lib fact).all (·.2.inputAdmitted)
  | .known .scheduleSkipped => (p.skipsNothing lib fact).toOption.all id
  | .known kind => kind.isInert
  | .other _ _ _ => true

theorem Moves.spec (h : p.Moves p') {unchanged : Bool} (hunchanged : unchanged = false) :
    p.lifecycle.Step p'.lifecycle ∧ (p' = p ↔ unchanged) :=
  ⟨h.step, by simp [h.changes, hunchanged]⟩

theorem spec_of_eq (h : p' = p) {unchanged : Bool} (hunchanged : unchanged) :
    p.lifecycle.Step p'.lifecycle ∧ (p' = p ↔ unchanged) :=
  ⟨h ▸ .evidence, by simp [h, hunchanged]⟩

/-- The operation of every kind is a move of the lifecycle, and it is known in advance whether the
projection shows it. -/
theorem applyKind_spec {kind : RuntimeKind} (hkind : fact.kind = .known kind)
    (hopening : kind ≠ .sessionOpened) (hclosed : p.closed = false) (h : p.applyKind lib fact kind = .ok p') :
    p.lifecycle.Step p'.lifecycle ∧ (p' = p ↔ p.inert lib fact) := by
  unfold inert
  rw [hkind]
  cases kind
  case sessionClosed =>
    refine Moves.spec ⟨closeSession_step h, ?_⟩ rfl
    simp only [applyKind, closeSession, ok_iff] at h
    obtain ⟨-, rfl⟩ := h
    intro heq
    rw [← heq] at hclosed
    cases hclosed
  case turnStarted => exact (startTurn_moves h).spec rfl
  case turnSuspended => exact (suspendTurn_moves h).spec rfl
  case turnCompleted | turnStopped | turnFailed =>
    exact (terminalTurn_moves h).spec rfl
  case turnInput => exact admitTurnInput_spec h
  case turnSteered => exact spec_of_eq (admitTurnSteered_eq h) rfl
  case turnCancelRequested => exact spec_of_eq (cancelRequested_eq h) rfl
  case executionStarted => exact (startExecution_moves h).spec rfl
  case executionIterationStarted => exact (startIteration_moves h).spec rfl
  case executionAbandoned | executionCompleted | executionSuspended | executionStopped |
      executionFailed => exact (transitionExecution_moves (by decide) h).spec rfl
  case executionEffectBatchPlanned => exact (planEffectBatch_moves h).spec rfl
  case modelPrepared => exact (prepareModel_moves h).spec rfl
  case modelStarted | modelCompleted | modelRejected | modelInterrupted | modelUnavailable |
      modelUncertain => exact (transitionModel_moves h).spec rfl
  case effectPrepared => exact (prepareTool_moves h).spec rfl
  case safetyDecided => exact (decideSafety_moves h).spec rfl
  case sandboxBound => exact (bindSandbox_moves h).spec rfl
  case sandboxPreflighted => exact (preflightSandbox_moves h).spec rfl
  case effectAuthorized | effectStarted | effectReceipt | effectCompleted | effectFailed |
      effectDenied | effectUncertain => exact (transitionTool_moves h).spec rfl
  case artifactCommitted => exact (commitArtifact_moves h).spec rfl
  case effectReconciled => exact (reconcileTool_moves h).spec rfl
  case effectObservation => exact (observeTool_moves h).spec rfl
  case toolPreparationRejected => exact spec_of_eq (rejectToolPreparation_eq h) rfl
  case interactionRequested => exact (requestInteraction_moves h).spec rfl
  case interactionResolved | interactionCancelled =>
    exact (finishInteraction_moves h).spec rfl
  case knowledgeRequested => exact (requestKnowledge_moves h).spec rfl
  case knowledgeDispatched => exact (dispatchKnowledge_moves h).spec rfl
  case knowledgeCompleted | knowledgeFailed =>
    exact (terminalKnowledge_moves h).spec rfl
  case scheduleCreated => exact (createSchedule_moves h).spec rfl
  case scheduleClaimed => exact (claimSchedule_moves h).spec rfl
  case scheduleFired => exact (fireSchedule_moves h).spec rfl
  case scheduleSkipped => exact skipSchedule_spec h
  case scheduleCancelled => exact (cancelSchedule_moves h).spec rfl
  case scheduleFailed => exact (failSchedule_moves h).spec rfl
  case scheduleExhausted => exact (exhaustSchedule_moves h).spec rfl
  case delegationRequested => exact (requestDelegation_moves h).spec rfl
  case delegationAuthorized => exact (authorizeDelegation_moves h).spec rfl
  case delegationDenied => exact (denyDelegation_moves h).spec rfl
  case delegationChildStarted => exact (startDelegationChild_moves h).spec rfl
  case delegationChildTerminal => exact (terminalDelegationChild_moves h).spec rfl
  case delegationObserved => exact (observeDelegation_moves h).spec rfl
  case sessionOpened => exact absurd rfl hopening
  -- What is left has no operation.
  all_goals
    cases h
    exact spec_of_eq rfl rfl

/-- What applying a fact comes down to: opening the session, the operation of a named kind in an
open session, or nothing. -/
theorem apply_eq_ok_iff : p.apply lib fact = .ok p' ↔ fact.validate lib = .ok () ∧
    (fact.kind = .known .sessionOpened ∧ p.opened = false ∧ p.closed = false ∧
        p' = { p with opened := true } ∨
      fact.kind ≠ .known .sessionOpened ∧ p.opened ∧ p.closed = false ∧
        ((∃ kind, fact.kind = .known kind ∧ p.applyKind lib fact kind = .ok p') ∨
          (∀ kind, fact.kind ≠ .known kind) ∧ p' = p)) := by
  simp only [apply, ok_iff]
  refine and_congr_right fun _ ↦ ?_
  by_cases hkind : fact.kind = .known .sessionOpened
  · rw [if_pos hkind]
    simp only [openSession, ok_iff, hkind, ne_eq, not_true_eq_false, false_and, true_and, or_false,
      and_assoc]
    exact and_congr_right fun _ ↦ and_congr_right fun _ ↦ eq_comm
  · rw [if_neg hkind]
    simp only [ok_iff, hkind, false_and, not_false_eq_true, ne_eq, true_and, false_or, and_assoc]
    refine and_congr_right fun _ ↦ and_congr_right fun _ ↦ ?_
    cases fact.kind with
    | known kind => simp
    | other text nonempty unknown => simp [eq_comm]

/-- An accepted fact finds the session not closed, is a move of its lifecycle, and is shown by the
projection unless it is inert. -/
theorem apply_spec (h : p.apply lib fact = .ok p') :
    p.closed = false ∧ p.lifecycle.Step p'.lifecycle ∧ (p' = p ↔ p.inert lib fact) := by
  obtain ⟨-, ⟨hkind, hopened, hclosed, rfl⟩ |
    ⟨hopening, -, hclosed, ⟨kind, hkind, happly⟩ | ⟨hother, rfl⟩⟩⟩ := apply_eq_ok_iff.mp h
  · have hshown : p.inert lib fact = false := by
      rw [inert, hkind]
      rfl
    refine ⟨hclosed, .evidence, ?_⟩
    rw [hshown]
    refine iff_of_false (fun heq ↦ ?_) (by decide)
    rw [← heq] at hopened
    cases hopened
  · have hkind_ne : kind ≠ .sessionOpened := fun heq ↦ hopening (heq ▸ hkind)
    exact ⟨hclosed, applyKind_spec hkind hkind_ne hclosed happly⟩
  · refine ⟨hclosed, .evidence, ?_⟩
    unfold inert
    cases hkind : fact.kind with
    | known kind => exact absurd hkind (hother kind)
    | other text nonempty unknown => simp

end SessionProjection

end Garive
