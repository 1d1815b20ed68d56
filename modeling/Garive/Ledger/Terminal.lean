import Garive.Ledger.Course
import Garive.Ledger.Projection.Delegations
import Garive.Ledger.Writers

/-!
# What enters a terminal turn

A turn that was completed, stopped or failed is meant to be closed to every further fact of its own.
Nearly every operation refuses such a fact, because it asks for an active execution, and active
executions belong to open turns, or because it asks for the turn's state itself. Two operations do
neither: a delegation result only looks for its delegation, and the answer to an interaction only for
the interaction. The facts they let through are told here from the fact and the projection alone.
-/

namespace Garive

open Option

namespace RuntimeKind

/-- The namespaces whose facts are a turn's own. -/
def turnNamespaces : List Namespace :=
  [.turn, .execution, .model, .effect, .safety, .sandbox, .interaction, .knowledge, .artifact, .tool]

/-- The kinds that ask for an active execution first. -/
def needsActiveExecution (kind : RuntimeKind) : Bool :=
  match kind with
  | .executionStarted | .effectReconciled | .effectObservation | .interactionResolved
  | .interactionCancelled => false
  | kind => turnNamespaces.contains kind.ns && kind.ns != .turn

end RuntimeKind

namespace SessionProjection

variable {lib : Externals} {p p' : SessionProjection} {fact : FactDraft} {turn : TurnId}

/-- The fact is the result of an observed delegation of the turn. -/
def AnswersDelegation (lib : Externals) (p : SessionProjection) (fact : FactDraft) (turn : TurnId) :
    Prop :=
  fact.kind = .known .turnInput ∧ ∃ (payload : Object) (suspension digest delegation : String)
    (record : DelegationRecord), payloadOf lib fact = .ok payload ∧
      textOf payload "input_kind" = .ok "delegation_result" ∧
      textOf payload "suspension_id" = .ok suspension ∧
      contentDigest payload "content" = .ok digest ∧
      p.delegations[delegation]? = some record ∧ record.parentTurn = turn ∧
      record.state = .observed ∧ record.suspensionId = some suspension ∧
      record.resultDigest = some digest

/-- The fact resolves or cancels an unresolved interaction. -/
def AnswersInteraction (lib : Externals) (p : SessionProjection) (fact : FactDraft) : Prop :=
  (fact.kind = .known .interactionResolved ∨ fact.kind = .known .interactionCancelled) ∧
    ∃ (payload : Object) (interaction : String) (record : InteractionRecord),
      payloadOf lib fact = .ok payload ∧ textOf payload "interaction_id" = .ok interaction ∧
      p.interactions[interaction]? = some record ∧ record.terminal = false ∧
      fact.executionId = some record.execution ∧ fact.toolInvocationId = some record.tool ∧
      textOf payload "suspension_id" = .ok record.suspensionId ∧
      textOf payload "prepared_digest" = .ok record.preparedDigest

/-- A valid fact of an open session that no operation holds against its turn's state. -/
def SlipsIn (lib : Externals) (p : SessionProjection) (fact : FactDraft) (turn : TurnId) : Prop :=
  fact.validate lib = .ok () ∧ p.opened = true ∧ p.closed = false ∧
    (p.AnswersDelegation lib fact turn ∨ p.AnswersInteraction lib fact)

/-! ## Operations that look at the turn -/

variable {state : TurnState}

theorem isTerminal_eq_false_of_open (h : p.turns[turn]? = some .open)
    (hstate : p.turns[turn]? = some state) : state.isTerminal = false := by
  rw [h, some.injEq] at hstate
  rw [← hstate]
  rfl

/-- The turn of an active execution is open. -/
theorem open_of_requireActiveExecution (hcontained : p.lifecycle.Contained)
    (h : p.requireActiveExecution fact = .ok ()) (hturn : fact.turnId = some turn) :
    p.turns[turn]? = some .open := by
  obtain ⟨execution, _, -, howner, hentry⟩ := requireActiveExecution_eq_ok_iff.mp h
  rw [hturn, some.injEq] at howner
  exact hcontained.executions execution turn (howner ▸ hentry)

theorem ok_of_bind {x : Except LedgerError Unit} {f : Unit → Except LedgerError SessionProjection}
    (h : x >>= f = .ok p') : x = .ok () := by
  obtain ⟨_, hu, -⟩ := bind_eq_ok_iff.mp h
  exact hu

theorem requireActiveExecution_of_transitionExecution {next : ExecutionState}
    (h : p.transitionExecution fact next = .ok p') : p.requireActiveExecution fact = .ok () := by
  obtain ⟨execution, owner, hexec, howner, hentry, -⟩ := transitionExecution_eq_ok_iff.mp h
  exact requireActiveExecution_eq_ok_iff.mpr ⟨execution, owner, hexec, howner, hentry⟩

variable {kind : RuntimeKind}

/-- An accepted fact of such a kind names an active execution. -/
theorem requireActiveExecution_of_applyKind (hkind : kind.needsActiveExecution)
    (h : p.applyKind lib fact kind = .ok p') : p.requireActiveExecution fact = .ok () := by
  cases kind with
  | executionIterationStarted | executionEffectBatchPlanned | modelPrepared | modelStarted
  | modelCompleted | modelRejected | modelInterrupted | modelUnavailable | modelUncertain
  | effectPrepared | effectAuthorized | effectDenied | effectStarted | effectReceipt
  | effectCompleted | effectFailed | effectUncertain | safetyDecided | sandboxBound
  | sandboxPreflighted | interactionRequested | knowledgeRequested | knowledgeDispatched
  | knowledgeCompleted | knowledgeFailed | artifactCommitted | toolPreparationRejected =>
    exact ok_of_bind h
  | executionAbandoned | executionCompleted | executionSuspended | executionStopped
  | executionFailed => exact requireActiveExecution_of_transitionExecution h
  | _ => cases hkind

variable {next : TurnState}

theorem isTerminal_eq_false_of_transitionTurn (h : p.transitionTurn turn next = .ok p')
    (hstate : p.turns[turn]? = some state) : state.isTerminal = false := by
  obtain ⟨⟨_, hcur, hmoves⟩, -⟩ := transitionTurn_eq_ok_iff.mp h
  rw [hstate, some.injEq] at hcur
  subst hcur
  cases state <;> cases next <;> first | rfl | cases hmoves

theorem requireSuspendedExecution_eq_ok_iff {u : Unit} : p.requireSuspendedExecution fact = .ok u ↔
    ∃ turn execution, fact.turnId = some turn ∧ fact.executionId = some execution ∧
      p.turns[turn]? = some .suspended ∧ p.executions[execution]? = some (turn, .suspended) := by
  simp [requireSuspendedExecution, bind_eq_ok_iff, required_eq_ok_iff]

section Named

variable (hturn : fact.turnId = some turn) (hstate : p.turns[turn]? = some state)

include hturn hstate

theorem isTerminal_eq_false_of_startTurn (h : p.startTurn lib fact = .ok p') :
    state.isTerminal = false := by
  simp only [startTurn, ok_iff, required_eq_ok_iff] at h
  obtain ⟨_, howner, _, -, _, -, hvalid, -⟩ := h
  rw [hturn, some.injEq] at howner
  subst howner
  unfold startTurnValid at hvalid
  rw [hstate] at hvalid
  cases state <;> first | rfl | cases hvalid

theorem isTerminal_eq_false_of_suspendTurn (h : p.suspendTurn lib fact = .ok p') :
    state.isTerminal = false := by
  simp only [suspendTurn, bind_eq_ok_iff, required_eq_ok_iff] at h
  obtain ⟨_, howner, _, -, _, -, -, -, _, hmoved, -⟩ := h
  rw [hturn, some.injEq] at howner
  subst howner
  exact isTerminal_eq_false_of_transitionTurn hmoved hstate

theorem isTerminal_eq_false_of_terminalTurn (h : p.terminalTurn lib fact next = .ok p') :
    state.isTerminal = false := by
  simp only [terminalTurn, bind_eq_ok_iff, required_eq_ok_iff] at h
  obtain ⟨_, howner, _, -, _, -, _, -, -, -, _, hmoved, -⟩ := h
  rw [hturn, some.injEq] at howner
  subst howner
  exact isTerminal_eq_false_of_transitionTurn hmoved hstate

theorem isTerminal_eq_false_of_admitTurnSteered (h : p.admitTurnSteered fact = .ok p') :
    state.isTerminal = false := by
  simp only [admitTurnSteered, bind_eq_ok_iff, required_eq_ok_iff, hturn, some.injEq,
    exists_eq_left', hstate] at h
  cases state <;> first | rfl | cases h

theorem isTerminal_eq_false_of_cancelRequested (h : p.cancelRequested fact = .ok p') :
    state.isTerminal = false := by
  simp only [cancelRequested, bind_eq_ok_iff, required_eq_ok_iff, hturn, some.injEq,
    exists_eq_left', requireNonTerminalTurn, hstate] at h
  obtain ⟨_, hu, -⟩ := h
  cases state <;> first | rfl | cases hu

theorem isTerminal_eq_false_of_startExecution (h : p.startExecution lib fact = .ok p') :
    state.isTerminal = false := by
  simp only [startExecution, bind_eq_ok_iff, required_eq_ok_iff, requireOpenTurn_eq_ok_iff, hturn,
    some.injEq, exists_eq_left'] at h
  obtain ⟨-, hopen, -⟩ := h
  exact isTerminal_eq_false_of_open hopen hstate

theorem isTerminal_eq_false_of_requireSuspendedExecution
    (h : p.requireSuspendedExecution fact = .ok ()) : state.isTerminal = false := by
  obtain ⟨_, _, howner, -, hsusp, -⟩ := requireSuspendedExecution_eq_ok_iff.mp h
  rw [hturn, some.injEq] at howner
  rw [← howner, hstate, some.injEq] at hsusp
  rw [hsusp]
  rfl

theorem isTerminal_eq_false_of_observeTool (hcontained : p.lifecycle.Contained)
    (h : p.observeTool lib fact = .ok p') : state.isTerminal = false := by
  simp only [observeTool, bind_eq_ok_iff] at h
  obtain ⟨_, -, _, -, _, -, _, -, -, -, _, hobserver, -⟩ := h
  unfold requireObserver at hobserver
  split at hobserver
  · obtain ⟨_, hsusp, -⟩ := bind_eq_ok_iff.mp hobserver
    exact isTerminal_eq_false_of_requireSuspendedExecution hturn hstate hsusp
  · exact isTerminal_eq_false_of_open (open_of_requireActiveExecution hcontained hobserver hturn)
      hstate

/-! ## Operations that do not -/

/-- A turn that cannot take input by its state takes it as the result of a delegation. -/
theorem answersDelegation_of_admitTurnInput (hkind : fact.kind = .known .turnInput)
    (h : p.admitTurnInput lib fact = .ok p') (hterm : state.isTerminal) :
    p.AnswersDelegation lib fact turn := by
  simp only [admitTurnInput, bind_eq_ok_iff, required_eq_ok_iff, hturn, some.injEq,
    exists_eq_left'] at h
  obtain ⟨payload, hpay, kind, hinput, h⟩ := h
  split at h
  · rename_i hres
    simp only [bind_eq_ok_iff, okOr_eq_ok_iff] at h
    obtain ⟨suspension, hsuspn, content, hcont, digest, hdig, found, hfound, -⟩ := h
    obtain ⟨hget, htest⟩ := Map.get?_of_find? hfound
    simp only [Bool.and_eq_true, beq_iff_eq] at htest
    refine ⟨hkind, payload, suspension, digest, found.1, found.2, hpay, hres ▸ hinput,
      hsuspn, ?_, hget, htest.1.1.1, htest.1.1.2, htest.1.2, htest.2⟩
    rw [contentDigest, bind_eq_ok_iff]
    exact ⟨content, hcont, hdig⟩
  · -- Every other input asks for an open turn or for the suspension it answers.
    exfalso
    split at h
    · simp only [bind_eq_ok_iff, requireOpenTurn_eq_ok_iff] at h
      obtain ⟨-, hopen, -⟩ := h
      rw [isTerminal_eq_false_of_open hopen hstate] at hterm
      cases hterm
    · simp only [bind_eq_ok_iff, ensure_eq_ok_iff] at h
      obtain ⟨-, ⟨hsusp, -⟩, -⟩ := h
      rw [hstate, some.injEq] at hsusp
      rw [hsusp] at hterm
      cases hterm

end Named

theorem exists_admitTurnInput (h : p.AnswersDelegation lib fact turn)
    (hturn : fact.turnId = some turn) : ∃ p', p.admitTurnInput lib fact = .ok p' := by
  obtain ⟨-, _, suspension, digest, _, record, hpay, hinput, hsuspn, hdig,
    hget, hpar, hobs, hbound, hres⟩ := h
  rw [contentDigest, bind_eq_ok_iff] at hdig
  obtain ⟨_, hcont, hdig⟩ := hdig
  obtain ⟨found, hfound⟩ := Map.exists_find? (p := fun _ (record : DelegationRecord) ↦
    record.parentTurn == turn && record.state == .observed
      && record.suspensionId == some suspension && record.resultDigest == some digest) hget
    (by simp [hpar, hobs, hbound, hres])
  refine ⟨{ p with
    delegations := p.delegations.insert found.1 { found.2 with inputAdmitted := true } }, ?_⟩
  simp only [admitTurnInput, hturn, required, okOr_some, ok_bind, hpay, hinput, if_true,
    hsuspn, hcont, hdig, hfound, pure_eq_ok]

theorem finishInteraction_eq_ok_iff
    (hkind : fact.kind = .known .interactionResolved ∨ fact.kind = .known .interactionCancelled) :
    (∃ p', p.finishInteraction lib fact = .ok p') ↔ p.AnswersInteraction lib fact := by
  simp only [finishInteraction, ok_iff, required_eq_ok_iff, AnswersInteraction, hkind, true_and]
  constructor
  · rintro ⟨p', _, hexec, _, htool, payload, hpay, interaction, hinteraction,
      record, hget, ⟨hterm, rfl, rfl⟩, _, hsuspn, rfl, _, hdig, rfl, -⟩
    exact ⟨payload, interaction, record, hpay, hinteraction, hget, hterm, hexec, htool,
      hsuspn, hdig⟩
  · rintro ⟨payload, interaction, record, hpay, hinteraction, hget, hterm, hexec, htool,
      hsuspn, hdig⟩
    exact ⟨_, _, hexec, _, htool, payload, hpay, interaction, hinteraction, record, hget,
      ⟨hterm, rfl, rfl⟩, _, hsuspn, rfl, _, hdig, rfl, rfl⟩

/-! ## The terminal turn -/

/-- An accepted fact of a terminal turn is one of the two answers. -/
theorem answers_of_applyKind (hcontained : p.lifecycle.Contained) (hkind : fact.kind = .known kind)
    (hns : kind.ns ∈ RuntimeKind.turnNamespaces) (hturn : fact.turnId = some turn)
    (hstate : p.turns[turn]? = some state) (hterm : state.isTerminal)
    (h : p.applyKind lib fact kind = .ok p') :
    p.AnswersDelegation lib fact turn ∨ p.AnswersInteraction lib fact := by
  have habsurd : state.isTerminal = false →
      p.AnswersDelegation lib fact turn ∨ p.AnswersInteraction lib fact := by
    intro hfalse
    rw [hfalse] at hterm
    cases hterm
  by_cases hact : kind.needsActiveExecution
  · exact habsurd (isTerminal_eq_false_of_open (open_of_requireActiveExecution hcontained
      (requireActiveExecution_of_applyKind hact h) hturn) hstate)
  cases kind with
  | turnStarted => exact habsurd (isTerminal_eq_false_of_startTurn hturn hstate h)
  | turnSuspended => exact habsurd (isTerminal_eq_false_of_suspendTurn hturn hstate h)
  | turnCompleted | turnStopped | turnFailed =>
    exact habsurd (isTerminal_eq_false_of_terminalTurn hturn hstate h)
  | turnSteered => exact habsurd (isTerminal_eq_false_of_admitTurnSteered hturn hstate h)
  | turnCancelRequested => exact habsurd (isTerminal_eq_false_of_cancelRequested hturn hstate h)
  | executionStarted => exact habsurd (isTerminal_eq_false_of_startExecution hturn hstate h)
  | effectReconciled =>
    exact habsurd (isTerminal_eq_false_of_requireSuspendedExecution hturn hstate (ok_of_bind h))
  | effectObservation => exact habsurd (isTerminal_eq_false_of_observeTool hturn hstate hcontained h)
  | turnInput => exact .inl (answersDelegation_of_admitTurnInput hturn hstate hkind h hterm)
  | interactionResolved => exact .inr ((finishInteraction_eq_ok_iff (.inl hkind)).mp ⟨p', h⟩)
  | interactionCancelled => exact .inr ((finishInteraction_eq_ok_iff (.inr hkind)).mp ⟨p', h⟩)
  | _ => first | exact absurd rfl hact | exact absurd hns (by decide)

end SessionProjection

/-! ## An answer in the name of an ended turn -/

namespace LedgerState

open SessionProjection

/-- The first turn stops with its execution. -/
def stopBatch : List FactDraft :=
  [stopExecution runTurn runExecution ⟨"fact-execution-stopped", by simp⟩,
    stopTurn runTurn runExecution ⟨"fact-turn-stopped", by simp⟩]

/-- A second turn prepares a tool and asks for an approval. -/
def askBatch : List FactDraft :=
  [startTurn otherTurn ⟨"fact-turn-started-2", by simp⟩,
    startExecution otherTurn otherExecution ⟨"fact-execution-started-2", by simp⟩,
    prepareTool otherTurn otherExecution runTool ⟨"fact-tool-prepared", by simp⟩,
    requestInteraction otherTurn otherExecution runTool ⟨"fact-interaction-requested", by simp⟩]

/-- The answer names the turn that has stopped, with the execution and the tool of the other one. -/
def strayAnswer : FactDraft :=
  resolveInteraction runTurn otherExecution runTool ⟨"fact-interaction-resolved", by simp⟩

/-- The first turn stops, and the second one waits for an answer. -/
def askRun : WrittenRun :=
  startRun ++ [(stopBatch, [stopExecutionFields, stopTurnFields runExecution]), (askBatch,
    [turnStartFields, executionStartFields, prepareToolFields, requestInteractionFields])]

/-- The first turn has stopped, and the answer can be applied. -/
def takesAnswer (p : SessionProjection) : Bool :=
  decide (p.turns[runTurn]? = some .stopped) &&
    (applyWritten p strayAnswer resolveInteractionFields).toOption.any fun _ ↦ true

instance : Replayed askRun takesAnswer := ⟨by repeat constructor, by decide +kernel⟩

instance : Admits strayAnswer resolveInteractionFields .appliedV1 := ⟨rfl, by decide +kernel⟩

/-- A reachable ledger in which the first turn has stopped and the answer is accepted. -/
theorem exists_holds_ask : ∃ state p, Holds reference state runSession
    [[openingFact], [turnStart, executionStart], stopBatch, askBatch] p ∧
    p.turns[runTurn]? = some .stopped ∧ ∃ p', p.apply reference strayAnswer = .ok p' := by
  obtain ⟨-, state, p, hholds, hcheck⟩ := exists_holds_of_replayed askRun takesAnswer
  rw [takesAnswer, Bool.and_eq_true, decide_eq_true_eq] at hcheck
  obtain ⟨p', happly, -⟩ := any_toOption.mp hcheck.2
  exact ⟨state, p, hholds, hcheck.1, p', (apply_of_applyWritten Admits.written happly).2⟩

end LedgerState

end Garive
