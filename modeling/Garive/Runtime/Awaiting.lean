import Garive.Ledger.History
import Garive.Ledger.Turns
import Garive.Runtime.Positions

/-!
# Suspended turns that await continuation

Which suspended turns the runtime recognises when it starts up. The decision reads the derived
positions and not the reason of the suspension: a turn is left alone only when an uncertain model
request, an unsettled effect or a pending interaction explains why it was suspended.
-/

namespace Garive

variable {kind : FactKind}

namespace RuntimeTurn

/-! ## The condition -/

/-- The kinds that leave a model request unfinished. -/
def openModelKinds : List FactKind :=
  [.known .modelPrepared, .known .modelStarted, .known .modelUncertain]

/-- The kinds that end a model request. -/
def finalModelKinds : List FactKind :=
  [.known .modelCompleted, .known .modelRejected, .known .modelInterrupted, .known .modelUnavailable]

/-- The invocation's last fact leaves it to an operator: it is uncertain, or it was reconciled. -/
def Unsettled (facts : List DurableFact) (fact : DurableFact) : Prop :=
  fact.kind = .known .effectUncertain ∨ fact.kind = .known .effectReconciled ∨
    (fact.kind = .known .effectObservation ∧
      hasStage facts fact.toolInvocationId .effectReconciled none = true)

/-- The kinds that leave a tool invocation before its outcome. -/
def openToolKinds : List FactKind :=
  [.known .effectPrepared, .known .safetyDecided, .known .effectAuthorized, .known .sandboxBound,
    .known .sandboxPreflighted, .known .effectStarted, .known .effectReceipt]

/-- The kinds that end a tool invocation. -/
def finalToolKinds : List FactKind :=
  [.known .effectCompleted, .known .effectFailed, .known .effectDenied, .known .effectObservation]

/-- The facts of a suspended turn explain why it waits. -/
structure Awaits (lib : Externals) (facts : List DurableFact) (execution : ExecutionId) : Prop where
  /-- The execution is the one that started last, and its start counts the recoveries. -/
  started : ∃ fact value ordinal, rfind? (hasKind .executionStarted) facts = some fact ∧
    fact.executionId = some execution ∧ payload lib fact = .ok value ∧
    unsigned value "recovery_ordinal" = .ok ordinal
  /-- Its suspension is the last thing said about it. -/
  suspended : ∃ fact, rfind? (fun fact ↦ ofExecution execution fact
    && fact.kind.ns? == some .execution) facts = some fact ∧ fact.kind = .known .executionSuspended
  /-- The last fact of each of its model requests is about the request. -/
  requests : ∀ request fact, IsLast (requestOf execution) facts request fact →
    fact.kind ∈ openModelKinds ++ finalModelKinds
  /-- At most one model request is unfinished. -/
  oneRequest : ∀ request request' fact fact', IsLast (requestOf execution) facts request fact →
    IsLast (requestOf execution) facts request' fact' → fact.kind ∈ openModelKinds →
    fact'.kind ∈ openModelKinds → request = request'
  /-- The facts about its interactions name them. -/
  named : Named lib execution facts
  /-- At most one interaction awaits an answer. -/
  oneInteraction : ∀ id id', Pending lib execution facts id → Pending lib execution facts id' →
    id = id'
  /-- Unless one does, the last fact of each tool invocation is of a known kind. -/
  tools : (∀ id, ¬Pending lib execution facts id) → ∀ tool fact,
    IsLast (toolOf execution) facts tool fact →
    fact.kind ∈ openToolKinds ++ finalToolKinds ∨ Unsettled facts fact
  /-- Unless one does, at most one tool invocation is unfinished. -/
  oneTool : (∀ id, ¬Pending lib execution facts id) → ∀ tool tool' fact fact',
    IsLast (toolOf execution) facts tool fact → IsLast (toolOf execution) facts tool' fact' →
    (fact.kind ∈ openToolKinds ∨ Unsettled facts fact) →
    (fact'.kind ∈ openToolKinds ∨ Unsettled facts fact') → tool = tool'
  /-- Something is waited for. -/
  reason : (∃ request fact, IsLast (requestOf execution) facts request fact ∧
      fact.kind = .known .modelUncertain) ∨
    (∃ id, Pending lib execution facts id) ∨
    ∃ tool fact, IsLast (toolOf execution) facts tool fact ∧ Unsettled facts fact

/-! ## The positions of the kinds -/

theorem exists_modelKindPosition_iff :
    (∃ t, modelKindPosition kind = .ok t) ↔ kind ∈ openModelKinds ++ finalModelKinds := by
  fun_cases modelKindPosition <;> simp_all [openModelKinds, finalModelKinds]

theorem unfinished_modelKindPosition_iff :
    unfinished .none .terminal (modelKindPosition kind) ↔ kind ∈ openModelKinds := by
  fun_cases modelKindPosition <;> simp_all [openModelKinds, unfinished]

theorem modelKindPosition_eq_uncertain_iff :
    modelKindPosition kind = .ok .uncertain ↔ kind = .known .modelUncertain := by
  fun_cases modelKindPosition <;> simp_all

variable {fact : DurableFact}

variable {facts : List DurableFact}

theorem exists_effectKindPosition_iff :
    (∃ t, effectKindPosition facts fact = .ok t) ↔
      fact.kind ∈ openToolKinds ++ finalToolKinds ∨ Unsettled facts fact := by
  fun_cases effectKindPosition <;> simp_all [openToolKinds, finalToolKinds, Unsettled]

theorem unfinished_effectKindPosition_iff :
    unfinished .none .terminal (effectKindPosition facts fact) ↔
      fact.kind ∈ openToolKinds ∨ Unsettled facts fact := by
  fun_cases effectKindPosition <;> simp_all [openToolKinds, unfinished, Unsettled]

theorem effectKindPosition_unsettled_iff :
    effectKindPosition facts fact = .ok .uncertain ∨ effectKindPosition facts fact = .ok .reconciled
      ↔ Unsettled facts fact := by
  fun_cases effectKindPosition <;> simp_all [Unsettled]

/-! ## The decision -/

variable {lib : Externals} {facts : List DurableFact} {execution : ExecutionId}

theorem tells_requests_iff : Tells (requestOf execution) facts (fun fact ↦ modelKindPosition fact.kind)
    .none .terminal ↔
      (∀ request fact, IsLast (requestOf execution) facts request fact →
        fact.kind ∈ openModelKinds ++ finalModelKinds) ∧
      ∀ request request' fact fact', IsLast (requestOf execution) facts request fact →
        IsLast (requestOf execution) facts request' fact' → fact.kind ∈ openModelKinds →
        fact'.kind ∈ openModelKinds → request = request' := by
  simp only [tells_def, exists_modelKindPosition_iff, unfinished_modelKindPosition_iff]

theorem tells_tools_iff : Tells (toolOf execution) facts (effectKindPosition facts) .none .terminal ↔
      (∀ tool fact, IsLast (toolOf execution) facts tool fact →
        fact.kind ∈ openToolKinds ++ finalToolKinds ∨ Unsettled facts fact) ∧
      ∀ tool tool' fact fact', IsLast (toolOf execution) facts tool fact →
        IsLast (toolOf execution) facts tool' fact' →
        (fact.kind ∈ openToolKinds ∨ Unsettled facts fact) →
        (fact'.kind ∈ openToolKinds ∨ Unsettled facts fact') → tool = tool' := by
  simp only [tells_def, exists_effectKindPosition_iff, unfinished_effectKindPosition_iff]

theorem selectActive_ne_awaitContinuation (model : ModelRecoveryPosition)
    (effect : EffectRecoveryPosition) : selectActive model effect ≠ .awaitContinuation := by
  cases model <;> cases effect <;> simp [selectActive]

/-- A suspended execution is left alone for one of four positions. -/
theorem select_eq_awaitContinuation_iff {snapshot : RuntimeRecoverySnapshot}
    (hmax : snapshot.maxRecoveries ≠ 0) :
    selectRuntimeRecovery snapshot = .awaitContinuation ↔ snapshot.execution = .suspended ∧
      (snapshot.model = .uncertain ∨ snapshot.effect = .interactionRequested ∨
        snapshot.effect = .uncertain ∨ snapshot.effect = .reconciled) := by
  rw [selectRuntimeRecovery, if_neg hmax]
  cases snapshot.execution with
  | active =>
    by_cases hbound : snapshot.maxRecoveries ≤ snapshot.recoveryOrdinal
    · simp [hbound]
    · simp [hbound, selectActive_ne_awaitContinuation]
  | suspended =>
    dsimp only
    split <;> simp_all
  | terminal => simp

theorem executionKindPosition_suspended_iff :
    executionKindPosition (.known .turnSuspended) kind = .ok .suspended ↔
      kind = .known .executionSuspended := by
  generalize hturn : FactKind.known .turnSuspended = turn
  fun_cases executionKindPosition <;> simp_all

theorem exists_modelPosition_iff : (∃ v, modelPosition facts execution = .ok v) ↔
    (∀ request fact, IsLast (requestOf execution) facts request fact →
      fact.kind ∈ openModelKinds ++ finalModelKinds) ∧
    ∀ request request' fact fact', IsLast (requestOf execution) facts request fact →
      IsLast (requestOf execution) facts request' fact' → fact.kind ∈ openModelKinds →
      fact'.kind ∈ openModelKinds → request = request' := by
  rw [← tells_requests_iff]
  exact exists_positions_latestBy_iff (f := fun fact ↦ modelKindPosition fact.kind)

theorem modelPosition_uncertain_iff {v : ModelRecoveryPosition}
    (h : modelPosition facts execution = .ok v) :
    v = .uncertain ↔ ∃ request fact, IsLast (requestOf execution) facts request fact ∧
      fact.kind = .known .modelUncertain := by
  rw [positions_latestBy_eq_iff (f := fun fact ↦ modelKindPosition fact.kind) h (by simp) (by simp)]
  simp only [modelKindPosition_eq_uncertain_iff]

theorem exists_effectPosition_iff : (∃ v, effectPosition lib facts execution = .ok v) ↔
    Named lib execution facts ∧
    (∀ id id', Pending lib execution facts id → Pending lib execution facts id' → id = id') ∧
    ((∀ id, ¬Pending lib execution facts id) →
      Tells (toolOf execution) facts (effectKindPosition facts) .none .terminal) := by
  simp only [effectPosition_eq_ok_iff, exists_and_left, exists_or, exists_eq, and_true,
    exists_positions_latestBy_iff]
  refine and_congr_right fun _ ↦ and_congr_right fun _ ↦ ?_
  by_cases hpend : ∃ id, Pending lib execution facts id
  · simp [hpend]
  · simp [not_exists.mp hpend]

theorem effectKindPosition_ne_interactionRequested (fact : DurableFact) :
    effectKindPosition facts fact ≠ .ok .interactionRequested := by
  fun_cases effectKindPosition <;> simp

theorem effectPosition_waits_iff {v : EffectRecoveryPosition}
    (h : effectPosition lib facts execution = .ok v) :
    (v = .interactionRequested ∨ v = .uncertain ∨ v = .reconciled) ↔
      (∃ id, Pending lib execution facts id) ∨
        ∃ tool fact, IsLast (toolOf execution) facts tool fact ∧ Unsettled facts fact := by
  obtain ⟨-, -, ⟨hpend, rfl⟩ | ⟨hnone, hposs⟩⟩ := effectPosition_eq_ok_iff.mp h
  · simp [hpend]
  · rw [or_iff_right (not_exists.mpr hnone), positions_latestBy_eq_iff hposs (by simp) (by simp),
      positions_latestBy_eq_iff hposs (by simp) (by simp),
      positions_latestBy_eq_iff hposs (by simp) (by simp)]
    simp only [effectKindPosition_ne_interactionRequested, and_false, false_or,
      ← exists_or, ← and_or_left, effectKindPosition_unsettled_iff]

/-- What a suspended turn's derivation and its decision come down to. -/
theorem derive_awaits_iff {turn : TurnSnapshot} {maxRecoveries : Nat} {lifecycle : DurableFact}
    (hmax : maxRecoveries ≠ 0)
    (hlife : rfind? (fun fact ↦ isTurnLifecycle fact.kind) turn.facts = some lifecycle)
    (hsusp : lifecycle.kind = .known .turnSuspended) :
    (∃ recovery, deriveRuntimeRecovery lib turn maxRecoveries = .ok recovery ∧
      selectRuntimeRecovery recovery = .awaitContinuation) ↔
        ∃ execution, Awaits lib turn.facts execution := by
  constructor
  · rintro ⟨recovery, hderive, hselect⟩
    obtain ⟨-, rfl, execution, h⟩ := deriveRuntimeRecovery_eq_ok_iff.mp hderive
    obtain ⟨hposition, hreason⟩ := (select_eq_awaitContinuation_iff hmax).mp hselect
    obtain ⟨fact, value, hfact, hexec, hvalue, hord⟩ := h.started
    obtain ⟨_, latest, hfound, hlatest, hkinds⟩ := h.position
    rw [hlife, Option.some.injEq] at hfound
    rw [← hfound, hsusp, hposition, executionKindPosition_suspended_iff] at hkinds
    obtain ⟨hrequests, honeReq⟩ := exists_modelPosition_iff.mp ⟨_, h.model⟩
    obtain ⟨hnamed, honeInter, htools⟩ := exists_effectPosition_iff.mp ⟨_, h.effect⟩
    rw [modelPosition_uncertain_iff h.model, effectPosition_waits_iff h.effect] at hreason
    exact ⟨execution, ⟨fact, value, _, hfact, hexec, hvalue, hord⟩,
      ⟨latest, hlatest, hkinds⟩, hrequests, honeReq, hnamed, honeInter,
      fun hnone ↦ (tells_tools_iff.mp (htools hnone)).1,
      fun hnone ↦ (tells_tools_iff.mp (htools hnone)).2, hreason⟩
  · rintro ⟨execution, h⟩
    obtain ⟨fact, value, ordinal, hfact, hexec, hvalue, hord⟩ := h.started
    obtain ⟨latest, hlatest, hkind⟩ := h.suspended
    obtain ⟨model, hmodel⟩ := exists_modelPosition_iff.mpr ⟨h.requests, h.oneRequest⟩
    obtain ⟨effect, heffect⟩ := exists_effectPosition_iff.mpr ⟨h.named, h.oneInteraction,
      fun hnone ↦ tells_tools_iff.mpr ⟨h.tools hnone, h.oneTool hnone⟩⟩
    have hreason := h.reason
    rw [← modelPosition_uncertain_iff hmodel, ← effectPosition_waits_iff heffect] at hreason
    -- A reason to wait is a position that is not between dispatch and outcome.
    have hdispatch : dispatchPending model effect ≤ 1 := by
      rcases hreason with rfl | rfl | rfl | rfl
      · cases effect <;> simp [dispatchPending]
      all_goals cases model <;> simp [dispatchPending]
    refine ⟨{ execution := .suspended, model, effect, recoveryOrdinal := ordinal, maxRecoveries },
      deriveRuntimeRecovery_eq_ok_iff.mpr ⟨hmax, rfl, execution,
        ⟨fact, value, hfact, hexec, hvalue, hord⟩, ⟨lifecycle, latest, hlife, hlatest, ?_⟩,
        hmodel, heffect, hdispatch⟩, (select_eq_awaitContinuation_iff hmax).mpr ⟨rfl, hreason⟩⟩
    rw [hsusp, executionKindPosition_suspended_iff, hkind]

end RuntimeTurn

namespace LedgerState

open RuntimeTurn

theorem isTurnLifecycle_eq (kind : FactKind) : isTurnLifecycle kind = (turnStateOf kind).isSome := by
  cases kind with
  | known kind => cases kind <;> rfl
  | other => rfl

theorem kind_eq_of_turnStateOf (h : turnStateOf kind = some .suspended) :
    kind = .known .turnSuspended := by
  rw [turnStateOf] at h
  revert h
  fun_cases roleOf <;> simp

/-- **Which suspended turns are recognised.** In every reachable ledger, loading a suspended turn and
deriving its positions ends in waiting for its continuation exactly when the turn's facts explain
the wait. -/
theorem awaitsContinuation_iff {lib : Externals} {state : LedgerState} {sessionId : SessionId}
    {session : SessionLedger} {turn : TurnId} {maxRecoveries : Nat} (h : Reachable lib state)
    (hsession : state.sessions[sessionId]? = some session)
    (hturn : session.projection.turns[turn]? = some .suspended) (hmax : maxRecoveries ≠ 0) :
    (∃ snapshot recovery, state.loadTurn turn = .ok snapshot ∧
      deriveRuntimeRecovery lib snapshot maxRecoveries = .ok recovery ∧
      selectRuntimeRecovery recovery = .awaitContinuation) ↔
        ∃ execution, Awaits lib (turnFacts session turn) execution := by
  obtain ⟨_, hlast, hstate⟩ := (Reachable.turn_eq_iff h hsession).mp hturn
  have hfact := List.mem_filter.mp (mem_of_rfind? hlast)
  have hload := (Reachable.wellFormed h).loadTurn_eq hsession hfact.1 (by simpa using hfact.2)
  simp only [← isTurnLifecycle_eq] at hlast
  simp only [hload, Except.ok.injEq, exists_and_left, exists_eq_left']
  exact derive_awaits_iff hmax hlast (kind_eq_of_turnStateOf hstate)

/-! ## A suspension without a reason on record -/

/-- The fields of the execution's suspension after a partial output. -/
def executionSuspendedFields : List (String × Value) :=
  [("suspension_id", .string "suspension-1"), ("reason", .string "partial_output"),
    ("continuation", inlineContent reference ""), ("usage", unknownUsage),
    ("completed_iterations", .number (.posInt 0))]

/-- The execution's suspension. -/
def executionSuspended : FactDraft :=
  executionFact ⟨"fact-execution-suspended", by simp⟩ .executionSuspended executionSuspendedFields

/-- The fields of the turn's suspension. -/
def turnSuspendedFields : List (String × Value) :=
  [("suspension_id", .string "suspension-1"), ("execution_id", .string "execution-1"),
    ("reason", .string "partial_output"), ("continuation", inlineContent reference ""),
    ("cumulative_usage", unknownUsage)]

/-- The turn's suspension. -/
def turnSuspended : FactDraft :=
  turnFact ⟨"fact-turn-suspended", by simp⟩ .turnSuspended turnSuspendedFields

/-- The suspension can be committed after the start, and leaves the turn suspended. -/
def isSuspendedNext (p : SessionProjection) : Bool :=
  (replay [[openingFact], [turnStart, executionStart]] p [([executionSuspended, turnSuspended],
    [executionSuspendedFields, turnSuspendedFields])]).toOption.any fun q ↦
      decide (q.turns[runTurn]? = some .suspended)

instance : Replayed startRun isSuspendedNext := ⟨by repeat constructor, by decide +kernel⟩

/-- The ledgers before and after the suspension, whose facts were admitted. -/
theorem exists_commit_suspended : ∃ before p after q,
    Holds reference before runSession [[openingFact], [turnStart, executionStart]] p ∧
    before.commit reference runSession 2 [executionSuspended, turnSuspended]
      = (.ok ⟨.committed, 3, [4, 5]⟩, after) ∧
    Holds reference after runSession
      [[openingFact], [turnStart, executionStart], [executionSuspended, turnSuspended]] q ∧
    (after.session runSession).projection.turns[runTurn]? = some .suspended ∧
    ∀ fact ∈ [executionSuspended, turnSuspended], validateRuntimeFact reference fact = .ok .appliedV1 := by
  obtain ⟨-, before, p, hbefore, hcheck⟩ := exists_holds_of_replayed startRun isSuspendedNext
  obtain ⟨q, hreplay, hsuspended⟩ := any_toOption.mp hcheck
  obtain ⟨hadm, _, hfollows, hq⟩ := follows_of_replay (by repeat constructor) hreplay
  cases hq
  obtain ⟨after, hcommit, hafter⟩ := hbefore.commit hfollows
  refine ⟨before, p, after, q, hbefore, hcommit, hafter, ?_, fun fact hfact ↦ ?_⟩
  · rw [hafter.projection_eq]
    exact of_decide_eq_true hsuspended
  · have hfirst : ∀ fact ∈ [executionSuspended, turnSuspended],
        fact.kind.admittedVersion? fact.schemaVersion = some .appliedV1 := by decide
    obtain ⟨_, hadm⟩ := (hadm fact hfact).exists_admissible (hfirst fact hfact)
    exact hadm.admitted

/-- The facts of the suspended turn. -/
def suspendedFacts : List DurableFact :=
  numbered runSession 2 [turnStart, executionStart, executionSuspended, turnSuspended]

/-- What is derived from them: nothing that the execution could be waiting for. -/
def suspendedRecovery : RuntimeRecoverySnapshot where
  execution := .suspended
  model := .none
  effect := .none
  recoveryOrdinal := 0
  maxRecoveries := 3

instance : Admits executionStart executionStartFields .appliedV1 := ⟨rfl, by decide +kernel⟩

theorem derived_suspendedFacts :
    Derived reference suspendedFacts runExecution suspendedRecovery where
  started := by
    refine ⟨.ofDraft runSession 3 executionStart, .ofFields executionStartFields, rfl, rfl, ?_, ?_⟩
    · have hread := (Admits.admissible executionStart).1.fromStr_eq reference_documented
      change payload reference (.ofDraft runSession 3 executionStart) = _
      rw [payload]
      change okOr ((reference.fromStr executionStart.payload.json).bind Value.asObject) _ = _
      rw [hread]
      rfl
    · simp [unsigned, executionStartFields, Number.asU64, suspendedRecovery]
  position := ⟨.ofDraft runSession 5 turnSuspended, .ofDraft runSession 4 executionSuspended,
    rfl, rfl, rfl⟩
  model := rfl
  effect := rfl
  dispatch := by decide

theorem derive_suspendedFacts (version position : Nat) :
    deriveRuntimeRecovery reference ⟨suspendedFacts, version, position⟩ 3 = .ok suspendedRecovery :=
  deriveRuntimeRecovery_eq_ok_iff.mpr ⟨by decide, rfl, runExecution, derived_suspendedFacts⟩

variable {state : LedgerState}

/-- The ledger of the run holds those facts of the turn. -/
theorem Holds.turnFacts_suspended {q : SessionProjection} (h : Holds reference state runSession
      [[openingFact], [turnStart, executionStart], [executionSuspended, turnSuspended]] q) :
    turnFacts (state.session runSession) runTurn = suspendedFacts := by
  rw [turnFacts, h.facts_eq]
  rfl

/-- A suspension for partial output, committed in one batch with valid payloads, that recovery takes
for corruption: there is no uncertain request, no unsettled effect and no interaction to explain
it. -/
theorem partial_output_suspension_fails : ∃ (before after : LedgerState) (snapshot : TurnSnapshot),
    Reachable reference before ∧
    validateRuntimeFact reference executionSuspended = .ok .appliedV1 ∧
    validateRuntimeFact reference turnSuspended = .ok .appliedV1 ∧
    before.commit reference runSession 2 [executionSuspended, turnSuspended]
      = (.ok ⟨.committed, 3, [4, 5]⟩, after) ∧
    (after.session runSession).projection.turns[runTurn]? = some .suspended ∧
    after.loadTurn runTurn = .ok snapshot ∧
    deriveRuntimeRecovery reference snapshot 3 = .ok suspendedRecovery ∧
    selectRuntimeRecovery suspendedRecovery = .failCorruptLedger := by
  obtain ⟨before, _, after, _, hbefore, hcommit, hafter, hsuspended, hadm⟩ := exists_commit_suspended
  have hmem : DurableFact.ofDraft runSession 2 turnStart
      ∈ turnFacts (after.session runSession) runTurn := by
    rw [hafter.turnFacts_suspended]
    exact List.mem_cons_self
  have hload := (Reachable.wellFormed hafter.reachable).loadTurn_eq
    (hafter.get?_sessions (List.cons_ne_nil _ _)) (List.mem_filter.mp hmem).1 rfl
  refine ⟨before, after, _, hbefore.reachable, hadm _ (by simp), hadm _ (by simp), hcommit,
    hsuspended, hload, ?_, rfl⟩
  rw [turnSnapshot, hafter.turnFacts_suspended]
  exact derive_suspendedFacts _ _

/-- The suspension, in the terms of the characterization. -/
theorem partial_output_suspension_not_awaited : ∃ state : LedgerState, Reachable reference state ∧
    (state.session runSession).projection.turns[runTurn]? = some .suspended ∧
    ¬∃ snapshot recovery, state.loadTurn runTurn = .ok snapshot ∧
      deriveRuntimeRecovery reference snapshot 3 = .ok recovery ∧
      selectRuntimeRecovery recovery = .awaitContinuation := by
  obtain ⟨_, _, after, _, -, -, hafter, hsuspended, -⟩ := exists_commit_suspended
  refine ⟨after, hafter.reachable, hsuspended, ?_⟩
  rw [awaitsContinuation_iff hafter.reachable (hafter.get?_sessions (List.cons_ne_nil _ _))
    hsuspended (by decide), hafter.turnFacts_suspended]
  rintro ⟨execution, hawaits⟩
  have hlast : rfind? (fun fact ↦ isTurnLifecycle fact.kind) suspendedFacts
      = some (.ofDraft runSession 5 turnSuspended) := rfl
  obtain ⟨recovery, hderive, hselect⟩ := (@derive_awaits_iff reference ⟨suspendedFacts, 0, 0⟩ 3 _
    (by decide) hlast rfl).mpr ⟨execution, hawaits⟩
  rw [derive_suspendedFacts, Except.ok.injEq] at hderive
  rw [← hderive] at hselect
  cases hselect

end LedgerState

end Garive
