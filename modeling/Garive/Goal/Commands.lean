import Garive.Goal.Recovery
import Garive.Ledger.Written

/-!
# Goal commands

A Goal command is planned against the session as it is: the Goals are reconstructed, the command is
checked, and the result is one fact together with the state it predicts. Nothing is written until the
fact is committed at the version the command was planned at.

The lemmas at the end say that recovery, given the fact, arrives at the predicted state.
-/

namespace Garive

open RuntimeKind

/-- Authenticated metadata bound to one idempotent Goal command. -/
structure GoalCommandContext where
  commandId : String
  actorReference : String
  recordedAt : String

/-- Runtime metadata required around one portable Goal transition. -/
inductive GoalRuntimeTransition where
  /-- Start a new attempt from Draft, or resume the current attempt from Suspended. -/
  | activate (planReference : Option String)
  /-- Suspend active work with a typed durable continuation reference. -/
  | suspend (reason : String) (suspensionReference : Option String)
  /-- Close only with complete portable evidence. -/
  | succeed (evidence : List GoalEvidenceV1)
  /-- End unsuccessfully with optional canonical supporting evidence. -/
  | fail (code : String) (evidence : Option (List GoalEvidenceV1))
  /-- Cancel under the authenticated command actor. -/
  | cancel (reason : String)
  /-- Replace definition content and return to Draft. -/
  | revise (definition : GoalDefinitionV1) (replacementReason : String)

/-- One validated fact batch and its predicted Goal projection. -/
structure PlannedGoalCommand where
  facts : List FactDraft
  next : GoalRuntimeState

namespace GoalCommand

variable (lib : Externals)

/-! ## Errors and payloads -/

def mapGoal : GoalErrorCode → GoalRuntimeError
  | .goalRevisionConflict => .revisionConflict
  | .goalTransitionInvalid => .transitionInvalid
  | .goalEvidenceInsufficient => .evidenceInsufficient
  | .goalScopeExceeded => .scopeExceeded
  | .goalInvalid => .invalid

def mapLedger : LedgerError → GoalRuntimeError
  | .idempotencyCollision | .incompleteReplay => .commandConflict
  | .concurrentModification => .revisionConflict
  | .invalidTransition => .transitionInvalid
  | _ => .invalid

def requireNonEmpty (value : String) : Except GoalRuntimeError Unit := ensure (value ≠ "") .invalid

def optionalNonEmpty (value : Option String) : Except GoalRuntimeError Unit :=
  ensure (value ≠ some "") .invalid

def validateContext (context : GoalCommandContext) : Except GoalRuntimeError Unit := do
  requireNonEmpty context.commandId
  requireNonEmpty context.actorReference
  ensure (lib.parseFromRfc3339 context.recordedAt = true) .invalid

/-- The fields that every payload after the first starts with. -/
def commonPayload (context : GoalCommandContext) (goalId : GoalId) (revision : Nat) :
    List (String × Value) :=
  [("command_id", .string context.commandId), ("goal_id", .string goalId),
    ("revision", .number (.posInt revision)), ("actor_reference", .string context.actorReference)]

/-- A field that is written only when there is a text for it. -/
def optionalText (key : String) (value : Option String) : List (String × Value) :=
  value.toList.map fun text ↦ (key, .string text)

/-- The fact of a command, whose identity is the command's. -/
def fact (context : GoalCommandContext) (kind : RuntimeKind) (fields : List (String × Value)) :
    Except GoalRuntimeError FactDraft := do
  let factId ← okOr (LedgerIdentity.tryFrom context.commandId) .invalid
  let payload ← (CanonicalPayload.fromValue lib (json fields)).mapError fun _ ↦ .invalid
  return {
    factId
    turnId := none
    executionId := none
    modelRequestId := none
    toolInvocationId := none
    kind := .known kind
    schemaVersion := 1
    payload
    recordedAt := context.recordedAt }

/-! ## Creation -/

/-- A non-empty text of a stored payload. -/
def storedText (value : Object) (key : String) : Except GoalRuntimeError String :=
  okOr (((value.get? key).bind Value.asStr).filter (· != "")) .recoveryCorrupt

/-- Notes the command of one creation, unless its Goal was created before. -/
def scanCreation (commands : Map GoalId String) (fact : DurableFact) :
    Except GoalRuntimeError (Map GoalId String) := do
  let value ← GoalEvidence.payload lib fact
  let goalId ← storedText value "goal_id"
  let commandId ← storedText value "command_id"
  ensure (commands.contains goalId = false) .recoveryCorrupt
  return commands.insert goalId commandId

/-- The command that created each Goal. -/
def creationCommands (facts : List DurableFact) : Except GoalRuntimeError (Map GoalId String) :=
  (facts.filter (·.kind == .known .goalCreated)).foldlM (scanCreation lib) ∅

/-- The number of Goals whose parent is the given one. -/
def childCount (graph : GoalGraph) (parentId : GoalId) : Nat :=
  graph.toList.countP fun entry ↦ entry.2.snapshot.definition.parentGoalId == some parentId

/-- The parent of a new Goal exists, is not closed, and has room for a child within its grant. -/
def admitChild (graph : GoalGraph) (definition : GoalDefinitionV1) :
    Except GoalRuntimeError Unit :=
  match definition.parentGoalId with
  | none => .ok ()
  | some parentId => do
    let parent ← okOr graph[parentId]? .scopeExceeded
    ensure (parent.snapshot.state.isTerminal = false) .transitionInvalid
    (definition.validateChildOf parent.snapshot.definition).mapError mapGoal
    ensure (childCount graph parentId < parent.snapshot.definition.bounds.maxChildGoals.toNat)
      .scopeExceeded

/-- A Goal that exists may only be created again by the command that created it. -/
def admitCreation (commands : Map GoalId String) (graph : GoalGraph)
    (context : GoalCommandContext) (definition : GoalDefinitionV1) :
    Except GoalRuntimeError Unit :=
  match commands[definition.goalId]? with
  | some commandId => ensure (commandId = context.commandId) .commandConflict
  | none => admitChild graph definition

/-- The fact of a creation. -/
def creationFact (context : GoalCommandContext) (definition : GoalDefinitionV1) :
    Except GoalRuntimeError FactDraft := do
  let definitionJson ← definition.canonicalJson.mapError mapGoal
  let definitionDigest ← (definition.digest lib).mapError mapGoal
  fact lib context .goalCreated
    [("command_id", .string context.commandId), ("goal_id", .string definition.goalId),
      ("revision", .number (.posInt 1)), ("definition_digest", .string definitionDigest),
      ("definition", inlineContent lib definitionJson),
      ("actor_reference", .string context.actorReference)]

/-- Plans creation of revision 1 without mutating durable state. -/
def planCreateGoal (ledger : LedgerState) (sessionId : SessionId) (context : GoalCommandContext)
    (definition : GoalDefinitionV1) : Except GoalRuntimeError PlannedGoalCommand := do
  validateContext lib context
  ensure (definition.scope.sessionId.all (· == sessionId.text) = true) .scopeExceeded
  let watermark ← okOr (ledger.sessionWatermark sessionId) .notFound
  let facts ← (ledger.readFacts lib sessionId 0 watermark.maxPosition none).mapError mapLedger
  let commands ← creationCommands lib facts
  let graph ← reconstructGoalGraphFromFacts lib facts watermark.sessionVersion watermark.maxPosition
  admitCreation commands graph context definition
  let created ← creationFact lib context definition
  return {
    facts := [created]
    next := {
      snapshot := .new definition
      attemptNumber := 0
      sessionVersion := watermark.sessionVersion
      throughPosition := watermark.maxPosition } }

/-! ## Transitions -/

/-- A command's fact before it is written, the transition it stands for and the attempt it leads
to. -/
structure Draft where
  kind : RuntimeKind
  fields : List (String × Value)
  transition : GoalTransition
  attemptNumber : Nat

/-- Activation from Draft starts a new attempt. -/
def activationAttempt (current : GoalRuntimeState) : Except GoalRuntimeError Nat :=
  if current.snapshot.state = .draft then okOr (checkedAddU32 current.attemptNumber 1) .invalid
  else .ok current.attemptNumber

/-- Checks a request and drafts its fact. -/
def draft (current : GoalRuntimeState) (context : GoalCommandContext) (nextRevision : Nat)
    (previousDigest : String) (request : GoalRuntimeTransition) : Except GoalRuntimeError Draft :=
  let snapshot := current.snapshot
  let common := commonPayload context snapshot.definition.goalId nextRevision
  match request with
  | .activate planReference => do
    optionalNonEmpty planReference
    let attempt ← activationAttempt current
    ensure (attempt ≤ snapshot.definition.bounds.maxAttempts.toNat) .transitionInvalid
    return {
      kind := .goalActivated
      fields := common ++ [("attempt_number", .number (.posInt attempt))] ++
        optionalText "plan_reference" planReference
      transition := .activate
      attemptNumber := attempt }
  | .suspend reason suspensionReference => do
    requireNonEmpty reason
    optionalNonEmpty suspensionReference
    return {
      kind := .goalSuspended
      fields := common ++ [("reason", .string reason)] ++
        optionalText "suspension_reference" suspensionReference
      transition := .suspend reason
      attemptNumber := current.attemptNumber }
  | .succeed evidence => do
    let evidenceJson ← (GoalEvidenceV1.canonicalJson evidence).mapError mapGoal
    return {
      kind := .goalSucceeded
      fields := common ++ [("evidence", inlineContent lib evidenceJson)]
      transition := .succeed evidence
      attemptNumber := current.attemptNumber }
  | .fail code none => do
    requireNonEmpty code
    return {
      kind := .goalFailed
      fields := common ++ [("code", .string code)]
      transition := .fail code
      attemptNumber := current.attemptNumber }
  | .fail code (some evidence) => do
    requireNonEmpty code
    let evidenceJson ← (GoalEvidenceV1.canonicalJson evidence).mapError mapGoal
    return {
      kind := .goalFailed
      fields := common ++ [("code", .string code), ("evidence", inlineContent lib evidenceJson)]
      transition := .fail code
      attemptNumber := current.attemptNumber }
  | .cancel reason => do
    requireNonEmpty reason
    return {
      kind := .goalCancelled
      fields := common ++ [("reason", .string reason)]
      transition := .cancel reason
      attemptNumber := current.attemptNumber }
  | .revise definition replacementReason => do
    requireNonEmpty replacementReason
    let definitionJson ← definition.canonicalJson.mapError mapGoal
    let definitionDigest ← (definition.digest lib).mapError mapGoal
    return {
      kind := .goalRevised
      fields := common ++ [("previous_revision", .number (.posInt snapshot.revision)),
        ("previous_definition_digest", .string previousDigest),
        ("definition_digest", .string definitionDigest),
        ("definition", inlineContent lib definitionJson),
        ("replacement_reason", .string replacementReason)]
      transition := .revise definition
      attemptNumber := current.attemptNumber }

/-- Plans one transition of a Goal from its current state. -/
def planGoalTransitionFromState (current : GoalRuntimeState) (expectedRevision : Nat)
    (context : GoalCommandContext) (request : GoalRuntimeTransition) :
    Except GoalRuntimeError PlannedGoalCommand := do
  validateContext lib context
  ensure (expectedRevision = current.snapshot.revision) .revisionConflict
  let previousDigest ← (current.snapshot.definition.digest lib).mapError mapGoal
  let nextRevision ← okOr (checkedAdd expectedRevision 1) .invalid
  let drafted ← draft lib current context nextRevision previousDigest request
  let snapshot ← (current.snapshot.apply expectedRevision drafted.transition).mapError mapGoal
  let planned ← fact lib context drafted.kind drafted.fields
  return {
    facts := [planned]
    next := { current with snapshot, attemptNumber := drafted.attemptNumber } }

/-- The evidence of a request that closes a Goal successfully is borne out by the session. -/
def verifyRequest (graph : GoalGraph) (facts : List DurableFact) (sessionVersion : Nat)
    (goalId : GoalId) (current : GoalRuntimeState) :
    GoalRuntimeTransition → Except GoalRuntimeError Unit
  | .succeed evidence => GoalEvidence.verifyGoalSuccessEvidence lib goalId
      current.snapshot.definition.criteria evidence graph facts sessionVersion none
  | _ => .ok ()

def mapGraph : GoalGraphError → GoalRuntimeError
  | .missingParent | .scopeExceeded => .scopeExceeded
  | .cycle => .cycle

/-- The parent of the planned Goal exists, is not closed, and has no more children than it may. -/
def admitParent (graph : GoalGraph) (definition : GoalDefinitionV1) :
    Except GoalRuntimeError Unit :=
  match definition.parentGoalId with
  | none => .ok ()
  | some parentId => do
    let parent ← okOr graph[parentId]? .scopeExceeded
    ensure (parent.snapshot.state.isTerminal = false) .transitionInvalid
    ensure (childCount graph parentId ≤ parent.snapshot.definition.bounds.maxChildGoals.toNat)
      .scopeExceeded

/-- Plans one exact-revision transition without mutating durable state. -/
def planGoalTransition (ledger : LedgerState) (sessionId : SessionId) (goalId : GoalId)
    (expectedRevision : Nat) (context : GoalCommandContext) (request : GoalRuntimeTransition) :
    Except GoalRuntimeError PlannedGoalCommand := do
  ensure (goalId ≠ "") .invalid
  let watermark ← okOr (ledger.sessionWatermark sessionId) .notFound
  let facts ← (ledger.readFacts lib sessionId 0 watermark.maxPosition none).mapError mapLedger
  let graph ← reconstructGoalGraphFromFacts lib facts watermark.sessionVersion watermark.maxPosition
  let current ← okOr graph[goalId]? .notFound
  verifyRequest lib graph facts watermark.sessionVersion goalId current request
  let planned ← planGoalTransitionFromState lib current expectedRevision context request
  let next : GoalGraph := graph.insert goalId planned.next
  next.validate.mapError mapGraph
  admitParent next planned.next.snapshot.definition
  return planned

/-- Commits an already validated Goal command with session optimistic concurrency. -/
def commitGoalCommand (ledger : LedgerState) (sessionId : SessionId) (expectedSessionVersion : Nat)
    (planned : PlannedGoalCommand) : Except GoalRuntimeError CommitResult × LedgerState :=
  let (answer, next) := ledger.commit lib sessionId expectedSessionVersion planned.facts
  (answer.mapError mapLedger, next)

/-! ## Facts that recovery reads back -/

/-- A fact that recovery reads as one step of a Goal. -/
structure GoalFact (lib : Externals) (draft : FactDraft) (goalId : GoalId)
    (before : Option (GoalSnapshot × Nat)) (after : GoalSnapshot × Nat) : Prop where
  ns : draft.kind.ns? = some .goal
  read : ∀ (sessionId : SessionId) (position : Nat) (entries : GoalRecovery.Entries),
    entries[goalId]? = before →
      GoalRecovery.read lib entries (.ofDraft sessionId position draft) =
        .ok (entries.insert goalId after)
  success : ∀ (sessionId : SessionId) (position : Nat) (other : GoalId),
    GoalEvidence.recordsSuccess lib other (.ofDraft sessionId position draft) = true ↔
      other = goalId ∧ after.1.state = .succeeded

variable {lib : Externals} {context : GoalCommandContext} {kind : RuntimeKind}
  {fields : List (String × Value)} {written : FactDraft}

theorem fact_eq_ok_iff : fact lib context kind fields = .ok written ↔
    ∃ (factId : FactId) (payload : CanonicalPayload), factId.text = context.commandId ∧
      CanonicalPayload.fromValue lib (json fields) = .ok payload ∧
      written = ⟨factId, none, none, none, none, .known kind, 1, payload, context.recordedAt⟩ := by
  simp only [fact, ok_iff, LedgerIdentity.tryFrom_eq_some_iff]
  constructor
  · rintro ⟨factId, hid, payload, hpay, rfl⟩
    exact ⟨factId, payload, hid, hpay, rfl⟩
  · rintro ⟨factId, payload, hid, hpay, rfl⟩
    exact ⟨factId, hid, payload, hpay, rfl⟩

/-- What recovery reads from a fact that was written from fields. -/
theorem payload_of_fact (hlib : lib.Documented) (hplain : ∀ entry ∈ fields, entry.2.Plain 126)
    (h : fact lib context kind fields = .ok written) (sessionId : SessionId) (position : Nat) :
    GoalEvidence.payload lib (.ofDraft sessionId position written) = .ok (.ofFields fields) := by
  obtain ⟨_, payload, -, hpay, rfl⟩ := fact_eq_ok_iff.mp h
  have hread := CanonicalPayload.fromStr_of_fromValue hlib (Value.plain_json hplain) hpay
  simp [GoalEvidence.payload, DurableFact.ofDraft, hread, json]

/-- A fact written from fields is a step of its Goal when recovery applies it as such. -/
theorem goalFact_of_fact (hlib : lib.Documented) (hplain : ∀ entry ∈ fields, entry.2.Plain 126)
    (h : fact lib context kind fields = .ok written) {goalId : GoalId}
    {before : Option (GoalSnapshot × Nat)} {after : GoalSnapshot × Nat} (hns : kind.ns = .goal)
    (hid : goalId ≠ "") (hgoal : Object.get? fields "goal_id" = some (.string goalId))
    (hcmd : Object.get? fields "command_id" = some (.string context.commandId))
    (hsuccess : kind = .goalSucceeded ↔ after.1.state = .succeeded)
    (happly : ∀ (sessionId : SessionId) (position : Nat), GoalRecovery.apply lib before
      (.ofDraft sessionId position written) = .ok after) :
    GoalFact lib written goalId before after := by
  have hpay := payload_of_fact hlib hplain h
  obtain ⟨factId, _, hfactId, hvalue, rfl⟩ := fact_eq_ok_iff.mp h
  have hgoalText : GoalRecovery.text (.ofFields fields) "goal_id" = .ok goalId := by
    simp [GoalRecovery.text, hgoal]
  have hcmdText : GoalRecovery.text (.ofFields fields) "command_id" = .ok factId.text := by
    simp [GoalRecovery.text, hcmd, hfactId]
  refine ⟨by simp [hns], fun sessionId position entries hbef ↦ ?_,
    fun sessionId position other ↦ ?_⟩
  · rw [GoalRecovery.read, hpay, ok_bind, hgoalText, ok_bind, ensure_of hid, ok_bind,
      hcmdText, ok_bind, ensure_of (by rfl), ok_bind, hbef, happly]
    rfl
  · have hread := CanonicalPayload.fromStr_of_fromValue hlib (Value.plain_json hplain) hvalue
    simp only [GoalEvidence.recordsSuccess, DurableFact.ofDraft, hread, Option.bind_some, json,
      Value.get?_object, Object.get?_ofFields, hgoal, Value.asStr_string, Bool.and_eq_true,
      beq_iff_eq, FactKind.known.injEq, Option.some.injEq, hsuccess]
    rw [and_comm, eq_comm]

variable {definition : GoalDefinitionV1} {value : Object}

/-- Recovery reads back the definition that a payload carries. -/
theorem definition_of_fields (hlib : lib.Documented) {definitionJson definitionDigest : String}
    (hjson : definition.canonicalJson = .ok definitionJson)
    (hdig : definition.digest lib = .ok definitionDigest)
    (hdef : value.get? "definition" = some (inlineContent lib definitionJson))
    (hbound : value.get? "definition_digest" = some (.string definitionDigest)) :
    GoalRecovery.definition lib value = .ok definition := by
  simp [GoalRecovery.definition, GoalRecovery.inline, GoalRecovery.text, GoalRecovery.digestOf,
    hdef, hbound, inlineContent, json,
    GoalDefinitionV1.fromCanonicalJson_of_canonicalJson hlib hjson, hdig, Except.mapError]

/-- Recovery reads back the evidence that a payload carries. -/
theorem evidence_of_fields (hlib : lib.Documented) {evidence : List GoalEvidenceV1}
    {evidenceJson : String} (hjson : GoalEvidenceV1.canonicalJson evidence = .ok evidenceJson)
    (hevid : value.get? "evidence" = some (inlineContent lib evidenceJson)) :
    GoalRecovery.evidence lib value "evidence" = .ok evidence := by
  simp [GoalRecovery.evidence, GoalRecovery.inline, hevid, inlineContent, json,
    GoalEvidenceV1.listFromCanonicalJson_of_canonicalJson hlib hjson, Except.mapError]

/-- The fact of a creation is the first step of its Goal. -/
theorem goalFact_of_creationFact (hlib : lib.Documented)
    (h : creationFact lib context definition = .ok written) :
    GoalFact lib written definition.goalId none (.new definition, 0) := by
  simp only [creationFact, ok_iff] at h
  obtain ⟨definitionJson, hjson, definitionDigest, hdig, hfact⟩ := h
  have hplain : ∀ entry ∈ [("command_id", Value.string context.commandId),
      ("goal_id", .string definition.goalId), ("revision", .number (.posInt 1)),
      ("definition_digest", .string definitionDigest),
      ("definition", inlineContent lib definitionJson),
      ("actor_reference", .string context.actorReference)], entry.2.Plain 126 := by
    simp [plain_inlineContent, Value.plain_posInt]
  refine goalFact_of_fact hlib hplain hfact rfl definition.admitted.goalId_nonempty (by simp)
    (by simp) (by simp [GoalSnapshot.new]) fun sessionId position ↦ ?_
  have hkind : (DurableFact.ofDraft sessionId position written).kind = .known .goalCreated := by
    obtain ⟨_, _, -, -, rfl⟩ := fact_eq_ok_iff.mp hfact
    rfl
  rw [GoalRecovery.apply, payload_of_fact hlib hplain hfact, hkind, ok_bind, if_pos rfl,
    definition_of_fields hlib hjson hdig (by simp) (by simp)]
  simp [GoalRecovery.unsigned, GoalRecovery.text, Number.asU64]

/-- A drafted fact that recovery can read: its fields can be stored, name the Goal, the command and
the next revision, and stand for the transition they were drafted for. -/
structure Draft.Readable (lib : Externals) (current : GoalRuntimeState)
    (context : GoalCommandContext) (nextRevision : Nat) (drafted : Draft) : Prop where
  plain : nextRevision < 2 ^ 64 → current.snapshot.revision < 2 ^ 64 →
    ∀ entry ∈ drafted.fields, entry.2.Plain 126
  command : Object.get? drafted.fields "command_id" = some (.string context.commandId)
  goal : Object.get? drafted.fields "goal_id" = some (.string current.snapshot.definition.goalId)
  revision : Object.get? drafted.fields "revision" = some (.number (.posInt nextRevision))
  ns : drafted.kind.ns = .goal
  ne_created : drafted.kind ≠ .goalCreated
  succeeded_iff : drafted.kind = .goalSucceeded ↔ ∃ evidence, drafted.transition = .succeed evidence
  attempt_lt : drafted.attemptNumber < 2 ^ 32
  read : (drafted.transition = .activate →
      current.snapshot.state = .draft ∨ current.snapshot.state = .suspended) →
    GoalRecovery.transition lib current.snapshot current.attemptNumber (.known drafted.kind)
      (.ofFields drafted.fields) = .ok (drafted.transition, drafted.attemptNumber)

variable {request : GoalRuntimeTransition} {current : GoalRuntimeState}

/-- Every request is drafted readably. -/
theorem readable_of_draft (hlib : lib.Documented) {nextRevision : Nat} {previousDigest : String}
    {drafted : Draft} (hatt : current.attemptNumber < 2 ^ 32)
    (hprevious : current.snapshot.definition.digest lib = .ok previousDigest)
    (h : draft lib current context nextRevision previousDigest request = .ok drafted) :
    drafted.Readable lib current context nextRevision := by
  have hrev : ∀ {n : Nat}, n < 2 ^ 64 → (Value.number (.posInt n)).Plain 126 :=
    Value.plain_posInt
  cases request with
  | activate planReference =>
    simp only [draft, ok_iff] at h
    obtain ⟨-, attempt, hstarted, hbound, rfl⟩ := h
    have hlt : attempt < 2 ^ 32 := Nat.lt_of_le_of_lt hbound (UInt32.toNat_lt _)
    constructor
    case plain =>
      intro hnext _
      cases planReference <;> simp [commonPayload, optionalText, hrev hnext,
        hrev (Nat.lt_trans hlt (by decide : 2 ^ 32 < 2 ^ 64))]
    case attempt_lt => exact hlt
    case read =>
      intro hstate
      have hactivated : GoalRecovery.activatedAttempt current.snapshot.state current.attemptNumber =
          .ok attempt := by
        rcases hstate rfl with hdraft | hsusp
        · rw [activationAttempt, if_pos hdraft, okOr_eq_ok_iff] at hstarted
          rw [hdraft, GoalRecovery.activatedAttempt, hstarted, okOr_some]
        · rw [activationAttempt, if_neg (by simp [hsusp])] at hstarted
          rw [hsusp, GoalRecovery.activatedAttempt, Except.ok.inj hstarted]
      simp [GoalRecovery.transition, GoalRecovery.unsigned, commonPayload, Number.asU64,
        hactivated, ensure_of (show attempt < 4294967296 from hlt)]
    all_goals simp [commonPayload, ns, parts]
  | suspend reason suspensionReference =>
    simp only [draft, ok_iff] at h
    obtain ⟨-, -, rfl⟩ := h
    constructor
    case plain =>
      intro hnext _
      cases suspensionReference <;> simp [commonPayload, optionalText, hrev hnext]
    case attempt_lt => exact hatt
    all_goals simp [commonPayload, ns, parts, GoalRecovery.transition,
      GoalRecovery.text]
  | succeed evidence =>
    simp only [draft, ok_iff] at h
    obtain ⟨evidenceJson, hjson, rfl⟩ := h
    constructor
    case plain =>
      intro hnext _
      simp [commonPayload, hrev hnext, plain_inlineContent]
    case attempt_lt => exact hatt
    case read =>
      intro _
      simp [GoalRecovery.transition, evidence_of_fields hlib hjson, commonPayload]
    all_goals simp [commonPayload, ns, parts]
  | fail code evidence =>
    cases evidence with
    | none =>
      simp only [draft, ok_iff] at h
      obtain ⟨-, rfl⟩ := h
      constructor
      case plain =>
        intro hnext _
        simp [commonPayload, hrev hnext]
      case attempt_lt => exact hatt
      all_goals simp [commonPayload, ns, parts, GoalRecovery.transition,
        GoalRecovery.text]
    | some evidence =>
      simp only [draft, ok_iff] at h
      obtain ⟨-, evidenceJson, hjson, rfl⟩ := h
      constructor
      case plain =>
        intro hnext _
        simp [commonPayload, hrev hnext, plain_inlineContent]
      case attempt_lt => exact hatt
      case read =>
        intro _
        simp [GoalRecovery.transition, evidence_of_fields hlib hjson, commonPayload,
          GoalRecovery.text]
      all_goals simp [commonPayload, ns, parts]
  | cancel reason =>
    simp only [draft, ok_iff] at h
    obtain ⟨-, rfl⟩ := h
    constructor
    case plain =>
      intro hnext _
      simp [commonPayload, hrev hnext]
    case attempt_lt => exact hatt
    all_goals simp [commonPayload, ns, parts, GoalRecovery.transition,
      GoalRecovery.text]
  | revise definition replacementReason =>
    simp only [draft, ok_iff] at h
    obtain ⟨-, _, hjson, _, hdig, rfl⟩ := h
    constructor
    case plain =>
      intro hnext hcur
      simp [commonPayload, hrev hnext, hrev hcur, plain_inlineContent]
    case attempt_lt => exact hatt
    case read =>
      intro _
      simp [GoalRecovery.transition, definition_of_fields hlib hjson hdig, commonPayload,
        GoalRecovery.unsigned, GoalRecovery.text, GoalRecovery.digestOf, hprevious, Number.asU64,
        Except.mapError]
    all_goals simp [commonPayload, ns, parts]

/-- Only a request for success closes a Goal successfully. -/
theorem succeeded_iff_of_apply {snapshot next : GoalSnapshot} {transition : GoalTransition}
    (h : snapshot.apply expectedRevision transition = .ok next) :
    next.state = .succeeded ↔ ∃ evidence, transition = .succeed evidence := by
  simp only [GoalSnapshot.apply, ok_iff] at h
  obtain ⟨-, -, _, -, h⟩ := h
  cases transition <;>
    simp only [ok_iff] at h
  case succeed => obtain ⟨-, -, rfl⟩ := h; simp
  all_goals
    obtain ⟨-, rfl⟩ := h
    simp

/-- The fact of a planned transition is the next step of its Goal. -/
theorem goalFact_of_planned (hlib : lib.Documented) {planned : PlannedGoalCommand}
    (hatt : current.attemptNumber < 2 ^ 32)
    (h : planGoalTransitionFromState lib current expectedRevision context request = .ok planned) :
    ∃ draft, planned.facts = [draft] ∧ current.snapshot.state.isTerminal = false ∧
      planned.next.attemptNumber < 2 ^ 32 ∧
      planned.next.snapshot.definition.goalId = current.snapshot.definition.goalId ∧
      GoalFact lib draft current.snapshot.definition.goalId
        (some (current.snapshot, current.attemptNumber))
        (planned.next.snapshot, planned.next.attemptNumber) := by
  simp only [planGoalTransitionFromState, ok_iff, checkedAdd_eq_some_iff] at h
  obtain ⟨-, rfl, _, hprevious, nextRevision, ⟨hrev, hlt⟩, drafted, hdrafted, next,
    happly, written, hfact, rfl⟩ := h
  obtain ⟨-, hopen, -, -, hid⟩ := GoalSnapshot.apply_eq_ok happly
  have hreadable := readable_of_draft hlib hatt hprevious hdrafted
  have hplain := hreadable.plain hlt (by omega)
  refine ⟨written, rfl, hopen, hreadable.attempt_lt, hid, ?_⟩
  refine goalFact_of_fact hlib hplain hfact hreadable.ns
    current.snapshot.definition.admitted.goalId_nonempty hreadable.goal hreadable.command
    (hreadable.succeeded_iff.trans (succeeded_iff_of_apply happly).symm) fun sessionId position ↦ ?_
  have hkind : (DurableFact.ofDraft sessionId position written).kind = .known drafted.kind := by
    obtain ⟨_, _, -, -, rfl⟩ := fact_eq_ok_iff.mp hfact
    rfl
  have hrevRead : GoalRecovery.unsigned (.ofFields drafted.fields) "revision" =
      .ok nextRevision := by
    simp [GoalRecovery.unsigned, hreadable.revision, Number.asU64]
  have hactivate : drafted.transition = .activate →
      current.snapshot.state = .draft ∨ current.snapshot.state = .suspended := by
    intro htrans
    rw [htrans] at happly
    simp only [GoalSnapshot.apply, ok_iff] at happly
    obtain ⟨-, -, -, -, hstate, -⟩ := happly
    exact hstate
  have hnext : checkedAdd current.snapshot.revision 1 = some nextRevision :=
    checkedAdd_eq_some_iff.mpr ⟨hrev, hlt⟩
  rw [GoalRecovery.apply, payload_of_fact hlib hplain hfact, hkind, ok_bind,
    if_neg (by simpa using hreadable.ne_created), okOr_some, ok_bind]
  simp only [hnext, okOr_some, ok_bind, hrevRead, ensure_true, hreadable.read hactivate, happly,
    Except.mapError, pure_eq_ok]

end GoalCommand

end Garive
