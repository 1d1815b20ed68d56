import Garive.Ledger.History

/-!
# Facts as a runtime writes them

The facts of a small runtime: it opens turns, runs executions, ends both, prepares and starts tools
behind a gate and in batches, delegates work, and keeps a schedule. Each writer fixes the payload and
leaves the identities free. Concrete runs are put together from these and replayed from the fields.
-/

namespace Garive

namespace LedgerState

/-- The identities a fact carries. -/
structure Scope where
  turn : Option TurnId := none
  execution : Option ExecutionId := none
  request : Option ModelRequestId := none
  tool : Option ToolInvocationId := none

/-- A fact written from fields. -/
def scopedFact (scope : Scope) (id : FactId) (kind : RuntimeKind) (version : UInt32)
    (fields : List (String × Value)) : FactDraft :=
  { referenceFact id kind (json fields) with
    turnId := scope.turn
    executionId := scope.execution
    modelRequestId := scope.request
    toolInvocationId := scope.tool
    schemaVersion := version }

/-! ## Turns and executions -/

/-- A second turn of the concrete runs. -/
def otherTurn : TurnId := ⟨"turn-2", by simp⟩

/-- Its execution. -/
def otherExecution : ExecutionId := ⟨"execution-2", by simp⟩

/-- A tool of the concrete runs. -/
def runTool : ToolInvocationId := ⟨"tool-1", by simp⟩

/-- A turn starts. -/
def startTurn (turn : TurnId) (id : FactId) : FactDraft :=
  scopedFact { turn := some turn } id .turnStarted 1 turnStartFields

/-- An execution of a turn starts. -/
def startExecution (turn : TurnId) (execution : ExecutionId) (id : FactId) : FactDraft :=
  scopedFact { turn := some turn, execution := some execution } id .executionStarted 1
    executionStartFields

/-- The fields with which an execution stops. -/
def stopExecutionFields : List (String × Value) :=
  [("reason", .string "cancelled"), ("usage", unknownUsage),
    ("completed_iterations", .number (.posInt 0))]

/-- An execution stops. -/
def stopExecution (turn : TurnId) (execution : ExecutionId) (id : FactId) : FactDraft :=
  scopedFact { turn := some turn, execution := some execution } id .executionStopped 1
    stopExecutionFields

/-- The fields with which a turn stops with its execution. -/
def stopTurnFields (execution : ExecutionId) : List (String × Value) :=
  [("execution_id", .string execution.text), ("reason", .string "cancelled"),
    ("cumulative_usage", unknownUsage)]

/-- A turn stops. -/
def stopTurn (turn : TurnId) (execution : ExecutionId) (id : FactId) : FactDraft :=
  scopedFact { turn := some turn } id .turnStopped 1 (stopTurnFields execution)

/-! ## Tools and interactions -/

/-- The fields of a prepared tool in its first contract version. -/
def prepareToolFields : List (String × Value) :=
  [("prepared_digest", runDigest), ("tool_name", .string "tool"),
    ("tool_revision", .string "revision-1"), ("replay_class", .string "never_replay"),
    ("model_call_id", .string "call-1")]

/-- A tool is prepared in its first contract version. -/
def prepareTool (turn : TurnId) (execution : ExecutionId) (tool : ToolInvocationId) (id : FactId) :
    FactDraft :=
  scopedFact { turn := some turn, execution := some execution, tool := some tool } id
    .effectPrepared 1 prepareToolFields

/-- The fields of an interaction that holds a prepared tool up. -/
def requestInteractionFields : List (String × Value) :=
  [("interaction_id", .string "interaction-1"), ("suspension_id", .string "suspension-1"),
    ("prepared_digest", runDigest), ("kind", .string "approval"),
    ("prompt", inlineContent reference ""), ("response_schema", inlineContent reference ""),
    ("response_schema_digest", runDigest), ("expiry_code", .string "none")]

/-- An interaction is requested for a prepared tool. -/
def requestInteraction (turn : TurnId) (execution : ExecutionId) (tool : ToolInvocationId)
    (id : FactId) : FactDraft :=
  scopedFact { turn := some turn, execution := some execution, tool := some tool } id
    .interactionRequested 1 requestInteractionFields

/-- The fields of an answer to it. -/
def resolveInteractionFields : List (String × Value) :=
  [("interaction_id", .string "interaction-1"), ("suspension_id", .string "suspension-1"),
    ("prepared_digest", runDigest), ("response", inlineContent reference "")]

/-- The interaction is resolved. -/
def resolveInteraction (turn : TurnId) (execution : ExecutionId) (tool : ToolInvocationId)
    (id : FactId) : FactDraft :=
  scopedFact { turn := some turn, execution := some execution, tool := some tool } id
    .interactionResolved 1 resolveInteractionFields

/-! ## Gated tools -/

/-- A fact about a tool invocation. -/
def toolFact (turn : TurnId) (execution : ExecutionId) (tool : ToolInvocationId) (id : FactId)
    (kind : RuntimeKind) (version : UInt32) (fields : List (String × Value)) : FactDraft :=
  scopedFact { turn := some turn, execution := some execution, tool := some tool } id kind version
    fields

/-- The fields of a prepared tool in its third contract version. -/
def prepareGatedFields : List (String × Value) :=
  [("prepared_contract_version", .number (.posInt 3)), ("prepared_digest", runDigest),
    ("tool_name", .string "tool"), ("tool_revision", .string "revision-1"),
    ("replay_class", .string "never_replay"), ("model_call_id", .string "call-1"),
    ("arguments", inlineContent reference ""), ("access_policy_revision", .string "policy-1"),
    ("access_resolver_revision", .string "resolver-1"),
    ("invocation_accesses", inlineContent reference ""), ("max_result_bytes", .number (.posInt 1)),
    ("sandbox_requirements", inlineContent reference ""), ("sandbox_requirements_digest", runDigest)]

/-- The fields of the decision that allows it. -/
def allowFields : List (String × Value) :=
  [("request_id", .string "request-1"), ("decision_id", .string "decision-1"),
    ("disposition", .string "allow"), ("prepared_digest", runDigest), ("tool_name", .string "tool"),
    ("tool_revision", .string "revision-1"), ("actor_authority_reference", .string "authority-1"),
    ("exact_access_digest", runDigest), ("sandbox_requirements_digest", runDigest),
    ("policy_revision", .string "policy-1"), ("constraints_digest", runDigest)]

/-- The fields of its authorization. -/
def authorizeGatedFields : List (String × Value) :=
  [("prepared_contract_version", .number (.posInt 3)), ("prepared_digest", runDigest),
    ("grant_id", .string "grant-1"), ("authority_revision", .string "policy-1"),
    ("constraints_digest", runDigest), ("granted_requirements", inlineContent reference "")]

/-- The fields with which a sandbox is bound to it. -/
def bindSandboxFields : List (String × Value) :=
  [("binding_id", .string "binding-1"), ("decision_id", .string "decision-1"),
    ("prepared_digest", runDigest), ("workspace_capability_id", .string "workspace-1"),
    ("executor_id", .string "executor-1"), ("executor_revision", .string "revision-1"),
    ("policy_revision", .string "policy-1"), ("access_scope_digest", runDigest),
    ("enforcement_digest", runDigest), ("effective_limits_digest", runDigest)]

/-- The fields of the sandbox's preflight. -/
def preflightSandboxFields : List (String × Value) :=
  [("preflight_id", .string "preflight-1"), ("binding_id", .string "binding-1"),
    ("decision_id", .string "decision-1"), ("prepared_digest", runDigest),
    ("grant_id", .string "grant-1"), ("executor_id", .string "executor-1"),
    ("executor_revision", .string "revision-1"), ("dispatch_attempt_id", .string "attempt-1")]

/-- The fields of its start. -/
def startToolFields : List (String × Value) :=
  [("prepared_digest", runDigest), ("grant_id", .string "grant-1"),
    ("executor_id", .string "executor-1"), ("executor_revision", .string "revision-1"),
    ("dispatch_attempt_id", .string "attempt-1")]

/-! ## Batched tools -/

/-- Content that keeps a value inline. -/
def valueContent (value : Value) : Value :=
  inlineContent reference (referencePayload value).json

/-- The fields of a prepared tool in its second contract version. -/
def prepareBatchedFields : List (String × Value) :=
  [("prepared_contract_version", .number (.posInt 2)), ("prepared_digest", runDigest),
    ("tool_name", .string "tool"), ("tool_revision", .string "revision-1"),
    ("replay_class", .string "read_only"), ("model_call_id", .string "call-1"),
    ("access_policy_revision", .string "policy-1"), ("access_resolver_revision", .string "resolver-1"),
    ("invocation_accesses", inlineContent reference ""), ("max_result_bytes", .number (.posInt 1))]

/-- The fields of its authorization. -/
def authorizeFields : List (String × Value) :=
  [("prepared_digest", runDigest), ("grant_id", .string "grant-1"),
    ("authority_revision", .string "policy-1"), ("granted_requirements", inlineContent reference "")]

/-- The only step of a batch of one. -/
def onlyStep : Value :=
  .object [("intent_index", .number (.posInt 0)), ("kind", .string "sequential_step")]

/-- The fields of a plan for one tool. -/
def planFields : List (String × Value) :=
  [("plan_digest", runDigest), ("conflict_graph_digest", runDigest),
    ("ordered_prepared_digests", valueContent (.array [runDigest])),
    ("steps", valueContent (.array [onlyStep])), ("max_parallel_reads", .number (.posInt 1)),
    ("max_buffered_result_bytes", .number (.posInt 1))]

/-- A batch of one tool is planned. -/
def planBatch (turn : TurnId) (execution : ExecutionId) (id : FactId) : FactDraft :=
  scopedFact { turn := some turn, execution := some execution } id .executionEffectBatchPlanned 1
    planFields

/-! ## Delegations -/

/-- A fact of a turn's execution. -/
def runFact (turn : TurnId) (execution : ExecutionId) (id : FactId) (kind : RuntimeKind)
    (fields : List (String × Value)) : FactDraft :=
  scopedFact { turn := some turn, execution := some execution } id kind 1 fields

/-- The fields of a request. -/
def requestDelegationFields : List (String × Value) :=
  [("delegation_id", .string "delegation-1"), ("parent_agent_instance_id", .string "agent-1"),
    ("intent", inlineContent reference ""), ("intent_digest", runDigest),
    ("through_position", .number (.posInt 0))]

/-- The budget of the child. -/
def childBudget : List (String × Value) :=
  RuntimeFacts.Delegation.budgetFields.map fun key ↦ (key, .number (.posInt 1))

/-- The fields of an authorization. -/
def authorizeDelegationFields : List (String × Value) :=
  [("delegation_id", .string "delegation-1"), ("grant_id", .string "grant-1"),
    ("intent_digest", runDigest), ("reserved_budget", json childBudget),
    ("authority_revision", .string "policy-1")]

/-- The fields with which an execution waits for a delegation. -/
def suspendExecutionFields : List (String × Value) :=
  [("suspension_id", .string "suspension-1"), ("reason", .string "delegation_pending"),
    ("continuation", inlineContent reference ""), ("usage", unknownUsage),
    ("completed_iterations", .number (.posInt 0))]

/-- The fields with which a turn waits for a delegation. -/
def suspendTurnFields (execution : ExecutionId) : List (String × Value) :=
  [("suspension_id", .string "suspension-1"), ("execution_id", .string execution.text),
    ("reason", .string "delegation_pending"), ("continuation", inlineContent reference ""),
    ("cumulative_usage", unknownUsage)]

/-- A turn waits for a delegation. -/
def suspendTurn (turn : TurnId) (execution : ExecutionId) (id : FactId) : FactDraft :=
  scopedFact { turn := some turn } id .turnSuspended 1 (suspendTurnFields execution)

/-- The fields with which the child starts. -/
def startChildFields (child : TurnId) : List (String × Value) :=
  [("delegation_id", .string "delegation-1"), ("grant_id", .string "grant-1"),
    ("suspension_id", .string "suspension-1"), ("child_agent_instance_id", .string "agent-1"),
    ("child_turn_id", .string child.text), ("child_snapshot_digest", runDigest)]

/-! ## A turn that waits for its child -/

/-- A turn starts, hands work over and waits. -/
def waitBatch : List FactDraft :=
  [startTurn runTurn ⟨"fact-parent-started", by simp⟩,
    startExecution runTurn runExecution ⟨"fact-parent-execution-started", by simp⟩,
    runFact runTurn runExecution ⟨"fact-delegation-requested", by simp⟩ .delegationRequested
      requestDelegationFields,
    runFact runTurn runExecution ⟨"fact-delegation-authorized", by simp⟩ .delegationAuthorized
      authorizeDelegationFields,
    runFact runTurn runExecution ⟨"fact-parent-execution-suspended", by simp⟩ .executionSuspended
      suspendExecutionFields,
    suspendTurn runTurn runExecution ⟨"fact-parent-suspended", by simp⟩]

/-- The child starts to work for it. -/
def startRunChild (child : TurnId) : FactDraft :=
  runFact runTurn runExecution ⟨"fact-child-started", by simp⟩ .delegationChildStarted
    (startChildFields child)

/-- The other turn starts, so that it can be the child. -/
def startOther : FactDraft := startTurn otherTurn ⟨"fact-child-turn-started", by simp⟩

/-! ## Schedules -/

/-- The schedule of the concrete runs. -/
def runSchedule : String := "schedule-1"

/-- A fact of a session's schedule. -/
def scheduleFact (id : FactId) (kind : RuntimeKind) (fields : List (String × Value)) : FactDraft :=
  scopedFact {} id kind 1 fields

/-- The time at which everything is due. -/
def dueTime : Value := .string "2026-01-01T00:00:00Z"

def createScheduleFields (revision : String) : List (String × Value) :=
  [("command_id", .string "command-1"), ("schedule_id", .string runSchedule),
    ("revision_id", .string revision), ("intent", inlineContent reference ""),
    ("intent_digest", runDigest)]

def claimScheduleFields (revision : String) (ordinal : Nat) (lease : String) (epoch : Nat) :
    List (String × Value) :=
  [("schedule_id", .string runSchedule), ("revision_id", .string revision),
    ("occurrence_id", .string "occurrence-1"), ("ordinal", .number (.posInt ordinal)),
    ("due_at_utc", dueTime), ("lease_id", .string lease), ("lease_epoch", .number (.posInt epoch)),
    ("through_position", .number (.posInt 0))]

def fireScheduleFields (revision : String) (ordinal : Nat) : List (String × Value) :=
  [("schedule_id", .string runSchedule), ("revision_id", .string revision),
    ("occurrence_id", .string "occurrence-1"), ("ordinal", .number (.posInt ordinal)),
    ("runtime_command_id", .string "command-1"), ("disposition", .string "committed"),
    ("committed_position", .number (.posInt 1))]

def skipScheduleFields (revision : String) (first last : Nat) : List (String × Value) :=
  [("schedule_id", .string runSchedule), ("revision_id", .string revision),
    ("first_ordinal", .number (.posInt first)), ("last_ordinal", .number (.posInt last)),
    ("first_due_at_utc", dueTime), ("last_due_at_utc", dueTime), ("observed_at_utc", dueTime)]

def supersedeScheduleFields (revision : String) : List (String × Value) :=
  [("command_id", .string "command-1"), ("schedule_id", .string runSchedule),
    ("expected_revision_id", .string revision), ("reason", .string "superseded")]

def exhaustScheduleFields (revision : String) (last : Nat) : List (String × Value) :=
  [("schedule_id", .string runSchedule), ("revision_id", .string revision),
    ("last_handled_ordinal", .number (.posInt last))]

end LedgerState

end Garive
