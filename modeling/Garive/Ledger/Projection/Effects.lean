import Garive.Ledger.Projection.State

/-!
# The session projection: tool invocations

The operations of a tool invocation: preparation, authorization, the safety and sandbox proofs of a
version-3 invocation, batches, dispatch, receipt, outcome and observation, the interactions that
hold an invocation up, and the artifacts committed with its outcome.
-/

namespace Garive.SessionProjection

variable (lib : Externals) (p : SessionProjection) (fact : FactDraft)

/-! ## Preparation -/

/-- The bookkeeping only a version-2 or version-3 preparation has: its result bound, and for
version 3 the digests of its exact accesses and of its sandbox requirements. -/
def prepareToolExtras (tool : ToolInvocationId) (payload : Object) :
    Except LedgerError SessionProjection :=
  if fact.schemaVersion = 2 ∨ fact.schemaVersion = 3 then do
    let bytes ← unsignedOf payload "max_result_bytes"
    if fact.schemaVersion = 3 then do
      let access ← contentDigest payload "invocation_accesses"
      let sandbox ← textOf payload "sandbox_requirements_digest"
      return { p with
        toolResultBytes := p.toolResultBytes.insert tool bytes
        toolAccessDigests := p.toolAccessDigests.insert tool access
        toolSandboxDigests := p.toolSandboxDigests.insert tool sandbox }
    else return { p with toolResultBytes := p.toolResultBytes.insert tool bytes }
  else .ok p

def prepareTool : Except LedgerError SessionProjection := do
  p.requireActiveExecution fact
  let tool ← required fact.toolInvocationId
  let execution ← required fact.executionId
  ensure (p.tools[tool]? = none) .invalidTransition
  let payload ← payloadOf lib fact
  let digest ← textOf payload "prepared_digest"
  let name ← textOf payload "tool_name"
  let revision ← textOf payload "tool_revision"
  prepareToolExtras
    { p with
      tools := p.tools.insert tool (execution, .prepared)
      toolDigests := p.toolDigests.insert tool digest
      toolRevisions := p.toolRevisions.insert tool (name, revision)
      toolContractVersions := p.toolContractVersions.insert tool fact.schemaVersion }
    fact tool payload

def rejectToolPreparation : Except LedgerError SessionProjection := do
  p.requireActiveExecution fact
  ensure (fact.toolInvocationId = none) .invalidTransition
  let request ← required fact.modelRequestId
  let execution ← required fact.executionId
  let payload ← payloadOf lib fact
  let source ← textOf payload "source_model_request_id"
  ensure (source = request.text) .invalidTransition
  let entry ← okOr p.models[request]? .missingReference
  ensure (entry = (execution, .completed)) .invalidTransition
  return p

/-! ## Batches -/

/-- The indexes of one group of parallel reads, with the sum of their result bounds. -/
def groupIndexes (tools : List ToolInvocationId) (bytes : Nat) :
    List Value → Except LedgerError (List Nat × Nat)
  | [] => .ok ([], bytes)
  | value :: rest => do
    let index ← okOr value.asU64 .invalidFact
    let tool ← okOr tools[index]? .invalidTransition
    let size ← okOr p.toolResultBytes[tool]? .invalidTransition
    let bytes ← okOr (checkedAdd bytes size) .invalidTransition
    let tail ← groupIndexes tools bytes rest
    return (index :: tail.1, tail.2)

/-- The tool indexes one step names: a single tool, or a group of reads within the bounds. -/
def oneStepIndexes (tools : List ToolInvocationId) (maxParallel maxBuffered : Nat) (step : Object) :
    Except LedgerError (List Nat) := do
  let kind ← textOf step "kind"
  if kind = "sequential_step" ∧ step.length = 2 then do
    let index ← unsignedOf step "intent_index"
    return [index]
  else if kind = "parallel_read_group" ∧ step.length = 2 then do
    let group ← okOr ((step.get? "intent_indexes").bind Value.asArray) .invalidFact
    ensure (group ≠ [] ∧ group.length ≤ maxParallel) .invalidTransition
    let found ← p.groupIndexes tools 0 group
    ensure (found.2 ≤ maxBuffered) .invalidTransition
    return found.1
  else .error .invalidFact

/-- The tool indexes a batch's steps name, in order. -/
def stepIndexes (tools : List ToolInvocationId) (maxParallel maxBuffered : Nat) :
    List Value → Except LedgerError (List Nat)
  | [] => .ok []
  | step :: rest => do
    let step ← okOr step.asObject .invalidFact
    let indexes ← p.oneStepIndexes tools maxParallel maxBuffered step
    let tail ← stepIndexes tools maxParallel maxBuffered rest
    return indexes ++ tail

/-- The steps of a batch run every tool once, in order, within the read bounds. -/
def validateBatchSteps (value : Value) (tools : List ToolInvocationId)
    (maxParallel maxBuffered : Nat) : Except LedgerError Unit := do
  let steps ← okOr value.asArray .invalidFact
  let indexes ← p.stepIndexes tools maxParallel maxBuffered steps
  ensure (indexes = List.range tools.length) .invalidTransition

/-- The authorized, unplanned version-2 invocation of the execution with a prepared digest, if it
is the only one. -/
def batchTool (execution : ExecutionId) (digest : String) : Option ToolInvocationId :=
  let found := p.tools.toList.filter fun entry ↦
    entry.2.1 == execution && entry.2.2 == .authorized
      && p.toolContractVersions[entry.1]? == some 2
      && p.toolDigests[entry.1]? == some digest
      && !p.toolBatchPlans.contains entry.1
  match found with
  | [entry] => some entry.1
  | _ => none

/-- The invocations a batch's digests name. -/
def batchTools (execution : ExecutionId) :
    List Value → Except LedgerError (List ToolInvocationId)
  | [] => .ok []
  | value :: rest => do
    let digest ← okOr value.asStr .invalidFact
    let tool ← okOr (p.batchTool execution digest) .invalidTransition
    let tail ← batchTools execution rest
    return tool :: tail

def planEffectBatch : Except LedgerError SessionProjection := do
  p.requireActiveExecution fact
  let execution ← required fact.executionId
  let payload ← payloadOf lib fact
  let plan ← textOf payload "plan_digest"
  ensure (p.effectBatches[plan]? = none) .invalidTransition
  let digests ← contentValue lib payload "ordered_prepared_digests"
  let digests ← okOr digests.asArray .invalidFact
  ensure (digests ≠ []) .invalidTransition
  let tools ← p.batchTools execution digests
  ensure tools.Nodup .invalidTransition
  let steps ← contentValue lib payload "steps"
  -- The source indexes the payload here and panics when a bound is missing. Nothing has been
  -- written at that point, so the model lets it fail like any other unreadable field.
  let maxParallel ← unsignedOf payload "max_parallel_reads"
  let maxBuffered ← unsignedOf payload "max_buffered_result_bytes"
  p.validateBatchSteps steps tools maxParallel maxBuffered
  return { p with
    toolBatchPlans := tools.foldl (fun plans tool ↦ plans.insert tool plan) p.toolBatchPlans
    effectBatches := p.effectBatches.insert plan { tools, nextStart := 0 } }

/-! ## Interactions -/

def requestInteraction : Except LedgerError SessionProjection := do
  p.requireActiveExecution fact
  let tool ← required fact.toolInvocationId
  let execution ← required fact.executionId
  ensure (p.tools[tool]? = some (execution, .prepared)
    ∨ p.tools[tool]? = some (execution, .authorized)) .invalidTransition
  ensure (¬(p.toolContractVersions[tool]? = some 3
    ∧ p.f0[tool]?.map (·.disposition) ≠ some .interactionRequired)) .invalidTransition
  let payload ← payloadOf lib fact
  let interaction ← textOf payload "interaction_id"
  let digest ← textOf payload "prepared_digest"
  ensure (p.toolDigests[tool]? = some digest ∧ p.interactions[interaction]? = none)
    .invalidTransition
  let suspension ← textOf payload "suspension_id"
  let record : InteractionRecord :=
    { execution, tool, suspensionId := suspension, preparedDigest := digest, terminal := false }
  return { p with interactions := p.interactions.insert interaction record }

def finishInteraction : Except LedgerError SessionProjection := do
  let execution ← required fact.executionId
  let tool ← required fact.toolInvocationId
  let payload ← payloadOf lib fact
  let interaction ← textOf payload "interaction_id"
  let record ← okOr p.interactions[interaction]? .missingReference
  ensure (record.terminal = false ∧ record.execution = execution ∧ record.tool = tool)
    .invalidTransition
  let suspension ← textOf payload "suspension_id"
  ensure (record.suspensionId = suspension) .invalidTransition
  let digest ← textOf payload "prepared_digest"
  ensure (record.preparedDigest = digest) .invalidTransition
  return { p with
    interactions := p.interactions.insert interaction { record with terminal := true } }

/-! ## Transitions -/

/-- The moves of a tool invocation. -/
def toolMoves : InvocationState → InvocationState → Bool
  | .prepared, .authorized
  | .prepared, .started
  | .prepared, .denied
  | .authorized, .started
  | .authorized, .denied
  | .authorized, .failed
  | .started, .receipt
  | .started, .failed
  | .started, .uncertain
  | .receipt, .completed
  | .receipt, .failed => true
  | _, _ => false

/-- What a version-3 invocation asks of a move beyond `toolMoves`. -/
def f0Moves (tool : ToolInvocationId) (current next : InvocationState) : Bool :=
  match next with
  | .authorized => current == .prepared && fact.schemaVersion == 2
  | .started => current == .authorized
  | .denied => p.f0[tool]?.any (·.disposition != .allow)
  | _ => true

/-- The sandbox proof of an invocation covers a dispatch. -/
def sandboxCovers (tool : ToolInvocationId)
    (grant executor revision attempt : String) : Bool :=
  (p.f0[tool]?.bind (·.sandbox)).any fun proof ↦
    proof.grantId == some grant && proof.executorId == executor
      && proof.executorRevision == revision && proof.dispatchAttemptId == some attempt

/-- The authorization of a version-3 invocation repeats the decision that allowed it. -/
def requireAllowedDecision (tool : ToolInvocationId) (payload : Object) : Except LedgerError Unit :=
  if p.toolContractVersions[tool]? = some 3 then do
    let record ← okOr p.f0[tool]? .invalidTransition
    ensure (record.disposition = .allow) .invalidTransition
    let digest ← textOf payload "prepared_digest"
    ensure (record.preparedDigest = digest) .invalidTransition
    let revision ← textOf payload "authority_revision"
    ensure (record.policyRevision = revision) .invalidTransition
    let constraints ← textOf payload "constraints_digest"
    ensure (record.constraintsDigest = some constraints) .invalidTransition
  else .ok ()

/-- The dispatch of a version-3 invocation is the one its sandbox proof covers. -/
def requireSandboxCover (tool : ToolInvocationId) (grant : String) (payload : Object) :
    Except LedgerError Unit :=
  if p.toolContractVersions[tool]? = some 3 then do
    let executor ← textOf payload "executor_id"
    let revision ← textOf payload "executor_revision"
    let attempt ← textOf payload "dispatch_attempt_id"
    ensure (p.sandboxCovers tool grant executor revision attempt = true) .invalidTransition
  else .ok ()

/-- Checks the evidence a move carries against the evidence so far, and records it. -/
def validateEffectBinding (tool : ToolInvocationId) (current next : InvocationState)
    (payload : Object) : Except LedgerError SessionProjection :=
  match next with
  | .authorized => do
    p.requireAllowedDecision tool payload
    let grant ← textOf payload "grant_id"
    return { p with toolGrants := p.toolGrants.insert tool grant }
  | .started => do
    let grant ← textOf payload "grant_id"
    ensure (p.toolGrants[tool]?.all (· == grant) = true) .invalidTransition
    p.requireSandboxCover tool grant payload
    let executor ← textOf payload "executor_id"
    let revision ← textOf payload "executor_revision"
    return { p with
      toolGrants := p.toolGrants.insert tool grant
      toolExecutors := p.toolExecutors.insert tool (executor, revision) }
  | .receipt => do
    let grant ← textOf payload "grant_id"
    ensure (p.toolGrants[tool]? = some grant) .invalidTransition
    let executor ← textOf payload "executor_id"
    let revision ← textOf payload "executor_revision"
    ensure (p.toolExecutors[tool]? = some (executor, revision)) .invalidTransition
    let receipt ← textOf payload "receipt_id"
    return { p with toolReceipts := p.toolReceipts.insert tool receipt }
  | .completed => do
    let receipt ← textOf payload "receipt_id"
    ensure (p.toolReceipts[tool]? = some receipt) .invalidTransition
    return p
  | .failed => do
    ensure (¬(current = .receipt
      ∧ p.toolReceipts[tool]? ≠ (payload.get? "receipt_id").bind Value.asStr)) .invalidTransition
    return p
  | _ => .ok p

/-- The batch an invocation was planned in. -/
def plannedBatch (tool : ToolInvocationId) : Option (String × EffectBatchRecord) := do
  let digest ← p.toolBatchPlans[tool]?
  let batch ← p.effectBatches[digest]?
  return (digest, batch)

/-- A version-2 invocation starts only as the next one of its batch. -/
def startsInBatchOrder (tool : ToolInvocationId) (next : InvocationState) : Bool :=
  if next = .started ∧ p.toolContractVersions[tool]? = some 2 then
    (p.plannedBatch tool).any fun entry ↦ entry.2.tools[entry.2.nextStart]? == some tool
  else true

/-- Advances the batch of a version-2 invocation that has just started. -/
def advanceBatch (tool : ToolInvocationId) (next : InvocationState) :
    Map String EffectBatchRecord :=
  if next = .started ∧ p.toolContractVersions[tool]? = some 2 then
    match p.plannedBatch tool with
    | some (digest, batch) =>
      p.effectBatches.insert digest { batch with nextStart := batch.nextStart + 1 }
    | none => p.effectBatches
  else p.effectBatches

def transitionTool (next : InvocationState) : Except LedgerError SessionProjection := do
  p.requireActiveExecution fact
  let tool ← required fact.toolInvocationId
  let execution ← required fact.executionId
  let payload ← payloadOf lib fact
  let digest ← textOf payload "prepared_digest"
  ensure (p.toolDigests[tool]? = some digest) .invalidTransition
  let entry ← okOr p.tools[tool]? .missingReference
  ensure (entry.1 = execution) .invalidTransition
  ensure (toolMoves entry.2 next = true) .invalidTransition
  ensure (p.toolContractVersions[tool]? = some 3 → p.f0Moves fact tool entry.2 next = true)
    .invalidTransition
  ensure (p.startsInBatchOrder tool next = true) .invalidTransition
  let bound ← p.validateEffectBinding tool entry.2 next payload
  return { bound with
    tools := p.tools.insert tool (execution, next)
    toolsCompletedInCommit := if next = .completed
      then p.toolsCompletedInCommit.insert tool else p.toolsCompletedInCommit
    effectBatches := p.advanceBatch tool next }

/-! ## Safety and sandbox -/

/-- The state a safety decision's disposition names. -/
def safetyDisposition (text : String) : Option SafetyDecisionState :=
  if text = "allow" then some .allow
  else if text = "deny" then some .deny
  else if text = "interaction_required" then some .interactionRequired
  else none

def decideSafety : Except LedgerError SessionProjection := do
  p.requireActiveExecution fact
  let tool ← required fact.toolInvocationId
  let execution ← required fact.executionId
  ensure (p.toolContractVersions[tool]? = some 3 ∧ p.tools[tool]? = some (execution, .prepared)
    ∧ p.f0[tool]? = none) .invalidTransition
  let payload ← payloadOf lib fact
  let digest ← textOf payload "prepared_digest"
  ensure (p.toolDigests[tool]? = some digest) .invalidTransition
  let name ← textOf payload "tool_name"
  let revision ← textOf payload "tool_revision"
  ensure (p.toolRevisions[tool]? = some (name, revision)) .invalidTransition
  let access ← textOf payload "exact_access_digest"
  ensure (p.toolAccessDigests[tool]? = some access) .invalidTransition
  let sandbox ← textOf payload "sandbox_requirements_digest"
  ensure (p.toolSandboxDigests[tool]? = some sandbox) .invalidTransition
  let dispositionText ← textOf payload "disposition"
  let disposition ← okOr (safetyDisposition dispositionText) .invalidFact
  let decision ← textOf payload "decision_id"
  let policy ← textOf payload "policy_revision"
  let record : F0Record :=
    { decisionId := decision, disposition, preparedDigest := digest, policyRevision := policy
      constraintsDigest := (payload.get? "constraints_digest").bind Value.asStr, sandbox := none }
  return { p with f0 := p.f0.insert tool record }

def bindSandbox : Except LedgerError SessionProjection := do
  p.requireActiveExecution fact
  let tool ← required fact.toolInvocationId
  let payload ← payloadOf lib fact
  let record ← okOr p.f0[tool]? .invalidTransition
  ensure (record.disposition = .allow ∧ record.sandbox = none
    ∧ p.tools[tool]?.map (·.2) = some .authorized) .invalidTransition
  let decision ← textOf payload "decision_id"
  ensure (record.decisionId = decision) .invalidTransition
  let digest ← textOf payload "prepared_digest"
  ensure (record.preparedDigest = digest) .invalidTransition
  let policy ← textOf payload "policy_revision"
  ensure (record.policyRevision = policy) .invalidTransition
  let binding ← textOf payload "binding_id"
  let executor ← textOf payload "executor_id"
  let revision ← textOf payload "executor_revision"
  let proof : SandboxProofRecord :=
    { bindingId := binding, executorId := executor, executorRevision := revision, grantId := none
      dispatchAttemptId := none }
  return { p with f0 := p.f0.insert tool { record with sandbox := some proof } }

def preflightSandbox : Except LedgerError SessionProjection := do
  p.requireActiveExecution fact
  let tool ← required fact.toolInvocationId
  let payload ← payloadOf lib fact
  let record ← okOr p.f0[tool]? .invalidTransition
  let proof ← okOr record.sandbox .invalidTransition
  let grant ← textOf payload "grant_id"
  ensure (proof.grantId = none) .invalidTransition
  let decision ← textOf payload "decision_id"
  ensure (record.decisionId = decision) .invalidTransition
  let digest ← textOf payload "prepared_digest"
  ensure (record.preparedDigest = digest) .invalidTransition
  let binding ← textOf payload "binding_id"
  ensure (proof.bindingId = binding) .invalidTransition
  let executor ← textOf payload "executor_id"
  ensure (proof.executorId = executor) .invalidTransition
  let revision ← textOf payload "executor_revision"
  ensure (proof.executorRevision = revision) .invalidTransition
  ensure (p.toolGrants[tool]? = some grant) .invalidTransition
  let attempt ← textOf payload "dispatch_attempt_id"
  let proved := { proof with grantId := some grant, dispatchAttemptId := some attempt }
  return { p with f0 := p.f0.insert tool { record with sandbox := some proved } }

/-! ## Observation, reconciliation, artifacts -/

/-- The outcomes an observation may follow. -/
def observable : InvocationState → Bool
  | .completed | .failed | .denied | .reconciled => true
  | _ => false

/-- A reconciled invocation is observed under its suspended execution, as it was reconciled; every
other one under its active execution. -/
def requireObserver (tool : ToolInvocationId) (state : InvocationState) (payload : Object) :
    Except LedgerError Unit :=
  if state = .reconciled then do
    p.requireSuspendedExecution fact
    ensure (p.toolReconciledObservations[tool]? = payload.get? "observation") .invalidTransition
  else p.requireActiveExecution fact

def observeTool : Except LedgerError SessionProjection := do
  let tool ← required fact.toolInvocationId
  let execution ← required fact.executionId
  let payload ← payloadOf lib fact
  let entry ← okOr p.tools[tool]? .missingReference
  ensure (entry.1 = execution ∧ observable entry.2 = true) .invalidTransition
  p.requireObserver fact tool entry.2 payload
  let digest ← textOf payload "prepared_digest"
  ensure (p.toolDigests[tool]? = some digest) .invalidTransition
  return { p with tools := p.tools.insert tool (execution, .observed) }

def reconcileTool : Except LedgerError SessionProjection := do
  p.requireSuspendedExecution fact
  let tool ← required fact.toolInvocationId
  let execution ← required fact.executionId
  let payload ← payloadOf lib fact
  let digest ← textOf payload "prepared_digest"
  ensure (p.toolDigests[tool]? = some digest ∧ p.tools[tool]? = some (execution, .uncertain))
    .invalidTransition
  let observation ← okOr (payload.get? "observation") .invalidFact
  return { p with
    tools := p.tools.insert tool (execution, .reconciled)
    toolReconciledObservations := p.toolReconciledObservations.insert tool observation }

def commitArtifact : Except LedgerError SessionProjection := do
  p.requireActiveExecution fact
  let tool ← required fact.toolInvocationId
  let execution ← required fact.executionId
  ensure (p.toolsCompletedInCommit.contains tool = true
    ∧ p.tools[tool]? = some (execution, .completed)) .invalidTransition
  let payload ← payloadOf lib fact
  let receipt ← textOf payload "receipt_id"
  ensure (p.toolReceipts[tool]? = some receipt) .invalidTransition
  let artifact ← textOf payload "artifact_id"
  let revision ← unsignedOf payload "revision"
  ensure ((artifact, revision) ∉ p.artifacts) .invalidTransition
  return { p with artifacts := (artifact, revision) :: p.artifacts }

end Garive.SessionProjection
