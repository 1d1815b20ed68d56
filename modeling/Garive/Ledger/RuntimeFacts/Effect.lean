import Garive.Ledger.RuntimeFacts.Values

/-!
# Payload rules of external effects

The rules for tool invocations: preparation in its three contract versions, authorization, dispatch,
receipt, terminal outcome and observation, the interactions that hold an invocation up, the safety
and sandbox proofs of a version-3 invocation, and the artifacts an invocation leaves behind.
-/

namespace Garive.RuntimeFacts

section

variable (lib : Externals) (value : Object)

namespace Effect

/-- The admitted replay classes. -/
def replayClasses : List String :=
  ["read_only", "idempotent", "receipt_recoverable", "never_replay"]

/-- The payload states the prepared contract version it is written in. -/
def contractVersion (version : Nat) : Except LedgerError Unit :=
  ensure ((value.get? "prepared_contract_version").bind Value.asU64 = some version) .invalidFact

def preparedV2 : Except LedgerError Unit := do
  fields value ["prepared_contract_version", "prepared_digest", "tool_name", "tool_revision",
    "replay_class", "model_call_id", "access_policy_revision", "access_resolver_revision",
    "invocation_accesses", "max_result_bytes"] []
  contractVersion value 2
  digest value "prepared_digest"
  identities value ["tool_name", "tool_revision", "model_call_id", "access_policy_revision",
    "access_resolver_revision"]
  let _ ← enumeration value "replay_class" replayClasses
  content lib value "invocation_accesses"
  unsigned value "max_result_bytes" true

def preparedV3 : Except LedgerError Unit := do
  fields value ["prepared_contract_version", "prepared_digest", "tool_name", "tool_revision",
    "replay_class", "model_call_id", "arguments", "access_policy_revision",
    "access_resolver_revision", "invocation_accesses", "max_result_bytes", "sandbox_requirements",
    "sandbox_requirements_digest"] []
  contractVersion value 3
  digest value "prepared_digest"
  content lib value "arguments"
  identities value ["tool_name", "tool_revision", "model_call_id", "access_policy_revision",
    "access_resolver_revision"]
  let _ ← enumeration value "replay_class" replayClasses
  content lib value "invocation_accesses"
  unsigned value "max_result_bytes" true
  content lib value "sandbox_requirements"
  digest value "sandbox_requirements_digest"
  ensure ((value.get? "sandbox_requirements").bind (·.get? "digest")
    = value.get? "sandbox_requirements_digest") .invalidFact

def authorizedV2 : Except LedgerError Unit := do
  fields value ["prepared_contract_version", "prepared_digest", "grant_id", "authority_revision",
    "constraints_digest", "granted_requirements"] []
  contractVersion value 3
  digest value "prepared_digest"
  identities value ["grant_id", "authority_revision"]
  digest value "constraints_digest"
  content lib value "granted_requirements"

def interactionRequested : Except LedgerError Unit := do
  fields value ["interaction_id", "suspension_id", "prepared_digest", "kind", "prompt",
    "response_schema", "response_schema_digest", "expiry_code"] ["response_schema"]
  identities value ["interaction_id", "suspension_id"]
  digests value ["prepared_digest", "response_schema_digest"]
  optionalContent lib value "response_schema"
  let _ ← enumeration value "kind" ["approval", "external_input"]
  let _ ← enumeration value "expiry_code" ["none", "turn_deadline", "policy_deadline"]
  content lib value "prompt"
  content lib value "response_schema"

def interactionResolved : Except LedgerError Unit := do
  fields value ["interaction_id", "suspension_id", "prepared_digest", "response"] []
  identities value ["interaction_id", "suspension_id"]
  digest value "prepared_digest"
  content lib value "response"

def interactionCancelled : Except LedgerError Unit := do
  fields value ["interaction_id", "suspension_id", "prepared_digest", "reason"] []
  identities value ["interaction_id", "suspension_id"]
  digest value "prepared_digest"
  let _ ← enumeration value "reason" ["user", "expired", "turn_cancelled", "operator"]
  return ()

def preparationRejected : Except LedgerError Unit := do
  fields value ["source_model_request_id", "model_call_id", "proposed_tool_name", "code",
    "failure_paths"] []
  identities value ["source_model_request_id", "model_call_id"]
  let _ ← string value "proposed_tool_name"
  let _ ← enumeration value "code" ["invalid_tool_name", "tool_not_admitted",
    "invalid_arguments_json", "arguments_schema_mismatch", "non_canonical_value"]
  content lib value "failure_paths"

def prepared : Except LedgerError Unit := do
  fields value ["prepared_digest", "tool_name", "tool_revision", "replay_class", "model_call_id"] []
  digest value "prepared_digest"
  identities value ["tool_name", "tool_revision", "model_call_id"]
  let _ ← enumeration value "replay_class" replayClasses
  return ()

def authorized : Except LedgerError Unit := do
  fields value ["prepared_digest", "grant_id", "authority_revision", "granted_requirements"] []
  digest value "prepared_digest"
  identities value ["grant_id", "authority_revision"]
  content lib value "granted_requirements"

def denied : Except LedgerError Unit := do
  fields value ["prepared_digest", "code"] ["safe_details"]
  digest value "prepared_digest"
  let _ ← enumeration value "code" ["authorization_denied", "replacement_required"]
  optionalContent lib value "safe_details"

def started : Except LedgerError Unit := do
  fields value ["prepared_digest", "grant_id", "executor_id", "executor_revision",
    "dispatch_attempt_id"] []
  digest value "prepared_digest"
  identities value ["grant_id", "executor_id", "executor_revision", "dispatch_attempt_id"]

def receipt : Except LedgerError Unit := do
  fields value ["receipt_id", "prepared_digest", "grant_id", "executor_id", "executor_revision",
    "classification", "result_or_evidence"] []
  digest value "prepared_digest"
  identities value ["receipt_id", "grant_id", "executor_id", "executor_revision"]
  let _ ← enumeration value "classification" ["completed", "failed"]
  content lib value "result_or_evidence"

def completed : Except LedgerError Unit := do
  fields value ["prepared_digest", "receipt_id", "result"] []
  digest value "prepared_digest"
  nonEmpty value "receipt_id"
  content lib value "result"

def failed : Except LedgerError Unit := do
  fields value ["prepared_digest", "code"] ["receipt_id", "evidence"]
  digest value "prepared_digest"
  optionalNonEmpty value "receipt_id"
  let _ ← enumeration value "code" ["timeout", "cancelled", "tool_failure",
    "requirement_unsupported", "executor_unavailable"]
  optionalContent lib value "evidence"

def uncertain : Except LedgerError Unit := do
  fields value ["prepared_digest", "reason"] ["evidence"]
  digest value "prepared_digest"
  let _ ← enumeration value "reason"
    ["started_without_receipt", "receipt_invalid", "executor_state_unknown"]
  optionalContent lib value "evidence"

def reconciled : Except LedgerError Unit := do
  fields value ["prepared_digest", "decision", "operator_evidence", "observation"] []
  digest value "prepared_digest"
  let _ ← enumeration value "decision" ["completed", "failed"]
  content lib value "operator_evidence"
  content lib value "observation"

def observation : Except LedgerError Unit := do
  fields value ["prepared_digest", "model_call_id", "observation"] []
  digest value "prepared_digest"
  nonEmpty value "model_call_id"
  content lib value "observation"

/-- The payload rule of an `effect.` or `interaction.` kind, and of a rejected preparation. -/
def validate (kind : FactKind) : Except LedgerError Unit :=
  match kind with
  | .known .interactionRequested => interactionRequested lib value
  | .known .interactionResolved => interactionResolved lib value
  | .known .interactionCancelled => interactionCancelled value
  | .known .toolPreparationRejected => preparationRejected lib value
  | .known .effectPrepared => prepared value
  | .known .effectAuthorized => authorized lib value
  | .known .effectDenied => denied lib value
  | .known .effectStarted => started value
  | .known .effectReceipt => receipt lib value
  | .known .effectCompleted => completed lib value
  | .known .effectFailed => failed lib value
  | .known .effectUncertain => uncertain lib value
  | .known .effectReconciled => reconciled lib value
  | .known .effectObservation => observation lib value
  | _ => .error .invalidFact

end Effect

/-! ## Safety and sandbox proofs -/

namespace F0

/-- The safe code of a decision that does not allow the call. -/
def exactCode (expected : String) : Except LedgerError Unit :=
  ensure ((value.get? "safe_code").bind Value.asStr = some expected) .invalidFact

def safetyDecided : Except LedgerError Unit := do
  fields value ["request_id", "decision_id", "disposition", "prepared_digest", "tool_name",
    "tool_revision", "actor_authority_reference", "exact_access_digest",
    "sandbox_requirements_digest", "policy_revision"]
    ["goal_reference", "plan_reference", "constraints_digest", "safe_code"]
  identities value ["request_id", "decision_id", "tool_name", "tool_revision",
    "actor_authority_reference", "policy_revision"]
  optionalNonEmpty value "goal_reference"
  optionalNonEmpty value "plan_reference"
  digests value ["prepared_digest", "exact_access_digest", "sandbox_requirements_digest"]
  let disposition ← enumeration value "disposition" ["allow", "deny", "interaction_required"]
  if disposition = "allow" ∧ (value.get? "safe_code").isNone then
    digest value "constraints_digest"
  else if disposition = "deny" ∧ (value.get? "constraints_digest").isNone then
    exactCode value "safety_denied"
  else if disposition = "interaction_required" ∧ (value.get? "constraints_digest").isNone then
    exactCode value "safety_interaction_required"
  else .error .invalidFact

def sandboxBound : Except LedgerError Unit := do
  fields value ["binding_id", "decision_id", "prepared_digest", "workspace_capability_id",
    "executor_id", "executor_revision", "policy_revision", "access_scope_digest",
    "enforcement_digest", "effective_limits_digest"] []
  identities value ["binding_id", "decision_id", "workspace_capability_id", "executor_id",
    "executor_revision", "policy_revision"]
  digests value ["prepared_digest", "access_scope_digest", "enforcement_digest",
    "effective_limits_digest"]

def sandboxPreflighted : Except LedgerError Unit := do
  fields value ["preflight_id", "binding_id", "decision_id", "prepared_digest", "grant_id",
    "executor_id", "executor_revision", "dispatch_attempt_id"] []
  identities value ["preflight_id", "binding_id", "decision_id", "grant_id", "executor_id",
    "executor_revision", "dispatch_attempt_id"]
  digest value "prepared_digest"

/-- The payload rule of a `safety.` or `sandbox.` kind. -/
def validate (kind : FactKind) : Except LedgerError Unit :=
  match kind with
  | .known .safetyDecided => safetyDecided value
  | .known .sandboxBound => sandboxBound value
  | .known .sandboxPreflighted => sandboxPreflighted value
  | _ => .error .invalidFact

end F0

/-! ## Artifacts -/

namespace Artifact

/-- A Boolean field. -/
def boolean (key : String) : Except LedgerError Unit :=
  ensure (((value.get? key).bind Value.asBool).isSome = true) .invalidFact

def committed : Except LedgerError Unit := do
  fields value ["artifact_id", "revision", "receipt_id", "display_name", "kind", "mime_type",
    "byte_size", "content_digest", "verification", "preview", "workspace_id", "revealable",
    "exportable"] []
  identities value ["artifact_id", "receipt_id", "display_name", "mime_type", "workspace_id"]
  unsigned value "revision" true
  unsigned value "byte_size" false
  digest value "content_digest"
  let _ ← enumeration value "kind" ["text", "file"]
  let _ ← enumeration value "verification" ["not_run", "passed", "failed", "partial"]
  let _ ← enumeration value "preview" ["unavailable", "text"]
  checkAll (boolean value) ["revealable", "exportable"]

/-- The payload rule of an `artifact.` kind. -/
def validate (kind : FactKind) : Except LedgerError Unit :=
  match kind with
  | .known .artifactCommitted => committed value
  | _ => .error .invalidFact

end Artifact

end

end Garive.RuntimeFacts
