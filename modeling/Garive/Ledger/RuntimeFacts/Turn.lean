import Garive.Ledger.RuntimeFacts.Values

/-!
# Payload rules of turns, executions and model requests

The rules for the payloads a turn's own lifecycle is written in. A turn and its execution end and
suspend with payloads of the same shape up to two fields: the turn names the execution and carries
the cumulative usage, the execution carries its own usage and its iteration count. The shared rules
take that distinction as the argument `turn`.
-/

namespace Garive.RuntimeFacts

section

variable (lib : Externals) (value : Object)

/-! ## Turns and executions -/

namespace Turn

/-- An identity that accompanies one value of an enumeration and no other. -/
def conditionalIdentity (enumKey requiring identity : String) (allowed : List String) :
    Except LedgerError Unit := do
  let found ← enumeration value enumKey allowed
  match found == requiring, value.get? identity with
  | false, none => .ok ()
  | true, some _ => nonEmpty value identity
  | _, _ => .error .invalidFact

/-- A non-zero counter that accompanies one value of an enumeration and no other. -/
def conditionalUnsigned (enumKey requiring field : String) : Except LedgerError Unit :=
  match (value.get? enumKey).bind Value.asStr == some requiring, value.get? field with
  | true, some _ => unsigned value field true
  | false, none => .ok ()
  | _, _ => .error .invalidFact

def started : Except LedgerError Unit := do
  fields value ["command_id", "kind", "agent_instance_id", "definition_id", "definition_revision",
    "snapshot_digest", "trusted_input_digest"] ["prior_suspension_id", "expected_session_version"]
  identities value ["command_id", "agent_instance_id", "definition_id", "definition_revision"]
  digest value "snapshot_digest"
  digest value "trusted_input_digest"
  conditionalIdentity value "kind" "continue" "prior_suspension_id" ["start", "continue"]
  conditionalUnsigned value "kind" "continue" "expected_session_version"

def input : Except LedgerError Unit := do
  fields value ["input_kind", "content"] ["suspension_id"]
  content lib value "content"
  let kind ← enumeration value "input_kind"
    ["trusted_user", "trusted_system", "external_input", "interaction_string", "interaction_json",
      "reconciliation", "resource_ready", "delegation_result"]
  match kind == "trusted_user" || kind == "trusted_system", value.get? "suspension_id" with
  | true, none => .ok ()
  | false, some _ => nonEmpty value "suspension_id"
  | _, _ => .error .invalidFact

def cancel : Except LedgerError Unit := do
  fields value ["command_id", "reason", "requested_through_position"] []
  nonEmpty value "command_id"
  let _ ← enumeration value "reason" ["user", "deadline", "shutdown", "operator", "policy"]
  unsigned value "requested_through_position" false

/-- The field that ties an ending to its execution: by name for a turn, by its iteration count for
the execution itself. -/
def owner (turn : Bool) : Except LedgerError Unit :=
  if turn then nonEmpty value "execution_id" else unsigned value "completed_iterations" false

/-- The usage an ending reports. -/
def endUsage (turn : Bool) : Except LedgerError Unit :=
  usage value (if turn then "cumulative_usage" else "usage")

/-- The reasons a turn can be suspended for. -/
def suspensionReasons : List String :=
  ["approval_required", "external_input_required", "operator_reconciliation",
    "resource_unavailable", "partial_output", "delegation_pending"]

def suspended (turn : Bool) : Except LedgerError Unit := do
  fields value (if turn then
      ["suspension_id", "execution_id", "reason", "continuation", "cumulative_usage"]
    else ["suspension_id", "reason", "continuation", "usage", "completed_iterations"]) []
  nonEmpty value "suspension_id"
  owner value turn
  let _ ← enumeration value "reason" suspensionReasons
  content lib value "continuation"
  endUsage value turn

def completed (turn : Bool) : Except LedgerError Unit := do
  fields value (if turn then ["execution_id", "response", "cumulative_usage"]
    else ["response", "usage", "completed_iterations"]) []
  owner value turn
  content lib value "response"
  endUsage value turn

/-- An ending with a reason and optional evidence. -/
def endedFor (reasons : List String) (turn : Bool) : Except LedgerError Unit := do
  fields value (if turn then ["execution_id", "reason", "cumulative_usage"]
    else ["reason", "usage", "completed_iterations"]) ["evidence"]
  owner value turn
  let _ ← enumeration value "reason" reasons
  optionalContent lib value "evidence"
  endUsage value turn

def stopped (turn : Bool) : Except LedgerError Unit :=
  endedFor lib value
    ["iteration_limit", "token_limit", "deadline", "cancelled", "resource_unavailable"] turn

def failed (turn : Bool) : Except LedgerError Unit :=
  endedFor lib value
    ["invalid_input", "invalid_model_output", "required_capability_unavailable", "port_failure",
      "invariant_violation", "durability_failure", "corrupt_recovery_state"] turn

def executionStarted : Except LedgerError Unit := do
  fields value
    ["snapshot_digest", "through_position", "completed_iterations", "limits", "recovery_ordinal"]
    []
  digest value "snapshot_digest"
  checkAll (fun key ↦ unsigned value key false)
    ["through_position", "completed_iterations", "recovery_ordinal"]
  limits value "limits"

def iterationStarted : Except LedgerError Unit := do
  fields value ["iteration"] []
  unsigned value "iteration" true

def abandoned : Except LedgerError Unit := do
  fields value ["reason", "last_safe_position", "recovery_ordinal"] []
  let _ ← enumeration value "reason" ["runtime_lost"]
  unsigned value "last_safe_position" false
  unsigned value "recovery_ordinal" true

def steered : Except LedgerError Unit := do
  fields value ["command_id", "steer_id", "session_version", "input"] []
  nonEmpty value "command_id"
  nonEmpty value "steer_id"
  unsigned value "session_version" false
  content lib value "input"

def effectBatchPlanned : Except LedgerError Unit := do
  fields value ["plan_digest", "conflict_graph_digest", "ordered_prepared_digests", "steps",
    "max_parallel_reads", "max_buffered_result_bytes"] []
  digest value "plan_digest"
  digest value "conflict_graph_digest"
  content lib value "ordered_prepared_digests"
  content lib value "steps"
  unsigned value "max_parallel_reads" true
  unsigned value "max_buffered_result_bytes" true

/-- The payload rule of a `turn.` or `execution.` kind. -/
def validate (kind : FactKind) : Except LedgerError Unit :=
  match kind with
  | .known .turnStarted => started value
  | .known .turnInput => input lib value
  | .known .turnCancelRequested => cancel value
  | .known .turnSuspended => suspended lib value true
  | .known .turnCompleted => completed lib value true
  | .known .turnStopped => stopped lib value true
  | .known .turnFailed => failed lib value true
  | .known .turnSteered => steered lib value
  | .known .executionStarted => executionStarted value
  | .known .executionIterationStarted => iterationStarted value
  | .known .executionAbandoned => abandoned value
  | .known .executionCompleted => completed lib value false
  | .known .executionSuspended => suspended lib value false
  | .known .executionStopped => stopped lib value false
  | .known .executionFailed => failed lib value false
  | .known .executionEffectBatchPlanned => effectBatchPlanned lib value
  | _ => .error .invalidFact

end Turn

/-! ## Model requests -/

namespace Model

def prepared : Except LedgerError Unit := do
  fields value ["request_digest", "capability_target", "deployment_id",
    "recovery_policy_revision", "max_attempts"] []
  digest value "request_digest"
  identities value ["capability_target", "deployment_id", "recovery_policy_revision"]
  unsigned value "max_attempts" true

def started : Except LedgerError Unit := do
  fields value ["request_digest", "dispatch_attempt_id"] []
  digest value "request_digest"
  nonEmpty value "dispatch_attempt_id"

def completed : Except LedgerError Unit := do
  fields value ["request_digest", "stop_reason", "items", "usage"] []
  digest value "request_digest"
  let _ ← enumeration value "stop_reason"
    ["end_turn", "tool_use", "stop_sequence", "pause_turn", "refusal", "other"]
  content lib value "items"
  usage value "usage"

def rejected : Except LedgerError Unit := do
  fields value ["request_digest", "kind"] ["evidence"]
  digest value "request_digest"
  let _ ← enumeration value "kind" ["context_overflow", "authentication", "content_policy"]
  optionalContent lib value "evidence"

def interrupted : Except LedgerError Unit := do
  fields value ["request_digest", "kind", "partial_items", "usage"] []
  digest value "request_digest"
  let _ ← enumeration value "kind" ["cancelled", "output_limit", "transport"]
  content lib value "partial_items"
  usage value "usage"

def unavailable : Except LedgerError Unit := do
  fields value ["request_digest", "kind"] ["retry_after_ms"]
  digest value "request_digest"
  let _ ← enumeration value "kind" ["rate_limited", "model_unavailable", "circuit_open"]
  optionalUnsigned value "retry_after_ms"

def uncertain : Except LedgerError Unit := do
  fields value ["request_digest", "reason"] ["evidence"]
  digest value "request_digest"
  let _ ← enumeration value "reason" ["runtime_lost", "transport_lost", "provider_state_unknown"]
  optionalContent lib value "evidence"

/-- The payload rule of a `model.` kind. -/
def validate (kind : FactKind) : Except LedgerError Unit :=
  match kind with
  | .known .modelPrepared => prepared value
  | .known .modelStarted => started value
  | .known .modelCompleted => completed lib value
  | .known .modelRejected => rejected lib value
  | .known .modelInterrupted => interrupted lib value
  | .known .modelUnavailable => unavailable value
  | .known .modelUncertain => uncertain lib value
  | _ => .error .invalidFact

end Model

end

end Garive.RuntimeFacts
