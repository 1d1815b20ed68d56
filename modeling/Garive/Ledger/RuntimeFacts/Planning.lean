import Garive.Ledger.RuntimeFacts.Values

/-!
# Payload rules of goals and plans

The rules for goals, for plans and their proposals, and for the steps of a plan. Every mutation of a
plan carries the state version it starts from and the next one.
-/

namespace Garive.RuntimeFacts

section

variable (lib : Externals) (value : Object)

/-! ## Goals -/

namespace Goal

def common : Except LedgerError Unit := do
  nonEmpty value "command_id"
  nonEmpty value "goal_id"
  unsigned value "revision" true

def created : Except LedgerError Unit := do
  fields value ["command_id", "goal_id", "revision", "definition_digest", "definition",
    "actor_reference"] []
  common value
  ensure ((value.get? "revision").bind Value.asU64 = some 1) .invalidFact
  digest value "definition_digest"
  content lib value "definition"
  nonEmpty value "actor_reference"

def revised : Except LedgerError Unit := do
  fields value ["command_id", "goal_id", "previous_revision", "revision",
    "previous_definition_digest", "definition_digest", "definition", "replacement_reason",
    "actor_reference"] []
  common value
  unsigned value "previous_revision" true
  successor value "previous_revision" "revision"
  digest value "previous_definition_digest"
  digest value "definition_digest"
  content lib value "definition"
  nonEmpty value "replacement_reason"
  nonEmpty value "actor_reference"

def activated : Except LedgerError Unit := do
  fields value ["command_id", "goal_id", "revision", "attempt_number", "actor_reference"]
    ["plan_reference"]
  common value
  unsigned value "attempt_number" true
  optionalNonEmpty value "plan_reference"
  nonEmpty value "actor_reference"

def suspended : Except LedgerError Unit := do
  fields value ["command_id", "goal_id", "revision", "reason", "actor_reference"]
    ["suspension_reference"]
  common value
  nonEmpty value "reason"
  optionalNonEmpty value "suspension_reference"
  nonEmpty value "actor_reference"

def succeeded : Except LedgerError Unit := do
  fields value ["command_id", "goal_id", "revision", "evidence", "actor_reference"] []
  common value
  content lib value "evidence"
  nonEmpty value "actor_reference"

def failed : Except LedgerError Unit := do
  fields value ["command_id", "goal_id", "revision", "code", "actor_reference"] ["evidence"]
  common value
  nonEmpty value "code"
  optionalContent lib value "evidence"
  nonEmpty value "actor_reference"

def cancelled : Except LedgerError Unit := do
  fields value ["command_id", "goal_id", "revision", "reason", "actor_reference"] []
  common value
  nonEmpty value "reason"
  nonEmpty value "actor_reference"

/-- The payload rule of a `goal.` kind. -/
def validate (kind : FactKind) : Except LedgerError Unit :=
  match kind with
  | .known .goalCreated => created lib value
  | .known .goalRevised => revised lib value
  | .known .goalActivated => activated value
  | .known .goalSuspended => suspended value
  | .known .goalSucceeded => succeeded lib value
  | .known .goalFailed => failed lib value
  | .known .goalCancelled => cancelled value
  | _ => .error .invalidFact

end Goal

/-! ## Plans -/

namespace Plan

def base : Except LedgerError Unit := do
  nonEmpty value "command_id"
  nonEmpty value "plan_id"
  unsigned value "plan_revision" true

def mutation : Except LedgerError Unit := do
  base value
  unsigned value "previous_state_version" true
  unsigned value "state_version" true
  successor value "previous_state_version" "state_version"

def mutationWith (additional optional : List String) : Except LedgerError Unit := do
  fields value (["command_id", "plan_id", "plan_revision"]
    ++ ["previous_state_version", "state_version"] ++ additional) optional
  mutation value

def continuation : Except LedgerError Unit := do
  let _ ← enumeration value "continuation_kind" ["interaction", "policy", "reconciliation"]
  nonEmpty value "continuation_reference"

/-- The failed steps of an admitted replan: some, each a non-empty text, all distinct. -/
def failedStepIds (steps : List Value) : Except LedgerError Unit :=
  ensure (steps ≠ [] ∧ (∀ step ∈ steps, step.asStr.any (· ≠ "") = true) ∧ steps.Nodup) .invalidFact

def replanAdmitted : Except LedgerError Unit := do
  fields value ["command_id", "source_plan_id", "source_plan_revision",
    "source_plan_definition_digest", "goal_id", "goal_revision", "goal_definition_digest",
    "failed_step_ids", "policy_reference", "expected_session_version", "through_position",
    "decision_evidence"] []
  identities value ["command_id", "source_plan_id", "goal_id", "policy_reference"]
  unsigned value "source_plan_revision" true
  unsigned value "goal_revision" true
  unsigned value "expected_session_version" true
  unsigned value "through_position" false
  digest value "source_plan_definition_digest"
  digest value "goal_definition_digest"
  content lib value "decision_evidence"
  let failed ← elements value "failed_step_ids"
  failedStepIds failed

def proposalResultBoundValues : Except LedgerError Unit := do
  identities value ["command_id", "goal_id", "request_fact_id", "planner_turn_id",
    "planner_execution_id", "terminal_fact_id"]
  unsigned value "goal_revision" true
  digests value ["goal_definition_digest", "terminal_payload_digest", "result_digest"]

def proposalResultBound : Except LedgerError Unit := do
  fields value ["command_id", "goal_id", "goal_revision", "goal_definition_digest",
    "request_fact_id", "planner_turn_id", "planner_execution_id", "terminal_fact_id",
    "terminal_payload_digest", "result_digest"] []
  proposalResultBoundValues value

def replanSourceValues : Except LedgerError Unit := do
  nonEmpty value "admission_fact_id"
  nonEmpty value "source_plan_id"
  unsigned value "source_plan_revision" true
  digest value "source_plan_definition_digest"

def replanProposalResultBound : Except LedgerError Unit := do
  fields value ["command_id", "goal_id", "goal_revision", "goal_definition_digest",
    "admission_fact_id", "source_plan_id", "source_plan_revision", "source_plan_definition_digest",
    "request_fact_id", "planner_turn_id", "planner_execution_id", "terminal_fact_id",
    "terminal_payload_digest", "result_digest"] []
  proposalResultBoundValues value
  replanSourceValues value

def proposalRequestedValues : Except LedgerError Unit := do
  identities value ["command_id", "goal_id", "proposer_reference", "turn_id", "execution_id"]
  unsigned value "goal_revision" true
  unsigned value "expected_session_version" true
  unsigned value "through_position" false
  digests value ["goal_definition_digest", "request_digest", "output_schema_digest"]

def proposalRequested : Except LedgerError Unit := do
  fields value ["command_id", "goal_id", "goal_revision", "goal_definition_digest",
    "expected_session_version", "through_position", "proposer_reference", "request_digest",
    "output_schema_digest", "turn_id", "execution_id"] []
  proposalRequestedValues value

def replanProposalRequested : Except LedgerError Unit := do
  fields value ["command_id", "goal_id", "goal_revision", "goal_definition_digest",
    "admission_fact_id", "source_plan_id", "source_plan_revision", "source_plan_definition_digest",
    "expected_session_version", "through_position", "proposer_reference", "request_digest",
    "output_schema_digest", "turn_id", "execution_id"] []
  proposalRequestedValues value
  replanSourceValues value

def proposed : Except LedgerError Unit := do
  fields value ["command_id", "plan_id", "plan_revision", "state_version", "plan_digest",
    "definition", "goal_id", "goal_revision", "goal_definition_digest", "agent_snapshot_digest",
    "tool_catalogue_digest", "safety_policy_revision", "proposer_reference"] []
  base value
  ensure ((value.get? "state_version").bind Value.asU64 = some 1) .invalidFact
  digests value ["plan_digest", "goal_definition_digest", "agent_snapshot_digest",
    "tool_catalogue_digest"]
  content lib value "definition"
  nonEmpty value "goal_id"
  unsigned value "goal_revision" true
  nonEmpty value "safety_policy_revision"
  nonEmpty value "proposer_reference"

def adopted : Except LedgerError Unit := do
  fields value ["command_id", "plan_id", "plan_revision", "previous_state_version",
    "state_version", "expected_goal_revision", "actor_reference", "policy_reference",
    "carry_forward_evidence"] ["expected_prior_plan_revision"]
  mutation value
  unsigned value "expected_goal_revision" true
  optionalUnsigned value "expected_prior_plan_revision"
  ensure (value.get? "expected_prior_plan_revision" ≠ some (.number (.posInt 0))) .invalidFact
  nonEmpty value "actor_reference"
  nonEmpty value "policy_reference"
  content lib value "carry_forward_evidence"

def rejected : Except LedgerError Unit := do
  mutationWith value ["actor_reference", "policy_reference", "reason"] []
  nonEmpty value "actor_reference"
  nonEmpty value "policy_reference"
  nonEmpty value "reason"

def superseded : Except LedgerError Unit := do
  mutationWith value ["replacement_plan_id", "replacement_plan_revision",
    "replacement_plan_digest", "unresolved_work"] []
  nonEmpty value "replacement_plan_id"
  unsigned value "replacement_plan_revision" true
  digest value "replacement_plan_digest"
  content lib value "unresolved_work"

def suspended : Except LedgerError Unit := do
  mutationWith value ["continuation_kind", "continuation_reference"] []
  continuation value

def resumed : Except LedgerError Unit := do
  mutationWith value ["resolved_continuation_reference"] []
  nonEmpty value "resolved_continuation_reference"

def completed : Except LedgerError Unit := do
  mutationWith value ["reduction_evidence"] []
  content lib value "reduction_evidence"

def failed : Except LedgerError Unit := do
  mutationWith value ["reason"] ["evidence"]
  nonEmpty value "reason"
  optionalContent lib value "evidence"

/-! ### Steps -/

def terminalAttempt : Except LedgerError Unit := do
  nonEmpty value "step_id"
  nonEmpty value "attempt_id"
  nonEmpty value "execution_id"

/-- The order of optional counters: an absent counter is below every present one. -/
def optionLe : Option Nat → Option Nat → Bool
  | none, _ => true
  | some _, none => false
  | some a, some b => a ≤ b

def stepClaimed : Except LedgerError Unit := do
  mutationWith value ["step_id", "step_digest", "claim_id", "worker_reference", "lease_epoch",
    "clock_revision", "claimed_at_tick", "expires_at_tick"] []
  nonEmpty value "step_id"
  digest value "step_digest"
  nonEmpty value "claim_id"
  nonEmpty value "worker_reference"
  unsigned value "lease_epoch" true
  nonEmpty value "clock_revision"
  unsigned value "claimed_at_tick" false
  unsigned value "expires_at_tick" false
  ensure (optionLe ((value.get? "expires_at_tick").bind Value.asU64)
    ((value.get? "claimed_at_tick").bind Value.asU64) = false) .invalidFact

def stepClaimExpired : Except LedgerError Unit := do
  mutationWith value ["step_id", "claim_id", "lease_epoch", "clock_revision", "observed_at_tick"] []
  nonEmpty value "step_id"
  nonEmpty value "claim_id"
  unsigned value "lease_epoch" true
  nonEmpty value "clock_revision"
  unsigned value "observed_at_tick" false

def stepStarted : Except LedgerError Unit := do
  mutationWith value ["step_id", "step_digest", "claim_id", "lease_epoch", "clock_revision",
    "observed_at_tick", "attempt_id", "execution_id", "execution_snapshot_digest"] []
  nonEmpty value "step_id"
  digest value "step_digest"
  nonEmpty value "claim_id"
  unsigned value "lease_epoch" true
  nonEmpty value "clock_revision"
  unsigned value "observed_at_tick" false
  nonEmpty value "attempt_id"
  nonEmpty value "execution_id"
  digest value "execution_snapshot_digest"

def stepCompleted : Except LedgerError Unit := do
  mutationWith value ["step_id", "attempt_id", "execution_id", "result_digest", "step_evidence",
    "criterion_evidence"] []
  terminalAttempt value
  digest value "result_digest"
  content lib value "step_evidence"
  content lib value "criterion_evidence"

def stepFailed : Except LedgerError Unit := do
  mutationWith value ["step_id", "attempt_id", "execution_id", "reason", "retry_posture"]
    ["evidence"]
  terminalAttempt value
  nonEmpty value "reason"
  let _ ← enumeration value "retry_posture" ["retry", "suspend", "replan", "fail"]
  optionalContent lib value "evidence"

def stepSuspended : Except LedgerError Unit := do
  mutationWith value ["step_id", "attempt_id", "execution_id", "continuation_kind",
    "continuation_reference"] []
  terminalAttempt value
  continuation value

def stepResumed : Except LedgerError Unit := do
  mutationWith value ["step_id", "attempt_id", "prior_execution_id", "execution_id",
    "resolved_continuation_reference"] []
  identities value ["step_id", "attempt_id", "prior_execution_id", "execution_id"]
  nonEmpty value "resolved_continuation_reference"

/-- The payload rule of a `plan.` kind, its steps included. -/
def validate (kind : FactKind) : Except LedgerError Unit :=
  match kind with
  | .known .planProposalRequested => proposalRequested value
  | .known .planProposalResultBound => proposalResultBound value
  | .known .planReplanAdmitted => replanAdmitted lib value
  | .known .planReplanProposalRequested => replanProposalRequested value
  | .known .planReplanProposalResultBound => replanProposalResultBound value
  | .known .planProposed => proposed lib value
  | .known .planAdopted => adopted lib value
  | .known .planRejected => rejected value
  | .known .planSuperseded => superseded lib value
  | .known .planSuspended => suspended value
  | .known .planResumed => resumed value
  | .known .planCompleted => completed lib value
  | .known .planFailed => failed lib value
  | .known .planStepClaimed => stepClaimed value
  | .known .planStepClaimExpired => stepClaimExpired value
  | .known .planStepStarted => stepStarted value
  | .known .planStepCompleted => stepCompleted lib value
  | .known .planStepFailed => stepFailed lib value
  | .known .planStepSuspended => stepSuspended value
  | .known .planStepResumed => stepResumed value
  | _ => .error .invalidFact

end Plan

end

end Garive.RuntimeFacts
