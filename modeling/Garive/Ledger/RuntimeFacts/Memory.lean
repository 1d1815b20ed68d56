import Garive.Ledger.RuntimeFacts.Values

/-!
# Payload rules of memory

The rules for long-lived memory: proposals and committed revisions, retrieval and recall, the
obligations a recalled record opens, lifecycle transitions, and the promotion and erasure protocols.
-/

namespace Garive.RuntimeFacts.Memory

section

variable (lib : Externals) (value : Object)

def kinds : List String := ["preference", "constraint", "decision", "learned_fact", "summary"]
def sensitivities : List String := ["ordinary", "restricted"]
def memoryTypes : List String := ["semantic", "episodic", "lesson", "procedural"]
def authorities : List String := ["user_declared", "agent_learned", "organisation_published"]
def states : List String := ["candidate", "active", "cold", "archived", "promoted"]
def controlScopes : List String := ["session", "agent_instance", "user", "project", "platform"]

/-! ## Shared parts -/

def factReference : Except LedgerError Unit := do
  fields value ["session_id", "position", "fact_id", "payload_digest"] []
  nonEmpty value "session_id"
  unsigned value "position" true
  nonEmpty value "fact_id"
  digest value "payload_digest"

/-- A field that refers to a stored fact. -/
def factReferenceField (key : String) : Except LedgerError Unit := do
  let reference ← okOr (value.get? key) .invalidFact
  let reference ← object reference
  factReference reference

/-- A field that is present exactly when `required`, and is then a digest. -/
def digestWhen (required : Bool) (key : String) : Except LedgerError Unit := do
  ensure (required = value.containsKey key) .invalidFact
  if required then digest value key else .ok ()

def basisPoints (key : String) : Except LedgerError Unit := do
  unsigned value key false
  ensure ((indexed value key).asU64.any (· ≤ 10000) = true) .invalidFact

def scope (key : String) : Except LedgerError Unit := do
  let scope ← okOr (value.get? key) .invalidFact
  let scope ← object scope
  match (scope.get? "kind").bind Value.asStr with
  | some "namespace" => fields scope ["kind"] []
  | some "session" | some "agent_instance" => do
    fields scope ["kind", "owner_id"] []
    nonEmpty scope "owner_id"
  | _ => .error .invalidFact

def evidence (key : String) : Except LedgerError Unit := do
  let items ← elements value key
  ensure (items ≠ []) .invalidFact
  checkAll (fun item ↦ do
    let item ← object item
    factReference item) items

/-! ## Records -/

def proposal : Except LedgerError Unit := do
  fields value ["proposal_id", "namespace_id", "scope", "kind", "content", "evidence",
    "sensitivity", "confidence_basis_points"] ["expected_active_revision_id"]
  nonEmpty value "proposal_id"
  nonEmpty value "namespace_id"
  scope value "scope"
  let _ ← enumeration value "kind" kinds
  content lib value "content"
  evidence value "evidence"
  let _ ← enumeration value "sensitivity" sensitivities
  basisPoints value "confidence_basis_points"
  optionalNonEmpty value "expected_active_revision_id"

def committed : Except LedgerError Unit := do
  fields value ["proposal_id", "record_id", "revision_id", "namespace_id", "scope", "kind",
    "content", "evidence", "sensitivity", "confidence_basis_points", "valid_from_position",
    "retention_policy_digest"] ["expires_at_utc", "supersedes_revision_id"]
  identities value ["proposal_id", "record_id", "revision_id", "namespace_id"]
  scope value "scope"
  let _ ← enumeration value "kind" kinds
  content lib value "content"
  evidence value "evidence"
  let _ ← enumeration value "sensitivity" sensitivities
  basisPoints value "confidence_basis_points"
  unsigned value "valid_from_position" true
  digest value "retention_policy_digest"
  optionalNonEmpty value "supersedes_revision_id"
  if value.containsKey "expires_at_utc" then timestamp lib value "expires_at_utc" else .ok ()

def revisionClassified : Except LedgerError Unit := do
  fields value ["classification_id", "namespace_id", "record_id", "revision_id", "memory_type",
    "authority", "lifecycle", "scope", "scope_owner_id", "policy_revision", "source_commit"]
    ["aggregation_policy_digest", "authority_receipt_digest"]
  identities value ["classification_id", "namespace_id", "record_id", "revision_id",
    "scope_owner_id", "policy_revision"]
  let _ ← enumeration value "memory_type" memoryTypes
  let authority ← enumeration value "authority" authorities
  let _ ← enumeration value "lifecycle" ["candidate", "active"]
  let scope ← enumeration value "scope" controlScopes
  factReferenceField value "source_commit"
  digestWhen value (authority != "agent_learned") "authority_receipt_digest"
  digestWhen value (scope == "platform") "aggregation_policy_digest"

def rejected : Except LedgerError Unit := do
  fields value ["proposal_id", "reason"] []
  nonEmpty value "proposal_id"
  let _ ← enumeration value "reason" ["namespace_denied", "evidence_not_found",
    "evidence_mismatch", "revision_conflict", "retention_rejected", "sensitivity_denied",
    "limit_exceeded", "unsupported"]
  return ()

def superseded : Except LedgerError Unit := do
  fields value ["record_id", "old_revision_id", "new_revision_id", "proposal_id"] []
  identities value ["record_id", "old_revision_id", "new_revision_id", "proposal_id"]
  ensure (indexed value "old_revision_id" ≠ indexed value "new_revision_id") .invalidFact

def tombstoned : Except LedgerError Unit := do
  fields value ["command_id", "namespace_id", "record_id", "revision_id", "reason"] []
  identities value ["command_id", "namespace_id", "record_id", "revision_id"]
  let _ ← enumeration value "reason"
    ["expired", "superseded", "user_request", "policy", "corrupt_source"]
  return ()

/-! ## Retrieval and recall -/

/-- One retrieved match; restricted content needs the grant the query was made with. -/
def retrievalMatch (includeRestricted : Bool) (item : Object) : Except LedgerError Unit := do
  fields item ["record_id", "revision_id", "content", "content_byte_length", "evidence",
    "relevance_basis_points", "sensitivity"] []
  nonEmpty item "record_id"
  nonEmpty item "revision_id"
  content lib item "content"
  unsigned item "content_byte_length" true
  let binding ← object (indexed item "content")
  match (binding.get? "inline_utf8").bind Value.asStr with
  | some text =>
    ensure ((indexed item "content_byte_length").asU64 = some text.utf8ByteSize) .invalidFact
  | none => .ok ()
  evidence item "evidence"
  basisPoints item "relevance_basis_points"
  let sensitivity ← enumeration item "sensitivity" sensitivities
  ensure (¬(sensitivity = "restricted" ∧ includeRestricted = false)) .invalidFact

def retrieval : Except LedgerError Unit := do
  fields value ["query_id", "query_digest", "namespace_id", "retriever_revision",
    "through_position", "as_of_utc", "max_results", "max_total_bytes", "include_restricted",
    "matches", "truncated"] ["restricted_grant_digest"]
  identities value ["query_id", "namespace_id", "retriever_revision"]
  digest value "query_digest"
  unsigned value "through_position" false
  timestamp lib value "as_of_utc"
  unsigned value "max_results" true
  unsigned value "max_total_bytes" true
  let includeRestricted ← flag value "include_restricted"
  digestWhen value includeRestricted "restricted_grant_digest"
  let items ← elements value "matches"
  checkAll (fun item ↦ do
    let item ← object item
    retrievalMatch lib includeRestricted item) items
  let _ ← flag value "truncated"
  return ()

/-- The draw of an explored item: sixteen lowercase hexadecimal digits. -/
def isDraw (draw : String) : Bool :=
  draw.utf8ByteSize == 16 && draw.toList.all isLowerHexDigit

/-- One recalled item, with its content size. -/
def recallItem (product : String) (explored : Bool) (item : Object) : Except LedgerError Nat := do
  fields item ["record_id", "revision_id", "memory_type", "role", "authority", "state",
    "safe_label", "content_digest", "content_byte_length", "evidence_count",
    "relevance_basis_points", "recency_basis_points", "importance_basis_points", "selection_kind"]
    ["draw_hex"]
  identities item ["record_id", "revision_id", "safe_label"]
  ensure ((indexed item "safe_label").asStr.any (·.utf8ByteSize ≤ 256) = true) .invalidFact
  let _ ← enumeration item "memory_type" memoryTypes
  let _ ← enumeration item "role" kinds
  let _ ← enumeration item "authority" authorities
  let state ← enumeration item "state" states
  ensure (¬(state = "promoted" ∨ product = "menu" ∧ state = "archived")) .invalidFact
  digest item "content_digest"
  unsigned item "content_byte_length" true
  unsigned item "evidence_count" true
  checkAll (basisPoints item)
    ["relevance_basis_points", "recency_basis_points", "importance_basis_points"]
  let selection ← enumeration item "selection_kind" ["ranked", "explored"]
  ensure ((selection == "explored") = item.containsKey "draw_hex"
    ∧ ¬(selection = "explored" ∧ explored = false)) .invalidFact
  match (item.get? "draw_hex").bind Value.asStr with
  | some draw => ensure (isDraw draw = true) .invalidFact
  | none => .ok ()
  okOr (indexed item "content_byte_length").asU64 .invalidFact

/-- The total content size of recalled items, continued from `bytes`. -/
def recallBytes (product : String) (explored : Bool) (bytes : Nat) :
    List Value → Except LedgerError Nat
  | [] => .ok bytes
  | item :: rest => do
    let item ← object item
    let size ← recallItem product explored item
    let bytes ← okOr (checkedAdd bytes size) .invalidFact
    recallBytes product explored bytes rest

def exploration : Except LedgerError Unit := do
  fields value ["algorithm_revision", "seed", "slots"] []
  let _ ← enumeration value "algorithm_revision" ["hash-explore-v1"]
  unsigned value "seed" false
  unsigned value "slots" true

def memoryRecall : Except LedgerError Unit := do
  fields value ["selection_id", "request_digest", "namespace_id", "product",
    "selection_policy_revision", "through_position", "max_items", "max_total_bytes", "items",
    "truncated"] ["exploration"]
  identities value ["selection_id", "namespace_id", "selection_policy_revision"]
  digest value "request_digest"
  let product ← enumeration value "product" ["menu", "detail"]
  unsigned value "through_position" false
  unsigned value "max_items" true
  unsigned value "max_total_bytes" true
  match value.get? "exploration" with
  | some explored => do
    let explored ← object explored
    exploration explored
  | none => .ok ()
  let items ← elements value "items"
  let maxItems ← okOr (indexed value "max_items").asU64 .invalidFact
  ensure (items.length ≤ maxItems) .invalidFact
  let bytes ← recallBytes product (value.containsKey "exploration") 0 items
  let maxTotalBytes ← okOr (indexed value "max_total_bytes").asU64 .invalidFact
  ensure (bytes ≤ maxTotalBytes) .invalidFact
  let _ ← flag value "truncated"
  return ()

/-! ## Obligations, observations and lifecycle -/

def obligation : Except LedgerError Unit := do
  fields value ["obligation_id", "namespace_id", "record_id", "revision_id", "recall_fact",
    "selection_id", "application_fact", "expected_outcome_digest", "application_scope_digest",
    "attribution_policy_revision", "expires_at_position"] []
  identities value ["obligation_id", "namespace_id", "record_id", "revision_id", "selection_id",
    "attribution_policy_revision"]
  factReferenceField value "recall_fact"
  factReferenceField value "application_fact"
  digest value "expected_outcome_digest"
  digest value "application_scope_digest"
  unsigned value "expires_at_position" true

def observationEvidence : Except LedgerError Unit := do
  fields value ["kind", "fact"] []
  let _ ← enumeration value "kind" ["tool_result", "test_result", "effect_receipt",
    "user_correction", "deterministic_verifier"]
  factReferenceField value "fact"

def verdict : Except LedgerError Unit :=
  match (value.get? "kind").bind Value.asStr with
  | some "verified" => fields value ["kind"] []
  | some "neutral" => do
    fields value ["kind", "safe_reason"] []
    nonEmpty value "safe_reason"
  | some "falsified" => do
    fields value ["kind", "in_scope"] ["observed_scope_digest"]
    let inScope ← flag value "in_scope"
    digestWhen value (!inScope) "observed_scope_digest"
  | _ => .error .invalidFact

def observation : Except LedgerError Unit := do
  fields value ["observation_id", "obligation_id", "namespace_id", "position",
    "verifier_revision", "evidence", "verdict"] []
  identities value ["observation_id", "obligation_id", "namespace_id", "verifier_revision"]
  unsigned value "position" true
  let evidence ← elements value "evidence"
  ensure (evidence ≠ []) .invalidFact
  checkAll (fun entry ↦ do
    let entry ← object entry
    observationEvidence entry) evidence
  let found ← okOr (value.get? "verdict") .invalidFact
  let found ← object found
  verdict found

def lifecycle : Except LedgerError Unit := do
  fields value ["transition_id", "namespace_id", "record_id", "revision_id", "from_state",
    "to_state", "verified", "falsified", "neutral", "last_observed_position", "cause_kind",
    "cause_id"] ["promoted_knowledge_receipt_digest"]
  identities value ["transition_id", "namespace_id", "record_id", "revision_id", "cause_id"]
  let _ ← enumeration value "from_state" states
  let state ← enumeration value "to_state" states
  checkAll (fun key ↦ unsigned value key false) ["verified", "falsified", "neutral"]
  unsigned value "last_observed_position" true
  let _ ← enumeration value "cause_kind"
    ["observation", "maintenance", "promotion", "toolchain_changed"]
  digestWhen value (state == "promoted") "promoted_knowledge_receipt_digest"

/-! ## Maintenance, promotion and erasure -/

def candidate : Except LedgerError Unit := do
  fields value ["candidate_id", "namespace_id", "extractor_revision", "source", "intent_kind",
    "intent_digest"] []
  identities value ["candidate_id", "namespace_id", "extractor_revision"]
  let _ ← enumeration value "source" ["explicit_user_command", "session_end", "exit_summary",
    "scheduled_distillation"]
  let _ ← enumeration value "intent_kind" ["learn", "forget"]
  digest value "intent_digest"

def maintenanceDecision : Except LedgerError Unit := do
  fields value ["decision_id", "candidate_id", "namespace_id", "decision_kind",
    "decision_digest"] []
  identities value ["decision_id", "candidate_id", "namespace_id"]
  let _ ← enumeration value "decision_kind" ["add", "update", "delete", "noop"]
  digest value "decision_digest"

def distillationCheckpoint : Except LedgerError Unit := do
  fields value ["checkpoint_id", "namespace_id", "extractor_revision", "session_id",
    "through_position", "batch_digest"] []
  identities value ["checkpoint_id", "namespace_id", "extractor_revision", "session_id"]
  unsigned value "through_position" true
  digest value "batch_digest"

def audit : Except LedgerError Unit := do
  fields value ["audit_id", "namespace_id", "through_position", "policy_digest",
    "inventory_digest", "report_digest", "action_count", "truncated"] []
  identities value ["audit_id", "namespace_id"]
  unsigned value "through_position" true
  digests value ["policy_digest", "inventory_digest", "report_digest"]
  unsigned value "action_count" false
  let _ ← flag value "truncated"
  return ()

def promotionRequest : Except LedgerError Unit := do
  fields value ["request_id", "namespace_id", "record_id", "revision_id", "memory_type",
    "policy_revision", "knowledge_proposal_id", "evidence_digest"] []
  identities value ["request_id", "namespace_id", "record_id", "revision_id", "policy_revision",
    "knowledge_proposal_id"]
  let _ ← enumeration value "memory_type" memoryTypes
  digest value "evidence_digest"

def promotionReceipt : Except LedgerError Unit := do
  fields value ["request_id", "namespace_id", "record_id", "revision_id", "knowledge_proposal_id",
    "knowledge_record_id", "knowledge_revision_id", "receipt_digest"] []
  identities value ["request_id", "namespace_id", "record_id", "revision_id",
    "knowledge_proposal_id", "knowledge_record_id", "knowledge_revision_id"]
  digest value "receipt_digest"

/-- The rank of an erasure target's kind. -/
def targetOrder (kind : String) : Nat :=
  if kind = "primary_store" then 0
  else if kind = "projection" then 1
  else if kind = "cache" then 2
  else 3

/-- Erasure targets in strictly increasing order of kind and identity, after `prior`. -/
def erasureTargets (prior : Option (Nat × String)) : List Value → Except LedgerError Unit
  | [] => .ok ()
  | target :: rest => do
    let target ← object target
    fields target ["target_id", "kind"] []
    nonEmpty target "target_id"
    let kind ← enumeration target "kind" ["primary_store", "projection", "cache", "backup"]
    let id ← string target "target_id"
    ensure (prior.all (fun before ↦ !(decide (targetOrder kind < before.1)
      || decide (targetOrder kind = before.1) && decide (id ≤ before.2))) = true) .invalidFact
    erasureTargets (some (targetOrder kind, id)) rest

def erasureRequest : Except LedgerError Unit := do
  fields value ["request_id", "namespace_id", "record_id", "revision_id", "tombstone_fact",
    "policy_revision", "targets"] []
  identities value ["request_id", "namespace_id", "record_id", "revision_id", "policy_revision"]
  factReferenceField value "tombstone_fact"
  let targets ← elements value "targets"
  ensure (targets ≠ [] ∧ targets.length ≤ 64) .invalidFact
  erasureTargets none targets

/-- Whether every erasure result is final; the targets are distinct, and `seen` are those before. -/
def erasureResults (attempted : Nat) (seen : List String) : List Value → Except LedgerError Bool
  | [] => .ok true
  | result :: rest => do
    let result ← object result
    fields result ["target_id", "status", "receipt_digest"] ["not_before_position"]
    nonEmpty result "target_id"
    let id ← string result "target_id"
    ensure (id ∉ seen) .invalidFact
    let status ← enumeration result "status"
      ["erased", "not_present", "pending_backup_retention", "pending_retry"]
    digest result "receipt_digest"
    ensure ((status == "pending_backup_retention") = result.containsKey "not_before_position")
      .invalidFact
    if status = "pending_backup_retention" then do
      unsigned result "not_before_position" true
      let notBefore ← okOr (indexed result "not_before_position").asU64 .invalidFact
      ensure (attempted < notBefore) .invalidFact
    else .ok ()
    let complete ← erasureResults attempted (id :: seen) rest
    return (status == "erased" || status == "not_present") && complete

def erasureReceipt : Except LedgerError Unit := do
  fields value ["request_id", "namespace_id", "record_id", "revision_id", "attempt_id",
    "attempted_at_position", "results", "disposition"] []
  identities value ["request_id", "namespace_id", "record_id", "revision_id", "attempt_id"]
  unsigned value "attempted_at_position" true
  let attempted ← okOr (indexed value "attempted_at_position").asU64 .invalidFact
  let results ← elements value "results"
  ensure (results ≠ [] ∧ results.length ≤ 64) .invalidFact
  let complete ← erasureResults attempted [] results
  let disposition ← enumeration value "disposition" ["complete", "partial"]
  ensure ((disposition == "complete") = complete) .invalidFact

/-- The payload rule of a `memory.` kind. -/
def validate (kind : FactKind) : Except LedgerError Unit :=
  match kind with
  | .known .memoryProposed => proposal lib value
  | .known .memoryCommitted => committed lib value
  | .known .memoryRevisionClassified => revisionClassified value
  | .known .memoryRejected => rejected value
  | .known .memorySuperseded => superseded value
  | .known .memoryTombstoned => tombstoned value
  | .known .memoryRetrievalRecorded => retrieval lib value
  | .known .memoryRecallRecorded => memoryRecall value
  | .known .memoryObligationOpened => obligation value
  | .known .memoryObservationRecorded => observation value
  | .known .memoryLifecycleTransitioned => lifecycle value
  | .known .memoryCandidateRecorded => candidate value
  | .known .memoryMaintenanceDecided => maintenanceDecision value
  | .known .memoryDistillationCheckpointed => distillationCheckpoint value
  | .known .memoryAuditRecorded => audit value
  | .known .memoryPromotionRequested => promotionRequest value
  | .known .memoryPromotionRecorded => promotionReceipt value
  | .known .memoryErasureRequested => erasureRequest value
  | .known .memoryErasureRecorded => erasureReceipt value
  | _ => .error .invalidFact

end

end Garive.RuntimeFacts.Memory
