import Garive.Ledger.RuntimeFacts.Values

/-!
# Payload rules of delegation, knowledge, schedules, skills and workspaces

The rules for the facts by which a turn coordinates with the rest of the system: work delegated to
a child agent, knowledge requests and their evidence, schedules and their occurrences, the skills
an execution activates, and the workspaces a session attaches.
-/

namespace Garive.RuntimeFacts

section

variable (lib : Externals) (value : Object)

/-! ## Delegation -/

namespace Delegation

/-- The codes a delegation can be denied with. -/
def failures : List String :=
  ["invalid_delegation", "child_not_found", "child_revision_mismatch", "authority_denied",
    "budget_exhausted", "budget_overflow", "depth_exceeded", "concurrency_exceeded",
    "result_schema_mismatch", "delegation_conflict", "child_state_corrupt", "durability_failure",
    "corrupt_delegation_state"]

/-- The digest of a content binding is asserted a second time beside it. -/
def sameBindingDigest (binding asserted : String) : Except LedgerError Unit :=
  ensure (indexedDigest value binding = indexed value asserted) .invalidFact

def requested : Except LedgerError Unit := do
  fields value ["delegation_id", "parent_agent_instance_id", "intent", "intent_digest",
    "through_position"] []
  nonEmpty value "delegation_id"
  nonEmpty value "parent_agent_instance_id"
  content lib value "intent"
  digest value "intent_digest"
  unsigned value "through_position" false
  sameBindingDigest value "intent" "intent_digest"

/-- The dimensions of a child budget. -/
def budgetFields : List String :=
  ["max_child_turns", "max_child_executions", "max_iterations", "max_input_tokens",
    "max_output_tokens", "deadline_budget_ms", "max_depth", "max_objective_bytes",
    "max_input_evidence", "max_result_schema_bytes", "max_result_bytes", "max_result_evidence"]

def budget (value : Object) : Except LedgerError Unit := do
  fields value budgetFields []
  checkAll (fun key ↦ unsigned value key true) budgetFields
  ensure ((indexed value "max_child_turns").asU64 = some 1) .invalidFact

def authorized : Except LedgerError Unit := do
  fields value ["delegation_id", "grant_id", "intent_digest", "reserved_budget",
    "authority_revision"] []
  identities value ["delegation_id", "grant_id", "authority_revision"]
  digest value "intent_digest"
  let reserved ← okOr (value.get? "reserved_budget") .invalidFact
  let reserved ← object reserved
  budget reserved

def denied : Except LedgerError Unit := do
  fields value ["delegation_id", "intent_digest", "code"] []
  nonEmpty value "delegation_id"
  digest value "intent_digest"
  let _ ← enumeration value "code" failures
  return ()

def childStarted : Except LedgerError Unit := do
  fields value ["delegation_id", "grant_id", "suspension_id", "child_agent_instance_id",
    "child_turn_id", "child_snapshot_digest"] []
  identities value ["delegation_id", "grant_id", "suspension_id", "child_agent_instance_id",
    "child_turn_id"]
  digest value "child_snapshot_digest"

def childTerminal : Except LedgerError Unit := do
  fields value ["delegation_id", "grant_id", "result_id", "suspension_id",
    "child_agent_instance_id", "child_turn_id", "result", "result_digest"] []
  identities value ["delegation_id", "grant_id", "result_id", "suspension_id",
    "child_agent_instance_id", "child_turn_id"]
  content lib value "result"
  digest value "result_digest"
  sameBindingDigest value "result" "result_digest"

def observed : Except LedgerError Unit := do
  fields value ["delegation_id", "grant_id", "result_id", "suspension_id", "result_digest"] []
  identities value ["delegation_id", "grant_id", "result_id", "suspension_id"]
  digest value "result_digest"

/-- The payload rule of a `delegation.` kind. -/
def validate (kind : FactKind) : Except LedgerError Unit :=
  match kind with
  | .known .delegationRequested => requested lib value
  | .known .delegationAuthorized => authorized value
  | .known .delegationDenied => denied value
  | .known .delegationChildStarted => childStarted value
  | .known .delegationChildTerminal => childTerminal lib value
  | .known .delegationObserved => observed value
  | _ => .error .invalidFact

end Delegation

/-! ## Knowledge -/

namespace Knowledge

def requested : Except LedgerError Unit := do
  fields value ["request_id", "source_id", "source_revision", "request_digest", "mode", "query",
    "filters", "through_position", "max_chunks", "max_total_bytes", "deadline_budget_ms",
    "freshness_kind"] ["exact_snapshot_digest"]
  identities value ["request_id", "source_id", "source_revision"]
  digest value "request_digest"
  let _ ← enumeration value "mode" ["keyword", "semantic", "structured"]
  content lib value "query"
  content lib value "filters"
  unsigned value "through_position" false
  checkAll (fun key ↦ unsigned value key true)
    ["max_chunks", "max_total_bytes", "deadline_budget_ms"]
  let freshness ← enumeration value "freshness_kind"
    ["cached_allowed", "revalidate", "exact_snapshot"]
  ensure ((freshness == "exact_snapshot") = value.containsKey "exact_snapshot_digest") .invalidFact
  if freshness = "exact_snapshot" then digest value "exact_snapshot_digest" else .ok ()

def dispatched : Except LedgerError Unit := do
  fields value ["request_id", "request_digest", "dispatch_attempt_id"] []
  nonEmpty value "request_id"
  digest value "request_digest"
  nonEmpty value "dispatch_attempt_id"

/-- One piece of evidence: inline content has the stated length, and the citation names the digest
of the content. -/
def evidence (value : Object) : Except LedgerError Unit := do
  fields value ["evidence_id", "content", "content_byte_length", "citation_kind",
    "citation_locator", "citation_content_digest", "retrieved_at_utc", "freshness", "trust_class",
    "rank_basis_points"] ["source_snapshot_digest", "citation_title", "canonical_uri"]
  nonEmpty value "evidence_id"
  if value.containsKey "source_snapshot_digest" then digest value "source_snapshot_digest"
  else .ok ()
  content lib value "content"
  unsigned value "content_byte_length" true
  let binding ← object (indexed value "content")
  match (binding.get? "inline_utf8").bind Value.asStr with
  | some text =>
    ensure ((indexed value "content_byte_length").asU64 = some text.utf8ByteSize) .invalidFact
  | none => .ok ()
  let _ ← enumeration value "citation_kind"
    ["uri_fragment", "document_offset", "record_key", "opaque_locator"]
  nonEmpty value "citation_locator"
  optionalNonEmpty value "citation_title"
  optionalNonEmpty value "canonical_uri"
  digest value "citation_content_digest"
  ensure (indexed value "citation_content_digest" = indexed binding "digest") .invalidFact
  timestamp lib value "retrieved_at_utc"
  let _ ← enumeration value "freshness" ["fresh", "cached", "stale"]
  let _ ← enumeration value "trust_class" ["curated", "first_party", "third_party", "untrusted"]
  unsigned value "rank_basis_points" false
  ensure ((indexed value "rank_basis_points").asU64.any (· ≤ 10000) = true) .invalidFact

def completed : Except LedgerError Unit := do
  fields value ["request_id", "request_digest", "evidence", "truncated"] []
  nonEmpty value "request_id"
  digest value "request_digest"
  let items ← elements value "evidence"
  checkAll (fun item ↦ do
    let item ← object item
    evidence lib item) items
  let _ ← flag value "truncated"
  return ()

def failed : Except LedgerError Unit := do
  fields value ["request_id", "request_digest", "phase", "reason", "ambiguous"] ["retry_after_ms"]
  nonEmpty value "request_id"
  digest value "request_digest"
  let phase ← enumeration value "phase" ["pre_dispatch", "dispatched", "response_validation"]
  let reason ← enumeration value "reason"
    ["invalid_query", "source_not_found", "source_revision_mismatch", "source_denied",
      "filter_unsupported", "freshness_unavailable", "connector_unavailable", "connector_rejected",
      "retrieval_uncertain", "citation_invalid", "content_digest_mismatch", "limit_exceeded",
      "durability_failure", "corrupt_knowledge_state"]
  let ambiguous ← flag value "ambiguous"
  ensure (ambiguous = (phase == "dispatched" && reason == "retrieval_uncertain")) .invalidFact
  if value.containsKey "retry_after_ms" then unsigned value "retry_after_ms" true else .ok ()

/-- The payload rule of a `knowledge.` kind. -/
def validate (kind : FactKind) : Except LedgerError Unit :=
  match kind with
  | .known .knowledgeRequested => requested lib value
  | .known .knowledgeDispatched => dispatched value
  | .known .knowledgeCompleted => completed lib value
  | .known .knowledgeFailed => failed value
  | _ => .error .invalidFact

end Knowledge

/-! ## Schedules -/

namespace Scheduler

def created : Except LedgerError Unit := do
  fields value ["command_id", "schedule_id", "revision_id", "intent", "intent_digest"] []
  identities value ["command_id", "schedule_id", "revision_id"]
  content lib value "intent"
  digest value "intent_digest"
  ensure (indexed value "intent_digest" = indexedDigest value "intent") .invalidFact

def claimed : Except LedgerError Unit := do
  fields value ["schedule_id", "revision_id", "occurrence_id", "ordinal", "due_at_utc", "lease_id",
    "lease_epoch", "through_position"] []
  identities value ["schedule_id", "revision_id", "occurrence_id", "lease_id"]
  unsigned value "ordinal" true
  timestamp lib value "due_at_utc"
  unsigned value "lease_epoch" true
  unsigned value "through_position" false

def fired : Except LedgerError Unit := do
  fields value ["schedule_id", "revision_id", "occurrence_id", "ordinal", "runtime_command_id",
    "disposition", "committed_position"] []
  identities value ["schedule_id", "revision_id", "occurrence_id", "runtime_command_id"]
  unsigned value "ordinal" true
  let _ ← enumeration value "disposition" ["committed", "replayed"]
  unsigned value "committed_position" true

/-- The order of optional counters: an absent counter is below every present one. -/
def optionGt : Option Nat → Option Nat → Bool
  | some a, some b => b < a
  | some _, none => true
  | none, _ => false

def skipped : Except LedgerError Unit := do
  fields value ["schedule_id", "revision_id", "first_ordinal", "last_ordinal", "first_due_at_utc",
    "last_due_at_utc", "observed_at_utc"] []
  identities value ["schedule_id", "revision_id"]
  unsigned value "first_ordinal" true
  unsigned value "last_ordinal" true
  ensure (optionGt (indexed value "first_ordinal").asU64 (indexed value "last_ordinal").asU64
    = false) .invalidFact
  checkAll (timestamp lib value) ["first_due_at_utc", "last_due_at_utc", "observed_at_utc"]

def cancelled : Except LedgerError Unit := do
  fields value ["command_id", "schedule_id", "expected_revision_id", "reason"] []
  identities value ["command_id", "schedule_id", "expected_revision_id"]
  let _ ← enumeration value "reason" ["user", "operator", "policy", "superseded"]
  return ()

def failed : Except LedgerError Unit := do
  fields value ["schedule_id", "revision_id", "reason"] ["occurrence_id", "ordinal"]
  nonEmpty value "schedule_id"
  nonEmpty value "revision_id"
  ensure (value.containsKey "occurrence_id" = value.containsKey "ordinal") .invalidFact
  if value.containsKey "occurrence_id" then do
    nonEmpty value "occurrence_id"
    unsigned value "ordinal" true
  else .ok ()
  let _ ← enumeration value "reason"
    ["invalid_schedule", "schedule_not_found", "revision_conflict", "subject_not_resumable",
      "authority_denied", "clock_invalid", "occurrence_overflow", "misfire_limit_exceeded",
      "lease_lost", "dispatch_conflict", "durability_failure", "corrupt_schedule_state"]
  return ()

def exhausted : Except LedgerError Unit := do
  fields value ["schedule_id", "revision_id", "last_handled_ordinal"] []
  nonEmpty value "schedule_id"
  nonEmpty value "revision_id"
  unsigned value "last_handled_ordinal" true

/-- The payload rule of a `schedule.` kind. -/
def validate (kind : FactKind) : Except LedgerError Unit :=
  match kind with
  | .known .scheduleCreated => created lib value
  | .known .scheduleClaimed => claimed lib value
  | .known .scheduleFired => fired value
  | .known .scheduleSkipped => skipped lib value
  | .known .scheduleCancelled => cancelled value
  | .known .scheduleFailed => failed value
  | .known .scheduleExhausted => exhausted value
  | _ => .error .invalidFact

end Scheduler

/-! ## Skills -/

namespace Skill

/-- One activated skill; it was activated explicitly exactly when the whole activation was. -/
def skill (mode : String) (value : Object) : Except LedgerError Unit := do
  fields value ["skill_id", "skill_revision", "definition_digest", "instruction_digest", "reason"]
    []
  nonEmpty value "skill_id"
  nonEmpty value "skill_revision"
  digest value "definition_digest"
  digest value "instruction_digest"
  let reason ← enumeration value "reason" ["explicit", "tag_match"]
  ensure ((mode == "explicit") = (reason == "explicit")) .invalidFact

def activated : Except LedgerError Unit := do
  fields value ["activation_id", "request_digest", "mode", "through_position", "skills",
    "truncated"] []
  nonEmpty value "activation_id"
  digest value "request_digest"
  let mode ← enumeration value "mode" ["explicit", "tagged"]
  unsigned value "through_position" false
  let skills ← elements value "skills"
  checkAll (fun item ↦ do
    let item ← object item
    skill mode item) skills
  let truncated ← flag value "truncated"
  ensure (¬(mode = "explicit" ∧ (skills.length ≠ 1 ∨ truncated = true))) .invalidFact

/-- The payload rule of a `skill.` kind. -/
def validate (kind : FactKind) : Except LedgerError Unit :=
  match kind with
  | .known .skillActivated => activated value
  | _ => .error .invalidFact

end Skill

/-! ## Workspaces -/

namespace Workspace

def maxContextEntries : Nat := 8
def maxContextBytes : Nat := 60 * 1024
def maxPublicTextBytes : Nat := 128

/-- A non-empty text of bounded size. -/
def boundedText (value : Object) (key : String) : Except LedgerError Unit := do
  nonEmpty value key
  let text ← string value key
  ensure (text.utf8ByteSize ≤ maxPublicTextBytes) .invalidFact

def attached : Except LedgerError Unit := do
  fields value ["command_id", "workspace_id", "display_name", "grant_revision", "access"] []
  nonEmpty value "command_id"
  nonEmpty value "workspace_id"
  nonEmpty value "display_name"
  unsigned value "grant_revision" true
  let _ ← enumeration value "access" ["enumerate", "read_write"]
  return ()

def detached : Except LedgerError Unit := do
  fields value ["command_id", "workspace_id", "grant_revision", "outcome"] []
  boundedText value "command_id"
  boundedText value "workspace_id"
  unsigned value "grant_revision" true
  let _ ← enumeration value "outcome" ["detached", "already_detached"]
  return ()

/-- The selected entries: distinct, inline, and together within the byte bound. `seen` and `total`
are the identities and the bytes of the entries before. -/
def contextEntries (seen : List String) (total : Nat) : List Value → Except LedgerError Unit
  | [] => .ok ()
  | entry :: rest => do
    let entry ← object entry
    fields entry ["entry_id", "display_name", "kind", "content"] []
    boundedText entry "entry_id"
    boundedText entry "display_name"
    let _ ← enumeration entry "kind" ["text"]
    content lib entry "content"
    let identity ← string entry "entry_id"
    ensure (identity ∉ seen) .invalidFact
    let body ← okOr (entry.get? "content") .invalidFact
    let body ← object body
    let text ← string body "inline_utf8"
    ensure (total + text.utf8ByteSize ≤ maxContextBytes) .invalidFact
    contextEntries (identity :: seen) (total + text.utf8ByteSize) rest

def contextSelected : Except LedgerError Unit := do
  fields value ["command_id", "workspace_id", "grant_revision", "entries"] []
  boundedText value "command_id"
  boundedText value "workspace_id"
  unsigned value "grant_revision" true
  let entries ← elements value "entries"
  ensure (entries ≠ [] ∧ entries.length ≤ maxContextEntries) .invalidFact
  contextEntries lib [] 0 entries

/-- The payload rule of a `workspace.` kind. -/
def validate (kind : FactKind) : Except LedgerError Unit :=
  match kind with
  | .known .workspaceAttached => attached value
  | .known .workspaceDetached => detached value
  | .known .workspaceContextSelected => contextSelected lib value
  | _ => .error .invalidFact

end Workspace

end

end Garive.RuntimeFacts
