import Garive.Json.Value
import Garive.Ledger.Kind

/-!
# Ledger identities, payloads and facts

The vocabulary of the durable ledger: validated identities, canonical payloads bound to their
digest, the unpositioned draft a caller submits and the positioned fact the ledger keeps.

## External code

The code takes four functions from libraries: the JSON reader, SHA-256, and two readers of RFC 3339
timestamps.
They are the fields of `Externals`, an argument of every definition that calls one of them. What
their documentation promises is collected in `Externals.Documented`, which only the results that
read a payload back need.
-/

namespace Garive

/-! ## Identities -/

/-- A validated, non-empty identity. The label separates the identity types. -/
structure LedgerIdentity (label : String) where
  /-- The identity as text. -/
  text : String
  nonempty : text ≠ ""

abbrev SessionId := LedgerIdentity "session"
abbrev TurnId := LedgerIdentity "turn"
abbrev ExecutionId := LedgerIdentity "execution"
abbrev FactId := LedgerIdentity "fact"
abbrev ModelRequestId := LedgerIdentity "model request"
abbrev ToolInvocationId := LedgerIdentity "tool invocation"
abbrev AgentInstanceId := LedgerIdentity "agent instance"

namespace LedgerIdentity

variable {label : String}

/-- The identity with a given text, unless the text is empty. -/
def tryFrom (text : String) : Option (LedgerIdentity label) :=
  if h : text ≠ "" then some ⟨text, h⟩ else none

@[ext] theorem ext_text {a b : LedgerIdentity label} (h : a.text = b.text) : a = b := by
  cases a
  cases b
  cases h
  rfl

instance : DecidableEq (LedgerIdentity label) := fun a b ↦
  decidable_of_iff (a.text = b.text) ⟨ext_text, congrArg text⟩

theorem tryFrom_eq_some_iff {text : String} {identity : LedgerIdentity label} :
    tryFrom text = some identity ↔ identity.text = text := by
  constructor
  · intro h
    by_cases hne : text = ""
    · simp [tryFrom, hne] at h
    · simp only [tryFrom, ne_eq, hne, not_false_eq_true, ↓reduceDIte, Option.some.injEq] at h
      rw [← h]
  · rintro rfl
    simp [tryFrom, identity.nonempty]

@[simp] theorem tryFrom_text (identity : LedgerIdentity label) :
    tryFrom identity.text = some identity :=
  tryFrom_eq_some_iff.mpr rfl

instance : Ord (LedgerIdentity label) where
  compare a b := compare a.text b.text

theorem compare_eq (a b : LedgerIdentity label) : compare a b = compare a.text b.text := rfl

instance : Std.TransOrd (LedgerIdentity label) where
  eq_swap {a b} := by
    rw [compare_eq, compare_eq]
    exact Std.OrientedCmp.eq_swap
  isLE_trans {a b c} hab hbc := by
    rw [compare_eq] at *
    exact Std.TransCmp.isLE_trans hab hbc

instance : Std.LawfulEqOrd (LedgerIdentity label) where
  compare_self {a} := by
    rw [compare_eq]
    exact Std.ReflCmp.compare_self
  eq_of_compare {a b} h := by
    rw [compare_eq] at h
    exact ext_text (Std.LawfulEqCmp.eq_of_compare h)

end LedgerIdentity

/-! ## Counters -/

/-- `u64` addition that fails on overflow. -/
def checkedAdd (a b : Nat) : Option Nat :=
  if a + b < 2 ^ 64 then some (a + b) else none

theorem checkedAdd_eq_some_iff {a b c : Nat} :
    checkedAdd a b = some c ↔ a + b = c ∧ c < 2 ^ 64 := by
  unfold checkedAdd
  split
  · simp only [Option.some.injEq]
    constructor
    · rintro rfl
      exact ⟨rfl, by assumption⟩
    · exact fun h ↦ h.1
  · simp only [reduceCtorEq, false_iff, not_and]
    omega

/-! ## External code -/

/-- The library functions the ledger calls. -/
structure Externals where
  /-- `serde_json::from_str` at type `Value`. -/
  fromStr : String → Option Value
  /-- The lowercase hexadecimal SHA-256 digest of a text's UTF-8 bytes. -/
  sha256Hex : String → String
  /-- Whether `chrono::DateTime::parse_from_rfc3339` accepts a text. -/
  parseFromRfc3339 : String → Bool
  /-- Whether a text is an RFC 3339 timestamp equal to its own canonical UTC rendering with the
  shortest exact fraction. -/
  canonicalUtc : String → Bool

/-! ## Payloads -/

/-- Canonical JSON payload and the SHA-256 digest that binds its stored bytes. -/
structure CanonicalPayload where
  json : String
  sha256 : String
deriving DecidableEq

namespace CanonicalPayload

variable (lib : Externals)

/-- Canonicalizes a JSON value and computes its lowercase SHA-256 digest. -/
def fromValue (value : Value) : Except CanonicalPayloadError CanonicalPayload := do
  let json ← encode value
  return { json, sha256 := lib.sha256Hex json }

/-- Validates persisted JSON and digest bytes before reconstructing a payload. -/
def fromCanonicalParts (json sha256 : String) : Except CanonicalPayloadError CanonicalPayload :=
  match lib.fromStr json with
  | none => .error .invalidJson
  | some value => do
    let canonical ← fromValue lib value
    if canonical.json ≠ json then .error .nonCanonical
    else if canonical.sha256 ≠ sha256 then .error .digestMismatch
    else .ok canonical

/-- Recomputes the digest and fails when the payload bytes were corrupted. -/
def verify (payload : CanonicalPayload) : Except CanonicalPayloadError Unit :=
  if lib.sha256Hex payload.json = payload.sha256 then .ok () else .error .digestMismatch

end CanonicalPayload

/-! ## Errors and results -/

/-- Typed failure from ledger validation, transition, concurrency, or integrity checks. -/
inductive LedgerError where
  /-- A commit contained no facts. -/
  | emptyBatch
  /-- The expected session version did not match durable state. -/
  | concurrentModification
  /-- A fact id already exists with different idempotency-bound semantics. -/
  | idempotencyCollision
  /-- Only part of a submitted batch was found during idempotent replay. -/
  | incompleteReplay
  /-- A fact envelope or duplicate within a batch is invalid. -/
  | invalidFact
  /-- The fact would violate an admitted aggregate lifecycle. -/
  | invalidTransition
  /-- A referenced turn, execution, or invocation does not exist. -/
  | missingReference
  /-- A durable position or version cannot be incremented safely. -/
  | positionOverflow
  /-- A requested durable-position range is empty or reversed. -/
  | invalidReadRange
  /-- Persisted canonical payload evidence is invalid. -/
  | corruption (reason : CanonicalPayloadError)
deriving DecidableEq

/-- The stable machine-readable error code. -/
def LedgerError.code : LedgerError → String
  | emptyBatch => "empty-batch"
  | concurrentModification => "concurrent-modification"
  | idempotencyCollision => "idempotency-collision"
  | incompleteReplay => "incomplete-replay"
  | invalidFact => "invalid-fact"
  | invalidTransition => "invalid-transition"
  | missingReference => "missing-reference"
  | positionOverflow => "position-overflow"
  | invalidReadRange => "invalid-read-range"
  | corruption .digestMismatch => "digest-mismatch"
  | corruption _ => "corruption"

/-- Whether a commit appended new facts or replayed an identical prior batch. -/
inductive CommitDisposition where
  | committed
  | replayed
deriving DecidableEq

/-- Durable coordinates returned after a successful commit or replay. -/
structure CommitResult where
  disposition : CommitDisposition
  /-- Session version after the operation. -/
  sessionVersion : Nat
  /-- Durable positions corresponding to input fact order. -/
  positions : List Nat
deriving DecidableEq

/-! ## Facts -/

/-- Unpositioned fact supplied by the runtime as part of an atomic commit. -/
structure FactDraft where
  factId : FactId
  turnId : Option TurnId
  executionId : Option ExecutionId
  modelRequestId : Option ModelRequestId
  toolInvocationId : Option ToolInvocationId
  kind : FactKind
  schemaVersion : UInt32
  payload : CanonicalPayload
  /-- Observation time; durable position remains ordering truth. -/
  recordedAt : String
deriving DecidableEq

namespace FactDraft

/-- Compares the idempotency-bound semantic fields, excluding observation time. -/
def sameSemantics (self other : FactDraft) : Bool :=
  self.factId = other.factId
    && self.turnId = other.turnId
    && self.executionId = other.executionId
    && self.modelRequestId = other.modelRequestId
    && self.toolInvocationId = other.toolInvocationId
    && self.kind = other.kind
    && self.schemaVersion = other.schemaVersion
    && self.payload = other.payload

/-- Validates schema, timestamp, and canonical payload integrity. -/
def validate (lib : Externals) (self : FactDraft) : Except LedgerError Unit :=
  if self.schemaVersion = 0 ∨ lib.parseFromRfc3339 self.recordedAt = false then
    .error .invalidFact
  else (self.payload.verify lib).mapError .corruption

/-- Two drafts have the same semantics exactly when they differ in observation time only. -/
theorem sameSemantics_iff {a b : FactDraft} :
    a.sameSemantics b ↔ a = { b with recordedAt := a.recordedAt } := by
  cases a
  cases b
  simp [sameSemantics, and_assoc]

end FactDraft

/-- Immutable fact after assignment to a session-local durable position. -/
structure DurableFact where
  factId : FactId
  sessionId : SessionId
  /-- Non-zero, monotonically increasing session-local replay position. -/
  position : Nat
  turnId : Option TurnId
  executionId : Option ExecutionId
  modelRequestId : Option ModelRequestId
  toolInvocationId : Option ToolInvocationId
  kind : FactKind
  schemaVersion : UInt32
  payload : CanonicalPayload
  recordedAt : String
deriving DecidableEq

namespace DurableFact

/-- The draft placed at a position of a session. -/
def ofDraft (sessionId : SessionId) (position : Nat) (draft : FactDraft) : DurableFact where
  factId := draft.factId
  sessionId := sessionId
  position := position
  turnId := draft.turnId
  executionId := draft.executionId
  modelRequestId := draft.modelRequestId
  toolInvocationId := draft.toolInvocationId
  kind := draft.kind
  schemaVersion := draft.schemaVersion
  payload := draft.payload
  recordedAt := draft.recordedAt

/-- Verifies durable position, schema, timestamp, and payload integrity. -/
def verify (lib : Externals) (self : DurableFact) : Except LedgerError Unit :=
  if self.position = 0 ∨ self.schemaVersion = 0
      ∨ lib.parseFromRfc3339 self.recordedAt = false then
    .error (.corruption .invalidJson)
  else (self.payload.verify lib).mapError .corruption

/-- A valid draft placed at a non-zero position verifies. -/
theorem verify_ofDraft {lib : Externals} {sessionId : SessionId} {position : Nat}
    {draft : FactDraft} (hpos : position ≠ 0) (hvalid : draft.validate lib = .ok ()) :
    (ofDraft sessionId position draft).verify lib = .ok () := by
  unfold FactDraft.validate at hvalid
  split at hvalid
  · cases hvalid
  · rename_i h
    push Not at h
    simp [verify, ofDraft, hpos, h, hvalid]

end DurableFact

end Garive
