import Garive.Goal.Definition
import Garive.Lib.Latest

/-!
# The Goal lifecycle

Evidence of success, and the pure reduction of a Goal: a snapshot holds the current definition, its
revision, the state and the evidence of success. A transition applies only at the revision the caller
expects, moves the revision by one and never leaves a terminal state.

A list of evidence is stored as its canonical document and read back by
`GoalEvidenceV1.listFromCanonicalJson`.
-/

namespace Garive

open Value

/-! ## Evidence -/

/-- Closed evidence family matching the four criterion variants. -/
inductive GoalEvidenceKind where
  | userAcceptance
  | artifact
  | durableFact
  | childGoals
deriving DecidableEq

namespace GoalEvidenceKind

def label : GoalEvidenceKind → String
  | userAcceptance => "user_acceptance"
  | artifact => "artifact"
  | durableFact => "durable_fact"
  | childGoals => "child_goals"

def toValue (kind : GoalEvidenceKind) : Value := .string kind.label

def fromValue (value : Value) : Option GoalEvidenceKind := do
  let text ← value.asStr
  [userAcceptance, artifact, durableFact, childGoals].find? (·.label == text)

theorem readsBack : ReadsBack toValue fromValue := by
  intro kind
  cases kind <;> rfl

end GoalEvidenceKind

/-- Exact evidence reference evaluated at a frozen commit version. -/
structure GoalEvidenceV1 where
  evidenceId : GoalEvidenceId
  criterionId : GoalCriterionId
  kind : GoalEvidenceKind
  durableReference : String
  evidenceDigest : String
  observedAtCommitVersion : UInt64
  valid : validReference durableReference = true ∧ RuntimeFacts.isDigest evidenceDigest = true ∧
    observedAtCommitVersion ≠ 0

namespace GoalEvidenceV1

/-- Validates a non-empty reference, canonical digest, and positive position. -/
def new (evidenceId : GoalEvidenceId) (criterionId : GoalCriterionId) (kind : GoalEvidenceKind)
    (durableReference evidenceDigest : String) (observedAtCommitVersion : UInt64) :
    Except GoalErrorCode GoalEvidenceV1 :=
  if h : validReference durableReference = true ∧ RuntimeFacts.isDigest evidenceDigest = true ∧
      observedAtCommitVersion ≠ 0 then
    .ok { evidenceId, criterionId, kind, durableReference, evidenceDigest, observedAtCommitVersion
          valid := h }
  else .error .goalInvalid

theorem new_eq (evidence : GoalEvidenceV1) : new evidence.evidenceId evidence.criterionId
    evidence.kind evidence.durableReference evidence.evidenceDigest
    evidence.observedAtCommitVersion = .ok evidence := by
  rw [new, dif_pos evidence.valid]

def toValue (evidence : GoalEvidenceV1) : Value :=
  json [("evidence_id", .string evidence.evidenceId),
    ("criterion_id", .string evidence.criterionId), ("kind", evidence.kind.toValue),
    ("durable_reference", .string evidence.durableReference),
    ("evidence_digest", .string evidence.evidenceDigest),
    ("observed_at_commit_version", .ofU64 evidence.observedAtCommitVersion)]

/-- Reads and validates one element of an evidence document. -/
def fromValue (value : Value) : Option GoalEvidenceV1 := do
  let members ← value.asObject
  let evidenceId ← members.field? asStr "evidence_id"
  let criterionId ← members.field? asStr "criterion_id"
  let kind ← members.field? GoalEvidenceKind.fromValue "kind"
  let durableReference ← members.field? asStr "durable_reference"
  let evidenceDigest ← members.field? asStr "evidence_digest"
  let observedAtCommitVersion ← members.field? toU64 "observed_at_commit_version"
  (new evidenceId criterionId kind durableReference evidenceDigest
    observedAtCommitVersion).toOption

theorem readsBack : ReadsBack toValue fromValue := by
  intro evidence
  have hkind := GoalEvidenceKind.readsBack evidence.kind
  have hobs := readsBack_ofU64 evidence.observedAtCommitVersion
  simp [toValue, fromValue, json, Object.field?, hkind, hobs, new_eq, Except.toOption]

theorem plain_toValue {n : Nat} (evidence : GoalEvidenceV1) : evidence.toValue.Plain (n + 1) :=
  plain_json (by simp [GoalEvidenceKind.toValue])

/-- Serializes an ordered evidence set for one durable content binding. -/
def canonicalJson (values : List GoalEvidenceV1) : Except GoalErrorCode String := do
  ensure (values.length ≤ maxCollectionItems) .goalInvalid
  (encode (.ofList toValue values)).mapError fun _ ↦ .goalInvalid

/-- Reconstructs and revalidates an exact canonical evidence set document. -/
def listFromCanonicalJson (lib : Externals) (text : String) :
    Except GoalErrorCode (List GoalEvidenceV1) := do
  let value ← okOr (lib.fromStr text) .goalInvalid
  let values ← okOr (value.toList fromValue) .goalInvalid
  let canonical ← canonicalJson values
  ensure (canonical = text) .goalInvalid
  return values

/-- A list of evidence is read back from its own document. -/
theorem listFromCanonicalJson_of_canonicalJson {lib : Externals} (hlib : lib.Documented)
    {values : List GoalEvidenceV1} {text : String} (h : canonicalJson values = .ok text) :
    listFromCanonicalJson lib text = .ok values := by
  have hplain : (ofList toValue values).Plain 127 :=
    plain_ofList (n := 126) fun evidence _ ↦ evidence.plain_toValue
  have hencode := h
  simp only [canonicalJson, ok_iff]
    at hencode
  rw [listFromCanonicalJson,
    hlib.fromStr_encode hplain.wellFormed hplain.depth_le hencode.2]
  simp [readsBack_ofList readsBack values, h]

end GoalEvidenceV1

/-! ## States and transitions -/

/-- Closed durable Goal lifecycle state. -/
inductive GoalState where
  | draft
  | active
  | suspended
  | succeeded
  | failed
  | cancelled
deriving DecidableEq

/-- Whether no later lifecycle transition is permitted. -/
def GoalState.isTerminal : GoalState → Bool
  | succeeded | failed | cancelled => true
  | _ => false

/-- One requested pure lifecycle transition after Runtime command validation. -/
inductive GoalTransition where
  | activate
  | suspend (reason : String)
  | succeed (evidence : List GoalEvidenceV1)
  | fail (reason : String)
  | cancel (reason : String)
  | revise (definition : GoalDefinitionV1)

/-- Immutable Goal projection after one contiguous durable prefix. -/
structure GoalSnapshot where
  definition : GoalDefinitionV1
  revision : Nat
  state : GoalState
  terminalEvidence : List GoalEvidenceV1

/-- The evidence family of a criterion. -/
def criterionKind : GoalCriterion → GoalEvidenceKind
  | .userAcceptance .. => .userAcceptance
  | .artifact .. => .artifact
  | .durableFact .. => .durableFact
  | .childGoals .. => .childGoals

/-- Evidence by the criterion it is for; of several items for one criterion the last counts. -/
def byCriterion (evidence : List GoalEvidenceV1) : Map GoalCriterionId GoalEvidenceV1 :=
  latestBy (fun value ↦ some value.criterionId) evidence

/-- Every criterion has one item of evidence of its family, and nothing is left over. -/
def validateEvidence (criteria : List GoalCriterion) (evidence : List GoalEvidenceV1) :
    Except GoalErrorCode Unit := do
  ensure ((byCriterion evidence).size = evidence.length) .goalEvidenceInsufficient
  ensure ((SetOf.ofList (evidence.map (·.evidenceId))).size = evidence.length)
    .goalEvidenceInsufficient
  ensure (criteria.length = evidence.length) .goalEvidenceInsufficient
  ensure (criteria.all (fun criterion ↦ (byCriterion evidence)[criterion.criterionId]?.any
    (·.kind == criterionKind criterion)) = true) .goalEvidenceInsufficient

namespace GoalSnapshot

/-- Creates revision 1 in Draft from a validated definition. -/
def new (definition : GoalDefinitionV1) : GoalSnapshot where
  definition := definition
  revision := 1
  state := .draft
  terminalEvidence := []

/-- Applies one transition only at the caller's exact expected revision. -/
def apply (snapshot : GoalSnapshot) (expectedRevision : Nat) (transition : GoalTransition) :
    Except GoalErrorCode GoalSnapshot := do
  ensure (expectedRevision = snapshot.revision) .goalRevisionConflict
  ensure (snapshot.state.isTerminal = false) .goalTransitionInvalid
  let revision ← okOr (checkedAdd snapshot.revision 1) .goalInvalid
  match transition with
  | .activate => do
    ensure (snapshot.state = .draft ∨ snapshot.state = .suspended) .goalTransitionInvalid
    return { snapshot with revision, state := .active }
  | .suspend reason => do
    ensure (snapshot.state = .active ∧ validReference reason = true) .goalTransitionInvalid
    return { snapshot with revision, state := .suspended }
  | .succeed evidence => do
    ensure (snapshot.state = .active) .goalTransitionInvalid
    validateEvidence snapshot.definition.criteria evidence
    return { snapshot with revision, state := .succeeded, terminalEvidence := evidence }
  | .fail reason => do
    ensure ((snapshot.state = .active ∨ snapshot.state = .suspended) ∧
      validReference reason = true) .goalTransitionInvalid
    return { snapshot with revision, state := .failed }
  | .cancel reason => do
    ensure (validReference reason = true) .goalTransitionInvalid
    return { snapshot with revision, state := .cancelled }
  | .revise definition => do
    ensure (definition.goalId = snapshot.definition.goalId) .goalTransitionInvalid
    return { definition, revision, state := .draft, terminalEvidence := [] }

variable {snapshot next : GoalSnapshot} {expectedRevision : Nat} {transition : GoalTransition}

/-- What every transition does, whichever it is. -/
theorem apply_eq_ok (h : snapshot.apply expectedRevision transition = .ok next) :
    expectedRevision = snapshot.revision ∧ snapshot.state.isTerminal = false ∧
      next.revision = snapshot.revision + 1 ∧ next.revision < 2 ^ 64 ∧
      next.definition.goalId = snapshot.definition.goalId := by
  simp only [apply, ok_iff, checkedAdd_eq_some_iff] at h
  obtain ⟨hexp, hterm, revision, ⟨rfl, hlt⟩, h⟩ := h
  refine ⟨hexp, hterm, ?_⟩
  cases transition <;>
    simp only [ok_iff] at h
  case succeed => obtain ⟨-, -, rfl⟩ := h; exact ⟨rfl, hlt, rfl⟩
  case revise => obtain ⟨hid, rfl⟩ := h; exact ⟨rfl, hlt, hid⟩
  all_goals
    obtain ⟨-, rfl⟩ := h
    exact ⟨rfl, hlt, rfl⟩

/-- Only a revision changes the definition. -/
theorem definition_of_apply (h : snapshot.apply expectedRevision transition = .ok next) :
    next.definition = snapshot.definition ∨ transition = .revise next.definition := by
  simp only [apply, ok_iff] at h
  obtain ⟨-, -, _, -, h⟩ := h
  cases transition <;> simp only [ok_iff] at h
  case succeed => obtain ⟨-, -, rfl⟩ := h; exact .inl rfl
  case revise => obtain ⟨-, rfl⟩ := h; exact .inr rfl
  all_goals
    obtain ⟨-, rfl⟩ := h
    exact .inl rfl

end GoalSnapshot

end Garive
