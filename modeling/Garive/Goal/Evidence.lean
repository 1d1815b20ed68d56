import Garive.Goal.Lifecycle
import Garive.Ledger.Prefix

/-!
# Evidence of a Goal's success

A Goal succeeds on evidence that refers to durable facts of its session or to child Goals.
`verifyGoalSuccessEvidence` checks it twice over the life of a Goal: when success is planned, against
the session as it is then, and at every recovery, against the session as it has become and below the
position of the fact that recorded the success.

The check is stable: whatever is committed after a success was planned, the evidence is accepted
again (`verifyGoalSuccessEvidence_extend`). A later fact cannot replace one that was referred to, and
a Goal that succeeded does not change.
-/

namespace Garive

/-- Stable Runtime failure classes for durable Goal commands and recovery. -/
inductive GoalRuntimeError where
  | invalid
  | notFound
  | revisionConflict
  | commandConflict
  | transitionInvalid
  | evidenceInsufficient
  | evidenceInvalid
  | scopeExceeded
  | cycle
  | recoveryCorrupt
  | durabilityFailure
deriving DecidableEq

/-- Verified Goal projection reconstructed at one session watermark. -/
structure GoalRuntimeState where
  snapshot : GoalSnapshot
  /-- Number of distinct attempts started from Draft. -/
  attemptNumber : Nat
  sessionVersion : Nat
  throughPosition : Nat

abbrev GoalGraph := Map GoalId GoalRuntimeState

namespace GoalEvidence

variable (lib : Externals)

/-! ## The check -/

/-- The members of a fact's payload. -/
def payload (fact : DurableFact) : Except GoalRuntimeError Object := do
  let value ← okOr (lib.fromStr fact.payload.json) .recoveryCorrupt
  okOr value.asObject .recoveryCorrupt

/-- A non-empty text of a payload. -/
def text (payload : Object) (key : String) : Except GoalRuntimeError String :=
  okOr (((payload.get? key).bind Value.asStr).filter (· != "")) .evidenceInvalid

/-- The non-empty digest of a content binding. -/
def contentDigest (payload : Object) (key : String) : Except GoalRuntimeError String :=
  okOr (((((payload.get? key).bind Value.asObject).bind fun value ↦ value.get? "digest").bind
    Value.asStr).filter (· != "")) .evidenceInvalid

/-- The facts by identity. -/
def factsById (facts : List DurableFact) : Map String DurableFact :=
  latestBy (fun fact ↦ some fact.factId.text) facts

/-- The fact that an item of the expected family refers to, below the success. -/
def referencedFact (item : GoalEvidenceV1) (expectedKind : GoalEvidenceKind)
    (facts : Map String DurableFact) (successPosition : Option Nat) :
    Except GoalRuntimeError DurableFact := do
  ensure (item.kind = expectedKind) .evidenceInvalid
  let fact ← okOr facts[item.durableReference]? .evidenceInvalid
  ensure (successPosition.all (fact.position < ·) = true) .evidenceInvalid
  (fact.verify lib).mapError fun _ ↦ .recoveryCorrupt
  return fact

def verifyFact (item : GoalEvidenceV1) (factKind subjectDigest : String)
    (facts : Map String DurableFact) (successPosition : Option Nat) :
    Except GoalRuntimeError Unit := do
  let fact ← referencedFact lib item .durableFact facts successPosition
  ensure (fact.kind.text = factKind ∧ fact.payload.sha256 = subjectDigest ∧
    item.evidenceDigest = subjectDigest) .evidenceInvalid

def verifyArtifact (item : GoalEvidenceV1) (artifactKind : String) (requiredDigest : Option String)
    (facts : Map String DurableFact) (successPosition : Option Nat) :
    Except GoalRuntimeError Unit := do
  let fact ← referencedFact lib item .artifact facts successPosition
  let payload ← payload lib fact
  let contentDigest ← text payload "content_digest"
  ensure (fact.kind = .known .artifactCommitted) .evidenceInvalid
  let kind ← text payload "kind"
  ensure (kind = artifactKind ∧ requiredDigest.all (· == contentDigest) = true ∧
    item.evidenceDigest = contentDigest) .evidenceInvalid

/-- A request for interaction with a tool invocation, before a position. -/
def isRequest (toolId : ToolInvocationId) (position : Nat) (fact : DurableFact) : Bool :=
  fact.kind == .known .interactionRequested && fact.toolInvocationId == some toolId &&
    decide (fact.position < position)

def verifyUserAcceptance (item : GoalEvidenceV1) (responseSchemaDigest : String)
    (facts : Map String DurableFact) (successPosition : Option Nat) :
    Except GoalRuntimeError Unit := do
  let resolved ← referencedFact lib item .userAcceptance facts successPosition
  ensure (resolved.kind = .known .interactionResolved) .evidenceInvalid
  let toolId ← okOr resolved.toolInvocationId .evidenceInvalid
  let resolvedPayload ← payload lib resolved
  let responseDigest ← contentDigest resolvedPayload "response"
  let requests := (facts.toList.map (·.2)).filter (isRequest toolId resolved.position)
  let request ← okOr (sole? requests) .evidenceInvalid
  let requestPayload ← payload lib request
  checkAll (fun key ↦ do
    let requested ← text requestPayload key
    let answered ← text resolvedPayload key
    ensure (requested = answered) .evidenceInvalid)
    ["interaction_id", "suspension_id", "prepared_digest"]
  let schemaDigest ← text requestPayload "response_schema_digest"
  ensure (schemaDigest = responseSchemaDigest ∧ item.evidenceDigest = responseDigest)
    .evidenceInvalid

/-- Whether a fact records the success of a Goal. -/
def recordsSuccess (goalId : GoalId) (fact : DurableFact) : Bool :=
  fact.kind == .known .goalSucceeded &&
    ((lib.fromStr fact.payload.json).bind (·.get? "goal_id")).bind Value.asStr == some goalId

/-- The position of the only fact that records the success of a Goal. -/
def succeededPosition? (facts : List DurableFact) (goalId : GoalId) : Option Nat :=
  (sole? (facts.filter (recordsSuccess lib goalId))).map (·.position)

/-- What the evidence of child Goals says of one child that succeeded before its parent. -/
def childEntry (goalId : GoalId) (graph : GoalGraph) (facts : List DurableFact)
    (successPosition : Option Nat) (childId : GoalId) : Except GoalRuntimeError Value := do
  let child ← okOr graph[childId]? .evidenceInvalid
  ensure (child.snapshot.state = .succeeded) .evidenceInvalid
  ensure (child.snapshot.definition.parentGoalId = some goalId) .evidenceInvalid
  ensure (successPosition.all (fun parentPosition ↦
    (succeededPosition? lib facts childId).any (· < parentPosition)) = true) .evidenceInvalid
  let digest ← (child.snapshot.definition.digest lib).mapError fun _ ↦ .recoveryCorrupt
  return json [("goal_id", .string childId), ("revision", .number (.posInt child.snapshot.revision)),
    ("definition_digest", .string digest)]

def verifyChildren (item : GoalEvidenceV1) (goalId : GoalId) (childIds : SetOf GoalId)
    (graph : GoalGraph) (facts : List DurableFact) (successPosition : Option Nat) :
    Except GoalRuntimeError Unit := do
  ensure (item.kind = .childGoals) .evidenceInvalid
  let entries ← collect (childIds.toList.map (childEntry lib goalId graph facts successPosition))
  let payload ← (CanonicalPayload.fromValue lib (.array entries)).mapError fun _ ↦ .recoveryCorrupt
  ensure (item.evidenceDigest = payload.sha256 ∧
    item.durableReference = "goal-set:" ++ payload.sha256) .evidenceInvalid

/-- The check of the item for one criterion. -/
def verifyCriterion (goalId : GoalId) (graph : GoalGraph) (facts : List DurableFact)
    (successPosition : Option Nat) (item : GoalEvidenceV1) :
    GoalCriterion → Except GoalRuntimeError Unit
  | .userAcceptance _ responseSchemaDigest =>
    verifyUserAcceptance lib item responseSchemaDigest (factsById facts) successPosition
  | .artifact _ artifactKind requiredDigest =>
    verifyArtifact lib item artifactKind requiredDigest (factsById facts) successPosition
  | .durableFact _ factKind subjectDigest =>
    verifyFact lib item factKind subjectDigest (factsById facts) successPosition
  | .childGoals _ childGoalIds =>
    verifyChildren lib item goalId childGoalIds graph facts successPosition

/-- Checks that every criterion has one item of evidence that the session bears out. -/
def verifyGoalSuccessEvidence (goalId : GoalId) (criteria : List GoalCriterion)
    (evidence : List GoalEvidenceV1) (graph : GoalGraph) (facts : List DurableFact)
    (observedSessionVersion : Nat) (successPosition : Option Nat) :
    Except GoalRuntimeError Unit := do
  ensure ((byCriterion evidence).size = evidence.length) .evidenceInsufficient
  ensure ((SetOf.ofList (evidence.map (·.evidenceId))).size = evidence.length)
    .evidenceInsufficient
  ensure (criteria.length = evidence.length) .evidenceInsufficient
  checkAll (fun criterion ↦ do
    let item ← okOr (byCriterion evidence)[criterion.criterionId]? .evidenceInsufficient
    let observed := item.observedAtCommitVersion.toNat
    ensure (observed ≠ 0 ∧ observed ≤ observedSessionVersion ∧
      (successPosition = none → observed = observedSessionVersion)) .evidenceInvalid
    verifyCriterion lib goalId graph facts successPosition item criterion) criteria

/-! ## Stability -/

section Extend

variable {lib : Externals} {facts added : List DurableFact} {item : GoalEvidenceV1}
  {pos : Option Nat} {p : Nat}

theorem get?_factsById_eq_some_iff (h : StoredFacts lib facts) {id : String} {fact : DurableFact} :
    (factsById facts)[id]? = some fact ↔ fact ∈ facts ∧ fact.factId.text = id := by
  apply get?_latestBy_eq_some_iff
  have hinj : Function.Injective fun id : FactId ↦ id.text := fun _ _ h ↦
    LedgerIdentity.ext_text h
  rw [← Function.comp_def, ← List.map_map]
  exact h.ids.map hinj

/-- The success is recorded at a position, or is being planned and will be recorded there, above
every fact there is. -/
def Settled (facts : List DurableFact) (pos : Option Nat) (p : Nat) : Prop :=
  pos = some p ∨ pos = none ∧ facts.length < p

/-- The facts of a map from identities, in any order. -/
theorem sole?_values_factsById (h : StoredFacts lib facts) (test : DurableFact → Bool) :
    sole? (((factsById facts).toList.map (·.2)).filter test) = sole? (facts.filter test) := by
  apply sole?_of_perm
  apply List.Perm.filter
  apply values_latestBy_perm
  rw [← Function.comp_def, ← List.map_map]
  exact h.ids.map fun _ _ h ↦ LedgerIdentity.ext_text h

/-- Later facts lie above the answer, so they are no requests for it. -/
theorem filter_isRequest_append (hnew : StoredFacts lib (facts ++ added)) {toolId : ToolInvocationId}
    {position : Nat} (hposition : position ≤ facts.length) :
    (facts ++ added).filter (isRequest toolId position) =
      facts.filter (isRequest toolId position) := by
  rw [List.filter_append, List.append_right_eq_self, List.filter_eq_nil_iff]
  intro fact hfact
  have hlt := hnew.lt_position hfact
  simp only [isRequest, Bool.and_eq_true, decide_eq_true_eq, not_and]
  omega

section Referenced

variable (hnew : StoredFacts lib (facts ++ added)) (hpos : Settled facts pos p)

include hnew hpos

/-- A fact that was referred to is still the one referred to. -/
theorem referencedFact_extend {kind : GoalEvidenceKind} {fact : DurableFact}
    (h : referencedFact lib item kind (factsById facts) pos = .ok fact) :
    fact ∈ facts ∧ referencedFact lib item kind (factsById (facts ++ added)) (some p) = .ok fact := by
  simp only [referencedFact, ok_iff, get?_factsById_eq_some_iff hnew.of_append,
    get?_factsById_eq_some_iff hnew] at h ⊢
  obtain ⟨hkind, found, ⟨hmem, hid⟩, hbelow, hverify, rfl⟩ := h
  refine ⟨hmem, hkind, found, ⟨List.mem_append_left _ hmem, hid⟩, ?_, hverify, rfl⟩
  rcases hpos with rfl | ⟨rfl, hlt⟩
  · exact hbelow
  · have hle := (hnew.of_append.position_le hmem).2
    simp only [Option.all_some, decide_eq_true_eq]
    omega

theorem verifyFact_extend {factKind subjectDigest : String}
    (h : verifyFact lib item factKind subjectDigest (factsById facts) pos = .ok ()) :
    verifyFact lib item factKind subjectDigest (factsById (facts ++ added)) (some p) = .ok () := by
  obtain ⟨fact, hfact, hrest⟩ := bind_eq_ok_iff.mp h
  exact bind_eq_ok_iff.mpr ⟨fact, (referencedFact_extend hnew hpos hfact).2, hrest⟩

theorem verifyArtifact_extend {artifactKind : String} {requiredDigest : Option String}
    (h : verifyArtifact lib item artifactKind requiredDigest (factsById facts) pos = .ok ()) :
    verifyArtifact lib item artifactKind requiredDigest (factsById (facts ++ added)) (some p) =
      .ok () := by
  obtain ⟨fact, hfact, hrest⟩ := bind_eq_ok_iff.mp h
  exact bind_eq_ok_iff.mpr ⟨fact, (referencedFact_extend hnew hpos hfact).2, hrest⟩

theorem verifyUserAcceptance_extend {responseSchemaDigest : String}
    (h : verifyUserAcceptance lib item responseSchemaDigest (factsById facts) pos = .ok ()) :
    verifyUserAcceptance lib item responseSchemaDigest (factsById (facts ++ added)) (some p) =
      .ok () := by
  obtain ⟨resolved, hresolved, hrest⟩ := bind_eq_ok_iff.mp h
  obtain ⟨hmem, hreferenced⟩ := referencedFact_extend hnew hpos hresolved
  refine bind_eq_ok_iff.mpr ⟨resolved, hreferenced, ?_⟩
  simp only [sole?_values_factsById hnew, sole?_values_factsById hnew.of_append,
    filter_isRequest_append hnew (hnew.of_append.position_le hmem).2] at hrest ⊢
  exact hrest

end Referenced

variable {goalId : GoalId} {graph graph' : GoalGraph}

/-- A Goal that succeeded stays as it is, and its success stays where it was recorded. -/
def ChildrenKept (lib : Externals) (graph graph' : GoalGraph) (facts added : List DurableFact) :
    Prop :=
  ∀ (childId : GoalId) (child : GoalRuntimeState), graph[childId]? = some child →
    child.snapshot.state = .succeeded →
      (∃ kept, graph'[childId]? = some kept ∧ kept.snapshot = child.snapshot) ∧
      ∃ position ≤ facts.length, succeededPosition? lib facts childId = some position ∧
        succeededPosition? lib (facts ++ added) childId = some position

theorem childEntry_extend (hkept : ChildrenKept lib graph graph' facts added)
    (hpos : Settled facts pos p) {childId : GoalId} {entry : Value}
    (h : childEntry lib goalId graph facts pos childId = .ok entry) :
    childEntry lib goalId graph' (facts ++ added) (some p) childId = .ok entry := by
  simp only [childEntry, ok_iff] at h ⊢
  obtain ⟨child, hchild, hstate, hpar, hbef, digest, hdig, rfl⟩ := h
  obtain ⟨⟨kept, hget, hsnap⟩, _, _, hold, hnew⟩ := hkept childId child hchild hstate
  rw [hold] at hbef
  refine ⟨kept, hget, by rw [hsnap, hstate], by rw [hsnap, hpar], ?_, digest,
    by rw [hsnap, hdig], by rw [hsnap]⟩
  rw [hnew]
  rcases hpos with rfl | ⟨rfl, hlt⟩
  · exact hbef
  · simp only [Option.all_some, Option.any_some, decide_eq_true_eq]
    omega

theorem verifyChildren_extend (hkept : ChildrenKept lib graph graph' facts added)
    (hpos : Settled facts pos p) {childIds : SetOf GoalId}
    (h : verifyChildren lib item goalId childIds graph facts pos = .ok ()) :
    verifyChildren lib item goalId childIds graph' (facts ++ added) (some p) = .ok () := by
  simp only [verifyChildren, ok_iff, collect_eq_ok_iff]
    at h ⊢
  obtain ⟨hkind, entries, hentries, hrest⟩ := h
  refine ⟨hkind, entries, ?_, hrest⟩
  rw [← hentries]
  refine List.map_congr_left fun childId hmem ↦ ?_
  have hentry : childEntry lib goalId graph facts pos childId ∈ entries.map .ok :=
    hentries ▸ List.mem_map_of_mem hmem
  obtain ⟨_, -, hok⟩ := List.mem_map.mp hentry
  rw [← hok, childEntry_extend hkept hpos hok.symm]

theorem verifyCriterion_extend (hnew : StoredFacts lib (facts ++ added))
    (hkept : ChildrenKept lib graph graph' facts added) (hpos : Settled facts pos p)
    {criterion : GoalCriterion}
    (h : verifyCriterion lib goalId graph facts pos item criterion = .ok ()) :
    verifyCriterion lib goalId graph' (facts ++ added) (some p) item criterion = .ok () := by
  cases criterion with
  | userAcceptance => exact verifyUserAcceptance_extend hnew hpos h
  | artifact => exact verifyArtifact_extend hnew hpos h
  | durableFact => exact verifyFact_extend hnew hpos h
  | childGoals => exact verifyChildren_extend hkept hpos h

/-- **Accepted evidence stays accepted.** Evidence that was accepted for a success, planned or
recorded, is accepted for the recorded success over every longer history. -/
theorem verifyGoalSuccessEvidence_extend (hnew : StoredFacts lib (facts ++ added))
    (hkept : ChildrenKept lib graph graph' facts added) (hpos : Settled facts pos p)
    {criteria : List GoalCriterion} {evidence : List GoalEvidenceV1} {version version' : Nat}
    (hver : version ≤ version')
    (h : verifyGoalSuccessEvidence lib goalId criteria evidence graph facts version pos = .ok ()) :
    verifyGoalSuccessEvidence lib goalId criteria evidence graph' (facts ++ added) version'
      (some p) = .ok () := by
  simp only [verifyGoalSuccessEvidence, ok_iff, checkAll_eq_ok_iff] at h ⊢
  obtain ⟨hcriteria, hids, hlen, hall⟩ := h
  refine ⟨hcriteria, hids, hlen, fun criterion hmem ↦ ?_⟩
  obtain ⟨item, hitem, ⟨hzero, hle, -⟩, hverify⟩ := hall criterion hmem
  exact ⟨item, hitem, ⟨hzero, Nat.le_trans hle hver, by simp⟩,
    verifyCriterion_extend hnew hkept hpos hverify⟩

end Extend

end GoalEvidence

end Garive
