import Garive.Json.Record
import Garive.Ledger.Reference
import Garive.Lib.Map

/-!
# Goal definitions

One immutable revision of a Goal: its objective, the criteria of its success, and the grant it works
under, which is a scope, bounds and a set of capabilities. Each type carries what its constructor
checks. A child's grant must lie within its parent's; the relation `GoalDefinitionV1.Within` is
reflexive and transitive, so that it composes along chains of any length.

A definition is stored as its canonical document and read back from it by
`GoalDefinitionV1.fromCanonicalJson`, which validates everything again. A Goal identity is a plain
text here because a stored document is not held to the length limit of the constructor; that it is
not empty is checked by the definition.
-/

namespace Garive

open Value SetOf Object

abbrev GoalId := String
abbrev GoalCriterionId := String
abbrev GoalEvidenceId := String

/-- Stable portable Goal failure classification. -/
inductive GoalErrorCode where
  | goalInvalid
  | goalRevisionConflict
  | goalTransitionInvalid
  | goalEvidenceInsufficient
  | goalScopeExceeded
deriving DecidableEq

def maxReferenceBytes : Nat := 512
def maxObjectiveBytes : Nat := 16 * 1024
def maxCollectionItems : Nat := 256

/-- A non-empty reference of bounded length. -/
def validReference (text : String) : Bool :=
  text != "" && decide (text.utf8ByteSize ≤ maxReferenceBytes)

/-! ## Capabilities -/

/-- Exact capability revision available to one Goal. -/
structure GoalCapabilityReference where
  name : String
  exactRevision : String
deriving DecidableEq

namespace GoalCapabilityReference

/-- References are ordered by name, then by revision. -/
instance : Ord GoalCapabilityReference where
  compare := compareLex (compareOn name) (compareOn exactRevision)

theorem compare_eq : (compare : GoalCapabilityReference → GoalCapabilityReference → Ordering) =
    compareLex (compareOn name) (compareOn exactRevision) := rfl

instance : Std.TransOrd GoalCapabilityReference :=
  inferInstanceAs (Std.TransCmp (compareLex (compareOn name) (compareOn exactRevision)))

instance : Std.LawfulEqOrd GoalCapabilityReference where
  eq_of_compare {a b} h := by
    rw [compare_eq, compareLex_eq_eq] at h
    cases a
    cases b
    congr 1
    · exact Std.LawfulEqCmp.eq_of_compare h.1
    · exact Std.LawfulEqCmp.eq_of_compare h.2

def toValue (reference : GoalCapabilityReference) : Value :=
  json [("name", .string reference.name), ("exact_revision", .string reference.exactRevision)]

def fromValue (value : Value) : Option GoalCapabilityReference := do
  let members ← value.asObject
  let name ← members.field? asStr "name"
  let exactRevision ← members.field? asStr "exact_revision"
  return { name, exactRevision }

theorem readsBack : ReadsBack toValue fromValue := by
  intro reference
  simp [toValue, fromValue, json, field?]

theorem plain_toValue {n : Nat} (reference : GoalCapabilityReference) :
    reference.toValue.Plain (n + 1) :=
  plain_json (by simp)

end GoalCapabilityReference

/-! ## Scope -/

/-- Bounded scope references; workspace values are opaque Runtime capabilities. -/
structure GoalScopeV1 where
  sessionId : Option String
  workspaceCapabilityIds : SetOf String
  session_valid : sessionId.all validReference = true
  ids_valid : workspaceCapabilityIds.toList.all validReference = true
  ids_le : workspaceCapabilityIds.size ≤ maxCollectionItems
  anchored : ¬(sessionId = none ∧ workspaceCapabilityIds.isEmpty = true)

namespace GoalScopeV1

/-- Requires a session or at least one workspace capability, each a unique valid reference. -/
def new (sessionId : Option String) (workspaceCapabilityIds : List String) :
    Except GoalErrorCode GoalScopeV1 :=
  let ids := ofList workspaceCapabilityIds
  if h : sessionId.all validReference = true ∧ workspaceCapabilityIds.length ≤ maxCollectionItems ∧
      workspaceCapabilityIds.all validReference = true ∧ workspaceCapabilityIds.length = ids.size ∧
      ¬(sessionId = none ∧ ids.isEmpty = true) then
    .ok { sessionId
          workspaceCapabilityIds := ids
          session_valid := h.1
          ids_valid := by
            have hvalid := h.2.2.1
            simp only [List.all_eq_true, Std.ExtTreeSet.mem_toList,
              ← Std.ExtTreeSet.contains_iff_mem] at hvalid ⊢
            exact fun text htext ↦ hvalid text (by simpa [ids] using htext)
          ids_le := h.2.2.2.1 ▸ h.2.1
          anchored := h.2.2.2.2 }
  else .error .goalInvalid

/-- A scope passes its own constructor. -/
theorem new_eq (scope : GoalScopeV1) :
    new scope.sessionId scope.workspaceCapabilityIds.toList = .ok scope := by
  have hlen : scope.workspaceCapabilityIds.toList.length = scope.workspaceCapabilityIds.size :=
    Std.ExtTreeSet.length_toList
  rw [new, dif_pos]
  · simp only [ofList_toList]
  · rw [ofList_toList, hlen]
    exact ⟨scope.session_valid, scope.ids_le, scope.ids_valid, rfl, scope.anchored⟩

/-- The child names no session or the parent's, and no workspace capability of its own. -/
def isWithin (child parent : GoalScopeV1) : Bool :=
  (child.sessionId.isNone || child.sessionId == parent.sessionId) &&
    isSubset child.workspaceCapabilityIds parent.workspaceCapabilityIds

theorem isWithin_iff {child parent : GoalScopeV1} : child.isWithin parent ↔
    (child.sessionId = none ∨ child.sessionId = parent.sessionId) ∧
      ∀ id, child.workspaceCapabilityIds.contains id →
        parent.workspaceCapabilityIds.contains id := by
  simp [isWithin, isSubset_iff]

theorem isWithin_trans {a b c : GoalScopeV1} (hab : a.isWithin b)
    (hbc : b.isWithin c) : a.isWithin c := by
  rw [isWithin_iff] at *
  refine ⟨?_, fun id hid ↦ hbc.2 id (hab.2 id hid)⟩
  rcases hab.1 with hnone | hsame
  · exact .inl hnone
  · rw [hsame]
    exact hbc.1

def toValue (scope : GoalScopeV1) : Value :=
  json [("session_id", .ofOption .string scope.sessionId),
    ("workspace_capability_ids", .ofList .string scope.workspaceCapabilityIds.toList)]

def fromValue (value : Value) : Option GoalScopeV1 := do
  let members ← value.asObject
  let sessionId ← members.optionalField? asStr "session_id"
  let workspaceCapabilityIds ← members.field? (toList asStr) "workspace_capability_ids"
  (new sessionId (ofList workspaceCapabilityIds).toList).toOption

theorem readsBack : ReadsBack toValue fromValue := by
  intro scope
  have hsess := readsBack_ofOption readsBack_string (by simp) scope.sessionId
  have hids := readsBack_ofList readsBack_string scope.workspaceCapabilityIds.toList
  simp [toValue, fromValue, json, field?, optionalField?, hsess, hids,
    ofList_toList, new_eq, Except.toOption]

theorem plain_toValue {n : Nat} (scope : GoalScopeV1) : scope.toValue.Plain (n + 2) :=
  plain_json (n := n + 1) (by
    simp [plain_ofOption, plain_ofList])

end GoalScopeV1

/-! ## Bounds -/

/-- An optional bound that is no looser than the parent's. -/
def optionalBoundWithin : Option UInt64 → Option UInt64 → Bool
  | _, none => true
  | some child, some parent => decide (child ≤ parent)
  | none, some _ => false

theorem optionalBoundWithin_trans {a b c : Option UInt64} (hab : optionalBoundWithin a b)
    (hbc : optionalBoundWithin b c) : optionalBoundWithin a c := by
  cases c with
  | none => simp [optionalBoundWithin]
  | some c =>
    cases b with
    | none => simp [optionalBoundWithin] at hbc
    | some b =>
      cases a with
      | none => simp [optionalBoundWithin] at hab
      | some a =>
        simp only [optionalBoundWithin, decide_eq_true_eq] at *
        exact UInt64.le_trans hab hbc

/-- Explicit non-zero hard bounds for one Goal definition. -/
structure GoalBoundsV1 where
  maxAttempts : UInt32
  maxPlanRevisions : UInt32
  maxChildGoals : UInt32
  tokenBudget : Option UInt64
  durationBudgetMs : Option UInt64
  valid : maxAttempts ≠ 0 ∧ maxPlanRevisions ≠ 0 ∧ maxChildGoals ≠ 0 ∧ tokenBudget ≠ some 0 ∧
    durationBudgetMs ≠ some 0

namespace GoalBoundsV1

/-- Validates all mandatory and optional bounds as non-zero. -/
def new (maxAttempts maxPlanRevisions maxChildGoals : UInt32)
    (tokenBudget durationBudgetMs : Option UInt64) : Except GoalErrorCode GoalBoundsV1 :=
  if h : maxAttempts ≠ 0 ∧ maxPlanRevisions ≠ 0 ∧ maxChildGoals ≠ 0 ∧ tokenBudget ≠ some 0 ∧
      durationBudgetMs ≠ some 0 then
    .ok { maxAttempts, maxPlanRevisions, maxChildGoals, tokenBudget, durationBudgetMs, valid := h }
  else .error .goalInvalid

theorem new_eq (bounds : GoalBoundsV1) : new bounds.maxAttempts bounds.maxPlanRevisions
    bounds.maxChildGoals bounds.tokenBudget bounds.durationBudgetMs = .ok bounds := by
  rw [new, dif_pos bounds.valid]

/-- No bound is looser than the parent's. -/
def isWithin (child parent : GoalBoundsV1) : Bool :=
  decide (child.maxAttempts ≤ parent.maxAttempts) &&
    decide (child.maxPlanRevisions ≤ parent.maxPlanRevisions) &&
    decide (child.maxChildGoals ≤ parent.maxChildGoals) &&
    optionalBoundWithin child.tokenBudget parent.tokenBudget &&
    optionalBoundWithin child.durationBudgetMs parent.durationBudgetMs

theorem isWithin_trans {a b c : GoalBoundsV1} (hab : a.isWithin b)
    (hbc : b.isWithin c) : a.isWithin c := by
  simp only [isWithin, Bool.and_eq_true, decide_eq_true_eq] at *
  exact ⟨⟨⟨⟨UInt32.le_trans hab.1.1.1.1 hbc.1.1.1.1, UInt32.le_trans hab.1.1.1.2 hbc.1.1.1.2⟩,
    UInt32.le_trans hab.1.1.2 hbc.1.1.2⟩, optionalBoundWithin_trans hab.1.2 hbc.1.2⟩,
    optionalBoundWithin_trans hab.2 hbc.2⟩

def toValue (bounds : GoalBoundsV1) : Value :=
  json [("max_attempts", .ofU32 bounds.maxAttempts),
    ("max_plan_revisions", .ofU32 bounds.maxPlanRevisions),
    ("max_child_goals", .ofU32 bounds.maxChildGoals),
    ("token_budget", .ofOption .ofU64 bounds.tokenBudget),
    ("duration_budget_ms", .ofOption .ofU64 bounds.durationBudgetMs)]

def fromValue (value : Value) : Option GoalBoundsV1 := do
  let members ← value.asObject
  let maxAttempts ← members.field? toU32 "max_attempts"
  let maxPlanRevisions ← members.field? toU32 "max_plan_revisions"
  let maxChildGoals ← members.field? toU32 "max_child_goals"
  let tokenBudget ← members.optionalField? toU64 "token_budget"
  let durationBudgetMs ← members.optionalField? toU64 "duration_budget_ms"
  (new maxAttempts maxPlanRevisions maxChildGoals tokenBudget durationBudgetMs).toOption

theorem readsBack : ReadsBack toValue fromValue := by
  intro bounds
  have hbound := readsBack_ofU32
  have hbudget := readsBack_ofOption readsBack_ofU64 (by simp [ofU64])
  simp [toValue, fromValue, json, field?, optionalField?, hbound bounds.maxAttempts,
    hbound bounds.maxPlanRevisions, hbound bounds.maxChildGoals, hbudget bounds.tokenBudget,
    hbudget bounds.durationBudgetMs, new_eq, Except.toOption]

theorem plain_toValue {n : Nat} (bounds : GoalBoundsV1) : bounds.toValue.Plain (n + 1) :=
  plain_json (by simp [plain_ofOption])

end GoalBoundsV1

/-! ## Criteria -/

/-- Closed success criterion set; all declared criteria must be satisfied. -/
inductive GoalCriterion where
  /-- Explicit schema-bound user acceptance. -/
  | userAcceptance (criterionId : GoalCriterionId) (responseSchemaDigest : String)
  /-- Durable Artifact evidence. -/
  | artifact (criterionId : GoalCriterionId) (artifactKind : String)
      (requiredDigest : Option String)
  /-- One exact durable fact/subject binding. -/
  | durableFact (criterionId : GoalCriterionId) (factKind subjectDigest : String)
  /-- Completion of a non-empty exact child Goal set. -/
  | childGoals (criterionId : GoalCriterionId) (childGoalIds : SetOf GoalId)

namespace GoalCriterion

/-- The stable criterion identity. -/
def criterionId : GoalCriterion → GoalCriterionId
  | userAcceptance criterionId _ => criterionId
  | artifact criterionId _ _ => criterionId
  | durableFact criterionId _ _ => criterionId
  | childGoals criterionId _ => criterionId

def validate (criterion : GoalCriterion) : Bool :=
  criterion.criterionId != "" &&
    match criterion with
    | userAcceptance _ responseSchemaDigest => RuntimeFacts.isDigest responseSchemaDigest
    | artifact _ artifactKind requiredDigest =>
      validReference artifactKind && requiredDigest.all RuntimeFacts.isDigest
    | durableFact _ factKind subjectDigest =>
      validReference factKind && RuntimeFacts.isDigest subjectDigest
    | childGoals _ childGoalIds =>
      !childGoalIds.isEmpty && childGoalIds.toList.all fun id ↦ id != ""

def toValue : GoalCriterion → Value
  | userAcceptance criterionId responseSchemaDigest =>
    json [("kind", .string "user_acceptance"), ("criterion_id", .string criterionId),
      ("response_schema_digest", .string responseSchemaDigest)]
  | artifact criterionId artifactKind requiredDigest =>
    json [("kind", .string "artifact"), ("criterion_id", .string criterionId),
      ("artifact_kind", .string artifactKind),
      ("required_digest", .ofOption .string requiredDigest)]
  | durableFact criterionId factKind subjectDigest =>
    json [("kind", .string "durable_fact"), ("criterion_id", .string criterionId),
      ("fact_kind", .string factKind), ("subject_digest", .string subjectDigest)]
  | childGoals criterionId childGoalIds =>
    json [("kind", .string "child_goals"), ("criterion_id", .string criterionId),
      ("child_goal_ids", .ofList .string childGoalIds.toList)]

def fromValue (value : Value) : Option GoalCriterion := do
  let members ← value.asObject
  let kind ← members.field? asStr "kind"
  let criterionId ← members.field? asStr "criterion_id"
  if kind = "user_acceptance" then
    let responseSchemaDigest ← members.field? asStr "response_schema_digest"
    return userAcceptance criterionId responseSchemaDigest
  else if kind = "artifact" then
    let artifactKind ← members.field? asStr "artifact_kind"
    let requiredDigest ← members.optionalField? asStr "required_digest"
    return artifact criterionId artifactKind requiredDigest
  else if kind = "durable_fact" then
    let factKind ← members.field? asStr "fact_kind"
    let subjectDigest ← members.field? asStr "subject_digest"
    return durableFact criterionId factKind subjectDigest
  else if kind = "child_goals" then
    let childGoalIds ← members.field? (toList asStr) "child_goal_ids"
    return childGoals criterionId (ofList childGoalIds)
  else none

theorem readsBack : ReadsBack toValue fromValue := by
  intro criterion
  cases criterion with
  | userAcceptance criterionId responseSchemaDigest =>
    simp [toValue, fromValue, json, field?]
  | artifact criterionId artifactKind requiredDigest =>
    have hdig := readsBack_ofOption readsBack_string (by simp) requiredDigest
    simp [toValue, fromValue, json, field?, optionalField?, hdig]
  | durableFact criterionId factKind subjectDigest =>
    simp [toValue, fromValue, json, field?]
  | childGoals criterionId childGoalIds =>
    have hids := readsBack_ofList readsBack_string childGoalIds.toList
    simp [toValue, fromValue, json, field?, hids, ofList_toList]

theorem plain_toValue {n : Nat} (criterion : GoalCriterion) : criterion.toValue.Plain (n + 2) := by
  cases criterion <;> apply plain_json (n := n + 1) <;>
    simp [plain_ofOption, plain_ofList]

end GoalCriterion

/-! ## Definitions -/

/-- The content of one Goal revision. -/
structure GoalContent where
  goalId : GoalId
  objective : String
  criteria : List GoalCriterion
  scope : GoalScopeV1
  bounds : GoalBoundsV1
  parentGoalId : Option GoalId
  capabilityReferences : SetOf GoalCapabilityReference

/-- What a definition's constructor checks. -/
structure GoalContent.Admitted (content : GoalContent) : Prop where
  goalId_nonempty : content.goalId ≠ ""
  objective_nonempty : content.objective ≠ ""
  objective_le : content.objective.utf8ByteSize ≤ maxObjectiveBytes
  criteria_nonempty : content.criteria ≠ []
  criteria_le : content.criteria.length ≤ maxCollectionItems
  criteria_unique :
    (ofList (content.criteria.map (·.criterionId))).size = content.criteria.length
  criteria_valid : content.criteria.all (·.validate) = true
  capabilities_le : content.capabilityReferences.size ≤ maxCollectionItems
  capabilities_valid : content.capabilityReferences.toList.all
    (fun value ↦ value.name != "" && value.exactRevision != "") = true
  parent_nonempty : content.parentGoalId ≠ some ""
  parent_ne_self : content.parentGoalId ≠ some content.goalId

/-- Immutable canonical Goal definition revision content. -/
structure GoalDefinitionV1 extends GoalContent where
  admitted : toGoalContent.Admitted

namespace GoalDefinitionV1

/-- Validates required text, unique criteria and capabilities and self-parenting. -/
def new (goalId : GoalId) (objective : String) (criteria : List GoalCriterion)
    (scope : GoalScopeV1) (bounds : GoalBoundsV1) (parentGoalId : Option GoalId)
    (capabilityReferences : List GoalCapabilityReference) :
    Except GoalErrorCode GoalDefinitionV1 :=
  let capabilities := ofList capabilityReferences
  if h : goalId ≠ "" ∧ objective ≠ "" ∧ objective.utf8ByteSize ≤ maxObjectiveBytes ∧
      criteria ≠ [] ∧ criteria.length ≤ maxCollectionItems ∧
      (ofList (criteria.map (·.criterionId))).size = criteria.length ∧
      criteria.all (·.validate) = true ∧ capabilityReferences.length = capabilities.size ∧
      capabilityReferences.length ≤ maxCollectionItems ∧
      capabilityReferences.all (fun value ↦ value.name != "" && value.exactRevision != "") = true ∧
      parentGoalId ≠ some "" ∧ parentGoalId ≠ some goalId then
    .ok { goalId, objective, criteria, scope, bounds, parentGoalId
          capabilityReferences := capabilities
          admitted := {
            goalId_nonempty := h.1
            objective_nonempty := h.2.1
            objective_le := h.2.2.1
            criteria_nonempty := h.2.2.2.1
            criteria_le := h.2.2.2.2.1
            criteria_unique := h.2.2.2.2.2.1
            criteria_valid := h.2.2.2.2.2.2.1
            capabilities_le := h.2.2.2.2.2.2.2.1 ▸ h.2.2.2.2.2.2.2.2.1
            capabilities_valid := by
              have hvalid := h.2.2.2.2.2.2.2.2.2.1
              rw [List.all_eq_true] at hvalid ⊢
              intro value hvalue
              rw [Std.ExtTreeSet.mem_toList, ← Std.ExtTreeSet.contains_iff_mem] at hvalue
              exact hvalid value (by simpa [capabilities] using hvalue)
            parent_nonempty := h.2.2.2.2.2.2.2.2.2.2.1
            parent_ne_self := h.2.2.2.2.2.2.2.2.2.2.2 } }
  else .error .goalInvalid

/-- A definition passes its own constructor. -/
theorem new_eq (definition : GoalDefinitionV1) : new definition.goalId definition.objective
    definition.criteria definition.scope definition.bounds definition.parentGoalId
    definition.capabilityReferences.toList = .ok definition := by
  have h := definition.admitted
  have hlen : definition.capabilityReferences.toList.length =
      definition.capabilityReferences.size := Std.ExtTreeSet.length_toList
  rw [new, dif_pos]
  · simp only [ofList_toList]
  · refine ⟨h.goalId_nonempty, h.objective_nonempty, h.objective_le, h.criteria_nonempty,
      h.criteria_le, h.criteria_unique, h.criteria_valid, ?_, ?_, h.capabilities_valid,
      h.parent_nonempty, h.parent_ne_self⟩
    · rw [ofList_toList, hlen]
    · rw [hlen]
      exact h.capabilities_le

/-! ### Grants -/

/-- The child's grant lies within the parent's. -/
structure Within (child parent : GoalDefinitionV1) : Prop where
  scope : child.scope.isWithin parent.scope = true
  bounds : child.bounds.isWithin parent.bounds = true
  capabilities : isSubset child.capabilityReferences parent.capabilityReferences = true

theorem Within.trans {a b c : GoalDefinitionV1} (hab : a.Within b) (hbc : b.Within c) :
    a.Within c where
  scope := GoalScopeV1.isWithin_trans hab.scope hbc.scope
  bounds := GoalBoundsV1.isWithin_trans hab.bounds hbc.bounds
  capabilities := by
    have hfirst := isSubset_iff.mp hab.capabilities
    have hsecond := isSubset_iff.mp hbc.capabilities
    exact isSubset_iff.mpr fun k hk ↦ hsecond k (hfirst k hk)

/-- Proves that this child definition only narrows one exact parent grant. -/
def validateChildOf (child parent : GoalDefinitionV1) : Except GoalErrorCode Unit := do
  ensure (child.parentGoalId = some parent.goalId) .goalScopeExceeded
  ensure (child.scope.isWithin parent.scope = true) .goalScopeExceeded
  ensure (child.bounds.isWithin parent.bounds = true) .goalScopeExceeded
  ensure (isSubset child.capabilityReferences parent.capabilityReferences = true)
    .goalScopeExceeded

theorem validateChildOf_eq_ok_iff {child parent : GoalDefinitionV1} {u : Unit} :
    child.validateChildOf parent = .ok u ↔
      child.parentGoalId = some parent.goalId ∧ child.Within parent := by
  simp only [validateChildOf, ok_iff]
  refine and_congr_right fun _ ↦ ⟨fun h ↦ ⟨h.1, h.2.1, h.2.2⟩, fun h ↦ ?_⟩
  exact ⟨h.scope, h.bounds, h.capabilities⟩

/-! ### The stored document -/

/-- The fields of the definition document. -/
def toValue (definition : GoalDefinitionV1) : Value :=
  json [("contract", .string "garive.goal-definition"), ("version", .ofU32 1),
    ("goal_id", .string definition.goalId), ("objective", .string definition.objective),
    ("criteria", .ofList GoalCriterion.toValue definition.criteria),
    ("scope", definition.scope.toValue), ("bounds", definition.bounds.toValue),
    ("parent_goal_id", .ofOption .string definition.parentGoalId),
    ("capability_references",
      .ofList GoalCapabilityReference.toValue definition.capabilityReferences.toList)]

theorem plain_toValue (definition : GoalDefinitionV1) : definition.toValue.Plain 127 := by
  apply plain_json (n := 126)
  simp [plain_ofOption, plain_ofList, GoalCriterion.plain_toValue,
    GoalCapabilityReference.plain_toValue, GoalScopeV1.plain_toValue, GoalBoundsV1.plain_toValue]

/-- The exact canonical definition document stored by Runtime. -/
def canonicalJson (definition : GoalDefinitionV1) : Except GoalErrorCode String :=
  (encode definition.toValue).mapError fun _ ↦ .goalInvalid

/-- Lowercase SHA-256 over the canonical definition. -/
def digest (lib : Externals) (definition : GoalDefinitionV1) : Except GoalErrorCode String := do
  let text ← definition.canonicalJson
  return lib.sha256Hex text

/-- Reads and validates the fields of a definition document. -/
def fromValue (value : Value) : Option GoalDefinitionV1 := do
  let members ← value.asObject
  let contract ← members.field? asStr "contract"
  let version ← members.field? toU32 "version"
  if contract ≠ "garive.goal-definition" ∨ version ≠ 1 then none
  else
    let goalId ← members.field? asStr "goal_id"
    let objective ← members.field? asStr "objective"
    let criteria ← members.field? (toList GoalCriterion.fromValue) "criteria"
    let scope ← members.field? GoalScopeV1.fromValue "scope"
    let bounds ← members.field? GoalBoundsV1.fromValue "bounds"
    let parentGoalId ← members.optionalField? asStr "parent_goal_id"
    let capabilityReferences ← members.field? (toList GoalCapabilityReference.fromValue)
      "capability_references"
    (new goalId objective criteria scope bounds parentGoalId capabilityReferences).toOption

theorem readsBack : ReadsBack toValue fromValue := by
  intro definition
  have hcriteria := readsBack_ofList GoalCriterion.readsBack definition.criteria
  have hscope := GoalScopeV1.readsBack definition.scope
  have hbounds := GoalBoundsV1.readsBack definition.bounds
  have hpar := readsBack_ofOption readsBack_string (by simp) definition.parentGoalId
  have hcapabilities := readsBack_ofList GoalCapabilityReference.readsBack
    definition.capabilityReferences.toList
  have hver := readsBack_ofU32 1
  simp [toValue, fromValue, json, field?, optionalField?, hcriteria, hscope, hbounds,
    hpar, hcapabilities, hver, new_eq, Except.toOption]

/-- Reconstructs and revalidates one exact canonical definition document. -/
def fromCanonicalJson (lib : Externals) (text : String) : Except GoalErrorCode GoalDefinitionV1 := do
  let value ← okOr (lib.fromStr text) .goalInvalid
  let definition ← okOr (fromValue value) .goalInvalid
  let canonical ← definition.canonicalJson
  ensure (canonical = text) .goalInvalid
  return definition

theorem exists_canonicalJson (definition : GoalDefinitionV1) :
    ∃ text, definition.canonicalJson = .ok text := by
  obtain ⟨text, htext⟩ := exists_encode definition.plain_toValue.exact
  exact ⟨text, by rw [canonicalJson, htext]; rfl⟩

/-- A definition is read back from its own document. -/
theorem fromCanonicalJson_of_canonicalJson {lib : Externals} (hlib : lib.Documented)
    {definition : GoalDefinitionV1} {text : String} (h : definition.canonicalJson = .ok text) :
    fromCanonicalJson lib text = .ok definition := by
  have hplain := definition.plain_toValue
  have hencode : encode definition.toValue = .ok text := mapError_eq_ok_iff.mp h
  rw [fromCanonicalJson, hlib.fromStr_encode hplain.wellFormed hplain.depth_le hencode]
  simp [readsBack definition, h]

end GoalDefinitionV1

end Garive
