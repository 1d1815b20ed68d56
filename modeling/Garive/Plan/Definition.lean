import Garive.Ledger.RuntimeFacts.Values
import Garive.Lib.Forest
import Garive.Lib.Kahn

/-!
# Plan definitions

One immutable revision of a Plan: the Goal it is bound to, its steps in declaration order and its
hard bounds. Each type carries what its constructor checks, so that a value of the type is one that
the constructor returned.

Which criteria and capabilities a definition must respect depends on the Goal and is checked against
sets that the definition does not keep. The rest of the check concerns the definition alone and is
kept with it, as `PlanContent.Admitted`.
-/

namespace Garive

open RuntimeFacts List SetOf

abbrev PlanId := LedgerIdentity "Plan"
abbrev PlanStepId := LedgerIdentity "Plan step"

/-- Stable portable Plan failure classification. -/
inductive PlanErrorCode where
  | planInvalid
  | planCycle
  | planTransitionInvalid
  | stepNotReady
  | planBoundExceeded
deriving DecidableEq

/-! ## Capabilities, bounds and steps -/

/-- Exact capability revision required by one step. -/
structure PlanCapabilityReference where
  name : String
  exactRevision : String
  nonempty : name ≠ "" ∧ exactRevision ≠ ""

namespace PlanCapabilityReference

@[ext] theorem ext_fields {a b : PlanCapabilityReference} (hname : a.name = b.name)
    (hrev : a.exactRevision = b.exactRevision) : a = b := by
  cases a
  cases b
  cases hname
  cases hrev
  rfl

/-- References are ordered by name, then by revision. -/
instance : Ord PlanCapabilityReference where
  compare := compareLex (compareOn PlanCapabilityReference.name)
    (compareOn PlanCapabilityReference.exactRevision)

theorem compare_eq : (compare : PlanCapabilityReference → PlanCapabilityReference → Ordering) =
    compareLex (compareOn PlanCapabilityReference.name)
    (compareOn PlanCapabilityReference.exactRevision) := rfl

instance : Std.TransOrd PlanCapabilityReference :=
  inferInstanceAs (Std.TransCmp (compareLex (compareOn PlanCapabilityReference.name)
    (compareOn PlanCapabilityReference.exactRevision)))

instance : Std.LawfulEqOrd PlanCapabilityReference where
  eq_of_compare {a b} h := by
    rw [compare_eq, compareLex_eq_eq] at h
    exact ext_fields (Std.LawfulEqCmp.eq_of_compare h.1) (Std.LawfulEqCmp.eq_of_compare h.2)

/-- Validates one exact non-empty capability reference. -/
def new (name exactRevision : String) : Except PlanErrorCode PlanCapabilityReference :=
  if h : name ≠ "" ∧ exactRevision ≠ "" then .ok ⟨name, exactRevision, h⟩ else .error .planInvalid

end PlanCapabilityReference

/-- Explicit non-zero hard bounds for one Plan revision. -/
structure PlanBoundsV1 where
  maxSteps : UInt32
  maxParallelReady : UInt32
  maxTotalAttempts : UInt32
  tokenBudget : Option UInt64
  durationBudgetMs : Option UInt64
  valid : maxSteps ≠ 0 ∧ maxParallelReady ≠ 0 ∧ maxParallelReady ≤ maxSteps ∧
    maxTotalAttempts ≠ 0 ∧ tokenBudget ≠ some 0 ∧ durationBudgetMs ≠ some 0

/-- Validates mandatory and optional bounds as non-zero. -/
def PlanBoundsV1.new (maxSteps maxParallelReady maxTotalAttempts : UInt32)
    (tokenBudget durationBudgetMs : Option UInt64) : Except PlanErrorCode PlanBoundsV1 :=
  if h : maxSteps ≠ 0 ∧ maxParallelReady ≠ 0 ∧ maxParallelReady ≤ maxSteps ∧
      maxTotalAttempts ≠ 0 ∧ tokenBudget ≠ some 0 ∧ durationBudgetMs ≠ some 0 then
    .ok { maxSteps, maxParallelReady, maxTotalAttempts, tokenBudget, durationBudgetMs, valid := h }
  else .error .planInvalid

/-- The set of a list that repeats no element. -/
def unique {κ : Type} [Ord κ] [Std.TransOrd κ] (values : List κ) :
    Except PlanErrorCode (SetOf κ) := do
  ensure ((ofList values).size = values.length) .planInvalid
  return ofList values

/-- `unique`, for texts that must all pass a test. -/
def uniqueThat (valid : String → Bool) (values : List String) :
    Except PlanErrorCode (SetOf String) := do
  ensure (values.all valid = true) .planInvalid
  unique values

def uniqueNonEmpty : List String → Except PlanErrorCode (SetOf String) :=
  uniqueThat fun text ↦ text != ""

def uniqueDigests : List String → Except PlanErrorCode (SetOf String) :=
  uniqueThat isDigest

/-- One immutable executable node in declaration order. -/
structure PlanStepV1 where
  stepId : PlanStepId
  objective : String
  dependsOn : SetOf PlanStepId
  completionCriteria : SetOf String
  requiredCapabilities : SetOf PlanCapabilityReference
  inputBindings : SetOf String
  maxAttempts : UInt32
  objective_nonempty : objective ≠ ""
  criteria_nonempty : completionCriteria.isEmpty = false ∧
    ∀ text, completionCriteria.contains text = true → text ≠ ""
  bindings_digests : ∀ text, inputBindings.contains text = true → isDigest text = true
  maxAttempts_ne_zero : maxAttempts ≠ 0
  not_dependsOn_self : dependsOn.contains stepId = false

theorem uniqueThat_contains {valid : String → Bool} {values : List String} {found : SetOf String}
    (h : uniqueThat valid values = .ok found) {text : String} (hmem : found.contains text) :
    valid text := by
  simp only [uniqueThat, unique, ok_iff, all_eq_true] at h
  obtain ⟨hvalid, -, rfl⟩ := h
  exact hvalid text (by simpa using hmem)

/-- Validates one step and makes every list of bindings a set. -/
def PlanStepV1.new (stepId : PlanStepId) (objective : String) (dependsOn : List PlanStepId)
    (completionCriteria : List String) (requiredCapabilities : List PlanCapabilityReference)
    (inputBindings : List String) (maxAttempts : UInt32) : Except PlanErrorCode PlanStepV1 := do
  let dependsOn ← unique dependsOn
  match hcriteria : uniqueNonEmpty completionCriteria with
  | .error e => .error e
  | .ok completionCriteria =>
    let requiredCapabilities ← unique requiredCapabilities
    match hbindings : uniqueDigests inputBindings with
    | .error e => .error e
    | .ok inputBindings =>
      if h : objective ≠ "" ∧ completionCriteria.isEmpty = false ∧ maxAttempts ≠ 0 ∧
          dependsOn.contains stepId = false then
        .ok { stepId, objective, dependsOn, completionCriteria, requiredCapabilities,
              inputBindings, maxAttempts
              objective_nonempty := h.1
              criteria_nonempty := ⟨h.2.1, fun _ hmem ↦ by
                simpa using uniqueThat_contains hcriteria hmem⟩
              bindings_digests := fun _ hmem ↦ uniqueThat_contains hbindings hmem
              maxAttempts_ne_zero := h.2.2.1
              not_dependsOn_self := h.2.2.2 }
      else .error .planInvalid

/-! ## Topology -/

/-- What each step depends on. -/
def dependencyMap (steps : List PlanStepV1) : Map PlanStepId (SetOf PlanStepId) :=
  steps.foldl (fun m step ↦ m.insert step.stepId step.dependsOn) ∅

/-- The declared dependency graph has no cycle: every step is reached by completing, round after
round, the steps whose dependencies are completed. -/
def validateAcyclic (steps : List PlanStepV1) : Except PlanErrorCode Unit :=
  ensure ((Kahn.settle (steps.map (·.stepId)) (dependencyMap steps) ∅).isEmpty = true) .planCycle

variable {m : Map PlanStepId (SetOf PlanStepId)} {steps : List PlanStepV1} {id : PlanStepId}

/-- Whatever a map holds after steps were entered came from one of them or was there before. -/
theorem get?_foldl_dependencies {dependencies : SetOf PlanStepId}
    (h : (steps.foldl (fun m step ↦ m.insert step.stepId step.dependsOn) m)[id]? = some dependencies) :
    (∃ step ∈ steps, step.stepId = id ∧ step.dependsOn = dependencies) ∨
      m[id]? = some dependencies := by
  induction steps generalizing m with
  | nil => exact .inr h
  | cons step rest ih =>
    rcases ih h with ⟨found, hmem, hfound⟩ | hbef
    · exact .inl ⟨found, mem_cons_of_mem _ hmem, hfound⟩
    · exact (Map.of_get?_insert hbef).imp_left fun hstep ↦ ⟨step, mem_cons_self, hstep⟩

theorem get?_foldl_dependencies_of_not_mem (h : id ∉ steps.map (·.stepId)) :
    (steps.foldl (fun m step ↦ m.insert step.stepId step.dependsOn) m)[id]? = m[id]? := by
  induction steps generalizing m with
  | nil => rfl
  | cons step rest ih =>
    rw [map_cons, mem_cons, not_or] at h
    rw [foldl_cons, ih h.2, Map.get?_insert_of_ne fun heq ↦ h.1 heq.symm]

variable {step : PlanStepV1}

theorem get?_dependencyMap (hnodup : (steps.map (·.stepId)).Nodup) (hmem : step ∈ steps) :
    (dependencyMap steps)[step.stepId]? = some step.dependsOn := by
  have hstep : ∀ (m : Map PlanStepId (SetOf PlanStepId)),
      (steps.foldl (fun m step ↦ m.insert step.stepId step.dependsOn) m)[step.stepId]? =
        some step.dependsOn := by
    induction steps with
    | nil => simp at hmem
    | cons first rest ih =>
      intro m
      obtain ⟨hnot, hrest⟩ := nodup_cons.mp hnodup
      rcases mem_cons.mp hmem with rfl | hmem
      · rw [foldl_cons, get?_foldl_dependencies_of_not_mem hnot, Map.get?_insert_self]
      · exact ih hrest hmem _
  exact hstep ∅

/-- **The topology check.** Steps with different identities pass it exactly when they can be ranked
so that every step depends on declared steps of smaller rank. -/
theorem validateAcyclic_eq_ok_iff (hnodup : (steps.map (·.stepId)).Nodup) :
    validateAcyclic steps = .ok u ↔ ∃ rank : PlanStepId → Nat, ∀ step ∈ steps, ∀ id : PlanStepId,
      step.dependsOn.contains id → id ∈ steps.map (·.stepId) ∧ rank id < rank step.stepId := by
  have hsome : ∀ id : PlanStepId,
      ((dependencyMap steps)[id]?).isSome ↔ id ∈ steps.map (·.stepId) := by
    intro id
    constructor
    · intro h
      obtain ⟨dependencies, hget⟩ := Option.isSome_iff_exists.mp h
      obtain ⟨step, hmem, rfl, -⟩ | hempty := get?_foldl_dependencies hget
      · exact mem_map_of_mem hmem
      · simp at hempty
    · intro h
      obtain ⟨step, hmem, rfl⟩ := mem_map.mp h
      rw [get?_dependencyMap hnodup hmem]
      rfl
  rw [validateAcyclic, ensure_eq_ok_iff, Kahn.isEmpty_settle_iff fun id h ↦ (hsome id).mp h]
  refine exists_congr fun rank ↦ ⟨fun hranked step hmem id hid ↦ ?_, fun hranked id dependencies hget
    x hx ↦ ?_⟩
  · rcases hranked _ _ (get?_dependencyMap hnodup hmem) id hid with hempty | ⟨hwaits, hlt⟩
    · simp at hempty
    · exact ⟨(hsome id).mp hwaits, hlt⟩
  · obtain ⟨step, hmem, rfl, rfl⟩ | hempty := get?_foldl_dependencies hget
    · obtain ⟨hdecl, hlt⟩ := hranked step hmem x hx
      exact .inr ⟨(hsome x).mpr hdecl, hlt⟩
    · simp at hempty

/-- A step declares a dependency. -/
def DependsOn (steps : List PlanStepV1) (id dependency : PlanStepId) : Prop :=
  ∃ step ∈ steps, step.stepId = id ∧ step.dependsOn.contains dependency

/-- The topology check is exact: steps with different identities that depend on declared steps only
pass it exactly when no step depends on itself, directly or through others. -/
theorem validateAcyclic_eq_ok_iff_acyclic (hnodup : (steps.map (·.stepId)).Nodup)
    (hdecl : ∀ step ∈ steps, ∀ id : PlanStepId, step.dependsOn.contains id →
      id ∈ steps.map (·.stepId)) :
    validateAcyclic steps = .ok () ↔ Acyclic (DependsOn steps) := by
  have hnodes : ∀ id dependency, DependsOn steps id dependency →
      dependency ∈ (steps.map (·.stepId)).toFinset := by
    rintro id dependency ⟨step, hmem, -, hdepends⟩
    exact mem_toFinset.mpr (hdecl step hmem dependency hdepends)
  rw [validateAcyclic_eq_ok_iff hnodup, acyclic_iff_exists_rank hnodes]
  refine exists_congr fun rank ↦ ⟨?_, fun hrank step hmem id hid ↦ ?_⟩
  · rintro hrank _ dependency ⟨step, hmem, rfl, hdepends⟩
    exact (hrank step hmem dependency hdepends).2
  · exact ⟨hdecl step hmem id hid, hrank _ _ ⟨step, hmem, rfl, hid⟩⟩

/-- A step without dependencies. -/
def independentStep (stepId : PlanStepId) : PlanStepV1 where
  stepId
  objective := "Work"
  dependsOn := ∅
  completionCriteria := (∅ : SetOf String).insert "criterion"
  requiredCapabilities := ∅
  inputBindings := ∅
  maxAttempts := 1
  objective_nonempty := by simp
  criteria_nonempty := by
    refine ⟨by simp, fun text htext ↦ ?_⟩
    rw [SetOf.contains_insert, Bool.or_eq_true, decide_eq_true_eq] at htext
    rcases htext with rfl | htext
    · simp
    · simp at htext
  bindings_digests := by simp
  maxAttempts_ne_zero := by simp
  not_dependsOn_self := by simp

def firstStep : PlanStepId := ⟨"step-1", by simp⟩
def secondStep : PlanStepId := ⟨"step-2", by simp⟩

theorem firstStep_ne : firstStep ≠ secondStep := by simp [firstStep, secondStep]

/-- A step after another. -/
def dependentStep : PlanStepV1 :=
  { independentStep secondStep with
    dependsOn := (∅ : SetOf PlanStepId).insert firstStep
    not_dependsOn_self := by simp [independentStep, firstStep_ne] }

theorem validateAcyclic_eq_ok_iff_acyclic_dependentStep :
    validateAcyclic [independentStep firstStep, dependentStep] = .ok () ↔
      Acyclic (DependsOn [independentStep firstStep, dependentStep]) :=
  validateAcyclic_eq_ok_iff_acyclic (by simp [dependentStep, independentStep, firstStep_ne])
    (by simp [dependentStep, independentStep])

/-! ## Definitions -/

/-- The content of one Plan revision. -/
structure PlanContent where
  planId : PlanId
  planRevision : UInt64
  goalId : String
  goalRevision : UInt64
  goalDefinitionDigest : String
  agentSnapshotDigest : String
  toolCatalogueDigest : String
  safetyPolicyRevision : String
  steps : List PlanStepV1
  bounds : PlanBoundsV1

/-- What the check of a definition says of the definition alone. -/
structure PlanContent.Admitted (content : PlanContent) : Prop where
  planRevision_ne_zero : content.planRevision ≠ 0
  goalId_nonempty : content.goalId ≠ ""
  goalRevision_ne_zero : content.goalRevision ≠ 0
  digests : isDigest content.goalDefinitionDigest = true ∧
    isDigest content.agentSnapshotDigest = true ∧
    isDigest content.toolCatalogueDigest = true
  safetyPolicy_nonempty : content.safetyPolicyRevision ≠ ""
  steps_nonempty : content.steps ≠ []
  steps_le : content.steps.length ≤ content.bounds.maxSteps.toNat
  ids_nodup : (content.steps.map (·.stepId)).Nodup
  dependsOn_declared : ∀ step ∈ content.steps, ∀ id, step.dependsOn.contains id = true →
    id ∈ content.steps.map (·.stepId)
  acyclic : validateAcyclic content.steps = .ok ()

/-- Immutable canonical Plan revision content. -/
structure PlanDefinitionV1 extends PlanContent where
  admitted : toPlanContent.Admitted

namespace PlanContent

/-- Checks all frozen bindings, the coverage of the Goal's criteria and the topology. -/
def validate (content : PlanContent) (required satisfied : SetOf String)
    (availableCapabilities : SetOf PlanCapabilityReference) : Except PlanErrorCode Unit := do
  let ids := ofList (content.steps.map (·.stepId))
  let covered := ofList
    (content.steps.flatMap (·.completionCriteria.toList) ++ satisfied.toList)
  ensure (content.planRevision ≠ 0) .planInvalid
  ensure (content.goalId ≠ "") .planInvalid
  ensure (content.goalRevision ≠ 0) .planInvalid
  ensure (isDigest content.goalDefinitionDigest = true) .planInvalid
  ensure (isDigest content.agentSnapshotDigest = true) .planInvalid
  ensure (isDigest content.toolCatalogueDigest = true) .planInvalid
  ensure (content.safetyPolicyRevision ≠ "") .planInvalid
  ensure (content.steps ≠ []) .planInvalid
  ensure (content.steps.length ≤ content.bounds.maxSteps.toNat) .planInvalid
  ensure (ids.size = content.steps.length) .planInvalid
  ensure (∀ step ∈ content.steps, isSubset step.dependsOn ids = true) .planInvalid
  ensure (∀ step ∈ content.steps, isSubset step.completionCriteria required = true)
    .planInvalid
  ensure (∀ step ∈ content.steps,
    isSubset step.requiredCapabilities availableCapabilities = true) .planInvalid
  ensure (required.isEmpty = false) .planInvalid
  ensure (isSubset satisfied required = true) .planInvalid
  ensure (isSubset required covered = true) .planInvalid
  validateAcyclic content.steps

theorem admitted_of_validate {content : PlanContent} {required satisfied : SetOf String}
    {availableCapabilities : SetOf PlanCapabilityReference}
    (h : content.validate required satisfied availableCapabilities = .ok u) : content.Admitted := by
  simp only [validate, ok_iff] at h
  obtain ⟨hrev, hgoal, hgoalRev, hdig, hagent, htools, hsafety, hsteps, hle, hids,
    hdecl, -, -, -, -, -, hacyclic⟩ := h
  exact {
    planRevision_ne_zero := hrev
    goalId_nonempty := hgoal
    goalRevision_ne_zero := hgoalRev
    digests := ⟨hdig, hagent, htools⟩
    safetyPolicy_nonempty := hsafety
    steps_nonempty := hsteps
    steps_le := hle
    ids_nodup := size_ofList_eq_iff.mp (by rw [hids, length_map])
    dependsOn_declared := fun step hmem id hid ↦ by
      simpa using isSubset_iff.mp (hdecl step hmem) id hid
    acyclic := hacyclic }

end PlanContent

namespace PlanDefinitionV1

/-- Validates all frozen bindings, coverage, declared order and topology. -/
def new (content : PlanContent) (required satisfied : SetOf String)
    (availableCapabilities : SetOf PlanCapabilityReference) :
    Except PlanErrorCode PlanDefinitionV1 :=
  match h : content.validate required satisfied availableCapabilities with
  | .error e => .error e
  | .ok _ => .ok { content with admitted := PlanContent.admitted_of_validate h }

/-- The declared step with an identity. -/
def findStep (definition : PlanDefinitionV1) (stepId : PlanStepId) : Option PlanStepV1 :=
  definition.steps.find? fun step ↦ step.stepId == stepId

/-- The declared step identities. -/
def stepIds (definition : PlanDefinitionV1) : List PlanStepId := definition.steps.map (·.stepId)

theorem nodup_stepIds (definition : PlanDefinitionV1) : definition.stepIds.Nodup :=
  definition.admitted.ids_nodup

/-- A declared step is found under its identity, and only there. -/
theorem findStep_eq_some_iff {definition : PlanDefinitionV1} {stepId : PlanStepId} :
    definition.findStep stepId = some step ↔ step ∈ definition.steps ∧ step.stepId = stepId := by
  constructor
  · exact fun h ↦ ⟨mem_of_find?_eq_some h, by simpa using find?_some h⟩
  · rintro ⟨hmem, rfl⟩
    obtain ⟨found, hfound⟩ : ∃ found, definition.findStep step.stepId = some found := by
      rw [← Option.isSome_iff_exists, findStep, find?_isSome]
      exact ⟨step, hmem, by simp⟩
    have heq : found = step := inj_on_of_nodup_map definition.admitted.ids_nodup
      (mem_of_find?_eq_some hfound) hmem (by simpa using find?_some hfound)
    rw [hfound, heq]

end PlanDefinitionV1

end Garive
