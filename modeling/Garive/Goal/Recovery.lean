import Garive.Goal.Evidence
import Garive.Lib.Forest

/-!
# Goal recovery

The Goals of a session are reconstructed from its `goal.` facts: each fact is read as a command and
applied to the snapshot that the facts before it led to. The Goals so found must form a tree in which
every child's grant lies within its parent's, and every success must still be borne out by the
session.

`GoalGraph.validate_eq_ok_iff` and `reconstructGoalGraphFromFacts_eq_ok_iff` say what the two checks
accept.
-/

namespace Garive

open Relation Std.ExtTreeMap

/-- `u32` addition that fails on overflow. -/
def checkedAddU32 (a b : Nat) : Option Nat := if a + b < 2 ^ 32 then some (a + b) else none

/-! ## The parent graph -/

/-- Why a graph is refused. -/
inductive GoalGraphError where
  | missingParent
  | scopeExceeded
  | cycle
deriving DecidableEq

namespace GoalGraph

/-- The current definition of a Goal. -/
def definition? (graph : GoalGraph) (goalId : GoalId) : Option GoalDefinitionV1 :=
  graph[goalId]?.map (·.snapshot.definition)

/-- Follows the parents of a Goal until there is none, and fails on the way back to a Goal that was
visited. A walk that visits no Goal twice ends before the fuel does. -/
def followParents (graph : GoalGraph) (visited : List GoalId) (current : GoalId) :
    Nat → Except GoalGraphError Unit
  | 0 => .error .cycle
  | fuel + 1 => do
    ensure (current ∉ visited) .cycle
    match (graph.definition? current).bind (·.parentGoalId) with
    | none => .ok ()
    | some parent => followParents graph (current :: visited) parent fuel

/-- The definition narrows its parent's, if it names one. -/
def validateParent (graph : GoalGraph) (definition : GoalDefinitionV1) :
    Except GoalGraphError Unit :=
  match definition.parentGoalId with
  | none => .ok ()
  | some parentId => do
    let parent ← okOr graph[parentId]? .missingParent
    (definition.validateChildOf parent.snapshot.definition).mapError fun _ ↦ .scopeExceeded

def validate (graph : GoalGraph) : Except GoalGraphError Unit :=
  checkAll (fun entry ↦ do
    graph.validateParent entry.2.snapshot.definition
    graph.followParents [] entry.1 (graph.size + 1)) graph.toList

end GoalGraph

/-- A Goal is the parent of another. -/
def IsParent (definition? : GoalId → Option GoalDefinitionV1) (parent child : GoalId) : Prop :=
  ∃ definition, definition? child = some definition ∧ definition.parentGoalId = some parent

/-- Definitions that form a tree of narrowing grants. -/
structure GoalTree (definition? : GoalId → Option GoalDefinitionV1) : Prop where
  /-- Every child narrows a parent that exists. -/
  narrowed : ∀ goalId definition parentId, definition? goalId = some definition →
    definition.parentGoalId = some parentId →
      ∃ parent, definition? parentId = some parent ∧ definition.validateChildOf parent = .ok ()
  /-- Every chain of parents ends. -/
  grounded : ∀ goalId, (definition? goalId).isSome = true → Acc (IsParent definition?) goalId

namespace GoalGraph

variable {graph : GoalGraph}

/-- A walk that ends shows that the chain of parents does. -/
theorem acc_of_followParents {visited : List GoalId} {current : GoalId} {fuel : Nat}
    (h : graph.followParents visited current fuel = .ok ()) :
    Acc (IsParent graph.definition?) current := by
  induction fuel generalizing visited current with
  | zero => cases h
  | succ fuel ih =>
    simp only [followParents, ok_iff] at h
    obtain ⟨-, h⟩ := h
    refine ⟨_, ?_⟩
    rintro _ ⟨_, hdef, hpar⟩
    rw [hdef, Option.bind_some, hpar] at h
    exact ih h

/-- Goals of the graph that are all different are no more than the graph has. -/
theorem length_le_size {goals : List GoalId} (hnodup : goals.Nodup)
    (hgoals : ∀ goalId ∈ goals, (graph.definition? goalId).isSome) :
    goals.length ≤ graph.size := by
  rw [← length_keys]
  refine (List.subperm_of_subset hnodup fun goalId hmem ↦ ?_).length_le
  have hsome := hgoals goalId hmem
  rw [definition?, Option.isSome_map] at hsome
  rw [mem_keys, mem_iff_isSome_getElem?]
  exact hsome

/-- The walk up a chain of parents that ends does not run out of fuel. The Goals visited are below
the current one, so none of them is met again. -/
theorem followParents_of_acc {visited : List GoalId} {current : GoalId} {fuel : Nat}
    (h : Acc (IsParent graph.definition?) current) (hnodup : visited.Nodup)
    (hvisited : ∀ goalId ∈ visited, (graph.definition? goalId).isSome ∧
      TransGen (IsParent graph.definition?) current goalId)
    (hfuel : graph.size < visited.length + fuel) :
    graph.followParents visited current fuel = .ok () := by
  induction fuel generalizing visited current with
  | zero =>
    have := length_le_size hnodup fun goalId hmem ↦ (hvisited goalId hmem).1
    omega
  | succ fuel ih =>
    have hfresh : current ∉ visited := fun hmem ↦
      not_transGen_of_acc h (hvisited current hmem).2
    rw [followParents, ensure_of hfresh, ok_bind]
    cases hpar : (graph.definition? current).bind (·.parentGoalId) with
    | none => rfl
    | some parent =>
      obtain ⟨definition, hdef, hid⟩ := Option.bind_eq_some_iff.mp hpar
      have hedge : IsParent graph.definition? parent current := ⟨definition, hdef, hid⟩
      refine ih (h.inv hedge) (List.nodup_cons.mpr ⟨hfresh, hnodup⟩) ?_ (by
        rw [List.length_cons]
        omega)
      intro goalId hmem
      rcases List.mem_cons.mp hmem with rfl | hmem
      · exact ⟨by rw [hdef]; rfl, .single hedge⟩
      · exact ⟨(hvisited goalId hmem).1, .head hedge (hvisited goalId hmem).2⟩

/-- **The graph check** accepts exactly the trees of narrowing grants. -/
theorem validate_eq_ok_iff : graph.validate = .ok () ↔ GoalTree graph.definition? := by
  have hget : ∀ goalId definition, graph.definition? goalId = some definition ↔
      ∃ state, graph[goalId]? = some state ∧ state.snapshot.definition = definition :=
    fun goalId definition ↦ by rw [definition?, Option.map_eq_some_iff]
  have hmem : ∀ entry : GoalId × GoalRuntimeState, entry ∈ graph.toList ↔
      graph[entry.1]? = some entry.2 := fun entry ↦
    mem_toList_iff_getElem?_eq_some
  simp only [validate, checkAll_eq_ok_iff, ok_iff, hmem, Prod.forall]
  constructor
  · intro h
    constructor
    · intro goalId definition parentId hdef hpar
      obtain ⟨state, hstate, rfl⟩ := (hget _ _).mp hdef
      have hgoal := (h goalId state hstate).1
      simp only [validateParent, hpar, ok_iff]
        at hgoal
      obtain ⟨parent, hfound, hchild⟩ := hgoal
      exact ⟨_, (hget _ _).mpr ⟨parent, hfound, rfl⟩, hchild⟩
    · intro goalId hsome
      obtain ⟨definition, hdef⟩ := Option.isSome_iff_exists.mp hsome
      obtain ⟨state, hstate, -⟩ := (hget _ _).mp hdef
      exact acc_of_followParents (h goalId state hstate).2
  · intro htree goalId state hstate
    have hdef : graph.definition? goalId = some state.snapshot.definition :=
      (hget _ _).mpr ⟨state, hstate, rfl⟩
    refine ⟨?_, followParents_of_acc (htree.grounded goalId (by rw [hdef]; rfl))
      List.nodup_nil (by simp) (by simp)⟩
    cases hpar : state.snapshot.definition.parentGoalId with
    | none => simp [validateParent, hpar]
    | some parentId =>
      obtain ⟨parent, hfound, hchild⟩ := htree.narrowed _ _ _ hdef hpar
      obtain ⟨_, hparState, rfl⟩ := (hget _ _).mp hfound
      simp [validateParent, hpar, hparState, hchild, Except.mapError]

end GoalGraph

/-! ## Reading facts as commands -/

namespace GoalRecovery

variable (lib : Externals)

def text (value : Object) (key : String) : Except GoalRuntimeError String :=
  okOr ((value.get? key).bind Value.asStr) .recoveryCorrupt

def unsigned (value : Object) (key : String) : Except GoalRuntimeError Nat :=
  okOr ((value.get? key).bind Value.asU64) .recoveryCorrupt

/-- The text of an inline content binding. -/
def inline (value : Object) (key : String) : Except GoalRuntimeError String :=
  okOr ((((value.get? key).bind Value.asObject).bind fun binding ↦
    binding.get? "inline_utf8").bind Value.asStr) .recoveryCorrupt

def digestOf (definition : GoalDefinitionV1) : Except GoalRuntimeError String :=
  (definition.digest lib).mapError fun _ ↦ .recoveryCorrupt

/-- The definition a fact carries, bound to its digest. -/
def definition (value : Object) : Except GoalRuntimeError GoalDefinitionV1 := do
  let document ← inline value "definition"
  let definition ← (GoalDefinitionV1.fromCanonicalJson lib document).mapError
    fun _ ↦ .recoveryCorrupt
  let digest ← digestOf lib definition
  let bound ← text value "definition_digest"
  ensure (digest = bound) .recoveryCorrupt
  return definition

def evidence (value : Object) (key : String) : Except GoalRuntimeError (List GoalEvidenceV1) := do
  let document ← inline value key
  (GoalEvidenceV1.listFromCanonicalJson lib document).mapError fun _ ↦ .recoveryCorrupt

/-- The attempt that activation leads to. -/
def activatedAttempt (state : GoalState) (attemptNumber : Nat) : Except GoalRuntimeError Nat :=
  match state with
  | .draft => okOr (checkedAddU32 attemptNumber 1) .recoveryCorrupt
  | .suspended => .ok attemptNumber
  | _ => .error .recoveryCorrupt

/-- The transition that a fact after the first records, with the attempt it leads to. -/
def transition (current : GoalSnapshot) (attemptNumber : Nat) (kind : FactKind) (value : Object) :
    Except GoalRuntimeError (GoalTransition × Nat) :=
  match kind with
  | .known .goalRevised => do
    let previous ← unsigned value "previous_revision"
    ensure (previous = current.revision) .recoveryCorrupt
    let bound ← text value "previous_definition_digest"
    let digest ← digestOf lib current.definition
    ensure (bound = digest) .recoveryCorrupt
    let definition ← definition lib value
    return (.revise definition, attemptNumber)
  | .known .goalActivated => do
    let declared ← unsigned value "attempt_number"
    ensure (declared < 2 ^ 32) .recoveryCorrupt
    let expected ← activatedAttempt current.state attemptNumber
    ensure (declared = expected) .recoveryCorrupt
    return (.activate, declared)
  | .known .goalSuspended => do
    let reason ← text value "reason"
    return (.suspend reason, attemptNumber)
  | .known .goalSucceeded => do
    let evidence ← evidence lib value "evidence"
    return (.succeed evidence, attemptNumber)
  | .known .goalFailed => do
    if value.containsKey "evidence" then
      let _ ← evidence lib value "evidence"
    let code ← text value "code"
    return (.fail code, attemptNumber)
  | .known .goalCancelled => do
    let reason ← text value "reason"
    return (.cancel reason, attemptNumber)
  | _ => .error .recoveryCorrupt

/-- Applies a fact to the snapshot and the attempts of its Goal, if there are any. -/
def apply (entry : Option (GoalSnapshot × Nat)) (fact : DurableFact) :
    Except GoalRuntimeError (GoalSnapshot × Nat) := do
  let value ← GoalEvidence.payload lib fact
  if fact.kind = .known .goalCreated then
    ensure (entry.isNone = true) .recoveryCorrupt
    let revision ← unsigned value "revision"
    ensure (revision = 1) .recoveryCorrupt
    let definition ← definition lib value
    let goalId ← text value "goal_id"
    ensure (definition.goalId = goalId) .recoveryCorrupt
    return (.new definition, 0)
  else
    let (current, attemptNumber) ← okOr entry .recoveryCorrupt
    let nextRevision ← okOr (checkedAdd current.revision 1) .recoveryCorrupt
    let revision ← unsigned value "revision"
    ensure (revision = nextRevision) .recoveryCorrupt
    let (transition, attempt) ← transition lib current attemptNumber fact.kind value
    let next ← (current.apply current.revision transition).mapError fun _ ↦ .recoveryCorrupt
    return (next, attempt)

/-- The snapshot and the attempts of every Goal. -/
abbrev Entries := Map GoalId (GoalSnapshot × Nat)

/-- Reads one `goal.` fact. -/
def read (entries : Entries) (fact : DurableFact) : Except GoalRuntimeError Entries := do
  let value ← GoalEvidence.payload lib fact
  let goalId ← text value "goal_id"
  ensure (goalId ≠ "") .recoveryCorrupt
  let commandId ← text value "command_id"
  ensure (commandId = fact.factId.text) .recoveryCorrupt
  let entry ← apply lib entries[goalId]? fact
  return entries.insert goalId entry

/-- Whether a fact's kind starts with `goal.`. -/
def isGoalFact (fact : DurableFact) : Bool := fact.kind.ns? == some .goal

/-- Reads the `goal.` facts of a session in order. -/
def entries (facts : List DurableFact) : Except GoalRuntimeError Entries :=
  (facts.filter isGoalFact).foldlM (read lib) ∅

/-- The Goals at a watermark. -/
def graphAt (entries : Entries) (sessionVersion throughPosition : Nat) : GoalGraph :=
  entries.map fun _ entry ↦
    { snapshot := entry.1, attemptNumber := entry.2, sessionVersion, throughPosition }

/-- A Goal that succeeded is borne out by the session. -/
def verifySucceeded (graph : GoalGraph) (facts : List DurableFact) (sessionVersion : Nat)
    (goalId : GoalId) (state : GoalRuntimeState) : Except GoalRuntimeError Unit :=
  if state.snapshot.state = .succeeded then do
    let successPosition ← okOr (GoalEvidence.succeededPosition? lib facts goalId) .recoveryCorrupt
    (GoalEvidence.verifyGoalSuccessEvidence lib goalId state.snapshot.definition.criteria
      state.snapshot.terminalEvidence graph facts sessionVersion (some successPosition)).mapError
      fun _ ↦ .recoveryCorrupt
  else .ok ()

end GoalRecovery

open GoalRecovery in
/-- Reconstructs the Goals of a session from its facts. -/
def reconstructGoalGraphFromFacts (lib : Externals) (facts : List DurableFact)
    (sessionVersion throughPosition : Nat) : Except GoalRuntimeError GoalGraph := do
  let entries ← entries lib facts
  let graph := graphAt entries sessionVersion throughPosition
  graph.validate.mapError fun _ ↦ .recoveryCorrupt
  checkAll (fun entry ↦ verifySucceeded lib graph facts sessionVersion entry.1 entry.2) graph.toList
  return graph

/-- Reconstructs the Goals of a session from a verified fixed prefix. -/
def reconstructGoalGraph (lib : Externals) (ledger : LedgerState) (sessionId : SessionId) :
    Except GoalRuntimeError GoalGraph := do
  let watermark ← okOr (ledger.sessionWatermark sessionId) .notFound
  let facts ← (ledger.readFacts lib sessionId 0 watermark.maxPosition none).mapError
    fun _ ↦ .recoveryCorrupt
  reconstructGoalGraphFromFacts lib facts watermark.sessionVersion watermark.maxPosition

/-! ## What recovery accepts -/

namespace GoalRecovery

variable {lib : Externals} {facts : List DurableFact}

@[simp] theorem get?_graphAt (entries : Entries) (sessionVersion throughPosition : Nat)
    (goalId : GoalId) : (graphAt entries sessionVersion throughPosition)[goalId]? =
      entries[goalId]?.map fun entry ↦
        { snapshot := entry.1, attemptNumber := entry.2, sessionVersion, throughPosition } := by
  rw [graphAt, getElem?_map]

/-- The current definitions. -/
def definitionIn (entries : Entries) (goalId : GoalId) : Option GoalDefinitionV1 :=
  entries[goalId]?.map (·.1.definition)

theorem definition?_graphAt (entries : Entries) (sessionVersion throughPosition : Nat) :
    (graphAt entries sessionVersion throughPosition).definition? = definitionIn entries := by
  funext goalId
  rw [GoalGraph.definition?, get?_graphAt, definitionIn, Option.map_map]
  rfl

/-- Every success among the entries is borne out by the session. -/
def Proven (lib : Externals) (entries : Entries) (facts : List DurableFact)
    (sessionVersion throughPosition : Nat) : Prop :=
  ∀ (goalId : GoalId) (entry : GoalSnapshot × Nat), entries[goalId]? = some entry →
    entry.1.state = .succeeded → ∃ position,
      GoalEvidence.succeededPosition? lib facts goalId = some position ∧
      GoalEvidence.verifyGoalSuccessEvidence lib goalId entry.1.definition.criteria
        entry.1.terminalEvidence (graphAt entries sessionVersion throughPosition) facts
        sessionVersion (some position) = .ok ()

end GoalRecovery

open GoalRecovery in
/-- **What recovery accepts.** -/
theorem reconstructGoalGraphFromFacts_eq_ok_iff {lib : Externals} {facts : List DurableFact}
    {sessionVersion throughPosition : Nat} {graph : GoalGraph} :
    reconstructGoalGraphFromFacts lib facts sessionVersion throughPosition = .ok graph ↔
      ∃ found, entries lib facts = .ok found ∧
        graph = graphAt found sessionVersion throughPosition ∧ GoalTree (definitionIn found) ∧
        Proven lib found facts sessionVersion throughPosition := by
  simp only [reconstructGoalGraphFromFacts, ok_iff, checkAll_eq_ok_iff,
    GoalGraph.validate_eq_ok_iff, definition?_graphAt]
  refine exists_congr fun found ↦ and_congr_right fun _ ↦ ?_
  have hproven : (∀ entry ∈ (graphAt found sessionVersion throughPosition).toList,
      verifySucceeded lib (graphAt found sessionVersion throughPosition) facts sessionVersion
        entry.1 entry.2 = .ok ()) ↔ Proven lib found facts sessionVersion throughPosition := by
    simp only [Prod.forall, mem_toList_iff_getElem?_eq_some, get?_graphAt,
      Option.map_eq_some_iff]
    constructor
    · intro h goalId entry hentry hstate
      have hverified := h goalId _ ⟨entry, hentry, rfl⟩
      simpa only [verifySucceeded, hstate, if_true, ok_iff] using hverified
    · rintro h goalId _ ⟨entry, hentry, rfl⟩
      by_cases hstate : entry.1.state = .succeeded
      · simpa only [verifySucceeded, hstate, if_true, ok_iff] using h goalId entry hentry hstate
      · simp [verifySucceeded, hstate]
  rw [hproven]
  constructor
  · rintro ⟨htree, hproofs, rfl⟩
    exact ⟨rfl, htree, hproofs⟩
  · rintro ⟨rfl, htree, hproofs⟩
    exact ⟨htree, hproofs, rfl⟩

end Garive
