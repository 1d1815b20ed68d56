import Garive.Tools.Prepared

/-!
# Planning effect batches

The planner arranges the prepared calls of one response into steps: calls that only read and do not
conflict form bounded groups, every other call is a step of its own. Whatever it groups, the steps
go through the calls once and in the order of the model (`enumerates_of_plan`).
-/

namespace Garive

inductive EffectBatchErrorCode where
  | effectAccessInvalid
  | effectBatchBoundExceeded

/-- Non-zero planner and group bounds. -/
structure EffectBatchLimitsV1 where
  maxIntents : Nat
  maxAccessesPerIntent : Nat
  maxTotalAccesses : Nat
  maxParallelReads : Nat
  maxBufferedResultBytes : Nat
  positive : maxIntents ≠ 0 ∧ maxAccessesPerIntent ≠ 0 ∧ maxTotalAccesses ≠ 0 ∧ maxParallelReads ≠ 0 ∧
    maxBufferedResultBytes ≠ 0

/-- One ordered execution step. -/
inductive EffectBatchStep where
  | sequentialStep (intentIndex : Nat)
  | parallelReadGroup (intentIndexes : List Nat)

namespace EffectBatchStep

/-- The calls a step runs. -/
def indexes : EffectBatchStep → List Nat
  | sequentialStep intentIndex => [intentIndex]
  | parallelReadGroup intentIndexes => intentIndexes

def toJson : EffectBatchStep → Value
  | sequentialStep intentIndex =>
    json [("kind", .string "sequential_step"), ("intent_index", .number (.posInt intentIndex))]
  | parallelReadGroup intentIndexes =>
    json [("kind", .string "parallel_read_group"),
      ("intent_indexes", .array (intentIndexes.map fun index ↦ .number (.posInt index)))]

end EffectBatchStep

/-- A prepared call and whether it may suspend before dispatch. -/
structure EffectBatchIntent where
  prepared : PreparedToolCall
  suspensionBoundary : Bool

/-- Conflict graph and ordered execution plan. -/
structure EffectBatchPlanV1 where
  orderedPreparedDigests : List String
  conflictGraphBytes : List Nat
  conflictGraphDigest : String
  steps : List EffectBatchStep
  planDigest : String

def accessesConflict (left right : ResourceAccess) : Bool :=
  left.accessNamespace = right.accessNamespace ∧
    (left.mode = .exclusive ∨ right.mode = .exclusive ∨
      (left.resourceKey = right.resourceKey ∧ (left.mode = .write ∨ right.mode = .write)))

def EffectBatchIntent.accesses (intent : EffectBatchIntent) : List ResourceAccess :=
  intent.prepared.invocationAccesses.getD []

def intentsConflict (left right : EffectBatchIntent) : Bool :=
  left.accesses.any fun a ↦ right.accesses.any fun b ↦ accessesConflict a b

/-- The upper triangle of the graph, in ascending order of index pairs. -/
def conflictGraph : List EffectBatchIntent → List Nat
  | [] => []
  | left :: rest =>
    rest.map (fun right ↦ if intentsConflict left right then 1 else 0) ++ conflictGraph rest

def graphEdge (graph : List Nat) (count left right : Nat) : Bool :=
  graph[left * (2 * count - left - 1) / 2 + (right - left - 1)]? = some 1

/-- The digest of a byte string whose bytes are ASCII. -/
def sha256Bytes (lib : Externals) (bytes : List Nat) : String :=
  lib.sha256Hex (String.ofList (bytes.map Char.ofNat))

/-- What the planner carries along the intents. -/
structure Planning where
  steps : List EffectBatchStep
  group : List Nat
  groupAccesses : Nat
  groupBytes : Nat

/-- The open group becomes a step. -/
def flushGroup (steps : List EffectBatchStep) (group : List Nat) : List EffectBatchStep :=
  if group.isEmpty then steps else steps ++ [.parallelReadGroup group]

/-- Checks the accesses of an intent and adds their number. -/
def countAccesses (limits : EffectBatchLimitsV1) (total : Nat) (intent : EffectBatchIntent) :
    Except EffectBatchErrorCode Nat := do
  let accesses ← okOr intent.prepared.invocationAccesses .effectAccessInvalid
  ensure (intent.prepared.contractVersion = 2 ∧ accesses ≠ []) .effectAccessInvalid
  ensure (accesses.length ≤ limits.maxAccessesPerIntent) .effectBatchBoundExceeded
  okOr (checkedAdd total accesses.length) .effectBatchBoundExceeded

/-- Places one intent: into the open group, into a new one, or alone. -/
def placeIntent (limits : EffectBatchLimitsV1) (graph : List Nat) (count : Nat) (planning : Planning)
    (entry : EffectBatchIntent × Nat) : Except EffectBatchErrorCode Planning := do
  let (intent, index) := entry
  let accesses ← okOr intent.prepared.invocationAccesses .effectAccessInvalid
  let resultBytes ← okOr intent.prepared.maxResultBytes .effectAccessInvalid
  let conflicts := planning.group.any fun member ↦ graphEdge graph count member index
  let nextAccesses := planning.groupAccesses + accesses.length
  let nextBytes ← okOr (checkedAdd planning.groupBytes resultBytes) .effectBatchBoundExceeded
  let reads := decide (intent.prepared.replayClass = .readOnly) && !intent.suspensionBoundary
  if reads && !conflicts && decide (planning.group.length < limits.maxParallelReads) &&
      decide (nextAccesses ≤ limits.maxTotalAccesses) &&
      decide (nextBytes ≤ limits.maxBufferedResultBytes) then
    return { planning with
      group := planning.group ++ [index]
      groupAccesses := nextAccesses
      groupBytes := nextBytes }
  else if reads then do
    ensure (resultBytes ≤ limits.maxBufferedResultBytes) .effectBatchBoundExceeded
    return {
      steps := flushGroup planning.steps planning.group
      group := [index]
      groupAccesses := accesses.length
      groupBytes := resultBytes }
  else
    return {
      steps := flushGroup planning.steps planning.group ++ [.sequentialStep index]
      group := []
      groupAccesses := 0
      groupBytes := 0 }

/-- Plans prepared calls with explicit suspension boundaries. -/
def planEffectBatchIntents (lib : Preparing) (intents : List EffectBatchIntent)
    (limits : EffectBatchLimitsV1) : Except EffectBatchErrorCode EffectBatchPlanV1 := do
  ensure (intents ≠ [] ∧ intents.length ≤ limits.maxIntents) .effectBatchBoundExceeded
  let totalAccesses ← intents.foldlM (countAccesses limits) 0
  ensure (totalAccesses ≤ limits.maxTotalAccesses) .effectBatchBoundExceeded
  let graph := conflictGraph intents
  let planning ← intents.zipIdx.foldlM (placeIntent limits graph intents.length)
    { steps := [], group := [], groupAccesses := 0, groupBytes := 0 }
  let steps := flushGroup planning.steps planning.group
  let digests := intents.map (·.prepared.inputDigest)
  let graphDigest := sha256Bytes lib.toExternals graph
  let canonical ← okOr (lib.jcs (json [("schema_version", .number (.posInt 1)),
    ("prepared_contract_version", .number (.posInt 2)),
    ("ordered_prepared_digests", .array (digests.map .string)),
    ("conflict_graph_digest", .string graphDigest),
    ("steps", .array (steps.map EffectBatchStep.toJson))])) .effectAccessInvalid
  return {
    orderedPreparedDigests := digests
    conflictGraphBytes := graph
    conflictGraphDigest := graphDigest
    steps
    planDigest := lib.sha256Hex canonical }

/-- Plans prepared calls without suspension boundaries. -/
def planEffectBatch (lib : Preparing) (prepared : List PreparedToolCall) (limits : EffectBatchLimitsV1) :
    Except EffectBatchErrorCode EffectBatchPlanV1 :=
  planEffectBatchIntents lib (prepared.map fun call ↦ ⟨call, false⟩) limits

/-! ## Plans go through the calls once -/

/-- The calls of the steps so far and of the open group. -/
def Planning.placed (planning : Planning) : List Nat :=
  planning.steps.flatMap EffectBatchStep.indexes ++ planning.group

theorem flatMap_flushGroup (steps : List EffectBatchStep) (group : List Nat) :
    (flushGroup steps group).flatMap EffectBatchStep.indexes =
      steps.flatMap EffectBatchStep.indexes ++ group := by
  unfold flushGroup
  split
  · rename_i hempty
    simp [List.isEmpty_iff.mp hempty]
  · simp [EffectBatchStep.indexes]

/-- Placing an intent appends it to the calls placed. -/
theorem placed_placeIntent {limits : EffectBatchLimitsV1} {graph : List Nat} {count index : Nat}
    {planning next : Planning} {intent : EffectBatchIntent}
    (h : placeIntent limits graph count planning (intent, index) = .ok next) :
    next.placed = planning.placed ++ [index] := by
  simp only [placeIntent, ok_iff] at h
  obtain ⟨_, -, _, -, _, -, h⟩ := h
  split at h
  · cases h
    simp [Planning.placed]
  · split at h
    · simp only [ok_iff] at h
      obtain ⟨-, rfl⟩ := h
      simp [Planning.placed, flatMap_flushGroup]
    · cases h
      simp [Planning.placed, flatMap_flushGroup, EffectBatchStep.indexes]

/-- The steps of a plan go through the calls once, in the order of the model. -/
theorem enumerates_of_plan {lib : Preparing} {intents : List EffectBatchIntent}
    {limits : EffectBatchLimitsV1} {plan : EffectBatchPlanV1}
    (h : planEffectBatchIntents lib intents limits = .ok plan) :
    plan.steps.flatMap EffectBatchStep.indexes = List.range plan.orderedPreparedDigests.length := by
  simp only [planEffectBatchIntents, ok_iff] at h
  obtain ⟨-, -, -, -, planning, hplanning, -, -, rfl⟩ := h
  have hplaced := foldlM_induction (P := fun (done : List (EffectBatchIntent × Nat)) planning ↦
    Planning.placed planning = done.map Prod.snd) rfl (fun done entry planning next hdone hnext ↦ by
      rw [placed_placeIntent hnext, hdone, List.map_append, List.map_singleton]) hplanning
  rw [flatMap_flushGroup]
  rw [Planning.placed, List.zipIdx_map_snd] at hplaced
  rw [hplaced, List.length_map, List.range_eq_range']

end Garive
