import Garive.Ledger.State
import Garive.Lib.Latest

/-!
# Recovery after a lost process

What the runtime decides about a turn when it starts up again. `deriveRuntimeRecovery` reads three
positions off the turn's facts: where the execution that started last stands, where its model
requests stand, and where its effects and interactions stand. `selectRuntimeRecovery` maps the
positions to an action.

A position is taken from the last fact of each request or invocation. At most one of them may be
unfinished; a second one, or a last fact of a kind the tables do not list, counts as corruption.
-/

namespace Garive

/-- Failures of runtime commands. -/
inductive RuntimeCommandError where
  /-- A constructed command violates input invariants. -/
  | invalidCommand
  /-- A command identity was committed with different semantics. -/
  | commandConflict
  /-- The expected session version is stale. -/
  | concurrentModification
  /-- The expected suspension or turn does not match durable state. -/
  | continuationMismatch
  /-- Durable facts do not describe a suspended turn. -/
  | turnNotResumable
  /-- Stored rows contain impossible referents or values. -/
  | corruptLedger
  /-- Inconsistent terminal evidence was supplied. -/
  | invariantViolation
  /-- Durable storage was unavailable. -/
  | durabilityFailure
deriving DecidableEq

/-! ## Positions and actions -/

/-- Where the execution stands. -/
inductive ExecutionRecoveryPosition where
  | active
  | suspended
  | terminal
deriving DecidableEq

/-- Where the execution's model requests stand. -/
inductive ModelRecoveryPosition where
  | none
  | prepared
  | started
  | uncertain
  | terminal
deriving DecidableEq

/-- Where the execution's effects and interactions stand. -/
inductive EffectRecoveryPosition where
  | none
  | prepared
  /-- A version-3 preparation without a safety decision. -/
  | f0SafetyPending
  /-- A safety decision that is not preflighted. -/
  | f0Decision
  /-- A version-3 grant without a sandbox binding. -/
  | f0Authorized
  /-- A sandbox binding without a preflight. -/
  | f0SandboxBound
  /-- A preflight without a dispatch. -/
  | f0Preflighted
  /-- Dispatched without a receipt. -/
  | started
  /-- A receipt without a result. -/
  | receipt
  | uncertain
  | reconciled
  /-- An interaction that awaits an answer. -/
  | interactionRequested
  | terminal
deriving DecidableEq

/-- The positions an action is selected from. -/
structure RuntimeRecoverySnapshot where
  execution : ExecutionRecoveryPosition
  model : ModelRecoveryPosition
  effect : EffectRecoveryPosition
  /-- The number of abandon and restart cycles so far. -/
  recoveryOrdinal : Nat
  /-- The number of cycles allowed. -/
  maxRecoveries : Nat
deriving DecidableEq

/-- What to do about a turn. -/
inductive RuntimeRecoveryAction where
  /-- Abandon the lost execution and start a fresh one. -/
  | abandonAndRestart
  /-- Ask the safety policy again. -/
  | reevaluateEffectSafety
  /-- Go on from a durable safety decision. -/
  | resumeEffectAdmission
  /-- Dispatch the preflighted invocation. -/
  | revalidateAndDispatchEffect
  /-- Append `model.uncertain`. -/
  | classifyModelUncertain
  /-- Append `effect.uncertain`. -/
  | classifyEffectUncertain
  /-- Turn a receipt into a result. -/
  | recoverReceiptTerminal
  /-- Leave the turn suspended. -/
  | awaitContinuation
  /-- Leave the turn ended. -/
  | returnCommittedTerminal
  /-- Stop at the recovery bound. -/
  | failRecoveryBound
  /-- The positions do not fit together. -/
  | failCorruptLedger
deriving DecidableEq

namespace RuntimeTurn

variable (lib : Externals)

/-! ## Deriving the positions -/

/-- The members of a durable fact's payload. -/
def payload (fact : DurableFact) : Except RuntimeCommandError Object :=
  okOr ((lib.fromStr fact.payload.json).bind Value.asObject) .corruptLedger

/-- The number of a payload field. -/
def unsigned (value : Object) (key : String) : Except RuntimeCommandError Nat :=
  okOr ((value.get? key).bind Value.asU64) .corruptLedger

/-- The text of a payload field. -/
def text (value : Object) (key : String) : Except RuntimeCommandError String :=
  okOr ((value.get? key).bind Value.asStr) .corruptLedger

/-- The fact is of a named kind. -/
def hasKind (kind : RuntimeKind) (fact : DurableFact) : Bool := fact.kind == .known kind

/-- The fact belongs to the execution. -/
def ofExecution (execution : ExecutionId) (fact : DurableFact) : Bool :=
  fact.executionId == some execution

/-- The execution that started last. -/
def latestExecution (facts : List DurableFact) : Except RuntimeCommandError ExecutionId :=
  okOr ((rfind? (hasKind .executionStarted) facts).bind (·.executionId)) .corruptLedger

/-- The kinds that open, suspend or end a turn. -/
def isTurnLifecycle : FactKind → Bool
  | .known .turnStarted | .known .turnSuspended | .known .turnCompleted | .known .turnStopped
  | .known .turnFailed => true
  | _ => false

/-- The position of an execution, from the last lifecycle facts of its turn and of its own. -/
def executionKindPosition : FactKind → FactKind →
    Except RuntimeCommandError ExecutionRecoveryPosition
  | .known .turnStarted, .known .executionStarted
  | .known .turnStarted, .known .executionIterationStarted
  | .known .turnStarted, .known .executionEffectBatchPlanned => .ok .active
  | .known .turnSuspended, .known .executionSuspended => .ok .suspended
  | .known turn, .known execution =>
    if turn ∈ [.turnCompleted, .turnStopped, .turnFailed]
        ∧ execution ∈ [.executionAbandoned, .executionCompleted, .executionSuspended,
          .executionStopped, .executionFailed] then .ok .terminal
    else .error .corruptLedger
  | _, _ => .error .corruptLedger

def executionPosition (facts : List DurableFact) (execution : ExecutionId) :
    Except RuntimeCommandError ExecutionRecoveryPosition := do
  let turn ← okOr (rfind? (fun fact ↦ isTurnLifecycle fact.kind) facts) .corruptLedger
  let latest ← okOr (rfind? (fun fact ↦
    ofExecution execution fact && fact.kind.ns? == some .execution) facts) .corruptLedger
  executionKindPosition turn.kind latest.kind

/-- The one unfinished position among the given ones, if there is only one. -/
def positions {T : Type} [DecidableEq T] (values : List (Except RuntimeCommandError T))
    (none terminal : T) : Except RuntimeCommandError T := do
  let values ← collect values
  if values = [] then .ok none
  else do
    ensure ((values.filter fun value ↦ value ≠ none ∧ value ≠ terminal).length ≤ 1) .corruptLedger
    return (values.find? fun value ↦ value ≠ none ∧ value ≠ terminal).getD terminal

/-- The position a model request's last fact stands for. -/
def modelKindPosition : FactKind → Except RuntimeCommandError ModelRecoveryPosition
  | .known .modelPrepared => .ok .prepared
  | .known .modelStarted => .ok .started
  | .known .modelUncertain => .ok .uncertain
  | .known .modelCompleted | .known .modelRejected | .known .modelInterrupted
  | .known .modelUnavailable => .ok .terminal
  | _ => .error .corruptLedger

/-- The model request a fact of the execution belongs to. -/
def requestOf (execution : ExecutionId) (fact : DurableFact) : Option ModelRequestId :=
  if ofExecution execution fact then fact.modelRequestId else none

def modelPosition (facts : List DurableFact) (execution : ExecutionId) :
    Except RuntimeCommandError ModelRecoveryPosition :=
  positions ((latestBy (requestOf execution) facts).toList.map fun entry ↦
    modelKindPosition entry.2.kind) .none .terminal

/-- The tool invocation that an effect, safety or sandbox fact of the execution belongs to. -/
def toolOf (execution : ExecutionId) (fact : DurableFact) : Option ToolInvocationId :=
  if ofExecution execution fact && (fact.kind.ns? == some .effect
      || hasKind .safetyDecided fact || hasKind .sandboxBound fact
      || hasKind .sandboxPreflighted fact) then fact.toolInvocationId
  else none

/-- The facts name the invocation in a fact of the given kind and version. -/
def hasStage (facts : List DurableFact) (tool : Option ToolInvocationId) (kind : RuntimeKind)
    (version : Option UInt32) : Bool :=
  tool.isSome && facts.any fun candidate ↦
    candidate.toolInvocationId == tool && hasKind kind candidate
      && version.all (· == candidate.schemaVersion)

/-- The invocation was prepared under version 3. -/
def isF0Tool (facts : List DurableFact) (fact : DurableFact) : Bool :=
  hasStage facts fact.toolInvocationId .effectPrepared (some 3)

/-- The position a tool invocation's last fact stands for. -/
def effectKindPosition (facts : List DurableFact) (fact : DurableFact) :
    Except RuntimeCommandError EffectRecoveryPosition :=
  match fact.kind with
  | .known .effectPrepared =>
    if fact.schemaVersion = 3 then .ok .f0SafetyPending else .ok .prepared
  | .known .safetyDecided => .ok .f0Decision
  | .known .effectAuthorized => if isF0Tool facts fact then .ok .f0Authorized else .ok .prepared
  | .known .sandboxBound => .ok .f0SandboxBound
  | .known .sandboxPreflighted => .ok .f0Preflighted
  | .known .effectStarted => .ok .started
  | .known .effectReceipt => .ok .receipt
  | .known .effectUncertain => .ok .uncertain
  | .known .effectReconciled => .ok .reconciled
  | .known .effectObservation =>
    if hasStage facts fact.toolInvocationId .effectReconciled none then .ok .reconciled
    else .ok .terminal
  | .known .effectCompleted | .known .effectFailed | .known .effectDenied => .ok .terminal
  | _ => .error .corruptLedger

/-- The kinds that open and close an interaction. -/
def isInteraction : FactKind → Bool
  | .known .interactionRequested | .known .interactionResolved | .known .interactionCancelled =>
    true
  | _ => false

/-- The interaction a fact of the execution opens or closes. -/
def interactionOf (execution : ExecutionId) (fact : DurableFact) :
    Except RuntimeCommandError (Option String) :=
  if ofExecution execution fact && isInteraction fact.kind then do
    let value ← payload lib fact
    let id ← text value "interaction_id"
    return some id
  else .ok none

/-- The interactions of the execution, with whether they still await an answer. -/
def interactions (execution : ExecutionId) (found : Map String Bool) :
    List DurableFact → Except RuntimeCommandError (Map String Bool)
  | [] => .ok found
  | fact :: rest => do
    let id ← interactionOf lib execution fact
    interactions execution (match id with
      | some id => found.insert id (hasKind .interactionRequested fact)
      | none => found) rest

def effectPosition (facts : List DurableFact) (execution : ExecutionId) :
    Except RuntimeCommandError EffectRecoveryPosition := do
  let found ← interactions lib execution ∅ facts
  let pending := found.toList.filter (·.2)
  ensure (pending.length ≤ 1) .corruptLedger
  if pending ≠ [] then .ok .interactionRequested
  else positions ((latestBy (toolOf execution) facts).toList.map fun entry ↦
    effectKindPosition facts entry.2) .none .terminal

/-- The number of positions that stand between dispatch and outcome. -/
def dispatchPending (model : ModelRecoveryPosition) (effect : EffectRecoveryPosition) : Nat :=
  (if model = .started then 1 else 0) + (if effect = .started ∨ effect = .receipt then 1 else 0)

/-- Derives the positions from the facts of one turn. -/
def deriveRuntimeRecovery (turn : TurnSnapshot) (maxRecoveries : Nat) :
    Except RuntimeCommandError RuntimeRecoverySnapshot := do
  ensure (¬(maxRecoveries = 0 ∨ turn.facts = [])) .corruptLedger
  let execution ← latestExecution turn.facts
  let executionPosition ← executionPosition turn.facts execution
  let model ← modelPosition turn.facts execution
  let effect ← effectPosition lib turn.facts execution
  ensure (dispatchPending model effect ≤ 1) .corruptLedger
  let started ← okOr (rfind? (fun fact ↦
    hasKind .executionStarted fact && ofExecution execution fact) turn.facts) .corruptLedger
  let value ← payload lib started
  let recoveryOrdinal ← unsigned value "recovery_ordinal"
  return { execution := executionPosition, model, effect, recoveryOrdinal, maxRecoveries }

/-! ## Selecting the action -/

/-- The action for an active execution within the recovery bound. -/
def selectActive : ModelRecoveryPosition → EffectRecoveryPosition → RuntimeRecoveryAction
  | .started, _ => .classifyModelUncertain
  | _, .started => .classifyEffectUncertain
  | _, .receipt => .recoverReceiptTerminal
  | _, .f0SafetyPending => .reevaluateEffectSafety
  | _, .f0Decision | _, .f0Authorized => .resumeEffectAdmission
  | _, .f0SandboxBound | _, .f0Preflighted => .revalidateAndDispatchEffect
  | .uncertain, _ => .failCorruptLedger
  | _, .none | _, .prepared | _, .terminal => .abandonAndRestart
  | _, _ => .failCorruptLedger

/-- Selects the action for the positions. -/
def selectRuntimeRecovery (snapshot : RuntimeRecoverySnapshot) : RuntimeRecoveryAction :=
  if snapshot.maxRecoveries = 0 then .failCorruptLedger
  else
    match snapshot.execution with
    | .terminal => .returnCommittedTerminal
    | .suspended =>
      if snapshot.model = .uncertain ∨ snapshot.effect = .interactionRequested
          ∨ snapshot.effect = .uncertain ∨ snapshot.effect = .reconciled then .awaitContinuation
      else .failCorruptLedger
    | .active =>
      if snapshot.maxRecoveries ≤ snapshot.recoveryOrdinal then .failRecoveryBound
      else selectActive snapshot.model snapshot.effect

end RuntimeTurn

end Garive
