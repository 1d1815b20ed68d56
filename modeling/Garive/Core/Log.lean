import Garive.Core.Kernel

/-!
# Reading the log of an execution

What the kernel does to its ports is read off the log of its calls: the requests the model was
invoked with, the tokens accounted for, the positions passed on, and which answers are failures.
`Allowed` is the condition on a log and a next call that the loop is checked against; every result
about the calls of an execution is a consequence of it.
-/

namespace Garive

/-! ## Reading calls -/

namespace KernelCall

/-- The request the model is invoked with. -/
def invokedRequest? : KernelCall → Option ModelRequest
  | invokeModel request => some request
  | _ => none

/-- The request checked before the model is invoked with it. -/
def preflightRequest? : KernelCall → Option ModelRequest
  | preflight request => some request
  | _ => none

/-- The durable position passed to a port. -/
def passedPosition? : KernelCall → Option Nat
  | readCandidates request _ => some request.throughPosition
  | advanceAfterModel position => some position
  | _ => none

/-- A call that asks something of the model or of the effect port. -/
def isWork : KernelCall → Bool
  | preflight _ => true
  | invokeModel _ => true
  | reject .. => true
  | invoke .. => true
  | _ => false

/-- The proposal of the outcome. -/
def proposes : KernelCall → Bool
  | emit { kind := .outcomeProposed, .. } => true
  | _ => false

end KernelCall

/-- A result that ends the execution. -/
def GovernedToolResult.ends : GovernedToolResult → Bool
  | observation => false
  | suspend _ => true
  | fail _ => true

def committedEnds : Except PortFailure CommittedGovernedResult → Bool
  | .error _ => true
  | .ok committed => committed.result.ends

/-- The answer is a failure of the port, or a governed result that suspends or fails. -/
def KernelCall.fails : (call : KernelCall) → call.Answer → Bool
  | .nowTick, .error _ => true
  | .emit _, .error _ => true
  | .readCandidates .., .error _ => true
  | .advanceAfterModel _, .error _ => true
  | .preflight _, .error _ => true
  | .modelReturned (.error _), _ => true
  | .reject .., answer => committedEnds answer
  | .invoke .., answer => committedEnds answer
  | _, _ => false

def kernelFails (event : KernelEvent) : Bool := KernelCall.fails event.call event.answer

/-- The tokens a count is accounted for. -/
def TokenCount.charged (policy : MissingUsagePolicy) (input : Bool) : TokenCount → Nat
  | known count => count
  | unknown =>
    match policy with
    | .stop => 0
    | .estimate inputTokens outputTokens => if input then inputTokens else outputTokens

def ModelUsage.charged (policy : MissingUsagePolicy) (usage : ModelUsage) : Nat :=
  usage.inputTokens.charged policy true + usage.outputTokens.charged policy false

def InvokeOutcome.charged (policy : MissingUsagePolicy) : InvokeOutcome → Nat
  | completed _ usage _ => usage.charged policy
  | interrupted _ _ usage => usage.charged policy
  | rejected .. => 0
  | unavailable .. => 0

/-- The tokens accounted for when an invocation returns. -/
def KernelCall.charged (policy : MissingUsagePolicy) : KernelCall → Nat
  | modelReturned (.ok outcome) => outcome.charged policy
  | _ => 0

/-! ## Reading logs -/

/-- The requests the model was invoked with, in order. -/
def invokedRequests (log : List KernelEvent) : List ModelRequest :=
  log.filterMap fun event ↦ KernelCall.invokedRequest? event.call

/-- The requests checked, in order. -/
def preflightRequests (log : List KernelEvent) : List ModelRequest :=
  log.filterMap fun event ↦ KernelCall.preflightRequest? event.call

/-- The positions passed to the ports, in order. -/
def passedPositions (log : List KernelEvent) : List Nat :=
  log.filterMap fun event ↦ KernelCall.passedPosition? event.call

/-- The tokens accounted for. -/
def accounted (policy : MissingUsagePolicy) (log : List KernelEvent) : Nat :=
  (log.map fun event ↦ KernelCall.charged policy event.call).sum

/-- The targets of the requests are walked through forward. -/
def MovesForward (targets : List String) (requests : List ModelRequest) : Prop :=
  ∃ indexes : List Nat, indexes.Pairwise (· ≤ ·) ∧
    List.Forall₂ (fun request index ↦ targets[index]? = some request.targetId) requests indexes

/-! ## The condition on calls -/

/-- The call may follow the log. A prepared call is invoked for the request the model was invoked
with last, and `admits` says which ones may be. -/
structure Allowed (request : AgentTurnRequest) (admits : ModelRequest → PreparedToolCall → Prop)
    (log : List KernelEvent) (call : KernelCall) : Prop where
  unproposed : ∀ event ∈ log, KernelCall.proposes event.call = false
  healthy : call.isWork = true → ∀ event ∈ log, kernelFails event = false
  invocation : ∀ invoked ∈ call.invokedRequest?,
    (invokedRequests log).length < request.limits.maxIterations - request.cursor.completedIterations ∧
    invoked.requestId ∉ (invokedRequests log).map (·.requestId) ∧
    (∀ limit ∈ request.limits.maxTotalTokens,
      accounted request.recoveryPolicy.missingUsage log ≤ limit) ∧
    MovesForward request.modelTargets (invokedRequests log ++ [invoked])
  checked : ∀ checked ∈ call.preflightRequest?,
    checked.requestId ∉ (preflightRequests log).map (·.requestId)
  rebuilds : ∀ contextRequest attempt, call = .readCandidates contextRequest attempt →
    attempt ≤ request.recoveryPolicy.maxContextRebuilds
  positions : ∀ position ∈ call.passedPosition?, ∀ passed ∈ passedPositions log, passed ≤ position
  effects : ∀ source prepared, call = .invoke source prepared → ∃ asked,
    (invokedRequests log).getLast? = some asked ∧ asked.requestId = source ∧ admits asked prepared

end Garive
