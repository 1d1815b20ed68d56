import Garive.Ledger.Types

/-!
# Model requests and outcomes

The provider-neutral values that pass between the kernel and a model port: the request with its
input items and tool descriptors, the outcome of an invocation, and the events streamed while it
runs.
-/

namespace Garive

/-! ## Usage -/

/-- A token count that never encodes missing evidence as zero. -/
inductive TokenCount where
  | known (count : Nat)
  | unknown

inductive UsageSource where
  | providerReported
  | estimated

/-- Token evidence of one invocation. -/
structure ModelUsage where
  inputTokens : TokenCount
  outputTokens : TokenCount
  cacheReadTokens : Option TokenCount
  cacheWriteTokens : Option TokenCount
  source : UsageSource

/-! ## Items -/

inductive ReasoningContent where
  | modelVisible (text : String)
  | opaqueReference (reference : String)

inductive MediaKind where
  | image
  | audio
  | video
  | file
  | other (name : String)

/-- An item of a model's response. -/
inductive ModelItem where
  | text (text : String)
  | refusal (text : String)
  | reasoning (content : ReasoningContent)
  | toolIntent (modelCallId toolName argumentsJson : String)
  | toolObservation (modelCallId resultJson : String)
  | mediaReference (mediaKind : MediaKind) (reference : String)

namespace ModelItem

def isToolIntent : ModelItem → Bool
  | toolIntent .. => true
  | _ => false

def isToolObservation : ModelItem → Bool
  | toolObservation .. => true
  | _ => false

end ModelItem

/-! ## Requests -/

inductive ModelCapability where
  | text
  | vision
  | reasoning
  | tools
  | jsonOutput
  | streaming
deriving DecidableEq

inductive ModelRole where
  | system
  | developer
  | user
  | assistant

inductive ModelInputContent where
  | text (text : String)
  | mediaReference (mediaKind : MediaKind) (reference mediaType : String)

/-- An ordered input item of a model request. -/
inductive ModelInputItem where
  | message (role : ModelRole) (content : List ModelInputContent)
  | toolIntent (modelCallId toolName argumentsJson : String)
  | toolObservation (modelCallId resultJson : String)
  | reasoningReference (reference : String)

/-- A tool definition as it is exposed to a model. -/
structure ToolDescriptor where
  name : String
  description : String
  definitionRevision : String
  inputSchemaJson : String
  strict : Bool

inductive TextMode where
  | plain
  | jsonObject
  | jsonSchema (schemaJson : String)

structure ModelOutputSettings where
  maxOutputTokens : Option Nat
  textMode : TextMode
  reasoningVisibility : Bool

structure ModelRequest where
  requestId : String
  targetId : String
  requiredCapabilities : List ModelCapability
  inputItems : List ModelInputItem
  tools : List ToolDescriptor
  output : ModelOutputSettings
  traceMetadata : List (String × String)

inductive RequestValidationError where
  | emptyIdentity
  | duplicateCapability
  | invalidTool
  | duplicateTool
  | zeroOutputLimit
  | invalidMetadata
  | duplicateMetadata

namespace ModelRequest

/-- Checks the descriptors in order, against the names of those before. -/
def validateTools : List String → List ToolDescriptor → Except RequestValidationError Unit
  | _, [] => .ok ()
  | seen, tool :: rest => do
    ensure (¬(tool.name = "" ∨ tool.definitionRevision = "" ∨ tool.inputSchemaJson = "")) .invalidTool
    ensure (tool.name ∉ seen) .duplicateTool
    validateTools (tool.name :: seen) rest

/-- Checks the metadata in order, against the keys of those before. -/
def validateMetadata : List String → List (String × String) → Except RequestValidationError Unit
  | _, [] => .ok ()
  | seen, (key, value) :: rest => do
    ensure (¬(key = "" ∨ key.utf8ByteSize > 64 ∨ value.utf8ByteSize > 512)) .invalidMetadata
    ensure (key ∉ seen) .duplicateMetadata
    validateMetadata (key :: seen) rest

/-- Validates identities, duplicates, tool definitions, limits, and metadata. -/
def validate (request : ModelRequest) : Except RequestValidationError Unit := do
  ensure (¬(request.requestId = "" ∨ request.targetId = "")) .emptyIdentity
  ensure request.requiredCapabilities.Nodup .duplicateCapability
  validateTools [] request.tools
  ensure (request.output.maxOutputTokens ≠ some 0) .zeroOutputLimit
  validateMetadata [] request.traceMetadata

end ModelRequest

/-! ## Invocations -/

inductive ModelStopReason where
  | endTurn
  | toolUse
  | stopSequence
  | pauseTurn
  | refusal
  | other (name : String)

inductive RejectionKind where
  | contextOverflow
  | authentication
  | contentPolicy

inductive InterruptionKind where
  | cancelled
  | outputLimit
  | transport

inductive UnavailableKind where
  | rateLimited
  | modelUnavailable
  | circuitOpen

/-- The one normalized answer of a model port. The advised retry delay is in nanoseconds. -/
inductive InvokeOutcome where
  | completed (items : List ModelItem) (usage : ModelUsage) (stopReason : ModelStopReason)
  | rejected (kind : RejectionKind) (sanitizedEvidence : String)
  | interrupted (kind : InterruptionKind) (partialItems : List ModelItem) (usage : ModelUsage)
  | unavailable (kind : UnavailableKind) (retryAfter : Option Nat)

/-- A failure of the port contract rather than an outcome. -/
inductive ModelPortFailure where
  | invalidRequest
  | unsupportedCapability
  | adapterInvariant
  | requiredPortFailure

inductive ModelOutputKind where
  | text
  | refusal
  | reasoning
  | toolIntent (modelCallId : String)
  | toolObservation
  | mediaReference

/-- A progress event of one invocation. -/
inductive ModelStreamEvent where
  | outputItemStarted (outputIndex : Nat) (kind : ModelOutputKind)
  | textDelta (outputIndex : Nat) (delta : String)
  | refusalDelta (outputIndex : Nat) (delta : String)
  | reasoningDelta (outputIndex : Nat) (delta : String)
  | toolArgumentsDelta (outputIndex : Nat) (modelCallId delta : String)
  | outputItemCompleted (outputIndex : Nat) (item : ModelItem)
  | usageUpdated (usage : ModelUsage)

/-- What an observer tells the adapter after an event. -/
inductive ObserverDecision where
  | proceed
  | cancel

/-- What a model port does once it is invoked: it returns, or it shows its observer an event and goes
on as it likes after the observer's decision. -/
inductive ModelRun where
  | returned (result : Except ModelPortFailure InvokeOutcome)
  | observed (event : ModelStreamEvent) (next : ObserverDecision → ModelRun)

end Garive
