import Garive.Ledger.Reference
import Garive.Lib.Map

/-!
# Tool definitions and prepared calls

A catalogue holds the exact tool definitions of one execution by name. It turns an untrusted intent
of the model into a prepared call, which carries the name and the revision of the definition it was
prepared from, the canonical arguments, and a digest of everything an executor acts on.

The argument reader and the schema validator are parameters here (`Preparing`), with the canonical
JSON writer and the compact one: no result depends on what they accept.
-/

namespace Garive

inductive PreparationErrorCode where
  | invalidModelCallId
  | invalidToolName
  | toolNotAdmitted
  | invalidArgumentsJson
  | argumentsSchemaMismatch
  | invalidToolDefinition
  | unsupportedSchemaKeyword
  | nonCanonicalValue
  | effectAccessInvalid
  | sandboxRequirementInvalid

structure SchemaFailure where
  instancePath : String
  schemaPath : String
  keyword : String

/-- A failure of preparation, with the schema assertions that failed. -/
structure PreparationError where
  code : PreparationErrorCode
  failures : List SchemaFailure

def PreparationError.new (code : PreparationErrorCode) : PreparationError := { code, failures := [] }

inductive ExecutionCapability where
  | filesystemRead
  | filesystemWrite
  | process
  | network
  | browserObserve
  | browserAct
  | computerObserve
  | computerAct

def ExecutionCapability.wireName : ExecutionCapability → String
  | filesystemRead => "filesystem_read"
  | filesystemWrite => "filesystem_write"
  | process => "process"
  | network => "network"
  | browserObserve => "browser_observe"
  | browserAct => "browser_act"
  | computerObserve => "computer_observe"
  | computerAct => "computer_act"

structure ExecutionRequirements where
  capabilities : List ExecutionCapability
  maxDurationMs : Nat
  maxOutputBytes : Nat

def ExecutionRequirements.toJson (requirements : ExecutionRequirements) : Value :=
  json [("capabilities", .array (requirements.capabilities.map fun capability ↦
      .string capability.wireName)),
    ("max_duration_ms", .number (.posInt requirements.maxDurationMs)),
    ("max_output_bytes", .number (.posInt requirements.maxOutputBytes))]

inductive ReplayClass where
  | readOnly
  | idempotent
  | receiptRecoverable
  | neverReplay
deriving DecidableEq

def ReplayClass.wireName : ReplayClass → String
  | readOnly => "read_only"
  | idempotent => "idempotent"
  | receiptRecoverable => "receipt_recoverable"
  | neverReplay => "never_replay"

/-- The access ceiling of a tool of a later contract version. -/
structure ToolAccessContract where
  policyRevision : String
  maxResultBytes : Nat
  resolverRevision : String

/-- An exact immutable tool definition. -/
structure ToolDefinition where
  name : String
  revision : String
  description : String
  inputSchema : Value
  requirements : ExecutionRequirements
  replayClass : ReplayClass
  accessContract : Option ToolAccessContract
  name_ne_empty : name ≠ ""
  revision_ne_empty : revision ≠ ""

/-- An untrusted proposal of the model. -/
structure ToolIntent where
  modelCallId : String
  toolName : String
  argumentsJson : String

inductive AccessNamespace where
  | filesystem
  | process
  | network
  | runtime
deriving DecidableEq

inductive AccessMode where
  | read
  | write
  | exclusive
deriving DecidableEq

structure ResourceAccess where
  accessNamespace : AccessNamespace
  resourceKey : String
  mode : AccessMode

/-- A validated call without invocation identity or authority. -/
structure PreparedToolCall where
  modelCallId : String
  toolName : String
  toolRevision : String
  normalizedArguments : String
  inputDigest : String
  requirements : ExecutionRequirements
  replayClass : ReplayClass
  contractVersion : Nat
  invocationAccesses : Option (List ResourceAccess)
  maxResultBytes : Option Nat

/-- What preparation takes from elsewhere. -/
structure Preparing extends Externals where
  /-- The reader of argument texts, which refuses duplicate keys. -/
  parseArguments : String → Except PreparationError Value
  /-- The failed assertions of a schema about a value. -/
  validateArguments : Value → Value → List SchemaFailure
  /-- `serde_jcs::to_string`. -/
  jcs : Value → Option String
  /-- `serde_json::to_string`. -/
  toText : Value → Option String

/-- Frozen exact-name catalogue of one execution. -/
structure ToolCatalog where
  definitions : Map String ToolDefinition

namespace ToolCatalog

/-- Adds a definition under its name, which must be new. -/
def insertNew (catalog : Map String ToolDefinition) (definition : ToolDefinition) :
    Except PreparationError (Map String ToolDefinition) := do
  ensure (catalog[definition.name]?.isNone) (.new .invalidToolDefinition)
  return catalog.insert definition.name definition

/-- Rejects duplicate names and constructs an immutable catalogue. -/
def new (definitions : List ToolDefinition) : Except PreparationError ToolCatalog := do
  let catalog ← definitions.foldlM insertNew ∅
  return { definitions := catalog }

variable (lib : Preparing)

/-- The definition an intent names and its parsed arguments. -/
def validateIntent (catalog : ToolCatalog) (intent : ToolIntent) :
    Except PreparationError (ToolDefinition × Value) := do
  ensure (intent.modelCallId ≠ "") (.new .invalidModelCallId)
  ensure (intent.toolName ≠ "") (.new .invalidToolName)
  let definition ← okOr catalog.definitions[intent.toolName]? (.new .toolNotAdmitted)
  let arguments ← lib.parseArguments intent.argumentsJson
  let failures := lib.validateArguments definition.inputSchema arguments
  ensure (failures.isEmpty) { code := .argumentsSchemaMismatch, failures }
  return (definition, arguments)

end ToolCatalog

/-- The first contract version of a prepared call. -/
def PreparedToolCall.fromV1 (lib : Preparing) (intent : ToolIntent) (definition : ToolDefinition)
    (arguments : Value) : Except PreparationError PreparedToolCall := do
  let normalizedArguments ← okOr (lib.jcs arguments) (.new .nonCanonicalValue)
  let canonical ← okOr (lib.jcs (json [("contract", .string "garive.prepared-tool-call"),
    ("version", .number (.posInt 1)), ("tool_name", .string definition.name),
    ("tool_revision", .string definition.revision), ("arguments", arguments),
    ("requirements", definition.requirements.toJson),
    ("replay_class", .string definition.replayClass.wireName)])) (.new .nonCanonicalValue)
  return {
    modelCallId := intent.modelCallId
    toolName := definition.name
    toolRevision := definition.revision
    normalizedArguments
    inputDigest := lib.sha256Hex canonical
    requirements := definition.requirements
    replayClass := definition.replayClass
    contractVersion := 1
    invocationAccesses := none
    maxResultBytes := none }

/-- Validates one untrusted intent and returns an authority-free call. -/
def ToolCatalog.prepare (lib : Preparing) (catalog : ToolCatalog) (intent : ToolIntent) :
    Except PreparationError PreparedToolCall := do
  let (definition, arguments) ← catalog.validateIntent lib intent
  ensure (definition.accessContract.isNone) (.new .effectAccessInvalid)
  PreparedToolCall.fromV1 lib intent definition arguments

/-! ## What a catalogue prepares -/

/-- A call prepared from one of the definitions. -/
def PreparedToolCall.IsOf (prepared : PreparedToolCall) (definitions : List ToolDefinition) : Prop :=
  ∃ definition ∈ definitions, definition.name = prepared.toolName ∧
    definition.revision = prepared.toolRevision

namespace ToolCatalog

/-- The catalogue holds its definitions under their names and nothing else. -/
theorem mem_of_new {definitions : List ToolDefinition} {catalog : ToolCatalog}
    (h : new definitions = .ok catalog) {name : String} {definition : ToolDefinition}
    (hget : catalog.definitions[name]? = some definition) :
    definition ∈ definitions ∧ definition.name = name := by
  simp only [new, ok_iff] at h
  obtain ⟨held, hheld, rfl⟩ := h
  have hentries := foldlM_induction (P := fun done (held : Map String ToolDefinition) ↦
    ∀ (name : String) (definition : ToolDefinition), held[name]? = some definition →
      definition ∈ done ∧ definition.name = name) (by simp) (by
    intro done added held next hdone hnext name definition hget
    simp only [insertNew, ok_iff] at hnext
    obtain ⟨-, rfl⟩ := hnext
    rw [Std.ExtTreeMap.getElem?_insert] at hget
    split at hget
    · cases hget
      exact ⟨by simp, by simp_all⟩
    · obtain ⟨hmem, hname⟩ := hdone name definition hget
      exact ⟨by simp [hmem], hname⟩) hheld
  exact hentries name definition hget

/-- A prepared call carries the name and revision of a definition of the catalogue. -/
theorem isOf_of_prepare {lib : Preparing} {definitions : List ToolDefinition} {catalog : ToolCatalog}
    (hnew : new definitions = .ok catalog) {intent : ToolIntent} {prepared : PreparedToolCall}
    (h : catalog.prepare lib intent = .ok prepared) : prepared.IsOf definitions := by
  simp only [prepare, validateIntent, PreparedToolCall.fromV1, ok_iff, Prod.exists,
    Prod.mk.injEq] at h
  obtain ⟨_, _, ⟨-, -, found, hfound, -, -, -, rfl, rfl⟩, -, -, -, -, -, rfl⟩ := h
  exact ⟨found, (mem_of_new hnew hfound).1, rfl, rfl⟩

end ToolCatalog

/-- Reads every argument text as `null`, which passes every schema. -/
def lenientPreparing : Preparing :=
  { reference with
    parseArguments := fun _ ↦ .ok .null
    validateArguments := fun _ _ ↦ []
    jcs := fun _ ↦ some "null"
    toText := fun _ ↦ some "true" }

end Garive
