import Garive.Ledger.RuntimeFacts.Coordination
import Garive.Ledger.RuntimeFacts.Effect
import Garive.Ledger.RuntimeFacts.Memory
import Garive.Ledger.RuntimeFacts.Planning
import Garive.Ledger.RuntimeFacts.Turn

/-!
# Admission of runtime facts

A draft is checked by its kind's namespace and its schema version. A kind outside the runtime
namespaces, or a schema version that is not admitted for its kind, is *opaque*: nothing about its
envelope or payload is checked. Everything else must carry exactly the identities its namespace
calls for and a payload that passes its rule.
-/

namespace Garive

/-- Whether a payload was checked against an admitted schema version or kept opaque. -/
inductive RuntimeFactDisposition where
  | appliedV1
  | appliedV2
  | appliedV3
  | opaqueFact
deriving DecidableEq

namespace Namespace

/-- The namespaces whose kinds are runtime facts. -/
def isRuntime : Namespace → Bool
  | session | tool | context | privacy => false
  | _ => true

end Namespace

namespace FactKind

/-- A rejected tool preparation, the one runtime kind outside the runtime namespaces. -/
def isRejection (kind : FactKind) : Bool :=
  kind == .known .toolPreparationRejected

/-- The kinds that payload validation applies to. -/
def isRuntime (kind : FactKind) : Bool :=
  kind.ns?.any Namespace.isRuntime || kind.isRejection

/-- The memory kinds that belong to a session and not to one of its turns. -/
def isMemorySessionScoped : FactKind → Bool
  | .known .memoryTombstoned
  | .known .memoryRevisionClassified
  | .known .memoryObservationRecorded
  | .known .memoryLifecycleTransitioned
  | .known .memoryCandidateRecorded
  | .known .memoryMaintenanceDecided
  | .known .memoryDistillationCheckpointed
  | .known .memoryAuditRecorded
  | .known .memoryPromotionRequested
  | .known .memoryPromotionRecorded
  | .known .memoryErasureRequested
  | .known .memoryErasureRecorded => true
  | _ => false

/-- Whether the kind's text starts with a namespace. -/
def inNamespace (kind : FactKind) (ns : Namespace) : Bool :=
  kind.ns? == some ns

/-- Kinds that name an invocation of a tool. -/
def isEffectFamily (kind : FactKind) : Bool :=
  kind.inNamespace .effect || kind.inNamespace .interaction

/-- Kinds that prove the safety of a tool invocation. -/
def isF0Family (kind : FactKind) : Bool :=
  kind.inNamespace .safety || kind.inNamespace .sandbox

/-- Kinds whose facts name a turn. -/
def needsTurn (kind : FactKind) : Bool :=
  !(kind.isMemorySessionScoped || kind.inNamespace .schedule || kind.inNamespace .workspace
    || kind.inNamespace .goal || kind.inNamespace .plan)

/-- Kinds whose facts name an execution. -/
def needsExecution (kind : FactKind) : Bool :=
  kind.inNamespace .execution || kind.inNamespace .model || kind.isEffectFamily || kind.isF0Family
    || kind.inNamespace .skill || kind.isRejection
    || (kind.inNamespace .memory && !kind.isMemorySessionScoped)
    || kind.inNamespace .knowledge || kind.inNamespace .delegation || kind.inNamespace .artifact

/-- Kinds whose facts name a model request. -/
def needsModelRequest (kind : FactKind) : Bool :=
  kind.inNamespace .model || kind.isRejection

/-- Kinds whose facts name a tool invocation. -/
def needsToolInvocation (kind : FactKind) : Bool :=
  kind.isEffectFamily || kind.isF0Family || kind.inNamespace .artifact

/-- The disposition of an admitted schema version. Version 1 is admitted for every runtime kind;
prepared and authorized effects have later versions. -/
def admittedVersion? (kind : FactKind) (version : UInt32) : Option RuntimeFactDisposition :=
  if version = 1 then some .appliedV1
  else if kind = .known .effectPrepared ∧ version = 2 then some .appliedV2
  else if kind = .known .effectPrepared ∧ version = 3 then some .appliedV3
  else if kind = .known .effectAuthorized ∧ version = 2 then some .appliedV2
  else none

end FactKind

namespace RuntimeFacts

/-- The payload rule selected by kind and schema version. -/
def validatePayload (lib : Externals) (kind : FactKind) (version : UInt32) (payload : Object) :
    Except LedgerError Unit :=
  match kind.ns? with
  | some .artifact => Artifact.validate payload kind
  | some .goal => Goal.validate lib payload kind
  | some .plan => Plan.validate lib payload kind
  | some .workspace => Workspace.validate lib payload kind
  | some .safety | some .sandbox => F0.validate payload kind
  | some .delegation => Delegation.validate lib payload kind
  | some .schedule => Scheduler.validate lib payload kind
  | some .knowledge => Knowledge.validate lib payload kind
  | some .memory => Memory.validate lib payload kind
  | some .skill => Skill.validate payload kind
  | some .effect =>
    if kind = .known .effectPrepared ∧ version = 2 then Effect.preparedV2 lib payload
    else if kind = .known .effectPrepared ∧ version = 3 then Effect.preparedV3 lib payload
    else if kind = .known .effectAuthorized ∧ version = 2 then Effect.authorizedV2 lib payload
    else Effect.validate lib payload kind
  | some .interaction | some .tool => Effect.validate lib payload kind
  | some .model => Model.validate lib payload kind
  | _ => Turn.validate lib payload kind

end RuntimeFacts

/-- The envelope carries exactly the identities its kind calls for. -/
def FactDraft.envelopeMatches (fact : FactDraft) : Bool :=
  fact.turnId.isSome == fact.kind.needsTurn
    && fact.executionId.isSome == fact.kind.needsExecution
    && fact.modelRequestId.isSome == fact.kind.needsModelRequest
    && fact.toolInvocationId.isSome == fact.kind.needsToolInvocation

/-- Validates one admitted payload and its required envelope identities. -/
def validateRuntimeFact (lib : Externals) (fact : FactDraft) :
    Except LedgerError RuntimeFactDisposition :=
  if fact.kind.isRuntime then
    match fact.kind.admittedVersion? fact.schemaVersion with
    | none => .ok .opaqueFact
    | some disposition => do
      ensure (fact.envelopeMatches = true) .invalidFact
      let payload ← okOr (lib.fromStr fact.payload.json) .invalidFact
      let payload ← RuntimeFacts.object payload
      RuntimeFacts.validatePayload lib fact.kind fact.schemaVersion payload
      return disposition
  else .ok .opaqueFact

/-- The outcome of validation does not depend on the time a fact was recorded. -/
theorem validateRuntimeFact_congr {lib : Externals} {a b : FactDraft}
    (h : a.sameSemantics b) : validateRuntimeFact lib a = validateRuntimeFact lib b := by
  rw [FactDraft.sameSemantics_iff.mp h]
  rfl

end Garive
