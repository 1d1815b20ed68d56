import Garive.Llm.Model

/-!
# Context derivation

Candidates read from durable facts become the surface a model request is built from. Two ordered
streams are merged without repairing either; each candidate is checked against the window of the
request; visibility filters before the budget; required candidates are always kept and the newest
optional ones as long as both budgets last.
-/

namespace Garive

inductive ContextPurpose where
  | inference
  | governance
  | toolPreparation
  | summarization
deriving DecidableEq

/-- Semantic class of a fact considered for context. -/
inductive CandidateKind where
  | instruction
  | skill
  | userInput
  | modelOutput
  | toolObservation
  | approval
  | summary
  | systemNotice
  | memory
  | knowledge
deriving DecidableEq

inductive Retention where
  | required
  | dispensable
deriving DecidableEq

/-- Disclosure rule of a candidate. -/
inductive Visibility where
  | visible
  | redacted
  | purposes (admitted : List ContextPurpose)
deriving DecidableEq

/-- Reference to one ordered fact of a session. -/
structure FactRef where
  sessionId : String
  position : Nat

structure ContextCandidate where
  factRef : FactRef
  kind : CandidateKind
  retention : Retention
  visibility : Visibility
  items : List ModelInputItem

/-- Bounds and ledger window of one derivation. -/
structure ContextRequest where
  sessionId : String
  turnId : String
  purpose : ContextPurpose
  afterPosition : Option Nat
  throughPosition : Nat
  maxItems : Nat
  maxUtf8Bytes : Nat

inductive ContextItem where
  | input (factRef : FactRef) (kind : CandidateKind) (item : ModelInputItem)
  | redactedItem (factRef : FactRef)

structure ContextSurface where
  purpose : ContextPurpose
  fromPosition : Nat
  throughPosition : Nat
  items : List ContextItem
  retainedRefs : List FactRef
  droppedRefs : List FactRef
  filteredRefs : List FactRef
  itemCount : Nat
  utf8Bytes : Nat

inductive ContextDerivationError where
  | invalidRequest
  | sessionMismatch
  | positionBeyondSurface
  | nonIncreasingPosition
  | duplicateReference
  | emptyRequiredContent
  | invalidVisibility
  | budgetOverflow
  | requiredFactsExceedBudget (itemCount utf8Bytes : Nat)

open ContextDerivationError

/-! ## Merging -/

def validateStreamOrder : List ContextCandidate → Except ContextDerivationError Unit
  | a :: b :: rest =>
    match compare a.factRef.position b.factRef.position with
    | .lt => validateStreamOrder (b :: rest)
    | .eq => .error duplicateReference
    | .gt => .error nonIncreasingPosition
  | _ => .ok ()

/-- The two streams in the order of their positions, until they disagree or one of them ends. -/
def mergeOrdered : List ContextCandidate → List ContextCandidate →
    Except ContextDerivationError (List ContextCandidate)
  | a :: left, b :: right =>
    match compare a.factRef.position b.factRef.position with
    | .lt => do
      let merged ← mergeOrdered left (b :: right)
      return a :: merged
    | .gt => do
      let merged ← mergeOrdered (a :: left) right
      return b :: merged
    | .eq => .error duplicateReference
  | left, right => .ok (left ++ right)

/-- Merges two independently ordered candidate streams without repairing either. -/
def mergeContextCandidates (base capability : List ContextCandidate) :
    Except ContextDerivationError (List ContextCandidate) := do
  validateStreamOrder base
  validateStreamOrder capability
  mergeOrdered base capability

/-! ## Cost -/

/-- A sum of `usize` values that fails on overflow. -/
def totalOf (values : List Nat) : Except ContextDerivationError Nat :=
  values.foldlM (fun total value ↦ okOr (checkedAdd total value) budgetOverflow) 0

def ModelInputContent.texts : ModelInputContent → List String
  | .text body => [body]
  | .mediaReference (.other name) reference mediaType => [reference, mediaType, name]
  | .mediaReference _ reference mediaType => [reference, mediaType]

def ModelInputItem.texts : ModelInputItem → List String
  | .message _ content => content.flatMap ModelInputContent.texts
  | .toolObservation modelCallId resultJson => [modelCallId, resultJson]
  | .toolIntent modelCallId toolName argumentsJson => [modelCallId, toolName, argumentsJson]
  | .reasoningReference reference => [reference]

def itemUtf8Bytes (item : ModelInputItem) : Except ContextDerivationError Nat :=
  totalOf (item.texts.map String.utf8ByteSize)

/-- The number of items of a candidate and their size. -/
def candidateCost (items : List ModelInputItem) : Except ContextDerivationError (Nat × Nat) := do
  let bytes ← items.foldlM (fun bytes item ↦ do
    let size ← itemUtf8Bytes item
    okOr (checkedAdd bytes size) budgetOverflow) 0
  return (items.length, bytes)

/-! ## Derivation -/

/-- Checks a candidate against the window and the position before it. -/
def validateCandidate (request : ContextRequest) (last : Option Nat) (candidate : ContextCandidate) :
    Except ContextDerivationError Unit := do
  ensure (candidate.factRef.sessionId = request.sessionId) sessionMismatch
  ensure (¬(candidate.factRef.position = 0 ∨ candidate.factRef.position > request.throughPosition))
    positionBeyondSurface
  ensure (∀ position ∈ last, candidate.factRef.position ≠ position) duplicateReference
  ensure (∀ position ∈ last, ¬candidate.factRef.position < position) nonIncreasingPosition
  ensure (¬(candidate.retention = .required ∧ candidate.items.isEmpty)) emptyRequiredContent

def isVisibleFor (visibility : Visibility) (purpose : ContextPurpose) :
    Except ContextDerivationError Bool :=
  match visibility with
  | .visible => .ok true
  | .redacted => .ok true
  | .purposes [] => .error invalidVisibility
  | .purposes admitted => .ok (admitted.contains purpose)

/-- A candidate that passed the visibility filter, with its charge. -/
structure Eligible where
  candidate : ContextCandidate
  itemCount : Nat
  utf8Bytes : Nat
  redacted : Bool

/-- The charge of a visible candidate. -/
def admitVisible (candidate : ContextCandidate) : Except ContextDerivationError Eligible := do
  let redacted := decide (candidate.visibility = .redacted)
  let (itemCount, utf8Bytes) ← if redacted then pure (1, 0) else candidateCost candidate.items
  ensure (¬(candidate.retention = .required ∧ redacted = false ∧ (itemCount = 0 ∨ utf8Bytes = 0)))
    emptyRequiredContent
  return { candidate, itemCount, utf8Bytes, redacted }

/-- The eligible candidates and the references of the filtered ones. -/
def filterCandidates (request : ContextRequest) :
    Option Nat → List ContextCandidate → Except ContextDerivationError (List FactRef × List Eligible)
  | _, [] => .ok ([], [])
  | last, candidate :: rest => do
    validateCandidate request last candidate
    -- the window is looked at first: a candidate before it is filtered without a look at its
    -- visibility
    let within := !(request.afterPosition.any fun after ↦ candidate.factRef.position ≤ after)
    let shown ← if within then isVisibleFor candidate.visibility request.purpose else pure false
    if shown then
      let eligible ← admitVisible candidate
      let (filtered, kept) ← filterCandidates request (some candidate.factRef.position) rest
      return (filtered, eligible :: kept)
    else
      let (filtered, kept) ← filterCandidates request (some candidate.factRef.position) rest
      return (candidate.factRef :: filtered, kept)

def Eligible.isRequired (eligible : Eligible) : Bool := eligible.candidate.retention = .required

/-- The items and bytes charged so far, and the positions retained. -/
structure Budget where
  itemCount : Nat
  utf8Bytes : Nat
  retained : List Nat

/-- Charges a candidate. -/
def Budget.charge (budget : Budget) (eligible : Eligible) : Except ContextDerivationError Budget := do
  let itemCount ← okOr (checkedAdd budget.itemCount eligible.itemCount) budgetOverflow
  let utf8Bytes ← okOr (checkedAdd budget.utf8Bytes eligible.utf8Bytes) budgetOverflow
  return { itemCount, utf8Bytes, retained := eligible.candidate.factRef.position :: budget.retained }

def chargeRequired (budget : Budget) (eligible : Eligible) : Except ContextDerivationError Budget :=
  if eligible.isRequired then budget.charge eligible else .ok budget

/-- Charges an optional candidate if both budgets allow it. -/
def chargeOptional (request : ContextRequest) (budget : Budget) (eligible : Eligible) :
    Except ContextDerivationError Budget :=
  if eligible.isRequired then .ok budget else do
    let next ← budget.charge eligible
    if next.itemCount ≤ request.maxItems ∧ next.utf8Bytes ≤ request.maxUtf8Bytes then
      return next
    else
      return budget

def Budget.retains (budget : Budget) (eligible : Eligible) : Bool :=
  budget.retained.contains eligible.candidate.factRef.position

def Eligible.surfaceItems (eligible : Eligible) : List ContextItem :=
  if eligible.redacted then [.redactedItem eligible.candidate.factRef]
  else eligible.candidate.items.map (.input eligible.candidate.factRef eligible.candidate.kind)

/-- Derives a deterministic surface. -/
def deriveContext (request : ContextRequest) (candidates : List ContextCandidate) :
    Except ContextDerivationError ContextSurface := do
  let fromPosition ← okOr (checkedAdd (request.afterPosition.getD 0) 1) invalidRequest
  ensure (¬(request.sessionId = "" ∨ request.turnId = "" ∨ request.throughPosition = 0 ∨
    request.maxItems = 0 ∨ request.maxUtf8Bytes = 0 ∨
    ∃ after ∈ request.afterPosition, after ≥ request.throughPosition)) invalidRequest
  let (filteredRefs, eligible) ← filterCandidates request none candidates
  let required ← eligible.foldlM chargeRequired { itemCount := 0, utf8Bytes := 0, retained := [] }
  ensure (¬(required.itemCount > request.maxItems ∨ required.utf8Bytes > request.maxUtf8Bytes))
    (requiredFactsExceedBudget required.itemCount required.utf8Bytes)
  let budget ← eligible.reverse.foldlM (chargeOptional request) required
  let kept := eligible.filter budget.retains
  return {
    purpose := request.purpose
    fromPosition
    throughPosition := request.throughPosition
    items := kept.flatMap Eligible.surfaceItems
    retainedRefs := kept.map (·.candidate.factRef)
    droppedRefs := (eligible.filter fun value ↦ !budget.retains value).map (·.candidate.factRef)
    filteredRefs
    itemCount := budget.itemCount
    utf8Bytes := budget.utf8Bytes }

/-! ## Assembly -/

/-- Where an item stands in a model request. -/
inductive InputSection where
  | instructions
  | skills
  | memory
  | knowledge
  | history
deriving DecidableEq

def inputSection (kind : CandidateKind) (item : ModelInputItem) : InputSection :=
  match kind, item with
  | .skill, _ => .skills
  | .memory, _ => .memory
  | .knowledge, _ => .knowledge
  | _, .message .system _ => .instructions
  | _, .message .developer _ => .instructions
  | _, _ => .history

/-- The items of one section, in the order of the surface. -/
def ContextSurface.inSection (surface : ContextSurface) (where? : InputSection) :
    List ModelInputItem :=
  surface.items.filterMap fun
    | .input _ kind item => if inputSection kind item = where? then some item else none
    | .redactedItem _ => none

/-- Assembles the admitted inputs in model presentation order. -/
def assembleModelInputs (surface : ContextSurface) : List ModelInputItem :=
  surface.inSection .instructions ++ surface.inSection .skills ++ surface.inSection .memory ++
    surface.inSection .knowledge ++ surface.inSection .history

end Garive
