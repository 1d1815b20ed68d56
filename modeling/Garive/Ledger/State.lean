import Garive.Ledger.Projection.Apply
import Garive.Lib.Machine

/-!
# The ledger state

The in-memory ledger: per session its version, its facts in order, its drafts by position and its
projection, and across sessions the index of all facts by identity.

`LedgerState.commit` first screens the whole batch against the index, then either answers a replay,
or appends the batch to a copy of the session, and only then writes the copy and the index.
-/

namespace Garive

/-- One session's facts and what they add up to. -/
structure SessionLedger where
  version : Nat := 0
  facts : List DurableFact := []
  drafts : Map Nat FactDraft := ∅
  projection : SessionProjection := {}

instance : Inhabited SessionLedger := ⟨{}⟩

/-- Where a fact is stored, and the draft it was stored from. -/
structure FactIndexEntry where
  sessionId : SessionId
  position : Nat
  draft : FactDraft
deriving DecidableEq

/-- The state of the ledger over all sessions. -/
structure LedgerState where
  sessions : Map SessionId SessionLedger := ∅
  factIndex : Map FactId FactIndexEntry := ∅

/-- Facts and durable watermark required to reconstruct one turn. -/
structure TurnSnapshot where
  facts : List DurableFact
  sessionVersion : Nat
  throughPosition : Nat
deriving DecidableEq

/-- Two identities that are both present and equal. -/
def samePresent {α : Type} [DecidableEq α] (left right : Option α) : Bool :=
  match left, right with
  | some l, some r => l == r
  | _, _ => false

/-- Two drafts name a turn, execution, model request or tool invocation in common. -/
def FactDraft.sharesIdentity (a b : FactDraft) : Bool :=
  samePresent a.turnId b.turnId || samePresent a.executionId b.executionId
    || samePresent a.modelRequestId b.modelRequestId
    || samePresent a.toolInvocationId b.toolInvocationId

namespace SessionLedger

variable (lib : Externals)

/-- The position after the last fact. -/
def nextPosition (session : SessionLedger) : Except LedgerError Nat :=
  match session.facts.getLast? with
  | none => .ok 1
  | some fact => okOr (checkedAdd fact.position 1) .positionOverflow

/-- Appends a batch from a position on, with the positions it takes. -/
def append (sessionId : SessionId) (session : SessionLedger) (position : Nat) :
    List FactDraft → Except LedgerError (SessionLedger × List Nat)
  | [] => .ok (session, [])
  | draft :: rest => do
    let projection ← session.projection.apply lib draft
    let durable := DurableFact.ofDraft sessionId position draft
    durable.verify lib
    let next : SessionLedger :=
      { session with
        projection
        drafts := session.drafts.insert position draft
        facts := session.facts ++ [durable] }
    match rest with
    | [] => .ok (next, [position])
    | _ :: _ => do
      let following ← okOr (checkedAdd position 1) .positionOverflow
      let (final, positions) ← append sessionId next following rest
      return (final, position :: positions)

end SessionLedger

namespace LedgerState

variable (lib : Externals) (state : LedgerState)

/-- The session's ledger, empty when the session is new. -/
def session (sessionId : SessionId) : SessionLedger :=
  state.sessions[sessionId]?.getD {}

/-- Some fact of another session names one of the draft's identities. -/
def identityOwnedByOtherSession (sessionId : SessionId) (draft : FactDraft) : Bool :=
  Map.any state.factIndex fun _ existing ↦
    existing.sessionId != sessionId && existing.draft.sharesIdentity draft

/-- Screens a batch, given the fact identities before it: every draft is valid, none of its
identities is owned by another session, and it is either new or stored with the same semantics. The
result lists the positions of the drafts that are stored. -/
def screen (sessionId : SessionId) (seen : List FactId) :
    List FactDraft → Except LedgerError (List Nat)
  | [] => .ok []
  | draft :: rest => do
    draft.validate lib
    let _ ← validateRuntimeFact lib draft
    ensure (state.identityOwnedByOtherSession sessionId draft = false) .invalidTransition
    ensure (draft.factId ∉ seen) .invalidFact
    match state.factIndex[draft.factId]? with
    | some existing => do
      ensure (existing.sessionId = sessionId ∧ existing.draft.sameSemantics draft = true)
        .idempotencyCollision
      let positions ← screen sessionId (draft.factId :: seen) rest
      return existing.position :: positions
    | none => screen sessionId (draft.factId :: seen) rest

/-- The session after a batch none of whose facts is stored, with the result to return. -/
def appendBatch (sessionId : SessionId) (expectedSessionVersion : Nat) (drafts : List FactDraft) :
    Except LedgerError (CommitResult × SessionLedger) := do
  let next := state.session sessionId
  ensure (next.version = expectedSessionVersion) .concurrentModification
  let begun := { next with projection := next.projection.beginCommit }
  let position ← begun.nextPosition
  let (appended, positions) ← begun.append lib sessionId position drafts
  appended.projection.validateCommitBoundary
  let version ← okOr (checkedAdd appended.version 1) .positionOverflow
  return ({ disposition := .committed, sessionVersion := version, positions },
    { appended with version })

/-- Everything `commit` decides before it writes: the error, or the result together with the next
session when the batch is new. -/
def decideCommit (sessionId : SessionId) (expectedSessionVersion : Nat)
    (drafts : List FactDraft) : Except LedgerError (CommitResult × Option SessionLedger) := do
  ensure (drafts ≠ []) .emptyBatch
  let replayPositions ← state.screen lib sessionId [] drafts
  if replayPositions.length = drafts.length then do
    let session ← okOr state.sessions[sessionId]? .missingReference
    return ({ disposition := .replayed, sessionVersion := session.version
              positions := replayPositions }, none)
  else do
    ensure (replayPositions.length = 0) .incompleteReplay
    let (result, next) ← state.appendBatch lib sessionId expectedSessionVersion drafts
    return (result, some next)

/-- Indexes a batch under its positions. -/
def indexBatch (sessionId : SessionId) (index : Map FactId FactIndexEntry) :
    List (FactDraft × Nat) → Map FactId FactIndexEntry
  | [] => index
  | (draft, position) :: rest =>
    indexBatch sessionId (index.insert draft.factId { sessionId, position, draft }) rest

/-- Atomically validates and appends a batch at one expected session version. -/
def commit (sessionId : SessionId) (expectedSessionVersion : Nat) (drafts : List FactDraft) :
    Except LedgerError CommitResult × LedgerState :=
  match state.decideCommit lib sessionId expectedSessionVersion drafts with
  | .error e => (.error e, state)
  | .ok (result, none) => (.ok result, state)
  | .ok (result, some next) =>
    (.ok result,
      { sessions := state.sessions.insert sessionId next
        factIndex := indexBatch sessionId state.factIndex (drafts.zip result.positions) })

/-- Reads an immutable, strictly ordered range of facts with an optional kind filter. -/
def readFacts (sessionId : SessionId) (afterPosition throughPosition : Nat)
    (kinds : Option (List FactKind)) : Except LedgerError (List DurableFact) := do
  ensure (throughPosition ≠ 0 ∧ afterPosition < throughPosition) .invalidReadRange
  let session ← okOr state.sessions[sessionId]? .missingReference
  let range := session.facts.filter fun fact ↦
    decide (afterPosition < fact.position ∧ fact.position ≤ throughPosition)
  ordered afterPosition range
where
  /-- Verifies facts that follow `previous` in strictly increasing positions. -/
  ordered (previous : Nat) : List DurableFact → Except LedgerError (List DurableFact)
    | [] => .ok []
    | fact :: rest => do
      fact.verify lib
      ensure (previous < fact.position) .invalidTransition
      let tail ← ordered fact.position rest
      return if kinds.all (·.contains fact.kind) then fact :: tail else tail

/-- One turn's facts in order and the watermark of the session that contains it. -/
def loadTurn (turnId : TurnId) : Except LedgerError TurnSnapshot :=
  let belongs := fun (session : SessionLedger) ↦
    session.facts.filter fun fact ↦ fact.turnId == some turnId
  match Map.find? state.sessions (fun _ session ↦ !(belongs session).isEmpty) with
  | some (_, session) => .ok
    { facts := belongs session
      sessionVersion := session.version
      throughPosition := (session.facts.getLast?.map (·.position)).getD 0 }
  | none => .error .missingReference

/-- Open or suspended turns of a session. -/
def listRecoverableTurns (sessionId : SessionId) : Except LedgerError (List TurnId) := do
  let session ← okOr state.sessions[sessionId]? .missingReference
  return session.projection.recoverableTurns

theorem session_of_get? {state : LedgerState} {sessionId : SessionId} {session : SessionLedger}
    (h : state.sessions[sessionId]? = some session) : state.session sessionId = session := by
  rw [LedgerState.session, h, Option.getD_some]

end LedgerState

/-! ## Runs of commits -/

/-- The arguments of one commit. -/
structure CommitCall where
  sessionId : SessionId
  expectedSessionVersion : Nat
  drafts : List FactDraft

/-- The ledger as a machine that answers commits. -/
def ledgerMachine (lib : Externals) :
    Machine LedgerState CommitCall (Except LedgerError CommitResult) where
  init := {}
  step state call := state.commit lib call.sessionId call.expectedSessionVersion call.drafts

/-- A ledger state some sequence of commits, successful or not, leads to. -/
abbrev LedgerState.Reachable (lib : Externals) (state : LedgerState) : Prop :=
  (ledgerMachine lib).Reachable state

end Garive
