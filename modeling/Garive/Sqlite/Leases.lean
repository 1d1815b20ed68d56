import Garive.Lib.Handover
import Garive.Sqlite.Storage
import Garive.Runtime.Recovery

/-!
# Leases

Two tables beside the ledger say who may write. An execution lease names the execution, owner and
token that may write for a turn; a schedule lease names the occurrence, owner and lease that may
write for a schedule, with an epoch and an expiry. Every call is one transaction: it reads and
writes the tables it needs, and whatever fails rolls all of them back.

Counters are stored as eight big-endian bytes, as in the ledger, and a stored counter of another
length is a storage failure. A call says whether SQLite completed its transaction, which stands for
locks, input/output errors and the checks of the schema that the code does not make itself.
-/

namespace Garive

/-! ## Execution leases -/

/-- A request to acquire the write lease of an execution. -/
structure ExecutionLeaseRequest where
  turnId : TurnId
  executionId : ExecutionId
  ownerId : String
  leaseToken : String
  nowMs : UInt64
  durationMs : UInt64

/-- The proof of an acquired lease. -/
structure ExecutionLease where
  turnId : TurnId
  executionId : ExecutionId
  ownerId : String
  leaseToken : String
  generation : UInt64
  expiresAtMs : UInt64

/-- Failures of execution leases. -/
inductive ExecutionLeaseError where
  | invalidRequest
  | alreadyHeld
  | recoveryRequired
  | executionNotActive
  | leaseLost
  | storage
deriving DecidableEq

/-- A row of the execution lease table, without its key, the turn. -/
structure ExecutionLeaseRow where
  executionId : String
  ownerId : String
  leaseToken : String
  generation : List UInt8
  expiresAtMs : List UInt8

/-! ## Schedule leases -/

/-- A request for the lease of one occurrence of a schedule. -/
structure ScheduleLeaseRequest where
  sessionId : SessionId
  scheduleId : String
  revisionId : String
  occurrenceId : String
  ordinal : UInt64
  ownerId : String
  leaseId : String
  nowMs : UInt64
  durationMs : UInt64

/-- The proof of an acquired schedule lease. -/
structure ScheduleLease where
  sessionId : SessionId
  scheduleId : String
  revisionId : String
  occurrenceId : String
  ordinal : UInt64
  ownerId : String
  leaseId : String
  epoch : UInt64
  expiresAtMs : UInt64

/-- Failures of schedule leases. -/
inductive ScheduleLeaseError where
  | invalidRequest
  | alreadyHeld
  | revisionNotActive
  | leaseLost
  | factBindingMismatch
  | storage
deriving DecidableEq

/-- The key of the schedule lease table. -/
abbrev ScheduleKey := SessionId × String

instance : Ord ScheduleKey := lexOrd

/-- A row of the schedule lease table, without its key. -/
structure ScheduleLeaseRow where
  revisionId : String
  occurrenceId : String
  ordinal : List UInt8
  ownerId : String
  leaseId : String
  epoch : List UInt8
  expiresAtMs : List UInt8
deriving DecidableEq

/-- The tables of the ledger and of the leases. -/
structure LeaseStore where
  ledger : Database := {}
  executionLeases : Map TurnId ExecutionLeaseRow := ∅
  scheduleLeases : Map ScheduleKey ScheduleLeaseRow := ∅

/-- Failures of a commit under a lease: those of the ledger, and a lease that is not held. -/
inductive LeasedCommitError where
  | ledger (reason : SqliteLedgerError)
  | lease (reason : ExecutionLeaseError)
  | scheduleLease (reason : ScheduleLeaseError)

/-! ## Counters -/

/-- A stored counter. -/
def encodeCounter (value : UInt64) : List UInt8 := SqliteLedger.encodeU64 value.toNat

/-- The counter that eight bytes store. -/
def decodeCounter (value : List UInt8) : Option UInt64 :=
  if value.length = 8 then some (UInt64.ofNat (ofBigEndian value)) else none

/-- `u64::checked_add`. -/
def checkedAddU64 (a b : UInt64) : Option UInt64 :=
  (checkedAdd a.toNat b.toNat).map UInt64.ofNat

namespace ExecutionLease

variable (lib : Externals) (sqlite : Sqlite)

/-- The kinds that end an execution. -/
def endsExecution : FactKind → Bool
  | .known .executionCompleted | .known .executionSuspended | .known .executionStopped
  | .known .executionFailed | .known .executionAbandoned => true
  | _ => false

/-- Some fact ends the execution. -/
def hasEnded (facts : List DurableFact) (execution : ExecutionId) : Bool :=
  facts.any fun fact ↦ fact.executionId == some execution && endsExecution fact.kind

/-- The execution is the latest of its turn and no fact ends it. -/
def requireLatestActive (ledger : Database) (turn : TurnId) (execution : ExecutionId) :
    Except ExecutionLeaseError Unit := do
  let state ← (SqliteLedger.loadStateSnapshot lib sqlite ledger).mapError fun _ ↦ .storage
  let snapshot ← (state.loadTurn turn).mapError fun _ ↦ .executionNotActive
  let latest := (rfind? (RuntimeTurn.hasKind .executionStarted) snapshot.facts).bind (·.executionId)
  ensure (latest = some execution ∧ hasEnded snapshot.facts execution = false) .executionNotActive

/-- Some fact ends the execution a row names. -/
def requireTerminal (ledger : Database) (turn : TurnId) (execution : String) :
    Except ExecutionLeaseError Unit := do
  let execution ← okOr (LedgerIdentity.tryFrom execution) .storage
  let state ← (SqliteLedger.loadStateSnapshot lib sqlite ledger).mapError fun _ ↦ .storage
  let snapshot ← (state.loadTurn turn).mapError fun _ ↦ .storage
  ensure (hasEnded snapshot.facts execution = true) .recoveryRequired

/-- The generation a request is granted over the row its turn has. -/
def nextGeneration (ledger : Database) (request : ExecutionLeaseRequest) :
    Option ExecutionLeaseRow → Except ExecutionLeaseError UInt64
  | none => .ok 1
  | some row => do
    let generation ← okOr (decodeCounter row.generation) .storage
    let expires ← okOr (decodeCounter row.expiresAtMs) .storage
    if row.executionId = request.executionId.text ∧ row.ownerId = request.ownerId
        ∧ row.leaseToken = request.leaseToken then
      if expires ≤ request.nowMs then .error .recoveryRequired else .ok generation
    else if row.executionId ≠ request.executionId.text then do
      requireTerminal lib sqlite ledger request.turnId row.executionId
      okOr (checkedAddU64 generation 1) .storage
    else if request.nowMs < expires then .error .alreadyHeld
    else .error .recoveryRequired

/-- The row of a lease. -/
def row (lease : ExecutionLease) : ExecutionLeaseRow where
  executionId := lease.executionId.text
  ownerId := lease.ownerId
  leaseToken := lease.leaseToken
  generation := encodeCounter lease.generation
  expiresAtMs := encodeCounter lease.expiresAtMs

/-- Acquires or renews a lease. -/
def acquire (store : LeaseStore) (request : ExecutionLeaseRequest) :
    Except ExecutionLeaseError (ExecutionLease × LeaseStore) := do
  ensure (request.ownerId ≠ "" ∧ request.leaseToken ≠ "" ∧ request.durationMs ≠ 0) .invalidRequest
  let expiresAtMs ← okOr (checkedAddU64 request.nowMs request.durationMs) .invalidRequest
  requireLatestActive lib sqlite store.ledger request.turnId request.executionId
  let generation ← nextGeneration lib sqlite store.ledger request
    store.executionLeases[request.turnId]?
  let lease : ExecutionLease :=
    { turnId := request.turnId, executionId := request.executionId, ownerId := request.ownerId
      leaseToken := request.leaseToken, generation, expiresAtMs }
  -- Tokens are unique in the table.
  ensure (Map.any store.executionLeases (fun turn row ↦
    turn != request.turnId && row.leaseToken == request.leaseToken) = false) .storage
  return (lease, { store with
    executionLeases := store.executionLeases.insert request.turnId lease.row })

/-- A row is held by the lease: expiry is not looked at. -/
def owns (lease : ExecutionLease) (row : ExecutionLeaseRow) : Bool :=
  row.executionId == lease.executionId.text && row.ownerId == lease.ownerId
    && row.leaseToken == lease.leaseToken

def requireOwned (store : LeaseStore) (lease : ExecutionLease) : Except ExecutionLeaseError Unit :=
  ensure (store.executionLeases[lease.turnId]?.any lease.owns = true) .leaseLost

/-- Releases the lease of an execution that has ended. -/
def release (store : LeaseStore) (lease : ExecutionLease) :
    Except ExecutionLeaseError (Unit × LeaseStore) := do
  requireOwned store lease
  requireTerminal lib sqlite store.ledger lease.turnId lease.executionId.text
  return ((), { store with
    executionLeases :=
      if store.executionLeases[lease.turnId]?.any (·.leaseToken == lease.leaseToken) then
        store.executionLeases.erase lease.turnId
      else store.executionLeases })

end ExecutionLease

namespace ScheduleLease

variable (lib : Externals)

/-- `kind LIKE 'schedule.%'`, which ignores the case of letters. -/
def likeSchedule (kind : String) : Bool :=
  "schedule.".toList.isPrefixOf (kind.toList.map Char.toLower)

/-- A text member of a value. -/
def textMember (value : Value) (key : String) : Option String := (value.get? key).bind Value.asStr

/-- A number member of a value. -/
def numberMember (value : Value) (key : String) : Option Nat := (value.get? key).bind Value.asU64

/-- The events of a schedule, in order: the kind, if it is a named one, and the payload. -/
def scheduleEvents (ledger : Database) (session : SessionId) (schedule : String) :
    Except ScheduleLeaseError (List (Option RuntimeKind × Value)) := do
  let rows := (ledger.facts.filter fun row ↦
    row.sessionId == session.text && likeSchedule row.kind).mergeSort fun a b ↦
      decide (a.position ≤ b.position)
  let events ← collect (rows.map fun row ↦ do
    let value ← okOr (lib.fromStr row.payloadJson) .storage
    return (RuntimeKind.ofText? row.kind, value))
  return events.filter fun event ↦ textMember event.2 "schedule_id" == some schedule

/-- The revision that is active after an event. -/
def nextActive (active : Option String) (event : Option RuntimeKind × Value) : Option String :=
  match event.1 with
  | some .scheduleCreated => textMember event.2 "revision_id"
  | some .scheduleCancelled =>
    if active = textMember event.2 "expected_revision_id" then none else active
  | some .scheduleFailed => if active = textMember event.2 "revision_id" then none else active
  | _ => active

def requireActiveRevision (ledger : Database) (request : ScheduleLeaseRequest) :
    Except ScheduleLeaseError Unit := do
  let events ← scheduleEvents lib ledger request.sessionId request.scheduleId
  ensure (events.foldl nextActive none = some request.revisionId) .revisionNotActive

/-- The event reports the occurrence as fired or failed. -/
def reports (revision occurrence : String) (ordinal : UInt64)
    (event : Option RuntimeKind × Value) : Bool :=
  (event.1 == some .scheduleFired || event.1 == some .scheduleFailed)
    && textMember event.2 "revision_id" == some revision
    && textMember event.2 "occurrence_id" == some occurrence
    && numberMember event.2 "ordinal" == some ordinal.toNat

def occurrenceHandledValues (ledger : Database) (session : SessionId)
    (schedule revision occurrence : String) (ordinal : UInt64) : Except ScheduleLeaseError Bool := do
  let events ← scheduleEvents lib ledger session schedule
  return events.any (reports revision occurrence ordinal)

def occurrenceHandled (ledger : Database) (request : ScheduleLeaseRequest)
    (revision occurrence : String) (ordinal : UInt64) : Except ScheduleLeaseError Bool :=
  occurrenceHandledValues lib ledger request.sessionId request.scheduleId revision occurrence ordinal

def occurrenceHandledRaw (ledger : Database) (lease : ScheduleLease) :
    Except ScheduleLeaseError Bool :=
  occurrenceHandledValues lib ledger lease.sessionId lease.scheduleId lease.revisionId
    lease.occurrenceId lease.ordinal

def validateRequest (request : ScheduleLeaseRequest) : Except ScheduleLeaseError Unit :=
  ensure (request.scheduleId ≠ "" ∧ request.revisionId ≠ "" ∧ request.occurrenceId ≠ ""
    ∧ request.ordinal ≠ 0 ∧ request.ownerId ≠ "" ∧ request.leaseId ≠ "" ∧ request.durationMs ≠ 0)
    .invalidRequest

/-- The epoch a request is granted over the row its schedule has. -/
def nextEpoch (ledger : Database) (request : ScheduleLeaseRequest) :
    Option ScheduleLeaseRow → Except ScheduleLeaseError UInt64
  | none => .ok 1
  | some row => do
    let ordinal ← okOr (decodeCounter row.ordinal) .storage
    let epoch ← okOr (decodeCounter row.epoch) .storage
    let expires ← okOr (decodeCounter row.expiresAtMs) .storage
    let exact := row.revisionId = request.revisionId ∧ row.occurrenceId = request.occurrenceId
      ∧ ordinal = request.ordinal ∧ row.ownerId = request.ownerId ∧ row.leaseId = request.leaseId
    if exact ∧ request.nowMs < expires then .ok epoch
    else if request.nowMs < expires ∧ row.revisionId = request.revisionId then do
      let handled ← occurrenceHandled lib ledger request row.revisionId row.occurrenceId ordinal
      if handled then okOr (checkedAddU64 epoch 1) .storage else .error .alreadyHeld
    else okOr (checkedAddU64 epoch 1) .storage

/-- The row of a lease. -/
def row (lease : ScheduleLease) : ScheduleLeaseRow where
  revisionId := lease.revisionId
  occurrenceId := lease.occurrenceId
  ordinal := encodeCounter lease.ordinal
  ownerId := lease.ownerId
  leaseId := lease.leaseId
  epoch := encodeCounter lease.epoch
  expiresAtMs := encodeCounter lease.expiresAtMs

/-- The key of a lease's row. -/
def key (lease : ScheduleLease) : ScheduleKey := (lease.sessionId, lease.scheduleId)

/-- Acquires, renews or takes over a lease. -/
def acquire (store : LeaseStore) (request : ScheduleLeaseRequest) :
    Except ScheduleLeaseError (ScheduleLease × LeaseStore) := do
  validateRequest request
  requireActiveRevision lib store.ledger request
  let expiresAtMs ← okOr (checkedAddU64 request.nowMs request.durationMs) .invalidRequest
  let epoch ← nextEpoch lib store.ledger request
    store.scheduleLeases[((request.sessionId, request.scheduleId) : ScheduleKey)]?
  let lease : ScheduleLease :=
    { sessionId := request.sessionId, scheduleId := request.scheduleId
      revisionId := request.revisionId, occurrenceId := request.occurrenceId
      ordinal := request.ordinal, ownerId := request.ownerId, leaseId := request.leaseId
      epoch, expiresAtMs }
  -- Lease identities are unique in a session.
  ensure (Map.any store.scheduleLeases (fun key row ↦ key != lease.key
    && key.1 == request.sessionId && row.leaseId == request.leaseId) = false) .storage
  return (lease, { store with scheduleLeases := store.scheduleLeases.insert lease.key lease.row })

/-- The lease has not expired and the row is its own. -/
def requireOwned (store : LeaseStore) (lease : ScheduleLease) (nowMs : UInt64) :
    Except ScheduleLeaseError Unit := do
  ensure (nowMs < lease.expiresAtMs) .leaseLost
  ensure (store.scheduleLeases[lease.key]? = some lease.row) .leaseLost

/-- The draft is about the leased occurrence. -/
def bound (lease : ScheduleLease) (draft : FactDraft) : Except ScheduleLeaseError Unit := do
  let value ← okOr (lib.fromStr draft.payload.json) .factBindingMismatch
  ensure ((draft.kind = .known .scheduleClaimed ∨ draft.kind = .known .scheduleFired
      ∨ draft.kind = .known .scheduleFailed)
    ∧ textMember value "schedule_id" = some lease.scheduleId
    ∧ textMember value "revision_id" = some lease.revisionId
    ∧ textMember value "occurrence_id" = some lease.occurrenceId
    ∧ numberMember value "ordinal" = some lease.ordinal.toNat) .factBindingMismatch

def requireBoundFacts (lease : ScheduleLease) (drafts : List FactDraft) :
    Except ScheduleLeaseError Unit := do
  ensure (drafts ≠ []) .factBindingMismatch
  checkAll (bound lib lease) drafts

/-- Releases a lease whose occurrence has been handled. -/
def release (store : LeaseStore) (lease : ScheduleLease) :
    Except ScheduleLeaseError (Unit × LeaseStore) := do
  let handled ← occurrenceHandledRaw lib store.ledger lease
  ensure (handled = true) .factBindingMismatch
  -- One row is deleted, or none.
  ensure (store.scheduleLeases[lease.key]?.any (fun row ↦
    row.leaseId == lease.leaseId && row.epoch == encodeCounter lease.epoch) = true) .leaseLost
  return ((), { store with scheduleLeases := store.scheduleLeases.erase lease.key })

/-- The schedule has a lease of that identity. -/
def Held (store : LeaseStore) (key : ScheduleKey) (leaseId : String) : Prop :=
  ∃ row : ScheduleLeaseRow, store.scheduleLeases[key]? = some row ∧ row.leaseId = leaseId

end ScheduleLease

variable {call : CommitCall} {result : CommitResult}

namespace SqliteLedger

/-- A transaction adds facts and takes none away. -/
theorem facts_of_commitTransaction {lib : Externals} {sqlite : Sqlite} {db next : Database}
    (h : commitTransaction lib sqlite db call = .ok (result, next)) :
    ∃ rows, next.facts = db.facts ++ rows := by
  simp only [commitTransaction, bind_eq_ok_iff] at h
  obtain ⟨_, -, _, -, h⟩ := h
  split at h
  · cases h
    exact ⟨[], (List.append_nil _).symm⟩
  · simp only [ok_iff, Prod.mk.injEq] at h
    obtain ⟨_, -, -, -, -, rfl⟩ := h
    exact ⟨_, rfl⟩

end SqliteLedger

/-! ## Transactions -/

/-- Runs a transaction, which is rolled back unless it succeeds and SQLite completes it. -/
def transact {ε α : Type} (completed : Bool) (failure : ε) (store : LeaseStore)
    (body : Except ε (α × LeaseStore)) : Except ε α × LeaseStore :=
  match body with
  | .error reason => (.error reason, store)
  | .ok (answer, next) => if completed then (.ok answer, next) else (.error failure, store)

variable {completed : Bool}

/-- What holds of the store and of every store the transaction can lead to holds afterwards. -/
theorem transact_induction {ε α : Type} {failure : ε} {store : LeaseStore}
    {body : Except ε (α × LeaseStore)} {P : LeaseStore → Prop} (hrolledBack : P store)
    (hbody : ∀ answer next, body = .ok (answer, next) → P next) :
    P (transact completed failure store body).2 := by
  match body, completed with
  | .error reason, _ => exact hrolledBack
  | .ok (answer, next), false => exact hrolledBack
  | .ok (answer, next), true => exact hbody answer next rfl

/-- An answer of a transaction that went through is the body's. -/
theorem body_of_transact {ε α : Type} {failure : ε} {store next : LeaseStore}
    {body : Except ε (α × LeaseStore)} {answer : α}
    (h : transact completed failure store body = (.ok answer, next)) :
    body = .ok (answer, next) := by
  match body, completed with
  | .error reason, _ => cases h
  | .ok (found, moved), false => cases h
  | .ok (found, moved), true =>
    cases h
    rfl

/-- The calls on the store. -/
inductive LeaseCall where
  | commit (call : CommitCall)
  | acquireExecutionLease (request : ExecutionLeaseRequest)
  | commitLeased (lease : ExecutionLease) (call : CommitCall)
  | releaseExecutionLease (lease : ExecutionLease)
  | acquireScheduleLease (request : ScheduleLeaseRequest)
  | commitScheduleLeased (lease : ScheduleLease) (nowMs : UInt64) (expectedSessionVersion : Nat)
      (drafts : List FactDraft)
  | releaseScheduleLease (lease : ScheduleLease)

/-- A call, and whether SQLite completed its transaction. -/
structure LeaseInput where
  call : LeaseCall
  completed : Bool

/-- The answers to the calls. -/
inductive LeaseAnswer where
  | committed (result : Except LeasedCommitError CommitResult)
  | executionLease (result : Except ExecutionLeaseError ExecutionLease)
  | executionReleased (result : Except ExecutionLeaseError Unit)
  | scheduleLease (result : Except ScheduleLeaseError ScheduleLease)
  | scheduleReleased (result : Except ScheduleLeaseError Unit)

namespace LeaseStore

variable (lib : Externals) (sqlite : Sqlite)

/-- The commit of a batch inside a transaction. -/
def commitTransaction (store : LeaseStore) (call : CommitCall) :
    Except LeasedCommitError (CommitResult × LeaseStore) := do
  let committed ← (SqliteLedger.commitTransaction lib sqlite store.ledger call).mapError .ledger
  return (committed.1, { store with ledger := committed.2 })

/-- A commit under an execution lease. -/
def commitLeased (store : LeaseStore) (lease : ExecutionLease) (call : CommitCall) :
    Except LeasedCommitError (CommitResult × LeaseStore) := do
  (lease.requireOwned store).mapError .lease
  store.commitTransaction lib sqlite call

/-- A commit under a schedule lease. -/
def commitScheduleLeased (store : LeaseStore) (lease : ScheduleLease) (nowMs : UInt64)
    (expectedSessionVersion : Nat) (drafts : List FactDraft) :
    Except LeasedCommitError (CommitResult × LeaseStore) := do
  (lease.requireOwned store nowMs).mapError .scheduleLease
  (lease.requireBoundFacts lib drafts).mapError .scheduleLease
  store.commitTransaction lib sqlite ⟨lease.sessionId, expectedSessionVersion, drafts⟩

/-- Answers a call. -/
def step (store : LeaseStore) (input : LeaseInput) : LeaseAnswer × LeaseStore :=
  match input.call with
  | .commit call => (transact input.completed (.ledger .storage) store
      (store.commitTransaction lib sqlite call)).map .committed id
  | .acquireExecutionLease request => (transact input.completed .storage store
      (ExecutionLease.acquire lib sqlite store request)).map .executionLease id
  | .commitLeased lease call => (transact input.completed (.ledger .storage) store
      (store.commitLeased lib sqlite lease call)).map .committed id
  | .releaseExecutionLease lease => (transact input.completed .storage store
      (ExecutionLease.release lib sqlite store lease)).map .executionReleased id
  | .acquireScheduleLease request => (transact input.completed .storage store
      (ScheduleLease.acquire lib store request)).map .scheduleLease id
  | .commitScheduleLeased lease nowMs expectedSessionVersion drafts =>
      (transact input.completed (.ledger .storage) store
        (store.commitScheduleLeased lib sqlite lease nowMs expectedSessionVersion drafts)).map
          .committed id
  | .releaseScheduleLease lease => (transact input.completed .storage store
      (ScheduleLease.release lib store lease)).map .scheduleReleased id

/-- The store as a machine that answers the calls of any number of connections, one after another. -/
def machine : Machine LeaseStore LeaseInput LeaseAnswer where
  init := {}
  step := step lib sqlite

/-! ## What a call can do -/

variable {lib sqlite} {store : LeaseStore}

/-- The changes a call can make to the store. -/
inductive Effect (lib : Externals) (sqlite : Sqlite) (store : LeaseStore) :
    LeaseCall → LeaseStore → Prop where
  | rolledBack {call : LeaseCall} : Effect lib sqlite store call store
  | committed {call : LeaseCall} {batch : CommitCall} {result : CommitResult} {next : LeaseStore}
      (h : store.commitTransaction lib sqlite batch = .ok (result, next)) :
      Effect lib sqlite store call next
  | executionGranted {request : ExecutionLeaseRequest} {lease : ExecutionLease} {next : LeaseStore}
      (h : ExecutionLease.acquire lib sqlite store request = .ok (lease, next)) :
      Effect lib sqlite store (.acquireExecutionLease request) next
  | executionReleased {lease : ExecutionLease} {next : LeaseStore}
      (h : ExecutionLease.release lib sqlite store lease = .ok ((), next)) :
      Effect lib sqlite store (.releaseExecutionLease lease) next
  | scheduleGranted {request : ScheduleLeaseRequest} {lease : ScheduleLease} {next : LeaseStore}
      (h : ScheduleLease.acquire lib store request = .ok (lease, next)) :
      Effect lib sqlite store (.acquireScheduleLease request) next
  | scheduleReleased {lease : ScheduleLease} {next : LeaseStore}
      (h : ScheduleLease.release lib store lease = .ok ((), next)) :
      Effect lib sqlite store (.releaseScheduleLease lease) next

variable {answer : CommitResult × LeaseStore}

/-- A commit under an execution lease is a commit. -/
theorem commitLeased_eq_ok {lease : ExecutionLease}
    (h : store.commitLeased lib sqlite lease call = .ok answer) :
    store.commitTransaction lib sqlite call = .ok answer := by
  simp only [commitLeased, ok_iff] at h
  exact h.2

/-- A commit under a schedule lease is a commit. -/
theorem commitScheduleLeased_eq_ok {lease : ScheduleLease} {now : UInt64} {version : Nat}
    {drafts : List FactDraft}
    (h : store.commitScheduleLeased lib sqlite lease now version drafts = .ok answer) :
    store.commitTransaction lib sqlite ⟨lease.sessionId, version, drafts⟩ = .ok answer := by
  simp only [commitScheduleLeased, ok_iff] at h
  exact h.2.2

/-- Every call has one of the effects. -/
theorem effect_step (lib : Externals) (sqlite : Sqlite) (store : LeaseStore) (input : LeaseInput) :
    Effect lib sqlite store input.call (step lib sqlite store input).2 := by
  obtain ⟨call, _⟩ := input
  cases call with
  | commit call => exact transact_induction .rolledBack fun _ _ h ↦ .committed h
  | acquireExecutionLease request =>
    exact transact_induction .rolledBack fun _ _ h ↦ .executionGranted h
  | commitLeased lease call =>
    exact transact_induction .rolledBack fun _ _ h ↦ .committed (commitLeased_eq_ok h)
  | releaseExecutionLease lease =>
    exact transact_induction .rolledBack fun _ _ h ↦ .executionReleased h
  | acquireScheduleLease request =>
    exact transact_induction .rolledBack fun _ _ h ↦ .scheduleGranted h
  | commitScheduleLeased lease now version drafts =>
    exact transact_induction .rolledBack fun _ _ h ↦ .committed (commitScheduleLeased_eq_ok h)
  | releaseScheduleLease lease =>
    exact transact_induction .rolledBack fun _ _ h ↦ .scheduleReleased h

end LeaseStore

namespace ExecutionLease

variable {lib : Externals} {sqlite : Sqlite} {store next : LeaseStore} {lease : ExecutionLease}
  {request : ExecutionLeaseRequest}

/-- A grant writes the row of its turn and nothing else. -/
theorem eq_of_acquire (h : acquire lib sqlite store request = .ok (lease, next)) :
    next = { store with
      executionLeases := store.executionLeases.insert request.turnId lease.row } := by
  simp only [acquire, ok_iff, Prod.mk.injEq] at h
  obtain ⟨-, _, -, -, _, -, -, rfl, rfl⟩ := h
  rfl

/-- The lease passes when the row of its turn names its execution, owner and token. -/
theorem requireOwned_iff : requireOwned store lease = .ok () ↔
    ∃ row : ExecutionLeaseRow, store.executionLeases[lease.turnId]? = some row ∧
      row.executionId = lease.executionId.text ∧ row.ownerId = lease.ownerId ∧
      row.leaseToken = lease.leaseToken := by
  simp only [requireOwned, ensure_eq_ok_iff, Option.any_eq_true, owns, Bool.and_eq_true, beq_iff_eq,
    and_assoc]

/-- A release removes the row of its turn and nothing else. -/
theorem eq_of_release (h : release lib sqlite store lease = .ok ((), next)) :
    next = { store with executionLeases := store.executionLeases.erase lease.turnId } := by
  simp only [release, ok_iff, Prod.mk.injEq] at h
  obtain ⟨howned, -, -, rfl⟩ := h
  obtain ⟨_, hrow, -, -, htoken⟩ := requireOwned_iff.mp howned
  simp [hrow, htoken]

end ExecutionLease

namespace ScheduleLease

variable {lib : Externals} {store next : LeaseStore} {lease : ScheduleLease}
  {request : ScheduleLeaseRequest}

/-- A grant writes the row of its schedule and nothing else. -/
theorem eq_of_acquire (h : acquire lib store request = .ok (lease, next)) :
    next = { store with scheduleLeases := store.scheduleLeases.insert lease.key lease.row } := by
  simp only [acquire, ok_iff, Prod.mk.injEq] at h
  obtain ⟨-, -, _, -, _, -, -, rfl, rfl⟩ := h
  rfl

/-- A release removes the row of its schedule and nothing else. -/
theorem eq_of_release (h : release lib store lease = .ok ((), next)) :
    next = { store with scheduleLeases := store.scheduleLeases.erase lease.key } := by
  simp only [release, ok_iff, Prod.mk.injEq] at h
  obtain ⟨_, -, -, -, -, rfl⟩ := h
  rfl

end ScheduleLease

namespace LeaseStore

variable {lib : Externals} {sqlite : Sqlite} {store : LeaseStore}

/-- A commit adds facts, takes none away, and leaves the leases. -/
theorem commitTransaction_eq_ok {next : LeaseStore}
    (h : store.commitTransaction lib sqlite call = .ok (result, next)) :
    (∃ rows, next.ledger.facts = store.ledger.facts ++ rows) ∧
      next.executionLeases = store.executionLeases ∧ next.scheduleLeases = store.scheduleLeases := by
  simp only [commitTransaction, ok_iff, Prod.mk.injEq, Prod.exists] at h
  obtain ⟨_, ledger, hcom, -, rfl⟩ := h
  exact ⟨SqliteLedger.facts_of_commitTransaction hcom, rfl, rfl⟩

/-- No call takes a fact away. -/
theorem Effect.facts {call : LeaseCall} {next : LeaseStore} (h : Effect lib sqlite store call next) :
    ∃ rows, next.ledger.facts = store.ledger.facts ++ rows := by
  cases h with
  | rolledBack => exact ⟨[], (List.append_nil _).symm⟩
  | committed h => exact (commitTransaction_eq_ok h).1
  | executionGranted h => exact ⟨[], by rw [ExecutionLease.eq_of_acquire h, List.append_nil]⟩
  | executionReleased h => exact ⟨[], by rw [ExecutionLease.eq_of_release h, List.append_nil]⟩
  | scheduleGranted h => exact ⟨[], by rw [ScheduleLease.eq_of_acquire h, List.append_nil]⟩
  | scheduleReleased h => exact ⟨[], by rw [ScheduleLease.eq_of_release h, List.append_nil]⟩

theorem Effect.ledger {call : LeaseCall} {next : LeaseStore} (h : Effect lib sqlite store call next) :
    next.ledger = store.ledger ∨ ∃ batch result,
      SqliteLedger.commitTransaction lib sqlite store.ledger batch = .ok (result, next.ledger) := by
  cases h with
  | rolledBack => exact .inl rfl
  | committed h =>
    simp only [commitTransaction, ok_iff, Prod.mk.injEq, Prod.exists] at h
    obtain ⟨_, _, hcom, rfl, rfl⟩ := h
    exact .inr ⟨_, _, hcom⟩
  | executionGranted h => exact .inl (by rw [ExecutionLease.eq_of_acquire h])
  | executionReleased h => exact .inl (by rw [ExecutionLease.eq_of_release h])
  | scheduleGranted h => exact .inl (by rw [ScheduleLease.eq_of_acquire h])
  | scheduleReleased h => exact .inl (by rw [ScheduleLease.eq_of_release h])

/-- **Leases are transparent to the ledger.** However commits, leased or plain, acquisitions and
releases interleave, the store's ledger is one that plain commits alone lead to. -/
theorem ledger_of_run (lib : Externals) (sqlite : Sqlite) (inputs : List LeaseInput) :
    (SqliteLedger.machine lib sqlite).Reachable ((machine lib sqlite).run inputs).2.ledger := by
  refine (machine lib sqlite).runFrom_induction (P := fun store ↦
    (SqliteLedger.machine lib sqlite).Reachable store.ledger)
    (Machine.reachable_init _) (fun store input h ↦ ?_) inputs
  change Machine.Reachable _ (step lib sqlite store input).2.ledger
  rcases (effect_step lib sqlite store input).ledger with hsame | ⟨batch, result, hcom⟩
  · rwa [hsame]
  · have hstep := h.step ⟨batch, true⟩
    change Machine.Reachable _ (SqliteLedger.commit lib sqlite store.ledger ⟨batch, true⟩).2 at hstep
    rwa [SqliteLedger.commit, hcom] at hstep

end LeaseStore

end Garive
