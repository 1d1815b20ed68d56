import Garive.Ledger.State
import Garive.Lib.BigEndian

/-!
# The SQLite store of the ledger

The store keeps one row per session and one row per fact. A commit loads the whole ledger from the
rows, commits to it in memory, and writes the batch back in the same transaction; whatever fails
rolls the transaction back. Loading replays the stored batches: rows come ordered by session,
version and position, and every run of rows with one session and one version is a batch.

Counters are stored as eight big-endian bytes, so that the order of the blobs is the order of the
numbers.

## SQLite

What SQLite itself does is a parameter. `Sqlite.select` is the ordered read of the fact table, and
`Sqlite.maxRows` the number of rows beyond which an insertion fails; a call says whether SQLite
completed its transaction, which stands for constraint violations, locks and input/output errors.
-/

namespace Garive

/-! ## Rows -/

/-- A row of the fact table. -/
structure StoredFact where
  sessionId : String
  position : List UInt8
  commitVersion : List UInt8
  factId : String
  turnId : Option String
  executionId : Option String
  modelRequestId : Option String
  toolInvocationId : Option String
  kind : String
  schemaVersion : Int
  payloadJson : String
  payloadSha256 : String
  recordedAt : String
deriving DecidableEq

/-- A row of the session table. -/
structure SessionRow where
  sessionId : String
  version : List UInt8
  maxPosition : List UInt8
deriving DecidableEq

/-- The two tables of the ledger. -/
structure Database where
  sessions : List SessionRow := []
  facts : List StoredFact := []

/-- The order of `ORDER BY session_id, commit_version, position`: text and blobs compare byte by
byte. -/
def StoredFact.Precedes (a b : StoredFact) : Prop :=
  a.sessionId < b.sessionId ∨ a.sessionId = b.sessionId ∧
    (a.commitVersion < b.commitVersion ∨ a.commitVersion = b.commitVersion ∧
      a.position ≤ b.position)

/-- What the store takes from SQLite. -/
structure Sqlite where
  /-- The rows of the fact table, ordered by session, commit version and position. -/
  select : List StoredFact → List StoredFact
  /-- The number of rows a table can hold. -/
  maxRows : Nat

/-- What SQLite promises: a query returns every row once and in order, and a table runs full before
its row count leaves the range of a position. -/
structure Sqlite.Documented (sqlite : Sqlite) : Prop where
  select_perm (rows : List StoredFact) : (sqlite.select rows).Perm rows
  select_sorted (rows : List StoredFact) : (sqlite.select rows).Pairwise StoredFact.Precedes
  maxRows_lt : sqlite.maxRows < 2 ^ 64 - 1

/-- Failures of the store. -/
inductive SqliteLedgerError where
  /-- A submitted operation violated the ledger contract. -/
  | domain (reason : LedgerError)
  /-- Persisted rows could not reconstruct a valid ledger state. -/
  | corruptLedger (reason : LedgerError)
  /-- SQLite returned an error. -/
  | storage
  /-- A stored identity, counter, or row coordinate was invalid. -/
  | invalidStoredValue (field : String)
deriving DecidableEq

/-! ## Encoding and decoding -/

namespace SqliteLedger

variable (lib : Externals) (sqlite : Sqlite)

def encodeU64 (value : Nat) : List UInt8 := bigEndian 8 value

def decodeU64 (value : List UInt8) (field : String) : Except SqliteLedgerError Nat :=
  if value.length = 8 then .ok (ofBigEndian value) else .error (.invalidStoredValue field)

def identity {label : String} (value field : String) :
    Except SqliteLedgerError (LedgerIdentity label) :=
  okOr (LedgerIdentity.tryFrom value) (.invalidStoredValue field)

def optionalIdentity {label : String} (value : Option String) (field : String) :
    Except SqliteLedgerError (Option (LedgerIdentity label)) :=
  match value with
  | none => .ok none
  | some text => do
    let found ← identity text field
    return some found

/-- The row of a draft at a position of a session, written by the commit with a version. -/
def encodeDraft (sessionId : SessionId) (version position : Nat) (draft : FactDraft) :
    StoredFact where
  sessionId := sessionId.text
  position := encodeU64 position
  commitVersion := encodeU64 version
  factId := draft.factId.text
  turnId := draft.turnId.map (·.text)
  executionId := draft.executionId.map (·.text)
  modelRequestId := draft.modelRequestId.map (·.text)
  toolInvocationId := draft.toolInvocationId.map (·.text)
  kind := draft.kind.text
  schemaVersion := draft.schemaVersion.toNat
  payloadJson := draft.payload.json
  payloadSha256 := draft.payload.sha256
  recordedAt := draft.recordedAt

/-- A stored schema version as a `u32`. -/
def decodeSchemaVersion (value : Int) : Option UInt32 :=
  if 0 ≤ value ∧ value < 2 ^ 32 then some (UInt32.ofNat value.toNat) else none

/-- The draft of a row. -/
def decodeDraft (value : StoredFact) : Except SqliteLedgerError FactDraft := do
  let schemaVersion ← okOr (decodeSchemaVersion value.schemaVersion)
    (.invalidStoredValue "schema_version")
  let payload ← (CanonicalPayload.fromCanonicalParts lib value.payloadJson
    value.payloadSha256).mapError fun reason ↦ .corruptLedger (.corruption reason)
  let factId ← identity value.factId "fact_id"
  let turnId ← optionalIdentity value.turnId "turn_id"
  let executionId ← optionalIdentity value.executionId "execution_id"
  let modelRequestId ← optionalIdentity value.modelRequestId "model_request_id"
  let toolInvocationId ← optionalIdentity value.toolInvocationId "tool_invocation_id"
  let kind ← okOr (FactKind.new value.kind) (.corruptLedger .invalidFact)
  return { factId, turnId, executionId, modelRequestId, toolInvocationId, kind, schemaVersion
           payload, recordedAt := value.recordedAt }

/-! ## Loading -/

/-- Commits one stored batch, which has to come out at its stored version. -/
def applyGroup (state : LedgerState) (session : SessionId) (version : Nat)
    (drafts : List FactDraft) : Except SqliteLedgerError LedgerState := do
  ensure (version ≠ 0) (.invalidStoredValue "commit_version")
  match state.commit lib session (version - 1) drafts with
  | (.error reason, _) => .error (.corruptLedger reason)
  | (.ok result, next) =>
    if result.disposition = .committed ∧ result.sessionVersion = version then .ok next
    else .error (.invalidStoredValue "commit_version")

/-- The variables of the loop over the rows. -/
structure LoadState where
  state : LedgerState := {}
  /-- The session of the batch being collected. -/
  groupSession : Option SessionId := none
  groupVersion : Nat := 0
  group : List FactDraft := []
  expectedPosition : Nat := 1

/-- Commits the collected batch when a row of another batch comes up. -/
def closeGroup (loop : LoadState) (session : SessionId) (version : Nat) :
    Except SqliteLedgerError LoadState :=
  match loop.groupSession with
  | none => .ok loop
  | some current =>
    if current ≠ session ∨ loop.groupVersion ≠ version then do
      let state ← applyGroup lib loop.state current loop.groupVersion loop.group
      return { loop with
        state
        groupSession := none
        group := []
        expectedPosition := if current ≠ session then 1 else loop.expectedPosition }
    else .ok loop

/-- Starts a batch unless one is being collected. -/
def openGroup (loop : LoadState) (session : SessionId) (version : Nat) : LoadState :=
  if loop.groupSession.isNone then
    { loop with groupSession := some session, groupVersion := version }
  else loop

/-- One round of the loop. -/
def loadRow (loop : LoadState) (row : StoredFact) : Except SqliteLedgerError LoadState := do
  let session ← identity row.sessionId "session_id"
  let version ← decodeU64 row.commitVersion "commit_version"
  let position ← decodeU64 row.position "position"
  let closed ← closeGroup lib loop session version
  let opened := openGroup closed session version
  ensure (position = opened.expectedPosition) (.invalidStoredValue "position")
  let expectedPosition ← okOr (checkedAdd position 1) (.invalidStoredValue "position")
  let draft ← decodeDraft lib row
  return { opened with expectedPosition, group := opened.group ++ [draft] }

/-- The loop over the rows. -/
def loadRows (loop : LoadState) : List StoredFact → Except SqliteLedgerError LoadState
  | [] => .ok loop
  | row :: rest => do
    let next ← loadRow lib loop row
    loadRows next rest

/-- Commits the batch collected last, if there is one. -/
def finishGroup (loop : LoadState) : Except SqliteLedgerError LedgerState :=
  match loop.groupSession with
  | some session => applyGroup lib loop.state session loop.groupVersion loop.group
  | none => .ok loop.state

/-- Checks a session row against the loaded state. -/
def verifySessionRow (state : LedgerState) (row : SessionRow) : Except SqliteLedgerError Unit := do
  let session ← identity row.sessionId "session_id"
  let version ← decodeU64 row.version "version"
  let maxPosition ← decodeU64 row.maxPosition "max_position"
  ensure (state.sessions[session]?.map (·.version) = some version
    ∧ (state.session session).facts.length = maxPosition) (.invalidStoredValue "session projection")

/-- Loads the whole ledger from the tables. -/
def loadStateSnapshot (db : Database) : Except SqliteLedgerError LedgerState := do
  let loop ← loadRows lib {} (sqlite.select db.facts)
  let state ← finishGroup lib loop
  checkAll (verifySessionRow state) db.sessions
  return state

/-! ## Committing -/

/-- `INSERT OR IGNORE` of a session's first row. -/
def insertSession (rows : List SessionRow) (session : SessionId) : List SessionRow :=
  if rows.any (·.sessionId == session.text) then rows
  else rows ++ [⟨session.text, encodeU64 0, encodeU64 0⟩]

/-- The rows an update of a session at a version applies to. -/
def updates (session : SessionId) (version : Nat) (row : SessionRow) : Bool :=
  row.sessionId == session.text && row.version == encodeU64 version

/-- The update of a session's version and last position. -/
def updateSession (rows : List SessionRow) (session : SessionId) (expected version position : Nat) :
    List SessionRow :=
  rows.map fun row ↦
    if updates session expected row then
      { row with version := encodeU64 version, maxPosition := encodeU64 position }
    else row

/-- The arguments of a commit, and whether SQLite completed its transaction. -/
structure Call extends CommitCall where
  completed : Bool

/-- What a commit's transaction decides before SQLite completes it. -/
def commitTransaction (db : Database) (call : CommitCall) :
    Except SqliteLedgerError (CommitResult × Database) := do
  let state ← loadStateSnapshot lib sqlite db
  let result ← (state.commit lib call.sessionId call.expectedSessionVersion
    call.drafts).1.mapError .domain
  if result.disposition = .replayed then return (result, db)
  else do
    let sessions := insertSession db.sessions call.sessionId
    let maxPosition ← okOr result.positions.getLast? (.invalidStoredValue "commit positions")
    ensure (sessions.countP (updates call.sessionId call.expectedSessionVersion) = 1)
      (.domain .concurrentModification)
    let rows := (call.drafts.zip result.positions).map fun (draft, position) ↦
      encodeDraft call.sessionId result.sessionVersion position draft
    ensure ((db.facts ++ rows).length ≤ sqlite.maxRows) .storage
    return (result,
      { sessions := updateSession sessions call.sessionId call.expectedSessionVersion
          result.sessionVersion maxPosition
        facts := db.facts ++ rows })

/-- Commits a batch in one transaction, which is rolled back unless it completes. -/
def commit (db : Database) (call : Call) : Except SqliteLedgerError CommitResult × Database :=
  match commitTransaction lib sqlite db call.toCommitCall with
  | .error reason => (.error reason, db)
  | .ok (result, next) => if call.completed then (.ok result, next) else (.error .storage, db)

/-- The store as a machine that answers commits. -/
def machine : Machine Database Call (Except SqliteLedgerError CommitResult) where
  init := {}
  step := commit lib sqlite

end SqliteLedger

end Garive
