import Garive.Json.Build
import Garive.Ledger.Types
import Garive.Lib.Files
import Garive.Tools.Patch

/-!
# The patch executor

A patch is carried out in three phases. First every target is read and checked, and its patched text
is computed; nothing is written. Then a journal is published in the recovery directory and the
patched texts are staged under temporary names beside their targets. Last the staged files are
renamed over the targets, one after another. A later call for the same invocation finds the journal
and goes on with the last phase.

The digest of bytes and the reader and writer of journals are parameters (`PatchLib`).
-/

namespace Garive

open Files

inductive PatchFailure where
  | notFound
  | accessDenied
  | nonUtf8
  | boundExceeded
  | contentChanged
  | conflict
  /-- The only failure that is not reported as one: the state is unknown. -/
  | uncertain

structure JournalFile where
  path : String
  beforeDigest : String
  afterDigest : String
  temporaryName : String

structure PatchJournal where
  invocationId : String
  preparedDigest : String
  files : List JournalFile
  receiptDigest : String

structure PatchLib extends Externals where
  /-- The lowercase hexadecimal SHA-256 digest of bytes. -/
  digest : ByteArray → String
  /-- `serde_json::to_vec`. -/
  journalBytes : PatchJournal → Option ByteArray
  /-- `serde_json::from_slice`. -/
  journalOf : ByteArray → Option PatchJournal

/-- The two directories the executor holds. -/
inductive PatchRoot where
  | workspace
  | recovery
deriving DecidableEq

/-- The parts of a path. -/
def pathParts (path : String) : List String := (path.toList.splitOn '/').map String.ofList

/-- A path as access keys are: relative and without empty or dotted parts. -/
def CanonicalPath (path : String) : Prop :=
  ∀ part ∈ pathParts path, part ≠ "" ∧ part ≠ "." ∧ part ≠ ".."

/-- The digests the targets of a patch are expected to have, by path. -/
structure ExpectedFiles where
  entries : List (String × String)
  nodup : (entries.map Prod.fst).Nodup
  canonical : ∀ entry ∈ entries, CanonicalPath entry.1

/-- An authorized patch of one invocation. -/
structure PatchOperation where
  invocation : String
  preparedDigest : String
  patch : String
  expected : ExpectedFiles
  resultBound : Nat

def maxFileBytes : Nat := 1048576

def maxJournalBytes : Nat := 2097152

def mapErrno : Errno → PatchFailure
  | .noEntry => .notFound
  | .other => .accessDenied

/-- A part of the executor. -/
abbrev Patching (α : Type) := Files.FileProgram PatchRoot PatchFailure α

namespace Patching

open Program

def workspaceRoot : Location PatchRoot := { root := .workspace, path := [] }

def recoveryRoot : Location PatchRoot := { root := .recovery, path := [] }

/-- Leaves with a failure unless the condition holds. -/
def require (condition : Bool) (failure : PatchFailure) : Patching Unit :=
  if condition then pure () else throw failure

def check {α : Type} (result : Except PatchFailure α) : Patching α :=
  match result with
  | .ok a => pure a
  | .error e => throw e

/-- Reports every failure as one that leaves the state unknown. -/
def orUncertain {α : Type} (p : Patching α) : Patching α := mapFailure (fun _ ↦ .uncertain) p

/-! ## Reading -/

/-- The name must be listed. -/
def listed (directory : Location PatchRoot) (name : String) : Patching Unit := do
  let found ← list mapErrno directory name
  require found .notFound

def enter : Location PatchRoot → List String → Patching (Location PatchRoot)
  | directory, [] => pure directory
  | directory, part :: rest => do
    listed directory part
    openDirectory mapErrno directory part
    enter (directory.child part) rest

def openParent (path : String) : Patching (Location PatchRoot × String) := do
  let parts := pathParts path
  let name ← check (okOr parts.getLast? .accessDenied)
  let directory ← enter workspaceRoot parts.dropLast
  listed directory name
  return (directory, name)

def readRegular (directory : Location PatchRoot) (name : String) : Patching ByteArray := do
  listed directory name
  let content ← read mapErrno directory name
  let bytes ← check (okOr content .accessDenied)
  require (bytes.size ≤ maxFileBytes) .boundExceeded
  return bytes

/-- Opens a path and reads what is there. -/
def readTarget (path : String) : Patching (Location PatchRoot × String × ByteArray) := do
  let (parent, name) ← openParent path
  let current ← readRegular parent name
  return (parent, name, current)

/-! ## Writing -/

def writeNew (directory : Location PatchRoot) (name : String) (content : ByteArray) : Patching Unit := do
  create mapErrno directory name
  write (fun _ ↦ .accessDenied) directory name content
  sync (fun _ ↦ .accessDenied) directory name

/-! ## Journals -/

section Journals

variable (lib : PatchLib)

/-- The journal in a file, where a file that cannot be found is no journal. -/
def readNamedJournal (name : String) : Patching (Option PatchJournal) := do
  match ← list mapErrno recoveryRoot name with
  | false => pure none
  | true => do
    match ← (monadLift (read id recoveryRoot name).run :
        Patching (Except Errno (Option ByteArray))) with
    | .error .noEntry => pure none
    | .error .other => throw .accessDenied
    | .ok content => do
      let bytes ← check (okOr content .uncertain)
      require (bytes.size ≤ maxJournalBytes) .uncertain
      let journal ← check (okOr (lib.journalOf bytes) .uncertain)
      return some journal

def temporaryOf (name : String) : String := name ++ ".tmp"

/-- Gives the file written under the temporary name its own name. -/
def publish (name : String) : Patching Unit := do
  link mapErrno recoveryRoot (temporaryOf name) name
  unlink mapErrno recoveryRoot (temporaryOf name)
  syncDirectory mapErrno recoveryRoot

def readJournal (name : String) : Patching (Option PatchJournal) := do
  match ← readNamedJournal lib name with
  | some journal => pure (some journal)
  | none => do
    match ← readNamedJournal lib (temporaryOf name) with
    | none => pure none
    | some journal => do
      publish name
      return some journal

def writeJournal (name : String) (journal : PatchJournal) : Patching Unit := do
  let bytes ← check (okOr (lib.journalBytes journal) .uncertain)
  writeNew recoveryRoot (temporaryOf name) bytes
  publish name

def fileJson (file : JournalFile) : Value :=
  json [("path", .string file.path), ("before_digest", .string file.beforeDigest),
    ("after_digest", .string file.afterDigest)]

def receiptDigest (files : List JournalFile) : Except PatchFailure String := do
  let payload ← (CanonicalPayload.fromValue lib.toExternals
    (json [("files", .array (files.map fileJson))])).mapError fun _ ↦ .uncertain
  return payload.sha256

def journalResult (journal : PatchJournal) : Value :=
  json [("files", .array (journal.files.map fileJson)),
    ("receipt_digest", .string journal.receiptDigest)]

def bounded (value : Value) (bound : Nat) : Except PatchFailure Value := do
  let payload ← (CanonicalPayload.fromValue lib.toExternals value).mapError fun _ ↦ .boundExceeded
  ensure (payload.json.utf8ByteSize ≤ bound) .boundExceeded
  return value

def isDigest (value : String) : Bool :=
  value.utf8ByteSize = 64 && value.toList.all fun c ↦ c.isDigit || ('a' ≤ c && c ≤ 'f')

def shortDigest (text : String) : String := String.ofList ((lib.digest text.toUTF8).toList.take 24)

def journalName (key : String) : String := ".garive-patch-" ++ key ++ ".journal"

def temporaryName (key : String) (index : Nat) : String :=
  ".garive-patch-" ++ key ++ "-" ++ toString index ++ ".tmp"

/-- Checks one file of a journal against what is expected of it. -/
def journalFileValid (key : String) (entry : (JournalFile × String × String) × Nat) : Bool :=
  let ((file, path, beforeDigest), index) := entry
  decide (file.path = path) && decide (file.beforeDigest = beforeDigest) &&
    isDigest file.afterDigest && decide (file.temporaryName = temporaryName key index)

def validateJournal (journal : PatchJournal) (operation : PatchOperation) (key : String) :
    Except PatchFailure Unit := do
  ensure (journal.invocationId = operation.invocation ∧
    journal.preparedDigest = operation.preparedDigest ∧
    journal.files.length = operation.expected.entries.length ∧
    isDigest journal.receiptDigest = true) .uncertain
  ensure ((journal.files.zip operation.expected.entries).zipIdx.all (journalFileValid key) = true)
    .uncertain
  let digest ← receiptDigest lib journal.files
  ensure (digest = journal.receiptDigest) .uncertain

/-! ## Phases -/

/-- A target that is checked: its journal entry, its directory and its patched text. -/
structure StagedFile where
  file : JournalFile
  parent : Location PatchRoot
  content : ByteArray

def utf8Of (content : ByteArray) (failure : PatchFailure) : Except PatchFailure String :=
  okOr (String.fromUTF8? content) failure

def patched (patch path current : String) (failure : PatchFailure) : Except PatchFailure String :=
  (applyT1Patch patch path current).mapError fun _ ↦ failure

/-- The patched text of a target whose content is the expected one. -/
def stagedText (patch path expectedDigest : String) (current : ByteArray) :
    Except PatchFailure String := do
  ensure (lib.digest current = expectedDigest) .contentChanged
  let current ← utf8Of current .nonUtf8
  let next ← patched patch path current .conflict
  ensure (next.utf8ByteSize ≤ maxFileBytes) .boundExceeded
  return next

/-- Reads and checks one target. -/
def stageTarget (key patch : String) (entry : (String × String) × Nat) : Patching StagedFile := do
  let ((path, expectedDigest), index) := entry
  let (parent, _, current) ← readTarget path
  let next ← check (stagedText lib patch path expectedDigest current)
  return {
    file := {
      path
      beforeDigest := lib.digest current
      afterDigest := lib.digest next.toUTF8
      temporaryName := temporaryName key index }
    parent
    content := next.toUTF8 }

def stageTargets (key patch : String) : List ((String × String) × Nat) → Patching (List StagedFile)
  | [] => pure []
  | entry :: rest => do
    let staged ← stageTarget lib key patch entry
    let others ← stageTargets key patch rest
    return staged :: others

def writeStaged : List StagedFile → Patching Unit
  | [] => pure ()
  | staged :: rest => do
    orUncertain (writeNew staged.parent staged.file.temporaryName staged.content)
    writeStaged rest

def prepareJournal (operation : PatchOperation) (key : String) : Patching PatchJournal := do
  let staged ← stageTargets lib key operation.patch operation.expected.entries.zipIdx
  let files := staged.map (·.file)
  let digest ← check (receiptDigest lib files)
  let journal : PatchJournal := {
    invocationId := operation.invocation
    preparedDigest := operation.preparedDigest
    files
    receiptDigest := digest }
  orUncertain (writeJournal lib (journalName key) journal)
  writeStaged staged
  return journal

/-- The patched bytes of a target, which must be those of the journal. -/
def expectedBytes (patch : String) (file : JournalFile) (current : ByteArray) :
    Except PatchFailure ByteArray := do
  ensure (lib.digest current = file.beforeDigest) .uncertain
  let current ← utf8Of current .uncertain
  let next ← patched patch file.path current .uncertain
  ensure (lib.digest next.toUTF8 = file.afterDigest) .uncertain
  return next.toUTF8

/-- The staged file must be there or is written again. -/
def ensureStaged (parent : Location PatchRoot) (file : JournalFile) (expected : ByteArray) :
    Patching Unit := do
  match ← (monadLift (readRegular parent file.temporaryName).run :
      Patching (Except PatchFailure ByteArray)) with
  | .ok temporary => require (lib.digest temporary = file.afterDigest) .uncertain
  | .error .notFound => writeNew parent file.temporaryName expected
  | .error _ => throw .uncertain

def finishFile (patch : String) (file : JournalFile) : Patching Unit := do
  let (parent, name, current) ← readTarget file.path
  if lib.digest current = file.afterDigest then
    pure ()
  else do
    let expected ← check (expectedBytes lib patch file current)
    ensureStaged lib parent file expected
    rename mapErrno parent file.temporaryName name
    syncDirectory mapErrno parent

def finishJournal (patch : String) : List JournalFile → Patching Unit
  | [] => pure ()
  | file :: rest => do
    finishFile lib patch file
    finishJournal patch rest

/-- The journal of the invocation: the one that is there, or a new one. -/
def obtainJournal (operation : PatchOperation) (key : String) : Patching PatchJournal := do
  match ← orUncertain (readJournal lib (journalName key)) with
  | some journal => do
    check (validateJournal lib journal operation key)
    return journal
  | none => prepareJournal lib operation key

def executePatch (operation : PatchOperation) : Patching Value := do
  let journal ← obtainJournal lib operation (shortDigest lib operation.invocation)
  orUncertain (finishJournal lib operation.patch journal.files)
  check (bounded lib (journalResult journal) operation.resultBound)

end Journals

end Patching

end Garive
