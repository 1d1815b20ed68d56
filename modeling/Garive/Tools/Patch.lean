import Garive.Lib.Except

/-!
# Patches

A patch comes in one of two texts, a unified diff or the patch block of this program, and both are
read into the same targets: paths with hunks of context, added and removed lines. A hunk is applied
where the lines it does not add occur, which must be at one place after the hunk before it.

Texts are lists of characters here; the entry points take and give strings.
-/

namespace Garive

inductive T1PatchError where
  | invalidSyntax
  | targetMissing
  | contextMismatch

inductive LineKind where
  | context
  | add
  | remove
deriving DecidableEq

structure PatchLine where
  kind : LineKind
  text : List Char
  noNewline : Bool

abbrev Hunk := List PatchLine

structure PatchTarget where
  path : List Char
  hunks : List Hunk

namespace Patch

/-! ## Texts -/

/-- `str::lines`: a line may end in a carriage return before its newline, and an empty rest after the
last newline is no line. -/
def lines (text : List Char) : List (List Char) :=
  let parts := text.splitOn '\n'
  let whole := parts.dropLast.map fun line ↦ if line.getLast? = some '\r' then line.dropLast else line
  match parts.getLast? with
  | some [] => whole
  | some last => whole ++ [last]
  | none => whole

/-- What follows a given beginning. -/
def after? (start text : List Char) : Option (List Char) :=
  if start.isPrefixOf text then some (text.drop start.length) else none

/-- What comes before a given end. -/
def before? (ending text : List Char) : Option (List Char) :=
  if ending.isSuffixOf text then some (text.take (text.length - ending.length)) else none

def startsWith (start : String) (text : List Char) : Bool := start.toList.isPrefixOf text

def containsText (part text : List Char) : Bool := text.tails.any part.isPrefixOf

/-! ## Reading -/

/-- The targets read so far and the hunk that is open. -/
structure Reading where
  targets : List PatchTarget
  currentHunk : Option Hunk

def hunkValid (hunk : Hunk) : Bool :=
  !hunk.isEmpty && hunk.any (fun line ↦ line.kind ≠ .add) && hunk.any fun line ↦ line.kind ≠ .context

/-- Closes the open hunk into the last target. -/
def finishHunk (reading : Reading) : Except T1PatchError (List PatchTarget) :=
  match reading.currentHunk with
  | none => .ok reading.targets
  | some hunk => do
    ensure (hunkValid hunk = true) .invalidSyntax
    let last ← okOr reading.targets.getLast? .invalidSyntax
    return reading.targets.dropLast ++ [{ last with hunks := last.hunks ++ [hunk] }]

/-- Starts a hunk. -/
def openHunk (reading : Reading) : Except T1PatchError Reading := do
  let targets ← finishHunk reading
  return { targets, currentHunk := some [] }

/-- Starts a target. -/
def openTarget (reading : Reading) (path : List Char) : Except T1PatchError Reading := do
  let targets ← finishHunk reading
  ensure (path ∉ targets.map (·.path)) .invalidSyntax
  return { targets := targets ++ [{ path, hunks := [] }], currentHunk := none }

/-- The last line of the open hunk has no newline. -/
def markNoNewline (reading : Reading) : Except T1PatchError Reading := do
  let hunk ← okOr reading.currentHunk .invalidSyntax
  let last ← okOr hunk.getLast? .invalidSyntax
  ensure (last.noNewline = false) .invalidSyntax
  return { reading with currentHunk := some (hunk.dropLast ++ [{ last with noNewline := true }]) }

/-- Adds a line to the open hunk. -/
def addLine (reading : Reading) (raw : List Char) : Except T1PatchError Reading := do
  let line ← match raw with
    | ' ' :: text => .ok { kind := .context, text, noNewline := false }
    | '+' :: text => .ok { kind := .add, text, noNewline := false }
    | '-' :: text => .ok { kind := .remove, text, noNewline := false }
    | _ => .error .invalidSyntax
  let hunk ← okOr reading.currentHunk .invalidSyntax
  return { reading with currentHunk := some (hunk ++ [line]) }

def noNewlineMarker : List Char := "\\ No newline at end of file".toList

/-- Closes the last hunk. Every target must have one. -/
def finishTargets (reading : Reading) : Except T1PatchError (List PatchTarget) := do
  let targets ← finishHunk reading
  ensure (targets ≠ [] ∧ targets.all (fun target ↦ !target.hunks.isEmpty) = true) .invalidSyntax
  return targets

/-! ### Patch blocks -/

def readGariveLine (reading : Reading) (raw : List Char) : Except T1PatchError Reading :=
  match after? "*** Update File: ".toList raw with
  | some path => do
    ensure (path ≠ [] ∧ path ≠ ['.']) .invalidSyntax
    openTarget reading path
  | none =>
    if raw = "@@".toList then do
      let next ← openHunk reading
      ensure (next.targets ≠ []) .invalidSyntax
      return next
    else if raw = noNewlineMarker then markNoNewline reading
    else addLine reading raw

def gariveBody? (patch : List Char) : Option (List Char) :=
  (after? "*** Begin Patch\n".toList patch).bind fun value ↦
    (before? "\n*** End Patch".toList value).or (before? "\n*** End Patch\n".toList value)

def parseGarivePatch (patch : List Char) : Except T1PatchError (List PatchTarget) := do
  let body ← okOr (gariveBody? patch) .invalidSyntax
  let reading ← (lines body).foldlM readGariveLine { targets := [], currentHunk := none }
  finishTargets reading

/-! ### Unified diffs -/

def unifiedPath (header : List Char) : Except T1PatchError (List Char) := do
  let path := header.takeWhile (· ≠ '\t')
  let path ← okOr ((after? "a/".toList path).or (after? "b/".toList path)) .invalidSyntax
  ensure (path ≠ [] ∧ path ≠ ['.'] ∧ path ≠ "/dev/null".toList) .invalidSyntax
  return path

def readUnifiedLine (reading : Reading) (raw : List Char) : Except T1PatchError Reading :=
  if startsWith "@@ " raw && containsText " @@".toList (raw.drop 3) then openHunk reading
  else if raw = noNewlineMarker then markNoNewline reading
  else addLine reading raw

/-- Reads the two headers of a target. -/
def readUnifiedHeaders (reading : Reading) (oldHeader : List Char) (rest : List (List Char)) :
    Except T1PatchError Reading := do
  let targets ← finishHunk reading
  let newHeader ← okOr rest.head? .invalidSyntax
  let newPath ← okOr (after? "+++ ".toList newHeader) .invalidSyntax
  let oldPath ← unifiedPath oldHeader
  let newPath ← unifiedPath newPath
  ensure (oldPath = newPath) .invalidSyntax
  openTarget { targets, currentHunk := none } newPath

mutual

/-- Reads the lines between targets. -/
def readUnifiedDiff (reading : Reading) (rest : List (List Char)) : Except T1PatchError Reading :=
  match rest with
  | [] => .ok reading
  | raw :: rest =>
    if startsWith "diff --git " raw then do
      let targets ← finishHunk reading
      readUnifiedDiff { targets, currentHunk := none } rest
    else
      match after? "--- ".toList raw with
      | none => .error .invalidSyntax
      | some oldHeader =>
        match readUnifiedHeaders reading oldHeader rest with
        | .error e => .error e
        | .ok next => readUnifiedHunks next rest.tail
termination_by (rest.length, 0)

/-- Reads the hunks of a target. -/
def readUnifiedHunks (reading : Reading) (rest : List (List Char)) : Except T1PatchError Reading :=
  match rest with
  | [] => .ok reading
  | raw :: rest =>
    if startsWith "diff --git " raw || startsWith "--- " raw then readUnifiedDiff reading (raw :: rest)
    else
      match readUnifiedLine reading raw with
      | .error e => .error e
      | .ok next => readUnifiedHunks next rest
termination_by (rest.length, 1)

end

def parseUnifiedDiff (patch : List Char) : Except T1PatchError (List PatchTarget) := do
  let reading ← readUnifiedDiff { targets := [], currentHunk := none } (lines patch)
  finishTargets reading

def parse (patch : List Char) : Except T1PatchError (List PatchTarget) :=
  if startsWith "*** Begin Patch\n" patch then parseGarivePatch patch else parseUnifiedDiff patch

/-! ## Applying -/

def Hunk.before (hunk : Hunk) : List (List Char) :=
  (hunk.filter fun line ↦ line.kind ≠ .add).map (·.text)

def Hunk.after (hunk : Hunk) : List (List Char) :=
  (hunk.filter fun line ↦ line.kind ≠ .remove).map (·.text)

/-- The places from the cursor on where the lines occur. -/
def positions (content : List (List Char)) (cursor : Nat) (before : List (List Char)) : List Nat :=
  (List.range (content.length - before.length + 1)).filter fun start ↦
    decide (cursor ≤ start) && decide ((content.drop start).take before.length = before)

/-- The one place where the lines occur. -/
def soleStart (content : List (List Char)) (cursor : Nat) (before : List (List Char)) :
    Except T1PatchError Nat :=
  match positions content cursor before with
  | [start] => .ok start
  | _ => .error .contextMismatch

/-- What applying hunks carries along. -/
structure Applying where
  content : List (List Char)
  cursor : Nat
  terminalNewline : Bool

/-- Checks the markers of a hunk that says the file has no newline at its end. -/
def checkNoNewline (hunk : Hunk) (final : Bool) (atEnd : Bool) (terminalNewline : Bool) :
    Except T1PatchError Unit := do
  ensure (final = true ∧ (hunk.getLast?.any (·.noNewline)) = true ∧ atEnd = true) .invalidSyntax
  ensure (¬(hunk.any (fun line ↦ line.noNewline && decide (line.kind ≠ .add)) = true ∧
    terminalNewline = true)) .contextMismatch

/-- Applies one hunk of a target to the lines so far. -/
def applyHunk (terminalNewline : Bool) (final : Bool) (applying : Applying) (hunk : Hunk) :
    Except T1PatchError Applying := do
  let before := Hunk.before hunk
  ensure (before ≠ []) .invalidSyntax
  let start ← soleStart applying.content applying.cursor before
  let unended := hunk.any (·.noNewline)
  if unended then
    checkNoNewline hunk final (start + before.length = applying.content.length) terminalNewline
  else pure ()
  return {
    content := applying.content.take start ++ Hunk.after hunk ++
      applying.content.drop (start + before.length)
    cursor := start + (Hunk.after hunk).length
    terminalNewline := applying.terminalNewline && !unended }

def applyHunks (terminalNewline : Bool) : List Hunk → Applying → Except T1PatchError Applying
  | [], applying => .ok applying
  | hunk :: rest, applying => do
    let next ← applyHunk terminalNewline rest.isEmpty applying hunk
    applyHunks terminalNewline rest next

/-- The lines of a file. A newline at its end starts no line. -/
def contentLines (current : List Char) : List (List Char) :=
  if current = [] then []
  else ((before? ['\n'] current).getD current).splitOn '\n'

def joinLines (content : List (List Char)) : List Char := ['\n'].intercalate content

def apply (patch path current : List Char) : Except T1PatchError (List Char) := do
  let targets ← parse patch
  let target ← okOr (targets.find? (·.path = path)) .targetMissing
  let terminalNewline := decide (current.getLast? = some '\n')
  let applied ← applyHunks terminalNewline target.hunks
    { content := contentLines current, cursor := 0, terminalNewline }
  return joinLines applied.content ++ (if applied.terminalNewline then ['\n'] else [])

end Patch

/-- Applies the hunks of one target to the text of its file. -/
def applyT1Patch (patch path current : String) : Except T1PatchError String :=
  (Patch.apply patch.toList path.toList current.toList).map String.ofList

end Garive
