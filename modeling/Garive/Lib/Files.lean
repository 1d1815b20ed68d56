import Garive.Lib.Runs

/-!
# Files

A disk has several roots, and at each path under a root a directory, a file, something else or
nothing. Programs use it through open directories and single names, one system call at a time. Every
call is atomic: it does what the disk says (`Disk.respond`), or it fails without effect
(`fileWorld`). Spontaneous failures are never reported as a missing entry.

For each call there is one lemma that says when it succeeds and what the disk is afterwards.
-/

namespace Garive

inductive FileNode where
  | directory
  | file (content : ByteArray)
  /-- A link, a device, and so on. -/
  | special

/-- The bytes of a regular file. -/
def FileNode.content? : FileNode → Option ByteArray
  | file content => some content
  | _ => none

structure Location (ρ : Type) where
  root : ρ
  path : List String
deriving DecidableEq

/-- The entry of a directory under a name. -/
def Location.child {ρ : Type} (directory : Location ρ) (name : String) : Location ρ :=
  { directory with path := directory.path ++ [name] }

theorem Location.child_inj {ρ : Type} {a b : Location ρ} {m n : String} :
    a.child m = b.child n ↔ a = b ∧ m = n := by
  cases a
  cases b
  simp [Location.child, and_assoc]

inductive Errno where
  | noEntry
  | other

/-- System calls on an open directory. -/
inductive FileCall (ρ : Type) where
  /-- Looks for a name in the listing. -/
  | list (directory : Location ρ) (name : String)
  | openDirectory (directory : Location ρ) (name : String)
  /-- Opens without following links and reads; gives nothing for what is no regular file. -/
  | read (directory : Location ρ) (name : String)
  /-- Creates an empty file that must not be there. -/
  | create (directory : Location ρ) (name : String)
  | write (directory : Location ρ) (name : String) (content : ByteArray)
  | sync (directory : Location ρ) (name : String)
  | link (directory : Location ρ) (old new : String)
  | unlink (directory : Location ρ) (name : String)
  | rename (directory : Location ρ) (old new : String)
  | syncDirectory (directory : Location ρ)

def FileCall.Value {ρ : Type} : FileCall ρ → Type
  | list .. => Bool
  | read .. => Option ByteArray
  | _ => Unit

def filePorts (ρ : Type) : Interface where
  Call := FileCall ρ
  Answer call := Except Errno call.Value

abbrev Disk (ρ : Type) := Location ρ → Option FileNode

variable {ρ : Type} [DecidableEq ρ]

namespace Disk

/-- The disk with a file in a place. -/
def put (disk : Disk ρ) (location : Location ρ) (content : ByteArray) : Disk ρ :=
  Function.update disk location (some (.file content))

def remove (disk : Disk ρ) (location : Location ρ) : Disk ρ := Function.update disk location none

@[simp] theorem put_self (disk : Disk ρ) (location : Location ρ) (content : ByteArray) :
    disk.put location content location = some (.file content) := by simp [put]

variable {location other : Location ρ}

theorem put_of_ne {disk : Disk ρ} {content : ByteArray} (h : other ≠ location) :
    disk.put location content other = disk other := by
  simp [put, h]

theorem put_eq_self {disk : Disk ρ} {content : ByteArray} (h : disk location = some (.file content)) :
    disk.put location content = disk := by
  rw [put, ← h, Function.update_eq_self]

@[simp] theorem put_put (disk : Disk ρ) (location : Location ρ) (content other : ByteArray) :
    (disk.put location content).put location other = disk.put location other := by
  simp [put]

@[simp] theorem remove_self (disk : Disk ρ) (location : Location ρ) :
    disk.remove location location = none := by simp [remove]

@[simp] theorem remove_put (disk : Disk ρ) (location : Location ρ) (content : ByteArray) :
    (disk.put location content).remove location = disk.remove location := by
  simp [put, remove]

theorem remove_of_ne {disk : Disk ρ} (h : other ≠ location) :
    disk.remove location other = disk other := by
  simp [remove, h]

/-- What a system call does when it does not fail by itself. -/
def respond (disk : Disk ρ) : (call : FileCall ρ) → Except Errno call.Value × Disk ρ
  | .list directory name => (.ok (disk (directory.child name)).isSome, disk)
  | .openDirectory directory name =>
    match disk (directory.child name) with
    | some .directory => (.ok (), disk)
    | some _ => (.error .other, disk)
    | none => (.error .noEntry, disk)
  | .read directory name =>
    match disk (directory.child name) with
    | some node => (.ok node.content?, disk)
    | none => (.error .noEntry, disk)
  | .create directory name =>
    match disk (directory.child name) with
    | some _ => (.error .other, disk)
    | none => (.ok (), disk.put (directory.child name) .empty)
  | .write directory name content =>
    match disk (directory.child name) with
    | some (.file _) => (.ok (), disk.put (directory.child name) content)
    | _ => (.error .other, disk)
  | .sync _ _ => (.ok (), disk)
  | .link directory old new =>
    match disk (directory.child old), disk (directory.child new) with
    | some (.file content), none => (.ok (), disk.put (directory.child new) content)
    | none, _ => (.error .noEntry, disk)
    | _, _ => (.error .other, disk)
  | .unlink directory name =>
    match disk (directory.child name) with
    | some (.file _) => (.ok (), disk.remove (directory.child name))
    | none => (.error .noEntry, disk)
    | _ => (.error .other, disk)
  | .rename directory old new =>
    match disk (directory.child old), disk (directory.child new) with
    | some (.file _), some .directory => (.error .other, disk)
    | some (.file content), _ =>
      (.ok (), (disk.remove (directory.child old)).put (directory.child new) content)
    | none, _ => (.error .noEntry, disk)
    | _, _ => (.error .other, disk)
  | .syncDirectory _ => (.ok (), disk)

/-- A call that fails leaves the disk as it was. -/
theorem eq_of_respond_eq_error {disk after : Disk ρ} {call : FileCall ρ} {e : Errno}
    (h : disk.respond call = (.error e, after)) : after = disk := by
  cases call <;> simp only [respond] at h <;> (try split at h) <;> simp_all

end Disk

/-- Every call does what the disk says, or fails without effect. -/
def fileWorld : World (filePorts ρ) (Disk ρ) := fun disk call answer after ↦
  disk.respond call = (answer, after) ∨ (answer = .error .other ∧ after = disk)

/-! ## Calls -/

open Program

variable {ε : Type}

/-- Makes a system call, and leaves with its error. -/
def perform (onError : Errno → ε) (call : FileCall ρ) : ExceptT ε (Program (filePorts ρ)) call.Value := do
  match ← (ask (I := filePorts ρ) call : Program (filePorts ρ) (Except Errno call.Value)) with
  | .ok value => pure value
  | .error e => throw (onError e)

namespace Files

/-- Programs over the disk. -/
abbrev FileProgram (ρ ε α : Type) := ExceptT ε (Program (filePorts ρ)) α

variable (onError : Errno → ε) (directory : Location ρ)

def list (name : String) : FileProgram ρ ε Bool := perform onError (.list directory name)

def openDirectory (name : String) : FileProgram ρ ε Unit := perform onError (.openDirectory directory name)

def read (name : String) : FileProgram ρ ε (Option ByteArray) := perform onError (.read directory name)

def create (name : String) : FileProgram ρ ε Unit := perform onError (.create directory name)

def write (name : String) (content : ByteArray) : FileProgram ρ ε Unit :=
  perform onError (.write directory name content)

def sync (name : String) : FileProgram ρ ε Unit := perform onError (.sync directory name)

def link (old new : String) : FileProgram ρ ε Unit := perform onError (.link directory old new)

def unlink (name : String) : FileProgram ρ ε Unit := perform onError (.unlink directory name)

def rename (old new : String) : FileProgram ρ ε Unit := perform onError (.rename directory old new)

def syncDirectory : FileProgram ρ ε Unit := perform onError (.syncDirectory directory)

end Files

section Calls

open Files

variable {onError : Errno → ε} {disk after : Disk ρ} {call : FileCall ρ} {directory : Location ρ}
  {name old new : String} {content : ByteArray} {e : ε}

theorem succeeds_perform {value : call.Value} :
    Succeeds fileWorld disk (perform onError call) value after ↔
      disk.respond call = (.ok value, after) := by
  simp only [perform, succeeds_bind, succeeds_lift]
  constructor
  · rintro ⟨_ | value, _, hcall, h⟩
    · exact absurd h succeeds_throw
    · obtain ⟨rfl, rfl⟩ := succeeds_pure.mp h
      exact (runs_ask_iff.mp hcall).resolve_right fun h ↦ nomatch h.1
  · intro h
    exact ⟨.ok value, after, runs_ask_iff.mpr (.inl h), succeeds_pure.mpr ⟨rfl, rfl⟩⟩

theorem fails_perform : Fails fileWorld disk (perform onError call) e after ↔ ∃ errno,
    e = onError errno ∧ (disk.respond call = (.error errno, after) ∨ errno = .other ∧ after = disk) := by
  simp only [perform, fails_bind, succeeds_lift, fails_lift, false_or]
  constructor
  · rintro ⟨errno | _, _, hcall, h⟩
    · obtain ⟨rfl, rfl⟩ := fails_throw.mp h
      refine ⟨errno, rfl, (runs_ask_iff.mp hcall).imp_right ?_⟩
      rintro ⟨herror, hafter⟩
      exact ⟨Except.error.inj herror, hafter⟩
    · exact absurd h fails_pure
  · rintro ⟨errno, rfl, h⟩
    refine ⟨.error errno, after, runs_ask_iff.mpr (h.imp_right ?_), fails_throw.mpr ⟨rfl, rfl⟩⟩
    rintro ⟨rfl, hafter⟩
    exact ⟨rfl, hafter⟩

theorem eq_of_fails_perform (h : Fails fileWorld disk (perform onError call) e after) :
    after = disk := by
  obtain ⟨_, -, h | h⟩ := fails_perform.mp h
  · exact Disk.eq_of_respond_eq_error h
  · exact h.2

/-- Only what is not there is reported as missing. -/
theorem of_fails_read (h : Fails fileWorld disk (read onError directory name) e after) :
    e = onError .other ∨ (e = onError .noEntry ∧ disk (directory.child name) = none) := by
  obtain ⟨_, rfl, h | ⟨rfl, -⟩⟩ := fails_perform.mp h
  · rw [Disk.respond] at h
    split at h
    · cases h
    · cases h
      exact .inr ⟨rfl, ‹_›⟩
  · exact .inl rfl

theorem succeeds_list {found : Bool} :
    Succeeds fileWorld disk (list onError directory name) found after ↔
      found = (disk (directory.child name)).isSome ∧ after = disk := by
  refine succeeds_perform.trans ⟨?_, ?_⟩
  · rintro ⟨⟩
    exact ⟨rfl, rfl⟩
  · rintro ⟨rfl, rfl⟩
    rfl

variable {u : Unit}

theorem succeeds_openDirectory :
    Succeeds fileWorld disk (openDirectory onError directory name) u after ↔
      disk (directory.child name) = some .directory ∧ after = disk := by
  refine succeeds_perform.trans ?_
  rw [Disk.respond]
  split <;> simp_all [@eq_comm _ after]

theorem succeeds_read {value : Option ByteArray} :
    Succeeds fileWorld disk (read onError directory name) value after ↔
      (∃ node, disk (directory.child name) = some node ∧ value = node.content?) ∧ after = disk := by
  refine succeeds_perform.trans ⟨fun h ↦ ?_, ?_⟩
  · rw [Disk.respond] at h
    split at h
    · cases h
      exact ⟨⟨_, ‹_›, rfl⟩, rfl⟩
    · cases h
  · rintro ⟨⟨node, hnode, rfl⟩, rfl⟩
    rw [Disk.respond, hnode]

theorem succeeds_create : Succeeds fileWorld disk (create onError directory name) u after ↔
      disk (directory.child name) = none ∧ after = disk.put (directory.child name) .empty := by
  refine succeeds_perform.trans ?_
  rw [Disk.respond]
  split <;> simp_all [@eq_comm _ after]

theorem succeeds_write : Succeeds fileWorld disk (write onError directory name content) u after ↔
      (∃ before, disk (directory.child name) = some (.file before)) ∧
        after = disk.put (directory.child name) content := by
  refine succeeds_perform.trans ?_
  rw [Disk.respond]
  split <;> simp_all [@eq_comm _ after]

theorem succeeds_sync :
    Succeeds fileWorld disk (sync onError directory name) u after ↔ after = disk := by
  refine succeeds_perform.trans ?_
  rw [Disk.respond]
  simp [@eq_comm _ after]

theorem succeeds_link : Succeeds fileWorld disk (link onError directory old new) u after ↔
      ∃ content, disk (directory.child old) = some (.file content) ∧
        disk (directory.child new) = none ∧ after = disk.put (directory.child new) content := by
  refine succeeds_perform.trans ?_
  rw [Disk.respond]
  split <;> simp_all [@eq_comm _ after]

theorem succeeds_unlink : Succeeds fileWorld disk (unlink onError directory name) u after ↔
      (∃ content, disk (directory.child name) = some (.file content)) ∧
        after = disk.remove (directory.child name) := by
  refine succeeds_perform.trans ?_
  rw [Disk.respond]
  split <;> simp_all [@eq_comm _ after]

theorem succeeds_rename : Succeeds fileWorld disk (rename onError directory old new) u after ↔
      ∃ content, disk (directory.child old) = some (.file content) ∧
        disk (directory.child new) ≠ some .directory ∧
        after = (disk.remove (directory.child old)).put (directory.child new) content := by
  refine succeeds_perform.trans ?_
  rw [Disk.respond]
  split <;> simp_all [@eq_comm _ after]

theorem succeeds_syncDirectory :
    Succeeds fileWorld disk (syncDirectory onError directory) u after ↔ after = disk := by
  refine succeeds_perform.trans ?_
  rw [Disk.respond]
  simp [@eq_comm _ after]

end Calls

end Garive
