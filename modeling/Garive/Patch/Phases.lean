import Garive.Lib.BigEndian
import Garive.Patch.Journal

/-!
# The phases of a patch

For every part of the executor, when it succeeds and which disk it leaves, and for the parts that
only read, that they leave the disk alone however they end. The parts are described on the disk they
start from: a target that can be read (`Holds`), a target that is checked (`Stages`), a journal that
is there (`Resumes`), a file that is brought to its patched text (`Finishes`).
-/

namespace Garive

open Program Disk List

namespace Patching

variable {lib : PatchLib} {disk after : Disk PatchRoot} {α β : Type} {u : Unit}

/-! ## Checks -/

variable {p : Patching α}

section Checks

variable {e failure : PatchFailure}

variable {result : Except PatchFailure α} {a : α}

@[simp] theorem succeeds_check :
    Succeeds fileWorld disk (check result) a after ↔ result = .ok a ∧ after = disk := by
  cases result with
  | error e => simp [check]
  | ok a' => simp [check, eq_comm]

@[simp] theorem fails_check :
    Fails fileWorld disk (check result) e after ↔ result = .error e ∧ after = disk := by
  cases result with
  | error e' => simp [check, eq_comm]
  | ok a => simp [check]

variable {condition : Bool}

theorem fails_require (h : Fails fileWorld disk (require condition failure) e after) :
    condition = false ∧ e = failure := by
  cases condition with
  | false => exact ⟨rfl, (fails_throw.mp h).1⟩
  | true => exact absurd h fails_pure

@[simp] theorem succeeds_require :
    Succeeds fileWorld disk (require condition failure) u after ↔ condition ∧ after = disk := by
  cases condition <;> simp [require]

theorem succeeds_orUncertain :
    Succeeds fileWorld disk (orUncertain p) a after ↔ Succeeds fileWorld disk p a after :=
  succeeds_mapFailure

theorem eq_uncertain_of_fails_orUncertain (h : Fails fileWorld disk (orUncertain p) e after) :
    e = .uncertain := by
  obtain ⟨-, -, rfl⟩ := fails_mapFailure.mp h
  rfl

end Checks

/-! ## Parts that only read -/

/-- However the part ends, the disk is as before. -/
def Still (p : Patching α) : Prop :=
  ∀ disk result after, Runs fileWorld disk p.run result after → after = disk

theorem still_pure (a : α) : Still (pure a : Patching α) :=
  fun _ _ _ h ↦ (runs_done_iff.mp h).2

theorem still_check (result : Except PatchFailure α) : Still (check result) := by
  rintro _ (_ | _) _ h
  · exact (fails_check.mp h).2
  · exact (succeeds_check.mp h).2

theorem Still.bind {f : α → Patching β} (hp : Still p) (hf : ∀ a, Still (f a)) :
    Still (p >>= f) := by
  rintro _ (_ | _) _ h
  · rcases fails_bind.mp h with h | ⟨a, mid, ha, h⟩
    · exact hp _ _ _ h
    · exact (hf a _ _ _ h).trans (hp _ _ _ ha)
  · obtain ⟨a, mid, ha, h⟩ := succeeds_bind.mp h
    exact (hf a _ _ _ h).trans (hp _ _ _ ha)

theorem still_list (directory : Location PatchRoot) (name : String) :
    Still (Files.list mapErrno directory name) := by
  rintro _ (_ | _) _ h
  · exact eq_of_fails_perform h
  · exact (succeeds_list.mp h).2

theorem still_openDirectory (directory : Location PatchRoot) (name : String) :
    Still (Files.openDirectory mapErrno directory name) := by
  rintro _ (_ | _) _ h
  · exact eq_of_fails_perform h
  · exact (succeeds_openDirectory.mp h).2

theorem still_read (directory : Location PatchRoot) (name : String) :
    Still (Files.read mapErrno directory name) := by
  rintro _ (_ | _) _ h
  · exact eq_of_fails_perform h
  · exact (succeeds_read.mp h).2

theorem still_require (condition : Bool) (failure : PatchFailure) :
    Still (require condition failure) := by
  rw [require]
  split
  · exact still_pure ()
  · exact still_check (.error failure)

theorem still_listed (directory : Location PatchRoot) (name : String) : Still (listed directory name) :=
  (still_list directory name).bind fun _ ↦ still_require _ _

theorem still_enter (directory : Location PatchRoot) (parts : List String) :
    Still (enter directory parts) := by
  induction parts generalizing directory with
  | nil => exact still_pure _
  | cons part rest ih =>
    exact (still_listed _ _).bind fun _ ↦ (still_openDirectory _ _).bind fun _ ↦ ih _

theorem still_openParent (path : String) : Still (openParent path) :=
  (still_check _).bind fun _ ↦ (still_enter _ _).bind fun _ ↦ (still_listed _ _).bind fun _ ↦
    still_pure _

theorem still_readRegular (directory : Location PatchRoot) (name : String) :
    Still (readRegular directory name) :=
  (still_listed _ _).bind fun _ ↦ (still_read _ _).bind fun _ ↦ (still_check _).bind fun _ ↦
    (still_require _ _).bind fun _ ↦ still_pure _

theorem still_readTarget (path : String) : Still (readTarget path) :=
  (still_openParent _).bind fun _ ↦ (still_readRegular _ _).bind fun _ ↦ still_pure _

theorem still_stageTarget (key patch : String) (entry : (String × String) × Nat) :
    Still (stageTarget lib key patch entry) :=
  (still_readTarget _).bind fun _ ↦ (still_check _).bind fun _ ↦ still_pure _

theorem still_stageTargets (key patch : String) (entries : List ((String × String) × Nat)) :
    Still (stageTargets lib key patch entries) := by
  induction entries with
  | nil => exact still_pure _
  | cons entry rest ih =>
    exact (still_stageTarget key patch entry).bind fun _ ↦ ih.bind fun _ ↦ still_pure _

/-! ## Targets -/

/-- Where the target of a path is. -/
def targetAt (path : String) : Location PatchRoot := { root := .workspace, path := pathParts path }

def parentOf (path : String) : Location PatchRoot :=
  { root := .workspace, path := (pathParts path).dropLast }

/-- Where the patched text of a file is staged. -/
def stagedAt (file : JournalFile) : Location PatchRoot := (parentOf file.path).child file.temporaryName

/-- The directories of a path are there. -/
def Walks (disk : Disk PatchRoot) : Location PatchRoot → List String → Prop
  | _, [] => True
  | directory, part :: rest =>
    disk (directory.child part) = some .directory ∧ Walks disk (directory.child part) rest

/-- The path leads to a file that can be read, with its content. -/
structure Holds (disk : Disk PatchRoot) (path : String) (content : ByteArray) : Prop where
  walks : Walks disk workspaceRoot (pathParts path).dropLast
  content_eq : disk (targetAt path) = some (.file content)
  size_le : content.size ≤ maxFileBytes

theorem pathParts_ne_nil (path : String) : pathParts path ≠ [] := by
  simp [pathParts, splitOn_ne_nil]

theorem pathParts_injective : Function.Injective pathParts := by
  intro a b h
  have hparts := map_injective_iff.mpr (fun _ _ h ↦ String.ofList_injective h) h
  have htext : a.toList = b.toList := by
    calc a.toList = ['/'].intercalate (a.toList.splitOn '/') := (intercalate_splitOn '/').symm
      _ = ['/'].intercalate (b.toList.splitOn '/') := by rw [hparts]
      _ = b.toList := intercalate_splitOn '/'
  exact String.toList_injective htext

theorem parentOf_child (path : String) :
    (parentOf path).child ((pathParts path).getLast (pathParts_ne_nil path)) = targetAt path := by
  simp [parentOf, Location.child, targetAt, dropLast_append_getLast]

variable {directory : Location PatchRoot} {name : String}

theorem succeeds_listed : Succeeds fileWorld disk (listed directory name) u after ↔
      (disk (directory.child name)).isSome ∧ after = disk := by
  simp only [listed, succeeds_bind, succeeds_list, succeeds_require]
  constructor
  · rintro ⟨_, _, ⟨rfl, rfl⟩, hfound, rfl⟩
    exact ⟨hfound, rfl⟩
  · rintro ⟨hfound, rfl⟩
    exact ⟨_, _, ⟨rfl, rfl⟩, hfound, rfl⟩

theorem succeeds_enter {reached : Location PatchRoot} {parts : List String} :
    Succeeds fileWorld disk (enter directory parts) reached after ↔
      Walks disk directory parts ∧ reached = { directory with path := directory.path ++ parts } ∧
        after = disk := by
  induction parts generalizing directory disk with
  | nil => simp [enter, Walks]
  | cons part rest ih =>
    simp only [enter, succeeds_bind, succeeds_listed, succeeds_openDirectory, ih, Walks]
    constructor
    · rintro ⟨_, _, ⟨-, rfl⟩, _, _, ⟨hopen, rfl⟩, hwalks, rfl, rfl⟩
      exact ⟨⟨hopen, hwalks⟩, by simp [Location.child], rfl⟩
    · rintro ⟨⟨hopen, hwalks⟩, rfl, rfl⟩
      exact ⟨(), _, ⟨by simp [hopen], rfl⟩, (), _, ⟨hopen, rfl⟩, hwalks, by simp [Location.child], rfl⟩

/-- A path opens to its directory and its name. -/
theorem succeeds_openParent {opened : Location PatchRoot × String} :
    Succeeds fileWorld disk (openParent path) opened after ↔
      Walks disk workspaceRoot (pathParts path).dropLast ∧ (disk (targetAt path)).isSome ∧
        opened = (parentOf path, (pathParts path).getLast (pathParts_ne_nil path)) ∧ after = disk := by
  simp only [openParent, succeeds_bind, succeeds_check, okOr_eq_ok_iff, succeeds_enter, succeeds_listed,
    succeeds_pure, getLast?_eq_some_getLast (pathParts_ne_nil path), Option.some.injEq]
  constructor
  · rintro ⟨_, _, ⟨rfl, rfl⟩, _, _, ⟨hwalks, rfl, rfl⟩, _, _, ⟨hsome, rfl⟩, rfl, rfl⟩
    refine ⟨hwalks, ?_, rfl, rfl⟩
    rw [← parentOf_child path]
    exact hsome
  · rintro ⟨hwalks, hsome, rfl, rfl⟩
    refine ⟨_, _, ⟨rfl, rfl⟩, _, _, ⟨hwalks, rfl, rfl⟩, (), _, ⟨?_, rfl⟩, rfl, rfl⟩
    rw [← parentOf_child path] at hsome
    exact hsome

variable {content : ByteArray}

theorem succeeds_readRegular : Succeeds fileWorld disk (readRegular directory name) content after ↔
      disk (directory.child name) = some (.file content) ∧ content.size ≤ maxFileBytes ∧
        after = disk := by
  simp only [readRegular, succeeds_bind, succeeds_listed, succeeds_read, succeeds_check, okOr_eq_ok_iff,
    succeeds_require, succeeds_pure, decide_eq_true_eq]
  constructor
  · rintro ⟨_, _, ⟨-, rfl⟩, _, _, ⟨⟨node, hnode, rfl⟩, rfl⟩, _, _, ⟨hbytes, rfl⟩, _, _, ⟨hsize, rfl⟩,
      rfl, rfl⟩
    cases node with
    | file content =>
      cases hbytes
      exact ⟨hnode, hsize, rfl⟩
    | directory => cases hbytes
    | special => cases hbytes
  · rintro ⟨hnode, hsize, rfl⟩
    exact ⟨(), _, ⟨by simp [hnode], rfl⟩, _, _, ⟨⟨_, hnode, rfl⟩, rfl⟩, content, _, ⟨rfl, rfl⟩, (), _,
      ⟨hsize, rfl⟩, rfl, rfl⟩

theorem succeeds_readTarget {target : Location PatchRoot × String × ByteArray} :
    Succeeds fileWorld disk (readTarget path) target after ↔ ∃ current, Holds disk path current ∧
      target = (parentOf path, (pathParts path).getLast (pathParts_ne_nil path), current) ∧
      after = disk := by
  simp only [readTarget, succeeds_bind, succeeds_openParent, succeeds_readRegular, succeeds_pure]
  constructor
  · rintro ⟨_, _, ⟨hwalks, -, rfl, rfl⟩, current, _, ⟨hcont, hsize, rfl⟩, rfl, rfl⟩
    rw [parentOf_child] at hcont
    exact ⟨current, ⟨hwalks, hcont, hsize⟩, rfl, rfl⟩
  · rintro ⟨current, hholds, rfl, rfl⟩
    refine ⟨_, _, ⟨hholds.walks, by simp [hholds.content_eq], rfl, rfl⟩, current, _, ⟨?_, hholds.size_le,
      rfl⟩, rfl, rfl⟩
    rw [parentOf_child]
    exact hholds.content_eq

theorem succeeds_writeNew : Succeeds fileWorld disk (writeNew directory name content) u after ↔
      disk (directory.child name) = none ∧ after = disk.put (directory.child name) content := by
  simp only [writeNew, succeeds_bind, succeeds_create, succeeds_write, succeeds_sync]
  constructor
  · rintro ⟨_, _, ⟨hfree, rfl⟩, _, _, ⟨-, rfl⟩, rfl⟩
    exact ⟨hfree, by simp⟩
  · rintro ⟨hfree, rfl⟩
    exact ⟨(), _, ⟨hfree, rfl⟩, (), _, ⟨⟨_, put_self _ _ _⟩, rfl⟩, by simp⟩

/-! ## Staging -/

/-- The target of an entry is as expected, and the patch applies to it. -/
def Stages (lib : PatchLib) (key patch : String) (disk : Disk PatchRoot)
    (entry : (String × String) × Nat) (staged : StagedFile) : Prop :=
  ∃ current next, Holds disk entry.1.1 current ∧
    stagedText lib patch entry.1.1 entry.1.2 current = .ok next ∧
    staged = {
      file := {
        path := entry.1.1
        beforeDigest := lib.digest current
        afterDigest := lib.digest next.toUTF8
        temporaryName := temporaryName key entry.2 }
      parent := parentOf entry.1.1
      content := next.toUTF8 }

variable {entry : (String × String) × Nat}

theorem succeeds_stageTarget {key patch : String} {staged : StagedFile} :
    Succeeds fileWorld disk (stageTarget lib key patch entry) staged after ↔
      Stages lib key patch disk entry staged ∧ after = disk := by
  obtain ⟨⟨_, _⟩, _⟩ := entry
  simp only [stageTarget, succeeds_bind, succeeds_readTarget, succeeds_check, succeeds_pure, Stages]
  constructor
  · rintro ⟨_, _, ⟨current, hholds, rfl, rfl⟩, next, _, ⟨hnext, rfl⟩, rfl, rfl⟩
    exact ⟨⟨current, next, hholds, hnext, rfl⟩, rfl⟩
  · rintro ⟨⟨current, next, hholds, hnext, rfl⟩, rfl⟩
    exact ⟨_, _, ⟨current, hholds, rfl, rfl⟩, next, _, ⟨hnext, rfl⟩, rfl, rfl⟩

variable {staged : List StagedFile}

theorem succeeds_stageTargets {key patch : String} {entries : List ((String × String) × Nat)}
    :
    Succeeds fileWorld disk (stageTargets lib key patch entries) staged after ↔
      List.Forall₂ (Stages lib key patch disk) entries staged ∧ after = disk := by
  induction entries generalizing staged disk after with
  | nil => simp [stageTargets]
  | cons entry rest ih =>
    simp only [stageTargets, succeeds_bind, succeeds_stageTarget, ih, succeeds_pure,
      forall₂_cons_left_iff]
    constructor
    · rintro ⟨first, _, ⟨hfirst, rfl⟩, others, _, ⟨hothers, rfl⟩, rfl, rfl⟩
      exact ⟨⟨first, others, hfirst, hothers, rfl⟩, rfl⟩
    · rintro ⟨⟨first, others, hfirst, hothers, rfl⟩, rfl⟩
      exact ⟨first, _, ⟨hfirst, rfl⟩, others, _, ⟨hothers, rfl⟩, rfl, rfl⟩

/-- The disk with the patched texts staged. -/
def putStaged (disk : Disk PatchRoot) (staged : List StagedFile) : Disk PatchRoot :=
  staged.foldl (fun disk s ↦ disk.put (s.parent.child s.file.temporaryName) s.content) disk

theorem eq_uncertain_of_fails_writeStaged {failure : PatchFailure}
    (h : Fails fileWorld disk (writeStaged staged) failure after) : failure = .uncertain := by
  induction staged generalizing disk with
  | nil => exact absurd h fails_pure
  | cons first rest ih =>
    rcases fails_bind.mp h with h | ⟨_, mid, -, h⟩
    · exact eq_uncertain_of_fails_orUncertain h
    · exact ih h

theorem putStaged_of_notMem {location : Location PatchRoot}
    (h : location ∉ staged.map fun s ↦ s.parent.child s.file.temporaryName) :
    putStaged disk staged location = disk location := by
  induction staged generalizing disk with
  | nil => rfl
  | cons first rest ih =>
    rw [map_cons, mem_cons, not_or] at h
    exact (ih h.2).trans (put_of_ne h.1)

theorem succeeds_writeStaged :
    Succeeds fileWorld disk (writeStaged staged) u after ↔
      (staged.map fun s ↦ s.parent.child s.file.temporaryName).Nodup ∧
      (∀ s ∈ staged, disk (s.parent.child s.file.temporaryName) = none) ∧
      after = putStaged disk staged := by
  induction staged generalizing disk with
  | nil => simp [writeStaged, putStaged]
  | cons first rest ih =>
    simp only [writeStaged, succeeds_bind, succeeds_orUncertain, succeeds_writeNew, ih, map_cons,
      nodup_cons, forall_mem_cons]
    constructor
    · rintro ⟨_, _, ⟨hfree, rfl⟩, hnodup, hrest, rfl⟩
      have hne : ∀ s ∈ rest, s.parent.child s.file.temporaryName ≠
          first.parent.child first.file.temporaryName := by
        intro s hs heq
        have hnone := hrest s hs
        rw [heq, put_self] at hnone
        cases hnone
      refine ⟨⟨?_, hnodup⟩, ⟨hfree, fun s hs ↦ ?_⟩, rfl⟩
      · intro hmem
        obtain ⟨s, hs, heq⟩ := mem_map.mp hmem
        exact hne s hs heq
      · rw [← hrest s hs, put_of_ne (hne s hs)]
    · rintro ⟨⟨hfirst, hnodup⟩, ⟨hfree, hrest⟩, rfl⟩
      refine ⟨(), _, ⟨hfree, rfl⟩, hnodup, fun s hs ↦ ?_, rfl⟩
      rw [put_of_ne, hrest s hs]
      rintro heq
      exact hfirst (mem_map.mpr ⟨s, hs, heq⟩)

/-! ## Journals on the disk -/

/-- A file of the recovery directory holds the journal. -/
def JournalIn (lib : PatchLib) (disk : Disk PatchRoot) (name : String) (journal : PatchJournal) : Prop :=
  ∃ bytes, disk (recoveryRoot.child name) = some (.file bytes) ∧ bytes.size ≤ maxJournalBytes ∧
    lib.journalOf bytes = some journal

variable {found : Option PatchJournal}

theorem succeeds_readNamedJournal :
    Succeeds fileWorld disk (readNamedJournal lib name) found after ↔ after = disk ∧
      match found with
      | none => disk (recoveryRoot.child name) = none
      | some journal => JournalIn lib disk name journal := by
  simp only [readNamedJournal, succeeds_bind, succeeds_list]
  constructor
  · rintro ⟨_, disk, ⟨rfl, rfl⟩, h⟩
    cases hentry : disk (recoveryRoot.child name) with
    | none =>
      rw [hentry] at h
      obtain ⟨rfl, rfl⟩ := succeeds_pure.mp h
      exact ⟨rfl, rfl⟩
    | some node =>
      rw [hentry] at h
      obtain ⟨errno | content, _, hread, hrest⟩ := succeeds_bind.mp h
      · -- a file that is listed is not missing
        cases errno with
        | noEntry =>
          rcases of_fails_read (succeeds_lift.mp hread) with h | ⟨-, hmissing⟩
          · cases h
          · rw [hentry] at hmissing
            cases hmissing
        | other => exact absurd hrest succeeds_throw
      · obtain ⟨⟨node', hnode', rfl⟩, rfl⟩ := succeeds_read.mp (succeeds_lift.mp hread)
        simp only [succeeds_bind, succeeds_check, okOr_eq_ok_iff, succeeds_require, succeeds_pure,
          decide_eq_true_eq] at hrest
        obtain ⟨bytes, _, ⟨hbytes, rfl⟩, _, _, ⟨hsize, rfl⟩, journal, _, ⟨hjournal, rfl⟩, rfl, rfl⟩ :=
          hrest
        cases node' with
        | file content =>
          cases hbytes
          exact ⟨rfl, bytes, hnode', hsize, hjournal⟩
        | directory => cases hbytes
        | special => cases hbytes
  · rintro ⟨rfl, h⟩
    refine ⟨_, _, ⟨rfl, rfl⟩, ?_⟩
    cases found with
    | none =>
      dsimp only at h
      rw [h]
      exact succeeds_pure.mpr ⟨rfl, rfl⟩
    | some journal =>
      obtain ⟨bytes, hentry, hsize, hjournal⟩ := h
      rw [hentry]
      refine succeeds_bind.mpr ⟨.ok (some bytes), _, succeeds_lift.mpr
        (succeeds_read.mpr ⟨⟨_, hentry, rfl⟩, rfl⟩), ?_⟩
      simp only [succeeds_bind, succeeds_check, okOr_eq_ok_iff, succeeds_require, succeeds_pure,
        decide_eq_true_eq]
      exact ⟨bytes, _, ⟨rfl, rfl⟩, (), _, ⟨hsize, rfl⟩, journal, _, ⟨hjournal, rfl⟩, rfl, rfl⟩

theorem temporaryOf_ne (name : String) : temporaryOf name ≠ name := by
  intro h
  have hlen := congrArg String.length h
  simp [temporaryOf] at hlen

/-- The disk with the file under the temporary name of a journal under its own name. -/
def published (disk : Disk PatchRoot) (name : String) (content : ByteArray) : Disk PatchRoot :=
  (disk.put (recoveryRoot.child name) content).remove (recoveryRoot.child (temporaryOf name))

theorem succeeds_publish : Succeeds fileWorld disk (publish name) u after ↔ ∃ content,
      disk (recoveryRoot.child (temporaryOf name)) = some (.file content) ∧
      disk (recoveryRoot.child name) = none ∧ after = published disk name content := by
  have hne : recoveryRoot.child (temporaryOf name) ≠ recoveryRoot.child name := by
    simpa [Location.child_inj] using temporaryOf_ne name
  simp only [publish, succeeds_bind, succeeds_link, succeeds_unlink, succeeds_syncDirectory]
  constructor
  · rintro ⟨_, _, ⟨content, hold, hnew, rfl⟩, _, _, ⟨-, rfl⟩, rfl⟩
    exact ⟨content, hold, hnew, rfl⟩
  · rintro ⟨content, hold, hnew, rfl⟩
    refine ⟨(), _, ⟨content, hold, hnew, rfl⟩, (), _, ⟨⟨content, ?_⟩, rfl⟩, rfl⟩
    rw [put_of_ne hne, hold]

/-- The journal of an invocation is there, under its own name or still under the temporary one. -/
inductive Recovers (lib : PatchLib) (disk : Disk PatchRoot) (name : String) (journal : PatchJournal) :
    Disk PatchRoot → Prop
  | named (h : JournalIn lib disk name journal) : Recovers lib disk name journal disk
  | temporary {content : ByteArray} (hname : disk (recoveryRoot.child name) = none)
    (h : JournalIn lib disk (temporaryOf name) journal)
    (hcont : disk (recoveryRoot.child (temporaryOf name)) = some (.file content)) :
    Recovers lib disk name journal (published disk name content)

theorem succeeds_readJournal : Succeeds fileWorld disk (readJournal lib name) found after ↔
      match found with
      | none => disk (recoveryRoot.child name) = none ∧
        disk (recoveryRoot.child (temporaryOf name)) = none ∧ after = disk
      | some journal => Recovers lib disk name journal after := by
  constructor
  · intro h
    obtain ⟨found', mid, hnamed, h⟩ := succeeds_bind.mp h
    obtain ⟨rfl, hnamed⟩ := succeeds_readNamedJournal.mp hnamed
    cases found' with
    | some journal =>
      obtain ⟨rfl, rfl⟩ := succeeds_pure.mp h
      exact .named hnamed
    | none =>
      obtain ⟨found'', mid, htmp, h⟩ := succeeds_bind.mp h
      obtain ⟨rfl, htmp⟩ := succeeds_readNamedJournal.mp htmp
      cases found'' with
      | none =>
        obtain ⟨rfl, rfl⟩ := succeeds_pure.mp h
        exact ⟨hnamed, htmp, rfl⟩
      | some journal =>
        simp only [succeeds_bind, succeeds_publish, succeeds_pure] at h
        obtain ⟨_, _, ⟨_, hcont, -, rfl⟩, rfl, rfl⟩ := h
        exact .temporary hnamed htmp hcont
  · intro h
    rw [readJournal, succeeds_bind]
    cases found with
    | none =>
      obtain ⟨hname, htmp, rfl⟩ := h
      refine ⟨none, _, succeeds_readNamedJournal.mpr ⟨rfl, hname⟩, succeeds_bind.mpr ⟨none, _,
        succeeds_readNamedJournal.mpr ⟨rfl, htmp⟩, succeeds_pure.mpr ⟨rfl, rfl⟩⟩⟩
    | some journal =>
      cases h with
      | named h =>
        exact ⟨some journal, _, succeeds_readNamedJournal.mpr ⟨rfl, h⟩, succeeds_pure.mpr ⟨rfl, rfl⟩⟩
      | temporary hname h hcont =>
        refine ⟨none, _, succeeds_readNamedJournal.mpr ⟨rfl, hname⟩, succeeds_bind.mpr ⟨some journal, _,
          succeeds_readNamedJournal.mpr ⟨rfl, h⟩, succeeds_bind.mpr ⟨(), _,
            succeeds_publish.mpr ⟨_, hcont, hname, rfl⟩, succeeds_pure.mpr ⟨rfl, rfl⟩⟩⟩⟩

variable {journal : PatchJournal}

theorem succeeds_writeJournal :
    Succeeds fileWorld disk (writeJournal lib name journal) u after ↔ ∃ bytes,
      lib.journalBytes journal = some bytes ∧ disk (recoveryRoot.child (temporaryOf name)) = none ∧
      disk (recoveryRoot.child name) = none ∧ after = disk.put (recoveryRoot.child name) bytes := by
  have hne : recoveryRoot.child (temporaryOf name) ≠ recoveryRoot.child name := by
    simpa [Location.child_inj] using temporaryOf_ne name
  have hpub : ∀ bytes, disk (recoveryRoot.child (temporaryOf name)) = none →
      published (disk.put (recoveryRoot.child (temporaryOf name)) bytes) name bytes =
        disk.put (recoveryRoot.child name) bytes := by
    intro bytes hnone
    funext location
    rw [published]
    by_cases htmp : location = recoveryRoot.child (temporaryOf name)
    · rw [htmp, remove_self, put_of_ne hne, hnone]
    · rw [remove_of_ne htmp]
      by_cases hname : location = recoveryRoot.child name
      · rw [hname, put_self, put_self]
      · rw [put_of_ne hname, put_of_ne hname, put_of_ne htmp]
  simp only [writeJournal, succeeds_bind, succeeds_check, okOr_eq_ok_iff, succeeds_writeNew,
    succeeds_publish]
  constructor
  · rintro ⟨bytes, _, ⟨hbytes, rfl⟩, _, _, ⟨htmp, rfl⟩, _, hcont, hname, rfl⟩
    rw [put_self] at hcont
    cases hcont
    rw [put_of_ne hne.symm] at hname
    exact ⟨bytes, hbytes, htmp, hname, hpub bytes htmp⟩
  · rintro ⟨bytes, hbytes, htmp, hname, rfl⟩
    refine ⟨bytes, _, ⟨hbytes, rfl⟩, (), _, ⟨htmp, rfl⟩, bytes, put_self _ _ _, ?_,
      (hpub bytes htmp).symm⟩
    rw [put_of_ne hne.symm, hname]

/-! ## Finishing -/

theorem fails_readRegular_notFound :
    Fails fileWorld disk (readRegular directory name) .notFound after ↔
      disk (directory.child name) = none ∧ after = disk := by
  constructor
  · intro h
    refine ⟨?_, still_readRegular directory name _ _ _ h⟩
    rcases fails_bind.mp h with h | ⟨_, mid, hlisted, h⟩
    · rcases fails_bind.mp h with h | ⟨found, mid, hfound, h⟩
      · obtain ⟨_, herrno, h | ⟨rfl, -⟩⟩ := fails_perform.mp h
        · cases h
        · cases herrno
      · obtain ⟨rfl, -⟩ := succeeds_list.mp hfound
        simpa using (fails_require h).1
    · rcases fails_bind.mp h with h | ⟨content, mid', -, h⟩
      · rcases of_fails_read h with h | ⟨-, hmissing⟩
        · cases h
        · rwa [still_listed directory name _ _ _ hlisted] at hmissing
      · rcases fails_bind.mp h with h | ⟨bytes, mid'', -, h⟩
        · obtain ⟨h, -⟩ := fails_check.mp h
          cases content <;> cases h
        · rcases fails_bind.mp h with h | ⟨_, _, -, h⟩
          · cases (fails_require h).2
          · exact absurd h fails_pure
  · rintro ⟨hnone, rfl⟩
    refine fails_bind.mpr (.inl (fails_bind.mpr (.inr ⟨false, _, succeeds_list.mpr ⟨?_, rfl⟩, ?_⟩)))
    · simp [hnone]
    · exact fails_throw.mpr ⟨rfl, rfl⟩

/-- The staged file is there, or its place is free for the patched text. -/
def StagedReady (lib : PatchLib) (disk : Disk PatchRoot) (file : JournalFile)
    (expected staged : ByteArray) : Prop :=
  (disk (stagedAt file) = some (.file staged) ∧ staged.size ≤ maxFileBytes ∧
    lib.digest staged = file.afterDigest) ∨ (disk (stagedAt file) = none ∧ staged = expected)

/-- A file of the journal is brought to its patched text, or is there already. -/
def Finishes (lib : PatchLib) (patch : String) (disk : Disk PatchRoot) (file : JournalFile)
    (after : Disk PatchRoot) : Prop :=
  ∃ current, Holds disk file.path current ∧
    ((lib.digest current = file.afterDigest ∧ after = disk) ∨
      (lib.digest current ≠ file.afterDigest ∧ ∃ expected staged,
        expectedBytes lib patch file current = .ok expected ∧ StagedReady lib disk file expected staged ∧
        after = (disk.remove (stagedAt file)).put (targetAt file.path) staged))

/-- The files of a journal are finished one after another. -/
def Completes (lib : PatchLib) (patch : String) :
    Disk PatchRoot → List JournalFile → Disk PatchRoot → Prop
  | disk, [], after => after = disk
  | disk, file :: rest, after => ∃ mid, Finishes lib patch disk file mid ∧ Completes lib patch mid rest after

variable {file : JournalFile}

theorem succeeds_ensureStaged {expected : ByteArray} :
    Succeeds fileWorld disk (ensureStaged lib (parentOf file.path) file expected) u after ↔
      ∃ staged, StagedReady lib disk file expected staged ∧ after = disk.put (stagedAt file) staged := by
  simp only [ensureStaged, succeeds_bind, succeeds_lift]
  constructor
  · rintro ⟨failure | temporary, _, hread, h⟩
    · cases failure with
      | notFound =>
        obtain ⟨hnone, rfl⟩ := fails_readRegular_notFound.mp hread
        exact ⟨expected, .inr ⟨hnone, rfl⟩, (succeeds_writeNew.mp h).2⟩
      | _ => exact absurd h succeeds_throw
    · obtain ⟨hentry, hsize, rfl⟩ := succeeds_readRegular.mp hread
      obtain ⟨hdig, rfl⟩ := succeeds_require.mp h
      exact ⟨temporary, .inl ⟨hentry, hsize, of_decide_eq_true hdig⟩, (put_eq_self hentry).symm⟩
  · rintro ⟨staged, ⟨hentry, hsize, hdig⟩ | ⟨hnone, rfl⟩, rfl⟩
    · rw [put_eq_self hentry]
      exact ⟨.ok staged, disk, succeeds_readRegular.mpr ⟨hentry, hsize, rfl⟩,
        succeeds_require.mpr ⟨decide_eq_true hdig, rfl⟩⟩
    · exact ⟨.error .notFound, disk, fails_readRegular_notFound.mpr ⟨hnone, rfl⟩,
        succeeds_writeNew.mpr ⟨hnone, rfl⟩⟩

theorem succeeds_finishFile {patch : String} :
    Succeeds fileWorld disk (finishFile lib patch file) u after ↔ Finishes lib patch disk file after := by
  simp only [finishFile, succeeds_bind, succeeds_readTarget, Finishes]
  constructor
  · rintro ⟨_, _, ⟨current, hholds, rfl, rfl⟩, h⟩
    refine ⟨current, hholds, ?_⟩
    dsimp only at h
    split at h
    · exact .inl ⟨‹_›, (succeeds_pure.mp h).2⟩
    · simp only [succeeds_bind, succeeds_check, succeeds_ensureStaged, succeeds_rename,
        succeeds_syncDirectory, parentOf_child] at h
      obtain ⟨expected, _, ⟨hexp, rfl⟩, _, _, ⟨staged, hstaged, rfl⟩, _, _,
        ⟨_, hcont, -, rfl⟩, rfl⟩ := h
      rw [show (parentOf file.path).child file.temporaryName = stagedAt file from rfl, put_self]
        at hcont
      cases hcont
      refine .inr ⟨‹_›, expected, staged, hexp, hstaged, ?_⟩
      rw [show (parentOf file.path).child file.temporaryName = stagedAt file from rfl, remove_put]
  · rintro ⟨current, hholds, h⟩
    refine ⟨_, _, ⟨current, hholds, rfl, rfl⟩, ?_⟩
    dsimp only
    rcases h with ⟨hdig, rfl⟩ | ⟨hdig, expected, staged, hexp, hstaged, rfl⟩
    · rw [if_pos hdig]
      exact succeeds_pure.mpr ⟨rfl, rfl⟩
    · rw [if_neg hdig]
      simp only [succeeds_bind, succeeds_check, succeeds_ensureStaged, succeeds_rename,
        succeeds_syncDirectory, parentOf_child]
      refine ⟨expected, _, ⟨hexp, rfl⟩, (), _, ⟨staged, hstaged, rfl⟩, (), _,
        ⟨staged, put_self _ _ _, ?_, rfl⟩, ?_⟩
      · by_cases heq : targetAt file.path = stagedAt file
        · rw [heq, put_self]
          simp
        · rw [put_of_ne heq, hholds.content_eq]
          simp
      · rw [show (parentOf file.path).child file.temporaryName = stagedAt file from rfl, remove_put]

theorem succeeds_finishJournal {patch : String} {files : List JournalFile} :
    Succeeds fileWorld disk (finishJournal lib patch files) u after ↔
      Completes lib patch disk files after := by
  induction files generalizing disk with
  | nil => simp [finishJournal, Completes]
  | cons file rest ih =>
    simp only [finishJournal, succeeds_bind, succeeds_finishFile, ih, Completes]
    constructor
    · rintro ⟨-, mid, h⟩
      exact ⟨mid, h⟩
    · rintro ⟨mid, h⟩
      exact ⟨(), mid, h⟩

/-! ## Preparing -/

/-- The journal of a patch whose targets are staged. -/
def journalOfStaged (operation : PatchOperation) (staged : List StagedFile) (digest : String) :
    PatchJournal where
  invocationId := operation.invocation
  preparedDigest := operation.preparedDigest
  files := staged.map (·.file)
  receiptDigest := digest

/-- The targets are as expected, there is room for the journal and for the staged files, and the
journal can be written. -/
structure Prepares (lib : PatchLib) (operation : PatchOperation) (key : String) (disk : Disk PatchRoot)
    (staged : List StagedFile) (digest : String) (bytes : ByteArray) : Prop where
  stages : List.Forall₂ (Stages lib key operation.patch disk) operation.expected.entries.zipIdx staged
  digest_eq : receiptDigest lib (staged.map (·.file)) = .ok digest
  bytes_eq : lib.journalBytes (journalOfStaged operation staged digest) = some bytes
  journal_free : disk (recoveryRoot.child (journalName key)) = none
  temporary_free : disk (recoveryRoot.child (temporaryOf (journalName key))) = none
  staged_free : ∀ s ∈ staged, disk (stagedAt s.file) = none

theorem stagedAt_of_stages {key patch : String} {staged : StagedFile}
    (h : Stages lib key patch disk entry staged) :
    staged.parent.child staged.file.temporaryName = stagedAt staged.file := by
  obtain ⟨_, _, -, -, rfl⟩ := h
  rfl

theorem temporaryName_injective (key : String) : Function.Injective (temporaryName key) := by
  intro i j h
  have hidx := (String.append_right_inj (".garive-patch-" ++ key ++ "-")).mp
    ((String.append_left_inj ".tmp").mp h)
  exact toDigits_inj (by simpa using congrArg String.toList hidx)

section Staged

variable {key patch : String} {entries : List ((String × String) × Nat)} {staged : List StagedFile}

theorem temporaryNames_of_stages (h : List.Forall₂ (Stages lib key patch disk) entries staged) :
    staged.map (·.file.temporaryName) = (entries.map Prod.snd).map (temporaryName key) := by
  induction h with
  | nil => rfl
  | cons hfirst _ ih =>
    obtain ⟨_, _, -, -, rfl⟩ := hfirst
    simp [ih]

theorem paths_of_stages (h : List.Forall₂ (Stages lib key patch disk) entries staged) :
    staged.map (·.file.path) = (entries.map Prod.fst).map Prod.fst := by
  induction h with
  | nil => rfl
  | cons hfirst _ ih =>
    obtain ⟨_, _, -, -, rfl⟩ := hfirst
    simp [ih]

theorem stages_of_mem (h : List.Forall₂ (Stages lib key patch disk) entries staged) {s : StagedFile}
    (hs : s ∈ staged) : ∃ entry, Stages lib key patch disk entry s := by
  induction h with
  | nil => cases hs
  | cons hfirst _ ih =>
    rcases mem_cons.mp hs with rfl | hs
    · exact ⟨_, hfirst⟩
    · exact ih hs

theorem map_stagedAt_of_stages (h : List.Forall₂ (Stages lib key patch disk) entries staged) :
    (staged.map fun s ↦ s.parent.child s.file.temporaryName) = staged.map fun s ↦ stagedAt s.file := by
  refine map_congr_left fun s hs ↦ ?_
  obtain ⟨_, hentry⟩ := stages_of_mem h hs
  exact stagedAt_of_stages hentry

/-- The staged files of a patch have different places. -/
theorem nodup_stagedAt {expected : List (String × String)}
    (h : List.Forall₂ (Stages lib key patch disk) expected.zipIdx staged) :
    (staged.map fun s ↦ stagedAt s.file).Nodup := by
  -- the places differ in their names already
  refine List.Nodup.of_map (fun location ↦ location.path.getLast?) ?_
  have hnames : (staged.map fun s ↦ stagedAt s.file).map (fun location ↦ location.path.getLast?) =
      (staged.map (·.file.temporaryName)).map some := by
    simp [stagedAt, Location.child]
  rw [hnames, temporaryNames_of_stages h, zipIdx_map_snd]
  have hidxs : (range' 0 expected.length).Nodup := nodup_range' 1
  exact (hidxs.map (temporaryName_injective key)).map fun _ _ h ↦ Option.some.inj h

end Staged

variable {operation : PatchOperation}

theorem succeeds_prepareJournal {key : String} :
    Succeeds fileWorld disk (prepareJournal lib operation key) journal after ↔
      ∃ staged digest bytes, Prepares lib operation key disk staged digest bytes ∧
        journal = journalOfStaged operation staged digest ∧
        after = putStaged (disk.put (recoveryRoot.child (journalName key)) bytes) staged := by
  have hworkspace : ∀ (file : JournalFile) (bytes : ByteArray),
      (disk.put (recoveryRoot.child (journalName key)) bytes) (stagedAt file) = disk (stagedAt file) :=
    fun file bytes ↦ put_of_ne (by simp [stagedAt, Location.child, parentOf, recoveryRoot])
  simp only [prepareJournal, succeeds_bind, succeeds_stageTargets, succeeds_check, succeeds_orUncertain,
    succeeds_writeJournal, succeeds_writeStaged, succeeds_pure]
  constructor
  · rintro ⟨staged, _, ⟨hstages, rfl⟩, digest, _, ⟨hdig, rfl⟩, _, _,
      ⟨bytes, hbytes, htmp, hname, rfl⟩, _, _, ⟨-, hfree, rfl⟩, rfl, rfl⟩
    refine ⟨staged, digest, bytes, ⟨hstages, hdig, hbytes, hname, htmp, ?_⟩, rfl, rfl⟩
    intro s hs
    obtain ⟨entry, hentry⟩ := stages_of_mem hstages hs
    rw [← hworkspace s.file bytes, ← stagedAt_of_stages hentry]
    exact hfree s hs
  · rintro ⟨staged, digest, bytes, h, rfl, rfl⟩
    refine ⟨staged, _, ⟨h.stages, rfl⟩, digest, _, ⟨h.digest_eq, rfl⟩, (), _,
      ⟨bytes, h.bytes_eq, h.temporary_free, h.journal_free, rfl⟩, (), _, ⟨?_, ?_, rfl⟩, rfl, rfl⟩
    · rw [map_stagedAt_of_stages h.stages]
      exact nodup_stagedAt h.stages
    · intro s hs
      obtain ⟨entry, hentry⟩ := stages_of_mem h.stages hs
      rw [stagedAt_of_stages hentry, hworkspace]
      exact h.staged_free s hs

theorem succeeds_obtainJournal {key : String} :
    Succeeds fileWorld disk (obtainJournal lib operation key) journal after ↔
      (Recovers lib disk (journalName key) journal after ∧
        validateJournal lib journal operation key = .ok ()) ∨
      ∃ staged digest bytes, Prepares lib operation key disk staged digest bytes ∧
        journal = journalOfStaged operation staged digest ∧
        after = putStaged (disk.put (recoveryRoot.child (journalName key)) bytes) staged := by
  rw [obtainJournal, succeeds_bind]
  constructor
  · rintro ⟨found | found, _, hread, h⟩
    · obtain ⟨-, -, rfl⟩ := succeeds_readJournal.mp (succeeds_orUncertain.mp hread)
      exact .inr (succeeds_prepareJournal.mp h)
    · simp only [succeeds_bind, succeeds_check, succeeds_pure] at h
      obtain ⟨_, _, ⟨hvalid, rfl⟩, rfl, rfl⟩ := h
      exact .inl ⟨succeeds_readJournal.mp (succeeds_orUncertain.mp hread), hvalid⟩
  · rintro (⟨hrecovers, hvalid⟩ | ⟨staged, digest, bytes, hprepares, h⟩)
    · refine ⟨some journal, after, succeeds_orUncertain.mpr (succeeds_readJournal.mpr hrecovers), ?_⟩
      simp only [succeeds_bind, succeeds_check, succeeds_pure]
      exact ⟨(), after, ⟨hvalid, rfl⟩, trivial, rfl⟩
    · exact ⟨none, disk, succeeds_orUncertain.mpr (succeeds_readJournal.mpr
        ⟨hprepares.journal_free, hprepares.temporary_free, rfl⟩),
        succeeds_prepareJournal.mpr ⟨staged, digest, bytes, hprepares, h⟩⟩

end Patching

end Garive
