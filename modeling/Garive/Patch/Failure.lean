import Garive.Ledger.Reference
import Garive.Patch.Phases

/-!
# Patches that fail

A patch that is reported as failed has left the workspace alone unless its result is too long: the
result is measured after the last file is replaced. So a failure never hides a change exactly when
no journal that can still change something has a result over the bound (`failed_unchanged_iff`).
Whether there is such a journal is read off the disk before the call: a new one, whose targets are
as expected and whose places are free, or one that an earlier call left.
-/

namespace Garive

open Program List

namespace Patching

variable {lib : PatchLib} {disk after : Disk PatchRoot} {operation : PatchOperation} {key : String}
  {failure : PatchFailure}

/-- The files of the workspace. -/
def workspaceOf (disk : Disk PatchRoot) (path : List String) : Option FileNode :=
  disk { root := .workspace, path }

/-! ## Failures before the end -/

variable {files : List JournalFile}

theorem eq_uncertain_of_receiptDigest (h : receiptDigest lib files = .error failure) :
    failure = .uncertain := by
  unfold receiptDigest at h
  cases hpay : CanonicalPayload.fromValue lib.toExternals (json [("files", .array (files.map fileJson))])
    with
  | error e =>
    rw [hpay] at h
    cases h
    rfl
  | ok payload =>
    rw [hpay] at h
    cases h

variable {journal : PatchJournal}

theorem eq_uncertain_of_validateJournal
    (h : validateJournal lib journal operation key = .error failure) : failure = .uncertain := by
  simp only [validateJournal, ensure] at h
  split at h
  · rw [ok_bind] at h
    split at h
    · rw [ok_bind] at h
      cases hdig : receiptDigest lib journal.files with
      | error e =>
        rw [hdig] at h
        cases h
        exact eq_uncertain_of_receiptDigest hdig
      | ok digest =>
        rw [hdig, ok_bind] at h
        split at h <;> cases h
        rfl
    · cases h
      rfl
  · cases h
    rfl

theorem eq_of_fails_prepareJournal
    (h : Fails fileWorld disk (prepareJournal lib operation key) failure after)
    (hcertain : failure ≠ .uncertain) : after = disk := by
  rcases fails_bind.mp h with h | ⟨staged, mid, -, h⟩
  · exact still_stageTargets key operation.patch _ _ _ _ h
  · rcases fails_bind.mp h with h | ⟨digest, mid, -, h⟩
    · exact absurd (eq_uncertain_of_receiptDigest (fails_check.mp h).1) hcertain
    · rcases fails_bind.mp h with h | ⟨_, mid, -, h⟩
      · exact absurd (eq_uncertain_of_fails_orUncertain h) hcertain
      · rcases fails_bind.mp h with h | ⟨_, mid, -, h⟩
        · exact absurd (eq_uncertain_of_fails_writeStaged h) hcertain
        · exact absurd h fails_pure

/-- Without a journal nothing was written. -/
theorem eq_of_fails_obtainJournal
    (h : Fails fileWorld disk (obtainJournal lib operation key) failure after)
    (hcertain : failure ≠ .uncertain) : after = disk := by
  rcases fails_bind.mp h with h | ⟨found | journal, mid, hread, hrest⟩
  · exact absurd (eq_uncertain_of_fails_orUncertain h) hcertain
  · obtain ⟨-, -, rfl⟩ := succeeds_readJournal.mp (succeeds_orUncertain.mp hread)
    exact eq_of_fails_prepareJournal hrest hcertain
  · rcases fails_bind.mp hrest with h | ⟨_, _, -, h⟩
    · exact absurd (eq_uncertain_of_validateJournal (fails_check.mp h).1) hcertain
    · exact absurd h fails_pure

/-- A certain failure comes before anything is written, or after everything is. -/
theorem of_fails_executePatch (h : Fails fileWorld disk (executePatch lib operation) failure after)
    (hcertain : failure ≠ .uncertain) : after = disk ∨ ∃ journal mid,
      Succeeds fileWorld disk (obtainJournal lib operation (shortDigest lib operation.invocation))
        journal mid ∧
      Completes lib operation.patch mid journal.files after ∧
      bounded lib (journalResult journal) operation.resultBound = .error failure := by
  rcases fails_bind.mp h with h | ⟨journal, mid, hjournal, h⟩
  · exact .inl (eq_of_fails_obtainJournal h hcertain)
  · rcases fails_bind.mp h with h | ⟨_, finished, hfinish, h⟩
    · exact absurd (eq_uncertain_of_fails_orUncertain h) hcertain
    · obtain ⟨hbound, rfl⟩ := fails_check.mp h
      exact .inr ⟨journal, mid, hjournal,
        succeeds_finishJournal.mp (succeeds_orUncertain.mp hfinish), hbound⟩

/-! ## What finishing touches -/

variable {patch : String}

variable {location : Location PatchRoot} {file : JournalFile}

theorem Finishes.frame (h : Finishes lib patch disk file after) (hstaged : location ≠ stagedAt file)
    (htarget : location ≠ targetAt file.path) : after location = disk location := by
  obtain ⟨_, -, ⟨-, rfl⟩ | ⟨-, _, _, -, -, rfl⟩⟩ := h
  · rfl
  · rw [Disk.put_of_ne htarget, Disk.remove_of_ne hstaged]

theorem Completes.frame (h : Completes lib patch disk files after)
    (hfiles : ∀ file ∈ files, location ≠ stagedAt file ∧ location ≠ targetAt file.path) :
    after location = disk location := by
  induction files generalizing disk with
  | nil => rw [show after = disk from h]
  | cons file rest ih =>
    obtain ⟨_, hfirst, hrest⟩ := h
    rw [forall_mem_cons] at hfiles
    rw [ih hrest hfiles.2, hfirst.frame hfiles.1.1 hfiles.1.2]

/-- Directories stay where they are. -/
def KeepsDirectories (disk after : Disk PatchRoot) : Prop :=
  ∀ location, disk location = some .directory → after location = some .directory

theorem Walks.mono (hkeeps : KeepsDirectories disk after) {directory : Location PatchRoot}
    {parts : List String} (h : Walks disk directory parts) : Walks after directory parts := by
  induction parts generalizing directory with
  | nil => trivial
  | cons part rest ih => exact ⟨hkeeps _ h.1, ih h.2⟩

theorem Holds.mono (hkeeps : KeepsDirectories disk after) {path : String} {content : ByteArray}
    (h : Holds disk path content) (htarget : after (targetAt path) = disk (targetAt path)) :
    Holds after path content :=
  ⟨h.walks.mono hkeeps, htarget.trans h.content_eq, h.size_le⟩

theorem keepsDirectories_put (content : ByteArray) (h : disk location ≠ some .directory) :
    KeepsDirectories disk (disk.put location content) := by
  intro other hother
  rw [Disk.put_of_ne, hother]
  rintro rfl
  exact h hother

theorem KeepsDirectories.trans {mid : Disk PatchRoot} (h : KeepsDirectories disk mid)
    (h' : KeepsDirectories mid after) : KeepsDirectories disk after :=
  fun location hloc ↦ h' location (h location hloc)

theorem Finishes.keepsDirectories (h : Finishes lib patch disk file after) :
    KeepsDirectories disk after := by
  intro location hloc
  obtain ⟨_, hholds, ⟨-, rfl⟩ | ⟨-, _, _, -, hready, rfl⟩⟩ := h
  · exact hloc
  · rw [Disk.put_of_ne, Disk.remove_of_ne, hloc]
    · rintro rfl
      rcases hready with ⟨hstaged, -⟩ | ⟨hstaged, -⟩ <;> rw [hstaged] at hloc <;> cases hloc
    · rintro rfl
      rw [hholds.content_eq] at hloc
      cases hloc

/-! ## A new journal -/

/-- A staged file whose target is as it was when it was staged. -/
def Ready (lib : PatchLib) (patch : String) (disk : Disk PatchRoot) (s : StagedFile) : Prop :=
  ∃ current next, Holds disk s.file.path current ∧ lib.digest current = s.file.beforeDigest ∧
    stagedText lib patch s.file.path s.file.beforeDigest current = .ok next ∧
    s.content = next.toUTF8 ∧ s.file.afterDigest = lib.digest next.toUTF8 ∧
    disk (stagedAt s.file) = some (.file s.content)

variable {s : StagedFile}

theorem Ready.mono (hkeeps : KeepsDirectories disk after) (h : Ready lib patch disk s)
    (htarget : after (targetAt s.file.path) = disk (targetAt s.file.path))
    (hstaged : after (stagedAt s.file) = disk (stagedAt s.file)) : Ready lib patch after s := by
  obtain ⟨current, next, hholds, hdig, hnext, hcont, hafter, hplace⟩ := h
  exact ⟨current, next, hholds.mono hkeeps htarget, hdig, hnext, hcont, hafter,
    hstaged.trans hplace⟩

/-- What is staged is finished: it is left where it is, or its content comes over a different one. -/
theorem Ready.finishes (h : Ready lib patch disk s) :
    Finishes lib patch disk s.file disk ∨ ∃ mid, Finishes lib patch disk s.file mid ∧
      mid (targetAt s.file.path) = some (.file s.content) ∧
      disk (targetAt s.file.path) ≠ some (.file s.content) := by
  obtain ⟨current, _, hholds, hdig, hnext, hcont, hafter, hplace⟩ := h
  simp only [stagedText, ok_iff] at hnext
  obtain ⟨-, text, htext, _, hpatched, hsize, rfl⟩ := hnext
  rw [utf8Of, okOr_eq_ok_iff] at htext
  rw [patched, mapError_eq_ok_iff] at hpatched
  by_cases hsame : lib.digest current = s.file.afterDigest
  · exact .inl ⟨current, hholds, .inl ⟨hsame, rfl⟩⟩
  · have hexp : expectedBytes lib patch s.file current = .ok s.content := by
      simp only [expectedBytes, ok_iff, utf8Of, patched]
      exact ⟨hdig, text, htext, _, hpatched, hafter.symm, hcont.symm⟩
    refine .inr ⟨_, ⟨current, hholds, .inr ⟨hsame, s.content, s.content, hexp, .inl ⟨hplace, ?_, ?_⟩,
      rfl⟩⟩, Disk.put_self _ _ _, ?_⟩
    · rw [hcont]
      exact hsize
    · rw [hcont, hafter]
    · rw [hholds.content_eq]
      intro heq
      cases heq
      rw [hcont, hafter] at hsame
      exact hsame rfl

/-- Two staged files have nothing in common. -/
def Apart (s t : StagedFile) : Prop :=
  targetAt t.file.path ≠ stagedAt s.file ∧ targetAt t.file.path ≠ targetAt s.file.path ∧
    stagedAt t.file ≠ stagedAt s.file ∧ stagedAt t.file ≠ targetAt s.file.path

variable {staged : List StagedFile}

theorem exists_completes (hready : ∀ s ∈ staged, Ready lib patch disk s)
    (hapart : staged.Pairwise Apart) : ∃ after, Completes lib patch disk (staged.map (·.file)) after := by
  induction staged generalizing disk with
  | nil => exact ⟨disk, rfl⟩
  | cons s rest ih =>
    rw [forall_mem_cons] at hready
    rw [pairwise_cons] at hapart
    obtain ⟨mid, hmid⟩ : ∃ mid, Finishes lib patch disk s.file mid := by
      rcases hready.1.finishes with h | ⟨mid, h, -⟩
      · exact ⟨disk, h⟩
      · exact ⟨mid, h⟩
    have hrest : ∀ t ∈ rest, Ready lib patch mid t := by
      intro t ht
      obtain ⟨htarget, htarget', hstaged, hstaged'⟩ := hapart.1 t ht
      exact (hready.2 t ht).mono hmid.keepsDirectories (hmid.frame htarget htarget')
        (hmid.frame hstaged hstaged')
    obtain ⟨after, hafter⟩ := ih hrest hapart.2
    exact ⟨after, mid, hmid, hafter⟩

/-- Finishing what is staged changes the workspace: something is left beside its target, or a target
has another content. -/
theorem changed_of_completes {origin : Disk PatchRoot} {rest : List StagedFile}
    (hready : Ready lib patch disk s) (hapart : ∀ t ∈ rest, Apart s t)
    (hfree : origin (stagedAt s.file) = none)
    (htarget : disk (targetAt s.file.path) = origin (targetAt s.file.path))
    (h : Completes lib patch disk (s.file :: rest.map (·.file)) after) :
    workspaceOf after ≠ workspaceOf origin := by
  obtain ⟨mid, ⟨_, hholds, hfirst⟩, hrest⟩ := h
  obtain ⟨-, -, -, -, -, -, -, hplace⟩ := hready
  intro hsame
  rcases hfirst with ⟨-, rfl⟩ | ⟨hdig, expected, staged, -, hstaged, rfl⟩
  · have hafter : after (stagedAt s.file) = mid (stagedAt s.file) := by
      refine hrest.frame fun file hfile ↦ ?_
      obtain ⟨t, ht, rfl⟩ := mem_map.mp hfile
      exact ⟨(hapart t ht).2.2.1.symm, (hapart t ht).1.symm⟩
    have horigin : after (stagedAt s.file) = origin (stagedAt s.file) := congrFun hsame _
    rw [hafter, hplace, hfree] at horigin
    cases horigin
  · have hafter : after (targetAt s.file.path) = some (.file staged) := by
      rw [hrest.frame, Disk.put_self]
      intro file hfile
      obtain ⟨t, ht, rfl⟩ := mem_map.mp hfile
      exact ⟨(hapart t ht).2.2.2.symm, (hapart t ht).2.1.symm⟩
    have horigin : after (targetAt s.file.path) = origin (targetAt s.file.path) := congrFun hsame _
    rw [hafter, ← htarget, hholds.content_eq] at horigin
    cases horigin
    rcases hstaged with ⟨-, -, hstaged⟩ | ⟨hstaged, -⟩
    · exact hdig hstaged
    · rw [hplace] at hstaged
      cases hstaged

theorem putStaged_of_mem
    (hnodup : (staged.map fun s ↦ s.parent.child s.file.temporaryName).Nodup) (hs : s ∈ staged) :
    putStaged disk staged (s.parent.child s.file.temporaryName) = some (.file s.content) := by
  induction staged generalizing disk with
  | nil => cases hs
  | cons first rest ih =>
    rw [map_cons, nodup_cons] at hnodup
    rcases mem_cons.mp hs with rfl | hs
    · exact (putStaged_of_notMem hnodup.1).trans (Disk.put_self _ _ _)
    · exact ih hnodup.2 hs

theorem keepsDirectories_putStaged
    (h : ∀ s ∈ staged, disk (s.parent.child s.file.temporaryName) = none) :
    KeepsDirectories disk (putStaged disk staged) := by
  intro location hloc
  rw [putStaged_of_notMem, hloc]
  intro hmem
  obtain ⟨s, hs, rfl⟩ := mem_map.mp hmem
  rw [h s hs] at hloc
  cases hloc

section Prepared

variable {staged : List StagedFile} {digest : String} {bytes : ByteArray}
  (h : Prepares lib operation key disk staged digest bytes)
include h

/-- A place that is staged at is no target. -/
theorem Prepares.stagedAt_ne {t : StagedFile} (hs : s ∈ staged) (ht : t ∈ staged) :
    stagedAt s.file ≠ targetAt t.file.path := by
  intro heq
  obtain ⟨_, _, _, hholds, -, hstaged⟩ := stages_of_mem h.stages ht
  have hfree := h.staged_free s hs
  rw [heq, hstaged, hholds.content_eq] at hfree
  cases hfree

theorem Prepares.apart : staged.Pairwise Apart := by
  have hplaces := nodup_stagedAt h.stages
  have hpaths : (staged.map (·.file.path)).Nodup := by
    rw [paths_of_stages h.stages, zipIdx_map_fst]
    exact operation.expected.nodup
  rw [nodup_iff_pairwise_ne, pairwise_map] at hplaces hpaths
  refine (hplaces.and hpaths).imp_of_mem fun {s t} hs ht hne ↦ ?_
  refine ⟨(h.stagedAt_ne hs ht).symm, ?_, hne.1.symm, h.stagedAt_ne ht hs⟩
  intro heq
  exact hne.2 (pathParts_injective (congrArg Location.path heq)).symm

/-- Staging leaves the targets alone. -/
theorem Prepares.putStaged_targetAt (hs : s ∈ staged) :
    putStaged (disk.put (recoveryRoot.child (journalName key)) bytes) staged (targetAt s.file.path) =
      disk (targetAt s.file.path) := by
  rw [putStaged_of_notMem, Disk.put_of_ne]
  · simp [targetAt, recoveryRoot, Location.child]
  · rw [map_stagedAt_of_stages h.stages]
    intro hmem
    obtain ⟨_, ht, heq⟩ := mem_map.mp hmem
    exact h.stagedAt_ne ht hs heq

theorem Prepares.keepsDirectories : KeepsDirectories disk
    (putStaged (disk.put (recoveryRoot.child (journalName key)) bytes) staged) := by
  refine (keepsDirectories_put bytes (by simp [h.journal_free])).trans (keepsDirectories_putStaged ?_)
  intro s hs
  obtain ⟨_, hentry⟩ := stages_of_mem h.stages hs
  rw [stagedAt_of_stages hentry, Disk.put_of_ne, h.staged_free s hs]
  simp [stagedAt, parentOf, recoveryRoot, Location.child]

/-- When the journal is written, every file of it is ready. -/
theorem Prepares.ready : ∀ s ∈ staged, Ready lib operation.patch
    (putStaged (disk.put (recoveryRoot.child (journalName key)) bytes) staged) s := by
  intro s hs
  obtain ⟨entry, hentry⟩ := stages_of_mem h.stages hs
  have hplace : putStaged (disk.put (recoveryRoot.child (journalName key)) bytes) staged
      (stagedAt s.file) = some (.file s.content) := by
    rw [← stagedAt_of_stages hentry]
    refine putStaged_of_mem ?_ hs
    rw [map_stagedAt_of_stages h.stages]
    exact nodup_stagedAt h.stages
  have htarget := h.putStaged_targetAt hs
  obtain ⟨current, next, hholds, hnext, rfl⟩ := hentry
  have hdig : lib.digest current = entry.1.2 := by
    simp only [stagedText, ok_iff] at hnext
    exact hnext.1
  refine ⟨current, next, hholds.mono h.keepsDirectories htarget, rfl, ?_, rfl, rfl, hplace⟩
  rw [← hdig] at hnext
  exact hnext

end Prepared

/-! ## Failures that hide a change -/

/-- The journal of a call that would change the workspace: a new one, or one that was left with
something to do. -/
inductive Pending (lib : PatchLib) (operation : PatchOperation) (disk : Disk PatchRoot) :
    PatchJournal → Prop
  | prepared {staged : List StagedFile} {digest : String} {bytes : ByteArray}
    (h : Prepares lib operation (shortDigest lib operation.invocation) disk staged digest bytes)
    (hne : staged ≠ []) : Pending lib operation disk (journalOfStaged operation staged digest)
  | recovered {journal : PatchJournal} {mid after : Disk PatchRoot}
    (h : Recovers lib disk (journalName (shortDigest lib operation.invocation)) journal mid)
    (hvalid : validateJournal lib journal operation (shortDigest lib operation.invocation) = .ok ())
    (hcompl : Completes lib operation.patch mid journal.files after)
    (hchanged : workspaceOf after ≠ workspaceOf disk) : Pending lib operation disk journal

/-- The result of a journal is within the bound. -/
def Fits (lib : PatchLib) (operation : PatchOperation) (journal : PatchJournal) : Prop :=
  ∃ value, bounded lib (journalResult journal) operation.resultBound = .ok value

theorem eq_boundExceeded_of_bounded {value : Value} {bound : Nat}
    (h : bounded lib value bound = .error failure) : failure = .boundExceeded := by
  simp only [bounded, ensure] at h
  cases hpay : CanonicalPayload.fromValue lib.toExternals value with
  | error e =>
    rw [hpay] at h
    cases h
    rfl
  | ok payload =>
    rw [hpay] at h
    simp only [Except.mapError, ok_bind] at h
    split at h <;> cases h
    rfl

/-- Carrying out a pending journal. -/
theorem Pending.exists_changed (h : Pending lib operation disk journal) :
    ∃ mid after, Succeeds fileWorld disk
        (obtainJournal lib operation (shortDigest lib operation.invocation)) journal mid ∧
      Completes lib operation.patch mid journal.files after ∧ workspaceOf after ≠ workspaceOf disk := by
  cases h with
  | recovered h hvalid hcompl hchanged =>
    exact ⟨_, _, succeeds_obtainJournal.mpr (.inl ⟨h, hvalid⟩), hcompl, hchanged⟩
  | @prepared staged digest bytes h hne =>
    obtain ⟨after, hcompl⟩ := exists_completes h.ready h.apart
    refine ⟨_, after, succeeds_obtainJournal.mpr (.inr ⟨staged, digest, bytes, h, rfl, rfl⟩), hcompl, ?_⟩
    cases staged with
    | nil => exact absurd rfl hne
    | cons s rest =>
      exact changed_of_completes (h.ready s mem_cons_self)
        (pairwise_cons.mp h.apart).1 (h.staged_free s mem_cons_self)
        (h.putStaged_targetAt mem_cons_self) hcompl

/-- A pending journal whose result does not fit is carried out and reported as failed. -/
theorem Pending.exists_failure (h : Pending lib operation disk journal)
    (hfits : ¬Fits lib operation journal) : ∃ after,
      Fails fileWorld disk (executePatch lib operation) .boundExceeded after ∧
        workspaceOf after ≠ workspaceOf disk := by
  obtain ⟨mid, after, hjournal, hcompl, hchanged⟩ := h.exists_changed
  refine ⟨after, ?_, hchanged⟩
  refine fails_bind.mpr (.inr ⟨journal, mid, hjournal, fails_bind.mpr (.inr ⟨(), after,
    succeeds_orUncertain.mpr (succeeds_finishJournal.mpr hcompl), fails_check.mpr ⟨?_, rfl⟩⟩)⟩)
  cases hbound : bounded lib (journalResult journal) operation.resultBound with
  | error e => rw [eq_boundExceeded_of_bounded hbound]
  | ok value => exact absurd ⟨value, hbound⟩ hfits

def soleText : String := "a\n"

def solePatch : String := "*** Begin Patch\n*** Update File: f\n@@\n-a\n+b\n*** End Patch"

theorem pathParts_sole : pathParts "f" = ["f"] := rfl

/-- One line of one file is replaced, and there is no room for the result. -/
def unreported (lib : PatchLib) : PatchOperation where
  invocation := "invocation"
  preparedDigest := "prepared"
  patch := solePatch
  expected := {
    entries := [("f", lib.digest soleText.toUTF8)]
    nodup := by simp
    canonical := by simp [CanonicalPath, pathParts_sole] }
  resultBound := 0

/-- The workspace has this one file. -/
def soleFile : Disk PatchRoot := fun location ↦
  if location = targetAt "f" then some (.file soleText.toUTF8) else none

theorem soleFile_of_ne (h : location ≠ targetAt "f") : soleFile location = none := if_neg h

theorem temporaryName_ne_sole (key : String) : temporaryName key 0 ≠ "f" := by
  intro h
  -- its ending alone is longer
  have hlen : (temporaryName key 0).length =
      (".garive-patch-" ++ key ++ "-" ++ toString 0).length + ".tmp".length :=
    String.length_append _ _
  have hending : ".tmp".length = 4 := rfl
  have hone : "f".length = 1 := rfl
  rw [h] at hlen
  omega

def soleStaged (lib : PatchLib) (key : String) : StagedFile where
  file := {
    path := "f"
    beforeDigest := lib.digest soleText.toUTF8
    afterDigest := lib.digest "b\n".toUTF8
    temporaryName := temporaryName key 0 }
  parent := parentOf "f"
  content := "b\n".toUTF8

theorem fromUTF8?_toUTF8 (text : String) : String.fromUTF8? text.toUTF8 = some text := by
  unfold String.fromUTF8?
  split
  · rfl
  · rename_i hinvalid
    exact absurd text.isValidUTF8 hinvalid

theorem apply_solePatch : applyT1Patch solePatch "f" soleText = .ok "b\n" := by
  unfold solePatch soleText
  rfl

theorem stages_soleFile (lib : PatchLib) (key : String) :
    Stages lib key solePatch soleFile (("f", lib.digest soleText.toUTF8), 0) (soleStaged lib key) := by
  refine ⟨soleText.toUTF8, "b\n", ⟨?_, by simp [soleFile], by decide⟩, ?_, rfl⟩
  · rw [pathParts_sole]
    trivial
  · simp only [stagedText, ok_iff, utf8Of, patched]
    exact ⟨trivial, soleText, fromUTF8?_toUTF8 soleText, _, apply_solePatch, by decide, rfl⟩

/-- Every result takes some room. -/
theorem not_fits_unreported (lib : PatchLib) (journal : PatchJournal) :
    ¬Fits lib (unreported lib) journal := by
  rintro ⟨_, h⟩
  simp only [bounded, CanonicalPayload.fromValue, encode, ok_iff, journalResult, json,
    encodeValue] at h
  obtain ⟨_, ⟨_, ⟨_, ⟨body, -, rfl⟩, rfl⟩, rfl⟩, hsize, -⟩ := h
  have hempty : String.ofList ('{' :: body ++ ['}']) = "" := by
    rw [← String.utf8ByteSize_eq_zero_iff]
    exact Nat.le_zero.mp hsize
  simp at hempty

theorem plain_fileJson (file : JournalFile) : (fileJson file).Plain 1 := Value.plain_json (by simp)

/-- With any digest, and a writer that can write journals. -/
theorem prepares_soleFile (lib : PatchLib) (hwr : ∀ journal, (lib.journalBytes journal).isSome)
    (key : String) : ∃ digest bytes,
      Prepares lib (unreported lib) key soleFile [soleStaged lib key] digest bytes := by
  have hexact : (json [("files", .array ([(soleStaged lib key).file].map fileJson))]).Exact := by
    have hfile : (fileJson (soleStaged lib key).file).Plain 1 := plain_fileJson _
    have harray : (Value.array [fileJson (soleStaged lib key).file]).Plain 2 :=
      Value.plain_array (forall_mem_singleton.mpr hfile)
    have hjson : (json [("files", .array [fileJson (soleStaged lib key).file])]).Plain 3 :=
      Value.plain_json (forall_mem_singleton.mpr harray)
    exact hjson.exact
  obtain ⟨payload, hpay⟩ := CanonicalPayload.exists_fromValue lib.toExternals hexact
  obtain ⟨bytes, hbytes⟩ := Option.isSome_iff_exists.mp
    (hwr (journalOfStaged (unreported lib) [soleStaged lib key] payload.sha256))
  refine ⟨payload.sha256, bytes, ⟨.cons (stages_soleFile lib key) .nil, ?_, hbytes, ?_, ?_, ?_⟩⟩
  · simp only [map_cons, map_nil] at hpay ⊢
    rw [receiptDigest, map_cons, map_nil, hpay]
    rfl
  · exact soleFile_of_ne fun heq ↦ nomatch congrArg Location.root heq
  · exact soleFile_of_ne fun heq ↦ nomatch congrArg Location.root heq
  · intro s hs
    rw [mem_singleton.mp hs]
    refine soleFile_of_ne fun heq ↦ temporaryName_ne_sole key ?_
    have hpath := congrArg Location.path heq
    simp only [soleStaged, stagedAt, Location.child, targetAt, parentOf, pathParts_sole,
      dropLast_singleton, nil_append] at hpath
    exact singleton_inj.mp hpath

/-- A digest of some kind and a writer of journals. -/
def plainPatchLib : PatchLib :=
  { reference with
    digest := fun content ↦ (String.fromUTF8? content).getD ""
    journalBytes := fun _ ↦ some .empty
    journalOf := fun _ ↦ none }

end Patching

end Garive
