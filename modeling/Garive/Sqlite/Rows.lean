import Garive.Ledger.Turns
import Garive.Sqlite.Load

/-!
# What a loaded ledger contains

Whatever the tables hold, a load that succeeds leaves no row out and adds nothing: the facts of the
loaded ledger are the rows, session by session. The loader commits the rows it has collected when the
next batch begins, so the statement that survives each row is about the committed facts and the ones
being collected together.
-/

namespace Garive

namespace LedgerState

variable {lib : Externals} {state next : LedgerState}

/-- A commit that appends leaves the facts of its session in front of its batch. -/
theorem mem_facts_of_commit {sessionId : SessionId} {version : Nat} {batch : List FactDraft}
    {result : CommitResult} (h : state.commit lib sessionId version batch = (.ok result, next))
    (hcomd : result.disposition = .committed) (other : SessionId) (draft : FactDraft) :
    draft ∈ (next.session other).facts.map (·.toDraft) ↔
      draft ∈ (state.session other).facts.map (·.toDraft) ∨ sessionId = other ∧ draft ∈ batch := by
  obtain ⟨position, projection, -, -, rfl⟩ := appends_of_commit h hcomd
  rw [session_appended]
  split
  · rename_i heq
    subst heq
    simp only [SessionLedger.extended, List.map_append, List.mem_append, map_toDraft_numbered,
      true_and]
  · rename_i hne
    simp [hne]

end LedgerState

namespace SqliteLedger

variable {lib : Externals} {sqlite : Sqlite} {db : Database} {state : LedgerState}
  {loop next : LoadState} {sessionId : SessionId} {draft : FactDraft}

/-- The row is the draft's, in the session. -/
def RowOf (lib : Externals) (row : StoredFact) (sessionId : SessionId) (draft : FactDraft) : Prop :=
  identity row.sessionId "session_id" = .ok sessionId ∧ decodeDraft lib row = .ok draft

/-- The draft is committed, or it is being collected. -/
def LoadState.Contains (loop : LoadState) (sessionId : SessionId) (draft : FactDraft) : Prop :=
  draft ∈ (loop.state.session sessionId).facts.map (·.toDraft) ∨
    loop.groupSession = some sessionId ∧ draft ∈ loop.group

/-- Between two rows: the state was built by commits, and what is collected belongs to a session. -/
structure LoadState.Sound (lib : Externals) (loop : LoadState) : Prop where
  reachable : LedgerState.Reachable lib loop.state
  owned : loop.groupSession = none → loop.group = []

/-- A stored batch that is accepted is appended. -/
theorem applyGroup_eq_ok {version : Nat} {drafts : List FactDraft} {after : LedgerState}
    (h : applyGroup lib state sessionId version drafts = .ok after)
    (hreach : LedgerState.Reachable lib state) :
    LedgerState.Reachable lib after ∧ ∀ other draft,
      draft ∈ (after.session other).facts.map (·.toDraft) ↔
        draft ∈ (state.session other).facts.map (·.toDraft) ∨ sessionId = other ∧ draft ∈ drafts := by
  simp only [applyGroup, ok_iff] at h
  obtain ⟨-, h⟩ := h
  split at h
  · cases h
  · rename_i result moved hcom
    split at h
    · rename_i hcomd
      cases h
      refine ⟨?_, fun other draft ↦ LedgerState.mem_facts_of_commit hcom hcomd.1 other draft⟩
      have hstep := hreach.step ⟨sessionId, version - 1, drafts⟩
      rwa [show ((ledgerMachine lib).step state ⟨sessionId, version - 1, drafts⟩).2 = after from
        congrArg (·.2) hcom] at hstep
    · cases h

/-- Closing a batch moves it from the collected facts to the committed ones. -/
theorem closeGroup_eq_ok {version : Nat} (h : closeGroup lib loop sessionId version = .ok next)
    (hsound : loop.Sound lib) :
    next.Sound lib ∧ (next.groupSession = none ∨ next.groupSession = some sessionId) ∧
      ∀ other draft, next.Contains other draft ↔ loop.Contains other draft := by
  unfold closeGroup at h
  split at h
  · rename_i hnone
    cases h
    exact ⟨hsound, .inl hnone, fun _ _ ↦ Iff.rfl⟩
  · rename_i current hcur
    split at h
    · simp only [ok_iff] at h
      obtain ⟨_, hstate, rfl⟩ := h
      obtain ⟨hreach, hfacts⟩ := applyGroup_eq_ok hstate hsound.reachable
      refine ⟨⟨hreach, fun _ ↦ rfl⟩, .inl rfl, fun other draft ↦ ?_⟩
      simp only [LoadState.Contains, hfacts, hcur, Option.some.injEq, reduceCtorEq, false_and,
        or_false]
    · rename_i hsame
      cases h
      rw [not_or, not_not] at hsame
      exact ⟨hsound, .inr (hsame.1 ▸ hcur), fun _ _ ↦ Iff.rfl⟩

/-- A row joins what was read. -/
theorem loadRow_eq_ok {row : StoredFact} (h : loadRow lib loop row = .ok next)
    (hsound : loop.Sound lib) :
    next.Sound lib ∧ ∃ sessionId draft, RowOf lib row sessionId draft ∧
      ∀ other found, next.Contains other found ↔
        loop.Contains other found ∨ sessionId = other ∧ found = draft := by
  simp only [loadRow, ok_iff] at h
  obtain ⟨sessionId, hsess, version, -, _, -, closed, hclosed, -, _, -, draft, hdraft,
    rfl⟩ := h
  obtain ⟨hsound', hgroup, hcontains⟩ := closeGroup_eq_ok hclosed hsound
  have hopened : (openGroup closed sessionId version).groupSession = some sessionId := by
    rcases hgroup with hnone | hsome
    · simp [openGroup, hnone]
    · simp [openGroup, hsome]
  have hkept : (openGroup closed sessionId version).state = closed.state ∧
      (openGroup closed sessionId version).group = closed.group := by
    unfold openGroup
    split <;> exact ⟨rfl, rfl⟩
  refine ⟨⟨hkept.1 ▸ hsound'.reachable, fun hnone ↦ ?_⟩, sessionId, draft, ⟨hsess, hdraft⟩,
    fun other found ↦ ?_⟩
  · rw [hopened] at hnone
    cases hnone
  · rw [← hcontains other found]
    simp only [LoadState.Contains, hopened, hkept, Option.some.injEq, List.mem_append,
      List.mem_singleton]
    rcases hgroup with hnone | hsome
    · simp [hnone, hsound'.owned hnone]
    · simp only [hsome, Option.some.injEq, and_or_left, or_assoc]

/-- The loop over the rows reads all of them. -/
theorem loadRows_eq_ok {rows : List StoredFact} (h : loadRows lib loop rows = .ok next)
    (hsound : loop.Sound lib) :
    next.Sound lib ∧ (∀ row ∈ rows, ∃ sessionId draft, RowOf lib row sessionId draft) ∧
      ∀ other found, next.Contains other found ↔
        loop.Contains other found ∨ ∃ row ∈ rows, RowOf lib row other found := by
  induction rows generalizing loop with
  | nil =>
    cases h
    exact ⟨hsound, by simp, by simp⟩
  | cons row rest ih =>
    simp only [loadRows, bind_eq_ok_iff] at h
    obtain ⟨_, hmiddle, hrest⟩ := h
    obtain ⟨hsound', sessionId, draft, hrow, hcontains⟩ := loadRow_eq_ok hmiddle hsound
    obtain ⟨hfinal, hread, hall⟩ := ih hrest hsound'
    refine ⟨hfinal, List.forall_mem_cons.mpr ⟨⟨sessionId, draft, hrow⟩, hread⟩, fun other found ↦ ?_⟩
    -- A row is read in one way only.
    have hunique : sessionId = other ∧ found = draft ↔ RowOf lib row other found := by
      constructor
      · rintro ⟨rfl, rfl⟩
        exact hrow
      · rintro ⟨hsess, hdraft⟩
        exact ⟨Except.ok.inj (hrow.1.symm.trans hsess), Except.ok.inj (hdraft.symm.trans hrow.2)⟩
    rw [hall, hcontains, hunique, or_assoc, List.exists_mem_cons_iff]

/-- The loaded facts are the rows. -/
structure Loaded (lib : Externals) (db : Database) (state : LedgerState) : Prop where
  reachable : LedgerState.Reachable lib state
  read : ∀ row ∈ db.facts, ∃ sessionId draft, RowOf lib row sessionId draft
  mem_facts_iff : ∀ sessionId draft, draft ∈ (state.session sessionId).facts.map (·.toDraft) ↔
    ∃ row ∈ db.facts, RowOf lib row sessionId draft

/-- A load that succeeds leaves no row out and adds nothing. -/
theorem loaded_of_loadStateSnapshot (hsqlite : sqlite.Documented)
    (h : loadStateSnapshot lib sqlite db = .ok state) : Loaded lib db state := by
  simp only [loadStateSnapshot, ok_iff] at h
  obtain ⟨loop, hloop, found, hfound, -, rfl⟩ := h
  have hstart : LoadState.Sound lib {} := ⟨(ledgerMachine lib).reachable_init, fun _ ↦ rfl⟩
  obtain ⟨hsound, hread, hcontains⟩ := loadRows_eq_ok hloop hstart
  have hmem : ∀ row, row ∈ sqlite.select db.facts ↔ row ∈ db.facts := fun row ↦
    (hsqlite.select_perm db.facts).mem_iff
  simp only [hmem] at hread hcontains
  have hempty : ∀ sessionId draft, ¬({} : LoadState).Contains sessionId draft := by
    simp [LoadState.Contains, LedgerState.session]
  obtain ⟨hreach, hfacts⟩ : LedgerState.Reachable lib found ∧ ∀ other draft,
      draft ∈ (found.session other).facts.map (·.toDraft) ↔ loop.Contains other draft := by
    unfold finishGroup at hfound
    split at hfound
    · rename_i session hsess
      obtain ⟨hreach, hfacts⟩ := applyGroup_eq_ok hfound hsound.reachable
      refine ⟨hreach, fun other draft ↦ ?_⟩
      rw [hfacts, LoadState.Contains, hsess, Option.some.injEq]
    · rename_i hnone
      cases hfound
      exact ⟨hsound.reachable, fun other draft ↦ by simp [LoadState.Contains, hnone]⟩
  refine ⟨hreach, hread, fun sessionId draft ↦ ?_⟩
  rw [hfacts, hcontains, or_iff_right (hempty _ _)]

end SqliteLedger

end Garive
