import Garive.Ledger.History

/-!
# Replays survive later history

A batch that was committed once is answered with its original positions ever after, whatever has
been committed since and to whichever sessions, as long as it is resubmitted with the same meaning.
Two facts carry this. The index only grows, so the batch is still found where it was. And no other
session can have taken over one of its identities in the meantime, so the resubmission passes the
ownership check that was made before the first commit.
-/

namespace Garive.LedgerState

open List

variable {lib : Externals} {state : LedgerState}

variable {entry : FactIndexEntry} {id : FactId}

/-- The index keeps every entry it has. -/
theorem get?_factIndex_commit (h : state.factIndex[id]? = some entry) (sessionId : SessionId)
    (version : Nat) (batch : List FactDraft) :
    (state.commit lib sessionId version batch).2.factIndex[id]? = some entry := by
  rcases commit_cases lib state sessionId version batch with
    ⟨e, he⟩ | ⟨found, hreplays⟩ | ⟨position, projection, happ⟩
  · rw [he]
    exact h
  · rw [commit_of_replays hreplays]
    exact h
  · rw [commit_of_appends happ, get?_factIndex_appended happ]
    exact .inl h

/-- An indexed entry is found after any further commits. -/
theorem get?_factIndex_runFrom (h : state.factIndex[id]? = some entry) (calls : List CommitCall) :
    ((ledgerMachine lib).runFrom state calls).2.factIndex[id]? = some entry :=
  (ledgerMachine lib).runFrom_induction (P := fun s ↦ s.factIndex[id]? = some entry) h
    (fun _ call hs ↦ get?_factIndex_commit hs call.sessionId call.expectedSessionVersion
      call.drafts) calls

/-- In a well-formed state, a draft with the meaning of an indexed one passes the ownership check of
that entry's session. -/
theorem WellFormed.unowned_of_indexed (h : WellFormed state)
    (hentry : state.factIndex[draft.factId]? = some entry)
    (hsame : entry.draft.sameSemantics draft) :
    state.identityOwnedByOtherSession entry.sessionId draft = false := by
  rw [identityOwnedByOtherSession, Map.any_eq_false_iff]
  intro id other hother
  by_cases hsess : other.sessionId = entry.sessionId
  · simp [hsess]
  · have hunshared := h.unshared id draft.factId other entry hother hentry hsess
    rw [FactDraft.sameSemantics_iff.mp hsame] at hunshared
    have hdraft : other.draft.sharesIdentity draft = false := hunshared
    simp [hdraft]

/-- A draft with the meaning of an indexed one passes the screening of that entry's session, if its
timestamp is valid and the indexed draft was admitted. -/
theorem WellFormed.screened_of_indexed (h : WellFormed state)
    (hentry : state.factIndex[draft.factId]? = some entry)
    (hsame : entry.draft.sameSemantics draft) (hvalid : entry.draft.validate lib = .ok ())
    (hadm : ∃ disposition, validateRuntimeFact lib entry.draft = .ok disposition)
    (htime : lib.parseFromRfc3339 draft.recordedAt) :
    Screened lib state entry.sessionId draft := by
  have heq := FactDraft.sameSemantics_iff.mp hsame
  refine ⟨?_, ?_, h.unowned_of_indexed hentry hsame, ?_⟩
  · rw [heq] at hvalid
    simp only [FactDraft.validate] at hvalid ⊢
    split at hvalid
    · cases hvalid
    · rename_i hschema
      rw [if_neg]
      · exact hvalid
      · rintro (hzero | hbad)
        · exact hschema (.inl hzero)
        · rw [htime] at hbad
          cases hbad
  · rwa [validateRuntimeFact_congr hsame] at hadm
  · intro existing hexisting
    rw [hentry, Option.some.injEq] at hexisting
    exact hexisting ▸ ⟨rfl, hsame⟩

/-- Drafts that agree with a batch, one by one, in everything but their timestamps, all of which are
valid. -/
def Resubmits (lib : Externals) (batch resubmitted : List FactDraft) : Prop :=
  List.Forall₂ (fun draft other ↦ other = { draft with recordedAt := other.recordedAt } ∧
    lib.parseFromRfc3339 other.recordedAt = true) batch resubmitted

variable {batch resubmitted : List FactDraft}

theorem Resubmits.length_eq (h : Resubmits lib batch resubmitted) :
    batch.length = resubmitted.length :=
  List.Forall₂.length_eq h

/-- Each resubmitted draft has the meaning of the draft at its place in the batch. -/
theorem Resubmits.get? (h : Resubmits lib batch resubmitted) {offset : Nat} {other : FactDraft}
    (hget : resubmitted[offset]? = some other) :
    ∃ draft, batch[offset]? = some draft ∧ draft.sameSemantics other ∧
      other.factId = draft.factId ∧ lib.parseFromRfc3339 other.recordedAt := by
  induction h generalizing offset with
  | nil => simp at hget
  | @cons draft found batch resubmitted hhead htail ih =>
    cases offset with
    | zero =>
      simp only [getElem?_cons_zero, Option.some.injEq] at hget
      subst hget
      refine ⟨draft, rfl, ?_, ?_, hhead.2⟩
      · rw [hhead.1]
        exact FactDraft.sameSemantics_iff.mpr rfl
      · rw [hhead.1]
    | succ offset => exact ih (by simpa using hget)

/-- Drafts found at consecutive positions are found at a range of positions. -/
private theorem filterMap_eq_range' {f : FactDraft → Option Nat}
    (h : ∀ (offset : Nat) (draft : FactDraft), batch[offset]? = some draft → f draft = some (position + offset)) :
    batch.filterMap f = range' position batch.length := by
  induction batch generalizing position with
  | nil => rfl
  | cons draft rest ih =>
    have hhead : f draft = some position := h 0 draft rfl
    rw [filterMap_cons_some hhead, length_cons, range'_succ]
    congr 1
    apply ih
    intro offset other hget
    rw [h (offset + 1) other (by simpa using hget), Nat.add_assoc, Nat.add_comm 1]

/-- A batch whose drafts are all indexed at consecutive positions replays under any resubmission. -/
theorem WellFormed.commit_resubmitted (h : WellFormed state) {sessionId : SessionId}
    (hne : batch ≠ []) (hnodup : (batch.map (·.factId)).Nodup)
    (hvalid : ∀ draft ∈ batch, draft.validate lib = .ok () ∧ ∃ disposition, validateRuntimeFact lib draft = .ok disposition)
    (hindexed : ∀ (offset : Nat) (draft : FactDraft), batch[offset]? = some draft → state.factIndex[draft.factId]? = some ⟨sessionId, position + offset, draft⟩)
    (hresubmits : Resubmits lib batch resubmitted) (version : Nat) :
    state.commit lib sessionId version resubmitted =
      (.ok ⟨.replayed, (state.session sessionId).version,
        range' position batch.length⟩, state) := by
  -- The session exists: the index knows a fact of it.
  obtain ⟨session, hsess⟩ : ∃ session, state.sessions[sessionId]? = some session := by
    obtain ⟨draft, _, rfl⟩ := exists_cons_of_ne_nil hne
    obtain ⟨-, session, hsess, -⟩ := (h.indexed _ _).mp (hindexed 0 draft rfl)
    exact ⟨session, hsess⟩
  have hfound : ∀ (offset : Nat) (other : FactDraft), resubmitted[offset]? = some other →
      ∃ draft, state.factIndex[other.factId]? = some ⟨sessionId, position + offset, draft⟩ ∧
        draft ∈ batch ∧ draft.sameSemantics other ∧
        lib.parseFromRfc3339 other.recordedAt := by
    intro offset other hget
    obtain ⟨draft, hdraft, hsame, hid, htime⟩ := hresubmits.get? hget
    exact ⟨draft, hid ▸ hindexed offset draft hdraft, mem_of_getElem? hdraft, hsame, htime⟩
  have hids : resubmitted.map (·.factId) = batch.map (·.factId) := by
    apply ext_getElem?
    intro offset
    rw [getElem?_map, getElem?_map]
    cases hget : resubmitted[offset]? with
    | none =>
      rw [getElem?_eq_none_iff, ← hresubmits.length_eq, ← getElem?_eq_none_iff] at hget
      rw [hget]
    | some other =>
      obtain ⟨draft, hdraft, -, hid, -⟩ := hresubmits.get? hget
      rw [hdraft, Option.map_some, Option.map_some, hid]
  have hreplays : Replays lib state sessionId resubmitted session := by
    refine ⟨?_, ?_, hids ▸ hnodup, ?_, hsess⟩
    · intro hnil
      apply hne
      rw [← length_eq_zero_iff, hresubmits.length_eq, hnil, length_nil]
    · intro other hother
      obtain ⟨offset, hget⟩ := getElem?_of_mem hother
      obtain ⟨draft, hentry, hmem, hsame, htime⟩ := hfound offset other hget
      exact h.screened_of_indexed hentry hsame (hvalid draft hmem).1 (hvalid draft hmem).2 htime
    · intro other hother
      obtain ⟨offset, hget⟩ := getElem?_of_mem hother
      obtain ⟨draft, hentry, -⟩ := hfound offset other hget
      exact ⟨position + offset, by simp [storedPosition?, hentry]⟩
  have hposs : resubmitted.filterMap state.storedPosition?
      = range' position resubmitted.length := by
    apply filterMap_eq_range'
    intro offset other hget
    obtain ⟨draft, hentry, -⟩ := hfound offset other hget
    simp [storedPosition?, hentry]
  rw [commit_of_replays hreplays, hposs, hresubmits.length_eq, session_of_get? hsess]

/-- A batch with a draft that contradicts an indexed one is rejected. -/
theorem commit_contradicting (hentry : state.factIndex[draft.factId]? = some entry)
    (hdiffers : entry.draft.sameSemantics draft = false) (sessionId : SessionId) (version : Nat)
    (hmem : draft ∈ batch) : ∃ e, state.commit lib sessionId version batch = (.error e, state) := by
  have hnot : ¬Screened lib state sessionId draft := by
    intro hscreened
    rw [(hscreened.consistent entry hentry).2] at hdiffers
    cases hdiffers
  rcases commit_cases lib state sessionId version batch with
    herror | ⟨found, hreplays⟩ | ⟨position, projection, happ⟩
  · exact herror
  · exact absurd (hreplays.screened draft hmem) hnot
  · exact absurd (happ.screened draft hmem) hnot

/-- **Idempotent replay survives later history.** Once a batch has been committed, after any further
commits to any sessions, resubmitting it with other valid timestamps and any expected version is
answered as a replay at the original positions and changes nothing, and a batch that contains one of
its fact identities with a different envelope or payload is rejected and changes nothing. -/
theorem replay_after_run {before after : LedgerState} {sessionId : SessionId} {version : Nat}
    {batch : List FactDraft} {result : CommitResult} (hreachable : Reachable lib before)
    (hcommit : before.commit lib sessionId version batch = (.ok result, after))
    (hcommitted : result.disposition = .committed) (calls : List CommitCall) :
    let later := ((ledgerMachine lib).runFrom after calls).2
    (∀ (expected : Nat) (resubmitted : List FactDraft), Resubmits lib batch resubmitted →
      later.commit lib sessionId expected resubmitted =
        (.ok ⟨.replayed, (later.session sessionId).version, result.positions⟩, later)) ∧
    (∀ (otherSession : SessionId) (expected : Nat) (submitted : List FactDraft)
      (draft other : FactDraft), draft ∈ batch → other ∈ submitted →
        other.factId = draft.factId → other ≠ { draft with recordedAt := other.recordedAt } →
        ∃ e, later.commit lib otherSession expected submitted = (.error e, later)) := by
  intro later
  obtain ⟨position, projection, happends, rfl, rfl⟩ := appends_of_commit hcommit hcommitted
  have hafter : Reachable lib (before.appended sessionId batch position projection) := by
    have hstep := hreachable.step (m := ledgerMachine lib) ⟨sessionId, version, batch⟩
    rwa [show (ledgerMachine lib).step before ⟨sessionId, version, batch⟩
      = before.commit lib sessionId version batch from rfl, commit_of_appends happends] at hstep
  have hlater : WellFormed later := Reachable.wellFormed (hafter.runFrom calls)
  have hindexed : ∀ (offset : Nat) (draft : FactDraft), batch[offset]? = some draft →
      later.factIndex[draft.factId]? = some ⟨sessionId, position + offset, draft⟩ := by
    intro offset draft hget
    apply get?_factIndex_runFrom
    rw [get?_factIndex_appended happends]
    exact .inr ⟨offset, draft, hget, rfl, rfl⟩
  constructor
  · intro expected resubmitted hresubmits
    exact hlater.commit_resubmitted happends.nonempty happends.nodup
      (fun draft hd ↦ ⟨(happends.screened draft hd).valid, (happends.screened draft hd).admitted⟩)
      hindexed hresubmits expected
  · intro otherSession expected submitted draft other hdraft hother hid hdiffers
    obtain ⟨offset, hget⟩ := getElem?_of_mem hdraft
    refine commit_contradicting (hid ▸ hindexed offset draft hget) ?_ otherSession expected hother
    rw [← Bool.not_eq_true, FactDraft.sameSemantics_iff]
    intro hsame
    have hmeaning : draft = { other with recordedAt := draft.recordedAt } := hsame
    exact hdiffers (by rw [hmeaning])

/-- An opening resubmitted at another version after a failed commit is a replay. -/
theorem replay_after_opening : ∃ (result : CommitResult) (after : LedgerState),
    ({} : LedgerState).commit reference runSession 0 [openingFact] = (.ok result, after) ∧
    result.disposition = .committed ∧
    (let later := ((ledgerMachine reference).runFrom after [⟨runSession, 1, []⟩]).2
     later.commit reference runSession 7 [openingFact] =
      (.ok ⟨.replayed, (later.session runSession).version, result.positions⟩, later)) := by
  obtain ⟨after, hcommit, -⟩ := (holds_empty reference runSession).commit follows_opening
  refine ⟨_, after, hcommit, rfl, ?_⟩
  have hreplay := replay_after_run (ledgerMachine reference).reachable_init hcommit rfl
    [⟨runSession, 1, []⟩]
  exact hreplay.1 7 [openingFact] (.cons ⟨rfl, parseFromRfc3339_reference⟩ .nil)

end Garive.LedgerState
