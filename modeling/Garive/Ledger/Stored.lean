import Garive.Ledger.Course

/-!
# Stored facts

What is known about the facts of a session of a reachable ledger when another batch is committed to
it: each of them was admitted, the index leads to them and to nothing else, and an identity that one
of them names belongs to no other session.
-/

namespace Garive

namespace LedgerState

variable {lib : Externals} {state after : LedgerState} {sessionId : SessionId} {version : Nat}
  {batch : List FactDraft} {result : CommitResult} {fact draft : FactDraft}

/-- The drafts of a session's facts. -/
def history (state : LedgerState) (sessionId : SessionId) : List FactDraft :=
  (state.session sessionId).facts.map (·.toDraft)

theorem Reachable.leads_history (h : Reachable lib state) (sessionId : SessionId) :
    Leads lib .any (state.history sessionId) (state.session sessionId).projection ∧
      (state.session sessionId).projection.validateCommitBoundary = .ok () :=
  Reachable.leads_session h sessionId

theorem Reachable.records (h : Reachable lib state) (sessionId : SessionId) :
    (state.session sessionId).Records sessionId (state.history sessionId) := by
  obtain ⟨found, hrecs⟩ := (Reachable.wellFormed h).session_records sessionId
  have hhistory : state.history sessionId = found := by
    rw [history, hrecs.facts_eq, map_toDraft_numbered]
  rwa [hhistory]

theorem length_history (state : LedgerState) (sessionId : SessionId) :
    (state.history sessionId).length = (state.session sessionId).facts.length :=
  List.length_map ..

/-- A stored fact was admitted when it was committed. -/
theorem Reachable.admitted (h : Reachable lib state) (hfact : fact ∈ state.history sessionId) :
    fact.validate lib = .ok () ∧ ∃ disposition, validateRuntimeFact lib fact = .ok disposition := by
  obtain ⟨_, hbuilt⟩ := Reachable.built h
  have hsess := hbuilt.session sessionId
  rw [history, hsess.records.facts_eq, map_toDraft_numbered, List.mem_flatten] at hfact
  obtain ⟨found, hfound, hmem⟩ := hfact
  exact (hsess.valid found hfound).2 fact hmem

/-- The index leads to stored facts. -/
theorem Reachable.mem_history_of_indexed (h : Reachable lib state) {id : FactId}
    {entry : FactIndexEntry} (hentry : state.factIndex[id]? = some entry) :
    entry.draft ∈ state.history entry.sessionId ∧ entry.draft.factId = id := by
  have hwf := Reachable.wellFormed h
  obtain ⟨hid, session, hsess, hdraft⟩ := (hwf.indexed id entry).mp hentry
  rw [← session_of_get? hsess, (Reachable.records h entry.sessionId).get?_drafts_iff_mem_facts] at hdraft
  exact ⟨List.mem_map.mpr ⟨_, hdraft, DurableFact.toDraft_ofDraft ..⟩, hid⟩

/-- A stored fact is in the index. -/
theorem Reachable.indexed_of_mem_history (h : Reachable lib state)
    (hfact : fact ∈ state.history sessionId) :
    ∃ entry, state.factIndex[fact.factId]? = some entry ∧ entry.sessionId = sessionId ∧
      entry.draft = fact := by
  obtain ⟨durable, hdurable, rfl⟩ := List.mem_map.mp hfact
  have hrecs := Reachable.records h sessionId
  obtain ⟨draft, hdraft, hget⟩ := hrecs.exists_draft hdurable
  have hsess : ∃ session, state.sessions[sessionId]? = some session := by
    cases hsess : state.sessions[sessionId]? with
    | some session => exact ⟨session, rfl⟩
    | none => simp [LedgerState.session, hsess] at hdurable
  obtain ⟨session, hsess⟩ := hsess
  rw [hdraft, DurableFact.toDraft_ofDraft]
  exact ⟨⟨sessionId, durable.position, draft⟩, ((Reachable.wellFormed h).indexed _ _).mpr
    ⟨rfl, session, hsess, session_of_get? hsess ▸ hget⟩, rfl, rfl⟩

/-- A draft that names no identity beyond those of a stored fact is owned by its session. -/
theorem Reachable.unowned (h : Reachable lib state) (hfact : fact ∈ state.history sessionId)
    (hturn : draft.turnId = none ∨ draft.turnId = fact.turnId)
    (hexec : draft.executionId = none ∨ draft.executionId = fact.executionId)
    (hreq : draft.modelRequestId = none ∨ draft.modelRequestId = fact.modelRequestId)
    (htool : draft.toolInvocationId = none ∨ draft.toolInvocationId = fact.toolInvocationId) :
    state.identityOwnedByOtherSession sessionId draft = false := by
  obtain ⟨stored, hstored, hsess, rfl⟩ := Reachable.indexed_of_mem_history h hfact
  refine Map.any_eq_false_iff.mpr fun id entry hentry ↦ ?_
  by_cases hne : entry.sessionId = sessionId
  · simp [hne]
  · have hshares := (Reachable.wellFormed h).unshared id stored.draft.factId entry stored hentry
      hstored (by rw [hsess]; exact hne)
    have hpresent : ∀ {α : Type} [DecidableEq α] {a b c : Option α}, samePresent a b = false →
        c = none ∨ c = b → samePresent a c = false := by
      rintro α _ a b c hab (rfl | rfl)
      · cases a <;> rfl
      · exact hab
    simp only [FactDraft.sharesIdentity, Bool.or_eq_false_iff] at hshares ⊢
    simp only [hpresent hshares.1.1.1 hturn, hpresent hshares.1.1.2 hexec,
      hpresent hshares.1.2 hreq, hpresent hshares.2 htool, Bool.or_self, Bool.and_false]

/-- What a commit that succeeded has screened. -/
theorem screened_of_commit (h : state.commit lib sessionId version batch = (.ok result, after)) :
    ∀ draft ∈ batch, Screened lib state sessionId draft := by
  rcases commit_cases lib state sessionId version batch with ⟨e, he⟩ | ⟨session, hreplays⟩ |
    ⟨position, projection, happ⟩
  · rw [he] at h
    cases h
  · exact hreplays.screened
  · exact happ.screened

end LedgerState

end Garive
