import Garive.Ledger.Representation

/-!
# Reading a whole session

A planner reads a session up to its watermark and decides on what it read. In every state that
commits lead to the read succeeds and returns the session's facts, whose identities are all
different. `commit_sessions` says what a commit does to the facts of the sessions.
-/

namespace Garive

open List

/-- The version of a session and its highest position. -/
structure SessionWatermark where
  sessionVersion : Nat
  maxPosition : Nat
deriving DecidableEq

/-- The watermark of a session that exists. -/
def LedgerState.sessionWatermark (state : LedgerState) (sessionId : SessionId) :
    Option SessionWatermark :=
  state.sessions[sessionId]?.map fun session ↦
    { sessionVersion := session.version, maxPosition := session.facts.length }

/-- A list of facts numbered from one, each verified, with different identities. -/
structure StoredFacts (lib : Externals) (facts : List DurableFact) : Prop where
  positions : facts.map (·.position) = range' 1 facts.length
  ids : (facts.map (·.factId)).Nodup
  verified : ∀ fact ∈ facts, fact.verify lib = .ok ()

variable {fact : DurableFact}

namespace StoredFacts

variable {lib : Externals} {facts : List DurableFact}

theorem position_le (h : StoredFacts lib facts) (hfact : fact ∈ facts) :
    0 < fact.position ∧ fact.position ≤ facts.length := by
  have hmem := mem_map_of_mem (f := (·.position)) hfact
  rw [h.positions, mem_range'_1] at hmem
  omega

variable {added : List DurableFact}

/-- The positions of two parts of a history. -/
theorem positions_append (h : StoredFacts lib (facts ++ added)) :
    facts.map (·.position) = range' 1 facts.length ∧
      added.map (·.position) = range' (1 + facts.length) added.length := by
  have hposs := h.positions
  rw [map_append, length_append, ← range'_append_1] at hposs
  exact append_inj hposs (by simp)

theorem of_append (h : StoredFacts lib (facts ++ added)) : StoredFacts lib facts where
  positions := h.positions_append.1
  ids := by
    have hids := h.ids
    rw [map_append] at hids
    exact hids.of_append_left
  verified fact hfact := h.verified fact (mem_append_left _ hfact)

/-- Later facts lie above the earlier ones. -/
theorem lt_position (h : StoredFacts lib (facts ++ added)) (hfact : fact ∈ added) :
    facts.length < fact.position := by
  have hmem := mem_map_of_mem (f := (·.position)) hfact
  rw [h.positions_append.2, mem_range'_1] at hmem
  omega

end StoredFacts

namespace LedgerState

variable {lib : Externals} {state : LedgerState}

/-- A commit appends its batch to one session, or it changes nothing. -/
theorem commit_sessions (lib : Externals) (h : WellFormed state) (sessionId : SessionId) (version : Nat)
    (batch : List FactDraft) :
    ((∀ result, (state.commit lib sessionId version batch).1 = .ok result →
        result.disposition = .replayed) ∧ (state.commit lib sessionId version batch).2 = state) ∨
    ∃ (positions : List Nat) (next : SessionLedger),
      (state.commit lib sessionId version batch).1 = .ok ⟨.committed, version + 1, positions⟩ ∧
      (state.commit lib sessionId version batch).2.sessions = state.sessions.insert sessionId next ∧
      (∀ draft ∈ batch, Screened lib state sessionId draft ∧
        state.factIndex[draft.factId]? = none) ∧ batch ≠ [] ∧ (batch.map (·.factId)).Nodup ∧
      (state.session sessionId).version = version ∧ next.version = version + 1 ∧
      next.facts = (state.session sessionId).facts ++
        numbered sessionId ((state.session sessionId).facts.length + 1) batch := by
  rcases commit_cases lib state sessionId version batch with
    ⟨e, he⟩ | ⟨found, hreplays⟩ | ⟨position, projection, happ⟩
  · left
    rw [he]
    exact ⟨fun result hres ↦ (by cases hres), rfl⟩
  · left
    rw [commit_of_replays hreplays]
    exact ⟨fun result hres ↦ (by cases hres; rfl), rfl⟩
  · right
    obtain ⟨history, hrecs⟩ := h.session_records sessionId
    have hlen : (state.session sessionId).facts.length = history.length := by
      rw [hrecs.facts_eq, length_numbered]
    rw [commit_of_appends happ, hrecs.position_eq happ.position_eq, ← hlen]
    refine ⟨_, _, rfl, rfl, fun draft hd ↦ ⟨happ.screened draft hd, happ.fresh draft hd⟩,
      happ.nonempty, happ.nodup, happ.version_eq, ?_, rfl⟩
    rw [← happ.version_eq]

variable {sessionId : SessionId}

/-- A stored fact is indexed under its identity. -/
theorem WellFormed.exists_indexed (h : WellFormed state)
    (hfact : fact ∈ (state.session sessionId).facts) :
    ∃ entry, state.factIndex[fact.factId]? = some entry := by
  obtain ⟨_, hrecs⟩ := h.session_records sessionId
  obtain ⟨draft, hdraft, hget⟩ := hrecs.exists_draft hfact
  cases hsess : state.sessions[sessionId]? with
  | none => simp [session, hsess] at hfact
  | some found =>
    rw [session_of_get? hsess] at hget
    refine ⟨⟨sessionId, fact.position, draft⟩, (h.indexed _ _).mpr ⟨?_, found, hsess, hget⟩⟩
    rw [hdraft]
    rfl

theorem map_factId_numbered (sessionId : SessionId) (position : Nat) (batch : List FactDraft) :
    (numbered sessionId position batch).map (·.factId) = batch.map (·.factId) := by
  induction batch generalizing position with
  | nil => rfl
  | cons draft rest ih => simp [ih, DurableFact.ofDraft]

/-- A commit appends stored facts to stored facts. -/
theorem StoredFacts.append (h : WellFormed state) {batch : List FactDraft}
    (hold : StoredFacts lib (state.session sessionId).facts)
    (hbatch : ∀ draft ∈ batch, Screened lib state sessionId draft ∧ state.factIndex[draft.factId]? = none)
    (hnodup : (batch.map (·.factId)).Nodup) : StoredFacts lib ((state.session sessionId).facts ++
      numbered sessionId ((state.session sessionId).facts.length + 1) batch) where
  positions := by
    rw [map_append, hold.positions, map_position_numbered, length_append,
      length_numbered, Nat.add_comm _ 1, range'_append_1]
  ids := by
    rw [map_append, map_factId_numbered, nodup_append]
    refine ⟨hold.ids, hnodup, ?_⟩
    rintro _ hid _ hnew rfl
    obtain ⟨fact, hfact, rfl⟩ := mem_map.mp hid
    obtain ⟨draft, hdraft, heq⟩ := mem_map.mp hnew
    obtain ⟨_, hentry⟩ := h.exists_indexed hfact
    rw [← heq, (hbatch draft hdraft).2] at hentry
    cases hentry
  verified := by
    intro fact hfact
    rcases mem_append.mp hfact with hfact | hfact
    · exact hold.verified fact hfact
    · obtain ⟨_, draft, hget, rfl⟩ := mem_numbered.mp hfact
      exact DurableFact.verify_ofDraft (by omega)
        (hbatch draft (mem_of_getElem? hget)).1.valid

/-- Every session that commits lead to holds stored facts, at least one. -/
theorem Reachable.storedFacts (h : Reachable lib state) {session : SessionLedger}
    (hsess : state.sessions[sessionId]? = some session) :
    session.facts ≠ [] ∧ StoredFacts lib session.facts := by
  refine (ledgerMachine lib).reachable_induction (P := fun state ↦ WellFormed state ∧
    ∀ (sessionId : SessionId) (session : SessionLedger), state.sessions[sessionId]? = some session →
      session.facts ≠ [] ∧ StoredFacts lib session.facts) ?_ ?_ h |>.2 sessionId session hsess
  · refine ⟨wellFormed_empty, fun sessionId session hsess ↦ ?_⟩
    simp [ledgerMachine] at hsess
  · rintro state call ⟨hwf, hstored⟩
    refine ⟨hwf.commit _ _ _, fun other found hfound ↦ ?_⟩
    change (state.commit lib call.sessionId call.expectedSessionVersion call.drafts).2.sessions[other]?
      = some found at hfound
    rcases commit_sessions lib hwf call.sessionId call.expectedSessionVersion call.drafts with
      ⟨-, hsame⟩ | ⟨positions, next, -, hsessions, hbatch, hne, hnodup, -, -, hfacts⟩
    · rw [hsame] at hfound
      exact hstored other found hfound
    · rw [hsessions, Map.get?_insert] at hfound
      split at hfound
      · cases hfound
        have hold : StoredFacts lib (state.session call.sessionId).facts := by
          cases hcur : state.sessions[call.sessionId]? with
          | none => simpa [LedgerState.session, hcur] using ⟨rfl, nodup_nil, by simp⟩
          | some current =>
            simpa [LedgerState.session, hcur] using (hstored _ current hcur).2
        rw [hfacts]
        refine ⟨?_, StoredFacts.append hwf hold hbatch hnodup⟩
        cases hcalls : call.drafts with
        | nil => exact absurd hcalls hne
        | cons draft rest => simp
      · exact hstored other found hfound

/-- Facts in order of position pass the order check of a read. -/
theorem ordered_eq {facts : List DurableFact} {previous : Nat}
    (hposs : facts.map (·.position) = range' (previous + 1) facts.length)
    (hverified : ∀ fact ∈ facts, fact.verify lib = .ok ()) :
    readFacts.ordered lib none previous facts = .ok facts := by
  induction facts generalizing previous with
  | nil => rfl
  | cons fact rest ih =>
    rw [map_cons, length_cons, range'_succ, cons.injEq] at hposs
    obtain ⟨hposition, hrest⟩ := hposs
    rw [readFacts.ordered, hverified fact mem_cons_self, hposition,
      ih hrest fun fact hfact ↦ hverified fact (mem_cons_of_mem _ hfact)]
    simp

/-- Reading a session up to its watermark returns all its facts. -/
theorem readFacts_eq {session : SessionLedger}
    (hsess : state.sessions[sessionId]? = some session) (hne : session.facts ≠ [])
    (h : StoredFacts lib session.facts) :
    state.readFacts lib sessionId 0 session.facts.length none = .ok session.facts := by
  have hpos : 0 < session.facts.length := length_pos_iff.mpr hne
  have hall : session.facts.filter (fun fact ↦
      decide (0 < fact.position ∧ fact.position ≤ session.facts.length)) = session.facts :=
    filter_eq_self.mpr fun fact hfact ↦ by simpa using h.position_le hfact
  rw [readFacts, hsess, ensure_of ⟨by omega, hpos⟩]
  simp only [ok_bind, okOr_some]
  rw [hall]
  exact ordered_eq h.positions h.verified

end LedgerState

end Garive
