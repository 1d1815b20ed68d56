import Garive.Ledger.Commit

/-!
# The representation invariant of the ledger

A session's ledger is a numbered history: its facts are its drafts at positions `1, 2, …`, and its
draft table holds the same drafts at the same positions. The index lists the stored facts of all
sessions and nothing else, and facts of different sessions name no turn, execution, model request or
tool invocation in common.

The last point is what makes replays stable. It holds because screening looks at every fact ever
stored: a draft that names another session's identity never gets in, so an identity stays with the
session that used it first.
-/

namespace Garive

open List

variable {draft : FactDraft} {position : Nat}

namespace SessionLedger

/-- The session holds exactly the given history, numbered from one. -/
structure Records (sessionId : SessionId) (session : SessionLedger)
    (history : List FactDraft) : Prop where
  facts_eq : session.facts = numbered sessionId 1 history
  get?_drafts : ∀ position, session.drafts[position]? =
    if position = 0 then none else history[position - 1]?

theorem records_empty (sessionId : SessionId) : Records sessionId {} [] :=
  ⟨rfl, fun position ↦ by simp⟩

namespace Records

variable {sessionId : SessionId} {session : SessionLedger} {history : List FactDraft}

/-- The next position is one past the history, as long as it fits. -/
theorem nextPosition_eq (h : Records sessionId session history) :
    session.nextPosition = if history.length + 1 < 2 ^ 64 then .ok (history.length + 1)
      else .error .positionOverflow := by
  have hlast : session.facts.getLast?.map (·.position)
      = (range' 1 history.length).getLast? := by
    rw [h.facts_eq, ← map_position_numbered sessionId, getLast?_map]
  rw [getLast?_range'] at hlast
  unfold nextPosition
  cases hfact : session.facts.getLast? with
  | none =>
    rw [hfact] at hlast
    split at hlast
    · rename_i hzero
      rw [hzero]
      rfl
    · cases hlast
  | some fact =>
    rw [hfact] at hlast
    split at hlast
    · cases hlast
    · simp only [Option.map_some, Option.some.injEq] at hlast
      have hposition : fact.position = history.length := by omega
      simp only [hposition, checkedAdd]
      split <;> rfl

theorem position_eq (h : Records sessionId session history)
    (hnext : session.nextPosition = .ok position) : position = history.length + 1 := by
  rw [h.nextPosition_eq] at hnext
  split at hnext
  · exact (Except.ok.inj hnext).symm
  · cases hnext

/-- A stored draft sits at its place in the history. -/
theorem get?_drafts_eq_some_iff (h : Records sessionId session history) :
    session.drafts[position]? = some draft ↔
      ∃ offset, position = offset + 1 ∧ history[offset]? = some draft := by
  rw [h.get?_drafts]
  cases position with
  | zero => simp
  | succ offset => simp

/-- The draft table and the fact list hold the same drafts at the same positions. -/
theorem get?_drafts_iff_mem_facts (h : Records sessionId session history) :
    session.drafts[position]? = some draft ↔
      DurableFact.ofDraft sessionId position draft ∈ session.facts := by
  rw [h.get?_drafts_eq_some_iff, h.facts_eq, mem_numbered]
  constructor
  · rintro ⟨offset, rfl, hget⟩
    exact ⟨offset, draft, hget, by rw [Nat.add_comm]⟩
  · rintro ⟨offset, found, hget, heq⟩
    have hposition : position = 1 + offset := congrArg DurableFact.position heq
    have hdraft : draft = found := by
      cases draft
      cases found
      simpa [DurableFact.ofDraft, hposition] using heq
    exact ⟨offset, by omega, hdraft ▸ hget⟩

/-- Every stored fact is a draft at its position. -/
theorem exists_draft (h : Records sessionId session history) {fact : DurableFact}
    (hfact : fact ∈ session.facts) : ∃ draft, fact = .ofDraft sessionId fact.position draft ∧
      session.drafts[fact.position]? = some draft := by
  have hmem := hfact
  rw [h.facts_eq, mem_numbered] at hmem
  obtain ⟨_, draft, -, rfl⟩ := hmem
  exact ⟨draft, rfl, h.get?_drafts_iff_mem_facts.mpr hfact⟩

/-- Appending a batch extends the history. -/
theorem extended (h : Records sessionId session history) (batch : List FactDraft)
    (projection : SessionProjection) (version : Nat) :
    Records sessionId
      { session.extended sessionId (history.length + 1) batch projection with version }
      (history ++ batch) := by
  constructor
  · rw [numbered_append, ← h.facts_eq, Nat.add_comm 1]
    rfl
  · intro position
    change (placed session.drafts (history.length + 1) batch)[position]? = _
    rw [get?_placed, h.get?_drafts]
    by_cases hin : history.length + 1 ≤ position ∧ position < history.length + 1 + batch.length
    · have hne : position ≠ 0 := by omega
      have hoffset : position - 1 - history.length = position - (history.length + 1) := by omega
      rw [if_pos hin, if_neg hne, getElem?_append_right (by omega), hoffset]
    · rw [if_neg hin]
      by_cases hzero : position = 0
      · rw [if_pos hzero, if_pos hzero]
      · rw [if_neg hzero, if_neg hzero]
        by_cases hold : position - 1 < history.length
        · rw [getElem?_append_left hold]
        · rw [getElem?_eq_none (by omega),
            getElem?_eq_none (by rw [length_append]; omega)]

end Records

end SessionLedger

namespace LedgerState

/-- The representation invariant. -/
structure WellFormed (state : LedgerState) : Prop where
  /-- Every session is a numbered history. -/
  recorded : ∀ (sessionId : SessionId) (session : SessionLedger), state.sessions[sessionId]? = some session →
      ∃ history, session.Records sessionId history
  /-- The index lists the stored facts and nothing else. -/
  indexed : ∀ (id : FactId) (entry : FactIndexEntry), state.factIndex[id]? = some entry ↔
    entry.draft.factId = id ∧ ∃ session, state.sessions[entry.sessionId]? = some session ∧
      session.drafts[entry.position]? = some entry.draft
  /-- Facts of different sessions name no identity in common. -/
  unshared : ∀ (idA idB : FactId) (a b : FactIndexEntry), state.factIndex[idA]? = some a →
    state.factIndex[idB]? = some b → a.sessionId ≠ b.sessionId →
      a.draft.sharesIdentity b.draft = false

theorem wellFormed_empty : WellFormed {} where
  recorded _ _ h := by simp at h
  indexed _ _ := by simp
  unshared _ _ _ _ h := by simp at h

variable {lib : Externals} {state : LedgerState}

/-- A session that does not exist yet has the empty history. -/
theorem WellFormed.session_records (h : WellFormed state) (sessionId : SessionId) :
    ∃ history, (state.session sessionId).Records sessionId history := by
  cases hsess : state.sessions[sessionId]? with
  | none => exact ⟨[], by simpa [session, hsess] using SessionLedger.records_empty sessionId⟩
  | some found =>
    obtain ⟨history, hrecs⟩ := h.recorded sessionId found hsess
    exact ⟨history, by simpa [session, hsess] using hrecs⟩

/-- An identity not owned elsewhere is shared with no indexed fact of another session. -/
theorem sharesIdentity_eq_false_of_unowned {sessionId : SessionId}
    (h : state.identityOwnedByOtherSession sessionId draft = false) {id : FactId}
    {entry : FactIndexEntry} (hentry : state.factIndex[id]? = some entry)
    (hne : entry.sessionId ≠ sessionId) : entry.draft.sharesIdentity draft = false := by
  have := Map.any_eq_false_iff.mp h id entry hentry
  simpa [hne] using this

/-- The session after an append is the old one extended; the others are untouched. -/
theorem get?_sessions_appended (sessionId other : SessionId) (batch : List FactDraft)
    (position : Nat) (projection : SessionProjection) :
    (state.appended sessionId batch position projection).sessions[other]? =
      if sessionId = other then
        some { (state.session sessionId).extended sessionId position batch projection with
          version := (state.session sessionId).version + 1 }
      else state.sessions[other]? :=
  Map.get?_insert ..

variable {projection : SessionProjection} {batch : List FactDraft} {version : Nat}

/-- The index after an append gains the batch at its positions. -/
theorem get?_factIndex_appended {sessionId : SessionId}
    (h : Appends lib state sessionId version batch position projection) (id : FactId)
    (entry : FactIndexEntry) :
    (state.appended sessionId batch position projection).factIndex[id]? = some entry ↔
      state.factIndex[id]? = some entry ∨ ∃ offset draft, batch[offset]? = some draft ∧
        draft.factId = id ∧ entry = ⟨sessionId, position + offset, draft⟩ := by
  have hzip : (batch.zip (range' position batch.length)).map (·.1.factId)
      = batch.map (·.factId) := by
    rw [show (fun pair : FactDraft × Nat ↦ pair.1.factId) = (·.factId) ∘ Prod.fst from rfl,
      ← map_map, map_fst_zip (by simp)]
  have hmem : ∀ {pair : FactDraft × Nat}, pair ∈ batch.zip (range' position batch.length) →
      pair.1 ∈ batch := fun hp ↦ (of_mem_zip hp).1
  change (indexBatch ..)[id]? = some entry ↔ _
  rw [get?_indexBatch (hzip ▸ h.nodup) id entry fun pair hp ↦ h.fresh pair.1 (hmem hp)]
  refine or_congr_right ⟨?_, ?_⟩
  · rintro ⟨⟨draft, _⟩, hp, rfl, rfl⟩
    obtain ⟨offset, _, hget⟩ := getElem_of_mem hp
    rw [getElem_zip, Prod.mk.injEq, getElem_range'] at hget
    exact ⟨offset, draft, List.getElem?_eq_some_iff.mpr ⟨_, hget.1⟩, rfl,
      by rw [← hget.2, Nat.one_mul]⟩
  · rintro ⟨offset, draft, hget, rfl, rfl⟩
    obtain ⟨hlt, rfl⟩ := List.getElem?_eq_some_iff.mp hget
    refine ⟨(batch[offset], position + offset), ?_, rfl, rfl⟩
    refine mem_iff_getElem.mpr ⟨offset, by simpa using hlt, ?_⟩
    rw [getElem_zip, getElem_range', Nat.one_mul]

/-- Sharing an identity is symmetric. -/
theorem sharesIdentity_comm (a b : FactDraft) : a.sharesIdentity b = b.sharesIdentity a := by
  have hcomm : ∀ {α : Type} [DecidableEq α] (x y : Option α),
      samePresent x y = samePresent y x := by
    intro α _ x y
    cases x <;> cases y <;> simp [samePresent, eq_comm]
  simp [FactDraft.sharesIdentity, hcomm a.turnId, hcomm a.executionId, hcomm a.modelRequestId,
    hcomm a.toolInvocationId]

/-- Appending a batch keeps the representation invariant. -/
theorem WellFormed.appended (h : WellFormed state) {sessionId : SessionId}
    (happ : Appends lib state sessionId version batch position projection) :
    WellFormed (state.appended sessionId batch position projection) := by
  obtain ⟨history, hrecs⟩ := h.session_records sessionId
  obtain rfl : position = history.length + 1 := hrecs.position_eq happ.position_eq
  have hnext := hrecs.extended batch projection ((state.session sessionId).version + 1)
  constructor
  · intro other found hfound
    rw [get?_sessions_appended] at hfound
    split at hfound
    · rename_i heq
      subst heq
      cases hfound
      exact ⟨_, hnext⟩
    · exact h.recorded other found hfound
  · intro id entry
    rw [get?_factIndex_appended happ, h.indexed, get?_sessions_appended]
    by_cases hsess : sessionId = entry.sessionId
    · -- The session that grew: an entry is an old draft or one of the batch.
      rw [if_pos hsess]
      simp only [Option.some.injEq, exists_eq_left']
      rw [hnext.get?_drafts_eq_some_iff]
      constructor
      · rintro (⟨hid, found, hfound, hdraft⟩ | ⟨offset, draft, hget, hid, rfl⟩)
        · have hfound' : state.session sessionId = found := by
            rw [session, hsess, hfound, Option.getD_some]
          rw [← hfound', hrecs.get?_drafts_eq_some_iff] at hdraft
          obtain ⟨offset, hposition, hget⟩ := hdraft
          refine ⟨hid, offset, hposition, ?_⟩
          rw [List.getElem?_append_left (List.getElem?_eq_some_iff.mp hget).1, hget]
        · refine ⟨hid, history.length + offset, by simp only; omega, ?_⟩
          rw [getElem?_append_right (by omega), Nat.add_sub_cancel_left, hget]
      · rintro ⟨hid, offset, hposition, hget⟩
        by_cases hold : offset < history.length
        · left
          rw [getElem?_append_left hold] at hget
          cases hfound : state.sessions[entry.sessionId]? with
          | none =>
            -- A session that does not exist has no history to find the draft in.
            have hempty : state.session sessionId = {} := by simp [session, hsess, hfound]
            have hnil : history = [] := by
              have hfacts := hrecs.facts_eq
              rw [hempty] at hfacts
              exact length_eq_zero_iff.mp (by simpa using congrArg length hfacts.symm)
            simp [hnil] at hold
          | some found =>
            refine ⟨hid, found, rfl, ?_⟩
            have hfound' : state.session sessionId = found := by
              rw [session, hsess, hfound, Option.getD_some]
            rw [← hfound', hrecs.get?_drafts_eq_some_iff]
            exact ⟨offset, hposition, hget⟩
        · right
          rw [getElem?_append_right (by omega)] at hget
          refine ⟨offset - history.length, entry.draft, hget, hid, ?_⟩
          have hat : history.length + 1 + (offset - history.length) = entry.position := by omega
          rw [hat, hsess]
    · rw [if_neg hsess]
      constructor
      · rintro (hold | ⟨offset, draft, -, -, rfl⟩)
        · exact hold
        · exact absurd rfl hsess
      · exact Or.inl
  · intro idA idB a b ha hb hne
    rw [get?_factIndex_appended happ] at ha hb
    -- Two old facts are unshared already; a new fact was screened against every old one.
    have hscreened : ∀ {id : FactId} {entry : FactIndexEntry} {offset : Nat} {draft : FactDraft},
        state.factIndex[id]? = some entry → batch[offset]? = some draft →
        entry.sessionId ≠ sessionId → entry.draft.sharesIdentity draft = false :=
      fun hentry hget hne ↦ sharesIdentity_eq_false_of_unowned
        (happ.screened _ (mem_of_getElem? hget)).unowned hentry hne
    rcases ha with ha | ⟨offsetA, draftA, hgetA, -, rfl⟩
    · rcases hb with hb | ⟨offsetB, draftB, hgetB, -, rfl⟩
      · exact h.unshared idA idB a b ha hb hne
      · exact hscreened ha hgetB hne
    · rcases hb with hb | ⟨offsetB, draftB, -, -, rfl⟩
      · rw [sharesIdentity_comm]
        exact hscreened hb hgetA (Ne.symm hne)
      · exact absurd rfl hne

/-- Every commit keeps the representation invariant. -/
theorem WellFormed.commit (h : WellFormed state) (sessionId : SessionId) (version : Nat)
    (batch : List FactDraft) : WellFormed (state.commit lib sessionId version batch).2 := by
  rcases commit_cases lib state sessionId version batch with
    ⟨e, he⟩ | ⟨found, hreplays⟩ | ⟨position, projection, happ⟩
  · rw [he]
    exact h
  · rw [commit_of_replays hreplays]
    exact h
  · rw [commit_of_appends happ]
    exact h.appended happ

/-- Every reachable state satisfies the representation invariant. -/
theorem Reachable.wellFormed (h : Reachable lib state) : WellFormed state :=
  (ledgerMachine lib).reachable_induction wellFormed_empty
    (fun _ call hstate ↦ hstate.commit call.sessionId call.expectedSessionVersion call.drafts) h

/-! ## Versions count committed batches -/

/-- Whether an answer reports an appended batch. -/
def isCommitted (answer : Except LedgerError CommitResult) : Bool :=
  match answer with
  | .ok result => result.disposition == .committed
  | .error _ => false

/-- The number of batches a run committed to a session. -/
def committedBatches (answers : List (CommitCall × Except LedgerError CommitResult))
    (sessionId : SessionId) : Nat :=
  answers.countP fun answer ↦ answer.1.sessionId == sessionId && isCommitted answer.2

theorem session_appended (sessionId other : SessionId) (batch : List FactDraft) (position : Nat)
    (projection : SessionProjection) :
    (state.appended sessionId batch position projection).session other =
      if sessionId = other then
        { (state.session sessionId).extended sessionId position batch projection with
          version := (state.session sessionId).version + 1 }
      else state.session other := by
  rw [session, get?_sessions_appended]
  split <;> rfl

/-- After every run, a session's version is the number of batches the run committed to it. -/
theorem version_eq_committedBatches (lib : Externals) (calls : List CommitCall)
    (sessionId : SessionId) :
    (((ledgerMachine lib).run calls).2.session sessionId).version =
      committedBatches ((ledgerMachine lib).run calls).1 sessionId := by
  refine (ledgerMachine lib).run_induction
    (P := fun answers state ↦ (state.session sessionId).version =
      committedBatches answers sessionId) rfl ?_ calls
  intro answers state call hcount
  change ((state.commit lib call.sessionId call.expectedSessionVersion call.drafts).2.session
    sessionId).version = committedBatches (answers ++ [(call,
      (state.commit lib call.sessionId call.expectedSessionVersion call.drafts).1)]) sessionId
  rw [committedBatches, countP_append, ← committedBatches, ← hcount]
  rcases commit_cases lib state call.sessionId call.expectedSessionVersion call.drafts with
    ⟨e, he⟩ | ⟨found, hreplays⟩ | ⟨position, projection, happ⟩
  · simp [he, isCommitted]
  · simp [commit_of_replays hreplays, isCommitted]
  · rw [commit_of_appends happ, session_appended]
    by_cases heq : call.sessionId = sessionId
    · simp [heq, isCommitted]
    · simp [heq]

/-! ## The invariant of every run -/

theorem samePresent_eq_false_iff {α : Type} [DecidableEq α] {a b : Option α} :
    samePresent a b = false ↔ ∀ x, ¬(a = some x ∧ b = some x) := by
  cases a with
  | none => simp [samePresent]
  | some x =>
    cases b with
    | none => simp [samePresent]
    | some y =>
      simp only [samePresent, beq_eq_false_iff_ne, Option.some.injEq]
      exact ⟨fun hne z hz ↦ hne (hz.1.trans hz.2.symm), fun h heq ↦ h x ⟨rfl, heq.symm⟩⟩

/-- Two facts name no turn, execution, model request or tool invocation in common. -/
def Unrelated (a b : DurableFact) : Prop :=
  (∀ id, ¬(a.turnId = some id ∧ b.turnId = some id)) ∧
  (∀ id, ¬(a.executionId = some id ∧ b.executionId = some id)) ∧
  (∀ id, ¬(a.modelRequestId = some id ∧ b.modelRequestId = some id)) ∧
  (∀ id, ¬(a.toolInvocationId = some id ∧ b.toolInvocationId = some id))

theorem unrelated_of_sharesIdentity {a b : FactDraft} (h : a.sharesIdentity b = false)
    (sessionA sessionB : SessionId) (positionA positionB : Nat) :
    Unrelated (.ofDraft sessionA positionA a) (.ofDraft sessionB positionB b) := by
  simp only [FactDraft.sharesIdentity, Bool.or_eq_false_iff, samePresent_eq_false_iff] at h
  exact ⟨h.1.1.1, h.1.1.2, h.1.2, h.2⟩

/-- Facts of different sessions are unrelated. -/
theorem WellFormed.unrelated (h : WellFormed state) {sessionA sessionB : SessionId}
    {a b : SessionLedger} (hne : sessionA ≠ sessionB) (ha : state.sessions[sessionA]? = some a)
    (hb : state.sessions[sessionB]? = some b) {factA factB : DurableFact} (hfactA : factA ∈ a.facts)
    (hfactB : factB ∈ b.facts) : Unrelated factA factB := by
  obtain ⟨_, hrecordsA⟩ := h.recorded _ a ha
  obtain ⟨_, hrecordsB⟩ := h.recorded _ b hb
  obtain ⟨draftA, hdraftA, hgetA⟩ := hrecordsA.exists_draft hfactA
  obtain ⟨draftB, hdraftB, hgetB⟩ := hrecordsB.exists_draft hfactB
  rw [hdraftA, hdraftB]
  apply unrelated_of_sharesIdentity
  exact h.unshared draftA.factId draftB.factId ⟨sessionA, factA.position, draftA⟩
    ⟨sessionB, factB.position, draftB⟩ ((h.indexed _ _).mpr ⟨rfl, a, ha, hgetA⟩)
    ((h.indexed _ _).mpr ⟨rfl, b, hb, hgetB⟩) hne

/-- **The representation invariant of every run.** After any sequence of commits, successful or
not: a session's facts occupy the positions `1, …, n` in order, its draft table holds exactly those
facts' drafts, and its version counts its committed batches; the index lists exactly the stored
facts; facts of different sessions are unrelated; a failing commit changes nothing; and a committed
batch takes the next positions in order. -/
theorem representation_of_run (lib : Externals) (calls : List CommitCall) :
    let answers := ((ledgerMachine lib).run calls).1
    let state := ((ledgerMachine lib).run calls).2
    (∀ (sessionId : SessionId) (session : SessionLedger),
      state.sessions[sessionId]? = some session →
        session.facts.map (·.position) = range' 1 session.facts.length ∧
        (∀ fact ∈ session.facts, ∃ draft, fact = .ofDraft sessionId fact.position draft) ∧
        (∀ (position : Nat) (draft : FactDraft), session.drafts[position]? = some draft ↔
          .ofDraft sessionId position draft ∈ session.facts) ∧
        session.version = committedBatches answers sessionId) ∧
    (∀ (id : FactId) (entry : FactIndexEntry), state.factIndex[id]? = some entry ↔
      entry.draft.factId = id ∧ ∃ session, state.sessions[entry.sessionId]? = some session ∧
        .ofDraft entry.sessionId entry.position entry.draft ∈ session.facts) ∧
    (∀ (sessionA sessionB : SessionId) (a b : SessionLedger), sessionA ≠ sessionB →
      state.sessions[sessionA]? = some a → state.sessions[sessionB]? = some b →
        ∀ factA ∈ a.facts, ∀ factB ∈ b.facts, Unrelated factA factB) ∧
    (∀ (sessionId : SessionId) (version : Nat) (batch : List FactDraft) (e : LedgerError)
      (next : LedgerState), state.commit lib sessionId version batch = (.error e, next) →
        next = state) ∧
    (∀ (sessionId : SessionId) (version : Nat) (batch : List FactDraft) (result : CommitResult)
      (next : LedgerState), state.commit lib sessionId version batch = (.ok result, next) →
        result.disposition = .committed →
          let first := (state.session sessionId).facts.length + 1
          result.positions = range' first batch.length ∧
          (next.session sessionId).facts =
            (state.session sessionId).facts ++ numbered sessionId first batch) := by
  intro answers state
  have hreachable : Reachable lib state := ⟨calls, rfl⟩
  have hwf : WellFormed state := Reachable.wellFormed hreachable
  refine ⟨?_, ?_, ?_, ?_, ?_⟩
  · intro sessionId session hsession
    obtain ⟨history, hrecords⟩ := hwf.recorded sessionId session hsession
    refine ⟨?_, ?_, fun position draft ↦ hrecords.get?_drafts_iff_mem_facts, ?_⟩
    · rw [hrecords.facts_eq, map_position_numbered, length_numbered]
    · intro fact hfact
      obtain ⟨draft, hdraft, -⟩ := hrecords.exists_draft hfact
      exact ⟨draft, hdraft⟩
    · have hversion := version_eq_committedBatches lib calls sessionId
      rwa [session_of_get? hsession] at hversion
  · intro id entry
    rw [hwf.indexed]
    refine and_congr_right fun _ ↦ exists_congr fun session ↦ and_congr_right fun hsession ↦ ?_
    obtain ⟨history, hrecords⟩ := hwf.recorded _ session hsession
    exact hrecords.get?_drafts_iff_mem_facts
  · intro sessionA sessionB a b hne ha hb factA hfactA factB hfactB
    exact hwf.unrelated hne ha hb hfactA hfactB
  · intro sessionId version batch e next hcommit
    rcases commit_cases lib state sessionId version batch with
      ⟨e', he⟩ | ⟨found, hreplays⟩ | ⟨position, projection, happends⟩
    · rw [he] at hcommit
      exact (Prod.mk.inj hcommit).2.symm
    · rw [commit_of_replays hreplays] at hcommit
      cases (Prod.mk.inj hcommit).1
    · rw [commit_of_appends happends] at hcommit
      cases (Prod.mk.inj hcommit).1
  · intro sessionId version batch result next hcommit hdisposition
    obtain ⟨position, projection, happends, rfl, rfl⟩ := appends_of_commit hcommit hdisposition
    obtain ⟨history, hrecords⟩ := hwf.session_records sessionId
    have hposition : position = (state.session sessionId).facts.length + 1 := by
      rw [hrecords.position_eq happends.position_eq, hrecords.facts_eq, length_numbered]
    intro first
    rw [session_appended, if_pos rfl, show first = position from hposition.symm]
    exact ⟨rfl, rfl⟩

end LedgerState

end Garive
