import Garive.Ledger.Batches
import Garive.Ledger.Projection.Trace

/-!
# The facts of a turn

Loading a turn finds its facts in the one session that has them, and the projection of that session
holds what its facts said last. Together they tell the state of a turn, an execution, a model
request or a tool invocation from the loaded facts.
-/

namespace Garive

/-- The draft a durable fact was made from. -/
def DurableFact.toDraft (fact : DurableFact) : FactDraft where
  factId := fact.factId
  turnId := fact.turnId
  executionId := fact.executionId
  modelRequestId := fact.modelRequestId
  toolInvocationId := fact.toolInvocationId
  kind := fact.kind
  schemaVersion := fact.schemaVersion
  payload := fact.payload
  recordedAt := fact.recordedAt

@[simp] theorem DurableFact.toDraft_ofDraft (sessionId : SessionId) (position : Nat)
    (draft : FactDraft) : (DurableFact.ofDraft sessionId position draft).toDraft = draft := rfl

theorem map_toDraft_numbered (sessionId : SessionId) (position : Nat) (history : List FactDraft) :
    (numbered sessionId position history).map (·.toDraft) = history := by
  induction history generalizing position with
  | nil => rfl
  | cons draft rest ih => rw [numbered_cons, List.map_cons, ih, DurableFact.toDraft_ofDraft]

/-- The registers the batches of a projection leave. -/
theorem SessionProjection.applyBatches_registers {lib : Externals} {p p' : SessionProjection}
    {batches : List (List FactDraft)} (h : p.applyBatches lib batches = .ok p') :
    p'.registers = batches.flatten.foldl (Registers.write lib) p.registers := by
  induction batches generalizing p with
  | nil =>
    cases h
    rfl
  | cons batch rest ih =>
    simp only [applyBatches, ok_iff] at h
    obtain ⟨next, hnext, -, hrest⟩ := h
    -- Beginning a commit clears only the marks of the batch before.
    have hbatch : next.registers = batch.foldl (Registers.write lib) p.beginCommit.registers :=
      applyAll_registers hnext
    have hbegin : p.beginCommit.registers = p.registers := rfl
    rw [hbegin] at hbatch
    rw [List.flatten_cons, List.foldl_append, ← hbatch]
    exact ih hrest

namespace LedgerState

variable {lib : Externals} {state : LedgerState} {sessionId : SessionId} {session : SessionLedger}

/-- A reachable ledger is the one some batches determine. -/
theorem Reachable.built (h : Reachable lib state) : ∃ batches, Built lib batches state := by
  refine (ledgerMachine lib).reachable_induction
    (P := fun state ↦ ∃ batches, Built lib batches state) ⟨_, built_empty lib⟩ ?_ h
  rintro state call ⟨batches, hbuilt⟩
  change ∃ batches, Built lib batches
    (state.commit lib call.sessionId call.expectedSessionVersion call.drafts).2
  rcases commit_cases lib state call.sessionId call.expectedSessionVersion call.drafts with
    ⟨e, he⟩ | ⟨found, hreplays⟩ | ⟨position, projection, happ⟩
  · rw [he]
    exact ⟨batches, hbuilt⟩
  · rw [commit_of_replays hreplays]
    exact ⟨batches, hbuilt⟩
  · rw [commit_of_appends happ]
    exact ⟨_, hbuilt.appended happ⟩

/-- The registers of a session are what its facts wrote. -/
theorem Reachable.registers (h : Reachable lib state)
    (hsess : state.sessions[sessionId]? = some session) :
    session.projection.registers = .ofHistory lib (session.facts.map (·.toDraft)) := by
  obtain ⟨_, hbuilt⟩ := Reachable.built h
  have hbuilt' := hbuilt.session sessionId
  rw [session_of_get? hsess] at hbuilt'
  rw [hbuilt'.records.facts_eq, map_toDraft_numbered]
  exact SessionProjection.applyBatches_registers hbuilt'.projection_eq

/-- What the tables of a session hold, entry by entry. -/
theorem Reachable.lookups (h : Reachable lib state)
    (hsess : state.sessions[sessionId]? = some session) :
    let history := session.facts.map (·.toDraft)
    (∀ turn, session.projection.turns[turn]? = lastWrite turnWrite history turn) ∧
    (∀ execution, session.projection.executions[execution]?
      = lastWrite executionWrite history execution) ∧
    (∀ request, session.projection.models[request]? = lastWrite modelWrite history request) ∧
    (∀ tool, session.projection.tools[tool]? = lastWrite toolWrite history tool) := by
  intro history
  have hregisters := Reachable.registers h hsess
  rw [Registers.ofHistory_eq] at hregisters
  refine ⟨fun turn ↦ ?_, fun execution ↦ ?_, fun request ↦ ?_, fun tool ↦ ?_⟩
  · rw [← get?_foldl_write]
    exact congrArg (fun r : Registers ↦ r.turns[turn]?) hregisters
  · rw [← get?_foldl_write]
    exact congrArg (fun r : Registers ↦ r.executions[execution]?) hregisters
  · rw [← get?_foldl_write]
    exact congrArg (fun r : Registers ↦ r.models[request]?) hregisters
  · rw [← get?_foldl_write]
    exact congrArg (fun r : Registers ↦ r.tools[tool]?) hregisters

/-- The facts of a session that belong to a turn. -/
def turnFacts (session : SessionLedger) (turn : TurnId) : List DurableFact :=
  session.facts.filter (·.turnId == some turn)

/-- What loading a turn of the session returns. -/
def turnSnapshot (session : SessionLedger) (turn : TurnId) : TurnSnapshot where
  facts := turnFacts session turn
  sessionVersion := session.version
  throughPosition := (session.facts.getLast?.map (·.position)).getD 0

/-- Loading a turn finds its facts in the session that has them. -/
theorem WellFormed.loadTurn_eq (h : WellFormed state)
    (hsess : state.sessions[sessionId]? = some session) {turn : TurnId} {fact : DurableFact}
    (hfact : fact ∈ session.facts) (hturn : fact.turnId = some turn) :
    state.loadTurn turn = .ok (turnSnapshot session turn) := by
  have hbelongs : fact ∈ turnFacts session turn := by
    simp [turnFacts, hfact, hturn]
  have hpasses : (!(turnFacts session turn).isEmpty) := by
    simpa using List.ne_nil_of_mem hbelongs
  obtain ⟨⟨owner, found⟩, hfind⟩ := Map.exists_find? (p := fun _ session ↦
    !(turnFacts session turn).isEmpty) hsess hpasses
  obtain ⟨hfound, hother⟩ := Map.get?_of_find? hfind
  -- Another session with a fact of the turn would share the turn's identity with this one.
  have hsame : owner = sessionId := by
    by_contra hne
    have hnonempty : turnFacts found turn ≠ [] := by simpa using hother
    obtain ⟨_, hmem⟩ := List.exists_mem_of_ne_nil _ hnonempty
    obtain ⟨hotherFact, hotherTurn⟩ := List.mem_filter.mp hmem
    exact (h.unrelated hne hfound hsess hotherFact hfact).1 turn
      ⟨by simpa using hotherTurn, hturn⟩
  subst hsame
  rw [hsess, Option.some.injEq] at hfound
  subst hfound
  simp only [turnFacts] at hfind
  simp only [loadTurn, hfind]
  rfl

/-- A loaded turn is the part of some session that belongs to it. -/
theorem exists_of_loadTurn {turn : TurnId} {snapshot : TurnSnapshot}
    (h : state.loadTurn turn = .ok snapshot) :
    ∃ (sessionId : SessionId) (session : SessionLedger),
      state.sessions[sessionId]? = some session ∧ snapshot.facts = turnFacts session turn := by
  unfold loadTurn at h
  dsimp only at h
  split at h
  · rename_i sessionId session hfind
    cases h
    exact ⟨sessionId, session, (Map.get?_of_find? hfind).1, rfl⟩
  · cases h

/-- The last fact about a turn's lifecycle says how the turn stands. -/
theorem Reachable.turn_eq_iff (h : Reachable lib state)
    (hsess : state.sessions[sessionId]? = some session) {turn : TurnId} {found : TurnState} :
    session.projection.turns[turn]? = some found ↔
      ∃ fact, rfind? (fun fact ↦ (turnStateOf fact.kind).isSome) (turnFacts session turn) = some fact ∧
        turnStateOf fact.kind = some found := by
  rw [(Reachable.lookups h hsess).1 turn, lastWrite_eq_some_iff, turnFacts, rfind?_filter]
  have htest : (fun fact : DurableFact ↦ (turnWrite fact.toDraft).any (·.1 == turn)) =
      fun fact ↦ fact.turnId == some turn && (turnStateOf fact.kind).isSome := by
    funext fact
    change (turnWrite fact.toDraft).any (·.1 == turn)
      = (fact.toDraft.turnId == some turn && (turnStateOf fact.toDraft.kind).isSome)
    cases hstate : turnStateOf fact.toDraft.kind with
    | none => simp [turnWrite, hstate]
    | some found =>
      cases hturn : fact.toDraft.turnId with
      | none => simp [turnWrite, hstate, hturn]
      | some other => simp [turnWrite, hstate, hturn]
  rw [rfind?_map, htest]
  constructor
  · rintro ⟨_, hdraft, hwrite⟩
    obtain ⟨fact, hfact, rfl⟩ := Option.map_eq_some_iff.mp hdraft
    refine ⟨fact, hfact, ?_⟩
    simp only [turnWrite, Option.bind_eq_bind, Option.bind_eq_some_iff, Option.pure_def,
      Option.some.injEq, Prod.mk.injEq] at hwrite
    obtain ⟨_, hstate, _, -, -, rfl⟩ := hwrite
    exact hstate
  · rintro ⟨fact, hfact, hstate⟩
    refine ⟨fact.toDraft, by rw [hfact, Option.map_some], ?_⟩
    have hpassed := rfind?_some hfact
    have hturn : fact.turnId = some turn := by
      simpa using (Bool.and_eq_true_iff.mp hpassed).1
    change turnStateOf fact.toDraft.kind = some found at hstate
    change fact.toDraft.turnId = some turn at hturn
    simp [turnWrite, hstate, hturn]

theorem mem_recoverableTurns {p : SessionProjection} {turn : TurnId} : turn ∈ p.recoverableTurns ↔
    ∃ found, p.turns[turn]? = some found ∧ (found = .open ∨ found = .suspended) := by
  simp only [SessionProjection.recoverableTurns, List.mem_filterMap, Prod.exists,
    Std.ExtTreeMap.mem_toList_iff_getElem?_eq_some, Option.ite_none_right_eq_some, Option.some.injEq]
  exact ⟨fun ⟨_, found, hget, hlive, heq⟩ ↦ ⟨found, heq ▸ hget, hlive⟩,
    fun ⟨found, hget, hlive⟩ ↦ ⟨turn, found, hget, hlive, rfl⟩⟩

/-- **Recovery finds every turn that is not over.** After every run, a session lists exactly
the turns that load and whose last lifecycle fact is its own and opened or suspended them. -/
theorem listRecoverableTurns_iff (lib : Externals) (calls : List CommitCall) (sessionId : SessionId)
    (turn : TurnId) :
    let state := ((ledgerMachine lib).run calls).2
    (∃ turns, state.listRecoverableTurns sessionId = .ok turns ∧ turn ∈ turns) ↔
      ∃ snapshot last found, state.loadTurn turn = .ok snapshot ∧
        rfind? (fun fact ↦ (turnStateOf fact.kind).isSome) snapshot.facts = some last ∧
        last.sessionId = sessionId ∧ turnStateOf last.kind = some found ∧
        (found = .open ∨ found = .suspended) := by
  intro state
  have hreach : Reachable lib state := ⟨calls, rfl⟩
  have hwf := Reachable.wellFormed hreach
  have howner {owner} {session : SessionLedger} {fact : DurableFact}
      (hsess : state.sessions[owner]? = some session) (hfact : fact ∈ session.facts) :
      fact.sessionId = owner := by
    obtain ⟨_, hrecs⟩ := hwf.recorded owner session hsess
    obtain ⟨_, hdraft, -⟩ := hrecs.exists_draft hfact
    rw [hdraft]
    rfl
  simp only [listRecoverableTurns, ok_iff]
  constructor
  · rintro ⟨_, ⟨session, hsess, rfl⟩, hmem⟩
    obtain ⟨found, hget, hlive⟩ := mem_recoverableTurns.mp hmem
    obtain ⟨last, hlast, hfound⟩ := (Reachable.turn_eq_iff hreach hsess).mp hget
    obtain ⟨hfact, hturn⟩ := List.mem_filter.mp (mem_of_rfind? hlast)
    exact ⟨_, last, found, hwf.loadTurn_eq hsess hfact (by simpa using hturn), hlast,
      howner hsess hfact, hfound, hlive⟩
  · -- The load found the session that the last fact names.
    rintro ⟨_, last, found, hload, hlast, rfl, hfound, hlive⟩
    obtain ⟨_, session, hsess, hfacts⟩ := exists_of_loadTurn hload
    rw [hfacts] at hlast
    have hget := (Reachable.turn_eq_iff hreach hsess).mpr ⟨last, hlast, hfound⟩
    rw [← howner hsess (List.mem_of_mem_filter (mem_of_rfind? hlast))] at hsess
    exact ⟨_, ⟨session, hsess, rfl⟩, mem_recoverableTurns.mpr ⟨found, hget, hlive⟩⟩

end LedgerState

end Garive
