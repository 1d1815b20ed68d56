import Garive.Goal.Commands

/-!
# Goal commands and Goal recovery agree

A ledger is built by committing planned Goal commands, and anything else outside the `goal.` family,
in any order. `Recovered` says that recovery reads a session's facts as the Goals that the last
commands predicted, that these form a tree, and that every success is borne out. Other facts keep it
(`Recovered.extend`), and so does the fact of a planned command (`Recovered.step`).

`GoalWorld.Agrees.step` says that every event keeps the invariant in all sessions, and
`GoalWorld.Agrees.reconstruct` what recovery then returns.
-/

namespace Garive

open GoalRecovery GoalEvidence List Map LedgerState

variable {lib : Externals}

/-! ## Trees -/

variable {goalId : GoalId}

/-- A Goal that is new, under a parent it narrows, leaves a tree. -/
theorem GoalTree.insert_leaf {found : Entries} (htree : GoalTree (definitionIn found))
    (hnew : found[goalId]? = none) {entry : GoalSnapshot × Nat}
    (hpar : ∀ parentId, entry.1.definition.parentGoalId = some parentId → ∃ parent, definitionIn found parentId = some parent ∧ entry.1.definition.validateChildOf parent = .ok ()) :
    GoalTree (definitionIn (found.insert goalId entry)) := by
  have hget : ∀ id, definitionIn (found.insert goalId entry) id =
      if goalId = id then some entry.1.definition else definitionIn found id := by
    intro id
    rw [definitionIn, get?_insert]
    split <;> rfl
  have hold : ∀ {id definition}, definitionIn found id = some definition → goalId ≠ id := by
    rintro id definition hid rfl
    simp [definitionIn, hnew] at hid
  -- The chains of parents of the old Goals are the old chains.
  have hacc : ∀ id, Acc (IsParent (definitionIn found)) id → (definitionIn found id).isSome →
      Acc (IsParent (definitionIn (found.insert goalId entry))) id := by
    intro id hid
    induction hid with
    | intro id _ ih =>
      intro hsome
      obtain ⟨definition, hdef⟩ := Option.isSome_iff_exists.mp hsome
      refine ⟨_, fun parentId hedge ↦ ?_⟩
      obtain ⟨definition', hdef', hid'⟩ := hedge
      rw [hget, if_neg (hold hdef)] at hdef'
      obtain ⟨parent, hfound, -⟩ := htree.narrowed id definition' parentId hdef' hid'
      exact ih parentId ⟨definition', hdef', hid'⟩ (by rw [hfound]; rfl)
  constructor
  · intro id definition parentId hdef hid
    rw [hget] at hdef
    have hchild : ∃ parent, definitionIn found parentId = some parent ∧
        definition.validateChildOf parent = .ok () := by
      split at hdef
      · cases hdef
        exact hpar parentId hid
      · exact htree.narrowed id definition parentId hdef hid
    obtain ⟨parent, hfound, hnarrows⟩ := hchild
    exact ⟨parent, by rw [hget, if_neg (hold hfound), hfound], hnarrows⟩
  · intro id hsome
    rw [hget] at hsome
    split at hsome
    · rename_i heq
      subst heq
      refine ⟨_, fun parentId hedge ↦ ?_⟩
      obtain ⟨definition, hdef, hid⟩ := hedge
      rw [hget, if_pos rfl, Option.some.injEq] at hdef
      subst hdef
      obtain ⟨parent, hfound, -⟩ := hpar parentId hid
      exact hacc parentId (htree.grounded parentId (by rw [hfound]; rfl)) (by rw [hfound]; rfl)
    · exact hacc id (htree.grounded id hsome) hsome

/-! ## Recorded successes -/

/-- Facts that record no success of a Goal do not move the one that is recorded. -/
theorem succeededPosition?_append_of_not {facts added : List DurableFact}
    (h : ∀ fact ∈ added, recordsSuccess lib goalId fact = false) :
    succeededPosition? lib (facts ++ added) goalId = succeededPosition? lib facts goalId := by
  rw [succeededPosition?, filter_append_of_forall_false h, succeededPosition?]

/-- A recorded success is the success of a stored fact. -/
theorem position_le_of_succeededPosition? {facts : List DurableFact}
    (hstored : StoredFacts lib facts) {position : Nat}
    (h : succeededPosition? lib facts goalId = some position) : position ≤ facts.length := by
  rw [succeededPosition?, Option.map_eq_some_iff] at h
  obtain ⟨fact, hsole, rfl⟩ := h
  have hmem : fact ∈ facts.filter (recordsSuccess lib goalId) := by
    rw [sole?_eq_some_iff.mp hsole]
    exact mem_singleton_self fact
  exact (hstored.position_le (mem_of_mem_filter hmem)).2

/-- Only a `goal.` fact records a success. -/
theorem recordsSuccess_eq_false (h : isGoalFact fact = false) (goalId : GoalId) :
    recordsSuccess lib goalId fact = false := by
  rw [recordsSuccess, Bool.and_eq_false_iff]
  left
  rw [isGoalFact] at h
  rw [beq_eq_false_iff_ne] at h ⊢
  intro heq
  rw [heq] at h
  exact h rfl

/-! ## The invariant of one session -/

/-- Recovery reads the facts as the predicted Goals. -/
structure Recovered (lib : Externals) (facts : List DurableFact) (version : Nat)
    (predicted : GoalId → Option (GoalSnapshot × Nat)) (found : Entries) : Prop where
  entries_eq : entries lib facts = .ok found
  predicted_eq : ∀ goalId, found[goalId]? = predicted goalId
  tree : GoalTree (definitionIn found)
  proven : Proven lib found facts version facts.length
  /-- A success that is not in the entries is not in the facts. -/
  unrecorded : ∀ goalId : GoalId, (∀ entry, found[goalId]? = some entry →
    entry.1.state ≠ .succeeded) → facts.filter (recordsSuccess lib goalId) = []
  attempt_lt : ∀ (goalId : GoalId) (entry : GoalSnapshot × Nat), found[goalId]? = some entry →
    entry.2 < 2 ^ 32
  goalId_eq : ∀ (goalId : GoalId) (entry : GoalSnapshot × Nat), found[goalId]? = some entry →
    entry.1.definition.goalId = goalId

/-- A command that was planned soundly from the entries: its fact is the next step of a Goal that is
not closed, and leaves a tree in which a new success is borne out by the session. -/
structure SoundlyPlanned (lib : Externals) (found : Entries) (facts : List DurableFact)
    (version : Nat) (draft : FactDraft) (goalId : GoalId) (after : GoalSnapshot × Nat) : Prop where
  fact : GoalCommand.GoalFact lib draft goalId found[goalId]? after
  open_before : ∀ entry, found[goalId]? = some entry → entry.1.state.isTerminal = false
  tree : GoalTree (definitionIn (found.insert goalId after))
  evidence : after.1.state = .succeeded → verifyGoalSuccessEvidence lib goalId
    after.1.definition.criteria after.1.terminalEvidence (graphAt found version facts.length)
    facts version none = .ok ()
  attempt_lt : after.2 < 2 ^ 32
  goalId_eq : after.1.definition.goalId = goalId

variable {draft : FactDraft} {through : Nat}

namespace Recovered

variable {facts added : List DurableFact} {version version' : Nat}
  {predicted : GoalId → Option (GoalSnapshot × Nat)} {found : Entries}

theorem nil (lib : Externals) (version : Nat) : Recovered lib [] version (fun _ ↦ none) ∅ where
  entries_eq := rfl
  predicted_eq goalId := by simp
  tree := ⟨fun goalId definition parentId h ↦ by simp [definitionIn] at h,
    fun goalId h ↦ by simp [definitionIn] at h⟩
  proven goalId entry h := by simp at h
  unrecorded goalId _ := rfl
  attempt_lt goalId entry h := by simp at h
  goalId_eq goalId entry h := by simp at h

theorem reconstruct_eq (h : Recovered lib facts version predicted found) :
    reconstructGoalGraphFromFacts lib facts version facts.length =
      .ok (graphAt found version facts.length) :=
  reconstructGoalGraphFromFacts_eq_ok_iff.mpr ⟨found, h.entries_eq, rfl, h.tree, h.proven⟩

/-- Successes are kept when only Goals that are not closed change and no success of theirs is
recorded by the facts that are added. -/
theorem childrenKept (h : Recovered lib facts version predicted found)
    (hstored : StoredFacts lib facts) {next : Entries}
    (hkept : ∀ (goalId : GoalId) (entry : GoalSnapshot × Nat), found[goalId]? = some entry → entry.1.state = .succeeded → next[goalId]? = some entry ∧ ∀ fact ∈ added, recordsSuccess lib goalId fact = false) :
    ChildrenKept lib (graphAt found version facts.length) (graphAt next version' through) facts
      added := by
  intro childId child hchild hstate
  rw [get?_graphAt, Option.map_eq_some_iff] at hchild
  obtain ⟨entry, hentry, rfl⟩ := hchild
  obtain ⟨hnext, hadded⟩ := hkept childId entry hentry hstate
  obtain ⟨position, hposition, -⟩ := h.proven childId entry hentry hstate
  refine ⟨⟨⟨entry.1, entry.2, version', through⟩, by rw [get?_graphAt, hnext]; rfl, rfl⟩, position,
    position_le_of_succeededPosition? hstored hposition, hposition, ?_⟩
  rw [succeededPosition?_append_of_not hadded, hposition]

/-- What was committed outside the `goal.` family changes nothing. -/
theorem extend (h : Recovered lib facts version predicted found)
    (hstored : StoredFacts lib (facts ++ added)) (hver : version ≤ version')
    (hadded : ∀ fact ∈ added, isGoalFact fact = false) :
    Recovered lib (facts ++ added) version' predicted found := by
  have hsuccess : ∀ goalId : GoalId, ∀ fact ∈ added, recordsSuccess lib goalId fact = false :=
    fun goalId fact hfact ↦ recordsSuccess_eq_false (hadded fact hfact) goalId
  constructor
  case entries_eq =>
    rw [entries, filter_append_of_forall_false hadded]
    exact h.entries_eq
  case proven =>
    intro goalId entry hentry hstate
    obtain ⟨position, hposition, hverified⟩ := h.proven goalId entry hentry hstate
    refine ⟨position, by rw [succeededPosition?_append_of_not (hsuccess goalId), hposition], ?_⟩
    exact verifyGoalSuccessEvidence_extend hstored
      (h.childrenKept hstored.of_append fun goalId entry hentry _ ↦ ⟨hentry, hsuccess goalId⟩)
      (.inl rfl) hver hverified
  case unrecorded =>
    intro goalId hopen
    rw [filter_append_of_forall_false (hsuccess goalId), h.unrecorded goalId hopen]
  case predicted_eq => exact h.predicted_eq
  case tree => exact h.tree
  case attempt_lt => exact h.attempt_lt
  case goalId_eq => exact h.goalId_eq

variable {sessionId : SessionId}

/-- The fact of a command moves one Goal, which was not closed, to what the command predicted. -/
theorem step (h : Recovered lib facts version predicted found)
    {after : GoalSnapshot × Nat} (hplaced : fact = .ofDraft sessionId (facts.length + 1) draft)
    (hstored : StoredFacts lib (facts ++ [fact])) (hver : version ≤ version')
    (hplanned : SoundlyPlanned lib found facts version draft goalId after) :
    Recovered lib (facts ++ [fact]) version'
      (fun other ↦ if goalId = other then some after else predicted other)
      (found.insert goalId after) := by
  have hnot : ∀ entry, found[goalId]? = some entry → entry.1.state ≠ .succeeded := by
    intro entry hentry hstate
    have hterm := hplanned.open_before entry hentry
    rw [hstate] at hterm
    cases hterm
  have hposition : fact.position = facts.length + 1 := by rw [hplaced]; rfl
  have hsuccess : ∀ other, recordsSuccess lib other fact ↔
      other = goalId ∧ after.1.state = .succeeded := by
    rw [hplaced]
    exact hplanned.fact.success sessionId (facts.length + 1)
  have hothers : ∀ other : GoalId, goalId ≠ other → ∀ added ∈ [fact],
      recordsSuccess lib other added = false := by
    intro other hne added hmem
    rw [mem_singleton.mp hmem, ← Bool.not_eq_true, hsuccess]
    exact fun hrecs ↦ hne hrecs.1.symm
  have hkept : ChildrenKept lib (graphAt found version facts.length)
      (graphAt (found.insert goalId after) version' (facts ++ [fact]).length) facts [fact] := by
    refine h.childrenKept hstored.of_append fun other entry hentry hstate ↦ ?_
    have hne : goalId ≠ other := by
      rintro rfl
      exact hnot entry hentry hstate
    exact ⟨by rw [get?_insert_of_ne hne, hentry], hothers other hne⟩
  constructor
  case entries_eq =>
    have hgoal : isGoalFact fact := by
      rw [hplaced, isGoalFact, DurableFact.ofDraft, hplanned.fact.ns]
      rfl
    have hread := hplanned.fact.read sessionId (facts.length + 1) found rfl
    rw [entries, filter_append, filter_cons_of_pos hgoal, filter_nil,
      foldlM_append, ← entries, h.entries_eq, ok_bind, foldlM_cons, hplaced, hread]
    rfl
  case predicted_eq =>
    intro other
    rw [get?_insert, h.predicted_eq]
  case tree => exact hplanned.tree
  case proven =>
    intro other entry hentry hstate
    rw [get?_insert] at hentry
    by_cases heq : goalId = other
    · -- The success that was planned: its fact lies above all the others.
      subst heq
      rw [if_pos rfl, Option.some.injEq] at hentry
      subst hentry
      have hsole : succeededPosition? lib (facts ++ [fact]) goalId = some (facts.length + 1) := by
        rw [succeededPosition?, filter_append, h.unrecorded goalId hnot,
          filter_cons_of_pos ((hsuccess goalId).mpr ⟨rfl, hstate⟩), filter_nil,
          nil_append, sole?, Option.map_some, hposition]
      exact ⟨facts.length + 1, hsole, verifyGoalSuccessEvidence_extend hstored hkept
        (.inr ⟨rfl, Nat.lt_succ_self _⟩) hver (hplanned.evidence hstate)⟩
    · rw [if_neg heq] at hentry
      obtain ⟨position, hrecorded, hverified⟩ := h.proven other entry hentry hstate
      exact ⟨position, by rw [succeededPosition?_append_of_not (hothers other heq), hrecorded],
        verifyGoalSuccessEvidence_extend hstored hkept (.inl rfl) hver hverified⟩
  case unrecorded =>
    intro other hopenAfter
    by_cases heq : goalId = other
    · subst heq
      have hafter := hopenAfter after (get?_insert_self _ _ _)
      rw [filter_append_of_forall_false, h.unrecorded goalId hnot]
      intro added hmem
      rw [mem_singleton.mp hmem, ← Bool.not_eq_true, hsuccess]
      exact fun hrecs ↦ hafter hrecs.2
    · rw [filter_append_of_forall_false (hothers other heq)]
      exact h.unrecorded other fun entry hentry ↦ hopenAfter entry (by
        rw [get?_insert_of_ne heq, hentry])
  case attempt_lt =>
    intro other entry hentry
    rcases of_get?_insert hentry with ⟨-, rfl⟩ | hentry
    · exact hplanned.attempt_lt
    · exact h.attempt_lt other entry hentry
  case goalId_eq =>
    intro other entry hentry
    rcases of_get?_insert hentry with ⟨heq, rfl⟩ | hentry
    · exact hplanned.goalId_eq.trans heq
    · exact h.goalId_eq other entry hentry

end Recovered

/-- A stored session of a ledger, and the Goals that recovery reads from it. -/
structure Readable (lib : Externals) (ledger : LedgerState) (sessionId : SessionId)
    (session : SessionLedger) (predicted : GoalId → Option (GoalSnapshot × Nat)) (found : Entries) :
    Prop extends Recovered lib session.facts session.version predicted found where
  sessions_eq : ledger.sessions[sessionId]? = some session
  nonempty : session.facts ≠ []
  stored : StoredFacts lib session.facts

section Readable

variable {ledger : LedgerState} {sessionId : SessionId} {session : SessionLedger}
  {predicted : GoalId → Option (GoalSnapshot × Nat)} {found : Entries}

theorem Readable.watermark_eq (h : Readable lib ledger sessionId session predicted found) :
    ledger.sessionWatermark sessionId = some ⟨session.version, session.facts.length⟩ := by
  rw [sessionWatermark, h.sessions_eq]
  rfl

theorem Readable.readFacts_eq (h : Readable lib ledger sessionId session predicted found) :
    ledger.readFacts lib sessionId 0 session.facts.length none = .ok session.facts :=
  LedgerState.readFacts_eq h.sessions_eq h.nonempty h.stored

/-- The graph of the session. -/
theorem Readable.reconstructGoalGraph_eq (h : Readable lib ledger sessionId session predicted found) :
    reconstructGoalGraph lib ledger sessionId =
      .ok (graphAt found session.version session.facts.length) := by
  simp only [reconstructGoalGraph, h.watermark_eq, okOr_some, ok_bind, h.readFacts_eq,
    Except.mapError, h.reconstruct_eq]

end Readable

/-! ## Planning from a session -/

namespace GoalCommand

variable {facts : List DurableFact} {found : Entries}

theorem storedText_eq_ok_iff {value : Object} {key text : String} :
    storedText value key = .ok text ↔ GoalRecovery.text value key = .ok text ∧ text ≠ "" := by
  rw [storedText, GoalRecovery.text, okOr_eq_ok_iff, okOr_eq_ok_iff, Option.filter_eq_some_iff]
  simp

/-- What recovery accepted, the scan of the creations accepts: it finds the Goals that recovery
found, each with the identity of a stored fact as its command. -/
theorem creationCommands_of_entries (h : entries lib facts = .ok found) :
    ∃ commands, creationCommands lib facts = .ok commands ∧
      (∀ goalId : GoalId, (commands[goalId]?).isSome = (found[goalId]?).isSome) ∧
      ∀ (goalId : GoalId) (commandId : String), commands[goalId]? = some commandId →
        ∃ fact ∈ facts, fact.factId.text = commandId := by
  have hfilter : facts.filter (·.kind == .known .goalCreated) =
      (facts.filter isGoalFact).filter (·.kind == .known .goalCreated) := by
    rw [filter_filter]
    refine filter_congr fun fact _ ↦ ?_
    by_cases hkind : fact.kind = .known .goalCreated
    · simp [hkind, isGoalFact, RuntimeKind.ns, RuntimeKind.parts]
    · simp [hkind]
  have hmem : ∀ fact ∈ facts.filter isGoalFact, fact ∈ facts := fun _ ↦ mem_of_mem_filter
  rw [creationCommands, hfilter]
  rw [entries] at h
  generalize facts.filter isGoalFact = goalFacts at h hmem ⊢
  refine foldlM_induction (P := fun done found ↦ (∀ fact ∈ done, fact ∈ facts) →
    ∃ commands, (done.filter (·.kind == .known .goalCreated)).foldlM (scanCreation lib) ∅ =
        .ok commands ∧
      (∀ goalId : GoalId, (commands[goalId]?).isSome = (found[goalId]?).isSome) ∧
      ∀ (goalId : GoalId) (commandId : String), commands[goalId]? = some commandId →
        ∃ fact ∈ facts, fact.factId.text = commandId) ?_ ?_ h hmem
  · exact fun _ ↦ ⟨∅, rfl, by simp, by simp⟩
  · intro done fact before next hbef hread hstored
    obtain ⟨commands, hcmds, hsame, hnamed⟩ :=
      hbef fun fact hfact ↦ hstored fact (mem_append_left _ hfact)
    simp only [GoalRecovery.read, ok_iff] at hread
    obtain ⟨_, hvalue, goalId, hgoal, hne, _, hcmd, rfl, _, happly, rfl⟩ := hread
    rw [GoalRecovery.apply, hvalue, ok_bind] at happly
    rw [filter_append]
    by_cases hkind : fact.kind = .known .goalCreated
    · -- A creation: recovery had no entry for its Goal, so the scan had none either.
      rw [if_pos hkind] at happly
      simp only [ok_iff] at happly
      have hnone : (commands[goalId]?).isSome = false := by
        rw [hsame, ← Option.not_isNone, happly.1]
        rfl
      refine ⟨commands.insert goalId fact.factId.text, ?_, fun other ↦ ?_, fun other id hget ↦ ?_⟩
      · have hgoalText := storedText_eq_ok_iff.mpr ⟨hgoal, hne⟩
        have hcmdText := storedText_eq_ok_iff.mpr ⟨hcmd, fact.factId.nonempty⟩
        rw [filter_cons_of_pos (by simp [hkind]), filter_nil, foldlM_append,
          hcmds, ok_bind, foldlM_cons, scanCreation, hvalue, ok_bind, hgoalText, ok_bind, hcmdText,
          ok_bind, ensure_of (by rw [contains_eq, hnone])]
        rfl
      · rw [get?_insert, get?_insert]
        split
        · rfl
        · exact hsame other
      · rw [get?_insert] at hget
        split at hget
        · exact ⟨fact, hstored fact (by simp), Option.some.inj hget⟩
        · exact hnamed other id hget
    · -- Any other fact moves a Goal that exists.
      rw [if_neg hkind] at happly
      simp only [ok_iff] at happly
      obtain ⟨_, hold, -⟩ := happly
      refine ⟨commands, ?_, fun other ↦ ?_, hnamed⟩
      · rw [filter_cons_of_neg (by simp [hkind]), filter_nil, append_nil, hcmds]
      · rw [get?_insert]
        split
        · rename_i heq
          rw [hsame, ← heq, hold]
          rfl
        · exact hsame other

variable {ledger : LedgerState} {sessionId : SessionId} {session : SessionLedger}
  {predicted : GoalId → Option (GoalSnapshot × Nat)} {context : GoalCommandContext}
  {planned : PlannedGoalCommand}

variable {definition : GoalDefinitionV1}

/-- Planning needs the session. -/
theorem exists_session_of_planCreateGoal
    (h : planCreateGoal lib ledger sessionId context definition = .ok planned) :
    ∃ session, ledger.sessions[sessionId]? = some session := by
  cases hsess : ledger.sessions[sessionId]? with
  | none => simp [planCreateGoal, sessionWatermark, hsess, bind_eq_ok_iff] at h
  | some session => exact ⟨session, rfl⟩

/-- What planning a creation read and checked. -/
theorem planCreateGoal_eq_ok (hread : Readable lib ledger sessionId session predicted found)
    (h : planCreateGoal lib ledger sessionId context definition = .ok planned) :
    ∃ commands created, creationCommands lib session.facts = .ok commands ∧
      admitCreation commands (graphAt found session.version session.facts.length) context
        definition = .ok () ∧
      creationFact lib context definition = .ok created ∧
      planned = ⟨[created], .new definition, 0, session.version, session.facts.length⟩ := by
  simp only [planCreateGoal, ok_iff, hread.watermark_eq, okOr_some, exists_eq_left',
    hread.reconstruct_eq, hread.readFacts_eq] at h
  obtain ⟨-, -, commands, hcmds, hadmits, created, hcreated, rfl⟩ := h
  exact ⟨commands, created, hcmds, hadmits, hcreated, rfl⟩

/-- A planned creation is sound, of a Goal that is new and that its parent admits, unless a fact with
its identity is stored already. -/
theorem soundlyPlanned_of_planCreateGoal (hlib : lib.Documented)
    (hread : Readable lib ledger sessionId session predicted found)
    (h : planCreateGoal lib ledger sessionId context definition = .ok planned) :
    ∃ draft, planned.facts = [draft] ∧ planned.next.sessionVersion = session.version ∧
      planned.next.snapshot = .new definition ∧ planned.next.attemptNumber = 0 ∧
      ((∃ fact ∈ session.facts, fact.factId = draft.factId) ∨
        SoundlyPlanned lib found session.facts session.version draft definition.goalId
          (.new definition, 0) ∧ found[definition.goalId]? = none ∧
        admitChild (graphAt found session.version session.facts.length) definition = .ok ()) := by
  obtain ⟨_, created, hcmds, hadmits, hcreated, rfl⟩ :=
    planCreateGoal_eq_ok hread h
  refine ⟨created, rfl, rfl, rfl, rfl, ?_⟩
  obtain ⟨scanned, hscanned, hsame, hnamed⟩ := creationCommands_of_entries hread.entries_eq
  rw [hscanned, Except.ok.injEq] at hcmds
  subst hcmds
  cases hcmd : scanned[definition.goalId]? with
  | some commandId =>
    -- The Goal exists and the command is the one that created it.
    left
    rw [admitCreation, hcmd] at hadmits
    obtain ⟨fact, hmem, hid⟩ := hnamed _ _ hcmd
    refine ⟨fact, hmem, LedgerIdentity.ext_text ?_⟩
    simp only [creationFact, bind_eq_ok_iff] at hcreated
    obtain ⟨_, -, _, -, hfact⟩ := hcreated
    obtain ⟨factId, _, htext, -, rfl⟩ := fact_eq_ok_iff.mp hfact
    rw [hid, htext]
    simpa using hadmits
  | none =>
    right
    have hnew : found[definition.goalId]? = none := by
      have hisSome := hsame definition.goalId
      rw [hcmd] at hisSome
      exact Option.isSome_eq_false_iff.mp hisSome.symm |> Option.isNone_iff_eq_none.mp
    rw [admitCreation, hcmd] at hadmits
    refine ⟨⟨?_, by simp [hnew], ?_, by simp [GoalSnapshot.new], by simp, rfl⟩, hnew, hadmits⟩
    · rw [hnew]
      exact goalFact_of_creationFact hlib hcreated
    · refine hread.tree.insert_leaf hnew fun parentId hpar ↦ ?_
      have hpar' : definition.parentGoalId = some parentId := hpar
      simp only [admitChild, hpar', ok_iff, get?_graphAt, Option.map_eq_some_iff] at hadmits
      obtain ⟨_, ⟨entry, hentry, rfl⟩, -, hchild, -⟩ := hadmits
      exact ⟨entry.1.definition, by rw [definitionIn, hentry]; rfl, hchild⟩

/-- A transition that closes a Goal successfully keeps its definition and records the evidence. -/
theorem definition_of_succeeded {current : GoalRuntimeState}
    (h : planGoalTransitionFromState lib current expectedRevision context request = .ok planned)
    (hstate : planned.next.snapshot.state = .succeeded) :
    request = .succeed planned.next.snapshot.terminalEvidence ∧
      planned.next.snapshot.definition = current.snapshot.definition := by
  simp only [planGoalTransitionFromState, ok_iff] at h
  obtain ⟨-, -, _, -, _, -, _, hdrafted, next, happly, _, -, rfl⟩ := h
  obtain ⟨_, htrans⟩ := (succeeded_iff_of_apply happly).mp hstate
  rw [htrans] at happly
  simp only [GoalSnapshot.apply, ok_iff] at happly
  obtain ⟨-, -, _, -, -, -, rfl⟩ := happly
  refine ⟨?_, rfl⟩
  cases request with
  | succeed found =>
    simp only [draft, ok_iff] at hdrafted
    obtain ⟨_, -, rfl⟩ := hdrafted
    rw [GoalTransition.succeed.injEq] at htrans
    rw [htrans]
  | fail code supporting =>
    cases supporting <;>
      simp only [draft, ok_iff] at hdrafted
    · obtain ⟨-, rfl⟩ := hdrafted
      cases htrans
    · obtain ⟨-, _, -, rfl⟩ := hdrafted
      cases htrans
  | activate | suspend | cancel | revise =>
    simp only [draft, ok_iff] at hdrafted
    obtain ⟨_, hdrafted⟩ := hdrafted
    grind

/-- The definitions of a graph in which one Goal moved. -/
theorem definition?_insert_graphAt {version : Nat} {next : GoalRuntimeState} :
    GoalGraph.definition? (Std.ExtTreeMap.insert (graphAt found version through) goalId next) =
      definitionIn (found.insert goalId (next.snapshot, next.attemptNumber)) := by
  funext other
  rw [GoalGraph.definition?, get?_insert, definitionIn, get?_insert, get?_graphAt]
  split
  · rfl
  · rw [Option.map_map]
    rfl

theorem exists_session_of_planGoalTransition
    (h : planGoalTransition lib ledger sessionId goalId expectedRevision context request = .ok planned) :
    ∃ session, ledger.sessions[sessionId]? = some session := by
  cases hsess : ledger.sessions[sessionId]? with
  | none => simp [planGoalTransition, sessionWatermark, hsess, bind_eq_ok_iff] at h
  | some session => exact ⟨session, rfl⟩

/-- What planning a transition reads and checks. -/
theorem planGoalTransition_eq_ok_iff (hread : Readable lib ledger sessionId session predicted found) :
    planGoalTransition lib ledger sessionId goalId expectedRevision context request = .ok planned ↔
    ∃ entry, found[goalId]? = some entry ∧
      verifyRequest lib (graphAt found session.version session.facts.length) session.facts
        session.version goalId ⟨entry.1, entry.2, session.version, session.facts.length⟩ request =
          .ok () ∧
      planGoalTransitionFromState lib
        ⟨entry.1, entry.2, session.version, session.facts.length⟩ expectedRevision context request =
          .ok planned ∧
      GoalTree (definitionIn (found.insert goalId
        (planned.next.snapshot, planned.next.attemptNumber))) ∧
      admitParent ((graphAt found session.version session.facts.length).insert goalId planned.next)
        planned.next.snapshot.definition = .ok () := by
  simp only [planGoalTransition, ok_iff, hread.watermark_eq, okOr_some, exists_eq_left',
    hread.reconstruct_eq, hread.readFacts_eq, get?_graphAt,
    Option.map_eq_some_iff, GoalGraph.validate_eq_ok_iff, definition?_insert_graphAt]
  constructor
  · rintro ⟨-, _, ⟨entry, hentry, rfl⟩, hverify, _, hplan, htree, hadmits, rfl⟩
    exact ⟨entry, hentry, hverify, hplan, htree, hadmits⟩
  · rintro ⟨entry, hentry, hverify, hplan, htree, hadmits⟩
    have hgoal : goalId ≠ "" :=
      hread.goalId_eq goalId entry hentry ▸ entry.1.definition.admitted.goalId_nonempty
    exact ⟨hgoal, _, ⟨entry, hentry, rfl⟩, hverify, planned, hplan, htree, hadmits, rfl⟩

/-- A planned transition is sound. -/
theorem soundlyPlanned_of_planGoalTransition (hlib : lib.Documented)
    (hread : Readable lib ledger sessionId session predicted found)
    (h : planGoalTransition lib ledger sessionId goalId expectedRevision context request = .ok planned) :
    ∃ draft, planned.facts = [draft] ∧ planned.next.sessionVersion = session.version ∧
      SoundlyPlanned lib found session.facts session.version draft goalId
        (planned.next.snapshot, planned.next.attemptNumber) := by
  obtain ⟨entry, hentry, hverify, hplan, htree, -⟩ :=
    (planGoalTransition_eq_ok_iff hread).mp h
  obtain ⟨draft, hfacts, hopen, hatt, hid, hfact⟩ :=
    goalFact_of_planned hlib (hread.attempt_lt goalId entry hentry) hplan
  have hgoal := hread.goalId_eq goalId entry hentry
  rw [hgoal] at hfact hid
  refine ⟨draft, hfacts, ?_, ?_, fun current hcur ↦ ?_, htree, fun hstate ↦ ?_, hatt, hid⟩
  · simp only [planGoalTransitionFromState, ok_iff] at hplan
    obtain ⟨-, -, _, -, _, -, _, -, _, -, _, -, rfl⟩ := hplan
    rfl
  · rw [hentry]
    exact hfact
  · rw [hentry, Option.some.injEq] at hcur
    rw [← hcur]
    exact hopen
  · obtain ⟨hreq, hdef⟩ := definition_of_succeeded hplan hstate
    rw [hreq] at hverify
    rw [hdef]
    exact hverify

end GoalCommand

/-! ## Runs -/

/-- Something that is committed to a ledger that holds Goals. -/
inductive GoalEvent where
  | create (sessionId : SessionId) (context : GoalCommandContext) (definition : GoalDefinitionV1)
  | transition (sessionId : SessionId) (goalId : GoalId) (expectedRevision : Nat)
      (context : GoalCommandContext) (request : GoalRuntimeTransition)
  /-- Any batch of facts outside the `goal.` family. -/
  | other (call : CommitCall) (outside : ∀ draft ∈ call.drafts, draft.kind.ns? ≠ some .goal)

/-- A ledger, and what the last command of each Goal predicted. -/
structure GoalWorld where
  ledger : LedgerState := {}
  predicted : SessionId → GoalId → Option (GoalSnapshot × Nat) := fun _ _ ↦ none

namespace GoalWorld

variable (lib : Externals) (world : GoalWorld)

/-- The ledger after a command, with what the command predicted. -/
def predict (ledger : LedgerState) (sessionId : SessionId) (goalId : GoalId)
    (next : GoalRuntimeState) : GoalWorld where
  ledger := ledger
  predicted session goal :=
    if sessionId = session ∧ goalId = goal then some (next.snapshot, next.attemptNumber)
    else world.predicted session goal

/-- Commits a planned command at the version it was planned at. A command that is appended is the
last one of its Goal; a replay changes nothing. -/
def commitPlanned (sessionId : SessionId) (goalId : GoalId) (planned : PlannedGoalCommand) :
    Except GoalRuntimeError CommitResult × GoalWorld :=
  match GoalCommand.commitGoalCommand lib world.ledger sessionId planned.next.sessionVersion
    planned with
  | (.error e, ledger) => (.error e, { world with ledger })
  | (.ok result, ledger) =>
    (.ok result,
      match result.disposition with
      | .committed => world.predict ledger sessionId goalId planned.next
      | .replayed => { world with ledger })

/-- Plans a command at the current watermark and commits it, or commits something else. -/
def step : GoalEvent → Except GoalRuntimeError CommitResult × GoalWorld
  | .create sessionId context definition =>
    match GoalCommand.planCreateGoal lib world.ledger sessionId context definition with
    | .error e => (.error e, world)
    | .ok planned => world.commitPlanned lib sessionId definition.goalId planned
  | .transition sessionId goalId expectedRevision context request =>
    match GoalCommand.planGoalTransition lib world.ledger sessionId goalId expectedRevision context
      request with
    | .error e => (.error e, world)
    | .ok planned => world.commitPlanned lib sessionId goalId planned
  | .other call _ =>
    let (answer, ledger) :=
      world.ledger.commit lib call.sessionId call.expectedSessionVersion call.drafts
    (answer.mapError GoalCommand.mapLedger, { world with ledger })

end GoalWorld

def goalMachine (lib : Externals) :
    Machine GoalWorld GoalEvent (Except GoalRuntimeError CommitResult) where
  init := {}
  step world event := world.step lib event

@[simp] theorem goalMachine_step (lib : Externals) (world : GoalWorld) (event : GoalEvent) :
    (goalMachine lib).step world event = world.step lib event := rfl

/-- Every session is recovered as predicted. -/
structure GoalWorld.Agrees (lib : Externals) (world : GoalWorld) : Prop where
  reachable : LedgerState.Reachable lib world.ledger
  recovered : ∀ (sessionId : SessionId) (session : SessionLedger),
    world.ledger.sessions[sessionId]? = some session →
      ∃ found, Recovered lib session.facts session.version (world.predicted sessionId) found
  absent : ∀ sessionId : SessionId, world.ledger.sessions[sessionId]? = none →
    ∀ goalId, world.predicted sessionId goalId = none

namespace GoalWorld

variable {world : GoalWorld}

theorem agrees_empty (lib : Externals) : Agrees lib {} where
  reachable := (ledgerMachine lib).reachable_init
  recovered sessionId session h := by simp at h
  absent _ _ _ := rfl

variable {session : SessionLedger}

theorem Agrees.readable (h : Agrees lib world)
    (hsess : world.ledger.sessions[sessionId]? = some session) :
    ∃ found, Readable lib world.ledger sessionId session (world.predicted sessionId) found := by
  obtain ⟨hne, hstored⟩ := h.reachable.storedFacts hsess
  obtain ⟨found, hrcvd⟩ := h.recovered sessionId session hsess
  exact ⟨found, hrcvd, hsess, hne, hstored⟩

/-- The session before a commit, empty when it is new. -/
theorem Agrees.recovered_session (h : Agrees lib world) (sessionId : SessionId) :
    ∃ found, Recovered lib (world.ledger.session sessionId).facts
      (world.ledger.session sessionId).version (world.predicted sessionId) found := by
  cases hsess : world.ledger.sessions[sessionId]? with
  | some session =>
    rw [session_of_get? hsess]
    exact h.recovered sessionId session hsess
  | none =>
    have hnone : world.predicted sessionId = fun _ ↦ none := funext (h.absent sessionId hsess)
    rw [session, hsess, Option.getD_none, hnone]
    exact ⟨∅, Recovered.nil lib _⟩

/-- Appending to one session keeps the agreement of the others. -/
theorem Agrees.of_append (h : Agrees lib world) {after : GoalWorld}
    {next : SessionLedger} (hreach : LedgerState.Reachable lib after.ledger)
    (hsessions : after.ledger.sessions = world.ledger.sessions.insert sessionId next)
    (hothers : ∀ other, sessionId ≠ other → after.predicted other = world.predicted other)
    (hnext : ∃ found, Recovered lib next.facts next.version (after.predicted sessionId) found) :
    Agrees lib after where
  reachable := hreach
  recovered other session hsess := by
    rw [hsessions, get?_insert] at hsess
    split at hsess
    · rename_i heq
      cases hsess
      rw [← heq]
      exact hnext
    · rename_i hne
      rw [hothers other hne]
      exact h.recovered other session hsess
  absent other hnone goalId := by
    rw [hsessions, get?_insert] at hnone
    split at hnone
    · cases hnone
    · rename_i hne
      rw [hothers other hne]
      exact h.absent other hnone goalId

/-- Other facts are appended to a session, whose Goals stay as they are, or nothing changes. -/
theorem Agrees.other_cases (h : Agrees lib world) (call : CommitCall)
    (outside : ∀ draft ∈ call.drafts, draft.kind.ns? ≠ some .goal) :
    (world.step lib (.other call outside)).2 = world ∨
    ∃ (ledger : LedgerState) (next : SessionLedger) (found : Entries),
      (world.step lib (.other call outside)).2 = { world with ledger } ∧
      LedgerState.Reachable lib ledger ∧
      ledger.sessions = world.ledger.sessions.insert call.sessionId next ∧
      Recovered lib (world.ledger.session call.sessionId).facts
        (world.ledger.session call.sessionId).version (world.predicted call.sessionId) found ∧
      Recovered lib next.facts next.version (world.predicted call.sessionId) found := by
  have hreach := h.reachable.step call
  rcases commit_sessions lib h.reachable.wellFormed call.sessionId
    call.expectedSessionVersion call.drafts with
    ⟨-, hsame⟩ | ⟨positions, next, -, hsessions, -, -, -, hver, hnext, hfacts⟩
  · left
    change { world with ledger := (world.ledger.commit lib call.sessionId
      call.expectedSessionVersion call.drafts).2 } = world
    rw [hsame]
  · right
    obtain ⟨found, hrcvd⟩ := h.recovered_session call.sessionId
    refine ⟨_, next, found, rfl, hreach, hsessions, hrcvd, ?_⟩
    have hget : (world.ledger.commit lib call.sessionId call.expectedSessionVersion
        call.drafts).2.sessions[call.sessionId]? = some next := by
      rw [hsessions, get?_insert_self]
    have hstored : StoredFacts lib next.facts := (LedgerState.Reachable.storedFacts hreach hget).2
    rw [hfacts] at hstored ⊢
    refine hrcvd.extend hstored (by omega) fun fact hfact ↦ ?_
    obtain ⟨_, draft, hget, rfl⟩ := mem_numbered.mp hfact
    simpa [isGoalFact, DurableFact.ofDraft] using outside draft (mem_of_getElem? hget)

/-- Commits of other facts keep the agreement. -/
theorem Agrees.other (h : Agrees lib world) (call : CommitCall)
    (outside : ∀ draft ∈ call.drafts, draft.kind.ns? ≠ some .goal) :
    Agrees lib (world.step lib (.other call outside)).2 := by
  rcases h.other_cases call outside with
    hsame | ⟨ledger, next, found, hnext, hreach, hsessions, -, hrcvd⟩
  · rw [hsame]
    exact h
  · rw [hnext]
    exact h.of_append hreach hsessions (fun _ _ ↦ rfl) ⟨found, hrcvd⟩

/-- A command that was planned is appended, if no fact with its identity is stored, or it changes
nothing. -/
theorem Agrees.commitPlanned_cases (h : Agrees lib world) (goalId : GoalId)
    {planned : PlannedGoalCommand} {found : Entries}
    (hread : Readable lib world.ledger sessionId session (world.predicted sessionId) found)
    (hfacts : planned.facts = [draft]) :
    (world.commitPlanned lib sessionId goalId planned).2 = world ∨
    ∃ (ledger : LedgerState) (next : SessionLedger),
      (world.commitPlanned lib sessionId goalId planned).2 =
        world.predict ledger sessionId goalId planned.next ∧
      LedgerState.Reachable lib ledger ∧
      ledger.sessions = world.ledger.sessions.insert sessionId next ∧
      (∀ fact ∈ session.facts, fact.factId ≠ draft.factId) ∧
      (SoundlyPlanned lib found session.facts session.version draft goalId
          (planned.next.snapshot, planned.next.attemptNumber) →
        Recovered lib next.facts next.version
          ((world.predict ledger sessionId goalId planned.next).predicted sessionId)
          (found.insert goalId (planned.next.snapshot, planned.next.attemptNumber))) := by
  have hcur := session_of_get? hread.sessions_eq
  have hreach : LedgerState.Reachable lib (world.ledger.commit lib sessionId
      planned.next.sessionVersion planned.facts).2 :=
    h.reachable.step ⟨sessionId, planned.next.sessionVersion, planned.facts⟩
  have hcom := commit_sessions lib h.reachable.wellFormed sessionId
    planned.next.sessionVersion planned.facts
  rw [GoalWorld.commitPlanned, GoalCommand.commitGoalCommand]
  generalize world.ledger.commit lib sessionId planned.next.sessionVersion planned.facts = out
    at hreach hcom ⊢
  obtain ⟨answer, ledger⟩ := out
  rcases hcom with ⟨hreplayed, hsame⟩ | ⟨positions, next, hanswer, hsessions, hbatch, -, -,
    hver, hnext, hnextFacts⟩
  · -- Nothing was appended: the ledger and the predictions stay as they are.
    left
    subst hsame
    cases answer with
    | error e => rfl
    | ok result =>
      have hdisp := hreplayed result rfl
      simp only [Except.mapError, hdisp]
  · right
    subst hanswer
    refine ⟨ledger, next, rfl, hreach, hsessions, fun fact hmem hid ↦ ?_, fun hplanned ↦ ?_⟩
    · rw [← hcur] at hmem
      obtain ⟨_, hentry⟩ := h.reachable.wellFormed.exists_indexed hmem
      rw [hid, (hbatch draft (by simp [hfacts])).2] at hentry
      cases hentry
    · have hget : ledger.sessions[sessionId]? = some next := by
        rw [hsessions, get?_insert_self]
      have hstored : StoredFacts lib next.facts := (hreach.storedFacts hget).2
      have hlater : session.version ≤ next.version := by
        rw [hnext, ← hver, hcur]
        omega
      rw [hnextFacts, hcur, hfacts] at hstored ⊢
      simpa [predict] using hread.step rfl hstored hlater hplanned

/-- A command that was planned soundly keeps the agreement. -/
theorem Agrees.commitPlanned (h : Agrees lib world)
    {planned : PlannedGoalCommand} {found : Entries}
    (hread : Readable lib world.ledger sessionId session (world.predicted sessionId) found)
    (hfacts : planned.facts = [draft])
    (hplanned : (∃ fact ∈ session.facts, fact.factId = draft.factId) ∨ SoundlyPlanned lib found session.facts session.version draft goalId (planned.next.snapshot, planned.next.attemptNumber)) :
    Agrees lib (world.commitPlanned lib sessionId goalId planned).2 := by
  rcases h.commitPlanned_cases goalId hread hfacts with
    hsame | ⟨ledger, next, hnext, hreach, hsessions, hfresh, hstep⟩
  · rw [hsame]
    exact h
  · rw [hnext]
    refine h.of_append hreach hsessions (fun other hne ↦ by simp [predict, hne]) ⟨_, hstep ?_⟩
    rcases hplanned with ⟨fact, hmem, hid⟩ | hplanned
    · exact absurd hid (hfresh fact hmem)
    · exact hplanned

/-- Every event keeps the agreement. -/
theorem Agrees.step (hlib : lib.Documented) (h : Agrees lib world) (event : GoalEvent) :
    Agrees lib (world.step lib event).2 := by
  cases event with
  | create sessionId context definition =>
    rw [GoalWorld.step]
    cases hplan : GoalCommand.planCreateGoal lib world.ledger sessionId context definition with
    | error e => exact h
    | ok planned =>
      obtain ⟨session, hsess⟩ := GoalCommand.exists_session_of_planCreateGoal hplan
      obtain ⟨found, hread⟩ := h.readable hsess
      obtain ⟨draft, hfacts, -, hsnap, hatt, hplanned⟩ :=
        GoalCommand.soundlyPlanned_of_planCreateGoal hlib hread hplan
      refine h.commitPlanned hread hfacts (hplanned.imp_right fun hsound ↦ ?_)
      rw [hsnap, hatt]
      exact hsound.1
  | transition sessionId goalId expectedRevision context request =>
    rw [GoalWorld.step]
    cases hplan : GoalCommand.planGoalTransition lib world.ledger sessionId goalId expectedRevision
      context request with
    | error e => exact h
    | ok planned =>
      obtain ⟨session, hsess⟩ := GoalCommand.exists_session_of_planGoalTransition hplan
      obtain ⟨found, hread⟩ := h.readable hsess
      obtain ⟨draft, hfacts, -, hplanned⟩ := GoalCommand.soundlyPlanned_of_planGoalTransition hlib
        hread hplan
      exact h.commitPlanned hread hfacts (.inr hplanned)
  | other call outside => exact h.other call outside

/-- What recovery returns from a session that agrees. -/
theorem Agrees.reconstruct (h : Agrees lib world)
    (hsess : world.ledger.sessions[sessionId]? = some session) :
    ∃ graph, reconstructGoalGraph lib world.ledger sessionId = .ok graph ∧
      ∀ goalId : GoalId, (graph[goalId]?.map fun state ↦ (state.snapshot, state.attemptNumber)) =
        world.predicted sessionId goalId := by
  obtain ⟨_, hread⟩ := h.readable hsess
  refine ⟨_, hread.reconstructGoalGraph_eq, fun goalId ↦ ?_⟩
  rw [get?_graphAt, Option.map_map, ← hread.predicted_eq]
  exact Option.map_id_apply

end GoalWorld

end Garive
