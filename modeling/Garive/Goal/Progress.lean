import Garive.Goal.Agreement
import Garive.Ledger.History

/-!
# Goal commands that go through

When a Goal can be created and revised: planning accepts the command, and the ledger accepts its
fact. `GoalWorld.Standing` describes a ledger with one open session by the commands committed to it
and the Goals they led to; creating and revising Goals extends the description, so that runs of
commands are put together without evaluating the ledger.

The module ends with the agreement of commands and recovery along every run
(`reconstructGoalGraph_of_run`).
-/

namespace Garive

open GoalRecovery GoalEvidence LedgerState GoalCommand List RuntimeFacts.Goal

variable {entry : GoalSnapshot × Nat} {goalId : GoalId}

/-- Another definition of a Goal without a parent leaves a tree when its children narrow it. -/
theorem GoalTree.insert_root {found : Entries} (htree : GoalTree (definitionIn found))
    {old : GoalDefinitionV1} (hold : definitionIn found goalId = some old)
    (hroot : old.parentGoalId = none) (hroot' : entry.1.definition.parentGoalId = none)
    (hchildren : ∀ childId child, definitionIn found childId = some child → child.parentGoalId = some goalId → child.validateChildOf entry.1.definition = .ok ()) :
    GoalTree (definitionIn (found.insert goalId entry)) := by
  have hget : ∀ id, definitionIn (found.insert goalId entry) id =
      if goalId = id then some entry.1.definition else definitionIn found id := by
    intro id
    rw [definitionIn, Map.get?_insert]
    split <;> rfl
  have hparents : IsParent (definitionIn (found.insert goalId entry)) = IsParent (definitionIn found) := by
    funext parentId childId
    simp only [IsParent, hget, eq_iff_iff]
    by_cases heq : goalId = childId
    · subst heq
      simp [hold, hroot, hroot']
    · simp [heq]
  constructor
  · intro childId child parentId hchild hpar
    rw [hget] at hchild
    split at hchild
    · cases hchild
      rw [hroot'] at hpar
      cases hpar
    · obtain ⟨parent, hfound, hnarrows⟩ := htree.narrowed childId child parentId hchild hpar
      rw [hget]
      split
      · rename_i heq
        subst heq
        exact ⟨_, rfl, hchildren childId child hchild hpar⟩
      · exact ⟨parent, hfound, hnarrows⟩
  · intro id hsome
    rw [hparents]
    refine htree.grounded id ?_
    rw [hget] at hsome
    split at hsome
    · rename_i heq
      rw [← heq, hold]
      rfl
    · exact hsome

variable {written : FactDraft} {kind : RuntimeKind} {reason : String}

namespace GoalCommand

variable {lib : Externals} {context : GoalCommandContext} {definition : GoalDefinitionV1}

/-! ## The ledger accepts the facts -/

variable {fields : List (String × Value)}

/-- A command's fact passes both validations when its fields pass the rule of its kind. -/
theorem admitted_of_fact (hlib : lib.Documented) (hplain : ∀ entry ∈ fields, entry.2.Plain 126)
    (hctx : validateContext lib context = .ok ())
    (h : fact lib context kind fields = .ok written)
    (hruntime : (FactKind.known kind).isRuntime)
    (hneeds : (FactKind.known kind).needsTurn = false ∧ (FactKind.known kind).needsExecution = false ∧ (FactKind.known kind).needsModelRequest = false ∧ (FactKind.known kind).needsToolInvocation = false)
    (hrule : RuntimeFacts.validatePayload lib (.known kind) 1 (.ofFields fields) = .ok ()) :
    written.validate lib = .ok () ∧
      ∃ disposition, validateRuntimeFact lib written = .ok disposition := by
  obtain ⟨factId, payload, -, hpay, rfl⟩ := fact_eq_ok_iff.mp h
  simp only [validateContext, ok_iff] at hctx
  have hwritten : Written lib ⟨factId, none, none, none, none, .known kind, 1, payload,
      context.recordedAt⟩ fields := ⟨hpay, hplain⟩
  refine ⟨hwritten.validate_eq (by simp) hctx.2.2, .appliedV1,
    hwritten.validateRuntimeFact_eq hlib hruntime rfl ?_ hrule⟩
  simp [FactDraft.envelopeMatches, hneeds]

theorem admitted_of_creationFact (hlib : lib.Documented)
    (hctx : validateContext lib context = .ok ())
    (h : creationFact lib context definition = .ok written) : written.validate lib = .ok () ∧
      ∃ disposition, validateRuntimeFact lib written = .ok disposition := by
  simp only [creationFact, GoalDefinitionV1.digest, ok_iff] at h
  obtain ⟨definitionJson, -, _, ⟨_, -, rfl⟩, hfact⟩ := h
  have hcont := hctx
  simp only [validateContext, requireNonEmpty, ok_iff]
    at hcont
  refine admitted_of_fact hlib ?_ hctx hfact (by decide) (by decide) ?_
  · simp [plain_inlineContent, Value.plain_posInt]
  · simp only [RuntimeFacts.validatePayload, FactKind.ns?_known, RuntimeKind.ns, RuntimeKind.parts,
      validate, created, common, ok_iff]
    refine ⟨fields_ofFields [] rfl (by simp), ⟨?_, ?_, ?_⟩, ?_, ?_, content_inlineContent hlib
      (show _ = some (inlineContent lib definitionJson) by simp), ?_⟩
    all_goals simp [hcont, definition.admitted.goalId_nonempty, hlib.isDigest_sha256Hex,
      Number.asU64]

theorem exists_fact (hctx : validateContext lib context = .ok ()) (kind : RuntimeKind)
    (hplain : ∀ entry ∈ fields, entry.2.Plain 126) :
    ∃ written, fact lib context kind fields = .ok written := by
  obtain ⟨payload, hpay⟩ := CanonicalPayload.exists_fromValue lib (Value.plain_json hplain).exact
  simp only [validateContext, requireNonEmpty, ok_iff]
    at hctx
  exact ⟨_, fact_eq_ok_iff.mpr ⟨⟨context.commandId, hctx.1⟩, payload, rfl, hpay, rfl⟩⟩

theorem exists_creationFact (hctx : validateContext lib context = .ok ())
    (definition : GoalDefinitionV1) : ∃ written, creationFact lib context definition = .ok written := by
  obtain ⟨_, htext⟩ := definition.exists_canonicalJson
  simp only [creationFact, GoalDefinitionV1.digest, htext, Except.mapError, ok_bind, pure_eq_ok]
  exact exists_fact hctx .goalCreated (by simp [plain_inlineContent, Value.plain_posInt])

/-- The fields of a revision's fact. -/
def revisionFields (lib : Externals) (context : GoalCommandContext) (goalId : GoalId)
    (revision : Nat) (previousDigest definitionJson reason : String) : List (String × Value) :=
  commonPayload context goalId (revision + 1) ++ [("previous_revision", .number (.posInt revision)),
    ("previous_definition_digest", .string previousDigest),
    ("definition_digest", .string (lib.sha256Hex definitionJson)),
    ("definition", inlineContent lib definitionJson), ("replacement_reason", .string reason)]

variable {revision : Nat}

theorem plain_revisionFields {previousDigest json : String} (hrev : revision + 1 < 2 ^ 64) :
    ∀ entry ∈ revisionFields lib context goalId revision
      previousDigest json reason, entry.2.Plain 126 := by
  have hlt : revision < 2 ^ 64 := by omega
  simp [revisionFields, commonPayload, plain_inlineContent, Value.plain_posInt hrev,
    Value.plain_posInt hlt]

theorem admitted_of_revision (hlib : lib.Documented)
    (hctx : validateContext lib context = .ok ()) {previous definitionJson : String}
    (hgoal : goalId ≠ "") (hpositive : 0 < revision) (hrev : revision + 1 < 2 ^ 64)
    (hreason : reason ≠ "")
    (h : fact lib context .goalRevised (revisionFields lib context goalId revision (lib.sha256Hex previous) definitionJson reason) = .ok written) :
    written.validate lib = .ok () ∧
      ∃ disposition, validateRuntimeFact lib written = .ok disposition := by
  have hcont := hctx
  simp only [validateContext, requireNonEmpty, ok_iff]
    at hcont
  refine admitted_of_fact hlib (plain_revisionFields hrev) hctx h (by decide) (by decide) ?_
  simp only [RuntimeFacts.validatePayload, FactKind.ns?_known, RuntimeKind.ns, RuntimeKind.parts,
    validate, revised, common, ok_iff]
  refine ⟨fields_ofFields_of_mem (by simp [revisionFields, commonPayload])
    (by simp [revisionFields, commonPayload]), ⟨?_, ?_, ?_⟩, ?_, ?_, ?_,
    ?_, content_inlineContent hlib (show _ = some (inlineContent lib definitionJson) by
      simp [revisionFields, commonPayload]), ?_⟩
  case refine_5 =>
    have hsuccessor : checkedAdd revision 1 = some (revision + 1) := if_pos hrev
    simp [RuntimeFacts.successor, revisionFields, commonPayload, Number.asU64, hsuccessor]
  all_goals simp [revisionFields, commonPayload, hcont, hgoal, hlib.isDigest_sha256Hex,
    hpositive.ne', hreason]

/-! ## Planning accepts the commands -/

variable {ledger : LedgerState} {sessionId : SessionId} {session : SessionLedger} {found : Entries}
  {predicted : GoalId → Option (GoalSnapshot × Nat)}

/-- A Goal that is new and whose parent admits it can be created. -/
theorem exists_planCreateGoal (hread : Readable lib ledger sessionId session predicted found)
    (hctx : validateContext lib context = .ok ())
    (hscope : definition.scope.sessionId.all (· == sessionId.text))
    (hnew : found[definition.goalId]? = none)
    (hadmits : admitChild (graphAt found session.version session.facts.length) definition = .ok ()) :
    ∃ written, creationFact lib context definition = .ok written ∧
      planCreateGoal lib ledger sessionId context definition = .ok
        { facts := [written]
          next := {
            snapshot := .new definition
            attemptNumber := 0
            sessionVersion := session.version
            throughPosition := session.facts.length } } := by
  obtain ⟨written, hwritten⟩ := exists_creationFact hctx definition
  obtain ⟨commands, hcmds, hsame, -⟩ := creationCommands_of_entries hread.entries_eq
  have hnone : commands[definition.goalId]? = none := by
    have hisSome := hsame definition.goalId
    rw [hnew] at hisSome
    exact Option.isSome_eq_false_iff.mp hisSome |> Option.isNone_iff_eq_none.mp
  refine ⟨written, hwritten, ?_⟩
  simp only [planCreateGoal, hctx, hread.watermark_eq, ok_bind, ensure_of hscope, okOr_some,
    hread.readFacts_eq, Except.mapError, hcmds, hread.reconstruct_eq, admitCreation, hnone, hadmits, hwritten, pure_eq_ok]

/-- A Goal that is not closed can be revised when the new definition leaves a tree and its parent
admits it. -/
theorem exists_planRevision (hread : Readable lib ledger sessionId session predicted found)
    (hctx : validateContext lib context = .ok ())
    (hentry : found[definition.goalId]? = some entry) (hopen : entry.1.state.isTerminal = false)
    (hrev : entry.1.revision + 1 < 2 ^ 64) (hreason : reason ≠ "")
    (htree : GoalTree (definitionIn (found.insert definition.goalId (⟨definition, entry.1.revision + 1, .draft, []⟩, entry.2))))
    (hadmits : admitParent ((graphAt found session.version session.facts.length).insert definition.goalId ⟨⟨definition, entry.1.revision + 1, .draft, []⟩, entry.2, session.version, session.facts.length⟩) definition = .ok ()) :
    ∃ (previous definitionJson : String) (written : FactDraft),
      fact lib context .goalRevised (revisionFields lib context definition.goalId entry.1.revision
        (lib.sha256Hex previous) definitionJson reason) = .ok written ∧
      planGoalTransition lib ledger sessionId definition.goalId entry.1.revision context
        (.revise definition reason) = .ok
        { facts := [written]
          next := {
            snapshot := ⟨definition, entry.1.revision + 1, .draft, []⟩
            attemptNumber := entry.2
            sessionVersion := session.version
            throughPosition := session.facts.length } } := by
  obtain ⟨previous, hprevious⟩ := entry.1.definition.exists_canonicalJson
  obtain ⟨definitionJson, hjson⟩ := definition.exists_canonicalJson
  have hgoal := hread.goalId_eq _ _ hentry
  have hplain : ∀ entry' ∈ revisionFields lib context definition.goalId entry.1.revision
      (lib.sha256Hex previous) definitionJson reason, entry'.2.Plain 126 :=
    plain_revisionFields hrev
  obtain ⟨written, hwritten⟩ := exists_fact hctx .goalRevised hplain
  refine ⟨previous, definitionJson, written, hwritten, ?_⟩
  have hsuccessor : checkedAdd entry.1.revision 1 = some (entry.1.revision + 1) := if_pos hrev
  refine (planGoalTransition_eq_ok_iff hread).mpr
    ⟨entry, hentry, rfl, ?_, htree, hadmits⟩
  simp only [ok_bind, okOr_some, Except.mapError, planGoalTransitionFromState, hctx, ensure_of,
    GoalDefinitionV1.digest, hprevious, hjson, hsuccessor, draft, requireNonEmpty, hreason,
    GoalSnapshot.apply, hopen, hgoal, pure_eq_ok, ne_eq, not_false_eq_true]
  rw [revisionFields] at hwritten
  rw [hwritten]
  rfl

end GoalCommand

/-! ## Ledgers with one open session -/

variable {batches : List (List FactDraft)}

/-- The facts of a history have different identities. -/
theorem LedgerState.Holds.nodup_ids {lib : Externals} {ledger : LedgerState} {sessionId : SessionId}
    {projection : SessionProjection} (h : Holds lib ledger sessionId batches projection)
    (hne : batches ≠ []) : (batches.flatten.map (·.factId)).Nodup := by
  have hids := (h.reachable.storedFacts (h.get?_sessions hne)).2.ids
  rwa [h.facts_eq, map_factId_numbered] at hids

/-- A ledger with one open session, to which the commands were committed, and the Goals they led
to. -/
structure GoalWorld.Standing (lib : Externals) (world : GoalWorld) (sessionId : SessionId)
    (commands : List String) (goals : List (GoalId × (GoalSnapshot × Nat))) : Prop where
  agrees : world.Agrees lib
  holds : ∃ batches, batches ≠ [] ∧ Holds lib world.ledger sessionId batches { opened := true } ∧
    batches.flatten.map (·.factId.text) = commands ∧ batches.length ≤ commands.length
  nodup : (goals.map (·.1)).Nodup
  mem_iff : ∀ goalId entry, (goalId, entry) ∈ goals ↔
    world.predicted sessionId goalId = some entry

namespace GoalWorld

variable {lib : Externals} {world : GoalWorld} {sessionId : SessionId} {commands : List String}
  {revision : Nat} {goals : List (GoalId × (GoalSnapshot × Nat))}

/-- The number of children of a Goal among the listed ones. -/
def listedChildren (goals : List (GoalId × (GoalSnapshot × Nat))) (parentId : GoalId) : Nat :=
  goals.countP fun entry ↦ entry.2.1.definition.parentGoalId == some parentId

/-- The session of a ledger that is described, and the Goals that recovery reads from it. -/
theorem Standing.readable (h : Standing lib world sessionId commands goals) :
    ∃ found, Readable lib world.ledger sessionId (world.ledger.session sessionId)
      (world.predicted sessionId) found := by
  obtain ⟨_, hne, hholds, -, -⟩ := h.holds
  exact h.agrees.readable (hholds.get?_sessions hne)

theorem Standing.get?_eq (h : Standing lib world sessionId commands goals)
    {session : SessionLedger} {found : Entries}
    (hread : Readable lib world.ledger sessionId session (world.predicted sessionId) found)
    (hmem : (goalId, entry) ∈ goals) : found[goalId]? = some entry := by
  rw [hread.predicted_eq, ← h.mem_iff]
  exact hmem

/-- A Goal has as many children in the graph as among the listed Goals. -/
theorem Standing.childCount_eq (h : Standing lib world sessionId commands goals) {found : Entries}
    (hfound : ∀ goalId : GoalId, found[goalId]? = world.predicted sessionId goalId)
    (version through : Nat) (parentId : GoalId) :
    childCount (graphAt found version through) parentId =
      listedChildren goals parentId := by
  have hperm : (graphAt found version through).toList.Perm (goals.map fun entry ↦
      (entry.1, ⟨entry.2.1, entry.2.2, version, through⟩)) := by
    refine (perm_ext_iff_of_nodup (Map.nodup_toList _) ?_).mpr ?_
    · refine h.nodup.of_map.map_on ?_
      rintro ⟨id, _, _⟩ - ⟨_, _, _⟩ - heq
      simpa using heq
    · rintro ⟨goalId, _⟩
      rw [Std.ExtTreeMap.mem_toList_iff_getElem?_eq_some, get?_graphAt, hfound, mem_map,
        Option.map_eq_some_iff]
      constructor
      · rintro ⟨entry, hentry, rfl⟩
        exact ⟨(goalId, entry), (h.mem_iff _ _).mpr hentry, rfl⟩
      · rintro ⟨⟨id, entry⟩, hmem, heq⟩
        rw [Prod.mk.injEq] at heq
        obtain ⟨rfl, rfl⟩ := heq
        exact ⟨entry, (h.mem_iff _ _).mp hmem, rfl⟩
  rw [childCount, hperm.countP_eq, countP_map]
  rfl

/-- What recovery returns from a ledger that is described. -/
theorem Standing.reconstruct (h : Standing lib world sessionId commands goals) :
    ∃ graph, reconstructGoalGraph lib world.ledger sessionId = .ok graph ∧
      (∀ goalId entry, (goalId, entry) ∈ goals → ∃ state, graph[goalId]? = some state ∧
        state.snapshot = entry.1 ∧ state.attemptNumber = entry.2) ∧
      ∀ parentId, childCount graph parentId = listedChildren goals parentId := by
  obtain ⟨_, hread⟩ := h.readable
  refine ⟨_, hread.reconstructGoalGraph_eq, fun goalId entry hentry ↦ ?_,
    h.childCount_eq hread.predicted_eq _ _⟩
  exact ⟨⟨entry.1, entry.2, _, _⟩, by rw [get?_graphAt, h.get?_eq hread hentry]; rfl, rfl, rfl⟩

/-- A fact of a `goal.` kind leaves an open session as it is. -/
theorem follows_goalFact {draft : FactDraft} (hvalid : draft.validate lib = .ok ())
    (hadm : ∃ disposition, validateRuntimeFact lib draft = .ok disposition)
    (hkind : draft.kind = .known kind) (hother : kind ≠ .sessionOpened)
    (hinert : ∀ p : SessionProjection, p.applyKind lib draft kind = .ok p)
    (hnodup : ((batches.flatten ++ [draft]).map (·.factId)).Nodup)
    (hfits : batches.length + batches.flatten.length + 2 < 2 ^ 64) :
    Follows lib batches { opened := true } [draft] { opened := true } where
  nonempty := by simp
  valid := by
    rw [forall_mem_singleton]
    exact hvalid
  admitted := by
    rw [forall_mem_singleton]
    exact hadm
  nodup := hnodup
  accepted := by
    have happly := apply_known (p := { opened := true }) hvalid hkind hother rfl rfl
    rw [hinert] at happly
    simp [SessionProjection.applyAll, SessionProjection.beginCommit, happly]
  boundary := by simp [SessionProjection.validateCommitBoundary, Map.any]
  fits := by simpa using hfits

/-- Committing one more command at the session's version extends the description. -/
theorem Standing.commitPlanned (h : Standing lib world sessionId commands goals)
    {planned : PlannedGoalCommand} {next : List (GoalId × (GoalSnapshot × Nat))}
    (hagrees : Agrees lib (world.commitPlanned lib sessionId goalId planned).2)
    (hfacts : planned.facts = [written])
    (hver : planned.next.sessionVersion = (world.ledger.session sessionId).version)
    (hadm : written.validate lib = .ok () ∧ ∃ disposition, validateRuntimeFact lib written = .ok disposition)
    (hkind : written.kind = .known kind) (hother : kind ≠ .sessionOpened)
    (hinert : ∀ p : SessionProjection, p.applyKind lib written kind = .ok p)
    (hnew : written.factId.text ∉ commands) (hfits : 2 * commands.length + 2 < 2 ^ 64)
    (hnodup : (next.map (·.1)).Nodup)
    (hmem : ∀ other entry, (other, entry) ∈ next ↔ if goalId = other then entry = (planned.next.snapshot, planned.next.attemptNumber) else (other, entry) ∈ goals) :
    Standing lib (world.commitPlanned lib sessionId goalId planned).2 sessionId
      (commands ++ [written.factId.text]) next := by
  obtain ⟨batches, hne, hholds, hcmds, _⟩ := h.holds
  have hcount : batches.flatten.length = commands.length := by
    rw [← hcmds, length_map]
  have hids : ((batches.flatten ++ [written]).map (·.factId)).Nodup := by
    have hnot : written.factId ∉ batches.flatten.map (·.factId) := by
      intro hmem
      refine hnew (hcmds ▸ ?_)
      obtain ⟨draft, hdraft, heq⟩ := mem_map.mp hmem
      exact mem_map.mpr ⟨draft, hdraft, by rw [heq]⟩
    rw [map_append, nodup_append]
    refine ⟨hholds.nodup_ids hne, by simp, ?_⟩
    rintro _ hid _ hlast rfl
    rw [map_singleton, mem_singleton] at hlast
    exact hnot (hlast ▸ hid)
  obtain ⟨after, hcom, hafter⟩ := hholds.commit (follows_goalFact hadm.1 hadm.2 hkind
    hother hinert hids (by omega))
  have hstep : (world.commitPlanned lib sessionId goalId planned).2 =
      world.predict after sessionId goalId planned.next := by
    rw [GoalWorld.commitPlanned, commitGoalCommand, hfacts, hver, hholds.version_eq,
      hcom]
    rfl
  rw [hstep] at hagrees ⊢
  refine ⟨hagrees, ⟨batches ++ [[written]], by simp, hafter, by simp [hcmds], by simpa⟩, hnodup,
    fun other entry ↦ ?_⟩
  rw [hmem, predict]
  by_cases heq : goalId = other
  · simp [heq, eq_comm]
  · simp [heq, h.mem_iff]

variable {context : GoalCommandContext}

/-- A new Goal whose parent is open, may grant it and has room for it can be created. -/
theorem Standing.create (hlib : lib.Documented) (h : Standing lib world sessionId commands goals)
    {definition : GoalDefinitionV1}
    (hctx : validateContext lib context = .ok ())
    (hscope : definition.scope.sessionId.all (· == sessionId.text))
    (hcmd : context.commandId ∉ commands) (hnew : definition.goalId ∉ goals.map (·.1))
    (hpar : ∀ parentId, definition.parentGoalId = some parentId →
      ∃ parent, (parentId, parent) ∈ goals ∧ parent.1.state.isTerminal = false ∧
        definition.validateChildOf parent.1.definition = .ok () ∧
        listedChildren goals parentId < parent.1.definition.bounds.maxChildGoals.toNat)
    (hfits : 2 * commands.length + 2 < 2 ^ 64) :
    Standing lib (world.step lib (.create sessionId context definition)).2 sessionId
      (commands ++ [context.commandId]) (goals ++ [(definition.goalId, (.new definition, 0))]) := by
  obtain ⟨found, hread⟩ := h.readable
  have habsent : ∀ entry, (definition.goalId, entry) ∉ goals := fun entry hentry ↦
    hnew (mem_map_of_mem hentry)
  have hnone : found[definition.goalId]? = none := by
    rw [hread.predicted_eq, Option.eq_none_iff_forall_not_mem]
    exact fun entry hentry ↦ habsent entry ((h.mem_iff _ _).mpr hentry)
  have hadmits : admitChild (graphAt found (world.ledger.session sessionId).version
      (world.ledger.session sessionId).facts.length) definition = .ok () := by
    rw [admitChild]
    cases hid : definition.parentGoalId with
    | none => rfl
    | some parentId =>
      obtain ⟨parent, hmem, hopen, hnarrows, hroom⟩ := hpar parentId hid
      simp [get?_graphAt, h.get?_eq hread hmem, hopen, hnarrows,
        h.childCount_eq hread.predicted_eq, hroom, Except.mapError]
  obtain ⟨written, hwritten, hplan⟩ := exists_planCreateGoal hread hctx hscope hnone hadmits
  have hfact := hwritten
  simp only [creationFact, bind_eq_ok_iff] at hfact
  obtain ⟨_, -, _, -, hfact⟩ := hfact
  obtain ⟨factId, _, htext, -, heq⟩ := fact_eq_ok_iff.mp hfact
  have hid : written.factId.text = context.commandId := by rw [heq, htext]
  have hagrees := h.agrees.step hlib (.create sessionId context definition)
  rw [GoalWorld.step, hplan] at hagrees ⊢
  rw [← hid]
  refine h.commitPlanned hagrees rfl rfl (admitted_of_creationFact hlib hctx hwritten)
    (by rw [heq]) (by decide) (fun p ↦ rfl) (hid ▸ hcmd) hfits ?_ fun other entry ↦ ?_
  · rw [map_append, nodup_append]
    refine ⟨h.nodup, by simp, ?_⟩
    rintro id hid _ hlast rfl
    rw [map_singleton, mem_singleton] at hlast
    change id = definition.goalId at hlast
    exact hnew (hlast ▸ hid)
  · rw [mem_append, mem_singleton, Prod.mk.injEq]
    split
    · rename_i heq
      subst heq
      simp [habsent]
    · rename_i hne
      simp [show other ≠ definition.goalId from fun heq ↦ hne heq.symm]

/-- A transition that planning accepts and whose fact passes moves one of the Goals. -/
theorem Standing.transition (hlib : lib.Documented)
    {before after : List (GoalId × (GoalSnapshot × Nat))}
    {fields : List (String × Value)} {request : GoalRuntimeTransition}
    {next : GoalRuntimeState}
    (h : Standing lib world sessionId commands (before ++ (goalId, entry) :: after))
    (hplan : planGoalTransition lib world.ledger sessionId goalId revision context request = .ok ⟨[written], next⟩)
    (hver : next.sessionVersion = (world.ledger.session sessionId).version)
    (hwritten : fact lib context kind fields = .ok written)
    (hadm : written.validate lib = .ok () ∧ ∃ disposition, validateRuntimeFact lib written = .ok disposition)
    (hother : kind ≠ .sessionOpened)
    (hinert : ∀ p : SessionProjection, p.applyKind lib written kind = .ok p)
    (hcmd : context.commandId ∉ commands) (hfits : 2 * commands.length + 2 < 2 ^ 64) :
    Standing lib (world.step lib (.transition sessionId goalId revision context request)).2
      sessionId (commands ++ [context.commandId])
      (before ++ (goalId, (next.snapshot, next.attemptNumber)) :: after) := by
  obtain ⟨factId, _, htext, -, heq⟩ := fact_eq_ok_iff.mp hwritten
  have hid : written.factId.text = context.commandId := by rw [heq, htext]
  have hnodup := h.nodup
  rw [map_append, map_cons, nodup_middle, nodup_cons, ← map_append]
    at hnodup
  have hagrees := h.agrees.step hlib (.transition sessionId goalId revision context request)
  rw [GoalWorld.step, hplan] at hagrees ⊢
  rw [← hid]
  refine h.commitPlanned hagrees rfl hver hadm (by rw [heq]) hother hinert (hid ▸ hcmd) hfits
    (by simpa using h.nodup) fun id other ↦ ?_
  rw [perm_middle.mem_iff, perm_middle.mem_iff, mem_cons, mem_cons,
    Prod.mk.injEq, Prod.mk.injEq]
  split
  · rename_i hsame
    subst hsame
    have hnot : (goalId, other) ∉ before ++ after := fun hmem ↦
      hnodup.1 (mem_map.mpr ⟨_, hmem, rfl⟩)
    simp [hnot]
  · rename_i hdifferent
    simp [Ne.symm hdifferent]

/-- A Goal without a parent can be revised when its children narrow the new definition. -/
theorem Standing.revise (hlib : lib.Documented)
    {before after : List (GoalId × (GoalSnapshot × Nat))}
    {definition : GoalDefinitionV1}
    (h : Standing lib world sessionId commands (before ++ (definition.goalId, entry) :: after))
    (hctx : validateContext lib context = .ok ())
    (hcmd : context.commandId ∉ commands) (hopen : entry.1.state.isTerminal = false)
    (hroot : entry.1.definition.parentGoalId = none) (hroot' : definition.parentGoalId = none)
    (hrev : 0 < entry.1.revision ∧ entry.1.revision + 1 < 2 ^ 64) (hreason : reason ≠ "")
    (hchildren : ∀ child ∈ before ++ after, child.2.1.definition.parentGoalId = some definition.goalId → child.2.1.definition.validateChildOf definition = .ok ())
    (hfits : 2 * commands.length + 2 < 2 ^ 64) :
    Standing lib (world.step lib (.transition sessionId definition.goalId entry.1.revision context
      (.revise definition reason))).2 sessionId (commands ++ [context.commandId])
      (before ++ (definition.goalId, (⟨definition, entry.1.revision + 1, .draft, []⟩, entry.2)) ::
        after) := by
  obtain ⟨found, hread⟩ := h.readable
  have hfound : found[definition.goalId]? = some entry := h.get?_eq hread (by simp)
  have htree : GoalTree (definitionIn (found.insert definition.goalId
      (⟨definition, entry.1.revision + 1, .draft, []⟩, entry.2))) := by
    have hold : definitionIn found definition.goalId = some entry.1.definition := by
      simp [definitionIn, hfound]
    refine hread.tree.insert_root hold hroot hroot' fun childId child hchild hid ↦ ?_
    rw [definitionIn, Option.map_eq_some_iff] at hchild
    obtain ⟨state, hstate, rfl⟩ := hchild
    have hne : childId ≠ definition.goalId := by
      rintro rfl
      rw [hfound, Option.some.injEq] at hstate
      rw [← hstate, hroot] at hid
      cases hid
    rw [hread.predicted_eq, ← h.mem_iff] at hstate
    exact hchildren (childId, state) (by simpa [hne] using hstate) hid
  obtain ⟨_, _, _, hwritten, hplan⟩ :=
    exists_planRevision hread hctx hfound hopen
      hrev.2 hreason htree (by rw [admitParent, hroot'])
  have hadm := admitted_of_revision hlib hctx definition.admitted.goalId_nonempty
    hrev.1 hrev.2 hreason hwritten
  exact h.transition hlib hplan rfl hwritten hadm (by decide) (fun p ↦ rfl) hcmd hfits

/-! ## Concrete Goals -/

/-- The opening of the session of the concrete runs. -/
def openingEvent : GoalEvent :=
  .other ⟨runSession, 0, [openingFact]⟩ (by simp [openingFact, referenceFact, RuntimeKind.ns,
    RuntimeKind.parts])

theorem standing_opening : Standing reference ((goalMachine reference).run [openingEvent]).2
    runSession ["fact-opened"] [] := by
  change Standing reference (GoalWorld.step reference {} openingEvent).2 runSession _ _
  obtain ⟨after, hcom, hholds⟩ := (holds_empty reference runSession).commit follows_opening
  have hstep : (GoalWorld.step reference {} openingEvent).2 = { ledger := after } := by
    change ({ ledger := (LedgerState.commit reference {} runSession 0 [openingFact]).2 } : GoalWorld) =
      _
    rw [show LedgerState.commit reference {} runSession 0 [openingFact] = _ from hcom]
  have hagrees := (agrees_empty reference).step reference_documented openingEvent
  rw [hstep] at hagrees ⊢
  exact ⟨hagrees, ⟨[[openingFact]], by simp, hholds, rfl, by simp⟩, by simp, by simp⟩

end GoalWorld

/-- The context of a concrete command. -/
def runContext (commandId : String) : GoalCommandContext where
  commandId := commandId
  actorReference := "actor-1"
  recordedAt := "2026-01-01T00:00:00Z"

theorem validateContext_runContext {commandId : String} (h : commandId ≠ "") :
    validateContext reference (runContext commandId) = .ok () := by
  simp [validateContext, requireNonEmpty, runContext, h,
    parseFromRfc3339_reference]

/-- The scope of the concrete Goals. -/
def runScope : GoalScopeV1 where
  sessionId := some runSession.text
  workspaceCapabilityIds := ∅
  session_valid := by decide
  ids_valid := by simp
  ids_le := by simp
  anchored := by simp

/-- The grant of a concrete Goal that may have a number of children. -/
def runBounds (maxChildGoals : UInt32) (h : maxChildGoals ≠ 0) : GoalBoundsV1 where
  maxAttempts := 1
  maxPlanRevisions := 1
  maxChildGoals := maxChildGoals
  tokenBudget := none
  durationBudgetMs := none
  valid := by simp [h]

/-- The grant of a Goal that may have one child. -/
def boundsOne : GoalBoundsV1 := runBounds 1 (by decide)

/-- A concrete Goal that the user accepts. -/
def runGoal (goalId : GoalId) (parentGoalId : Option GoalId) (bounds : GoalBoundsV1)
    (hid : goalId ≠ "") (hpar : parentGoalId ≠ some "" ∧ parentGoalId ≠ some goalId) :
    GoalDefinitionV1 where
  goalId := goalId
  objective := "objective-1"
  criteria := [.userAcceptance "criterion-1" (Sha256.hex "")]
  scope := runScope
  bounds := bounds
  parentGoalId := parentGoalId
  capabilityReferences := ∅
  admitted := {
    goalId_nonempty := hid
    objective_nonempty := by simp
    objective_le := show "objective-1".utf8ByteSize ≤ maxObjectiveBytes by decide
    criteria_nonempty := by simp
    criteria_le := by simp [maxCollectionItems]
    criteria_unique := SetOf.size_ofList_eq_iff.mpr (nodup_singleton "criterion-1")
    criteria_valid := by
      simp [GoalCriterion.validate, GoalCriterion.criterionId, Sha256.isDigest_hex]
    capabilities_le := by simp
    capabilities_valid := by simp
    parent_nonempty := hpar.1
    parent_ne_self := hpar.2 }

/-- The only Goal of a concrete run. -/
def soleGoal : GoalDefinitionV1 :=
  runGoal "goal-1" none boundsOne (by simp) (by simp)

/-- Creates it. -/
def soleCreation : GoalEvent := .create runSession (runContext "create-goal-1") soleGoal

open GoalWorld in
theorem standing_soleCreation :
    Standing reference ((goalMachine reference).run ([openingEvent] ++ [soleCreation])).2 runSession
      ["fact-opened", "create-goal-1"] [("goal-1", (.new soleGoal, 0))] := by
  rw [Machine.run_concat]
  exact standing_opening.create reference_documented (validateContext_runContext (by simp))
    (by simp [soleGoal, runGoal, runScope]) (by simp [runContext]) (by simp)
    (by simp [soleGoal, runGoal]) (by simp)

/-! ## Agreement along runs -/

theorem GoalWorld.agrees_of_run (hlib : lib.Documented) (events : List GoalEvent) :
    GoalWorld.Agrees lib ((goalMachine lib).run events).2 :=
  (goalMachine lib).runFrom_induction (GoalWorld.agrees_empty lib)
    (fun _ event h ↦ h.step hlib event) events

end Garive
