import Garive.Goal.Grants
import Garive.Ledger.Started

/-!
# When a Goal can be cancelled

The lifecycle of a Goal lets it be cancelled from every state in which it is not closed, whatever its
relatives are doing. The planner checks the whole graph: it refuses to move a Goal whose parent is
closed, or has more children than its narrowed grant allows, and a reason that is no reference is
refused as well. `cancelGoal_iff` says exactly when a Goal of a ledger that was built by Goal commands
can be cancelled and the fact committed; `cancelledParent_rejects_child` is the run of commands after
which an open Goal cannot be cancelled any more.
-/

namespace Garive

open GoalRecovery LedgerState GoalCommand Option List

variable {lib : Externals} {ledger : LedgerState} {sessionId : SessionId} {session : SessionLedger}
  {goalId : GoalId}

/-! ## Committing the fact of a Goal command -/

namespace LedgerState

/-- A fact that leaves every projection as it is and names nothing but itself is committed exactly
when it is new, the session is open and the counters have room. -/
theorem commit_inert_iff (hreach : Reachable lib ledger)
    (hsess : ledger.sessions[sessionId]? = some session) {draft : FactDraft} {kind : RuntimeKind}
    (hvalid : draft.validate lib = .ok ())
    (hadm : ∃ disposition, validateRuntimeFact lib draft = .ok disposition)
    (hkind : draft.kind = .known kind) (hother : kind ≠ .sessionOpened)
    (hnone : draft.turnId = none ∧ draft.executionId = none ∧ draft.modelRequestId = none ∧
      draft.toolInvocationId = none)
    (hinert : ∀ p : SessionProjection, p.applyKind lib draft kind = .ok p) :
    (∃ after, ledger.commit lib sessionId session.version [draft] =
        (.ok ⟨.committed, session.version + 1, [session.facts.length + 1]⟩, after)) ↔
      ledger.factIndex[draft.factId]? = none ∧ session.projection.closed = false ∧
        session.facts.length + 1 < 2 ^ 64 ∧ session.version + 1 < 2 ^ 64 := by
  obtain ⟨history, hrecs⟩ := (Reachable.wellFormed hreach).recorded sessionId session hsess
  have hlen : session.facts.length = history.length := by rw [hrecs.facts_eq, length_numbered]
  have hlookup := session_of_get? hsess
  obtain ⟨hleads, hboundary⟩ := Reachable.leads hreach hsess
  have hopened : session.projection.opened :=
    hleads.opened (by simpa using (hreach.storedFacts hsess).1)
  constructor
  · rintro ⟨after, hcommit⟩
    obtain ⟨position, projection, happ, -, -⟩ := appends_of_commit hcommit rfl
    have hposition := happ.position_eq
    have haccepted := happ.accepted
    rw [hlookup] at hposition haccepted
    refine ⟨happ.fresh draft mem_cons_self, ?_, ?_, happ.version_fits⟩
    · simp only [SessionProjection.applyAll, SessionProjection.apply, ok_iff, hkind,
        FactKind.known.injEq, hother, if_false] at haccepted
      obtain ⟨_, ⟨-, ⟨-, hclosed⟩, -⟩, -⟩ := haccepted
      exact hclosed
    · rw [hlen, ← hrecs.position_eq hposition]
      exact SessionLedger.nextPosition_lt hposition
  · rintro ⟨hfresh, hclosed, hroom, hversion⟩
    have happly := apply_known (p := session.projection.beginCommit) hvalid hkind hother hopened
      hclosed
    rw [hinert] at happly
    have happ : Appends lib ledger sessionId session.version [draft] (session.facts.length + 1)
        session.projection.beginCommit := by
      constructor
      case screened =>
        rw [forall_mem_singleton]
        refine ⟨hvalid, hadm, ?_, fun existing hex ↦ (by rw [hfresh] at hex; cases hex)⟩
        obtain ⟨hturn, hexec, hmodel, htool⟩ := hnone
        simp [identityOwnedByOtherSession, Map.any, FactDraft.sharesIdentity, samePresent, hturn,
          hexec, hmodel, htool]
      case position_eq => rw [hlookup, hrecs.nextPosition_eq, ← hlen, if_pos hroom]
      case accepted => simp [hlookup, SessionProjection.applyAll, happly]
      case boundary =>
        rw [SessionProjection.validateCommitBoundary_eq_ok_iff] at hboundary ⊢
        exact ⟨hboundary.1, fun id record _ ↦ by simp [SessionProjection.beginCommit]⟩
      case fresh =>
        rw [forall_mem_singleton]
        exact hfresh
      case version_fits => exact hversion
      all_goals simp [hlookup]
    exact ⟨_, commit_of_appends happ⟩

end LedgerState

/-! ## Planning a cancellation -/

namespace GoalCommand

variable {context : GoalCommandContext} {reason : String} {current : GoalRuntimeState}
  {planned : PlannedGoalCommand}

/-- The fields of a cancellation's fact. -/
def cancelFields (context : GoalCommandContext) (goalId : GoalId) (revision : Nat)
    (reason : String) : List (String × Value) :=
  commonPayload context goalId revision ++ [("reason", .string reason)]

/-- The state that a cancellation leads to. -/
def cancelled (current : GoalRuntimeState) : GoalRuntimeState :=
  { current with
    snapshot := { current.snapshot with
      revision := current.snapshot.revision + 1, state := .cancelled } }

theorem planCancel_eq_ok_iff (hctx : validateContext lib context = .ok ())
    (hopen : current.snapshot.state.isTerminal = false) (hreason : reason ≠ "") :
    planGoalTransitionFromState lib current current.snapshot.revision context (.cancel reason) =
        .ok planned ↔
      validReference reason ∧ current.snapshot.revision + 1 < 2 ^ 64 ∧
        ∃ written, fact lib context .goalCancelled (cancelFields context
          current.snapshot.definition.goalId (current.snapshot.revision + 1) reason) = .ok written ∧
        planned = ⟨[written], cancelled current⟩ := by
  obtain ⟨text, htext⟩ := current.snapshot.definition.exists_canonicalJson
  have hdigest : current.snapshot.definition.digest lib = .ok (lib.sha256Hex text) := by
    rw [GoalDefinitionV1.digest, htext]
    rfl
  simp only [planGoalTransitionFromState, hctx, hdigest, draft, requireNonEmpty, hreason, hopen,
    GoalSnapshot.apply, checkedAdd_eq_some_iff, ok_iff, ne_eq, not_false_eq_true, true_and,
    exists_eq_left', cancelFields]
  constructor
  · rintro ⟨_, ⟨rfl, hlt⟩, _, ⟨_, ⟨rfl, -⟩, href, rfl⟩, written, hwritten, rfl⟩
    exact ⟨href, hlt, written, hwritten, rfl⟩
  · rintro ⟨href, hlt, written, hwritten, rfl⟩
    exact ⟨_, ⟨rfl, hlt⟩, _, ⟨_, ⟨rfl, hlt⟩, href, rfl⟩, written, hwritten, rfl⟩

/-- The fact of a cancellation passes both validations. -/
theorem admitted_of_cancel (hlib : lib.Documented) (hctx : validateContext lib context = .ok ())
    {revision : Nat} {written : FactDraft} (hgoal : goalId ≠ "") (hpositive : 0 < revision)
    (hlt : revision < 2 ^ 64) (hreason : reason ≠ "")
    (h : fact lib context .goalCancelled (cancelFields context goalId revision reason) = .ok written) :
    written.validate lib = .ok () ∧
      ∃ disposition, validateRuntimeFact lib written = .ok disposition := by
  have hcont := hctx
  simp only [validateContext, requireNonEmpty, ok_iff] at hcont
  refine admitted_of_fact hlib ?_ hctx h (by decide) (by decide) ?_
  · simp [cancelFields, commonPayload, Value.plain_posInt hlt]
  · simp only [RuntimeFacts.validatePayload, FactKind.ns?_known, RuntimeKind.ns, RuntimeKind.parts,
      RuntimeFacts.Goal.validate, RuntimeFacts.Goal.cancelled, RuntimeFacts.Goal.common, ok_iff]
    refine ⟨fields_ofFields_of_mem (by simp [cancelFields, commonPayload])
      (by simp [cancelFields, commonPayload]), ⟨?_, ?_, ?_⟩, ?_, ?_⟩
    all_goals simp [cancelFields, commonPayload, hcont, hgoal, hpositive.ne', hreason]

/-- The fact of a cancellation is committed exactly when its command is new, the session is open and
the counters have room. -/
theorem commitCancel_iff (hlib : lib.Documented) (hreach : Reachable lib ledger)
    (hsess : ledger.sessions[sessionId]? = some session) (hctx : validateContext lib context = .ok ())
    (hreason : reason ≠ "") {definition : GoalDefinitionV1} {revision : Nat} {written : FactDraft}
    {next : GoalRuntimeState} (hlt : revision + 1 < 2 ^ 64)
    (h : fact lib context .goalCancelled (cancelFields context definition.goalId (revision + 1) reason) = .ok written) :
    (∃ after, commitGoalCommand lib ledger sessionId session.version ⟨[written], next⟩ =
        (.ok ⟨.committed, session.version + 1, [session.facts.length + 1]⟩, after)) ↔
      ledger.factIndex[written.factId]? = none ∧ session.projection.closed = false ∧
        session.facts.length + 1 < 2 ^ 64 ∧ session.version + 1 < 2 ^ 64 := by
  obtain ⟨hvalid, hadm⟩ := admitted_of_cancel hlib hctx definition.admitted.goalId_nonempty
    (Nat.succ_pos _) hlt hreason h
  obtain ⟨factId, _, -, -, rfl⟩ := fact_eq_ok_iff.mp h
  rw [← commit_inert_iff hreach hsess hvalid hadm rfl (by decide) ⟨rfl, rfl, rfl, rfl⟩ fun _ ↦ rfl]
  simp only [commitGoalCommand, exists_and_left, exists_eq', and_true, ok_iff, Prod.ext_iff]

/-- A cancellation leaves the definitions. -/
theorem definition?_insert_cancelled {graph : GoalGraph} (hstate : graph[goalId]? = some current) :
    GoalGraph.definition? (graph.insert goalId (cancelled current)) = graph.definition? := by
  funext other
  rw [GoalGraph.definition?, GoalGraph.definition?, Map.get?_insert]
  split
  · rename_i heq
    rw [← heq, hstate]
    rfl
  · rfl

/-- The parent of a cancelled Goal is checked as it is in the graph before. -/
theorem admitParent_cancelled {graph : GoalGraph} (hstate : graph[goalId]? = some current)
    (hgoal : current.snapshot.definition.goalId = goalId) :
    admitParent (graph.insert goalId (cancelled current)) current.snapshot.definition = .ok () ↔
      ∀ parentId, current.snapshot.definition.parentGoalId = some parentId →
        ∃ parent, graph[parentId]? = some parent ∧ parent.snapshot.state.isTerminal = false ∧
          childCount graph parentId ≤ parent.snapshot.definition.bounds.maxChildGoals.toNat := by
  have hsame := definition?_insert_cancelled hstate
  rw [admitParent]
  cases hid : current.snapshot.definition.parentGoalId with
  | none => simp
  | some parentId =>
    have hne : goalId ≠ parentId := by
      rintro rfl
      exact current.snapshot.definition.admitted.parent_ne_self (by rw [hid, hgoal])
    simp only [Map.get?_insert_of_ne hne, childCount_congr hsame, ok_iff, some.injEq,
      forall_eq']

/-- What cancelling a Goal needs, beside a context that is valid and a reason that is not empty. -/
structure MayCancel (ledger : LedgerState) (session : SessionLedger) (graph : GoalGraph)
    (state : GoalRuntimeState) (context : GoalCommandContext) (reason : String) : Prop where
  reason_valid : validReference reason = true
  /-- The parent is not closed and has no more children than it may have. -/
  parent : ∀ parentId, state.snapshot.definition.parentGoalId = some parentId →
    ∃ parent, graph[parentId]? = some parent ∧ parent.snapshot.state.isTerminal = false ∧
      childCount graph parentId ≤ parent.snapshot.definition.bounds.maxChildGoals.toNat
  /-- The command has not been committed before. -/
  fresh : ∀ factId : FactId, factId.text = context.commandId → ledger.factIndex[factId]? = none
  session_open : session.projection.closed = false
  revision_fits : state.snapshot.revision + 1 < 2 ^ 64
  position_fits : session.facts.length + 1 < 2 ^ 64
  version_fits : session.version + 1 < 2 ^ 64

variable {predicted : GoalId → Option (GoalSnapshot × Nat)} {found : Entries}

/-- A Goal that is not closed and whose parent allows it can be cancelled for a valid reason. -/
theorem exists_planCancel (hread : Readable lib ledger sessionId session predicted found)
    (hstate : (graphAt found session.version session.facts.length)[goalId]? = some current)
    (hopen : current.snapshot.state.isTerminal = false)
    (hctx : validateContext lib context = .ok ()) (hvalid : validReference reason)
    (hlt : current.snapshot.revision + 1 < 2 ^ 64)
    (hparent : admitParent ((graphAt found session.version session.facts.length).insert goalId (cancelled current)) current.snapshot.definition = .ok ()) :
    ∃ written, fact lib context .goalCancelled (cancelFields context
        current.snapshot.definition.goalId (current.snapshot.revision + 1) reason) = .ok written ∧
      planGoalTransition lib ledger sessionId goalId current.snapshot.revision context
        (.cancel reason) = .ok ⟨[written], cancelled current⟩ := by
  have hplain : ∀ field ∈ cancelFields context current.snapshot.definition.goalId
      (current.snapshot.revision + 1) reason, field.2.Plain 126 := by
    simp [cancelFields, commonPayload, Value.plain_posInt hlt]
  obtain ⟨written, hwritten⟩ := exists_fact hctx .goalCancelled hplain
  refine ⟨written, hwritten, (planGoalTransition_eq_ok_iff hread).mpr ?_⟩
  have htree : GoalTree (GoalGraph.definition? (graphAt found session.version session.facts.length)) := by
    rw [definition?_graphAt]
    exact hread.tree
  rw [← definition?_insert_cancelled hstate, definition?_insert_graphAt] at htree
  rw [get?_graphAt, map_eq_some_iff] at hstate
  obtain ⟨entry, hentry, rfl⟩ := hstate
  refine ⟨entry, hentry, rfl, ?_, htree, hparent⟩
  have hreason : reason ≠ "" := by
    rintro rfl
    cases hvalid
  exact (planCancel_eq_ok_iff hctx hopen hreason).mpr ⟨hvalid, hlt, written, hwritten, rfl⟩

/-- A Goal is cancelled exactly when it may be: planning accepts the command and the ledger its
fact. -/
theorem exists_cancel_iff (hlib : lib.Documented) (hreach : Reachable lib ledger)
    (hread : Readable lib ledger sessionId session predicted found)
    (hstate : (graphAt found session.version session.facts.length)[goalId]? = some current)
    (hopen : current.snapshot.state.isTerminal = false)
    (hctx : validateContext lib context = .ok ()) (hreason : reason ≠ "") :
    (∃ planned after, planGoalTransition lib ledger sessionId goalId current.snapshot.revision context
        (.cancel reason) = .ok planned ∧
      commitGoalCommand lib ledger sessionId session.version planned =
        (.ok ⟨.committed, session.version + 1, [session.facts.length + 1]⟩, after)) ↔
      MayCancel ledger session (graphAt found session.version session.facts.length) current context
        reason := by
  have hsess := hread.sessions_eq
  have hgoal : current.snapshot.definition.goalId = goalId := by
    rw [get?_graphAt, map_eq_some_iff] at hstate
    obtain ⟨entry, hentry, rfl⟩ := hstate
    exact hread.goalId_eq goalId entry hentry
  have hparent := admitParent_cancelled hstate hgoal
  constructor
  · rintro ⟨planned, after, hplanned, hcommitted⟩
    obtain ⟨entry, hfound, -, hfrom, -, hadmits⟩ :=
      (planGoalTransition_eq_ok_iff hread).mp hplanned
    rw [get?_graphAt, hfound, map_some, some.injEq] at hstate
    subst hstate
    obtain ⟨hvalid, hlt, written, hwritten, rfl⟩ := (planCancel_eq_ok_iff hctx hopen hreason).mp hfrom
    obtain ⟨hfresh, hclosed, hposition, hversion⟩ :=
      (commitCancel_iff hlib hreach hsess hctx hreason hlt hwritten).mp ⟨after, hcommitted⟩
    refine ⟨hvalid, hparent.mp hadmits, fun factId htext ↦ ?_, hclosed, hlt, hposition, hversion⟩
    obtain ⟨own, payload, hown, -, rfl⟩ := fact_eq_ok_iff.mp hwritten
    rw [LedgerIdentity.ext_text (htext.trans hown.symm)]
    exact hfresh
  · intro hmay
    obtain ⟨written, hwritten, hplanned⟩ := exists_planCancel hread hstate hopen hctx
      hmay.reason_valid hmay.revision_fits (hparent.mpr hmay.parent)
    obtain ⟨own, payload, hown, -, heq⟩ := fact_eq_ok_iff.mp hwritten
    have hfresh : ledger.factIndex[written.factId]? = none := by
      rw [heq]
      exact hmay.fresh own hown
    obtain ⟨after, hcommitted⟩ := (commitCancel_iff hlib hreach hsess hctx hreason hmay.revision_fits
      hwritten).mpr ⟨hfresh, hmay.session_open, hmay.position_fits, hmay.version_fits⟩
    exact ⟨_, after, hplanned, hcommitted⟩

end GoalCommand

/-! ## Along runs -/

namespace GoalWorld

variable {world : GoalWorld} {commands : List String} {goals : List (GoalId × (GoalSnapshot × Nat))}
  {entry : GoalSnapshot × Nat} {context : GoalCommandContext} {reason : String}

/-- A listed Goal without a parent may be cancelled by a new command. -/
theorem Standing.mayCancel (h : Standing lib world sessionId commands goals)
    (hmem : (goalId, entry) ∈ goals) (hroot : entry.1.definition.parentGoalId = none)
    (hvalid : validReference reason) (hcmd : context.commandId ∉ commands)
    (hlt : entry.1.revision + 1 < 2 ^ 64) (hfits : 2 * commands.length + 2 < 2 ^ 64) :
    ∃ graph state, world.ledger.sessions[sessionId]? = some (world.ledger.session sessionId) ∧
      reconstructGoalGraph lib world.ledger sessionId = .ok graph ∧ graph[goalId]? = some state ∧
      state.snapshot = entry.1 ∧ GoalCommand.MayCancel world.ledger (world.ledger.session sessionId)
        graph state context reason := by
  obtain ⟨batches, hne, hholds, hcmds, _⟩ := h.holds
  obtain ⟨graph, hgraph, hstates, -⟩ := h.reconstruct
  obtain ⟨state, hstate, hsnapshot, -⟩ := hstates _ _ hmem
  have hcount : batches.flatten.length = commands.length := by rw [← hcmds, length_map]
  have hused : ∀ factId ∈ batches.flatten.map (·.factId), factId.text ≠ context.commandId := by
    intro factId hmem heq
    obtain ⟨_, hdraft, rfl⟩ := mem_map.mp hmem
    exact hcmd (heq ▸ hcmds ▸ mem_map_of_mem (f := (·.factId.text)) hdraft)
  refine ⟨graph, state, hholds.get?_sessions hne, hgraph, hstate, hsnapshot, hvalid, ?_, ?_, ?_,
    hsnapshot ▸ hlt, ?_, ?_⟩
  · intro parentId hid
    rw [hsnapshot, hroot] at hid
    cases hid
  · intro factId htext
    rw [eq_none_iff_forall_not_mem]
    exact fun entry hentry ↦ hused factId (hholds.indexed _ _ hentry).2 htext
  · rw [hholds.projection_eq]
  · rw [hholds.facts_eq, length_numbered]
    omega
  · rw [hholds.version_eq]
    omega

variable {before after : List (GoalId × (GoalSnapshot × Nat))}

/-- A Goal without a parent can be cancelled. -/
theorem Standing.cancel (hlib : lib.Documented)
    (h : Standing lib world sessionId commands (before ++ (goalId, entry) :: after))
    (hctx : validateContext lib context = .ok ()) (hcmd : context.commandId ∉ commands)
    (hopen : entry.1.state.isTerminal = false) (hroot : entry.1.definition.parentGoalId = none)
    (hlt : entry.1.revision + 1 < 2 ^ 64) (hvalid : validReference reason)
    (hfits : 2 * commands.length + 2 < 2 ^ 64) :
    Standing lib (world.step lib (.transition sessionId goalId entry.1.revision context
      (.cancel reason))).2 sessionId (commands ++ [context.commandId])
      (before ++ (goalId, ({ entry.1 with revision := entry.1.revision + 1, state := .cancelled },
        entry.2)) :: after) := by
  obtain ⟨found, hread⟩ := h.readable
  have hfound : found[goalId]? = some entry := h.get?_eq hread (by simp)
  have hreason : reason ≠ "" := by
    rintro rfl
    cases hvalid
  obtain ⟨_, hwritten, hplan⟩ := exists_planCancel hread
    (by rw [get?_graphAt, hfound]; rfl) hopen hctx hvalid hlt (by rw [admitParent, hroot])
  have hadm := admitted_of_cancel hlib hctx entry.1.definition.admitted.goalId_nonempty
    (Nat.succ_pos _) hlt hreason hwritten
  exact h.transition hlib hplan rfl hwritten hadm (by decide) (fun p ↦ rfl) hcmd hfits

/-- A listed Goal whose parent is closed cannot be cancelled. -/
theorem Standing.not_cancel (h : Standing lib world sessionId commands goals) {parentId : GoalId}
    {parent : GoalSnapshot × Nat} (hmem : (goalId, entry) ∈ goals)
    (hopen : entry.1.state.isTerminal = false)
    (hid : entry.1.definition.parentGoalId = some parentId) (hparent : (parentId, parent) ∈ goals)
    (hclosed : parent.1.state.isTerminal)
    (hctx : validateContext lib context = .ok ()) (hreason : reason ≠ "")
    (planned : PlannedGoalCommand) :
    planGoalTransition lib world.ledger sessionId goalId entry.1.revision context
      (.cancel reason) ≠ .ok planned := by
  intro hplanned
  obtain ⟨_, hread⟩ := h.readable
  obtain ⟨_, hentry, -, hplan, -, hadmits⟩ :=
    (planGoalTransition_eq_ok_iff hread).mp hplanned
  rw [h.get?_eq hread hmem, some.injEq] at hentry
  subst hentry
  obtain ⟨-, -, _, -, rfl⟩ := (planCancel_eq_ok_iff hctx hopen hreason).mp hplan
  obtain ⟨state, hstate, hstill, -⟩ := (admitParent_cancelled
    (by rw [get?_graphAt, h.get?_eq hread hmem]; rfl) (hread.goalId_eq _ _ (h.get?_eq hread hmem))).mp hadmits parentId
    hid
  rw [get?_graphAt, h.get?_eq hread hparent, map_some, some.injEq] at hstate
  subst hstate
  rw [hclosed] at hstill
  cases hstill

/-- Cancels the parent. -/
def parentCancellation : GoalEvent :=
  .transition runSession "goal-parent" 1 (runContext "cancel-parent") (.cancel "stopped")

theorem Standing.cancelParent {children : List (GoalId × (GoalSnapshot × Nat))}
    (h : Standing reference world runSession commands
      (("goal-parent", (.new (crowdedParent boundsTwo), 0)) :: children))
    (hcmd : "cancel-parent" ∉ commands) (hfits : 2 * commands.length + 2 < 2 ^ 64) :
    Standing reference (world.step reference parentCancellation).2 runSession
      (commands ++ ["cancel-parent"])
      (("goal-parent", (⟨crowdedParent boundsTwo, 2, .cancelled, []⟩, 0)) :: children) := by
  have hparent : Standing reference world runSession commands
      ([] ++ ("goal-parent", (.new (crowdedParent boundsTwo), 0)) :: children) := h
  have hvalid : validReference "stopped" := by decide
  have hctx : validateContext reference (runContext "cancel-parent") = .ok () :=
    validateContext_runContext (by simp)
  have hcancel := hparent.cancel reference_documented hctx hcmd rfl rfl (by simp [GoalSnapshot.new])
    hvalid hfits
  exact hcancel

end GoalWorld

end Garive
