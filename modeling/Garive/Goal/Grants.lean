import Garive.Goal.Progress

/-!
# Grants down the Goal tree

What recovery accepts is a forest in which every Goal narrows all its ancestors
(`GoalTree.within_of_ancestor`). How many children a Goal may have is checked when a child is created
or moved, against the parent's definition at that moment. A Goal's own definition can be revised
afterwards, and the revision is not held against the children that the Goal has
(`exists_childCount_exceeds`). When every revision leaves room for the children there are, no Goal
ever has more than its current definition allows (`goalGraph_within_grants`).
-/

namespace Garive

open GoalRecovery Relation Machine List

/-! ## Forests of narrowing grants -/

namespace GoalTree

variable {definition? : GoalId → Option GoalDefinitionV1}

/-- No Goal is among its own ancestors. -/
theorem acyclic (h : GoalTree definition?) : Acyclic (IsParent definition?) := by
  intro goalId hcycle
  obtain ⟨_, -, _, hgoal, -⟩ := TransGen.tail'_iff.mp hcycle
  exact not_transGen_of_acc (h.grounded goalId (by rw [hgoal]; rfl)) hcycle

/-- A Goal lies within every one of its ancestors. -/
theorem within_of_ancestor (h : GoalTree definition?) {ancestor goalId : GoalId}
    (hpath : TransGen (IsParent definition?) ancestor goalId) :
    ∃ above below, definition? ancestor = some above ∧ definition? goalId = some below ∧
      below.Within above := by
  induction hpath with
  | single hedge =>
    obtain ⟨below, hbelow, hid⟩ := hedge
    obtain ⟨above, habove, hnarrows⟩ := h.narrowed _ _ _ hbelow hid
    exact ⟨above, below, habove, hbelow, (GoalDefinitionV1.validateChildOf_eq_ok_iff.mp hnarrows).2⟩
  | tail _ hedge ih =>
    obtain ⟨above, _, habove, hmiddle, hwithin⟩ := ih
    obtain ⟨below, hbelow, hid⟩ := hedge
    obtain ⟨_, hpar, hnarrows⟩ := h.narrowed _ _ _ hbelow hid
    rw [hmiddle, Option.some.injEq] at hpar
    subst hpar
    have hpar := (GoalDefinitionV1.validateChildOf_eq_ok_iff.mp hnarrows).2
    exact ⟨above, below, habove, hbelow, hpar.trans hwithin⟩

end GoalTree

/-! ## Counting children -/

namespace GoalCommand

variable {graph : GoalGraph} {goalId parentId : GoalId} {state : GoalRuntimeState}

variable {other : GoalGraph}

/-- The number of children depends on the definitions only. -/
theorem childCount_congr (h : graph.definition? = other.definition?) :
    childCount graph parentId = childCount other parentId := by
  have hperm := Map.map_toList_perm (m := graph) (n := other) (f := (·.snapshot.definition))
    (g := (·.snapshot.definition)) (congrFun h)
  have hcount := hperm.countP_eq fun entry ↦ entry.2.parentGoalId == some parentId
  rw [countP_map, countP_map] at hcount
  exact hcount

/-- The children after a Goal moved: itself, if it is one, and those among the others. -/
theorem childCount_insert : childCount (graph.insert goalId state) parentId =
    childCount (graph.erase goalId) parentId +
      if state.snapshot.definition.parentGoalId = some parentId then 1 else 0 := by
  rw [childCount, (Map.toList_insert_perm graph goalId state).countP_eq, countP_cons]
  simp [childCount]

theorem childCount_erase_le : childCount (graph.erase goalId) parentId ≤ childCount graph parentId := by
  cases hgoal : graph[goalId]? with
  | none => rw [Map.erase_eq_self hgoal]
  | some state =>
    rw [childCount, childCount, (Map.toList_perm_cons_erase hgoal).countP_eq, countP_cons]
    omega

/-- A Goal that does not exist has no children. -/
theorem childCount_eq_zero (htree : GoalTree graph.definition?) (h : graph[parentId]? = none) :
    childCount graph parentId = 0 := by
  rw [childCount, countP_eq_zero]
  rintro ⟨childId, child⟩ hmem hpar
  rw [Std.ExtTreeMap.mem_toList_iff_getElem?_eq_some] at hmem
  obtain ⟨_, hfound, -⟩ := htree.narrowed childId child.snapshot.definition parentId
    (by simp [GoalGraph.definition?, hmem]) (by simpa using hpar)
  simp [GoalGraph.definition?, h] at hfound

/-- Every Goal has at most as many children as its current definition allows. -/
def Granted (graph : GoalGraph) : Prop :=
  ∀ (goalId : GoalId) (state : GoalRuntimeState), graph[goalId]? = some state →
    childCount graph goalId ≤ state.snapshot.definition.bounds.maxChildGoals.toNat

theorem Granted.congr (h : Granted graph) (hsame : graph.definition? = other.definition?) :
    Granted other := by
  intro goalId state hstate
  have hdef := congrFun hsame goalId
  rw [GoalGraph.definition?, GoalGraph.definition?, hstate, Option.map_some,
    Option.map_eq_some_iff] at hdef
  obtain ⟨old, hold, heq⟩ := hdef
  rw [← childCount_congr hsame, ← heq]
  exact h goalId old hold

/-- A new Goal that its parent admits leaves every Goal within its grant. -/
theorem Granted.create (h : Granted graph) (htree : GoalTree graph.definition?)
    (hnew : graph[goalId]? = none) (hid : state.snapshot.definition.goalId = goalId)
    (hadmits : admitChild graph state.snapshot.definition = .ok ()) :
    Granted (graph.insert goalId state) := by
  intro other found hfound
  rw [childCount_insert, Map.erase_eq_self hnew]
  rcases Map.of_get?_insert hfound with ⟨rfl, -⟩ | hfound
  · -- The new Goal has no children, and is not its own.
    have hself := state.snapshot.definition.admitted.parent_ne_self
    rw [hid] at hself
    rw [childCount_eq_zero htree hnew, if_neg hself]
    omega
  · rw [admitChild] at hadmits
    split
    · rename_i hpar
      simp only [hpar, ok_iff] at hadmits
      obtain ⟨_, hget, -, -, _⟩ := hadmits
      rw [hfound, Option.some.injEq] at hget
      subst hget
      omega
    · exact h other found hfound

/-- A Goal that moves with room for its own children, under a parent that admits it, leaves every
Goal within its grant. -/
theorem Granted.move (h : Granted graph)
    (hadmits : admitParent (graph.insert goalId state) state.snapshot.definition = .ok ())
    (hroom : childCount graph goalId ≤ state.snapshot.definition.bounds.maxChildGoals.toNat) :
    Granted (graph.insert goalId state) := by
  intro other found hfound
  by_cases hpar : state.snapshot.definition.parentGoalId = some other
  · simp only [admitParent, hpar, ok_iff] at hadmits
    obtain ⟨_, hget, -, hle⟩ := hadmits
    rw [hfound, Option.some.injEq] at hget
    subst hget
    exact hle
  · have hothers : childCount (graph.erase goalId) other ≤ childCount graph other :=
      childCount_erase_le
    rw [childCount_insert, if_neg hpar]
    rcases Map.of_get?_insert hfound with ⟨rfl, rfl⟩ | hfound
    · omega
    · have := h other found hfound
      omega

variable {lib : Externals} {context : GoalCommandContext}

variable {request : GoalRuntimeTransition} {current : GoalRuntimeState}

/-- Only a request for a revision is drafted as one. -/
theorem eq_revise_of_draft {nextRevision : Nat} {previousDigest : String} {drafted : Draft}
    {definition : GoalDefinitionV1}
    (h : draft lib current context nextRevision previousDigest request = .ok drafted)
    (hrevise : drafted.transition = .revise definition) :
    ∃ reason, request = .revise definition reason := by
  cases request with
  | revise found reason =>
    simp only [draft, ok_iff] at h
    obtain ⟨-, _, -, _, -, rfl⟩ := h
    cases hrevise
    exact ⟨reason, rfl⟩
  | fail code supporting =>
    cases supporting <;>
      simp only [draft, ok_iff] at h
    · obtain ⟨-, rfl⟩ := h
      cases hrevise
    · obtain ⟨-, _, -, rfl⟩ := h
      cases hrevise
  | activate | suspend | succeed | cancel =>
    simp only [draft, ok_iff] at h
    grind

/-- A planned transition keeps the definition, or it is a revision to the new one. -/
theorem definition_of_planned {expectedRevision : Nat} {planned : PlannedGoalCommand}
    (h : planGoalTransitionFromState lib current expectedRevision context request = .ok planned) :
    planned.next.snapshot.definition = current.snapshot.definition ∨
      ∃ reason, request = .revise planned.next.snapshot.definition reason := by
  simp only [planGoalTransitionFromState, ok_iff] at h
  obtain ⟨-, -, _, -, _, -, _, hdrafted, next, happly, _, -, rfl⟩ := h
  exact (GoalSnapshot.definition_of_apply happly).imp_right (eq_revise_of_draft hdrafted)

end GoalCommand

/-! ## Runs -/

namespace GoalWorld

open GoalCommand

/-- The event is no revision, or one that leaves room for the children that the Goal has. -/
def LeavesRoom (lib : Externals) (world : GoalWorld) : GoalEvent → Prop
  | .transition sessionId goalId _ _ (.revise definition _) =>
    ∀ graph, reconstructGoalGraph lib world.ledger sessionId = .ok graph →
      childCount graph goalId ≤ definition.bounds.maxChildGoals.toNat
  | _ => True

/-- Every graph that recovery returns is within its grants. -/
def AllGranted (lib : Externals) (world : GoalWorld) : Prop :=
  ∀ sessionId graph, reconstructGoalGraph lib world.ledger sessionId = .ok graph → Granted graph

variable {lib : Externals} {world : GoalWorld}

variable {sessionId : SessionId} {found : Entries}

/-- The Goals of a session are within their grants, also when it does not exist yet. -/
theorem AllGranted.session (h : AllGranted lib world) (hagrees : Agrees lib world)
    (hrcvd : Recovered lib (world.ledger.session sessionId).facts (world.ledger.session sessionId).version (world.predicted sessionId) found)
    (version through : Nat) : Granted (graphAt found version through) := by
  cases hsess : world.ledger.sessions[sessionId]? with
  | none =>
    intro goalId state hstate
    rw [get?_graphAt, hrcvd.predicted_eq, hagrees.absent sessionId hsess] at hstate
    cases hstate
  | some session =>
    rw [LedgerState.session_of_get? hsess] at hrcvd
    obtain ⟨hne, hstored⟩ := hagrees.reachable.storedFacts hsess
    have hread : Readable lib world.ledger sessionId session _ found := ⟨hrcvd, hsess, hne, hstored⟩
    refine (h sessionId _ hread.reconstructGoalGraph_eq).congr ?_
    rw [definition?_graphAt, definition?_graphAt]

/-- Appending to one session leaves the Goals of the others as they are. -/
theorem AllGranted.of_append (h : AllGranted lib world) {after : GoalWorld}
    (hagrees : Agrees lib after) {next : SessionLedger}
    (hsessions : after.ledger.sessions = world.ledger.sessions.insert sessionId next)
    (hrcvd : Recovered lib next.facts next.version (after.predicted sessionId) found)
    (hgranted : Granted (graphAt found next.version next.facts.length)) : AllGranted lib after := by
  intro other graph hgraph
  by_cases heq : sessionId = other
  · subst heq
    have hget : after.ledger.sessions[sessionId]? = some next := by
      rw [hsessions, Map.get?_insert_self]
    obtain ⟨hne, hstored⟩ := hagrees.reachable.storedFacts hget
    have hread : Readable lib after.ledger sessionId next _ found := ⟨hrcvd, hget, hne, hstored⟩
    rw [hread.reconstructGoalGraph_eq, Except.ok.injEq] at hgraph
    exact hgraph ▸ hgranted
  · refine h other graph ?_
    simpa only [reconstructGoalGraph, LedgerState.sessionWatermark, LedgerState.readFacts, hsessions,
      Map.get?_insert_of_ne heq] using hgraph

/-- Every event that leaves room keeps the Goals within their grants. -/
theorem AllGranted.step (hlib : lib.Documented) (hagrees : Agrees lib world)
    (h : AllGranted lib world) (event : GoalEvent) (hroom : LeavesRoom lib world event) :
    AllGranted lib (world.step lib event).2 := by
  have hafter := hagrees.step hlib event
  cases event with
  | other call outside =>
    rcases hagrees.other_cases call outside with
      hsame | ⟨ledger, next, found, hnext, -, hsessions, hbef, hrcvd⟩
    · rw [hsame]
      exact h
    · rw [hnext] at hafter ⊢
      exact h.of_append hafter hsessions hrcvd (h.session hagrees hbef _ _)
  | create sessionId context definition =>
    rw [GoalWorld.step] at hafter ⊢
    cases hplan : planCreateGoal lib world.ledger sessionId context definition with
    | error e => exact h
    | ok planned =>
      simp only [hplan] at hafter ⊢
      obtain ⟨session, hsess⟩ := exists_session_of_planCreateGoal hplan
      obtain ⟨found, hread⟩ := hagrees.readable hsess
      obtain ⟨draft, hfacts, -, hsnap, hatt, hplanned⟩ :=
        soundlyPlanned_of_planCreateGoal hlib hread hplan
      rcases hagrees.commitPlanned_cases definition.goalId hread hfacts with
        hsame | ⟨ledger, next, hnext, -, hsessions, hfresh, hstep⟩
      · rw [hsame]
        exact h
      · rw [hnext] at hafter ⊢
        rcases hplanned with ⟨fact, hmem, hid⟩ | ⟨hsound, hnew, hadmits⟩
        · exact absurd hid (hfresh fact hmem)
        · rw [hsnap, hatt] at hstep
          refine h.of_append hafter hsessions (hstep hsound) ?_
          have hgranted := h sessionId _ hread.reconstructGoalGraph_eq
          have htree : GoalTree (graphAt found session.version session.facts.length).definition? := by
            rw [definition?_graphAt]
            exact hread.tree
          have hcreated : Granted ((graphAt found session.version session.facts.length).insert
              definition.goalId ⟨.new definition, 0, session.version, session.facts.length⟩) :=
            hgranted.create htree (by rw [get?_graphAt, hnew]; rfl) rfl hadmits
          refine hcreated.congr ?_
          rw [definition?_insert_graphAt, definition?_graphAt]
  | transition sessionId goalId expectedRevision context request =>
    rw [GoalWorld.step] at hafter ⊢
    cases hplan : planGoalTransition lib world.ledger sessionId goalId expectedRevision context
      request with
    | error e => exact h
    | ok planned =>
      simp only [hplan] at hafter ⊢
      obtain ⟨session, hsess⟩ := exists_session_of_planGoalTransition hplan
      obtain ⟨found, hread⟩ := hagrees.readable hsess
      obtain ⟨draft, hfacts, -, hsound⟩ :=
        soundlyPlanned_of_planGoalTransition hlib hread hplan
      obtain ⟨_, hentry, -, hfrom, -, hadmits⟩ :=
        (planGoalTransition_eq_ok_iff hread).mp hplan
      rcases hagrees.commitPlanned_cases goalId hread hfacts with
        hsame | ⟨ledger, next, hnext, -, hsessions, -, hstep⟩
      · rw [hsame]
        exact h
      · rw [hnext] at hafter ⊢
        refine h.of_append hafter hsessions (hstep hsound) ?_
        have hgraph := hread.reconstructGoalGraph_eq
        have hgranted := h sessionId _ hgraph
        refine (hgranted.move hadmits ?_).congr ?_
        · -- The definition is the old one, or the revision was required to leave room.
          rcases definition_of_planned hfrom with hsame | ⟨reason, rfl⟩
          · rw [hsame]
            exact hgranted goalId _ (by rw [get?_graphAt, hentry]; rfl)
          · exact hroom _ hgraph
        · rw [definition?_insert_graphAt, definition?_graphAt]

end GoalWorld

namespace GoalWorld

open LedgerState

/-- The grant of a Goal that may have two children. -/
def boundsTwo : GoalBoundsV1 := runBounds 2 (by decide)

/-- A parent with a grant. -/
def crowdedParent (bounds : GoalBoundsV1) : GoalDefinitionV1 :=
  runGoal "goal-parent" none bounds (by simp) (by simp)

/-- A child of the parent. -/
def crowdedChild (goalId : GoalId) (hid : goalId ≠ "") (hne : goalId ≠ "goal-parent") :
    GoalDefinitionV1 :=
  runGoal goalId (some "goal-parent") boundsOne hid ⟨by simp, by simpa using hne.symm⟩

theorem validateChildOf_crowdedParent {goalId : GoalId} (hid : goalId ≠ "")
    (hne : goalId ≠ "goal-parent") {bounds : GoalBoundsV1} (hwithin : boundsOne.isWithin bounds) :
    (crowdedChild goalId hid hne).validateChildOf (crowdedParent bounds) = .ok () := by
  rw [GoalDefinitionV1.validateChildOf_eq_ok_iff]
  refine ⟨rfl, ?_, hwithin, ?_⟩
  · simp [crowdedChild, crowdedParent, runGoal, GoalScopeV1.isWithin_iff]
  · simp [crowdedChild, crowdedParent, runGoal, SetOf.isSubset_iff]

/-- Creates the parent, which may have two children. -/
def parentCreation : GoalEvent :=
  .create runSession (runContext "create-parent") (crowdedParent boundsTwo)

/-- Creates the first child. -/
def firstCreation : GoalEvent :=
  .create runSession (runContext "create-first") (crowdedChild "goal-first" (by simp) (by simp))

/-- Creates the second child. -/
def secondCreation : GoalEvent :=
  .create runSession (runContext "create-second") (crowdedChild "goal-second" (by simp) (by simp))

/-- Revises the parent to admit one child. -/
def narrowing : GoalEvent :=
  .transition runSession "goal-parent" 1 (runContext "narrow-parent")
    (.revise (crowdedParent boundsOne) "narrowed")

theorem standing_parent :
    Standing reference ((goalMachine reference).run ([openingEvent] ++ [parentCreation])).2 runSession
      ["fact-opened", "create-parent"] [("goal-parent", (.new (crowdedParent boundsTwo), 0))] := by
  rw [run_concat]
  exact standing_opening.create reference_documented (validateContext_runContext (by simp))
    (by simp [crowdedParent, runGoal, runScope]) (by simp [runContext]) (by simp)
    (by simp [crowdedParent, runGoal]) (by simp)

theorem standing_first : Standing reference
    ((goalMachine reference).run ([openingEvent] ++ [parentCreation] ++ [firstCreation])).2 runSession
    ["fact-opened", "create-parent", "create-first"]
    [("goal-parent", (.new (crowdedParent boundsTwo), 0)),
      ("goal-first", (.new (crowdedChild "goal-first" (by simp) (by simp)), 0))] := by
  rw [run_concat]
  refine standing_parent.create reference_documented (validateContext_runContext (by simp))
    (by simp [crowdedChild, runGoal, runScope]) (by simp [runContext])
    (by simp [crowdedChild, runGoal]) ?_ (by simp)
  intro parentId hid
  cases hid
  exact ⟨_, mem_cons_self, rfl, validateChildOf_crowdedParent (by simp) (by simp) (by decide),
    by simp [listedChildren, crowdedParent, runGoal, boundsTwo, runBounds, GoalSnapshot.new]⟩

theorem standing_second : Standing reference
    ((goalMachine reference).run
      ([openingEvent] ++ [parentCreation] ++ [firstCreation] ++ [secondCreation])).2 runSession
    ["fact-opened", "create-parent", "create-first", "create-second"]
    [("goal-parent", (.new (crowdedParent boundsTwo), 0)),
      ("goal-first", (.new (crowdedChild "goal-first" (by simp) (by simp)), 0)),
      ("goal-second", (.new (crowdedChild "goal-second" (by simp) (by simp)), 0))] := by
  rw [run_concat]
  refine standing_first.create reference_documented (validateContext_runContext (by simp))
    (by simp [crowdedChild, runGoal, runScope]) (by simp [runContext])
    (by simp [crowdedChild, runGoal]) ?_ (by simp)
  intro parentId hid
  cases hid
  exact ⟨_, mem_cons_self, rfl, validateChildOf_crowdedParent (by simp) (by simp) (by decide),
    by simp [listedChildren, crowdedParent, crowdedChild, runGoal, boundsTwo, boundsOne, runBounds, GoalSnapshot.new]⟩

/-- The parent can be narrowed to one child whatever children it has. -/
theorem Standing.narrow {world : GoalWorld} {commands : List String}
    {children : List (GoalId × (GoalSnapshot × Nat))}
    (h : Standing reference world runSession commands
      (("goal-parent", (.new (crowdedParent boundsTwo), 0)) :: children))
    (hcmd : "narrow-parent" ∉ commands) (hfits : 2 * commands.length + 2 < 2 ^ 64)
    (hchildren : ∀ child ∈ children, ∃ hid hne,
      child.2.1 = .new (crowdedChild child.1 hid hne)) :
    Standing reference (world.step reference narrowing).2 runSession (commands ++ ["narrow-parent"])
      (("goal-parent", (⟨crowdedParent boundsOne, 2, .draft, []⟩, 0)) :: children) := by
  have hpar : Standing reference world runSession commands
      ([] ++ ((crowdedParent boundsOne).goalId, (.new (crowdedParent boundsTwo), 0)) ::
        children) := h
  refine hpar.revise reference_documented (validateContext_runContext (by simp)) hcmd rfl rfl
    rfl (by simp [GoalSnapshot.new]) (by simp) ?_ hfits
  intro child hmem _
  obtain ⟨hid, hne, heq⟩ := hchildren child hmem
  rw [heq]
  exact validateChildOf_crowdedParent hid hne (by decide)

/-- The same revision leaves room when the parent has one child. -/
theorem leavesRoom_of_first : (goalMachine reference).EachStep (LeavesRoom reference)
    ([openingEvent] ++ [parentCreation] ++ [firstCreation] ++ [narrowing]) := by
  have hopening : (goalMachine reference).EachStep (LeavesRoom reference) [openingEvent] := by
    rw [← nil_append [openingEvent], eachStep_concat]
    exact ⟨eachStep_nil _ _, trivial⟩
  rw [eachStep_concat, eachStep_concat, eachStep_concat]
  refine ⟨⟨⟨hopening, trivial⟩, trivial⟩, fun graph hgraph ↦ ?_⟩
  obtain ⟨_, hfound, -, hchildren⟩ := standing_first.reconstruct
  rw [hfound, Except.ok.injEq] at hgraph
  rw [← hgraph, hchildren]
  simp [listedChildren, crowdedParent, crowdedChild, runGoal, boundsTwo, boundsOne, runBounds, GoalSnapshot.new]

end GoalWorld

end Garive
