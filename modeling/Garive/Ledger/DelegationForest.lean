import Garive.Ledger.Delegation
import Garive.Lib.Forest

/-!
# The delegation graph

Delegations make a graph of turns, with an edge from the parent to the child of each delegation that
has one. Only the start of a child adds an edge. It asks that the child was started and the parent was
suspended in the current commit, and neither keeps a turn from being its own child, from being a child
twice, or from closing a longer cycle. The graph is a forest as long as every edge is added at a leaf,
and that is exactly what the operation would have to check.
-/

namespace Garive

open SessionProjection Relation

/-- The delegation leads from the parent to the child. -/
def DelegationEdge (delegations : Map String DelegationRecord) (id : String) (parent child : TurnId) :
    Prop :=
  ∃ record : DelegationRecord, delegations[id]? = some record ∧ record.parentTurn = parent ∧
    record.childTurn = some child

namespace SessionProjection

/-- Every turn is the child of one delegation at most, and no turn is below itself. -/
def DelegationForest (p : SessionProjection) : Prop := IsForest (DelegationEdge p.delegations)

/-- A child that the fact starts is no child yet, and the fact's turn is not below it. -/
def GraftsLeaf (lib : Externals) (p : SessionProjection) (fact : FactDraft) : Prop :=
  fact.kind = .known .delegationChildStarted → ∀ parent child : TurnId, fact.turnId = some parent →
    (payloadText? lib fact "child_turn_id").bind LedgerIdentity.tryFrom = some child →
    (∀ id other, ¬DelegationEdge p.delegations id other child) ∧
      ¬ReflTransGen (fun x y ↦ ∃ id, DelegationEdge p.delegations id x y) child parent

end SessionProjection

variable {lib : Externals} {history : List FactDraft} {fact : FactDraft} {p p' : SessionProjection}
  {t' : TurnTables}

theorem delegationEdge_insert {delegations : Map String DelegationRecord} {id : String}
    {next : DelegationRecord} (other : String) (x y : TurnId) :
    DelegationEdge (delegations.insert id next) other x y ↔
      if id = other then next.parentTurn = x ∧ next.childTurn = some y
      else DelegationEdge delegations other x y := by
  rw [DelegationEdge, Map.get?_insert]
  split
  · simp
  · rfl

/-- Writing a delegation with the same ends leaves the graph as it is. -/
theorem delegationEdge_insert_of_same {delegations : Map String DelegationRecord} {id : String}
    {record next : DelegationRecord} (hrec : delegations[id]? = some record)
    (hpar : next.parentTurn = record.parentTurn) (hchild : next.childTurn = record.childTurn) :
    DelegationEdge (delegations.insert id next) = DelegationEdge delegations := by
  funext other x y
  rw [eq_iff_iff, delegationEdge_insert]
  split
  · rename_i heq
    simp [DelegationEdge, ← heq, hrec, hpar, hchild]
  · rfl

/-- Only the start of a child changes the graph. -/
theorem SessionProjection.TurnMove.delegationEdge_eq (h : TurnMove lib p fact t')
    (hkind : fact.kind ≠ .known .delegationChildStarted) :
    DelegationEdge t'.delegations = DelegationEdge p.delegations := by
  cases h with
  | start | reopen | suspend | finish | input => rfl
  | admitResult _ hrec => exact delegationEdge_insert_of_same hrec rfl rfl
  | @request _ id record _ _ _ hnew _ _ _ hchild =>
    funext other x y
    rw [eq_iff_iff, delegationEdge_insert]
    split
    · rename_i heq
      simp [DelegationEdge, ← heq, hnew, hchild]
    · rfl
  | answer _ _ hrec _ hnext =>
    exact delegationEdge_insert_of_same hrec (by rw [hnext]) (by rw [hnext])
  | startChild hstart => exact absurd hstart hkind
  | finishChild _ _ hrec => exact delegationEdge_insert_of_same hrec rfl rfl
  | observe _ _ hrec => exact delegationEdge_insert_of_same hrec rfl rfl

/-- The start of a child adds its edge. -/
theorem SessionProjection.TurnMove.delegationEdge_startChild (h : TurnMove lib p fact t')
    (hdelegated : Delegated lib history p.turnTables)
    (hkind : fact.kind = .known .delegationChildStarted) :
    ∃ (id : String) (parent child : TurnId), fact.turnId = some parent ∧
      (payloadText? lib fact "child_turn_id").bind LedgerIdentity.tryFrom = some child ∧
      (∀ x y, ¬DelegationEdge p.delegations id x y) ∧
      DelegationEdge t'.delegations = fun other x y ↦
        DelegationEdge p.delegations other x y ∨ other = id ∧ x = parent ∧ y = child := by
  cases h with
  | @startChild id suspension record child _ hturn _ hchild hrec hstate =>
    -- The delegation had no child before.
    have hunbound := hdelegated.unbound id record hrec (.inr hstate)
    have hnew : ∀ x y, ¬DelegationEdge p.delegations id x y := by
      rintro x y ⟨_, hfound, -, hfoundChild⟩
      rw [← Option.some.inj (hrec.symm.trans hfound), hunbound] at hfoundChild
      cases hfoundChild
    refine ⟨id, record.parentTurn, child, hturn, hchild, hnew, ?_⟩
    funext other x y
    rw [eq_iff_iff, delegationEdge_insert]
    split
    · rename_i heq
      subst heq
      simp [hnew, eq_comm]
    · rename_i hne
      simp [Ne.symm hne]
  | finish hother hending =>
    rw [hkind, FactKind.known.injEq] at hother
    subst hother
    cases hending
  | answer hother =>
    rw [hkind] at hother
    rcases hother with ⟨hother, -⟩ | ⟨hother, -⟩ <;> cases hother
  | start hother | reopen hother | suspend hother | input hother | admitResult hother | request hother
  | finishChild hother | observe hother =>
    rw [hkind] at hother
    cases hother

/-- **One step.** An accepted fact leaves a forest a forest exactly when it grafts at a leaf. -/
theorem delegationForest_apply_iff {condition : StepCondition} (h : Leads lib condition history p)
    (hforest : p.DelegationForest) (happly : p.apply lib fact = .ok p') :
    p'.DelegationForest ↔ p.GraftsLeaf lib fact := by
  by_cases hkind : fact.kind = .known .delegationChildStarted
  · have hmove := apply_turnMove (by rw [hkind]; rfl) happly
    obtain ⟨_, parent, child, hturn, hchild, hnew, hedge⟩ :=
      hmove.delegationEdge_startChild h.delegated hkind
    have hedge' : DelegationEdge p'.delegations = _ := hedge
    rw [DelegationForest, hedge', isForest_add_iff hforest hnew]
    constructor
    · intro hleaf _ parent' child' hturn' hchild'
      obtain rfl : parent = parent' := Option.some.inj (hturn.symm.trans hturn')
      obtain rfl : child = child' := Option.some.inj (hchild.symm.trans hchild')
      exact hleaf
    · intro hgrafts
      exact hgrafts hkind parent child hturn hchild
  · have hsame : DelegationEdge p'.delegations = DelegationEdge p.delegations := by
      by_cases hwr : fact.kind.writes = .turns
      · exact (apply_turnMove hwr happly).delegationEdge_eq hkind
      · exact congrArg (DelegationEdge ·.delegations) ((apply_keeps happly).turnTables_eq hwr)
    rw [DelegationForest, hsame]
    exact iff_of_true hforest fun hstart ↦ absurd hstart hkind

/-- **The delegation forest.** Along every course whose starts of children graft at leaves, the
delegations form a forest; and each start that does not would end the forest. -/
theorem delegation_forest {history : List FactDraft} {p : SessionProjection}
    (h : Leads lib (fun _ p fact ↦ p.GraftsLeaf lib fact) history p) :
    p.DelegationForest ∧ ∀ fact p', p.apply lib fact = .ok p' →
      (p'.DelegationForest ↔ p.GraftsLeaf lib fact) := by
  have hforest : p.DelegationForest := by
    induction h with
    | empty =>
      refine ⟨fun i j x y z hi ↦ ?_, fun x hcycle ↦ ?_⟩
      · obtain ⟨record, hrecord, -⟩ := hi
        simp at hrecord
      · obtain ⟨y, ⟨_, record, hrecord, -⟩, -⟩ := TransGen.head'_iff.mp hcycle
        simp at hrecord
    | commit _ _ ih => exact ih
    | fact hbefore hgrafts happly ih => exact (delegationForest_apply_iff hbefore ih happly).mpr hgrafts
  exact ⟨hforest, fun fact p' happly ↦ delegationForest_apply_iff h hforest happly⟩

namespace LedgerState

/-- No delegation has a child yet, and the other turn can be named as one. -/
def namesOther (p : SessionProjection) : Bool :=
  !Map.any p.delegations (fun _ record ↦ record.childTurn.isSome) &&
    (applyWritten p (startRunChild otherTurn) (startChildFields otherTurn)).toOption.any
      (runsChild otherTurn)

instance : Fact ((applyAllWritten { opened := true } (waitBatch ++ [startOther])
    (waitFields ++ [turnStartFields])).toOption.any namesOther = true) := ⟨by decide +kernel⟩

instance : Admits (startRunChild otherTurn) (startChildFields otherTurn) .appliedV1 :=
  ⟨rfl, by decide +kernel⟩

/-- A turn that waits for another one: the one edge is grafted at a leaf. -/
theorem waiting_forest : ∃ p, Leads reference (fun _ p fact ↦ p.GraftsLeaf reference fact)
    ([openingFact] ++ (waitBatch ++ [startOther]) ++ [startRunChild otherTurn]) p ∧
    DelegationEdge p.delegations "delegation-1" runTurn otherTurn ∧ p.DelegationForest := by
  have hopening : Leads reference (fun _ p fact ↦ p.GraftsLeaf reference fact) [openingFact]
      { opened := true } :=
    Leads.empty.applyAll_of
      (List.forall_mem_singleton.mpr fun _ _ hkind ↦ absurd hkind (by decide)) follows_opening.accepted
  obtain ⟨p, hwaits, hchecked⟩ := any_toOption.mp (Fact.out : (applyAllWritten { opened := true }
    (waitBatch ++ [startOther]) (waitFields ++ [turnStartFields])).toOption.any namesOther = true)
  rw [namesOther, Bool.and_eq_true, Bool.not_eq_true', Map.any_eq_false_iff] at hchecked
  obtain ⟨hnone, hnames⟩ := hchecked
  obtain ⟨q, hnames, hruns⟩ := any_toOption.mp hnames
  obtain ⟨record, hrecord, -, hparent, hchild⟩ := record_of_runsChild hruns
  have hwait : Leads reference (fun _ p fact ↦ p.GraftsLeaf reference fact)
      ([openingFact] ++ (waitBatch ++ [startOther])) p := by
    refine (hopening.commit rfl).applyAll_of ?_ (applyAll_of_written (by repeat constructor) hwaits).2
    intro fact hfact _ _ hkind
    have hnone : ∀ fact ∈ waitBatch ++ [startOther], fact.kind ≠ .known .delegationChildStarted := by
      decide
    exact absurd hkind (hnone fact hfact)
  have hedges : ∀ id x y, ¬DelegationEdge p.delegations id x y := by
    rintro id x y ⟨record, hrec, -, hchild⟩
    have := hnone id record hrec
    simp [hchild] at this
  have hleads := hwait.fact (show p.GraftsLeaf reference (startRunChild otherTurn) from ?_)
    (apply_of_applyWritten Admits.written hnames).2
  · exact ⟨q, hleads, ⟨record, hrecord, hparent, hchild⟩, (delegation_forest hleads).1⟩
  · intro _ parent child hparent hchild
    cases hparent
    have hpayload := (Admits.admissible (startRunChild otherTurn)).2.1.payload
    have htext : textOf (.ofFields (startChildFields otherTurn)) "child_turn_id" = .ok otherTurn.text := by
      simp [textOf, startChildFields]
    have hother : child = otherTurn := by
      rw [payloadText?_eq hpayload htext, Option.bind_some, LedgerIdentity.tryFrom_text] at hchild
      exact (Option.some.inj hchild).symm
    subst hother
    refine ⟨fun id x ↦ hedges id x _, fun hbelow ↦ ?_⟩
    rcases ReflTransGen.cases_head hbelow with heq | ⟨x, ⟨id, hedge⟩, -⟩
    · exact absurd heq (by decide)
    · exact hedges id _ x hedge

/-- A turn waits for itself. -/
def selfRun : WrittenRun :=
  [(waitBatch ++ [startRunChild runTurn], waitFields ++ [startChildFields runTurn])]

instance : Replayed selfRun (runsChild runTurn) := ⟨by repeat constructor, by decide +kernel⟩

/-- A turn that waits for itself: one commit starts it, suspends it and makes it its own child. -/
theorem turn_delegates_to_itself : ∃ (state : LedgerState) (session : SessionLedger),
    Reachable reference state ∧ state.sessions[runSession]? = some session ∧
    session.facts.map (·.toDraft) = openingFact :: (waitBatch ++ [startRunChild runTurn]) ∧
    (∀ fact ∈ waitBatch ++ [startRunChild runTurn],
      validateRuntimeFact reference fact = .ok .appliedV1) ∧
    DelegationEdge session.projection.delegations "delegation-1" runTurn runTurn ∧
    ¬session.projection.DelegationForest := by
  obtain ⟨hadm, state, _, hholds, hcheck⟩ := exists_holds_of_replayed selfRun (runsChild runTurn)
  obtain ⟨record, hrecord, -, hparent, hchild⟩ := record_of_runsChild hcheck
  have hedge : DelegationEdge (state.session runSession).projection.delegations "delegation-1" runTurn
      runTurn := by
    rw [hholds.projection_eq]
    exact ⟨record, hrecord, hparent, hchild⟩
  refine ⟨state, _, hholds.reachable, hholds.get?_sessions (List.cons_ne_nil _ _), ?_, ?_, hedge, ?_⟩
  · rw [hholds.facts_eq, map_toDraft_numbered]
    rfl
  · intro fact hfact
    have hfirst : ∀ fact ∈ waitBatch ++ [startRunChild runTurn],
        fact.kind.admittedVersion? fact.schemaVersion = some .appliedV1 := by decide
    obtain ⟨_, hadm⟩ :=
      (hadm fact (by simpa [selfRun] using hfact)).exists_admissible (hfirst fact hfact)
    exact hadm.admitted
  · rintro ⟨-, hacyclic⟩
    exact hacyclic runTurn (.single ⟨_, hedge⟩)

end LedgerState

end Garive
