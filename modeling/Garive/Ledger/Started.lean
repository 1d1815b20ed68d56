import Garive.Ledger.Invocations

/-!
# What an invocation was started with

A started invocation is bound to the digest, the grant and the executor of the fact that started it,
for as long as the session lasts: nothing prepares, authorizes or starts it again. An invocation that
has not moved on from its start has no outcome among the facts of its session.

The executor is kept outside the tables of `ToolMove`.
-/

namespace Garive

namespace SessionProjection

variable {lib : Externals} {p p' : SessionProjection} {fact : FactDraft} {tool : ToolInvocationId}

/-! ## Executors -/

theorem apply_toolExecutors (hkind : fact.kind ≠ .known .effectStarted)
    (h : p.apply lib fact = .ok p') : p'.toolExecutors = p.toolExecutors := by
  obtain ⟨-, ⟨-, -, -, rfl⟩ | ⟨-, -, -, ⟨kind, hknown, happly⟩ | ⟨-, rfl⟩⟩⟩ := apply_eq_ok_iff.mp h
  · rfl
  · refine (applyKind_confined p' happly).toolExecutors_eq ?_
    rintro rfl
    exact hkind hknown
  · rfl

/-- A session that accepted a fact is open. -/
theorem apply_opened (h : p.apply lib fact = .ok p') : p'.opened := by
  obtain ⟨-, ⟨-, -, -, rfl⟩ | ⟨-, hopened, -, ⟨_, -, happly⟩ | ⟨-, rfl⟩⟩⟩ := apply_eq_ok_iff.mp h
  · rfl
  · rw [(applyKind_confined p' happly).opened_eq, hopened]
  · exact hopened

/-- A start binds the invocation to its executor. -/
theorem apply_started (hkind : fact.kind = .known .effectStarted) (h : p.apply lib fact = .ok p') :
    ∃ tool executor revision, fact.toolInvocationId = some tool ∧
      payloadText? lib fact "executor_id" = some executor ∧
      payloadText? lib fact "executor_revision" = some revision ∧
      p'.toolExecutors = p.toolExecutors.insert tool (executor, revision) := by
  obtain ⟨-, ⟨hopened, -⟩ | ⟨-, -, -, ⟨kind, hknown, happly⟩ | ⟨hother, -⟩⟩⟩ := apply_eq_ok_iff.mp h
  · rw [hkind] at hopened
    cases hopened
  · rw [hkind, FactKind.known.injEq] at hknown
    subst hknown
    change p.transitionTool lib fact .started = .ok p' at happly
    simp only [transitionTool, validateEffectBinding, ok_iff, required_eq_ok_iff] at happly
    obtain ⟨-, tool, htool, -, -, _, hpay, -, -, -, -, -, -, -, -, -, _,
      ⟨-, -, -, -, executor, hexecutor, revision, hrev, rfl⟩, rfl⟩ := happly
    exact ⟨tool, executor, revision, htool, payloadText?_eq hpay hexecutor,
      payloadText?_eq hpay hrev, rfl⟩
  · exact absurd hkind (hother _)

end SessionProjection

open SessionProjection

/-! ## Started invocations -/

/-- The invocation is bound to what the fact started it with. -/
structure BoundBy (lib : Externals) (p : SessionProjection) (fact : FactDraft)
    (tool : ToolInvocationId) : Prop where
  digest : ∃ digest, payloadText? lib fact "prepared_digest" = some digest ∧
    p.toolDigests[tool]? = some digest
  grant : ∃ grant, payloadText? lib fact "grant_id" = some grant ∧ p.toolGrants[tool]? = some grant
  executor : ∃ executor revision, payloadText? lib fact "executor_id" = some executor ∧
    payloadText? lib fact "executor_revision" = some revision ∧
    p.toolExecutors[tool]? = some (executor, revision)

/-- Prepared, authorized or started, and nothing later. -/
def InvocationState.Early (state : InvocationState) : Prop :=
  state = .prepared ∨ state = .authorized ∨ state = .started

variable {lib : Externals} {history : List FactDraft} {fact : FactDraft} {p p' : SessionProjection}
  {tool : ToolInvocationId}

/-- The starts of an invocation bind it, and one without an outcome has none among the facts. -/
structure Begun (lib : Externals) (history : List FactDraft) (p : SessionProjection)
    (tool : ToolInvocationId) : Prop where
  bound : ∀ fact ∈ history, fact.Tells .effectStarted tool → BoundBy lib p fact tool
  early : (∀ execution state, p.tools[tool]? = some (execution, state) → state.Early) →
    ∀ fact ∈ history, fact.toolInvocationId = some tool →
      ∀ state, roleOf fact.kind = .tool state → state.Early

theorem begun_empty (lib : Externals) (tool : ToolInvocationId) : Begun lib [] {} tool where
  bound fact hfact := by cases hfact
  early _ fact hfact := by cases hfact

/-- The projections hold the same of the invocation. -/
structure SameBound (p p' : SessionProjection) (tool : ToolInvocationId) : Prop where
  digests : p'.toolDigests[tool]? = p.toolDigests[tool]?
  grants : p'.toolGrants[tool]? = p.toolGrants[tool]?
  executors : p'.toolExecutors[tool]? = p.toolExecutors[tool]?

theorem BoundBy.congr (h : BoundBy lib p fact tool) (hsame : SameBound p p' tool) :
    BoundBy lib p' fact tool where
  digest := hsame.digests ▸ h.digest
  grant := hsame.grants ▸ h.grant
  executor := hsame.executors ▸ h.executor

/-- Facts about the life of an invocation write the tables of invocations. -/
theorem FactKind.writes_eq_tools {kind : FactKind} {state : InvocationState}
    (h : roleOf kind = .tool state) : kind.writes = .tools := by
  cases kind with
  | known kind => cases kind <;> first | rfl | cases h
  | other => cases h

namespace Begun

/-- A fact that is not about the life of the invocation. -/
theorem quiet (h : Begun lib history p tool) (hsame : SameBound p p' tool)
    (htools : p'.tools[tool]? = p.tools[tool]?)
    (hother : ∀ state, roleOf fact.kind = .tool state → fact.toolInvocationId ≠ some tool) :
    Begun lib (history ++ [fact]) p' tool where
  bound found hfound htells := by
    rcases List.mem_append.mp hfound with hfound | hfound
    · exact (h.bound found hfound htells).congr hsame
    · obtain rfl := List.mem_singleton.mp hfound
      exact absurd htells.tool_eq (hother .started (by rw [htells.kind_eq]; rfl))
  early hearly found hfound htool state hrole := by
    rcases List.mem_append.mp hfound with hfound | hfound
    · exact h.early (htools ▸ hearly) found hfound htool state hrole
    · obtain rfl := List.mem_singleton.mp hfound
      exact absurd htool (hother state hrole)

/-- A fact about the life of an invocation that was not started before. -/
theorem advance (h : Begun lib history p tool)
    (hunstarted : ∀ found ∈ history, ¬found.Tells .effectStarted tool)
    (hbef : ∀ execution state, p.tools[tool]? = some (execution, state) → state.Early)
    (hrole : ∀ state, roleOf fact.kind = .tool state → state.Early)
    (hbound : fact.Tells .effectStarted tool → BoundBy lib p' fact tool) :
    Begun lib (history ++ [fact]) p' tool where
  bound found hfound htells := by
    rcases List.mem_append.mp hfound with hfound | hfound
    · exact absurd htells (hunstarted found hfound)
    · obtain rfl := List.mem_singleton.mp hfound
      exact hbound htells
  early _ found hfound htool state hstate := by
    rcases List.mem_append.mp hfound with hfound | hfound
    · exact h.early hbef found hfound htool state hstate
    · obtain rfl := List.mem_singleton.mp hfound
      exact hrole state hstate

/-- The outcome of an invocation, or its observation. -/
theorem settle {execution : ExecutionId} {next : InvocationState} (h : Begun lib history p tool)
    (hsame : SameBound p p' tool) (hentry : p'.tools[tool]? = some (execution, next))
    (hnext : ¬next.Early) (hstart : ¬fact.Tells .effectStarted tool) :
    Begun lib (history ++ [fact]) p' tool where
  bound found hfound htells := by
    rcases List.mem_append.mp hfound with hfound | hfound
    · exact (h.bound found hfound htells).congr hsame
    · obtain rfl := List.mem_singleton.mp hfound
      exact absurd htells hstart
  early hearly := absurd (hearly execution next hentry) hnext

/-- A fact that is not about the life of an invocation leaves its entries alone. -/
theorem of_unrelated (h : Begun lib history p tool) (happly : p.apply lib fact = .ok p')
    (hother : ∀ state, roleOf fact.kind = .tool state → fact.toolInvocationId ≠ some tool) :
    Begun lib (history ++ [fact]) p' tool := by
  have hexecutors : p'.toolExecutors[tool]? = p.toolExecutors[tool]? := by
    by_cases hkind : fact.kind = .known .effectStarted
    · obtain ⟨started, _, _, htool, -, -, hexecutors⟩ := apply_started hkind happly
      have hne : started ≠ tool := by
        rintro rfl
        exact hother .started (by rw [hkind]; rfl) htool
      rw [hexecutors, Map.get?_insert_of_ne hne]
    · rw [apply_toolExecutors hkind happly]
  have htables : p'.toolTables.tools[tool]? = p.tools[tool]? ∧
      p'.toolTables.toolDigests[tool]? = p.toolDigests[tool]? ∧
      p'.toolTables.toolGrants[tool]? = p.toolGrants[tool]? := by
    by_cases hwr : fact.kind.writes = .tools
    · have hmove := apply_toolMove hwr happly
      generalize p'.toolTables = t' at hmove
      cases hmove with
      | @prepare moved _ _ _ hkind htool =>
        have hne : moved ≠ tool := by
          rintro rfl
          exact hother .prepared (by rw [hkind]; rfl) htool
        exact ⟨Map.get?_insert_of_ne hne, Map.get?_insert_of_ne hne, rfl⟩
      | @authorize moved _ _ hkind htool =>
        have hne : moved ≠ tool := by
          rintro rfl
          exact hother .authorized (by rw [hkind]; rfl) htool
        exact ⟨Map.get?_insert_of_ne hne, rfl, Map.get?_insert_of_ne hne⟩
      | @start moved _ _ _ _ hkind htool =>
        have hne : moved ≠ tool := by
          rintro rfl
          exact hother .started (by rw [hkind]; rfl) htool
        exact ⟨Map.get?_insert_of_ne hne, rfl, Map.get?_insert_of_ne hne⟩
      | @settle moved _ _ next hrole htool =>
        have hne : moved ≠ tool := by
          rintro rfl
          exact hother next hrole htool
        exact ⟨Map.get?_insert_of_ne hne, rfl, rfl⟩
      | decide | bind | preflight | plan => exact ⟨rfl, rfl, rfl⟩
    · rw [(apply_keeps happly).toolTables_eq hwr]
      exact ⟨rfl, rfl, rfl⟩
  exact h.quiet ⟨htables.2.1, htables.2.2, hexecutors⟩ htables.1 hother

/-- Every accepted fact keeps started invocations bound. -/
theorem step (h : Begun lib history p tool) (hinvoked : Invoked lib history p.toolTables tool)
    (happly : p.apply lib fact = .ok p') : Begun lib (history ++ [fact]) p' tool := by
  by_cases hother : ∀ state, roleOf fact.kind = .tool state → fact.toolInvocationId ≠ some tool
  · exact h.of_unrelated happly hother
  push Not at hother
  obtain ⟨state, hrole, htool⟩ := hother
  have hmove := apply_toolMove (FactKind.writes_eq_tools hrole) happly
  generalize htables : p'.toolTables = t' at hmove
  have htools : p'.tools = t'.tools := congrArg ToolTables.tools htables
  have hdigs : p'.toolDigests = t'.toolDigests := congrArg ToolTables.toolDigests htables
  have hgrants : p'.toolGrants = t'.toolGrants := congrArg ToolTables.toolGrants htables
  cases hmove with
  | @prepare moved _ _ _ hkind hmoved _ hnew =>
    obtain rfl : moved = tool := Option.some.inj (hmoved.symm.trans htool)
    refine h.advance (hinvoked.not_started_of_new hnew) (by simp [hnew]) ?_
      fun htells ↦ absurd htells (FactDraft.not_tells_of_kind hkind (by decide))
    rw [hkind]
    rintro _ ⟨⟩
    exact .inl rfl
  | @authorize moved execution _ hkind hmoved hentry =>
    obtain rfl : moved = tool := Option.some.inj (hmoved.symm.trans htool)
    have hidle : ∀ owner found, p.tools[moved]? = some (owner, found) → found = .prepared := by
      intro owner found hfound
      rw [hentry] at hfound
      cases hfound
      rfl
    refine h.advance (hinvoked.unstarted fun owner found hfound ↦ .inl (hidle owner found hfound))
      (fun owner found hfound ↦ .inl (hidle owner found hfound)) ?_
      fun htells ↦ absurd htells (FactDraft.not_tells_of_kind hkind (by decide))
    rw [hkind]
    rintro _ ⟨⟩
    exact .inr (.inl rfl)
  | @start moved execution current digest grant hkind hmoved hentry hcur hdig hprep
      hgrant =>
    obtain rfl : moved = tool := Option.some.inj (hmoved.symm.trans htool)
    have hidle : ∀ owner found, p.tools[moved]? = some (owner, found) →
        found = .prepared ∨ found = .authorized := by
      intro owner found hfound
      rw [hentry] at hfound
      cases hfound
      exact hcur
    refine h.advance (hinvoked.unstarted hidle)
      (fun owner found hfound ↦ (hidle owner found hfound).imp_right .inl) ?_ fun _ ↦ ?_
    · rw [hkind]
      rintro _ ⟨⟩
      exact .inr (.inr rfl)
    · obtain ⟨started, executor, revision, hstarted, hexecutor, hrev, hexecutors⟩ :=
        apply_started hkind happly
      obtain rfl : started = moved := Option.some.inj (hstarted.symm.trans htool)
      refine ⟨⟨digest, hdig, by rw [hdigs]; exact hprep⟩, ⟨grant, hgrant, ?_⟩,
        ⟨executor, revision, hexecutor, hrev, ?_⟩⟩
      · rw [hgrants, Map.get?_insert_self]
      · rw [hexecutors, Map.get?_insert_self]
  | @settle moved execution current next hnextRole hmoved hnext hentry =>
    obtain rfl : moved = tool := Option.some.inj (hmoved.symm.trans htool)
    have hkind : fact.kind ≠ .known .effectStarted := by
      intro hkind
      rw [hkind] at hnextRole
      cases hnextRole
      exact hnext.2.2 rfl
    have hentry' : p'.tools[moved]? = some (execution, next) := by
      rw [htools, Map.get?_insert_self]
    refine h.settle
      ⟨by rw [hdigs]; rfl, by rw [hgrants]; rfl, by rw [apply_toolExecutors hkind happly]⟩ hentry'
      ?_ fun htells ↦ hkind htells.kind_eq
    rintro (hearly | hearly | hearly)
    · exact hnext.1 hearly
    · exact hnext.2.1 hearly
    · exact hnext.2.2 hearly
  | decide hkind | bind hkind | preflight hkind | plan hkind =>
    rw [hkind] at hrole
    cases hrole

end Begun

/-- The session of a course with facts is open. -/
theorem Leads.opened {condition : StepCondition} (h : Leads lib condition history p)
    (hne : history ≠ []) : p.opened := by
  induction h with
  | empty => exact absurd rfl hne
  | commit _ _ ih => exact ih hne
  | fact _ _ happly _ => exact apply_opened happly

/-- Along every course, started invocations stay bound. -/
theorem Leads.begun {condition : StepCondition} (h : Leads lib condition history p)
    (tool : ToolInvocationId) : Begun lib history p tool := by
  induction h with
  | empty => exact begun_empty lib tool
  | commit _ _ ih => exact ⟨fun fact hfact htells ↦ ⟨(ih.bound fact hfact htells).digest,
      (ih.bound fact hfact htells).grant, (ih.bound fact hfact htells).executor⟩, ih.early⟩
  | fact h _ happly ih => exact ih.step (h.invoked tool) happly

end Garive
