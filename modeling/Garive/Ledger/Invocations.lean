import Garive.Ledger.Course
import Garive.Ledger.Projection.Tools

/-!
# What a projection remembers of tool invocations

The tables of tool invocations against the facts they were read from: an invocation in the tables was
prepared by a fact, with the digest, the contract version and the result bound that the tables hold;
an authorized one was authorized by a fact; and one that has not moved on from there was not started.
-/

namespace Garive

open SessionProjection FactDraft Map

/-- The fact is of the kind and about the invocation. -/
structure FactDraft.Tells (fact : FactDraft) (kind : RuntimeKind) (tool : ToolInvocationId) :
    Prop where
  kind_eq : fact.kind = .known kind
  tool_eq : fact.toolInvocationId = some tool

/-- The tables hold the invocation as the fact prepared it. -/
structure PreparedAs (lib : Externals) (t : ToolTables) (fact : FactDraft) (tool : ToolInvocationId)
    (execution : ExecutionId) : Prop where
  tells : fact.Tells .effectPrepared tool
  execution_eq : fact.executionId = some execution
  digest : payloadText? lib fact "prepared_digest" = t.toolDigests[tool]?
  version : t.toolContractVersions[tool]? = some fact.schemaVersion
  bytes : fact.schemaVersion = 2 →
    payloadNumber? lib fact "max_result_bytes" = t.toolResultBytes[tool]?

/-- The tables agree with the facts about the invocation. -/
structure Invoked (lib : Externals) (history : List FactDraft) (t : ToolTables)
    (tool : ToolInvocationId) : Prop where
  prepared : ∀ execution state, t.tools[tool]? = some (execution, state) →
    ∃ fact ∈ history, PreparedAs lib t fact tool execution
  authorized : ∀ execution, t.tools[tool]? = some (execution, .authorized) →
    ∃ fact ∈ history, fact.Tells .effectAuthorized tool
  unstarted : (∀ execution state, t.tools[tool]? = some (execution, state) →
      state = .prepared ∨ state = .authorized) →
    ∀ fact ∈ history, ¬fact.Tells .effectStarted tool

variable {lib : Externals} {history : List FactDraft} {fact : FactDraft} {p : SessionProjection}
  {t t' : ToolTables} {tool : ToolInvocationId}

theorem invoked_empty (lib : Externals) (tool : ToolInvocationId) :
    Invoked lib [] ({} : SessionProjection).toolTables tool where
  prepared execution state h := by simp [toolTables] at h
  authorized execution h := by simp [toolTables] at h
  unstarted _ fact hfact := by cases hfact

/-- The tables hold the same of the invocation. -/
structure ToolTables.SameAt (t t' : ToolTables) (tool : ToolInvocationId) : Prop where
  tools : t'.tools[tool]? = t.tools[tool]?
  digests : t'.toolDigests[tool]? = t.toolDigests[tool]?
  versions : t'.toolContractVersions[tool]? = t.toolContractVersions[tool]?
  bytes : t'.toolResultBytes[tool]? = t.toolResultBytes[tool]?

variable {execution : ExecutionId}

/-- Only the state of an invocation moves. -/
theorem PreparedAs.congr (h : PreparedAs lib t fact tool execution)
    (hdigs : t'.toolDigests[tool]? = t.toolDigests[tool]?)
    (hvers : t'.toolContractVersions[tool]? = t.toolContractVersions[tool]?)
    (hbytes : t'.toolResultBytes[tool]? = t.toolResultBytes[tool]?) :
    PreparedAs lib t' fact tool execution where
  tells := h.tells
  execution_eq := h.execution_eq
  digest := hdigs ▸ h.digest
  version := hvers ▸ h.version
  bytes hver := hbytes ▸ h.bytes hver

/-- A fact of another kind. -/
theorem FactDraft.not_tells_of_kind {kind other : RuntimeKind} (hkind : fact.kind = .known kind)
    (hne : kind ≠ other) : ¬fact.Tells other tool := by
  intro htells
  have hother := htells.kind_eq
  rw [hkind, FactKind.known.injEq] at hother
  exact hne hother

/-- A fact about another invocation. -/
theorem FactDraft.not_tells_of_tool {kind : RuntimeKind} {other : ToolInvocationId}
    (htool : fact.toolInvocationId = some other) (hne : other ≠ tool) : ¬fact.Tells kind tool := by
  intro htells
  have hother := htells.tool_eq
  rw [htool, Option.some.injEq] at hother
  exact hne hother

namespace Invoked

/-- A fact that leaves the entries of an invocation alone and does not start it. -/
theorem congr (h : Invoked lib history t tool) (hsame : t.SameAt t' tool)
    (hstart : ¬fact.Tells .effectStarted tool) : Invoked lib (history ++ [fact]) t' tool where
  prepared execution state hentry := by
    obtain ⟨found, hfound, hprep⟩ := h.prepared execution state (hsame.tools ▸ hentry)
    exact ⟨found, List.mem_append_left _ hfound,
      hprep.congr hsame.digests hsame.versions hsame.bytes⟩
  authorized execution hentry := by
    obtain ⟨found, hfound, hauth⟩ := h.authorized execution (hsame.tools ▸ hentry)
    exact ⟨found, List.mem_append_left _ hfound, hauth⟩
  unstarted hidle found hfound := by
    rcases List.mem_append.mp hfound with hfound | hfound
    · exact h.unstarted (hsame.tools ▸ hidle) found hfound
    · rwa [List.mem_singleton.mp hfound]

/-- An invocation without an entry was not started. -/
theorem not_started_of_new (h : Invoked lib history t tool) (hnew : t.tools[tool]? = none) :
    ∀ found ∈ history, ¬found.Tells .effectStarted tool :=
  h.unstarted fun execution state hentry ↦ by
    rw [hnew] at hentry
    cases hentry

/-- An invocation that was started has an entry. -/
theorem ne_none_of_started (h : Invoked lib history t tool) {started : FactDraft}
    (hstarted : started ∈ history) (htells : started.Tells .effectStarted tool) :
    t.tools[tool]? ≠ none :=
  fun hnew ↦ h.not_started_of_new hnew started hstarted htells

theorem prepare {digest : String} {bytes : Nat} (h : Invoked lib history p.toolTables tool)
    (htells : fact.Tells .effectPrepared tool) (hexec : fact.executionId = some execution)
    (hnew : p.tools[tool]? = none) (hdig : payloadText? lib fact "prepared_digest" = some digest)
    (hbytes : fact.schemaVersion = 2 ∨ fact.schemaVersion = 3 → payloadNumber? lib fact "max_result_bytes" = some bytes) :
    Invoked lib (history ++ [fact]) { p.toolTables with
      tools := p.tools.insert tool (execution, .prepared)
      toolDigests := p.toolDigests.insert tool digest
      toolContractVersions := p.toolContractVersions.insert tool fact.schemaVersion
      toolResultBytes := if fact.schemaVersion = 2 ∨ fact.schemaVersion = 3
        then p.toolResultBytes.insert tool bytes else p.toolResultBytes } tool where
  prepared owner state hentry := by
    rw [get?_insert_self] at hentry
    cases hentry
    refine ⟨fact, by simp, htells, hexec, ?_, get?_insert_self .., fun hver ↦ ?_⟩
    · rw [hdig]
      exact (get?_insert_self ..).symm
    · rw [hbytes (.inl hver), if_pos (.inl hver)]
      exact (get?_insert_self ..).symm
  authorized owner hentry := by
    rw [get?_insert_self] at hentry
    cases hentry
  unstarted _ found hfound := by
    rcases List.mem_append.mp hfound with hfound | hfound
    · exact h.not_started_of_new hnew found hfound
    · rw [List.mem_singleton.mp hfound]
      exact not_tells_of_kind htells.kind_eq (by decide)

/-- The state of the invocation moves on. -/
theorem move {current next : InvocationState} (h : Invoked lib history p.toolTables tool)
    (hentry : p.tools[tool]? = some (execution, current))
    (htools : t'.tools = p.tools.insert tool (execution, next))
    (hdigs : t'.toolDigests = p.toolDigests)
    (hvers : t'.toolContractVersions = p.toolContractVersions)
    (hbytes : t'.toolResultBytes = p.toolResultBytes)
    (hauth : next = .authorized → fact.Tells .effectAuthorized tool)
    (hunstarted : next = .prepared ∨ next = .authorized → (current = .prepared ∨ current = .authorized) ∧ ¬fact.Tells .effectStarted tool) :
    Invoked lib (history ++ [fact]) t' tool := by
  have hnext : t'.tools[tool]? = some (execution, next) := by
    rw [htools, get?_insert_self]
  constructor
  · intro owner state hstate
    obtain ⟨found, hfound, hprep⟩ := h.prepared execution current hentry
    rw [hnext] at hstate
    cases hstate
    exact ⟨found, List.mem_append_left _ hfound,
      hprep.congr (by rw [hdigs]; rfl) (by rw [hvers]; rfl) (by rw [hbytes]; rfl)⟩
  · intro owner hstate
    rw [hnext] at hstate
    cases hstate
    exact ⟨fact, by simp, hauth rfl⟩
  · intro hidle found hfound
    obtain ⟨hcur, _⟩ := hunstarted (hidle execution next hnext)
    rcases List.mem_append.mp hfound with hfound | hfound
    · refine h.unstarted (fun owner state hstate ↦ ?_) found hfound
      have hstate' : p.tools[tool]? = some (owner, state) := hstate
      rw [hentry] at hstate'
      cases hstate'
      exact hcur
    · rwa [List.mem_singleton.mp hfound]

/-- Every move keeps the tables in agreement with the facts. -/
theorem step (h : Invoked lib history p.toolTables tool) (hmove : ToolMove lib p fact t') :
    Invoked lib (history ++ [fact]) t' tool := by
  cases hmove with
  | @prepare other execution digest bytes hkind htool hexec hnew hdig hbytes =>
    by_cases heq : other = tool
    · subst heq
      exact h.prepare ⟨hkind, htool⟩ hexec hnew hdig hbytes
    · refine h.congr ⟨get?_insert_of_ne heq, get?_insert_of_ne heq,
        get?_insert_of_ne heq, ?_⟩ (not_tells_of_tool htool heq)
      dsimp only
      split
      · exact get?_insert_of_ne heq
      · rfl
  | @authorize other execution grant hkind htool hentry =>
    by_cases heq : other = tool
    · subst heq
      exact h.move hentry rfl rfl rfl rfl (fun _ ↦ ⟨hkind, htool⟩)
        fun _ ↦ ⟨.inl rfl, not_tells_of_kind hkind (by decide)⟩
    · exact h.congr ⟨get?_insert_of_ne heq, rfl, rfl, rfl⟩ (not_tells_of_tool htool heq)
  | @start other execution current digest grant hkind htool hentry =>
    by_cases heq : other = tool
    · subst heq
      exact h.move hentry rfl rfl rfl rfl (fun hnext ↦ by cases hnext)
        fun hnext ↦ by rcases hnext with hnext | hnext <;> cases hnext
    · exact h.congr ⟨get?_insert_of_ne heq, rfl, rfl, rfl⟩ (not_tells_of_tool htool heq)
  | @settle other execution current next _ htool hnext hentry =>
    by_cases heq : other = tool
    · subst heq
      exact h.move hentry rfl rfl rfl rfl (fun heq ↦ absurd heq hnext.2.1)
        fun hidle ↦ (hidle.elim hnext.1 hnext.2.1).elim
    · exact h.congr ⟨get?_insert_of_ne heq, rfl, rfl, rfl⟩ (not_tells_of_tool htool heq)
  | decide hkind | bind hkind | preflight hkind | plan hkind =>
    exact h.congr ⟨rfl, rfl, rfl, rfl⟩ (not_tells_of_kind hkind (by decide))

end Invoked

/-- A fact that writes other tables says nothing about an invocation's life. -/
theorem FactDraft.not_tells_of_writes {kind : RuntimeKind} (hwr : fact.kind.writes ≠ .tools)
    (hkind : kind.writes = .tools) : ¬fact.Tells kind tool := by
  intro htells
  rw [htells.kind_eq] at hwr
  exact hwr hkind

/-- Along every course, the tables agree with the facts. -/
theorem Leads.invoked {condition : StepCondition} (h : Leads lib condition history p)
    (tool : ToolInvocationId) : Invoked lib history p.toolTables tool := by
  induction h with
  | empty => exact invoked_empty lib tool
  | commit _ _ ih => exact ih
  | @fact history p p' fact _ _ happly ih =>
    by_cases hwr : fact.kind.writes = .tools
    · exact ih.step (apply_toolMove hwr happly)
    · rw [(apply_keeps happly).toolTables_eq hwr]
      exact ih.congr ⟨rfl, rfl, rfl, rfl⟩ (not_tells_of_writes hwr rfl)

end Garive
