import Garive.Ledger.History

/-!
# Lifecycle containment

What runs is contained in what is open: active executions in open turns, dispatched invocations and
unfinished knowledge requests in active executions, unresolved interactions in executions that can
still be resumed. A closed session has nothing left to happen.

The invariant is proved about the moves of `Lifecycle.Step`, one case per move, and carried to every
reachable ledger by `LedgerState.Reachable.projection`, the induction rule for properties of
projections.
-/

namespace Garive

open Map

namespace Lifecycle

variable {l l' : Lifecycle}

/-- What runs is contained in what is open. -/
structure Contained (l : Lifecycle) : Prop where
  executions : ∀ (execution : ExecutionId) (turn : TurnId),
    l.executions[execution]? = some (turn, .active) → l.turns[turn]? = some .open
  models : ∀ (request : ModelRequestId) (execution : ExecutionId) (state : InvocationState),
    l.models[request]? = some (execution, state) → state.InFlight → l.Active execution
  tools : ∀ (tool : ToolInvocationId) (execution : ExecutionId) (state : InvocationState),
    l.tools[tool]? = some (execution, state) → state.InFlight → l.Active execution
  knowledge : ∀ (request : String) (record : KnowledgeRecord),
    l.knowledge[request]? = some record → record.terminal = false → l.Active record.execution
  interactions : ∀ (interaction : String) (record : InteractionRecord),
    l.interactions[interaction]? = some record → record.terminal = false →
    ∃ turn state, l.executions[record.execution]? = some (turn, state) ∧
      (state = .active ∨ state = .suspended) ∧
      (l.turns[turn]? = some .open ∨ l.turns[turn]? = some .suspended)
  closed : l.closed = true → l.Settled

theorem settled_of_not_closed (hclosed : l.closed = false) (hc : l.closed) : l.Settled := by
  rw [hclosed] at hc
  cases hc

variable (h : l.Contained) (hclosed : l.closed = false)
include h hclosed

variable {turn : TurnId}

theorem Contained.openTurn (hturn : l.turns[turn]? = none ∨ l.turns[turn]? = some .suspended) :
    Contained { l with turns := l.turns.insert turn .open } := by
  refine ⟨?_, h.models, h.tools, h.knowledge, ?_, settled_of_not_closed hclosed⟩
  · intro execution owner hget
    have howner := h.executions execution owner hget
    rw [get?_insert_of_ne]
    · exact howner
    · rintro rfl
      rcases hturn with hturn | hturn <;> simp [hturn] at howner
  · intro interaction record hget hterm
    obtain ⟨owner, state, hexec, hstate, howner⟩ :=
      h.interactions interaction record hget hterm
    refine ⟨owner, state, hexec, hstate, ?_⟩
    by_cases heq : turn = owner
    · exact .inl (by rw [heq, get?_insert_self])
    · rwa [get?_insert_of_ne heq]

theorem Contained.moveTurn {next : TurnState}
    (hexecs : ∀ execution : ExecutionId, l.executions[execution]? ≠ some (turn, .active))
    (hinters : next ≠ .suspended → ∀ (interaction : String) (record : InteractionRecord) (state : ExecutionState), l.interactions[interaction]? = some record → l.executions[record.execution]? = some (turn, state) → record.terminal) :
    Contained { l with turns := l.turns.insert turn next } := by
  refine ⟨?_, h.models, h.tools, h.knowledge, ?_, settled_of_not_closed hclosed⟩
  · intro execution owner hget
    rw [get?_insert_of_ne]
    · exact h.executions execution owner hget
    · rintro rfl
      exact hexecs execution hget
  · intro interaction record hget hterm
    obtain ⟨owner, state, hexec, hstate, _⟩ :=
      h.interactions interaction record hget hterm
    refine ⟨owner, state, hexec, hstate, ?_⟩
    by_cases heq : turn = owner
    · subst heq
      by_cases hnext : next = .suspended
      · exact .inr (by rw [hnext, get?_insert_self])
      · rw [hinters hnext interaction record state hget hexec] at hterm
        cases hterm
    · rwa [get?_insert_of_ne heq]

variable {execution : ExecutionId}

theorem Contained.startExecution (hturn : l.turns[turn]? = some .open)
    (hfresh : l.executions[execution]? = none) :
    Contained { l with executions := l.executions.insert execution (turn, .active) } := by
  -- Whatever was contained in another execution still is: the new one did not exist.
  have hkept : ∀ {other : ExecutionId} {entry : TurnId × ExecutionState},
      l.executions[other]? = some entry →
      (l.executions.insert execution (turn, ExecutionState.active))[other]? = some entry := by
    intro other entry hget
    rwa [get?_insert_of_ne]
    rintro rfl
    rw [hfresh] at hget
    cases hget
  have hact : ∀ {other : ExecutionId}, l.Active other →
      Active { l with executions := l.executions.insert execution (turn, .active) } other :=
    fun ⟨owner, howner⟩ ↦ ⟨owner, hkept howner⟩
  refine ⟨?_, fun request owner state hget hflight ↦ hact (h.models request owner state hget hflight),
    fun tool owner state hget hflight ↦ hact (h.tools tool owner state hget hflight),
    fun request record hget hterm ↦ hact (h.knowledge request record hget hterm), ?_,
    settled_of_not_closed hclosed⟩
  · intro other owner hget
    rcases of_get?_insert hget with ⟨-, ⟨⟩⟩ | hget
    · exact hturn
    · exact h.executions other owner hget
  · intro interaction record hget hterm
    obtain ⟨owner, state, hexec, hrest⟩ := h.interactions interaction record hget hterm
    exact ⟨owner, state, hkept hexec, hrest⟩

theorem Contained.endExecution {next : ExecutionState} (hnext : next ≠ .active)
    (hentry : l.executions[execution]? = some (turn, .active)) (hquiet : l.Quiet execution)
    (hinters : next ≠ .suspended → ∀ (interaction : String) (record : InteractionRecord), l.interactions[interaction]? = some record → record.execution = execution → record.terminal) :
    Contained { l with executions := l.executions.insert execution (turn, next) } := by
  have hact : ∀ {other : ExecutionId}, other ≠ execution → l.Active other →
      Active { l with executions := l.executions.insert execution (turn, next) } other := by
    rintro other hne ⟨owner, howner⟩
    exact ⟨owner, (get?_insert_of_ne hne.symm).trans howner⟩
  refine ⟨?_, ?_, ?_, ?_, ?_, settled_of_not_closed hclosed⟩
  · intro other owner hget
    rcases of_get?_insert hget with ⟨-, ⟨⟩⟩ | hget
    · exact absurd rfl hnext
    · exact h.executions other owner hget
  · intro request owner state hget hflight
    refine hact ?_ (h.models request owner state hget hflight)
    rintro rfl
    exact hquiet.1 request state hget hflight
  · intro tool owner state hget hflight
    refine hact ?_ (h.tools tool owner state hget hflight)
    rintro rfl
    exact hquiet.2.1 tool state hget hflight
  · intro request record hget hterm
    refine hact ?_ (h.knowledge request record hget hterm)
    intro heq
    rw [hquiet.2.2 request record hget heq] at hterm
    cases hterm
  · intro interaction record hget hterm
    obtain ⟨owner, state, hexec, hstate, howner⟩ :=
      h.interactions interaction record hget hterm
    by_cases heq : execution = record.execution
    · rw [← heq, hentry] at hexec
      cases hexec
      by_cases hsusp : next = .suspended
      · exact ⟨turn, next, by rw [← heq]; exact get?_insert_self .., .inr hsusp, howner⟩
      · rw [hinters hsusp interaction record hget heq.symm] at hterm
        cases hterm
    · exact ⟨owner, state, (get?_insert_of_ne heq).trans hexec, hstate, howner⟩

/-- Every move keeps what runs contained in what is open. -/
theorem Contained.step (hstep : l.Step l') : l'.Contained := by
  cases hstep with
  | evidence => exact h
  | close hsettled =>
    exact ⟨h.executions, h.models, h.tools, h.knowledge, h.interactions, fun _ ↦
      ⟨hsettled.turns, hsettled.executions, hsettled.models, hsettled.tools, hsettled.schedules,
        hsettled.delegations⟩⟩
  | openTurn turn hturn => exact h.openTurn hclosed hturn
  | moveTurn turn next hnext hexecs hinters =>
    exact h.moveTurn hclosed hexecs hinters
  | startExecution execution turn hturn hfresh => exact h.startExecution hclosed hturn hfresh
  | endExecution execution turn next hnext hact hquiet hinters =>
    exact h.endExecution hclosed hnext hact hquiet hinters
  | setModel request execution state hact =>
    refine ⟨h.executions, ?_, h.tools, h.knowledge, h.interactions, settled_of_not_closed hclosed⟩
    intro other owner found hget hflight
    rcases of_get?_insert hget with ⟨-, ⟨⟩⟩ | hget
    · exact hact
    · exact h.models other owner found hget hflight
  | setTool tool execution state hact =>
    refine ⟨h.executions, h.models, ?_, h.knowledge, h.interactions, settled_of_not_closed hclosed⟩
    intro other owner found hget hflight
    rcases of_get?_insert hget with ⟨-, ⟨⟩⟩ | hget
    · exact hact hflight
    · exact h.tools other owner found hget hflight
  | setInteraction interaction record hrec =>
    refine ⟨h.executions, h.models, h.tools, h.knowledge, ?_, settled_of_not_closed hclosed⟩
    intro other found hget hterm
    rcases of_get?_insert hget with ⟨-, ⟨⟩⟩ | hget
    · rcases hrec with hdone | ⟨turn, hturn⟩
      · rw [hdone] at hterm
        cases hterm
      · exact ⟨turn, .active, hturn, .inl rfl, .inl (h.executions _ turn hturn)⟩
    · exact h.interactions other found hget hterm
  | setKnowledge request record hact =>
    refine ⟨h.executions, h.models, h.tools, ?_, h.interactions, settled_of_not_closed hclosed⟩
    intro other found hget hterm
    rcases of_get?_insert hget with ⟨-, ⟨⟩⟩ | hget
    · exact hact
    · exact h.knowledge other found hget hterm
  | setSchedule schedule record =>
    exact ⟨h.executions, h.models, h.tools, h.knowledge, h.interactions, settled_of_not_closed hclosed⟩
  | setDelegation delegation record =>
    exact ⟨h.executions, h.models, h.tools, h.knowledge, h.interactions, settled_of_not_closed hclosed⟩

end Lifecycle

/-! ## Every reachable projection -/

namespace LedgerState

variable {lib : Externals} {state : LedgerState}

/-- What holds of the empty projection and is kept by the start of a commit and by every accepted
fact holds of every session's projection in every reachable ledger. -/
theorem Reachable.projection {P : SessionProjection → Prop} (hempty : P {})
    (hbegin : ∀ p, P p → P p.beginCommit)
    (hfact : ∀ p p' fact, P p → p.apply lib fact = .ok p' → P p') (h : Reachable lib state)
    (sessionId : SessionId) : P (state.session sessionId).projection := by
  have hbatch : ∀ (batch : List FactDraft) (p p' : SessionProjection), P p →
      p.applyAll lib batch = .ok p' → P p' := by
    intro batch
    induction batch with
    | nil =>
      intro p p' hp happly
      cases happly
      exact hp
    | cons fact rest ih =>
      intro p p' hp happly
      simp only [SessionProjection.applyAll, bind_eq_ok_iff] at happly
      obtain ⟨next, hnext, hrest⟩ := happly
      exact ih next p' (hfact p next fact hp hnext) hrest
  refine (ledgerMachine lib).reachable_induction
    (P := fun state ↦ P (state.session sessionId).projection) (by simpa [session, ledgerMachine] using hempty)
    ?_ h
  intro state call hstate
  change P ((state.commit lib call.sessionId call.expectedSessionVersion call.drafts).2.session
    sessionId).projection
  rcases commit_cases lib state call.sessionId call.expectedSessionVersion call.drafts with
    ⟨e, he⟩ | ⟨found, hreplays⟩ | ⟨position, projection, happ⟩
  · rw [he]
    exact hstate
  · rw [commit_of_replays hreplays]
    exact hstate
  · rw [commit_of_appends happ, session_appended]
    split
    · rename_i heq
      subst heq
      exact hbatch call.drafts _ _ (hbegin _ hstate) happ.accepted
    · exact hstate

end LedgerState

end Garive
