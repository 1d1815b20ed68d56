import Garive.Core.Runs

/-!
# The limits of an execution

`RespectsLimits` collects what a log shows: how often the model was invoked and with which requests,
the tokens accounted before each invocation, the positions passed on, that nothing is asked of the
model or the effect port after a failure, and that the proposal of an outcome is the last call.
-/

namespace Garive

open Program List

/-- What a log of an execution shows of its limits. -/
structure RespectsLimits (request : AgentTurnRequest) (log : List KernelEvent) : Prop where
  invocations : (invokedRequests log).length ≤
    request.limits.maxIterations - request.cursor.completedIterations
  requestIds : ((invokedRequests log).map (·.requestId)).Nodup
  preflightIds : ((preflightRequests log).map (·.requestId)).Nodup
  tokens : AtEach (I := kernelPorts) (fun before call ↦ ∀ invoked ∈ KernelCall.invokedRequest? call,
    ∀ limit ∈ request.limits.maxTotalTokens,
      accounted request.recoveryPolicy.missingUsage before ≤ limit) log
  rebuilds : ∀ event ∈ log, ∀ contextRequest attempt,
    event.call = KernelCall.readCandidates contextRequest attempt →
      attempt ≤ request.recoveryPolicy.maxContextRebuilds
  targets : MovesForward request.modelTargets (invokedRequests log)
  positions : (passedPositions log).Pairwise (· ≤ ·)
  failures : log.Pairwise fun event later ↦ kernelFails event = true → KernelCall.isWork later.call = false
  proposals : log.Pairwise fun event _ ↦ KernelCall.proposes event.call = false

/-- Requests each of which is new among those before it. -/
theorem nodup_requestIds {allows : List KernelEvent → KernelCall → Prop} {log : List KernelEvent}
    {show? : KernelEvent → Option ModelRequest} (h : AtEach (I := kernelPorts) allows log)
    (hnew : ∀ (before : List KernelEvent) (event : KernelEvent) (shown : ModelRequest),
      allows before event.call → show? event = some shown →
        shown.requestId ∉ (before.filterMap show?).map (·.requestId)) :
    ((log.filterMap show?).map (·.requestId)).Nodup := by
  refine h.filterMap (Q := fun requests : List ModelRequest ↦ (requests.map (·.requestId)).Nodup)
    nodup_nil ?_
  intro before event shown hallowed hshown hnodup
  rw [map_append, nodup_append]
  refine ⟨hnodup, nodup_singleton _, ?_⟩
  rintro _ hid _ hother rfl
  rw [map_singleton, mem_singleton] at hother
  subst hother
  exact hnew before event shown hallowed hshown hid

theorem movesForward_nil (targets : List String) : MovesForward targets [] :=
  ⟨[], List.Pairwise.nil, .nil⟩

/-- A log all of whose calls are allowed respects the limits. -/
theorem respectsLimits_of_allowed {request : AgentTurnRequest}
    (admits : ModelRequest → PreparedToolCall → Prop) {log : List KernelEvent}
    (h : AtEach (I := kernelPorts) (Allowed request admits) log) : RespectsLimits request log where
  invocations := by
    refine h.filterMap (Q := fun requests ↦ requests.length ≤ _) (Nat.zero_le _) ?_
    intro before event invoked hallowed hinvoked _
    have hlt := (hallowed.invocation invoked hinvoked).1
    rw [length_append, length_singleton]
    exact hlt
  requestIds := by
    refine nodup_requestIds h fun before event invoked hallowed hinvoked ↦ ?_
    exact (hallowed.invocation invoked hinvoked).2.1
  preflightIds := by
    refine nodup_requestIds h fun before event checked hallowed hchecked ↦ ?_
    exact hallowed.checked checked hchecked
  tokens := h.mono fun before call hallowed invoked hinvoked ↦ (hallowed.invocation invoked hinvoked).2.2.1
  rebuilds := by
    intro event hmem contextRequest attempt hcall
    obtain ⟨before, after, rfl⟩ := append_of_mem hmem
    exact (h before event after rfl).rebuilds contextRequest attempt hcall
  targets := by
    refine h.filterMap (Q := MovesForward request.modelTargets) (movesForward_nil _) ?_
    intro before event invoked hallowed hinvoked _
    exact (hallowed.invocation invoked hinvoked).2.2.2
  positions := by
    refine h.filterMap (Q := fun positions ↦ positions.Pairwise (· ≤ ·)) List.Pairwise.nil ?_
    intro before event position hallowed hposition hsorted
    rw [pairwise_append]
    refine ⟨hsorted, pairwise_singleton _ _, ?_⟩
    intro passed hpassed last hlast
    rw [mem_singleton.mp hlast]
    exact hallowed.positions position hposition passed hpassed
  failures := by
    refine h.pairwise fun before event hallowed earlier hmem hfails ↦ ?_
    by_contra hwork
    rw [Bool.not_eq_false] at hwork
    rw [hallowed.healthy hwork earlier hmem] at hfails
    cases hfails
  proposals := h.pairwise fun before event hallowed earlier hmem ↦ hallowed.unproposed earlier hmem

/-- **The kernel loop respects its limits.** Whatever the ports answer, in every log of an execution
the model is invoked at most as often as iterations are left, with new requests whose targets only
move forward and never after the accounted usage passed its limit; candidates are read within the
rebuild limit; positions never decrease; nothing is asked of the model or the effect port after a
failure or a suspension; and the proposal of the outcome is the last call. -/
theorem executeKernel_respects_limits (lib : Preparing) (request : AgentTurnRequest)
    (definitions : List ToolDefinition)
    (preparation : Option (ToolIntent → Except PreparationError PreparedToolCall)) (effects : Bool)
    {log : List KernelEvent}
    (h : Possible (executeKernel lib request definitions preparation effects) log) :
    RespectsLimits request log :=
  respectsLimits_of_allowed (fun _ _ ↦ True) (atEach_of_ensures
    (ensures_executeKernel _ lib request definitions preparation effects fun _ _ _ _ _ _ _ ↦ trivial) h)

/-- A run of one iteration in which the model proposes a call, the port prepares it, and the effect
port fails. -/
theorem executeKernel_respects_limits_soleIteration : ∃ log source prepared,
    Possible (executeKernel lenientPreparing (soleIteration []) [readTool] (some readPort) true)
      (log ++ [⟨.invoke source prepared, .error .tool⟩]) ∧
    RespectsLimits (soleIteration []) (log ++ [⟨.invoke source prepared, .error .tool⟩]) := by
  have hprepared : readPort ⟨"call", "read", "null"⟩ = .ok _ := rfl
  obtain ⟨source, log, hpossible⟩ := makes_executeKernel (runnable_soleIteration []) hprepared
    (.error .tool)
  exact ⟨log, source, _, hpossible, executeKernel_respects_limits _ _ _ _ _ hpossible⟩

end Garive
