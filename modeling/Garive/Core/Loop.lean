import Garive.Core.Log
import Garive.Lib.BigEndian

/-!
# The loop, call by call

Every call of an execution is allowed (`ensures_executeKernel`). The loop keeps `Going`: no call
failed so far, and the counters the loop carries bound what the log shows. Every way out keeps only
that no outcome was proposed, which is all that `finish` needs. Each part of an iteration has one
lemma, in the order of the parts.
-/

namespace Garive

open Program KernelCall List UsageAccumulator Nat

/-! ## What the loop keeps -/

/-- No outcome was proposed. -/
def Unproposed (log : List KernelEvent) : Prop :=
  ∀ event ∈ log, proposes event.call = false

/-- No call failed so far, `begun` iterations were begun, the model was last invoked with `last`, and
the state of the loop bounds what the log shows. -/
structure Going (request : AgentTurnRequest) (begun : Nat) (last : Option ModelRequest) (s : LoopState)
    (log : List KernelEvent) : Prop where
  unproposed : Unproposed log
  healthy : ∀ event ∈ log, kernelFails event = false
  invocations : (invokedRequests log).length + request.cursor.completedIterations ≤ begun
  invokedIds : ∀ invoked ∈ invokedRequests log, ∃ iteration ≤ begun, ∃ ordinal,
    invoked.requestId = requestIdOf request iteration ordinal
  preflightIds : ∀ checked ∈ preflightRequests log, ∃ iteration, ∃ ordinal ≤ s.requestOrdinal,
    checked.requestId = requestIdOf request iteration ordinal
  tokens : s.usage.total = some (accounted request.recoveryPolicy.missingUsage log)
  withinTokens : ∀ limit ∈ request.limits.maxTotalTokens,
    accounted request.recoveryPolicy.missingUsage log ≤ limit
  rebuilds : s.rebuildAttempt ≤ request.recoveryPolicy.maxContextRebuilds
  target : s.targetIndex < request.modelTargets.length
  asked : (invokedRequests log).getLast? = last
  forward : ∃ indexes : List Nat, indexes.Pairwise (· ≤ ·) ∧ (∀ index ∈ indexes, index ≤ s.targetIndex) ∧
    List.Forall₂ (fun invoked index ↦ request.modelTargets[index]? = some invoked.targetId)
      (invokedRequests log) indexes
  positions : ∀ position ∈ passedPositions log, position ≤ s.throughPosition

/-- A call that shows no request and no usage, and proposes nothing. -/
structure KernelCall.Quiet (call : KernelCall) : Prop where
  invoked : call.invokedRequest? = none := by rfl
  preflight : call.preflightRequest? = none := by rfl
  charged : ∀ policy, call.charged policy = 0 := by intro policy; rfl
  proposes : call.proposes = false := by rfl

/-- A quiet call that passes no position and asks nothing of the model or the effect port. -/
structure KernelCall.Idle (call : KernelCall) : Prop extends call.Quiet where
  position : call.passedPosition? = none := by rfl
  work : call.isWork = false := by rfl

section Readings

variable (log : List KernelEvent) (event : KernelEvent)

theorem invokedRequests_concat : invokedRequests (log ++ [event]) =
    invokedRequests log ++ (invokedRequest? event.call).toList := by
  rw [invokedRequests, filterMap_append]
  cases h : invokedRequest? event.call <;> simp [invokedRequests, h]

theorem preflightRequests_concat : preflightRequests (log ++ [event]) =
    preflightRequests log ++ (preflightRequest? event.call).toList := by
  rw [preflightRequests, filterMap_append]
  cases h : preflightRequest? event.call <;> simp [preflightRequests, h]

theorem passedPositions_concat : passedPositions (log ++ [event]) =
    passedPositions log ++ (passedPosition? event.call).toList := by
  rw [passedPositions, filterMap_append]
  cases h : passedPosition? event.call <;> simp [passedPositions, h]

theorem accounted_concat (policy : MissingUsagePolicy) : accounted policy (log ++ [event]) =
    accounted policy log + charged policy event.call := by
  simp [accounted]

end Readings

section Kept

variable {request : AgentTurnRequest} {begun : Nat} {last : Option ModelRequest} {s : LoopState} {log : List KernelEvent}
  {event : KernelEvent} {admits : ModelRequest → PreparedToolCall → Prop}

theorem unproposed_nil : Unproposed [] := by simp [Unproposed]

theorem Unproposed.concat (h : Unproposed log) (hevent : proposes event.call = false) :
    Unproposed (log ++ [event]) :=
  forall_mem_append.mpr ⟨h, by simpa using hevent⟩

/-- An idle call may always be made. -/
theorem Unproposed.allowed_idle (h : Unproposed log) {call : KernelCall} (hidle : call.Idle) :
    Allowed request admits log call where
  unproposed := h
  healthy hwork := by simp [hidle.work] at hwork
  invocation invoked hinvoked := by simp [hidle.invoked] at hinvoked
  checked checked hchecked := by simp [hidle.preflight] at hchecked
  rebuilds contextRequest attempt hcall := by
    have hposition := hidle.position
    rw [hcall] at hposition
    cases hposition
  positions position hposition := by simp [hidle.position] at hposition
  effects source prepared hcall := by
    have hwork := hidle.work
    rw [hcall] at hwork
    cases hwork

/-- A quiet call that does not fail keeps the loop going. -/
theorem Going.quiet (h : Going request begun last s log) (hquiet : KernelCall.Quiet event.call)
    (hposition : ∀ position ∈ passedPosition? event.call, position ≤ s.throughPosition)
    (hfails : kernelFails event = false) : Going request begun last s (log ++ [event]) where
  unproposed := h.unproposed.concat hquiet.proposes
  healthy := forall_mem_append.mpr ⟨h.healthy, by simpa using hfails⟩
  invocations := by
    rw [invokedRequests_concat, hquiet.invoked]
    simpa using h.invocations
  invokedIds := by
    rw [invokedRequests_concat, hquiet.invoked]
    simpa using h.invokedIds
  preflightIds := by
    rw [preflightRequests_concat, hquiet.preflight]
    simpa using h.preflightIds
  tokens := by
    rw [accounted_concat, hquiet.charged]
    exact h.tokens
  withinTokens := by
    rw [accounted_concat, hquiet.charged]
    exact h.withinTokens
  rebuilds := h.rebuilds
  target := h.target
  asked := by
    rw [invokedRequests_concat, hquiet.invoked]
    simpa using h.asked
  forward := by
    rw [invokedRequests_concat, hquiet.invoked]
    simpa using h.forward
  positions := by
    rw [passedPositions_concat]
    exact forall_mem_append.mpr ⟨h.positions, by simpa using hposition⟩

theorem Going.idle (h : Going request begun last s log) (hidle : KernelCall.Idle event.call)
    (hfails : kernelFails event = false) : Going request begun last s (log ++ [event]) :=
  h.quiet hidle.toQuiet (by simp [hidle.position]) hfails

end Kept

/-! ## Request identities -/

theorem takeWhile_digits_colon (n : Nat) (rest : List Char) :
    (toDigits 10 n ++ ':' :: rest).takeWhile Char.isDigit = toDigits 10 n := by
  rw [takeWhile_append_of_pos fun c hc ↦ isDigit_of_mem_toDigits (by decide) (by decide) hc]
  simp

variable {request : AgentTurnRequest}

/-- A request identity determines its iteration and its ordinal. -/
theorem requestIdOf_inj {iteration other ordinal otherOrdinal : Nat}
    (h : requestIdOf request iteration ordinal = requestIdOf request other otherOrdinal) :
    iteration = other ∧ ordinal = otherOrdinal := by
  have hchars : toDigits 10 iteration ++ ':' :: toDigits 10 ordinal =
      toDigits 10 other ++ ':' :: toDigits 10 otherOrdinal := by
    have hlists := congrArg String.toList h
    simp only [requestIdOf, String.toList_append, append_assoc] at hlists
    have htail := append_cancel_left (append_cancel_left hlists)
    simpa [toString_eq_repr, repr] using htail
  have hiteration : toDigits 10 iteration = toDigits 10 other := by
    have htake := congrArg (takeWhile Char.isDigit) hchars
    rwa [takeWhile_digits_colon, takeWhile_digits_colon] at htake
  rw [hiteration] at hchars
  have hord := (cons.inj (append_cancel_left hchars)).2
  exact ⟨toDigits_inj hiteration, toDigits_inj hord⟩

/-! ## Accounting -/

theorem accumulate_known {current total : Nat} {next : TokenCount} {policy : MissingUsagePolicy}
    {input estimated : Bool}
    (h : accumulate (.known current) next policy input = .ok (.known total, estimated, false)) :
    total = current + next.charged policy input := by
  unfold accumulate at h
  cases next with
  | known value =>
    simp only [okOr_eq_ok_iff, Option.map_eq_some_iff, Prod.mk.injEq, TokenCount.known.injEq] at h
    obtain ⟨sum, hsum, rfl, -⟩ := h
    exact (checkedAdd_eq_some_iff.mp hsum).1.symm
  | unknown =>
    cases policy with
    | stop => simp at h
    | estimate inputTokens outputTokens =>
      simp only [okOr_eq_ok_iff, Option.map_eq_some_iff, Prod.mk.injEq, TokenCount.known.injEq] at h
      obtain ⟨sum, hsum, rfl, -⟩ := h
      exact (checkedAdd_eq_some_iff.mp hsum).1.symm

variable {usage : UsageAccumulator}

theorem UsageAccumulator.total_eq_some_iff {total : Nat} :
    usage.total = some total ↔ ∃ input output, usage.input = .known input ∧
      usage.output = .known output ∧ checkedAdd input output = some total := by
  unfold UsageAccumulator.total
  rcases usage with ⟨_ | _, _ | _, estimated⟩ <;> simp

variable {modelUsage : ModelUsage}

/-- Both counts were there when an accumulator accepted an invocation. -/
theorem UsageAccumulator.add_eq_ok {usage next : UsageAccumulator} {policy : MissingUsagePolicy}
    (h : usage.add modelUsage policy = (next, .ok ())) :
    (∃ estimated, accumulate usage.input modelUsage.inputTokens policy true =
      .ok (next.input, estimated, false)) ∧
    ∃ estimated, accumulate usage.output modelUsage.outputTokens policy false =
      .ok (next.output, estimated, false) := by
  unfold add at h
  split at h
  · rename_i input inputEstimated inputMissing output outputEstimated outputMissing hinput houtput
    obtain ⟨rfl, hpresent⟩ := Prod.mk.inj h
    simp only [ensure_eq_ok_iff, Bool.or_eq_true, not_or, Bool.not_eq_true] at hpresent
    obtain ⟨rfl, rfl⟩ := hpresent
    exact ⟨⟨inputEstimated, hinput⟩, outputEstimated, houtput⟩
  · cases h
  · cases h

/-- An accumulator with a total still has one after it accounted for an invocation: the tokens of the
invocation more, and within the limit. -/
theorem accountOrLimit_eq_none {usage next : UsageAccumulator} {policy : ModelRecoveryPolicy}
    {maximum : Option Nat} {total : Nat} (htotal : usage.total = some total)
    (h : accountOrLimit usage modelUsage policy maximum = (next, none)) :
    next.total = some (total + modelUsage.charged policy.missingUsage) ∧
      ∀ limit ∈ maximum, total + modelUsage.charged policy.missingUsage ≤ limit := by
  obtain ⟨_, _, hinput, houtput, hsum⟩ := total_eq_some_iff.mp htotal
  unfold accountOrLimit at h
  cases hadd : usage.add modelUsage policy.missingUsage with
  | mk added result =>
    rw [hadd] at h
    rcases result with _ | ⟨⟨⟩⟩
    · cases h
    · cases hafter : added.total with
      | none => simp [hafter] at h
      | some after =>
        simp only [hafter, Prod.mk.injEq, ite_eq_right_iff, reduceCtorEq, imp_false,
          Bool.not_eq_true] at h
        obtain ⟨rfl, hlimit⟩ := h
        obtain ⟨⟨_, hin⟩, _, hout⟩ := add_eq_ok hadd
        obtain ⟨_, _, hnewInput, hnewOutput, hnewSum⟩ :=
          total_eq_some_iff.mp hafter
        rw [hinput, hnewInput] at hin
        rw [houtput, hnewOutput] at hout
        have hafterEq : after = total + modelUsage.charged policy.missingUsage := by
          have hgrow := accumulate_known hin
          have hgrow' := accumulate_known hout
          have hold := (checkedAdd_eq_some_iff.mp hsum).1
          have hnew := (checkedAdd_eq_some_iff.mp hnewSum).1
          unfold ModelUsage.charged
          omega
        subst hafterEq
        refine ⟨hafter, ?_⟩
        rintro limit ⟨⟩
        simpa using hlimit

/-! ## The parts of an iteration -/

/-- Every call of the part is allowed, its result meets the postcondition, and wherever it leaves no
outcome was proposed. -/
def Keeps {α : Type} (request : AgentTurnRequest)
    (admits : ModelRequest → PreparedToolCall → Prop) (log : List KernelEvent) (part : Kernel α)
    (post : List KernelEvent → α → Prop) : Prop :=
  EnsuresOr (I := kernelPorts) (Allowed request admits) log part post fun log _ ↦ Unproposed log

section Parts

variable {α β : Type} {request : AgentTurnRequest} {begun : Nat} {last : Option ModelRequest} {s : LoopState}
  {log : List KernelEvent} {usage : UsageAccumulator}
  {admits : ModelRequest → PreparedToolCall → Prop}

theorem Keeps.bind {part : Kernel α} {next : α → Kernel β} {Q : List KernelEvent → α → Prop}
    {post : List KernelEvent → β → Prop} (hpart : Keeps request admits log part Q)
    (hnext : ∀ log a, Q log a → Keeps request admits log (next a) post) :
    Keeps request admits log (part >>= next) post :=
  EnsuresOr.bind hpart hnext

variable {post : List KernelEvent → α → Prop}

theorem keeps_pure {a : α} (h : post log a) : Keeps request admits log (pure a) post := h

variable {outcome : AgentOutcome}

theorem keeps_leave (h : Unproposed log) :
    Keeps request admits log (Kernel.leave usage outcome) post := h

theorem keeps_leaveIf (h : Unproposed log) {condition : Bool}
    {post : List KernelEvent → Unit → Prop} (hpost : condition = false → post log ()) :
    Keeps request admits log (Kernel.leaveIf condition usage outcome) post := by
  cases condition with
  | true => exact h
  | false => exact hpost rfl

theorem keeps_orLeave (h : Unproposed log) {ε : Type} {answer : Except ε α}
    {outcome : ε → AgentOutcome} (hpost : ∀ a, answer = .ok a → post log a) :
    Keeps request admits log (Kernel.orLeave answer usage outcome) post := by
  cases answer with
  | error e => exact h
  | ok a => exact hpost a rfl

variable (h : Going request begun last s log)

include h

/-- The cancellation signal may be read at any time. -/
theorem Going.isCancelled :
    Keeps request admits log Kernel.isCancelled fun log _ ↦ Going request begun last s log :=
  ⟨h.unproposed.allowed_idle {}, fun _ ↦ h.idle {} rfl⟩

/-- Events other than the proposal are emitted. -/
theorem Going.emitting {kind : AgentEventKind}
    (hkind : proposes (.emit (agentEvent request kind)) = false) :
    Keeps request admits log (emitting request usage kind) fun log _ ↦ Going request begun last s log := by
  have hidle : KernelCall.Idle (.emit (agentEvent request kind)) := { proposes := hkind }
  refine Keeps.bind (Q := fun log answer ↦ Unproposed log ∧ (answer = .ok () → Going request begun last s log))
    ⟨h.unproposed.allowed_idle hidle, fun answer ↦ ?_⟩ ?_
  · refine ⟨h.unproposed.concat hkind, fun hok ↦ h.idle hidle ?_⟩
    cases answer with
    | error e => cases hok
    | ok u => rfl
  · rintro log answer ⟨hopen, hgoing⟩
    exact keeps_orLeave hopen fun u hok ↦ hgoing hok

theorem Going.deadlineReached :
    Keeps request admits log (deadlineReached request usage) fun log _ ↦ Going request begun last s log := by
  unfold Garive.deadlineReached
  split
  · exact keeps_pure h
  · refine Keeps.bind (Q := fun log now ↦ Unproposed log ∧ ∀ tick, now = .ok tick →
      Going request begun last s log) ⟨h.unproposed.allowed_idle {}, fun now ↦ ?_⟩ ?_
    · refine ⟨h.unproposed.concat rfl, ?_⟩
      rintro tick rfl
      exact h.idle {} rfl
    · rintro log now ⟨hopen, hgoing⟩
      refine Keeps.bind (Q := fun log _ ↦ Going request begun last s log) (keeps_orLeave hopen hgoing) ?_
      exact fun log tick h ↦ keeps_pure h

theorem Going.checkBoundary :
    Keeps request admits log (checkBoundary request usage) fun log _ ↦ Going request begun last s log := by
  refine h.isCancelled.bind fun log cancelled h ↦ ?_
  refine Keeps.bind (Q := fun log _ ↦ Going request begun last s log)
    (keeps_leaveIf h.unproposed fun _ ↦ h) fun log _ h ↦ ?_
  refine h.deadlineReached.bind fun log reached h ↦ ?_
  exact keeps_leaveIf h.unproposed fun _ ↦ h

/-- The candidates are read at the position and the rebuild attempt of the loop. -/
theorem Going.readSurface :
    Keeps request admits log (readSurface request s) fun log _ ↦ Going request begun last s log := by
  have hallowed : Allowed request admits log (.readCandidates (s.contextRequest request) s.rebuildAttempt) :=
    { unproposed := h.unproposed
      healthy := nofun
      invocation := nofun
      checked := nofun
      rebuilds := by
        rintro _ _ ⟨⟩
        exact h.rebuilds
      positions := by
        rintro _ ⟨⟩
        exact h.positions
      effects := nofun }
  refine Keeps.bind (Q := fun log answer ↦ Unproposed log ∧ ∀ candidates, answer = .ok candidates →
    Going request begun last s log) ⟨hallowed, fun answer ↦ ?_⟩ ?_
  · refine ⟨h.unproposed.concat rfl, ?_⟩
    rintro candidates rfl
    refine h.quiet {} ?_ rfl
    rintro _ ⟨⟩
    exact le_refl _
  · rintro log answer ⟨hopen, hgoing⟩
    refine Keeps.bind (Q := fun log _ ↦ Going request begun last s log) (keeps_orLeave hopen hgoing) ?_
    exact fun log candidates h ↦ keeps_orLeave h.unproposed fun _ _ ↦ h

end Parts

/-! ## The model request of an iteration -/

section Requests

variable {setup : KernelSetup} {request : AgentTurnRequest} {begun iteration : Nat}
  {last : Option ModelRequest} {s : LoopState}
  {log : List KernelEvent} {usage : UsageAccumulator} {modelRequest : ModelRequest}
  {admits : ModelRequest → PreparedToolCall → Prop}

/-- The request is the one of the iteration after those begun, for the target the loop has reached. -/
structure IsNext (request : AgentTurnRequest) (begun : Nat) (s : LoopState)
    (modelRequest : ModelRequest) : Prop where
  requestId : modelRequest.requestId = requestIdOf request (begun + 1) s.requestOrdinal
  target : request.modelTargets[s.targetIndex]? = some modelRequest.targetId

theorem buildModelRequest_eq_ok {surface : ContextSurface} {ordinal targetIndex : Nat}
    {tools : List ToolDescriptor}
    (h : buildModelRequest request surface iteration ordinal targetIndex tools = .ok modelRequest) :
    modelRequest.requestId = requestIdOf request iteration ordinal ∧
      request.modelTargets[targetIndex]? = some modelRequest.targetId ∧ modelRequest.tools = tools := by
  simp only [buildModelRequest, ok_iff] at h
  obtain ⟨_, htarget, -, rfl⟩ := h
  exact ⟨rfl, htarget, rfl⟩

/-- The request of an ordinal the loop has not reached is not among those checked. -/
theorem Going.preflight_fresh (h : Going request begun last s log) {ordinal : Nat}
    (hlt : s.requestOrdinal < ordinal) :
    requestIdOf request iteration ordinal ∉ (preflightRequests log).map (·.requestId) := by
  intro hmem
  obtain ⟨checked, hchecked, hid⟩ := mem_map.mp hmem
  obtain ⟨_, _, _, hother⟩ := h.preflightIds checked hchecked
  have heq := (requestIdOf_inj (hother.symm.trans hid)).2
  omega

/-- The request of an iteration that was not begun is not among those the model was invoked with. -/
theorem Going.invoked_fresh (h : Going request begun last s log) {ordinal : Nat} (hlt : begun < iteration) :
    requestIdOf request iteration ordinal ∉ (invokedRequests log).map (·.requestId) := by
  intro hmem
  obtain ⟨invoked, hinvoked, hid⟩ := mem_map.mp hmem
  obtain ⟨_, _, _, hother⟩ := h.invokedIds invoked hinvoked
  have heq := (requestIdOf_inj (hother.symm.trans hid)).1
  omega

/-- The next request of the loop has been checked. -/
theorem Going.checked (h : Going request begun last s log)
    (hid : modelRequest.requestId = requestIdOf request iteration (s.requestOrdinal + 1)) :
    Going request begun last { s with requestOrdinal := s.requestOrdinal + 1 }
      (log ++ [⟨.preflight modelRequest, .ok ()⟩]) :=
  { h with
    unproposed := h.unproposed.concat rfl
    healthy := forall_mem_append.mpr ⟨h.healthy, by simp [kernelFails, fails]⟩
    invocations := by
      rw [invokedRequests_concat]
      simpa [invokedRequest?] using h.invocations
    invokedIds := by
      rw [invokedRequests_concat]
      simpa [invokedRequest?] using h.invokedIds
    preflightIds := by
      intro checked hchecked
      rw [preflightRequests_concat] at hchecked
      rcases mem_append.mp hchecked with hold | hnew
      · obtain ⟨iteration, ordinal, hle, heq⟩ := h.preflightIds checked hold
        exact ⟨iteration, ordinal, le_succ_of_le hle, heq⟩
      · have heq : checked = modelRequest := by simpa [preflightRequest?] using hnew
        exact ⟨iteration, s.requestOrdinal + 1, le_refl _, heq ▸ hid⟩
    tokens := by
      rw [accounted_concat]
      exact h.tokens
    withinTokens := by
      rw [accounted_concat]
      exact h.withinTokens
    asked := by
      rw [invokedRequests_concat]
      simpa [invokedRequest?] using h.asked
    forward := by
      rw [invokedRequests_concat]
      simpa [invokedRequest?] using h.forward
    positions := by
      rw [passedPositions_concat]
      simpa [passedPosition?] using h.positions }

theorem Going.prepareRequest (h : Going setup.request begun last s log) {surface : ContextSurface} :
    Keeps setup.request admits log (prepareRequest setup (begun + 1) s (s.requestOrdinal + 1) surface)
      fun log modelRequest ↦
        Going setup.request begun last { s with requestOrdinal := s.requestOrdinal + 1 } log ∧
        IsNext setup.request begun { s with requestOrdinal := s.requestOrdinal + 1 } modelRequest ∧
        modelRequest.tools = setup.toolDescriptors := by
  refine Keeps.bind (Q := fun after modelRequest ↦ log = after ∧ buildModelRequest setup.request
    surface (begun + 1) (s.requestOrdinal + 1) s.targetIndex setup.toolDescriptors = .ok modelRequest)
    (keeps_orLeave h.unproposed fun _ hbuilt ↦ ⟨rfl, hbuilt⟩) ?_
  rintro _ modelRequest ⟨rfl, hbuilt⟩
  obtain ⟨hid, htarget, htools⟩ := buildModelRequest_eq_ok hbuilt
  have hallowed : Allowed setup.request admits log (.preflight modelRequest) :=
    { unproposed := h.unproposed
      healthy := fun _ ↦ h.healthy
      invocation := nofun
      checked := by
        rintro _ ⟨⟩
        rw [hid]
        exact h.preflight_fresh (lt_succ_self _)
      rebuilds := nofun
      positions := nofun
      effects := nofun }
  refine Keeps.bind (Q := fun log answer ↦ Unproposed log ∧ (answer = .ok () →
      Going setup.request begun last { s with requestOrdinal := s.requestOrdinal + 1 } log))
    ⟨hallowed, fun answer ↦ ⟨h.unproposed.concat rfl, ?_⟩⟩ ?_
  · rintro rfl
    exact h.checked hid
  · rintro log answer ⟨hopen, hgoing⟩
    refine Keeps.bind (Q := fun log _ ↦
      Going setup.request begun last { s with requestOrdinal := s.requestOrdinal + 1 } log)
      (keeps_orLeave hopen fun _ hok ↦ hgoing hok) ?_
    intro log _ h
    exact (h.emitting rfl).bind fun log _ h ↦ keeps_pure ⟨h, ⟨hid, htarget⟩, htools⟩

/-- The model has been invoked with the next request. -/
theorem Going.invoked (h : Going request begun last s log) (hnext : IsNext request begun s modelRequest)
    (run : ModelRun) :
    Going request (begun + 1) (some modelRequest) s (log ++ [⟨.invokeModel modelRequest, run⟩]) :=
  { h with
    unproposed := h.unproposed.concat rfl
    healthy := forall_mem_append.mpr ⟨h.healthy, by simp [kernelFails, fails]⟩
    invocations := by
      have hinvocations := h.invocations
      rw [invokedRequests_concat]
      simp [invokedRequest?]
      omega
    invokedIds := by
      intro invoked hinvoked
      rw [invokedRequests_concat] at hinvoked
      rcases mem_append.mp hinvoked with hold | hnew
      · obtain ⟨iteration, hle, ordinal, heq⟩ := h.invokedIds invoked hold
        exact ⟨iteration, le_succ_of_le hle, ordinal, heq⟩
      · have heq : invoked = modelRequest := by simpa [invokedRequest?] using hnew
        exact ⟨begun + 1, le_refl _, s.requestOrdinal, heq ▸ hnext.requestId⟩
    preflightIds := by
      rw [preflightRequests_concat]
      simpa [preflightRequest?] using h.preflightIds
    tokens := by
      rw [accounted_concat]
      exact h.tokens
    withinTokens := by
      rw [accounted_concat]
      exact h.withinTokens
    asked := by
      rw [invokedRequests_concat]
      simp [invokedRequest?]
    forward := by
      obtain ⟨indexes, hsorted, hbound, hmatch⟩ := h.forward
      refine ⟨indexes ++ [s.targetIndex], ?_, ?_, ?_⟩
      · rw [pairwise_append]
        exact ⟨hsorted, pairwise_singleton _ _, by simpa using hbound⟩
      · exact forall_mem_append.mpr ⟨hbound, by simp⟩
      · rw [invokedRequests_concat]
        exact rel_append hmatch (.cons hnext.target .nil)
    positions := by
      rw [passedPositions_concat]
      simpa [passedPosition?] using h.positions }

theorem Going.allowed_invokeModel (h : Going request begun last s log)
    (hnext : IsNext request begun s modelRequest) (hbudget : begun < request.limits.maxIterations) :
    Allowed request admits log (.invokeModel modelRequest) where
  unproposed := h.unproposed
  healthy _ := h.healthy
  invocation := by
    rintro _ ⟨⟩
    have hinvocations := h.invocations
    refine ⟨by omega, ?_, h.withinTokens, ?_⟩
    · rw [hnext.requestId]
      exact h.invoked_fresh (lt_succ_self _)
    · obtain ⟨indexes, hsorted, -, hmatch⟩ := (h.invoked hnext (.returned (.error .invalidRequest))).forward
      rw [invokedRequests_concat] at hmatch
      exact ⟨indexes, hsorted, hmatch⟩
  checked := nofun
  rebuilds := nofun
  positions := nofun
  effects := nofun

/-- The observer of a run of the model: unless a forward failed, the log ends with the return of the
model and the loop was going until then. -/
theorem keeps_forward (run : ModelRun) {failed : Bool} (hopen : Unproposed log)
    (h : failed = false → Going request begun last s log) :
    Keeps request admits log (forward request run failed) fun log answer ↦ Unproposed log ∧
      (answer.2 = false → ∃ before, log = before ++ [⟨.modelReturned answer.1, ()⟩] ∧
        Going request begun last s before) := by
  induction run generalizing log failed with
  | returned result =>
    have hallowed : Allowed request admits log (.modelReturned result) :=
      { unproposed := hopen
        healthy := nofun
        invocation := nofun
        checked := nofun
        rebuilds := nofun
        positions := nofun
        effects := nofun }
    refine Keeps.bind (Q := fun after (_ : Unit) ↦ after = log ++ [⟨.modelReturned result, ()⟩])
      ⟨hallowed, fun u ↦ ?_⟩ ?_
    · cases u
      rfl
    · rintro _ _ rfl
      exact keeps_pure ⟨hopen.concat rfl, fun hfailed ↦ ⟨log, rfl, h hfailed⟩⟩
  | observed event next ih =>
    refine Keeps.bind (Q := fun log _ ↦ Unproposed log ∧ (failed = false → Going request begun last s log))
      ⟨hopen.allowed_idle {}, fun _ ↦ ⟨hopen.concat rfl, fun hfailed ↦ (h hfailed).idle {} rfl⟩⟩ ?_
    rintro log cancelled ⟨hopen, h⟩
    cases cancelled with
    | true => exact ih .cancel hopen h
    | false =>
      refine Keeps.bind (Q := fun log answer ↦ Unproposed log ∧
          (answer = .ok () → failed = false → Going request begun last s log))
        ⟨hopen.allowed_idle {}, fun answer ↦ ⟨hopen.concat rfl, ?_⟩⟩ ?_
      · rintro rfl hfailed
        exact (h hfailed).idle {} rfl
      · rintro log (_ | _) ⟨hopen, h⟩
        · exact ih .cancel hopen nofun
        · exact ih .proceed hopen (h rfl)

theorem Going.runModel (h : Going request begun last s log) (hnext : IsNext request begun s modelRequest)
    (hbudget : begun < request.limits.maxIterations) :
    Keeps request admits log (runModel request usage modelRequest) fun log outcome ↦
      ∃ before, log = before ++ [⟨.modelReturned (.ok outcome), ()⟩] ∧
        Going request (begun + 1) (some modelRequest) s before := by
  refine Keeps.bind (Q := fun log _ ↦ Going request (begun + 1) (some modelRequest) s log)
    ⟨h.allowed_invokeModel hnext hbudget, fun run ↦ h.invoked hnext run⟩ ?_
  intro log run h
  refine (keeps_forward run h.unproposed fun _ ↦ h).bind ?_
  rintro log ⟨_, observerFailed⟩ ⟨hopen, hreturned⟩
  refine Keeps.bind (Q := fun after _ ↦ log = after ∧ observerFailed = false)
    (keeps_leaveIf hopen fun hforwarded ↦ ⟨rfl, hforwarded⟩) ?_
  rintro _ _ ⟨rfl, hforwarded⟩
  refine keeps_orLeave hopen ?_
  rintro outcome rfl
  exact hreturned hforwarded

end Requests

/-! ## What follows an invocation -/

section Settling

variable {setup : KernelSetup} {request : AgentTurnRequest} {begun : Nat} {last : Option ModelRequest} {s : LoopState}
  {log : List KernelEvent} {outcome : InvokeOutcome}
  {admits : ModelRequest → PreparedToolCall → Prop}

section Returned

variable (h : Going request begun last s log)

include h

/-- The model has returned and its usage is accounted for. -/
theorem Going.returned (outcome : InvokeOutcome)
    (usage : UsageAccumulator)
    (htotal : usage.total = some (accounted request.recoveryPolicy.missingUsage log +
      outcome.charged request.recoveryPolicy.missingUsage))
    (hlimit : ∀ limit ∈ request.limits.maxTotalTokens,
      accounted request.recoveryPolicy.missingUsage log +
        outcome.charged request.recoveryPolicy.missingUsage ≤ limit) :
    Going request begun last { s with usage } (log ++ [⟨.modelReturned (.ok outcome), ()⟩]) :=
  { h with
    unproposed := h.unproposed.concat rfl
    healthy := forall_mem_append.mpr ⟨h.healthy, by simp [kernelFails, fails]⟩
    invocations := by
      rw [invokedRequests_concat]
      simpa [invokedRequest?] using h.invocations
    invokedIds := by
      rw [invokedRequests_concat]
      simpa [invokedRequest?] using h.invokedIds
    preflightIds := by
      rw [preflightRequests_concat]
      simpa [preflightRequest?] using h.preflightIds
    tokens := by
      rw [accounted_concat]
      exact htotal
    withinTokens := by
      rw [accounted_concat]
      exact hlimit
    asked := by
      rw [invokedRequests_concat]
      simpa [invokedRequest?] using h.asked
    forward := by
      rw [invokedRequests_concat]
      simpa [invokedRequest?] using h.forward
    positions := by
      rw [passedPositions_concat]
      simpa [passedPosition?] using h.positions }

/-- An outcome without usage leaves the accounting as it was. -/
theorem Going.returned_uncharged (outcome : InvokeOutcome)
    (hcharge : outcome.charged request.recoveryPolicy.missingUsage = 0) :
    Going request begun last s (log ++ [⟨.modelReturned (.ok outcome), ()⟩]) := by
  have hreturned := h.returned outcome s.usage
  rw [hcharge] at hreturned
  exact hreturned h.tokens h.withinTokens

theorem Going.account (outcome : InvokeOutcome)
    (hcharge : outcome.charged request.recoveryPolicy.missingUsage = modelUsage.charged request.recoveryPolicy.missingUsage) :
    Keeps request admits (log ++ [⟨.modelReturned (.ok outcome), ()⟩]) (account request s.usage modelUsage)
      fun log usage ↦ Going request begun last { s with usage } log := by
  have hopen : Unproposed (log ++ [⟨.modelReturned (.ok outcome), ()⟩]) := h.unproposed.concat rfl
  unfold Garive.account
  split
  · rename_i usage haccount
    obtain ⟨htotal, hlimit⟩ := accountOrLimit_eq_none h.tokens haccount
    rw [← hcharge] at htotal hlimit
    exact keeps_pure (h.returned outcome usage htotal hlimit)
  · exact keeps_leave hopen

/-- A later durable position. -/
theorem Going.advance {position : Nat} (hle : s.throughPosition ≤ position) :
    Going request begun last { s with throughPosition := position } log :=
  { h with positions := fun passed hpassed ↦ le_trans (h.positions passed hpassed) hle }

/-- The effect port may be asked while the loop is going. -/
theorem Going.allowed_effect {call : KernelCall} (hquiet : call.Quiet)
    (hposition : call.passedPosition? = none)
    (heffects : ∀ source prepared, call = .invoke source prepared → ∃ asked, last = some asked ∧
      asked.requestId = source ∧ admits asked prepared) : Allowed request admits log call where
  unproposed := h.unproposed
  healthy _ := h.healthy
  invocation invoked hinvoked := by simp [hquiet.invoked] at hinvoked
  checked checked hchecked := by simp [hquiet.preflight] at hchecked
  rebuilds contextRequest attempt hcall := by
    rw [hcall] at hposition
    cases hposition
  positions position hpassed := by simp [hposition] at hpassed
  effects := by
    rw [h.asked]
    exact heffects

end Returned

/-- Whatever the setup prepares for a request with its tools is admitted. -/
def Admits (setup : KernelSetup) (admits : ModelRequest → PreparedToolCall → Prop) : Prop :=
  ∀ asked intent prepared, asked.tools = setup.toolDescriptors → setup.prepare intent = .ok prepared →
    admits asked prepared

variable {asked : ModelRequest}

/-- An intent is handed to the effect port, and unless that ends the execution the loop is going. -/
theorem Going.governIntent (hadmits : Admits setup admits)
    (htools : asked.tools = setup.toolDescriptors) (h : Going request begun (some asked) s log)
    {intent : ToolIntent} :
    Keeps request admits log (governIntent setup asked.requestId intent) fun log committed ↦
      Unproposed log ∧ (committedEnds committed = false → Going request begun (some asked) s log) := by
  unfold Garive.governIntent
  split
  · rename_i prepared hprep
    refine ⟨h.allowed_effect {} rfl ?_, fun answer ↦ ⟨h.unproposed.concat rfl, fun hends ↦
      h.quiet {} nofun hends⟩⟩
    rintro _ _ ⟨⟩
    exact ⟨asked, rfl, rfl, hadmits asked intent prepared htools hprep⟩
  · exact ⟨h.allowed_effect {} rfl nofun, fun answer ↦ ⟨h.unproposed.concat rfl, fun hends ↦
      h.quiet {} nofun hends⟩⟩

variable {items : List ModelItem}

theorem Going.governToolIntents (hadmits : Admits setup admits)
    (htools : asked.tools = setup.toolDescriptors)
    (rest : List ModelItem) {position : Nat}
    (h : Going request begun (some asked) { s with throughPosition := position } log) :
    Keeps request admits log (governToolIntents setup asked.requestId usage items rest position)
      fun log position ↦ Going request begun (some asked) { s with throughPosition := position } log := by
  induction rest generalizing position log with
  | nil => exact keeps_pure h
  | cons item rest ih =>
    cases item with
    | toolIntent modelCallId toolName argumentsJson =>
      refine h.isCancelled.bind fun log cancelled h ↦ ?_
      refine Keeps.bind (Q := fun log _ ↦
        Going request begun (some asked) { s with throughPosition := position } log)
        (keeps_leaveIf h.unproposed fun _ ↦ h) fun log _ h ↦ ?_
      refine (h.governIntent hadmits htools).bind ?_
      rintro log answer ⟨hopen, hgoing⟩
      refine Keeps.bind (Q := fun after committed ↦ log = after ∧ answer = .ok committed)
        (keeps_orLeave hopen fun committed hcomd ↦ ⟨rfl, hcomd⟩) ?_
      rintro _ committed ⟨rfl, rfl⟩
      refine Keeps.bind (Q := fun after _ ↦ log = after ∧ position ≤ committed.throughPosition)
        (keeps_leaveIf hopen fun hback ↦ ⟨rfl, by simpa using hback⟩) ?_
      rintro _ _ ⟨rfl, hle⟩
      cases hres : committed.result with
      | observation =>
        have hnext := (hgoing (by simp [committedEnds, hres, GovernedToolResult.ends])).advance hle
        simpa [hres] using ih hnext
      | suspend requirement => simpa [hres] using keeps_leave hopen
      | fail code => simpa [hres] using keeps_leave hopen
    | text _ => exact ih h
    | refusal _ => exact ih h
    | reasoning _ => exact ih h
    | toolObservation _ _ => exact ih h
    | mediaReference _ _ => exact ih h

theorem Going.afterResponse (h : Going request begun last s log) :
    Keeps request admits log (afterResponse items s) fun log s ↦ Going request begun last s log := by
  have hallowed : Allowed request admits log (.advanceAfterModel s.throughPosition) :=
    { unproposed := h.unproposed
      healthy := nofun
      invocation := nofun
      checked := nofun
      rebuilds := nofun
      positions := by
        rintro _ ⟨⟩
        exact h.positions
      effects := nofun }
  refine Keeps.bind (Q := fun log answer ↦ Unproposed log ∧ ∀ advance, answer = .ok advance →
    Going request begun last s log) ⟨hallowed, fun answer ↦ ⟨h.unproposed.concat rfl, ?_⟩⟩ ?_
  · rintro advance rfl
    refine h.quiet {} ?_ rfl
    rintro _ ⟨⟩
    exact le_refl _
  · rintro log answer ⟨hopen, hgoing⟩
    refine Keeps.bind (Q := fun log _ ↦ Going request begun last s log) (keeps_orLeave hopen hgoing) ?_
    rintro log (_ | advance) h
    · exact keeps_leave h.unproposed
    · refine Keeps.bind (Q := fun after _ ↦ log = after ∧ s.throughPosition ≤ advance.throughPosition)
        (keeps_leaveIf h.unproposed fun hfwd ↦ ⟨rfl, ?_⟩) ?_
      · simp only [gt_iff_lt, Bool.not_eq_false', decide_eq_true_eq] at hfwd
        exact le_of_lt hfwd
      · rintro _ _ ⟨rfl, hle⟩
        exact keeps_pure (h.advance hle)

theorem Going.settleCompleted (hadmits : Admits setup admits)
    (htools : asked.tools = setup.toolDescriptors) {stopReason : ModelStopReason}
    (h : Going setup.request begun (some asked) s log) : Keeps setup.request admits
      (log ++ [⟨.modelReturned (.ok (.completed items modelUsage stopReason)), ()⟩])
      (settleCompleted setup s asked.requestId items modelUsage) fun log s ↦
        Going setup.request begun (some asked) s log := by
  refine (h.account (.completed items modelUsage stopReason) rfl).bind fun log usage h ↦ ?_
  refine Keeps.bind (Q := fun log _ ↦ Going setup.request begun (some asked) { s with usage } log)
    (keeps_leaveIf h.unproposed fun _ ↦ h) fun log _ h ↦ ?_
  split
  · refine Keeps.bind (Q := fun log _ ↦ Going setup.request begun (some asked) { s with usage } log)
      (keeps_leaveIf h.unproposed fun _ ↦ h) fun log _ h ↦ ?_
    exact (Going.governToolIntents (s := { s with usage }) hadmits htools items h).bind
      fun log position h ↦ keeps_pure h
  · exact h.afterResponse

variable {partialItems : List ModelItem}

theorem Going.settleOutputLimit (h : Going request begun last s log) :
    Keeps request admits log (settleOutputLimit request s partialItems) fun log s ↦
      Going request begun last s log := by
  have hopen := h.unproposed
  unfold Garive.settleOutputLimit
  split
  · split
    · exact keeps_leave hopen
    · exact keeps_leave hopen
  · split
    · exact keeps_pure { h with }
    · exact keeps_leave hopen
  · exact keeps_leave hopen
  · exact keeps_leave hopen
  · exact keeps_leave hopen

theorem Going.settleInterrupted {kind : InterruptionKind} (h : Going request begun last s log) :
    Keeps request admits (log ++ [⟨.modelReturned (.ok (.interrupted kind partialItems modelUsage)), ()⟩])
      (settleInterrupted request s kind partialItems modelUsage) fun log s ↦
        Going request begun last s log := by
  refine (h.account (.interrupted kind partialItems modelUsage) rfl).bind
    fun log usage h ↦ ?_
  cases kind with
  | cancelled => exact keeps_leave h.unproposed
  | outputLimit => exact h.settleOutputLimit
  | transport => exact keeps_leave h.unproposed

/-- Whatever the model returned, the loop is going in the state of the next iteration. -/
theorem Going.settle (hadmits : Admits setup admits) (htools : asked.tools = setup.toolDescriptors)
    (h : Going setup.request begun (some asked) s log) (outcome : InvokeOutcome) :
    Keeps setup.request admits (log ++ [⟨.modelReturned (.ok outcome), ()⟩])
      (settle setup s asked.requestId outcome) fun log s ↦
        Going setup.request begun (some asked) s log := by
  cases outcome with
  | completed items modelUsage stopReason => exact h.settleCompleted hadmits htools
  | rejected kind evidence =>
    have hreturned := h.returned_uncharged (.rejected kind evidence) rfl
    cases kind with
    | contextOverflow =>
      rw [Garive.settle]
      split
      · rename_i hlt
        exact keeps_pure { hreturned with rebuilds := hlt }
      · exact keeps_leave hreturned.unproposed
    | authentication => exact keeps_leave hreturned.unproposed
    | contentPolicy => exact keeps_leave hreturned.unproposed
  | interrupted kind partialItems modelUsage => exact h.settleInterrupted
  | unavailable kind retryAfter =>
    have hreturned := h.returned_uncharged (.unavailable kind retryAfter) rfl
    rw [Garive.settle]
    split
    · rename_i hnext
      refine keeps_pure { hreturned with target := hnext.2, forward := ?_ }
      obtain ⟨indexes, hsorted, hbound, hmatch⟩ := hreturned.forward
      exact ⟨indexes, hsorted, fun index hidx ↦ le_succ_of_le (hbound index hidx), hmatch⟩
    · exact keeps_leave hreturned.unproposed

/-- One iteration: the loop is going in the next one, or an outcome is about to be proposed. -/
theorem Going.iterate (hadmits : Admits setup admits) (h : Going setup.request begun last s log)
    (hbudget : begun < setup.request.limits.maxIterations) :
    Keeps setup.request admits log (iterate setup (begun + 1) s) fun log s ↦
      ∃ asked, Going setup.request (begun + 1) (some asked) s log := by
  refine (h.emitting rfl).bind fun log _ h ↦ ?_
  refine h.readSurface.bind fun log surface h ↦ ?_
  refine (h.emitting rfl).bind fun log _ h ↦ ?_
  refine h.isCancelled.bind fun log cancelled h ↦ ?_
  refine Keeps.bind (Q := fun log _ ↦ Going setup.request begun last s log)
    (keeps_leaveIf h.unproposed fun _ ↦ h) fun log _ h ↦ ?_
  refine Keeps.bind (Q := fun after ordinal ↦ log = after ∧ ordinal = s.requestOrdinal + 1)
    (keeps_orLeave h.unproposed fun ordinal hord ↦ ⟨rfl, ?_⟩) ?_
  · unfold nextOrdinal at hord
    split at hord
    · exact (Except.ok.inj hord).symm
    · cases hord
  · rintro _ _ ⟨rfl, rfl⟩
    refine h.prepareRequest.bind ?_
    rintro log modelRequest ⟨h, hnext, htools⟩
    refine (h.runModel hnext hbudget).bind ?_
    rintro _ outcome ⟨_, rfl, h⟩
    exact EnsuresOr.mono (h.settle hadmits htools outcome) fun log s h ↦ ⟨modelRequest, h⟩

end Settling

/-! ## The loop -/

section Loop

variable {setup : KernelSetup} {control : ExecutionControl} {s : LoopState} {log : List KernelEvent}
  {admits : ModelRequest → PreparedToolCall → Prop}

/-- The proposal is the last call. -/
theorem ensures_finish
    (h : Unproposed log) : Ensures (I := kernelPorts) (Allowed request admits) log
      (finish request control usage outcome) fun _ _ ↦ True := by
  refine ⟨?_, fun answer ↦ ?_⟩
  · exact
      { unproposed := h
        healthy := nofun
        invocation := nofun
        checked := nofun
        rebuilds := nofun
        positions := nofun
        effects := nofun }
  · rcases answer with _ | _ <;> exact trivial

/-- A part of the execution, and what follows it or proposes the outcome it leaves with. -/
theorem Keeps.ensures {α : Type} {part : Kernel α}
    {next : Except (AgentOutcome × UsageAccumulator) α → Program kernelPorts ExecutionReport}
    {Q : List KernelEvent → α → Prop} (hpart : Keeps request admits log part Q)
    (hok : ∀ log a, Q log a → Ensures (I := kernelPorts) (Allowed request admits) log (next (.ok a))
      fun _ _ ↦ True)
    (herror : ∀ log exit, Unproposed log → Ensures (I := kernelPorts) (Allowed request admits) log
      (next (.error exit)) fun _ _ ↦ True) :
    Ensures (I := kernelPorts) (Allowed request admits) log (part.run >>= next) fun _ _ ↦ True := by
  refine Ensures.bind hpart ?_
  rintro log (exit | a) h
  · exact herror log exit h
  · exact hok log a h

/-- The whole loop, from any state it is going in. -/
theorem ensures_kernelLoop (hadmits : Admits setup admits) (control : ExecutionControl)
    (last : Option ModelRequest) (s : LoopState) (log : List KernelEvent)
    (hmax : control.maxIterations = setup.request.limits.maxIterations)
    (h : Going setup.request control.completedIterations last s log) :
    Ensures (I := kernelPorts) (Allowed setup.request admits) log (kernelLoop setup control s)
      fun _ _ ↦ True := by
  rw [kernelLoop]
  refine h.checkBoundary.ensures (fun log _ h ↦ ?_) fun log exit hopen ↦ ensures_finish hopen
  dsimp only
  split
  · exact ensures_finish h.unproposed
  · exact ensures_finish h.unproposed
  · rename_i iteration next hbegin
    obtain ⟨rfl, hcomp, hlimit⟩ := ExecutionControl.beginIteration_eq_started hbegin
    have hwithin := next.within
    have hbudget : control.completedIterations < setup.request.limits.maxIterations := by omega
    refine (h.iterate hadmits hbudget).ensures (fun log s h ↦ ?_) fun log exit hopen ↦ ensures_finish hopen
    obtain ⟨asked, h⟩ := h
    exact ensures_kernelLoop hadmits next (some asked) s log (hlimit.trans hmax) (hcomp ▸ h)
termination_by control.maxIterations - control.completedIterations

theorem initial_total : initial.total = some 0 := by
  simp [total, initial, checkedAdd]

/-- The loop is going when it starts. -/
theorem going_initial (h : request.modelTargets ≠ []) :
    Going request request.cursor.completedIterations none (LoopState.initial request) [] where
  unproposed := unproposed_nil
  healthy := by simp
  invocations := by simp [invokedRequests]
  invokedIds := by simp [invokedRequests]
  preflightIds := by simp [preflightRequests]
  tokens := initial_total
  withinTokens limit _ := zero_le limit
  rebuilds := zero_le _
  target := length_pos_iff.mpr h
  asked := rfl
  forward := ⟨[], List.Pairwise.nil, by simp, .nil⟩
  positions := by simp [passedPositions]

theorem prepareControl_eq_ok (h : prepareControl request = .ok control) :
    request.modelTargets ≠ [] ∧ control.maxIterations = request.limits.maxIterations ∧
      control.completedIterations = request.cursor.completedIterations := by
  simp only [prepareControl, AgentTurnRequest.validate, ExecutionControl.new, ok_iff] at h
  obtain ⟨⟨-, -, htargets, -⟩, hctrl⟩ := h
  split at hctrl
  · cases hctrl
  · obtain ⟨⟩ := hctrl
    exact ⟨htargets, rfl, rfl⟩

theorem setup_request {lib : Preparing} {definitions : List ToolDefinition}
    {preparation : Option (ToolIntent → Except PreparationError PreparedToolCall)} {effects : Bool}
    (h : KernelSetup.new lib request definitions preparation effects = .ok setup) :
    setup.request = request := by
  simp only [KernelSetup.new, ok_iff] at h
  obtain ⟨-, -, -, -, rfl⟩ := h
  rfl

theorem ensures_executeKernel (admits : ModelRequest → PreparedToolCall → Prop) (lib : Preparing)
    (request : AgentTurnRequest)
    (definitions : List ToolDefinition)
    (preparation : Option (ToolIntent → Except PreparationError PreparedToolCall)) (effects : Bool)
    (hadmits : ∀ setup, KernelSetup.new lib request definitions preparation effects = .ok setup →
      Admits setup admits) :
    Ensures (I := kernelPorts) (Allowed request admits) []
      (executeKernel lib request definitions preparation effects) fun _ _ ↦ True := by
  unfold executeKernel
  split
  · exact trivial
  · rename_i control hctrl
    obtain ⟨htargets, hmax, hcomp⟩ := prepareControl_eq_ok hctrl
    split
    · exact ensures_finish unproposed_nil
    · rename_i setup hsetup
      obtain rfl := setup_request hsetup
      refine ((going_initial htargets).emitting (by rfl)).ensures (fun log _ h ↦ ?_)
        fun log exit hopen ↦ ensures_finish hopen
      exact ensures_kernelLoop (hadmits setup hsetup) control _ _ log hmax (hcomp ▸ h)

end Loop

end Garive
