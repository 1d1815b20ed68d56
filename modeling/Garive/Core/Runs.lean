import Garive.Core.Loop

/-!
# Some runs of an execution

A request is runnable if its first model request can be built. A runnable request has a run in which
the model answers with one tool call, and whatever a preparation port makes of it reaches the effect
port.
-/

namespace Garive

open Program

section Setup

variable {lib : Preparing} {request : AgentTurnRequest} {definitions : List ToolDefinition}
  {preparation : Option (ToolIntent → Except PreparationError PreparedToolCall)} {effects : Bool}
  {setup : KernelSetup}

theorem setup_eq_ok (h : KernelSetup.new lib request definitions preparation effects = .ok setup) :
    ToolCatalog.new definitions = .ok setup.catalog ∧
      definitions.map (toolDescriptor lib) = setup.toolDescriptors.map .ok ∧ setup.lib = lib ∧
      setup.preparation = preparation := by
  simp only [KernelSetup.new, ok_iff, collect_eq_ok_iff] at h
  obtain ⟨catalog, hcatalog, _, hdescs, rfl⟩ := h
  exact ⟨hcatalog, hdescs, rfl, rfl⟩

end Setup

/-- The request can be run up to its first model request: it is valid, an iteration is left, the
deadline does not lie at the start of time, the tools can be set up, and some candidates make up a
request that validates. -/
structure Runnable (lib : Preparing) (request : AgentTurnRequest) (definitions : List ToolDefinition) :
    Prop where
  control : ∃ control, prepareControl request = .ok control
  iterations : request.cursor.completedIterations < request.limits.maxIterations
  deadline : request.limits.deadlineTick ≠ some 0
  asked : ∃ catalog descriptors candidates surface modelRequest,
    ToolCatalog.new definitions = .ok catalog ∧
    definitions.map (toolDescriptor lib) = descriptors.map .ok ∧
    surfaceOf request ((LoopState.initial request).contextRequest request) candidates = .ok surface ∧
    buildModelRequest request surface (request.cursor.completedIterations + 1) 1 0 descriptors =
      .ok modelRequest

/-- Usage of no tokens. -/
def noUsage : ModelUsage :=
  { inputTokens := .known 0, outputTokens := .known 0, cacheReadTokens := none,
    cacheWriteTokens := none, source := .providerReported }

/-- A response that proposes one tool call. -/
def intentResponse (intent : ToolIntent) : InvokeOutcome :=
  .completed [.toolIntent intent.modelCallId intent.toolName intent.argumentsJson] noUsage .toolUse

section Run

variable {setup : KernelSetup} {request : AgentTurnRequest} {usage : UsageAccumulator} {s : LoopState}

theorem goes_leaveIf {outcome : AgentOutcome} : Goes (Kernel.leaveIf false usage outcome) () :=
  goes_pure ()

theorem goes_orLeave {ε α : Type} {a : α} {outcome : ε → AgentOutcome} :
    Goes (Kernel.orLeave (.ok a) usage outcome) a := goes_pure a

theorem goes_emitting (kind : AgentEventKind) : Goes (emitting request usage kind) () :=
  (goes_ask (I := kernelPorts) (.emit (agentEvent request kind)) (.ok ())).bind goes_orLeave

theorem goes_isCancelled : Goes Kernel.isCancelled false :=
  goes_ask (I := kernelPorts) .isCancelled false

theorem goes_checkBoundary (h : request.limits.deadlineTick ≠ some 0) :
    Goes (checkBoundary request usage) () := by
  refine goes_isCancelled.bind (goes_leaveIf.bind ?_)
  refine Goes.bind (a := false) ?_ goes_leaveIf
  unfold deadlineReached
  split
  · exact goes_pure false
  · rename_i deadline hdeadline
    have hpos : ¬0 ≥ deadline := by
      intro hle
      exact h (by rw [hdeadline, Nat.le_zero.mp hle])
    refine (goes_ask (I := kernelPorts) .nowTick (.ok 0)).bind (goes_orLeave.bind ?_)
    have hreached : decide (0 ≥ deadline) = false := decide_eq_false hpos
    rw [hreached]
    exact goes_pure false

variable {candidates : List ContextCandidate} {surface : ContextSurface}

theorem goes_readSurface (h : surfaceOf request (s.contextRequest request) candidates = .ok surface) :
    Goes (readSurface request s) surface := by
  refine (goes_ask (I := kernelPorts) (.readCandidates (s.contextRequest request) s.rebuildAttempt)
    (.ok candidates)).bind (goes_orLeave.bind ?_)
  rw [h]
  exact goes_orLeave

variable {modelRequest : ModelRequest} {iteration : Nat}

theorem goes_prepareRequest {ordinal : Nat}
    (h : buildModelRequest setup.request surface iteration ordinal s.targetIndex setup.toolDescriptors = .ok modelRequest) :
    Goes (prepareRequest setup iteration s ordinal surface) modelRequest := by
  unfold prepareRequest
  rw [h]
  refine goes_orLeave.bind ?_
  refine (goes_ask (I := kernelPorts) (.preflight modelRequest) (.ok ())).bind ?_
  exact goes_orLeave.bind ((goes_emitting _).bind (goes_pure modelRequest))

theorem goes_runModel (modelRequest : ModelRequest) (outcome : InvokeOutcome) :
    Goes (runModel request usage modelRequest) outcome := by
  refine (goes_ask (I := kernelPorts) (.invokeModel modelRequest) (.returned (.ok outcome))).bind ?_
  refine Goes.bind (a := (.ok outcome, false)) ?_ (goes_leaveIf.bind goes_orLeave)
  exact (goes_ask (I := kernelPorts) (.modelReturned (.ok outcome)) ()).bind (goes_pure _)

theorem goes_account : Goes (account request .initial noUsage) .initial := by
  have haccount : accountOrLimit .initial noUsage request.recoveryPolicy
      request.limits.maxTotalTokens = (.initial, none) := by
    simp [accountOrLimit, UsageAccumulator.add, UsageAccumulator.initial, noUsage, accumulate,
      checkedAdd, UsageAccumulator.total]
  unfold account
  rw [haccount]
  exact goes_pure _

variable {prepared : PreparedToolCall} {intent : ToolIntent}

/-- A response with one intent the port prepares makes the kernel invoke the prepared call. -/
theorem makes_settle (source : String) (heffects : setup.effects)
    (hprepare : setup.prepare intent = .ok prepared) (husage : s.usage = .initial)
    (answer : Except PortFailure CommittedGovernedResult) :
    Makes (settle setup s source (intentResponse intent)).run ⟨.invoke source prepared, answer⟩ := by
  rw [intentResponse, settle, settleCompleted, husage]
  refine goes_account.makes_bind (goes_leaveIf.makes_bind ?_)
  rw [heffects]
  refine goes_leaveIf.makes_bind ?_
  rw [ExceptT.run_bind]
  refine Makes.bind ?_ _
  refine goes_isCancelled.makes_bind (goes_leaveIf.makes_bind ?_)
  rw [governIntent, hprepare, ExceptT.run_bind]
  exact (makes_call (I := kernelPorts) (c := .invoke source prepared) answer).bind _

theorem makes_iterate
    (hsurface : surfaceOf setup.request (s.contextRequest setup.request) candidates = .ok surface)
    (hord : s.requestOrdinal = 0)
    (hbuilt : buildModelRequest setup.request surface iteration 1 s.targetIndex setup.toolDescriptors = .ok modelRequest)
    (heffects : setup.effects) (hprepare : setup.prepare intent = .ok prepared)
    (husage : s.usage = .initial) (answer : Except PortFailure CommittedGovernedResult) :
    Makes (iterate setup iteration s).run ⟨.invoke modelRequest.requestId prepared, answer⟩ := by
  refine (goes_emitting _).makes_bind ((goes_readSurface hsurface).makes_bind ?_)
  refine (goes_emitting _).makes_bind (goes_isCancelled.makes_bind (goes_leaveIf.makes_bind ?_))
  rw [hord]
  refine Goes.makes_bind (a := 1) goes_orLeave ?_
  refine (goes_prepareRequest hbuilt).makes_bind ((goes_runModel modelRequest (intentResponse intent)).makes_bind ?_)
  exact makes_settle (s := { s with requestOrdinal := 1 }) _ heffects hprepare husage answer

theorem beginIteration_of_prepareControl {control : ExecutionControl}
    (h : prepareControl request = .ok control)
    (hlt : request.cursor.completedIterations < request.limits.maxIterations) :
    ∃ next, control.beginIteration = .ok (.started (request.cursor.completedIterations + 1), next) := by
  simp only [prepareControl, ExecutionControl.new, ok_iff] at h
  obtain ⟨-, hctrl⟩ := h
  split at hctrl
  · cases hctrl
  · obtain ⟨⟩ := hctrl
    unfold ExecutionControl.beginIteration
    dsimp only
    rw [dif_neg (Nat.ne_of_lt hlt)]
    exact ⟨_, rfl⟩

/-- Whatever a preparation port prepares, some run of a runnable request invokes. -/
theorem makes_executeKernel {lib : Preparing} {definitions : List ToolDefinition}
    (hrunnable : Runnable lib request definitions)
    {port : ToolIntent → Except PreparationError PreparedToolCall}
    (hprepare : port intent = .ok prepared) (answer : Except PortFailure CommittedGovernedResult) :
    ∃ source, Makes (executeKernel lib request definitions (some port) true)
      ⟨.invoke source prepared, answer⟩ := by
  obtain ⟨control, hctrl⟩ := hrunnable.control
  obtain ⟨catalog, descriptors, _, _, modelRequest, hcatalog, hdescs, hsurface,
    hbuilt⟩ := hrunnable.asked
  obtain ⟨-, _, _⟩ := prepareControl_eq_ok hctrl
  have hsetup : KernelSetup.new lib request definitions (some port) true =
      .ok ⟨request, lib, catalog, descriptors, some port, true⟩ := by
    simp only [KernelSetup.new, hcatalog, collect_eq_ok_iff.mpr hdescs, Except.mapError, ok_bind,
      pure_eq_ok]
  refine ⟨modelRequest.requestId, ?_⟩
  rw [executeKernel, hctrl]
  dsimp only
  rw [hsetup]
  refine Returns.makes_bind (goes_emitting _) ?_
  dsimp only
  rw [kernelLoop]
  refine Returns.makes_bind (goes_checkBoundary hrunnable.deadline) ?_
  dsimp only
  obtain ⟨_, hbegin⟩ := beginIteration_of_prepareControl hctrl hrunnable.iterations
  split
  · rename_i hother
    rw [hbegin] at hother
    cases hother
  · rename_i hother
    rw [hbegin] at hother
    cases hother
  · rename_i hother
    rw [hbegin] at hother
    obtain ⟨⟨⟩, ⟨⟩⟩ := hother
    have hprep : KernelSetup.prepare ⟨request, lib, catalog, descriptors, some port, true⟩ intent =
      .ok prepared := hprepare
    exact (makes_iterate hsurface rfl hbuilt rfl hprep rfl answer).bind _

end Run

/-! ## A runnable request -/

/-- A fresh turn of one iteration, with the skills it activates. -/
def soleIteration (activatedSkills : List ActivatedSkill) : AgentTurnRequest where
  sessionId := ⟨"kernel-session", by simp⟩
  turnId := ⟨"kernel-turn", by simp⟩
  executionId := ⟨"kernel-execution", by simp⟩
  entry := .start "hello"
  cursor := { completedIterations := 0, lastDurablePosition := 0 }
  contextRequest :=
    { sessionId := "kernel-session", turnId := "kernel-turn", purpose := .inference,
      afterPosition := none, throughPosition := 1, maxItems := 1, maxUtf8Bytes := 1 }
  activatedSkills
  capabilityContextCandidates := []
  modelTargets := ["model"]
  requiredCapabilities := []
  modelOutput := { maxOutputTokens := none, textMode := .plain, reasoningVisibility := false }
  recoveryPolicy :=
    { maxContextRebuilds := 0, outputLimit := .stop, transport := .stop, unavailable := .stop,
      missingUsage := .stop }
  limits := { maxIterations := 1, maxTotalTokens := none, deadlineTick := none }

/-- A tool of the first contract version that asks for nothing. -/
def plainTool (name : String) (h : name ≠ "") : ToolDefinition where
  name := name
  revision := "1"
  description := "does as it is named"
  inputSchema := .null
  requirements := { capabilities := [], maxDurationMs := 1, maxOutputBytes := 1 }
  replayClass := .readOnly
  accessContract := none
  name_ne_empty := h
  revision_ne_empty := by simp

def readTool : ToolDefinition := plainTool "read" (by simp)

def writeTool : ToolDefinition := plainTool "write" (by simp)

/-- A port that prepares every intent as the same call of the read tool. -/
def readPort (_ : ToolIntent) : Except PreparationError PreparedToolCall :=
  .ok { modelCallId := "call", toolName := "read", toolRevision := "1", normalizedArguments := "null",
        inputDigest := "digest", requirements := readTool.requirements, replayClass := .readOnly,
        contractVersion := 1, invocationAccesses := none, maxResultBytes := none }

theorem runnable_soleIteration (skills : List ActivatedSkill) :
    Runnable lenientPreparing (soleIteration skills) [readTool] where
  control := ⟨_, rfl⟩
  iterations := Nat.zero_lt_one
  deadline := nofun
  asked := by
    have hsurface : surfaceOf (soleIteration skills) ((LoopState.initial
        (soleIteration skills)).contextRequest (soleIteration skills)) [] =
        .ok { purpose := .inference, fromPosition := 1, throughPosition := 1, items := [],
              retainedRefs := [], droppedRefs := [], filteredRefs := [], itemCount := 0,
              utf8Bytes := 0 } := by
      simp [surfaceOf, mergeContextCandidates, validateStreamOrder, mergeOrdered, deriveContext,
        soleIteration, LoopState.contextRequest, LoopState.initial, checkedAdd, filterCandidates]
    have hdescs : [readTool].map (toolDescriptor lenientPreparing) =
        [⟨"read", "does as it is named", "1", "true", true⟩].map .ok := rfl
    have hbuilt : ∃ modelRequest, buildModelRequest (soleIteration skills)
        { purpose := .inference, fromPosition := 1, throughPosition := 1, items := [],
          retainedRefs := [], droppedRefs := [], filteredRefs := [], itemCount := 0, utf8Bytes := 0 }
        1 1 0 [⟨"read", "does as it is named", "1", "true", true⟩] = .ok modelRequest :=
      ⟨_, rfl⟩
    obtain ⟨modelRequest, hbuilt⟩ := hbuilt
    exact ⟨_, _, [], _, modelRequest, rfl, hdescs, hsurface, hbuilt⟩

end Garive
