import Garive.Core.Runs

/-!
# Tools narrowed by skills

Activated skills narrow the definitions an execution is run with: those some skill allows by name
and exact revision. The narrowed definitions are advertised to the model and make up the catalogue.
An intent, though, is prepared by the catalogue only when there is no preparation port; with one,
the port decides, and the kernel does not look at what it answers.
-/

namespace Garive

open Program ToolCatalog

/-- The definitions an execution is run with. -/
def narrowedDefinitions (request : AgentTurnRequest) (definitions : List ToolDefinition) :
    List ToolDefinition :=
  if request.activatedSkills.isEmpty then definitions
  else
    let allowed := request.activatedSkills.flatMap ActivatedSkill.allowedToolReferences
    definitions.filter fun definition ↦ allowed.any fun reference ↦
      reference.name = definition.name ∧ reference.exactRevision = definition.revision

def executeAgentInner (lib : Preparing) (request : AgentTurnRequest) (definitions : List ToolDefinition)
    (preparation : Option (ToolIntent → Except PreparationError PreparedToolCall)) :
    Program kernelPorts ExecutionReport :=
  executeKernel lib request (narrowedDefinitions request definitions) preparation true

/-- Runs the tool-capable agent loop. -/
def executeAgent (lib : Preparing) (request : AgentTurnRequest) (definitions : List ToolDefinition) :
    Program kernelPorts ExecutionReport :=
  executeAgentInner lib request definitions none

/-- Runs the tool-capable agent loop with an explicit preparation port. -/
def executeAgentWithPreparation (lib : Preparing) (request : AgentTurnRequest)
    (definitions : List ToolDefinition)
    (preparation : ToolIntent → Except PreparationError PreparedToolCall) :
    Program kernelPorts ExecutionReport :=
  executeAgentInner lib request definitions (some preparation)

/-! ## Enforcement -/

/-- The request shows the model the tool of the prepared call, in its revision. -/
def Advertises (asked : ModelRequest) (prepared : PreparedToolCall) : Prop :=
  ∃ descriptor ∈ asked.tools, descriptor.name = prepared.toolName ∧
    descriptor.definitionRevision = prepared.toolRevision

/-- Every call the effect port is asked to invoke is of one of the definitions, and was advertised by
the request the model was asked last. -/
def Enforces (definitions : List ToolDefinition) (log : List KernelEvent) : Prop :=
  AtEach (I := kernelPorts) (fun before call ↦ ∀ source prepared,
    call = KernelCall.invoke source prepared → prepared.IsOf definitions ∧
      ∃ asked, (invokedRequests before).getLast? = some asked ∧ asked.requestId = source ∧
        Advertises asked prepared) log

section Setup

variable {lib : Preparing} {request : AgentTurnRequest} {definitions : List ToolDefinition}
  {preparation : Option (ToolIntent → Except PreparationError PreparedToolCall)} {effects : Bool}
  {setup : KernelSetup}

/-- A call of one of the definitions is advertised. -/
theorem advertises_of_isOf {prepared : PreparedToolCall} {asked : ModelRequest}
    (hsetup : KernelSetup.new lib request definitions preparation effects = .ok setup)
    (htools : asked.tools = setup.toolDescriptors) (h : prepared.IsOf definitions) :
    Advertises asked prepared := by
  obtain ⟨definition, hmem, hname, hrev⟩ := h
  have hshown : toolDescriptor lib definition ∈ setup.toolDescriptors.map .ok := by
    rw [← (setup_eq_ok hsetup).2.1]
    exact List.mem_map_of_mem hmem
  obtain ⟨_, hdescriptor, heq⟩ := List.mem_map.mp hshown
  have hbuilt := heq.symm
  simp only [toolDescriptor, ok_iff] at hbuilt
  obtain ⟨_, -, rfl⟩ := hbuilt
  exact ⟨_, htools ▸ hdescriptor, hname, hrev⟩

end Setup

section Enforced

variable {lib : Preparing} {request : AgentTurnRequest} {definitions : List ToolDefinition}
  {log : List KernelEvent}

/-- If all that is prepared is of the definitions an execution is run with, so is all that is
invoked. -/
theorem enforces_of_prepared
    {preparation : Option (ToolIntent → Except PreparationError PreparedToolCall)} {effects : Bool}
    (hprep : ∀ setup, KernelSetup.new lib request definitions preparation effects = .ok setup →
      ∀ intent prepared, setup.prepare intent = .ok prepared → prepared.IsOf definitions)
    (h : Possible (executeKernel lib request definitions preparation effects) log) :
    Enforces definitions log := by
  have hensures := ensures_executeKernel
    (fun asked prepared ↦ prepared.IsOf definitions ∧ Advertises asked prepared) lib request
    definitions preparation effects (fun setup hsetup asked intent prepared htools hprepare ↦
      have hisOf := hprep setup hsetup intent prepared hprepare
      ⟨hisOf, advertises_of_isOf hsetup htools hisOf⟩)
  refine (atEach_of_ensures hensures h).mono fun before call hallowed source prepared hcall ↦ ?_
  obtain ⟨asked, hasked, hsource, hisOf, hadvertises⟩ := hallowed.effects source prepared hcall
  exact ⟨hisOf, asked, hasked, hsource, hadvertises⟩

/-- Without a preparation port the narrowing is enforced. -/
theorem enforces_of_catalogue (h : Possible (executeAgent lib request definitions) log) :
    Enforces (narrowedDefinitions request definitions) log := by
  refine enforces_of_prepared (fun setup hsetup intent prepared hprepare ↦ ?_) h
  obtain ⟨hcatalog, -, -, hpreparation⟩ := setup_eq_ok hsetup
  rw [KernelSetup.prepare, hpreparation] at hprepare
  exact isOf_of_prepare hcatalog hprepare

end Enforced

/-! ## Requests that cannot be run -/

/-- The effect port is invoked only if the condition holds. -/
def OnlyIf (condition : Prop) (_ : List KernelEvent) (call : KernelCall) : Prop :=
  ∀ source prepared, call = .invoke source prepared → condition

/-- The part invokes the effect port only if the condition holds; its result meets the
postcondition. -/
def Reaching {α : Type} (condition : Prop) (log : List KernelEvent) (part : Kernel α)
    (post : α → Prop) : Prop :=
  EnsuresOr (I := kernelPorts) (OnlyIf condition) log part (fun _ a ↦ post a) fun _ _ ↦ True

section Reaching

variable {α β : Type} {condition : Prop} {request : AgentTurnRequest} {usage : UsageAccumulator}
  {log : List KernelEvent} {s : LoopState}

theorem Reaching.bind {part : Kernel α} {next : α → Kernel β} {Q : α → Prop} {post : β → Prop}
    (hpart : Reaching condition log part Q)
    (hnext : ∀ log a, Q a → Reaching condition log (next a) post) :
    Reaching condition log (part >>= next) post :=
  EnsuresOr.bind hpart hnext

/-- Under the condition anything may be done. -/
theorem reaching_of (h : condition) (part : Kernel α) : Reaching condition log part fun _ ↦ condition := by
  refine Ensures.mono (ensures_of_forall (fun _ _ _ _ _ ↦ h) part.run) ?_
  rintro log (_ | _) _
  · trivial
  · exact h

theorem reaching_leaveIf {condition' : Bool} {outcome : AgentOutcome} :
    Reaching condition log (Kernel.leaveIf condition' usage outcome) fun _ ↦ condition' = false := by
  cases condition' with
  | true => trivial
  | false => rfl

theorem reaching_orLeave {ε : Type} {answer : Except ε α} {outcome : ε → AgentOutcome} :
    Reaching condition log (Kernel.orLeave answer usage outcome) fun a ↦ answer = .ok a := by
  cases answer with
  | error e => trivial
  | ok a => rfl

theorem reaching_isCancelled : Reaching condition log Kernel.isCancelled fun _ ↦ True :=
  ⟨nofun, fun _ ↦ trivial⟩

theorem reaching_emitting (kind : AgentEventKind) :
    Reaching condition log (emitting request usage kind) fun _ ↦ True := by
  refine Reaching.bind (Q := fun _ ↦ True) ⟨nofun, fun _ ↦ trivial⟩ fun log answer _ ↦ ?_
  exact EnsuresOr.mono reaching_orLeave fun _ _ _ ↦ trivial

/-- A boundary that is passed lies before the deadline. -/
theorem reaching_checkBoundary :
    Reaching condition log (checkBoundary request usage) fun _ ↦ request.limits.deadlineTick ≠ some 0 := by
  refine reaching_isCancelled.bind fun log cancelled _ ↦ ?_
  refine reaching_leaveIf.bind fun log _ _ ↦ ?_
  refine Reaching.bind (Q := fun reached ↦ reached = false → request.limits.deadlineTick ≠ some 0) ?_
    fun log reached hreached ↦ ?_
  · unfold deadlineReached
    split
    · rename_i hnone
      intro _
      rw [hnone]
      exact nofun
    · rename_i deadline hdeadline
      refine Reaching.bind (Q := fun _ ↦ True) ⟨nofun, fun _ ↦ trivial⟩ fun log now _ ↦ ?_
      refine reaching_orLeave.bind fun log tick _ ↦ ?_
      intro hbef
      rw [hdeadline]
      rintro ⟨⟩
      simp at hbef
  · exact EnsuresOr.mono reaching_leaveIf fun _ _ hbef ↦ hreached hbef

theorem reaching_readSurface :
    Reaching condition log (readSurface request s) fun surface ↦
      ∃ candidates, surfaceOf request (s.contextRequest request) candidates = .ok surface := by
  refine Reaching.bind (Q := fun _ ↦ True) ⟨nofun, fun _ ↦ trivial⟩ fun log answer _ ↦ ?_
  refine reaching_orLeave.bind fun log candidates _ ↦ ?_
  exact EnsuresOr.mono reaching_orLeave fun _ surface hsurface ↦ ⟨candidates, hsurface⟩

/-- Once the first request was built, the execution may do as it likes. -/
theorem reaching_iterate {setup : KernelSetup} {iteration : Nat} (hord : s.requestOrdinal = 0)
    (hbuilt : ∀ candidates surface modelRequest,
      surfaceOf setup.request (s.contextRequest setup.request) candidates = .ok surface →
      buildModelRequest setup.request surface iteration 1 s.targetIndex setup.toolDescriptors =
        .ok modelRequest → condition) :
    Reaching condition log (iterate setup iteration s) fun _ ↦ condition := by
  refine (reaching_emitting _).bind fun log _ _ ↦ ?_
  refine reaching_readSurface.bind fun log surface hsurface ↦ ?_
  obtain ⟨candidates, hsurface⟩ := hsurface
  refine (reaching_emitting _).bind fun log _ _ ↦ ?_
  refine reaching_isCancelled.bind fun log cancelled _ ↦ ?_
  refine reaching_leaveIf.bind fun log _ _ ↦ ?_
  rw [hord]
  refine Reaching.bind (Q := fun ordinal ↦ ordinal = 1) rfl fun log ordinal hone ↦ ?_
  subst hone
  refine Reaching.bind (Q := fun _ ↦ condition) ?_ fun log modelRequest hcond ↦
    reaching_of hcond _
  refine reaching_orLeave.bind fun log modelRequest hmodel ↦ ?_
  exact reaching_of (hbuilt candidates surface modelRequest hsurface hmodel) _

/-- An execution that invokes the effect port belongs to a request that can be run. -/
theorem onlyIf_runnable {lib : Preparing} {definitions : List ToolDefinition}
    {preparation : Option (ToolIntent → Except PreparationError PreparedToolCall)} {effects : Bool} :
    Ensures (I := kernelPorts) (OnlyIf (Runnable lib request definitions)) []
      (executeKernel lib request definitions preparation effects) fun _ _ ↦ True := by
  -- after a part that was left early there is only the proposal of the outcome
  have hfinish : ∀ (log : List KernelEvent) control usage outcome,
      Ensures (I := kernelPorts) (OnlyIf (Runnable lib request definitions)) log
        (finish request control usage outcome) fun _ _ ↦ True := by
    intro log control usage outcome
    refine ⟨nofun, fun answer ↦ ?_⟩
    rcases answer with _ | _ <;> exact trivial
  unfold executeKernel
  split
  · exact trivial
  · rename_i control hctrl
    obtain ⟨-, _, hcomp⟩ := prepareControl_eq_ok hctrl
    split
    · exact hfinish _ _ _ _
    · rename_i setup hsetup
      obtain ⟨hcatalog, hdescs, -, -⟩ := setup_eq_ok hsetup
      obtain rfl := setup_request hsetup
      refine Ensures.bind (reaching_emitting _) ?_
      rintro log (exit | _) _
      · exact hfinish _ _ _ _
      · dsimp only
        rw [kernelLoop]
        refine Ensures.bind reaching_checkBoundary ?_
        rintro log (exit | _) hdeadline
        · exact hfinish _ _ _ _
        · dsimp only
          split
          · exact hfinish _ _ _ _
          · exact hfinish _ _ _ _
          · rename_i iteration next hbegin
            obtain ⟨rfl, _, _⟩ := ExecutionControl.beginIteration_eq_started hbegin
            have hwithin := next.within
            refine Ensures.bind (reaching_iterate rfl fun candidates surface modelRequest hsurface
              hbuilt ↦ ?_) ?_
            · exact ⟨⟨control, hctrl⟩, by omega, hdeadline, _, _, candidates, surface, modelRequest,
                hcatalog, hdescs, hsurface, hcomp ▸ hbuilt⟩
            · rintro log (exit | _) hrunnable
              · exact hfinish _ _ _ _
              · exact ensures_of_forall (fun _ _ _ _ _ ↦ hrunnable) _

end Reaching

/-- **Narrowing holds up to the preparation port.** In every run of an execution, with the catalogue
of the narrowed definitions or with a preparation port, and whatever the other ports answer, all
calls the effect port is asked to invoke are of the narrowed definitions advertised to the model,
exactly when the request cannot be run as far as a model request or the port only ever prepares
calls of the narrowed definitions. -/
theorem executeAgent_enforces_iff (lib : Preparing) (request : AgentTurnRequest)
    (definitions : List ToolDefinition) (port : ToolIntent → Except PreparationError PreparedToolCall) :
    ((∀ log, Possible (executeAgent lib request definitions) log →
        Enforces (narrowedDefinitions request definitions) log) ∧
      ∀ log, Possible (executeAgentWithPreparation lib request definitions port) log →
        Enforces (narrowedDefinitions request definitions) log) ↔
    (Runnable lib request (narrowedDefinitions request definitions) →
      ∀ intent prepared, port intent = .ok prepared →
        prepared.IsOf (narrowedDefinitions request definitions)) := by
  constructor
  · rintro ⟨-, henforces⟩ hrunnable intent prepared hprepare
    obtain ⟨source, log, hpossible⟩ := makes_executeKernel hrunnable hprepare (.error .tool)
    exact (henforces _ hpossible log _ [] rfl source prepared rfl).1
  · intro hport
    refine ⟨fun log ↦ enforces_of_catalogue, fun log hpossible ↦ ?_⟩
    by_cases hrunnable : Runnable lib request (narrowedDefinitions request definitions)
    · refine enforces_of_prepared (fun setup hsetup intent prepared hprepare ↦ ?_) hpossible
      rw [KernelSetup.prepare, (setup_eq_ok hsetup).2.2.2] at hprepare
      exact hport hrunnable intent prepared hprepare
    · refine (atEach_of_ensures onlyIf_runnable hpossible).mono fun before call honly source prepared
        hcall ↦ ?_
      exact absurd (honly source prepared hcall) hrunnable

/-! ### A port over the whole catalogue -/

/-- A skill that allows the read tool only. -/
def readSkill : ActivatedSkill :=
  { skillId := "reading", allowedToolReferences := [{ name := "read", exactRevision := "1" }] }

/-- The catalogue of all tools, narrowed or not. -/
def wholeCatalogue : ToolCatalog :=
  { definitions := ((∅ : Map String ToolDefinition).insert "read" readTool).insert "write" writeTool }

theorem new_wholeCatalogue : new [readTool, writeTool] = .ok wholeCatalogue := by
  have hfresh : ((∅ : Map String ToolDefinition).insert "read" readTool)["write"]? = none := by
    rw [Map.get?_insert_of_ne (by simp), Map.get?_empty]
  simp only [new, insertNew, List.foldlM_cons, List.foldlM_nil,
    show readTool.name = "read" from rfl, show writeTool.name = "write" from rfl, Map.get?_empty, hfresh,
    Option.isNone_none, ensure_true, ok_bind, pure_eq_ok, wholeCatalogue]

def writeIntent : ToolIntent := { modelCallId := "call", toolName := "write", argumentsJson := "null" }

theorem prepare_writeIntent : ∃ prepared, wholeCatalogue.prepare lenientPreparing writeIntent =
    .ok prepared ∧ prepared.toolName = "write" := by
  have hfound : wholeCatalogue.definitions[writeIntent.toolName]? = some writeTool :=
    Map.get?_insert_self _ _ _
  have hvalid : wholeCatalogue.validateIntent lenientPreparing writeIntent = .ok (writeTool, .null) := by
    rw [validateIntent, hfound]
    rfl
  rw [prepare, hvalid]
  exact ⟨_, rfl, rfl⟩

/-- With a skill that allows reading only and a port over the whole catalogue, some run asks the
effect port to write. -/
theorem exists_invocation_beyond_narrowing :
    (soleIteration [readSkill]).activatedSkills ≠ [] ∧
    (∀ intent prepared, wholeCatalogue.prepare lenientPreparing intent = .ok prepared →
      prepared.IsOf [readTool, writeTool]) ∧
    ∃ log, Possible (executeAgentWithPreparation lenientPreparing (soleIteration [readSkill])
      [readTool, writeTool] (wholeCatalogue.prepare lenientPreparing)) log ∧
      ¬Enforces (narrowedDefinitions (soleIteration [readSkill]) [readTool, writeTool]) log := by
  have hnarrowed : narrowedDefinitions (soleIteration [readSkill]) [readTool, writeTool] = [readTool] :=
    rfl
  refine ⟨nofun, fun intent prepared h ↦ isOf_of_prepare new_wholeCatalogue h, ?_⟩
  obtain ⟨prepared, hprepared, hname⟩ := prepare_writeIntent
  obtain ⟨source, log, hpossible⟩ := makes_executeKernel (runnable_soleIteration [readSkill]) hprepared
    (.error .tool)
  refine ⟨_, hnarrowed ▸ hpossible, fun henforces ↦ ?_⟩
  rw [hnarrowed] at henforces
  obtain ⟨⟨_, hmem, hdefinition, -⟩, -⟩ := henforces log _ [] rfl source prepared rfl
  rw [List.mem_singleton.mp hmem, hname] at hdefinition
  exact absurd hdefinition (by decide)

end Garive
