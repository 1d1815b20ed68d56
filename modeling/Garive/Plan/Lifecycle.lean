import Garive.Plan.Definition

/-!
# Plan progress

The projection of one Plan revision: the state of the Plan, the progress of each declared step and
the number of attempts started so far, moved by sixteen transitions. `PlanSnapshot.apply` is the
reducer; `Applied` lists what a successful transition does, one constructor for each, and is what
every later proof takes apart.
-/

namespace Garive

/-- Closed lifecycle for one immutable Plan revision. -/
inductive PlanState where
  | proposed
  | adopted
  | running
  | suspended
  | completed
  | failed
  | superseded
  | rejected
deriving DecidableEq

def PlanState.isTerminal : PlanState → Bool
  | .completed | .failed | .superseded | .rejected => true
  | _ => false

/-- Closed progress state for one declared step. -/
inductive StepState where
  | pending
  | ready
  | claimed
  | running
  | suspended
  | completed
  | failed
deriving DecidableEq

/-- Progress of one step: its state and the number of started attempts. -/
structure StepProgress where
  state : StepState
  attempts : Nat
deriving DecidableEq

/-- One requested Plan or step transition. -/
inductive PlanTransition where
  | adopt
  | adoptWithCarryForward (carried : SetOf PlanStepId)
  | reject
  | suspend
  | resume
  | supersede
  | fail
  | complete (criteriaComplete : Bool)
  | claim (stepId : PlanStepId)
  | expireClaim (stepId : PlanStepId)
  | start (stepId : PlanStepId)
  | completeStep (stepId : PlanStepId)
  | suspendStep (stepId : PlanStepId)
  | resumeStep (stepId : PlanStepId)
  | failStep (stepId : PlanStepId)
  | retryStep (stepId : PlanStepId)

/-- Plan projection after a prefix of transitions. -/
structure PlanSnapshot where
  definition : PlanDefinitionV1
  state : PlanState
  steps : Map PlanStepId StepProgress
  totalAttempts : Nat

namespace PlanSnapshot

/-- A Proposed projection with every step Pending. -/
def new (definition : PlanDefinitionV1) : PlanSnapshot where
  definition
  state := .proposed
  steps := definition.stepIds.foldl (fun m stepId ↦ m.insert stepId ⟨.pending, 0⟩) ∅
  totalAttempts := 0

/-- Progress for one declared step. -/
def step (self : PlanSnapshot) (stepId : PlanStepId) : Option StepProgress := self.steps[stepId]?

/-- Ready steps in semantic declaration order. -/
def readySteps (self : PlanSnapshot) : List PlanStepId :=
  self.definition.stepIds.filter fun stepId ↦
    (self.step stepId).any fun progress ↦ progress.state == .ready

/-- The number of claimed or running steps. -/
def activeCount (self : PlanSnapshot) : Nat :=
  self.steps.toList.countP fun entry ↦ entry.2.state == .claimed || entry.2.state == .running

/-- The completed steps. -/
def completedSteps (self : PlanSnapshot) : SetOf PlanStepId :=
  SetOf.ofList ((self.steps.toList.filter fun entry ↦ entry.2.state == .completed).map (·.1))

/-- Makes one Pending step Ready if its dependencies and its attempt bound admit it. -/
def refreshStep (completed : SetOf PlanStepId) (steps : Map PlanStepId StepProgress)
    (step : PlanStepV1) : Map PlanStepId StepProgress :=
  match steps[step.stepId]? with
  | some progress =>
    if progress.state = .pending ∧ progress.attempts < step.maxAttempts.toNat ∧
        SetOf.isSubset step.dependsOn completed = true then
      steps.insert step.stepId { progress with state := .ready }
    else steps
  -- The source expects an entry for every declared step; `Sound.keys` says there is one.
  | none => steps

def refreshReady (self : PlanSnapshot) : PlanSnapshot :=
  if (self.state = .adopted ∨ self.state = .running) ∧
      self.totalAttempts < self.definition.bounds.maxTotalAttempts.toNat then
    { self with steps := self.definition.steps.foldl (refreshStep self.completedSteps) self.steps }
  else self

/-- The progress of a step that must be in a given state. -/
def requireState (self : PlanSnapshot) (stepId : PlanStepId) (state : StepState) :
    Except PlanErrorCode StepProgress :=
  okOr ((self.step stepId).filter fun progress ↦ progress.state == state) .planTransitionInvalid

/-- The projection with the progress of one step replaced. -/
def setStep (self : PlanSnapshot) (stepId : PlanStepId) (progress : StepProgress) : PlanSnapshot :=
  { self with steps := self.steps.insert stepId progress }

/-- Moves one step from a state it must be in to another one. -/
def moveStep (self : PlanSnapshot) (stepId : PlanStepId) (before after : StepState) :
    Except PlanErrorCode PlanSnapshot := do
  let progress ← self.requireState stepId before
  return self.setStep stepId { progress with state := after }

def claim (self : PlanSnapshot) (stepId : PlanStepId) : Except PlanErrorCode PlanSnapshot := do
  ensure (self.state = .adopted ∨ self.state = .running) .stepNotReady
  ensure (self.activeCount < self.definition.bounds.maxParallelReady.toNat) .stepNotReady
  self.moveStep stepId .ready .claimed

/-- The attempts of a step in a given state, if the step's bound and the Plan's admit another. -/
def boundedAttempts (self : PlanSnapshot) (stepId : PlanStepId) (state : StepState) :
    Except PlanErrorCode Nat := do
  let declared ← okOr (self.definition.findStep stepId) .planInvalid
  let progress ← self.requireState stepId state
  ensure (progress.attempts < declared.maxAttempts.toNat ∧
    self.totalAttempts < self.definition.bounds.maxTotalAttempts.toNat) .planBoundExceeded
  return progress.attempts

def start (self : PlanSnapshot) (stepId : PlanStepId) : Except PlanErrorCode PlanSnapshot := do
  let attempts ← self.boundedAttempts stepId .claimed
  return { self.setStep stepId ⟨.running, attempts + 1⟩ with
    totalAttempts := self.totalAttempts + 1
    state := .running }

def retry (self : PlanSnapshot) (stepId : PlanStepId) : Except PlanErrorCode PlanSnapshot := do
  let _ ← self.boundedAttempts stepId .failed
  let next ← self.moveStep stepId .failed .pending
  return next.refreshReady

/-- Marks the carried steps Completed. -/
def carry (steps : Map PlanStepId StepProgress) :
    List PlanStepId → Except PlanErrorCode (Map PlanStepId StepProgress)
  | [] => .ok steps
  | stepId :: rest => do
    let progress ← okOr steps[stepId]? .planTransitionInvalid
    carry (steps.insert stepId { progress with state := .completed }) rest

/-- Applies one legal transition. -/
def apply (self : PlanSnapshot) (transition : PlanTransition) :
    Except PlanErrorCode PlanSnapshot := do
  ensure (self.state.isTerminal = false) .planTransitionInvalid
  match transition with
  | .adopt => do
    ensure (self.state = .proposed) .planTransitionInvalid
    return { self with state := .adopted }.refreshReady
  | .adoptWithCarryForward carried => do
    ensure (self.state = .proposed) .planTransitionInvalid
    ensure (∀ stepId ∈ carried.toList, (self.definition.findStep stepId).any
      (fun declared ↦ SetOf.isSubset declared.dependsOn carried) = true) .planTransitionInvalid
    let steps ← carry self.steps carried.toList
    return { self with
      steps
      state := if Map.any steps (fun _ progress ↦ progress.state == StepState.completed) = true
        then .running else .adopted }.refreshReady
  | .reject => do
    ensure (self.state = .proposed) .planTransitionInvalid
    return { self with state := .rejected }
  | .suspend => do
    ensure (self.state = .running) .planTransitionInvalid
    return { self with state := .suspended }
  | .resume => do
    ensure (self.state = .suspended) .planTransitionInvalid
    return { self with state := .running }.refreshReady
  | .supersede => do
    ensure (self.state = .adopted ∨ self.state = .running ∨ self.state = .suspended)
      .planTransitionInvalid
    return { self with state := .superseded }
  | .fail => do
    ensure (self.state = .running ∨ self.state = .suspended) .planTransitionInvalid
    return { self with state := .failed }
  | .complete criteriaComplete => do
    ensure (self.state = .running ∧ criteriaComplete = true ∧
      Map.any self.steps (fun _ progress ↦ progress.state != .completed) = false)
      .planTransitionInvalid
    return { self with state := .completed }
  | .claim stepId => self.claim stepId
  | .expireClaim stepId => self.moveStep stepId .claimed .ready
  | .start stepId => self.start stepId
  | .completeStep stepId => do
    let next ← self.moveStep stepId .running .completed
    return next.refreshReady
  | .suspendStep stepId => self.moveStep stepId .running .suspended
  | .resumeStep stepId => self.moveStep stepId .suspended .running
  | .failStep stepId => self.moveStep stepId .running .failed
  | .retryStep stepId => self.retry stepId

/-- Applies transitions one after the other; all of them must be legal. -/
def applyAll (self : PlanSnapshot) : List PlanTransition → Except PlanErrorCode PlanSnapshot
  | [] => .ok self
  | transition :: rest => do
    let next ← self.apply transition
    applyAll next rest

/-! ## What a transition does -/

variable {self : PlanSnapshot} {stepId : PlanStepId} {state : StepState}

theorem requireState_eq_ok_iff {progress : StepProgress} :
    self.requireState stepId state = .ok progress ↔
      self.steps[stepId]? = some progress ∧ progress.state = state := by
  simp [requireState, step, Option.filter_eq_some_iff]

variable {next : PlanSnapshot}

theorem moveStep_eq_ok_iff {before after : StepState} :
    self.moveStep stepId before after = .ok next ↔ ∃ attempts,
      self.steps[stepId]? = some ⟨before, attempts⟩ ∧ self.setStep stepId ⟨after, attempts⟩ = next := by
  simp only [moveStep, ok_iff, requireState_eq_ok_iff]
  constructor
  · rintro ⟨⟨_, attempts⟩, ⟨hget, rfl⟩, hnext⟩
    exact ⟨attempts, hget, hnext⟩
  · rintro ⟨attempts, hget, hnext⟩
    exact ⟨_, ⟨hget, rfl⟩, hnext⟩

theorem boundedAttempts_eq_ok_iff {attempts : Nat} :
    self.boundedAttempts stepId state = .ok attempts ↔
      self.steps[stepId]? = some ⟨state, attempts⟩ ∧
      self.totalAttempts < self.definition.bounds.maxTotalAttempts.toNat ∧
      ∃ declared, self.definition.findStep stepId = some declared ∧
        attempts < declared.maxAttempts.toNat := by
  simp only [boundedAttempts, ok_iff, requireState_eq_ok_iff]
  constructor
  · rintro ⟨declared, hdecl, ⟨_, _⟩, ⟨hget, rfl⟩, ⟨hlt, htotal⟩, rfl⟩
    exact ⟨hget, htotal, declared, hdecl, hlt⟩
  · rintro ⟨hget, htotal, declared, hdecl, hlt⟩
    exact ⟨declared, hdecl, _, ⟨hget, rfl⟩, ⟨hlt, htotal⟩, rfl⟩

/-- What each transition does when it succeeds. -/
inductive Applied (self : PlanSnapshot) : PlanTransition → PlanSnapshot → Prop
  | adopt (hstate : self.state = .proposed) :
    Applied self .adopt { self with state := .adopted }.refreshReady
  | carried {carried : SetOf PlanStepId} {steps : Map PlanStepId StepProgress}
    (hstate : self.state = .proposed)
    (hclosed : ∀ stepId : PlanStepId, carried.contains stepId = true → ∃ declared,
      self.definition.findStep stepId = some declared ∧
        SetOf.isSubset declared.dependsOn carried = true)
    (hcarry : carry self.steps carried.toList = .ok steps) :
    Applied self (.adoptWithCarryForward carried) { self with
      steps
      state := if Map.any steps (fun _ progress ↦ progress.state == StepState.completed) = true
        then .running else .adopted }.refreshReady
  | reject (hstate : self.state = .proposed) : Applied self .reject { self with state := .rejected }
  | suspend (hstate : self.state = .running) :
    Applied self .suspend { self with state := .suspended }
  | resume (hstate : self.state = .suspended) :
    Applied self .resume { self with state := .running }.refreshReady
  | supersede (hstate : self.state = .adopted ∨ self.state = .running ∨ self.state = .suspended) :
    Applied self .supersede { self with state := .superseded }
  | fail (hstate : self.state = .running ∨ self.state = .suspended) :
    Applied self .fail { self with state := .failed }
  | complete (hstate : self.state = .running)
    (hsteps : ∀ (stepId : PlanStepId) (progress : StepProgress),
      self.steps[stepId]? = some progress → progress.state = .completed) :
    Applied self (.complete true) { self with state := .completed }
  | claim {stepId : PlanStepId} {attempts : Nat}
    (hstate : self.state = .adopted ∨ self.state = .running)
    (hslot : self.activeCount < self.definition.bounds.maxParallelReady.toNat)
    (hget : self.steps[stepId]? = some ⟨.ready, attempts⟩) :
    Applied self (.claim stepId) (self.setStep stepId ⟨.claimed, attempts⟩)
  | expireClaim {stepId : PlanStepId} {attempts : Nat}
    (hget : self.steps[stepId]? = some ⟨.claimed, attempts⟩) :
    Applied self (.expireClaim stepId) (self.setStep stepId ⟨.ready, attempts⟩)
  | start {stepId : PlanStepId} {attempts : Nat} {declared : PlanStepV1}
    (hget : self.steps[stepId]? = some ⟨.claimed, attempts⟩)
    (htotal : self.totalAttempts < self.definition.bounds.maxTotalAttempts.toNat)
    (hdecl : self.definition.findStep stepId = some declared)
    (hatts : attempts < declared.maxAttempts.toNat) :
    Applied self (.start stepId) { self.setStep stepId ⟨.running, attempts + 1⟩ with
      totalAttempts := self.totalAttempts + 1
      state := .running }
  | completeStep {stepId : PlanStepId} {attempts : Nat}
    (hget : self.steps[stepId]? = some ⟨.running, attempts⟩) :
    Applied self (.completeStep stepId) (self.setStep stepId ⟨.completed, attempts⟩).refreshReady
  | suspendStep {stepId : PlanStepId} {attempts : Nat}
    (hget : self.steps[stepId]? = some ⟨.running, attempts⟩) :
    Applied self (.suspendStep stepId) (self.setStep stepId ⟨.suspended, attempts⟩)
  | resumeStep {stepId : PlanStepId} {attempts : Nat}
    (hget : self.steps[stepId]? = some ⟨.suspended, attempts⟩) :
    Applied self (.resumeStep stepId) (self.setStep stepId ⟨.running, attempts⟩)
  | failStep {stepId : PlanStepId} {attempts : Nat}
    (hget : self.steps[stepId]? = some ⟨.running, attempts⟩) :
    Applied self (.failStep stepId) (self.setStep stepId ⟨.failed, attempts⟩)
  | retryStep {stepId : PlanStepId} {attempts : Nat} {declared : PlanStepV1}
    (hget : self.steps[stepId]? = some ⟨.failed, attempts⟩)
    (htotal : self.totalAttempts < self.definition.bounds.maxTotalAttempts.toNat)
    (hdecl : self.definition.findStep stepId = some declared)
    (hatts : attempts < declared.maxAttempts.toNat) :
    Applied self (.retryStep stepId) (self.setStep stepId ⟨.pending, attempts⟩).refreshReady

variable {transition : PlanTransition}

theorem not_terminal_of_apply (h : self.apply transition = .ok next) :
    self.state.isTerminal = false := by
  simp only [apply, ok_iff] at h
  exact h.1

theorem applied_of_apply (h : self.apply transition = .ok next) : Applied self transition next := by
  simp only [apply, ok_iff] at h
  replace h := h.2
  cases transition with
  | adopt =>
    simp only [ok_iff] at h
    obtain ⟨hstate, rfl⟩ := h
    exact .adopt hstate
  | adoptWithCarryForward carried =>
    simp only [ok_iff] at h
    obtain ⟨hstate, hclosed, _, hcarry, rfl⟩ := h
    refine .carried hstate (fun stepId hmem ↦ ?_) hcarry
    exact Option.any_eq_true .. |>.mp (hclosed stepId (Std.ExtTreeSet.mem_toList.mpr
      (Std.ExtTreeSet.contains_iff_mem.mp hmem)))
  | reject =>
    simp only [ok_iff] at h
    obtain ⟨hstate, rfl⟩ := h
    exact .reject hstate
  | suspend =>
    simp only [ok_iff] at h
    obtain ⟨hstate, rfl⟩ := h
    exact .suspend hstate
  | resume =>
    simp only [ok_iff] at h
    obtain ⟨hstate, rfl⟩ := h
    exact .resume hstate
  | supersede =>
    simp only [ok_iff] at h
    obtain ⟨hstate, rfl⟩ := h
    exact .supersede hstate
  | fail =>
    simp only [ok_iff] at h
    obtain ⟨hstate, rfl⟩ := h
    exact .fail hstate
  | complete criteriaComplete =>
    simp only [ok_iff] at h
    obtain ⟨⟨hstate, rfl, hsteps⟩, rfl⟩ := h
    refine .complete hstate fun stepId progress hget ↦ ?_
    simpa using Map.any_eq_false_iff.mp hsteps stepId progress hget
  | claim stepId =>
    simp only [PlanSnapshot.claim, ok_iff, moveStep_eq_ok_iff] at h
    obtain ⟨hstate, hslot, attempts, hget, rfl⟩ := h
    exact .claim hstate hslot hget
  | expireClaim stepId =>
    obtain ⟨attempts, hget, rfl⟩ := moveStep_eq_ok_iff.mp h
    exact .expireClaim hget
  | start stepId =>
    simp only [PlanSnapshot.start, ok_iff, boundedAttempts_eq_ok_iff] at h
    obtain ⟨attempts, ⟨hget, htotal, declared, hdecl, hatts⟩, rfl⟩ := h
    exact .start hget htotal hdecl hatts
  | completeStep stepId =>
    simp only [ok_iff, moveStep_eq_ok_iff] at h
    obtain ⟨_, ⟨attempts, hget, rfl⟩, rfl⟩ := h
    exact .completeStep hget
  | suspendStep stepId =>
    obtain ⟨attempts, hget, rfl⟩ := moveStep_eq_ok_iff.mp h
    exact .suspendStep hget
  | resumeStep stepId =>
    obtain ⟨attempts, hget, rfl⟩ := moveStep_eq_ok_iff.mp h
    exact .resumeStep hget
  | failStep stepId =>
    obtain ⟨attempts, hget, rfl⟩ := moveStep_eq_ok_iff.mp h
    exact .failStep hget
  | retryStep stepId =>
    simp only [PlanSnapshot.retry, ok_iff, boundedAttempts_eq_ok_iff, moveStep_eq_ok_iff] at h
    obtain ⟨_, ⟨hbounded, htotal, declared, hdecl, hatts⟩, _, ⟨attempts, hget, rfl⟩, rfl⟩ := h
    cases hget.symm.trans hbounded
    exact .retryStep hget htotal hdecl hatts

/-- What is listed for a transition is what it does, in every state that is not terminal. -/
theorem apply_of_applied (hlive : self.state.isTerminal = false) (h : Applied self transition next) :
    self.apply transition = .ok next := by
  unfold apply
  rw [ensure_of hlive, ok_bind]
  cases h with
  | adopt hstate | reject hstate | suspend hstate | resume hstate | supersede hstate | fail hstate =>
    simp only [ensure_of hstate, ok_bind, pure_eq_ok]
  | carried hstate hclosed hcarry =>
    dsimp only
    rw [ensure_of hstate, ok_bind, ensure_of, ok_bind, hcarry]
    · rfl
    · intro stepId hmem
      exact Option.any_eq_true .. |>.mpr (hclosed stepId
        (Std.ExtTreeSet.contains_iff_mem.mpr (Std.ExtTreeSet.mem_toList.mp hmem)))
  | complete hstate hsteps =>
    dsimp only
    rw [ensure_of]
    · rfl
    · refine ⟨hstate, rfl, Map.any_eq_false_iff.mpr fun stepId progress hget ↦ ?_⟩
      rw [hsteps stepId progress hget]
      rfl
  | claim hstate hslot hget =>
    dsimp only
    rw [PlanSnapshot.claim, ensure_of hstate, ok_bind, ensure_of hslot, ok_bind]
    exact moveStep_eq_ok_iff.mpr ⟨_, hget, rfl⟩
  | expireClaim hget | suspendStep hget | resumeStep hget | failStep hget =>
    exact moveStep_eq_ok_iff.mpr ⟨_, hget, rfl⟩
  | start hget htotal hdecl hatts =>
    dsimp only
    rw [PlanSnapshot.start, boundedAttempts_eq_ok_iff.mpr ⟨hget, htotal, _, hdecl, hatts⟩]
    rfl
  | completeStep hget =>
    dsimp only
    rw [moveStep_eq_ok_iff.mpr ⟨_, hget, rfl⟩]
    rfl
  | retryStep hget htotal hdecl hatts =>
    dsimp only
    rw [PlanSnapshot.retry, boundedAttempts_eq_ok_iff.mpr ⟨hget, htotal, _, hdecl, hatts⟩,
      ok_bind, moveStep_eq_ok_iff.mpr ⟨_, hget, rfl⟩]
    rfl

/-! ## Runs -/

@[simp] theorem applyAll_nil (self : PlanSnapshot) : self.applyAll [] = .ok self := rfl

variable {last : PlanSnapshot}

theorem applyAll_cons_eq_ok_iff {rest : List PlanTransition} :
    self.applyAll (transition :: rest) = .ok last ↔
      ∃ next, self.apply transition = .ok next ∧ next.applyAll rest = .ok last := by
  simp [applyAll, bind_eq_ok_iff]

theorem applyAll_append_eq_ok_iff {first second : List PlanTransition} :
    self.applyAll (first ++ second) = .ok last ↔
      ∃ mid, self.applyAll first = .ok mid ∧ mid.applyAll second = .ok last := by
  induction first generalizing self with
  | nil => simp
  | cons transition rest ih =>
    simp only [List.cons_append, applyAll_cons_eq_ok_iff, ih]
    constructor
    · rintro ⟨next, hnext, mid, hmid, hlast⟩
      exact ⟨mid, ⟨next, hnext, hmid⟩, hlast⟩
    · rintro ⟨mid, ⟨next, hnext, hmid⟩, hlast⟩
      exact ⟨next, hnext, mid, hmid, hlast⟩

/-- What holds at the start and survives every successful transition holds at the end. -/
theorem applyAll_induction {P : PlanSnapshot → Prop} {transitions : List PlanTransition}
    (hself : P self)
    (hstep : ∀ before after transition, P before → before.apply transition = .ok after → P after)
    (h : self.applyAll transitions = .ok last) : P last := by
  induction transitions generalizing self with
  | nil =>
    cases h
    exact hself
  | cons transition rest ih =>
    obtain ⟨next, hnext, hrest⟩ := applyAll_cons_eq_ok_iff.mp h
    exact ih (hstep self next transition hself hnext) hrest

end PlanSnapshot

end Garive
