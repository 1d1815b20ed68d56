import Garive.Plan.Dispatch

/-!
# A Plan does not get stuck

Steps become Ready only when the projection is refreshed, and not every transition refreshes it:
a start puts a suspended Plan back to work without looking at the steps that could have become Ready
meanwhile. What saves the Plan is that every transition either refreshes it or leaves a step behind
that is at work, waits for a worker, or has failed. So when no such step is left, the last transition
was a refresh, and a Pending step waits for a step that is not completed. In an acyclic Plan nothing
can wait like that forever.
-/

namespace Garive

namespace PlanSnapshot

variable {self next : PlanSnapshot} {stepId : PlanStepId} {transition : PlanTransition}
  {attempts : Nat}

/-! ## Pending steps -/

/-- Refreshing makes no step Pending. -/
theorem pending_of_refreshReady (h : self.refreshReady.steps[stepId]? = some ⟨.pending, attempts⟩) :
    self.steps[stepId]? = some ⟨.pending, attempts⟩ := by
  have hrel := refreshed_refreshReady self stepId
  rw [h] at hrel
  generalize self.steps[stepId]? = before at hrel ⊢
  cases hrel with
  | some hrel =>
    cases hrel with
    | same => rfl

/-- Refreshing completes no step. -/
theorem IsCompleted.of_refreshReady (h : self.refreshReady.IsCompleted stepId) :
    self.IsCompleted stepId := by
  obtain ⟨attempts, hget⟩ := h
  have hrel := refreshed_refreshReady self stepId
  rw [hget] at hrel
  unfold IsCompleted
  generalize self.steps[stepId]? = before at hrel ⊢
  cases hrel with
  | some hrel =>
    cases hrel with
    | same => exact ⟨attempts, rfl⟩

theorem pending_of_setStep {id : PlanStepId} {progress : StepProgress}
    (hstate : progress.state ≠ .pending)
    (h : (self.setStep id progress).steps[stepId]? = some ⟨.pending, attempts⟩) :
    self.steps[stepId]? = some ⟨.pending, attempts⟩ := by
  rw [setStep, Map.get?_insert] at h
  split at h
  · cases h
    exact absurd rfl hstate
  · exact h

/-- A Pending step has an attempt left. -/
def PendingBounded (self : PlanSnapshot) : Prop :=
  ∀ declared ∈ self.definition.steps, ∀ attempts,
    self.steps[declared.stepId]? = some ⟨.pending, attempts⟩ → attempts < declared.maxAttempts.toNat

theorem pendingBounded_new (definition : PlanDefinitionV1) : (new definition).PendingBounded := by
  intro declared _ attempts hget
  rw [get?_new] at hget
  split at hget
  · cases hget
    exact Nat.pos_of_ne_zero fun hzero ↦ declared.maxAttempts_ne_zero (UInt32.toNat.inj hzero)
  · cases hget

/-- A step that a transition leaves Pending was so before, unless it is tried again. -/
theorem Applied.pending (h : Applied self transition next)
    (hget : next.steps[stepId]? = some ⟨.pending, attempts⟩) :
    self.steps[stepId]? = some ⟨.pending, attempts⟩ ∨ ∃ declared,
      self.definition.findStep stepId = some declared ∧ attempts < declared.maxAttempts.toNat := by
  cases h with
  | adopt | resume =>
    have hbefore := pending_of_refreshReady hget
    exact .inl hbefore
  | carried _ _ hcarry =>
    have hcarried := pending_of_refreshReady hget
    dsimp only at hcarried
    rw [get?_carry hcarry, Option.map_eq_some_iff] at hcarried
    obtain ⟨_, hprogress, hsame⟩ := hcarried
    split at hsame
    · cases hsame
    · exact .inl (hsame ▸ hprogress)
  | reject | suspend | supersede | fail | complete => exact .inl hget
  | claim | expireClaim | start | suspendStep | resumeStep | failStep =>
    exact .inl (pending_of_setStep (by simp) hget)
  | completeStep => exact .inl (pending_of_setStep (by simp) (pending_of_refreshReady hget))
  | @retryStep id before declared hfailed _ hdecl hatts =>
    have hset := pending_of_refreshReady hget
    rw [setStep, Map.get?_insert] at hset
    split at hset
    · rename_i hid
      cases hset
      exact .inr ⟨declared, hid ▸ hdecl, hatts⟩
    · exact .inl hset

theorem PendingBounded.apply (hbounded : self.PendingBounded) (h : self.apply transition = .ok next) :
    next.PendingBounded := by
  intro declared hmem attempts hget
  have happlied := applied_of_apply h
  rw [happlied.definition] at hmem
  rcases happlied.pending hget with hbefore | ⟨found, hfound, hlt⟩
  · exact hbounded declared hmem attempts hbefore
  · rw [PlanDefinitionV1.findStep_eq_some_iff.mpr ⟨hmem, rfl⟩, Option.some.injEq] at hfound
    subst hfound
    exact hlt

/-! ## Settled projections -/

/-- Every Pending step with an attempt left waits for a step that is not completed. -/
def Settled (self : PlanSnapshot) : Prop :=
  ∀ declared ∈ self.definition.steps, ∀ attempts,
    self.steps[declared.stepId]? = some ⟨.pending, attempts⟩ → attempts < declared.maxAttempts.toNat →
      ∃ id, declared.dependsOn.contains id = true ∧ ¬self.IsCompleted id

/-- A step that stays Pending in a refresh was not admitted by it. -/
theorem not_isSubset_of_foldl {completed : SetOf PlanStepId} {declared : PlanStepV1}
    {declaredSteps : List PlanStepV1} {steps : Map PlanStepId StepProgress}
    (hmem : declared ∈ declaredSteps) (hlt : attempts < declared.maxAttempts.toNat)
    (h : (declaredSteps.foldl (refreshStep completed) steps)[declared.stepId]?
      = some ⟨.pending, attempts⟩) : SetOf.isSubset declared.dependsOn completed = false := by
  induction declaredSteps generalizing steps with
  | nil => cases hmem
  | cons first rest ih =>
    rw [List.foldl_cons] at h
    rcases List.mem_cons.mp hmem with rfl | hmem
    · have hrel := refreshed_foldl completed rest (refreshStep completed steps declared)
        declared.stepId
      rw [h] at hrel
      -- The rest of the fold leaves a Ready step alone, so the step was Pending right after its turn.
      have hmid : (refreshStep completed steps declared)[declared.stepId]?
          = some ⟨.pending, attempts⟩ := by
        generalize (refreshStep completed steps declared)[declared.stepId]? = mid at hrel
        cases hrel with
        | some hrel =>
          cases hrel with
          | same => rfl
      unfold refreshStep at hmid
      split at hmid
      · rename_i progress hprogress
        split at hmid
        · rw [Map.get?_insert_self] at hmid
          cases hmid
        · rename_i hnot
          rw [hprogress] at hmid
          cases hmid
          simpa [hlt] using hnot
      · rename_i hnone
        rw [hnone] at hmid
        cases hmid
    · exact ih hmem h

theorem settled_refreshReady (hstate : self.state = .adopted ∨ self.state = .running)
    (htotal : self.totalAttempts < self.definition.bounds.maxTotalAttempts.toNat) :
    self.refreshReady.Settled := by
  intro declared hmem attempts hget hlt
  rw [definition_refreshReady] at hmem
  have hfold := hget
  rw [refreshReady, if_pos ⟨hstate, htotal⟩] at hfold
  have hnot := not_isSubset_of_foldl hmem hlt hfold
  by_contra hall
  push Not at hall
  refine absurd (SetOf.isSubset_iff.mpr fun id hid ↦ ?_) (Bool.eq_false_iff.mp hnot)
  exact contains_completedSteps_iff.mpr (hall id hid).of_refreshReady

/-- Some step is Ready, at work, suspended or failed. -/
def Busy (self : PlanSnapshot) : Prop :=
  ∃ (stepId : PlanStepId) (progress : StepProgress), self.steps[stepId]? = some progress ∧
    progress.state ≠ .pending ∧ progress.state ≠ .completed

theorem busy_setStep {progress : StepProgress} (hpending : progress.state ≠ .pending)
    (hcompleted : progress.state ≠ .completed) : (self.setStep stepId progress).Busy :=
  ⟨stepId, progress, Map.get?_insert_self .., hpending, hcompleted⟩

/-- A transition of a Plan that goes on refreshes it or leaves a busy step. -/
theorem Applied.settled_or_busy (h : Applied self transition next)
    (hstate : next.state = .adopted ∨ next.state = .running)
    (htotal : next.totalAttempts < next.definition.bounds.maxTotalAttempts.toNat) :
    next.Settled ∨ next.Busy := by
  cases h with
  | adopt | carried | resume | completeStep | retryStep =>
    rw [state_refreshReady] at hstate
    rw [totalAttempts_refreshReady, definition_refreshReady] at htotal
    exact .inl (settled_refreshReady hstate htotal)
  | reject | suspend | supersede | fail | complete => simp at hstate
  | claim | expireClaim | suspendStep | resumeStep | failStep =>
    exact .inr (busy_setStep (by simp) (by simp))
  | start => exact .inr ⟨_, _, Map.get?_insert_self .., by simp, by simp⟩

/-! ## Runs -/

/-- **A Plan does not get stuck.** Whatever transitions lead to a projection from a proposal: if the
Plan is adopted or running, may still start attempts, and no step is Ready, claimed, running,
suspended or failed, then every step is completed. -/
theorem completed_of_idle (definition : PlanDefinitionV1) {transitions : List PlanTransition}
    {snapshot : PlanSnapshot} (h : (new definition).applyAll transitions = .ok snapshot)
    (hstate : snapshot.state = .adopted ∨ snapshot.state = .running)
    (htotal : snapshot.totalAttempts < snapshot.definition.bounds.maxTotalAttempts.toNat)
    (hidle : ∀ (stepId : PlanStepId) (progress : StepProgress),
      snapshot.step stepId = some progress → progress.state ≠ .ready ∧ progress.state ≠ .claimed ∧
        progress.state ≠ .running ∧ progress.state ≠ .suspended ∧ progress.state ≠ .failed) :
    ∀ stepId ∈ definition.stepIds, ∃ progress, snapshot.step stepId = some progress ∧
      progress.state = .completed := by
  have hdefinition := definition_applyAll h
  have hsound := (sound_new definition).applyAll h
  have hbounded := applyAll_induction (P := PendingBounded) (pendingBounded_new definition)
    (fun _ _ _ hbefore happly ↦ hbefore.apply happly) h
  have hsettled : snapshot.Settled := by
    have hlast := applyAll_induction (P := fun s ↦ s.state = .adopted ∨ s.state = .running →
      s.totalAttempts < s.definition.bounds.maxTotalAttempts.toNat → s.Settled ∨ s.Busy)
      (fun hnew ↦ by simp [new] at hnew)
      (fun _ _ _ _ happly ↦ (applied_of_apply happly).settled_or_busy) h hstate htotal
    refine hlast.resolve_right ?_
    rintro ⟨stepId, ⟨state, attempts⟩, hget, _, _⟩
    have := hidle stepId _ hget
    cases state <;> simp_all
  obtain ⟨rank, hrank⟩ := (validateAcyclic_eq_ok_iff definition.admitted.ids_nodup).mp
    definition.admitted.acyclic
  -- Induction on the rank: what a step waits for is completed before it.
  have hall : ∀ (n : Nat) (declared : PlanStepV1), declared ∈ definition.steps →
      rank declared.stepId = n → snapshot.IsCompleted declared.stepId := by
    intro n
    induction n using Nat.strongRecOn with
    | ind n ih =>
      intro declared hmem hn
      obtain ⟨⟨state, attempts⟩, hget⟩ := Option.isSome_iff_exists.mp
        ((hsound.keys declared.stepId).mpr (hdefinition ▸ List.mem_map_of_mem hmem))
      have hquiet := hidle _ _ hget
      cases state with
      | completed => exact ⟨attempts, hget⟩
      | pending =>
        obtain ⟨id, hid, hnot⟩ := hsettled declared (hdefinition ▸ hmem) attempts hget
          (hbounded declared (hdefinition ▸ hmem) attempts hget)
        obtain ⟨hdeclared, hlt⟩ := hrank declared hmem id hid
        obtain ⟨other, hother, rfl⟩ := List.mem_map.mp hdeclared
        exact absurd (ih _ (hn ▸ hlt) other hother rfl) hnot
      | _ => simp at hquiet
  intro stepId hstep
  obtain ⟨declared, hmem, rfl⟩ := List.mem_map.mp hstep
  obtain ⟨attempts, hget⟩ := hall _ declared hmem rfl
  exact ⟨_, hget, rfl⟩

/-- A projection with nothing left to do: it runs, and both steps are completed. -/
def isDone (snapshot : PlanSnapshot) : Bool :=
  decide (snapshot.state = .running ∧ snapshot.totalAttempts < 2) &&
    !Map.any snapshot.steps fun _ progress ↦ progress.state != .completed

/-- The Plan of two independent steps, both at a time. -/
def widePlan : PlanDefinitionV1 := pairPlan 2 (by decide)

/-- Both steps are carried over from an earlier revision. -/
def carryBoth : List PlanTransition :=
  [.adoptWithCarryForward (SetOf.ofList [firstStep, secondStep])]

instance : Fact (((new widePlan).applyAll carryBoth).toOption.any isDone = true) :=
  ⟨by decide +kernel⟩

/-- A Plan whose steps were all carried over is idle, and all its steps are completed. -/
theorem completed_of_carryBoth : ∃ snapshot,
    (new widePlan).applyAll carryBoth = .ok snapshot ∧ snapshot.state = .running ∧
    ∀ stepId ∈ widePlan.stepIds, ∃ progress,
      snapshot.step stepId = some progress ∧ progress.state = .completed := by
  obtain ⟨snapshot, hrun, hdone⟩ := any_toOption.mp (Fact.out :
    ((new widePlan).applyAll carryBoth).toOption.any isDone = true)
  rw [isDone, Bool.and_eq_true, decide_eq_true_eq, Bool.not_eq_true', Map.any_eq_false_iff] at hdone
  obtain ⟨⟨hstate, htotal⟩, hall⟩ := hdone
  refine ⟨snapshot, hrun, hstate, completed_of_idle _ hrun (.inr hstate) ?_ fun stepId progress hget ↦ ?_⟩
  · rw [definition_applyAll hrun]
    exact htotal
  · have hcompleted : progress.state = .completed := by simpa using hall stepId progress hget
    rw [hcompleted]
    decide

end PlanSnapshot

end Garive
