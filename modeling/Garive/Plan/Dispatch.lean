import Garive.Ledger.Reference
import Garive.Plan.Safety

/-!
# Plan dispatch

Two rules about dispatch that the transitions keep only in part. Claims respect the bound on
claimed and running steps, but a suspended step resumes without looking at it: the bound holds along
the runs that resume a step only into a free slot. A suspended Plan admits no claim, but a step
claimed before can still be started, and starting it makes the Plan run again: a suspended Plan
stays suspended, with all attempts as they were, exactly along the runs that start nothing.

The two-step Plan at the end shows both failures.
-/

namespace Garive

open List

namespace PlanSnapshot

/-! ## Parallelism -/

variable {self next : PlanSnapshot} {transition : PlanTransition} {stepId : PlanStepId}

/-- Only a claim or a resumption makes a step active. -/
theorem Moves.isActive (h : Moves self next transition) (hact : next.isActive stepId) :
    self.isActive stepId ∨ transition = .claim stepId ∨ transition = .resumeStep stepId := by
  have hmove := h stepId
  unfold PlanSnapshot.isActive at hact ⊢
  generalize next.steps[stepId]? = last at hmove hact
  generalize self.steps[stepId]? = first at hmove ⊢
  cases hmove with
  | none => exact absurd hact (by simp)
  | some hmove =>
    cases hmove with
    | same => exact .inl hact
    | claimed htrans => exact .inr (.inl htrans)
    | resumed htrans => exact .inr (.inr htrans)
    | started => exact .inl rfl
    | _ => exact absurd hact (by simp)

theorem Applied.activeCount_le (hsound : Sound self) (hnext : Sound next)
    (h : Applied self transition next)
    (hle : self.activeCount ≤ self.definition.bounds.maxParallelReady.toNat)
    (hslot : ∀ stepId, transition = .resumeStep stepId → self.activeCount < self.definition.bounds.maxParallelReady.toNat) :
    next.activeCount ≤ self.definition.bounds.maxParallelReady.toNat := by
  rw [activeCount_eq hsound.keys] at hle hslot
  rw [activeCount_eq hnext.keys, h.definition]
  -- One step joins the active ones, or none does.
  by_cases hjoin : ∃ stepId, transition = .claim stepId ∨ transition = .resumeStep stepId
  · obtain ⟨joined, hjoined⟩ := hjoin
    have hcount := countP_le_add_one (p := self.isActive) (q := next.isActive) (a := joined)
      self.definition.nodup_stepIds fun stepId hact ↦ by
        rcases h.moves.isActive hact with hbef | hclaim | hresume
        · exact .inl hbef
        · rcases hjoined with rfl | rfl
          · exact .inr (PlanTransition.claim.inj hclaim).symm
          · simp at hclaim
        · rcases hjoined with rfl | rfl
          · simp at hresume
          · exact .inr (PlanTransition.resumeStep.inj hresume).symm
    have hfree : self.definition.stepIds.countP self.isActive <
        self.definition.bounds.maxParallelReady.toNat := by
      rcases hjoined with rfl | hresume
      · cases h with
        | claim _ hslot => exact activeCount_eq hsound.keys ▸ hslot
      · exact hslot joined hresume
    omega
  · refine (countP_mono_left fun stepId _ hact ↦ ?_).trans hle
    rcases h.moves.isActive hact with hbef | hclaim | hresume
    · exact hbef
    · exact absurd ⟨stepId, .inl hclaim⟩ hjoin
    · exact absurd ⟨stepId, .inr hresume⟩ hjoin

/-- **Parallelism bound.** Along a run that resumes a step only while fewer steps are claimed or
running than the definition admits, there are never more than it admits. -/
theorem activeCount_le_maxParallelReady (definition : PlanDefinitionV1)
    {transitions : List PlanTransition} {snapshot : PlanSnapshot}
    (h : (new definition).applyAll transitions = .ok snapshot)
    (hslot : ∀ (before : List PlanTransition) (stepId : PlanStepId) (after : List PlanTransition)
      (mid : PlanSnapshot), transitions = before ++ .resumeStep stepId :: after →
        (new definition).applyAll before = .ok mid →
          mid.activeCount < definition.bounds.maxParallelReady.toNat) :
    snapshot.activeCount ≤ definition.bounds.maxParallelReady.toNat := by
  induction transitions using reverseRecOn generalizing snapshot with
  | nil =>
    cases h
    rw [activeCount_eq (sound_new definition).keys]
    refine Nat.le_trans (Nat.le_of_eq (countP_eq_zero.mpr fun stepId _ ↦ ?_)) (Nat.zero_le _)
    unfold PlanSnapshot.isActive
    rw [get?_new]
    split <;> simp
  | append_singleton transitions transition ih =>
    obtain ⟨mid, hmid, hlast⟩ := applyAll_append_eq_ok_iff.mp h
    obtain ⟨_, hnext, hlast⟩ := applyAll_cons_eq_ok_iff.mp hlast
    cases hlast
    have hdefinition : mid.definition = definition := definition_applyAll hmid
    have hsound : Sound mid := (sound_new definition).applyAll hmid
    have hle := ih hmid fun before stepId after found hsplit ↦
      hslot before stepId (after ++ [transition]) found (by rw [hsplit]; simp)
    have hfree : ∀ stepId, transition = .resumeStep stepId →
        mid.activeCount < definition.bounds.maxParallelReady.toNat := fun stepId htransition ↦
      hslot transitions stepId [] mid (by rw [htransition]) hmid
    rw [← hdefinition] at hle hfree ⊢
    exact (applied_of_apply hnext).activeCount_le hsound (hsound.apply hnext) hle hfree

/-! ## Suspension -/

variable {transitions : List PlanTransition} {last : PlanSnapshot}

/-- Attempts are only added. -/
theorem attemptsOf_le_applyAll (h : self.applyAll transitions = .ok last) (stepId : PlanStepId) :
    self.attemptsOf stepId ≤ last.attemptsOf stepId :=
  applyAll_induction (P := fun snapshot ↦ self.attemptsOf stepId ≤ snapshot.attemptsOf stepId)
    (Nat.le_refl _) (fun before after transition hbef happly ↦ by
      have hmove := (applied_of_apply happly).moves.attemptsOf stepId
      omega) h

theorem isSome_applyAll (h : self.applyAll transitions = .ok last) (stepId : PlanStepId) :
    (last.steps[stepId]?).isSome = (self.steps[stepId]?).isSome :=
  applyAll_induction
    (P := fun snapshot ↦ (snapshot.steps[stepId]?).isSome = (self.steps[stepId]?).isSome) rfl
    (fun _ _ _ hbef happly ↦ ((applied_of_apply happly).moves.isSome_iff stepId).trans hbef) h

/-- A suspended Plan is moved out of suspension only by resuming, superseding or failing it, or by
starting a step. -/
theorem Applied.state_suspended (h : Applied self transition next)
    (hstate : self.state = .suspended)
    (hplan : transition ≠ .resume ∧ transition ≠ .supersede ∧ transition ≠ .fail)
    (hstart : ∀ stepId, transition ≠ .start stepId) : next.state = .suspended := by
  cases h with
  | resume => exact absurd rfl hplan.1
  | supersede => exact absurd rfl hplan.2.1
  | fail => exact absurd rfl hplan.2.2
  | start => exact absurd rfl (hstart _)
  | expireClaim | suspendStep | resumeStep | failStep => exact hstate
  | completeStep | retryStep =>
    rw [state_refreshReady]
    exact hstate
  | adopt hother | carried hother | reject hother | suspend hother | complete hother
  | claim hother => simp [hstate] at hother

/-- Without a start, a suspended Plan stays as it is. -/
theorem suspended_applyAll (h : self.applyAll transitions = .ok last)
    (hstate : self.state = .suspended)
    (hplan : ∀ transition ∈ transitions, transition ≠ .resume ∧ transition ≠ .supersede ∧ transition ≠ .fail)
    (hstart : ∀ stepId, .start stepId ∉ transitions) :
    last.state = .suspended ∧ ∀ stepId, last.attemptsOf stepId = self.attemptsOf stepId := by
  induction transitions generalizing self with
  | nil =>
    cases h
    exact ⟨hstate, fun _ ↦ rfl⟩
  | cons transition rest ih =>
    obtain ⟨_, hnext, hrest⟩ := applyAll_cons_eq_ok_iff.mp h
    have happlied := applied_of_apply hnext
    have hother : ∀ stepId, transition ≠ .start stepId := fun stepId heq ↦
      hstart stepId (heq ▸ mem_cons_self)
    obtain ⟨hlast, hatts⟩ := ih hrest
      (happlied.state_suspended hstate (hplan transition mem_cons_self) hother)
      (fun t ht ↦ hplan t (mem_cons_of_mem _ ht))
      (fun stepId hmem ↦ hstart stepId (mem_cons_of_mem _ hmem))
    refine ⟨hlast, fun stepId ↦ (hatts stepId).trans ?_⟩
    exact (happlied.moves.attemptsOf stepId).resolve_right fun hstarted ↦ hother stepId hstarted.1

/-- A run that starts a step adds to the attempts of that step, which it has found and left in the
progress map. -/
theorem attemptsOf_lt_of_start (h : self.applyAll transitions = .ok last)
    (hmem : .start stepId ∈ transitions) :
    ∃ before after : StepProgress, self.step stepId = some before ∧ last.step stepId = some after ∧
      before.attempts < after.attempts := by
  obtain ⟨_, _, rfl⟩ := append_of_mem hmem
  obtain ⟨mid, hmid, hrest⟩ := applyAll_append_eq_ok_iff.mp h
  obtain ⟨_, hnext, hsecond⟩ := applyAll_cons_eq_ok_iff.mp hrest
  have happlied := applied_of_apply hnext
  have hone := happlied.attemptsOf_start.1
  have hfirst := attemptsOf_le_applyAll hmid stepId
  have hlast := attemptsOf_le_applyAll hsecond stepId
  have hsome : (mid.steps[stepId]?).isSome := by
    cases happlied with
    | start hget => simp [hget]
  obtain ⟨before, hbef⟩ := Option.isSome_iff_exists.mp ((isSome_applyAll hmid stepId) ▸ hsome)
  obtain ⟨after, hafter⟩ := Option.isSome_iff_exists.mp
    ((isSome_applyAll h stepId).trans (by rw [hbef]; rfl))
  refine ⟨before, after, hbef, hafter, ?_⟩
  have hself : self.attemptsOf stepId = before.attempts := by rw [attemptsOf, hbef]; rfl
  have hend : last.attemptsOf stepId = after.attempts := by rw [attemptsOf, hafter]; rfl
  omega

/-- **Suspension.** Among the runs that neither resume, supersede nor fail a suspended Plan, those
that leave it suspended with no attempt added are exactly those that start no step. -/
theorem stays_suspended_iff {snapshot last : PlanSnapshot} {transitions : List PlanTransition}
    (hstate : snapshot.state = .suspended) (h : snapshot.applyAll transitions = .ok last)
    (hplan : ∀ transition ∈ transitions,
      transition ≠ .resume ∧ transition ≠ .supersede ∧ transition ≠ .fail) :
    (last.state = .suspended ∧ ∀ (stepId : PlanStepId) (before after : StepProgress),
      snapshot.step stepId = some before → last.step stepId = some after →
        after.attempts ≤ before.attempts) ↔
      ∀ stepId : PlanStepId, .start stepId ∉ transitions := by
  constructor
  · rintro ⟨-, hattempts⟩ stepId hmem
    obtain ⟨before, after, hbefore, hafter, hlt⟩ := attemptsOf_lt_of_start h hmem
    exact Nat.not_lt.mpr (hattempts stepId before after hbefore hafter) hlt
  · intro hstart
    obtain ⟨hlast, hattempts⟩ := suspended_applyAll h hstate hplan hstart
    refine ⟨hlast, fun stepId before after hbefore hafter ↦ Nat.le_of_eq ?_⟩
    have hsame := hattempts stepId
    rw [PlanSnapshot.step] at hbefore hafter
    rwa [attemptsOf, attemptsOf, hbefore, hafter] at hsame

/-! ## Two independent steps -/

section Pair

/-- A Plan of two independent steps, up to `width` of them at a time. -/
def pairPlan (width : UInt32) (hwidth : width ≠ 0 ∧ width ≤ 2) : PlanDefinitionV1 where
  planId := ⟨"plan-1", by simp⟩
  planRevision := 1
  goalId := "goal-1"
  goalRevision := 1
  goalDefinitionDigest := Sha256.hex ""
  agentSnapshotDigest := Sha256.hex ""
  toolCatalogueDigest := Sha256.hex ""
  safetyPolicyRevision := "policy-1"
  steps := [independentStep firstStep, independentStep secondStep]
  bounds := ⟨2, width, 2, none, none, by simpa using hwidth⟩
  admitted := {
    planRevision_ne_zero := by simp
    goalId_nonempty := by simp
    goalRevision_ne_zero := by simp
    digests := ⟨Sha256.isDigest_hex _, Sha256.isDigest_hex _, Sha256.isDigest_hex _⟩
    safetyPolicy_nonempty := by simp
    steps_nonempty := by simp
    steps_le := by simp
    ids_nodup := by simp [independentStep, firstStep_ne]
    dependsOn_declared := by simp [independentStep]
    acyclic := (validateAcyclic_eq_ok_iff (by simp [independentStep, firstStep_ne])).mpr
      ⟨fun _ ↦ 0, by simp [independentStep]⟩ }

/-- A projection of the two-step Plan. -/
def pair (width : UInt32) (hwidth : width ≠ 0 ∧ width ≤ 2) (state : PlanState)
    (first second : StepProgress) (totalAttempts : Nat) : PlanSnapshot where
  definition := pairPlan width hwidth
  state
  steps := ((∅ : Map PlanStepId StepProgress).insert firstStep first).insert secondStep second
  totalAttempts

variable {width : UInt32} {hwidth : width ≠ 0 ∧ width ≤ 2} {state : PlanState}
  {first second progress : StepProgress} {totalAttempts : Nat}

@[simp] theorem get?_pair_first :
    (pair width hwidth state first second totalAttempts).steps[firstStep]? = some first :=
  (Map.get?_insert_of_ne firstStep_ne.symm).trans (Map.get?_insert_self ..)

@[simp] theorem get?_pair_second :
    (pair width hwidth state first second totalAttempts).steps[secondStep]? = some second :=
  Map.get?_insert_self ..

theorem insert_pair_first : (pair width hwidth state first second totalAttempts).steps.insert
    firstStep progress = (pair width hwidth state progress second totalAttempts).steps := by
  apply Std.ExtTreeMap.ext_getElem?
  intro a
  simp only [pair, Map.get?_insert]
  by_cases hfirst : firstStep = a
  · subst hfirst
    simp [firstStep_ne.symm]
  · simp [hfirst]

theorem insert_pair_second : (pair width hwidth state first second totalAttempts).steps.insert
    secondStep progress = (pair width hwidth state first progress totalAttempts).steps := by
  apply Std.ExtTreeMap.ext_getElem?
  intro a
  simp only [pair, Map.get?_insert]
  split <;> rfl

theorem setStep_pair_first : (pair width hwidth state first second totalAttempts).setStep firstStep
    progress = pair width hwidth state progress second totalAttempts := by
  rw [setStep, insert_pair_first]
  rfl

theorem setStep_pair_second : (pair width hwidth state first second totalAttempts).setStep secondStep
    progress = pair width hwidth state first progress totalAttempts := by
  rw [setStep, insert_pair_second]
  rfl

theorem activeCount_pair : (pair width hwidth state first second totalAttempts).activeCount =
    [first, second].countP fun progress ↦ progress.state == .claimed || progress.state == .running := by
  rw [activeCount_eq]
  · change [firstStep, secondStep].countP _ = _
    simp only [countP_cons, countP_nil, isActive, get?_pair_first, get?_pair_second,
      Option.any_some]
  · intro stepId
    change _ ↔ stepId ∈ [firstStep, secondStep]
    simp only [pair, Map.get?_insert, mem_cons, not_mem_nil, or_false]
    by_cases hfirst : firstStep = stepId
    · subst hfirst
      simp [firstStep_ne.symm]
    · by_cases hsecond : secondStep = stepId
      · simp [hsecond]
      · simp [hfirst, hsecond, Ne.symm hfirst, Ne.symm hsecond]

/-- Adopting the two-step Plan makes both steps Ready. -/
theorem apply_pair_adopt :
    (pair width hwidth .proposed ⟨.pending, 0⟩ ⟨.pending, 0⟩ 0).apply .adopt =
      .ok (pair width hwidth .adopted ⟨.ready, 0⟩ ⟨.ready, 0⟩ 0) := by
  have hsubset : ∀ completed : SetOf PlanStepId, SetOf.isSubset ∅ completed := fun _ ↦
    SetOf.isSubset_iff.mpr (by simp)
  have hfirst : ∀ completed, refreshStep completed
      (pair width hwidth .adopted ⟨.pending, 0⟩ ⟨.pending, 0⟩ 0).steps (independentStep firstStep) =
      (pair width hwidth .adopted ⟨.ready, 0⟩ ⟨.pending, 0⟩ 0).steps := fun completed ↦ by
    simp [refreshStep, independentStep, hsubset, insert_pair_first]
  have hsecond : ∀ completed, refreshStep completed
      (pair width hwidth .adopted ⟨.ready, 0⟩ ⟨.pending, 0⟩ 0).steps (independentStep secondStep) =
      (pair width hwidth .adopted ⟨.ready, 0⟩ ⟨.ready, 0⟩ 0).steps := fun completed ↦ by
    simp [refreshStep, independentStep, hsubset, insert_pair_second]
  have hrefresh : (pair width hwidth .adopted ⟨.pending, 0⟩ ⟨.pending, 0⟩ 0).refreshReady =
      pair width hwidth .adopted ⟨.ready, 0⟩ ⟨.ready, 0⟩ 0 := by
    have hsteps : (pair width hwidth .adopted ⟨.pending, 0⟩ ⟨.pending, 0⟩ 0).definition.steps =
        [independentStep firstStep, independentStep secondStep] := rfl
    rw [refreshReady, if_pos (by simp [pair, pairPlan]), hsteps, foldl_cons, foldl_cons,
      foldl_nil, hfirst, hsecond]
    rfl
  exact congrArg Except.ok hrefresh

theorem apply_pair_first (hlive : state.isTerminal = false)
    (h : Applied (pair width hwidth state first second totalAttempts) transition ((pair width hwidth state first second totalAttempts).setStep firstStep progress)) :
    (pair width hwidth state first second totalAttempts).apply transition =
      .ok (pair width hwidth state progress second totalAttempts) := by
  rw [setStep_pair_first] at h
  exact apply_of_applied hlive h

theorem apply_pair_second (hlive : state.isTerminal = false)
    (h : Applied (pair width hwidth state first second totalAttempts) transition ((pair width hwidth state first second totalAttempts).setStep secondStep progress)) :
    (pair width hwidth state first second totalAttempts).apply transition =
      .ok (pair width hwidth state first progress totalAttempts) := by
  rw [setStep_pair_second] at h
  exact apply_of_applied hlive h

/-- Claiming a Ready step of the two-step Plan while the other one leaves a slot. -/
theorem apply_pair_claim_first (hstate : state = .adopted ∨ state = .running)
    (hslot : [second].countP (fun progress ↦ progress.state == .claimed || progress.state == .running) < width.toNat) :
    (pair width hwidth state ⟨.ready, attempts⟩ second totalAttempts).apply (.claim firstStep) =
      .ok (pair width hwidth state ⟨.claimed, attempts⟩ second totalAttempts) := by
  have hfree : (pair width hwidth state ⟨.ready, attempts⟩ second totalAttempts).activeCount <
      width.toNat := by
    rw [activeCount_pair]
    simpa [countP_cons] using hslot
  exact apply_pair_first (by rcases hstate with rfl | rfl <;> rfl)
    (.claim hstate hfree get?_pair_first)

theorem apply_pair_claim_second (hstate : state = .adopted ∨ state = .running)
    (hslot : [first].countP (fun progress ↦ progress.state == .claimed || progress.state == .running) < width.toNat) :
    (pair width hwidth state first ⟨.ready, attempts⟩ totalAttempts).apply (.claim secondStep) =
      .ok (pair width hwidth state first ⟨.claimed, attempts⟩ totalAttempts) := by
  have hfree : (pair width hwidth state first ⟨.ready, attempts⟩ totalAttempts).activeCount <
      width.toNat := by
    rw [activeCount_pair]
    simpa [countP_cons] using hslot
  exact apply_pair_second (by rcases hstate with rfl | rfl <;> rfl)
    (.claim hstate hfree get?_pair_second)

theorem apply_pair_start_first (hlive : state.isTerminal = false) (htotal : totalAttempts < 2) :
    (pair width hwidth state ⟨.claimed, 0⟩ second totalAttempts).apply (.start firstStep) =
      .ok (pair width hwidth .running ⟨.running, 1⟩ second (totalAttempts + 1)) := by
  have hdecl : (pairPlan width hwidth).findStep firstStep = some (independentStep firstStep) :=
    PlanDefinitionV1.findStep_eq_some_iff.mpr ⟨mem_cons_self, rfl⟩
  have happlied : Applied (pair width hwidth state ⟨.claimed, 0⟩ second totalAttempts) _ _ :=
    .start get?_pair_first htotal hdecl (by decide)
  rw [setStep_pair_first] at happlied
  exact apply_of_applied hlive happlied

theorem apply_pair_start_second (hlive : state.isTerminal = false) (htotal : totalAttempts < 2) :
    (pair width hwidth state first ⟨.claimed, 0⟩ totalAttempts).apply (.start secondStep) =
      .ok (pair width hwidth .running first ⟨.running, 1⟩ (totalAttempts + 1)) := by
  have hdecl : (pairPlan width hwidth).findStep secondStep = some (independentStep secondStep) :=
    PlanDefinitionV1.findStep_eq_some_iff.mpr
      ⟨mem_cons_of_mem _ (mem_singleton_self _), rfl⟩
  have happlied : Applied (pair width hwidth state first ⟨.claimed, 0⟩ totalAttempts) _ _ :=
    .start get?_pair_second htotal hdecl (by decide)
  rw [setStep_pair_second] at happlied
  exact apply_of_applied hlive happlied

end Pair

/-- The first step starts and is suspended; meanwhile the second one is claimed. -/
def claimedMeanwhile : List PlanTransition :=
  [.adopt, .claim firstStep, .start firstStep, .suspendStep firstStep, .claim secondStep]

/-- With one slot, the second step takes the slot of the suspended first one. -/
theorem applyAll_claimedMeanwhile :
    (new (pairPlan 1 (by decide))).applyAll claimedMeanwhile =
      .ok (pair 1 (by decide) .running ⟨.suspended, 1⟩ ⟨.claimed, 0⟩ 1) := by
  have hsuspend : (pair 1 (by decide) .running ⟨.running, 1⟩ ⟨.ready, 0⟩ 1).apply
      (.suspendStep firstStep) = .ok (pair 1 (by decide) .running ⟨.suspended, 1⟩ ⟨.ready, 0⟩ 1) :=
    apply_pair_first rfl (.suspendStep get?_pair_first)
  refine applyAll_cons_eq_ok_iff.mpr ⟨_, apply_pair_adopt, ?_⟩
  refine applyAll_cons_eq_ok_iff.mpr ⟨_, apply_pair_claim_first (.inl rfl) (by decide), ?_⟩
  refine applyAll_cons_eq_ok_iff.mpr ⟨_, apply_pair_start_first rfl (by decide), ?_⟩
  refine applyAll_cons_eq_ok_iff.mpr ⟨_, hsuspend, ?_⟩
  exact applyAll_cons_eq_ok_iff.mpr ⟨_, apply_pair_claim_second (.inr rfl) (by decide), rfl⟩

/-- That projection is sound, and stays so. -/
theorem sound_claimedMeanwhile :
    (pair 1 (by decide) .running ⟨.suspended, 1⟩ ⟨.claimed, 0⟩ 1).definition =
        pairPlan 1 (by decide) ∧
      (pair 1 (by decide) .running ⟨.suspended, 1⟩ ⟨.claimed, 0⟩ 1).Sound ∧
      ∀ (later : List PlanTransition) (last : PlanSnapshot),
        (pair 1 (by decide) .running ⟨.suspended, 1⟩ ⟨.claimed, 0⟩ 1).applyAll later = .ok last →
          ∀ stepId : PlanStepId,
            (pair 1 (by decide) .running ⟨.suspended, 1⟩ ⟨.claimed, 0⟩ 1).IsCompleted stepId →
              last.IsCompleted stepId :=
  sound_of_applyAll (pairPlan 1 (by decide)) applyAll_claimedMeanwhile

/-- Resuming the first step makes two steps active where one is admitted. -/
theorem resumed_beyond_bound : ∃ snapshot,
    (new (pairPlan 1 (by decide))).applyAll (claimedMeanwhile ++ [.resumeStep firstStep]) =
      .ok snapshot ∧ (pairPlan 1 (by decide)).bounds.maxParallelReady.toNat < snapshot.activeCount := by
  have hresume : (pair 1 (by decide) .running ⟨.suspended, 1⟩ ⟨.claimed, 0⟩ 1).apply
      (.resumeStep firstStep) = .ok (pair 1 (by decide) .running ⟨.running, 1⟩ ⟨.claimed, 0⟩ 1) :=
    apply_pair_first rfl (.resumeStep get?_pair_first)
  refine ⟨_, applyAll_append_eq_ok_iff.mpr ⟨_, applyAll_claimedMeanwhile,
    applyAll_cons_eq_ok_iff.mpr ⟨_, hresume, rfl⟩⟩, ?_⟩
  rw [activeCount_pair]
  decide

/-- The bound holds along the run before the resumption. -/
theorem claimedMeanwhile_within_bound :
    (pair 1 (by decide) .running ⟨.suspended, 1⟩ ⟨.claimed, 0⟩ 1).activeCount ≤
      (pairPlan 1 (by decide)).bounds.maxParallelReady.toNat := by
  refine activeCount_le_maxParallelReady (pairPlan 1 (by decide)) applyAll_claimedMeanwhile ?_
  intro before stepId after mid hsplit
  have hmem : PlanTransition.resumeStep stepId ∈ claimedMeanwhile := by
    rw [hsplit]
    simp
  simp [claimedMeanwhile] at hmem

/-- Both steps are claimed, the first one starts and the Plan is suspended. -/
def suspendedBeforeStart : List PlanTransition :=
  [.adopt, .claim firstStep, .start firstStep, .claim secondStep, .suspend]

theorem applyAll_suspendedBeforeStart :
    (new (pairPlan 2 (by decide))).applyAll suspendedBeforeStart =
      .ok (pair 2 (by decide) .suspended ⟨.running, 1⟩ ⟨.claimed, 0⟩ 1) := by
  have hsuspend : (pair 2 (by decide) .running ⟨.running, 1⟩ ⟨.claimed, 0⟩ 1).apply .suspend =
      .ok (pair 2 (by decide) .suspended ⟨.running, 1⟩ ⟨.claimed, 0⟩ 1) :=
    apply_of_applied rfl (.suspend rfl)
  refine applyAll_cons_eq_ok_iff.mpr ⟨_, apply_pair_adopt, ?_⟩
  refine applyAll_cons_eq_ok_iff.mpr ⟨_, apply_pair_claim_first (.inl rfl) (by decide), ?_⟩
  refine applyAll_cons_eq_ok_iff.mpr ⟨_, apply_pair_start_first rfl (by decide), ?_⟩
  refine applyAll_cons_eq_ok_iff.mpr ⟨_, apply_pair_claim_second (.inr rfl) (by decide), ?_⟩
  exact applyAll_cons_eq_ok_iff.mpr ⟨_, hsuspend, rfl⟩

/-- Starting the second step makes the suspended Plan run, with one attempt more. -/
theorem started_while_suspended : ∃ snapshot last,
    (new (pairPlan 2 (by decide))).applyAll suspendedBeforeStart = .ok snapshot ∧
      snapshot.state = .suspended ∧ snapshot.applyAll [.start secondStep] = .ok last ∧
      last.state = .running ∧ snapshot.step secondStep = some ⟨.claimed, 0⟩ ∧
      last.step secondStep = some ⟨.running, 1⟩ :=
  ⟨_, _, applyAll_suspendedBeforeStart, rfl,
    applyAll_cons_eq_ok_iff.mpr ⟨_, apply_pair_start_second rfl (by decide), rfl⟩, rfl,
    get?_pair_second, get?_pair_second⟩

/-- Suspending the running step too leaves the suspended Plan as it is. -/
theorem step_suspended_while_suspended :
    (pair 2 (by decide) .suspended ⟨.suspended, 1⟩ ⟨.claimed, 0⟩ 1).state = .suspended ∧
      ∀ (stepId : PlanStepId) (before after : StepProgress),
        (pair 2 (by decide) .suspended ⟨.running, 1⟩ ⟨.claimed, 0⟩ 1).step stepId = some before →
        (pair 2 (by decide) .suspended ⟨.suspended, 1⟩ ⟨.claimed, 0⟩ 1).step stepId = some after →
          after.attempts ≤ before.attempts := by
  have hsuspend : (pair 2 (by decide) .suspended ⟨.running, 1⟩ ⟨.claimed, 0⟩ 1).apply
      (.suspendStep firstStep) =
        .ok (pair 2 (by decide) .suspended ⟨.suspended, 1⟩ ⟨.claimed, 0⟩ 1) :=
    apply_pair_first rfl (.suspendStep get?_pair_first)
  have hrun : (pair 2 (by decide) .suspended ⟨.running, 1⟩ ⟨.claimed, 0⟩ 1).applyAll
      [.suspendStep firstStep] =
        .ok (pair 2 (by decide) .suspended ⟨.suspended, 1⟩ ⟨.claimed, 0⟩ 1) :=
    applyAll_cons_eq_ok_iff.mpr ⟨_, hsuspend, rfl⟩
  exact (stays_suspended_iff rfl hrun (by simp)).mpr (by simp)

end PlanSnapshot

end Garive
