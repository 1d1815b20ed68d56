import Garive.Plan.Lifecycle

/-!
# Plan step safety

What every transition does to the progress of a single step is said once, by `StepMove`. The
invariant of the projection follows from it: a step leaves Pending only after its dependencies are
completed, attempts are counted and bounded, and a completed Plan has completed every step.

## Counting

The number of attempts and the number of active steps are read from the entries of the progress map.
Its keys are the declared step identities (`Sound.keys`), so both are counts over the declaration,
where one step changes one summand.
-/

namespace Garive

open List

namespace PlanSnapshot

/-- The step has completed. -/
def IsCompleted (self : PlanSnapshot) (stepId : PlanStepId) : Prop :=
  ∃ attempts, self.steps[stepId]? = some ⟨.completed, attempts⟩

variable {stepId : PlanStepId}

variable {self : PlanSnapshot}

theorem contains_completedSteps_iff :
    self.completedSteps.contains stepId ↔ self.IsCompleted stepId := by
  simp only [completedSteps, SetOf.contains_ofList, decide_eq_true_eq, mem_map, mem_filter,
    Prod.exists, exists_and_right, exists_eq_right, Std.ExtTreeMap.mem_toList_iff_getElem?_eq_some,
    beq_iff_eq, IsCompleted]
  constructor
  · rintro ⟨⟨_, attempts⟩, hget, rfl⟩
    exact ⟨attempts, hget⟩
  · rintro ⟨attempts, hget⟩
    exact ⟨_, hget, rfl⟩

/-! ## Refreshing -/

section Refresh

@[simp] theorem definition_refreshReady (self : PlanSnapshot) :
    self.refreshReady.definition = self.definition := by
  unfold refreshReady
  split <;> rfl

@[simp] theorem state_refreshReady (self : PlanSnapshot) : self.refreshReady.state = self.state := by
  unfold refreshReady
  split <;> rfl

@[simp] theorem totalAttempts_refreshReady (self : PlanSnapshot) :
    self.refreshReady.totalAttempts = self.totalAttempts := by
  unfold refreshReady
  split <;> rfl

/-- What refreshing does to the progress of one step, given the completed steps. -/
inductive Refreshed (declaredSteps : List PlanStepV1) (completed : SetOf PlanStepId)
    (stepId : PlanStepId) : StepProgress → StepProgress → Prop
  | same (progress : StepProgress) : Refreshed declaredSteps completed stepId progress progress
  | readied {attempts : Nat} {declared : PlanStepV1} (hmem : declared ∈ declaredSteps)
    (hid : declared.stepId = stepId)
    (hdeps : SetOf.isSubset declared.dependsOn completed = true) :
    Refreshed declaredSteps completed stepId ⟨.pending, attempts⟩ ⟨.ready, attempts⟩

theorem refreshed_refreshStep (completed : SetOf PlanStepId) (steps : Map PlanStepId StepProgress)
    (declared : PlanStepV1) (stepId : PlanStepId) :
    Option.Rel (Refreshed [declared] completed stepId) steps[stepId]?
      (refreshStep completed steps declared)[stepId]? := by
  have hsame : Option.Rel (Refreshed [declared] completed stepId) steps[stepId]? steps[stepId]? := by
    cases steps[stepId]? with
    | none => exact .none
    | some progress => exact .some (.same progress)
  unfold refreshStep
  split
  · rename_i progress hget
    split
    · rename_i hready
      obtain ⟨hpend, -, hdeps⟩ := hready
      by_cases hid : declared.stepId = stepId
      · subst hid
        rw [hget, Map.get?_insert_self]
        obtain ⟨_, _⟩ := progress
        cases hpend
        exact .some (.readied (mem_singleton_self declared) rfl hdeps)
      · rw [Map.get?_insert_of_ne hid]
        exact hsame
    · exact hsame
  · exact hsame

theorem refreshed_foldl (completed : SetOf PlanStepId) (declaredSteps : List PlanStepV1)
    (steps : Map PlanStepId StepProgress) (stepId : PlanStepId) :
    Option.Rel (Refreshed declaredSteps completed stepId) steps[stepId]?
      (declaredSteps.foldl (refreshStep completed) steps)[stepId]? := by
  induction declaredSteps generalizing steps with
  | nil =>
    rw [foldl_nil]
    cases steps[stepId]? with
    | none => exact .none
    | some progress => exact .some (.same progress)
  | cons declared rest ih =>
    have hfirst := refreshed_refreshStep completed steps declared stepId
    have hrest := ih (refreshStep completed steps declared)
    rw [foldl_cons]
    generalize (rest.foldl (refreshStep completed) _)[stepId]? = last at hrest ⊢
    generalize (refreshStep completed steps declared)[stepId]? = mid at hfirst hrest
    generalize steps[stepId]? = first at hfirst
    -- A step made Ready is not Pending any more, so at most one of the two parts changes it.
    cases hfirst with
    | none =>
      cases hrest
      exact .none
    | some hfirst =>
      cases hrest with
      | some hrest =>
        refine .some ?_
        cases hfirst with
        | same =>
          cases hrest with
          | same => exact .same _
          | readied hmem hid hdeps =>
            exact .readied (mem_cons_of_mem _ hmem) hid hdeps
        | readied hmem hid hdeps =>
          cases hrest with
          | same =>
            rw [mem_singleton] at hmem
            exact .readied (hmem ▸ mem_cons_self) hid hdeps

/-- A refresh makes Pending steps Ready whose dependencies are completed, and nothing else. -/
theorem refreshed_refreshReady (self : PlanSnapshot) (stepId : PlanStepId) :
    Option.Rel (Refreshed self.definition.steps self.completedSteps stepId) self.steps[stepId]?
      self.refreshReady.steps[stepId]? := by
  unfold refreshReady
  split
  · exact refreshed_foldl ..
  · cases self.steps[stepId]? with
    | none => exact .none
    | some progress => exact .some (.same progress)

theorem IsCompleted.refreshReady (h : self.IsCompleted stepId) :
    self.refreshReady.IsCompleted stepId := by
  obtain ⟨attempts, hget⟩ := h
  have hrel := refreshed_refreshReady self stepId
  rw [hget] at hrel
  unfold IsCompleted
  generalize self.refreshReady.steps[stepId]? = last at hrel ⊢
  cases hrel with
  | some hrel =>
    cases hrel with
    | same => exact ⟨attempts, rfl⟩

end Refresh

/-! ## One step's progress -/

/-- What a successful transition does to the progress of one step. -/
inductive StepMove (next : PlanSnapshot) (transition : PlanTransition) (stepId : PlanStepId) :
    StepProgress → StepProgress → Prop
  | same (progress : StepProgress) : StepMove next transition stepId progress progress
  | readied {before : StepState} {attempts : Nat} {declared : PlanStepV1}
    (hbef : before = .pending ∨ before = .failed)
    (hmem : declared ∈ next.definition.steps) (hid : declared.stepId = stepId)
    (hdeps : ∀ id : PlanStepId, declared.dependsOn.contains id = true → next.IsCompleted id) :
    StepMove next transition stepId ⟨before, attempts⟩ ⟨.ready, attempts⟩
  | retried {attempts : Nat} : StepMove next transition stepId ⟨.failed, attempts⟩ ⟨.pending, attempts⟩
  | claimed {attempts : Nat} (htrans : transition = .claim stepId) :
    StepMove next transition stepId ⟨.ready, attempts⟩ ⟨.claimed, attempts⟩
  | expired {attempts : Nat} : StepMove next transition stepId ⟨.claimed, attempts⟩ ⟨.ready, attempts⟩
  | started {attempts : Nat} {declared : PlanStepV1} (htrans : transition = .start stepId)
    (hmem : declared ∈ next.definition.steps) (hid : declared.stepId = stepId)
    (hatts : attempts < declared.maxAttempts.toNat) :
    StepMove next transition stepId ⟨.claimed, attempts⟩ ⟨.running, attempts + 1⟩
  | completed {attempts : Nat} :
    StepMove next transition stepId ⟨.running, attempts⟩ ⟨.completed, attempts⟩
  | suspended {attempts : Nat} :
    StepMove next transition stepId ⟨.running, attempts⟩ ⟨.suspended, attempts⟩
  | resumed {attempts : Nat} (htrans : transition = .resumeStep stepId) :
    StepMove next transition stepId ⟨.suspended, attempts⟩ ⟨.running, attempts⟩
  | failed {attempts : Nat} :
    StepMove next transition stepId ⟨.running, attempts⟩ ⟨.failed, attempts⟩
  | carried {before : StepState} {attempts : Nat} {declared : PlanStepV1}
    (hmem : declared ∈ next.definition.steps) (hid : declared.stepId = stepId)
    (hdeps : ∀ id : PlanStepId, declared.dependsOn.contains id = true → next.IsCompleted id) :
    StepMove next transition stepId ⟨before, attempts⟩ ⟨.completed, attempts⟩

/-- Every step's progress moves in an admitted way. -/
def Moves (self next : PlanSnapshot) (transition : PlanTransition) : Prop :=
  ∀ stepId : PlanStepId,
    Option.Rel (StepMove next transition stepId) self.steps[stepId]? next.steps[stepId]?

variable {transition : PlanTransition}

variable {next : PlanSnapshot}

theorem moves_of_steps_eq (h : next.steps = self.steps) :
    Moves self next transition := by
  intro stepId
  rw [h]
  cases self.steps[stepId]? with
  | none => exact .none
  | some progress => exact .some (.same progress)

theorem moves_setStep {before after : StepProgress}
    (hget : self.steps[stepId]? = some before) (hnext : next.steps = self.steps.insert stepId after)
    (hmove : StepMove next transition stepId before after) : Moves self next transition := by
  intro id
  rw [hnext, Map.get?_insert]
  by_cases hid : stepId = id
  · subst hid
    rw [if_pos rfl, hget]
    exact .some hmove
  · rw [if_neg hid]
    cases self.steps[id]? with
    | none => exact .none
    | some progress => exact .some (.same progress)

/-- Refreshing after a move is again a move. -/
theorem Moves.refreshReady (h : Moves self next transition) :
    Moves self next.refreshReady transition := by
  intro stepId
  have hmove := h stepId
  have hrefresh := refreshed_refreshReady next stepId
  generalize next.refreshReady.steps[stepId]? = last at hrefresh ⊢
  generalize next.steps[stepId]? = mid at hmove hrefresh
  generalize self.steps[stepId]? = first at hmove ⊢
  cases hmove with
  | none =>
    cases hrefresh
    exact .none
  | some hmove =>
    cases hrefresh with
    | some hrefresh =>
      refine .some ?_
      cases hrefresh with
      | same =>
        cases hmove with
        | same => exact .same _
        | readied hbef hmem hid hdeps =>
          exact .readied hbef (by simpa using hmem) hid
            fun id hcontains ↦ (hdeps id hcontains).refreshReady
        | retried => exact .retried
        | claimed htrans => exact .claimed htrans
        | expired => exact .expired
        | started htrans hmem hid hatts =>
          exact .started htrans (by simpa using hmem) hid hatts
        | completed => exact .completed
        | suspended => exact .suspended
        | resumed htrans => exact .resumed htrans
        | failed => exact .failed
        | carried hmem hid hdeps =>
          exact .carried (by simpa using hmem) hid
            fun id hcontains ↦ (hdeps id hcontains).refreshReady
      | readied hmem hid hsubset =>
        have hdeps : ∀ id, _ → next.refreshReady.IsCompleted id := fun id hcontains ↦
          (contains_completedSteps_iff.mp (SetOf.isSubset_iff.mp hsubset id hcontains)).refreshReady
        cases hmove with
        | same => exact .readied (.inl rfl) (by simpa using hmem) hid hdeps
        | retried => exact .readied (.inr rfl) (by simpa using hmem) hid hdeps

/-- The progress map after carrying steps. -/
theorem get?_carry {steps carriedSteps : Map PlanStepId StepProgress} {carried : List PlanStepId}
    (h : carry steps carried = .ok carriedSteps) (stepId : PlanStepId) :
    carriedSteps[stepId]? = (steps[stepId]?).map fun progress ↦
      if stepId ∈ carried then { progress with state := .completed } else progress := by
  induction carried generalizing steps with
  | nil =>
    cases h
    simp
  | cons first rest ih =>
    simp only [carry, ok_iff] at h
    obtain ⟨progress, hget, hrest⟩ := h
    rw [ih hrest, Map.get?_insert]
    by_cases hid : first = stepId
    · subst hid
      simp [hget]
    · simp [hid, show stepId ≠ first from fun heq ↦ hid heq.symm]

theorem isCompleted_of_carry {steps carriedSteps : Map PlanStepId StepProgress}
    {carried : List PlanStepId} (h : carry steps carried = .ok carriedSteps)
    (hmem : stepId ∈ carried) :
    ∃ attempts, carriedSteps[stepId]? = some ⟨.completed, attempts⟩ := by
  have hsome : ∃ progress, steps[stepId]? = some progress := by
    induction carried generalizing steps with
    | nil => simp at hmem
    | cons first rest ih =>
      simp only [carry, ok_iff] at h
      obtain ⟨progress, hget, hrest⟩ := h
      by_cases hid : first = stepId
      · exact ⟨progress, hid ▸ hget⟩
      · obtain ⟨found, hfound⟩ := ih hrest (by simpa [Ne.symm hid] using hmem)
        rw [Map.get?_insert_of_ne hid] at hfound
        exact ⟨found, hfound⟩
  obtain ⟨progress, hget⟩ := hsome
  exact ⟨progress.attempts, by rw [get?_carry h, hget]; simp [hmem]⟩

theorem moves_carry {carried : SetOf PlanStepId}
    (hdef : next.definition = self.definition)
    (hclosed : ∀ stepId : PlanStepId, carried.contains stepId → ∃ declared, self.definition.findStep stepId = some declared ∧ SetOf.isSubset declared.dependsOn carried)
    (hcarry : carry self.steps carried.toList = .ok next.steps) :
    Moves self next (.adoptWithCarryForward carried) := by
  intro stepId
  rw [get?_carry hcarry stepId]
  cases self.steps[stepId]? with
  | none => exact .none
  | some progress =>
    refine .some ?_
    dsimp only
    by_cases hmem : stepId ∈ carried.toList
    · rw [if_pos hmem]
      obtain ⟨declared, hdecl, hsubset⟩ := hclosed stepId
        (Std.ExtTreeSet.contains_iff_mem.mpr (Std.ExtTreeSet.mem_toList.mp hmem))
      obtain ⟨hdecl, hid⟩ := PlanDefinitionV1.findStep_eq_some_iff.mp hdecl
      refine .carried (hdef ▸ hdecl) hid fun id hcontains ↦ isCompleted_of_carry hcarry ?_
      exact Std.ExtTreeSet.mem_toList.mpr (Std.ExtTreeSet.contains_iff_mem.mp
        (SetOf.isSubset_iff.mp hsubset id hcontains))
    · rw [if_neg hmem]
      exact .same progress

@[simp] theorem definition_setStep (self : PlanSnapshot) (stepId : PlanStepId)
    (progress : StepProgress) : (self.setStep stepId progress).definition = self.definition := rfl

/-- A transition keeps the definition. -/
theorem Applied.definition (h : Applied self transition next) :
    next.definition = self.definition := by
  cases h <;> simp

/-- **What a transition does to every step.** -/
theorem Applied.moves (h : Applied self transition next) :
    Moves self next transition := by
  cases h with
  | adopt | resume => exact Moves.refreshReady (moves_of_steps_eq rfl)
  | carried _ hclosed hcarry => exact Moves.refreshReady (moves_carry rfl hclosed hcarry)
  | reject | suspend | supersede | fail | complete => exact moves_of_steps_eq rfl
  | claim _ _ hget => exact moves_setStep hget rfl (.claimed rfl)
  | expireClaim hget => exact moves_setStep hget rfl .expired
  | start hget _ hdecl hatts =>
    obtain ⟨hmem, hid⟩ := PlanDefinitionV1.findStep_eq_some_iff.mp hdecl
    exact moves_setStep hget rfl (.started rfl hmem hid hatts)
  | completeStep hget => exact (moves_setStep hget rfl .completed).refreshReady
  | suspendStep hget => exact moves_setStep hget rfl .suspended
  | resumeStep hget => exact moves_setStep hget rfl (.resumed rfl)
  | failStep hget => exact moves_setStep hget rfl .failed
  | retryStep hget => exact (moves_setStep hget rfl .retried).refreshReady

/-- Completed steps stay completed. -/
theorem Moves.isCompleted (h : Moves self next transition)
    (hdone : self.IsCompleted stepId) : next.IsCompleted stepId := by
  obtain ⟨attempts, hget⟩ := hdone
  have hmove := h stepId
  rw [hget] at hmove
  unfold IsCompleted
  generalize next.steps[stepId]? = last at hmove ⊢
  cases hmove with
  | some hmove =>
    cases hmove with
    | same => exact ⟨attempts, rfl⟩
    | readied hbef => simp at hbef
    | carried => exact ⟨attempts, rfl⟩

theorem Moves.isSome_iff (h : Moves self next transition)
    (stepId : PlanStepId) : (next.steps[stepId]?).isSome = (self.steps[stepId]?).isSome := by
  have hmove := h stepId
  generalize next.steps[stepId]? = last at hmove ⊢
  generalize self.steps[stepId]? = first at hmove ⊢
  cases hmove <;> rfl

/-- Where a step's progress came from. -/
theorem Moves.exists_before (h : Moves self next transition)
    {after : StepProgress} (hget : next.steps[stepId]? = some after) :
    ∃ before, self.steps[stepId]? = some before ∧ StepMove next transition stepId before after := by
  have hmove := h stepId
  rw [hget] at hmove
  generalize self.steps[stepId]? = first at hmove ⊢
  cases hmove with
  | some hmove => exact ⟨_, rfl, hmove⟩

/-! ## Counts -/

/-- The attempts of one step. -/
def attemptsOf (self : PlanSnapshot) (stepId : PlanStepId) : Nat :=
  (self.steps[stepId]?).elim 0 (·.attempts)

/-- The sum of the attempts of all steps. -/
def sumAttempts (self : PlanSnapshot) : Nat := (self.steps.toList.map (·.2.attempts)).sum

/-- Whether a step is claimed or running. -/
def isActive (self : PlanSnapshot) (stepId : PlanStepId) : Bool :=
  (self.steps[stepId]?).any fun progress ↦ progress.state == .claimed || progress.state == .running

section Counts

variable {self : PlanSnapshot}
  (hkeys : ∀ stepId : PlanStepId,
    (self.steps[stepId]?).isSome = true ↔ stepId ∈ self.definition.stepIds)

include hkeys

theorem toList_perm : self.steps.toList.Perm
    (self.definition.stepIds.filterMap fun k ↦ (self.steps[k]?).map fun v ↦ (k, v)) :=
  Map.toList_perm_filterMap self.steps self.definition.nodup_stepIds
    fun k v hget ↦ (hkeys k).mp (by simp [hget])

theorem sumAttempts_eq : self.sumAttempts = (self.definition.stepIds.map self.attemptsOf).sum := by
  rw [sumAttempts, ((toList_perm hkeys).map _).sum_nat]
  induction self.definition.stepIds with
  | nil => rfl
  | cons k rest ih =>
    rw [filterMap_cons, map_cons, sum_cons, ← ih, attemptsOf]
    cases self.steps[k]? with
    | none => simp
    | some progress => simp

theorem activeCount_eq : self.activeCount = self.definition.stepIds.countP self.isActive := by
  rw [activeCount, (toList_perm hkeys).countP_eq, countP_filterMap]
  congr 1
  funext k
  unfold isActive
  cases self.steps[k]? <;> rfl

end Counts

/-- The transition starts an attempt of the step. -/
theorem Moves.attemptsOf (h : Moves self next transition)
    (stepId : PlanStepId) : next.attemptsOf stepId = self.attemptsOf stepId ∨
      transition = .start stepId ∧ next.attemptsOf stepId = self.attemptsOf stepId + 1 := by
  have hmove := h stepId
  unfold PlanSnapshot.attemptsOf
  generalize next.steps[stepId]? = last at hmove ⊢
  generalize self.steps[stepId]? = first at hmove ⊢
  cases hmove with
  | none => exact .inl rfl
  | some hmove =>
    cases hmove with
    | started htrans => exact .inr ⟨htrans, rfl⟩
    | _ => exact .inl rfl

theorem Applied.attemptsOf_start (h : Applied self (.start stepId) next) :
    next.attemptsOf stepId = self.attemptsOf stepId + 1 ∧
      next.totalAttempts = self.totalAttempts + 1 ∧
      next.totalAttempts ≤ next.definition.bounds.maxTotalAttempts.toNat := by
  cases h with
  | start hget htotal =>
    refine ⟨?_, rfl, htotal⟩
    simp [PlanSnapshot.attemptsOf, setStep, hget]

theorem Applied.totalAttempts_of_ne_start (h : Applied self transition next)
    (hne : ∀ stepId, transition ≠ .start stepId) : next.totalAttempts = self.totalAttempts := by
  cases h with
  | start => exact absurd rfl (hne _)
  | _ => simp [setStep]

/-- A sum in which one summand grows by one. -/
theorem sum_map_add_one {κ : Type} [DecidableEq κ] {keys : List κ} (hnodup : keys.Nodup)
    {f g : κ → Nat} {a : κ} (ha : a ∈ keys) (hstep : g a = f a + 1)
    (hrest : ∀ k, k ≠ a → g k = f k) : (keys.map g).sum = (keys.map f).sum + 1 := by
  induction keys with
  | nil => simp at ha
  | cons k rest ih =>
    obtain ⟨hnot, hnodup⟩ := nodup_cons.mp hnodup
    rw [map_cons, map_cons, sum_cons, sum_cons]
    by_cases hk : k = a
    · subst hk
      have hsame : rest.map g = rest.map f :=
        map_congr_left fun b hb ↦ hrest b fun heq ↦ hnot (heq ▸ hb)
      rw [hsame, hstep]
      omega
    · have hmem : a ∈ rest := by
        rcases mem_cons.mp ha with rfl | hmem
        · exact absurd rfl hk
        · exact hmem
      rw [ih hnodup hmem, hrest k hk]
      omega

/-- A count in which one element joins grows by one at most. -/
theorem countP_le_add_one {κ : Type} [DecidableEq κ] {keys : List κ} (hnodup : keys.Nodup)
    {p q : κ → Bool} {a : κ} (h : ∀ k, q k → p k ∨ k = a) :
    keys.countP q ≤ keys.countP p + 1 := by
  induction keys with
  | nil => simp
  | cons k rest ih =>
    obtain ⟨hnot, hnodup⟩ := nodup_cons.mp hnodup
    rw [countP_cons, countP_cons]
    by_cases hk : k = a
    · subst hk
      have hmono : rest.countP q ≤ rest.countP p := countP_mono_left fun b hb hq ↦
        (h b hq).resolve_right fun heq ↦ hnot (heq ▸ hb)
      split <;> split <;> omega
    · have hmono : q k → p k := fun hq ↦ (h k hq).resolve_right hk
      have := ih hnodup
      by_cases hq : q k
      · rw [if_pos hq, if_pos (hmono hq)]
        omega
      · rw [if_neg hq]
        omega

/-! ## The invariant -/

/-- What holds of every projection a run reaches. -/
structure Sound (snapshot : PlanSnapshot) : Prop where
  /-- There is progress for exactly the declared steps. -/
  keys : ∀ stepId : PlanStepId,
    (snapshot.steps[stepId]?).isSome = true ↔ stepId ∈ snapshot.definition.stepIds
  /-- A step that is not Pending has completed dependencies. -/
  dependencies : ∀ declared ∈ snapshot.definition.steps, ∀ progress : StepProgress,
    snapshot.steps[declared.stepId]? = some progress → progress.state ≠ .pending →
      ∀ stepId : PlanStepId, declared.dependsOn.contains stepId = true → snapshot.IsCompleted stepId
  /-- A step stays within its attempt bound. -/
  attempts : ∀ declared ∈ snapshot.definition.steps, ∀ progress : StepProgress,
    snapshot.steps[declared.stepId]? = some progress →
      progress.attempts ≤ declared.maxAttempts.toNat
  /-- The total is the sum over the steps. -/
  total : snapshot.totalAttempts = snapshot.sumAttempts
  /-- The total stays within the Plan's bound. -/
  total_le : snapshot.totalAttempts ≤ snapshot.definition.bounds.maxTotalAttempts.toNat
  /-- A completed Plan has completed every step. -/
  completed : snapshot.state = .completed →
    ∀ stepId ∈ snapshot.definition.stepIds, snapshot.IsCompleted stepId

theorem get?_new (definition : PlanDefinitionV1) (stepId : PlanStepId) :
    (new definition).steps[stepId]? =
      if stepId ∈ definition.stepIds then some ⟨.pending, 0⟩ else none := by
  rw [new, Map.get?_foldl_insert]
  simp

theorem sound_new (definition : PlanDefinitionV1) : Sound (new definition) := by
  have hkeys : ∀ stepId : PlanStepId,
      ((new definition).steps[stepId]?).isSome ↔ stepId ∈ definition.stepIds := by
    intro stepId
    rw [get?_new]
    by_cases h : stepId ∈ definition.stepIds <;> simp [h]
  have hpend : ∀ (stepId : PlanStepId) (progress : StepProgress),
      (new definition).steps[stepId]? = some progress → progress = ⟨.pending, 0⟩ := by
    intro stepId progress hget
    rw [get?_new] at hget
    split at hget
    · exact (Option.some.inj hget).symm
    · simp at hget
  exact {
    keys := hkeys
    dependencies := fun declared _ progress hget hstate ↦ by
      rw [hpend _ _ hget] at hstate
      exact absurd rfl hstate
    attempts := fun declared _ progress hget ↦ by
      rw [hpend _ _ hget]
      exact Nat.zero_le _
    total := by
      rw [sumAttempts_eq hkeys]
      refine (List.sum_eq_zero_iff_forall_eq_nat.mpr fun n hn ↦ ?_).symm
      obtain ⟨stepId, -, rfl⟩ := List.mem_map.mp hn
      unfold PlanSnapshot.attemptsOf
      rw [get?_new]
      split <;> rfl
    total_le := Nat.zero_le _
    completed := by simp [new] }

theorem Sound.total_of_applied (hsound : Sound self)
    (h : Applied self transition next)
    (hkeys : ∀ stepId : PlanStepId, (next.steps[stepId]?).isSome ↔ stepId ∈ next.definition.stepIds) :
    next.totalAttempts = next.sumAttempts ∧
      next.totalAttempts ≤ next.definition.bounds.maxTotalAttempts.toNat := by
  have hsum := hsound.total
  rw [sumAttempts_eq hsound.keys] at hsum
  rw [sumAttempts_eq hkeys, h.definition]
  -- Only `start` changes a summand, and it changes the total with it.
  by_cases hstart : ∃ stepId, transition = .start stepId
  · obtain ⟨stepId, rfl⟩ := hstart
    obtain ⟨hone, htotal, hle⟩ := h.attemptsOf_start
    have hmem : stepId ∈ self.definition.stepIds := by
      cases h with
      | start hget => exact (hsound.keys stepId).mp (by simp [hget])
    refine ⟨?_, h.definition ▸ hle⟩
    rw [htotal, hsum, sum_map_add_one self.definition.nodup_stepIds hmem hone]
    intro id hne
    rcases h.moves.attemptsOf id with hsame | ⟨heq, -⟩
    · exact hsame
    · exact absurd (PlanTransition.start.inj heq).symm hne
  · have hne : ∀ stepId, transition ≠ .start stepId := fun stepId heq ↦ hstart ⟨stepId, heq⟩
    rw [h.totalAttempts_of_ne_start hne]
    refine ⟨?_, hsound.total_le⟩
    rw [hsum]
    congr 1
    refine map_congr_left fun id _ ↦ ?_
    rcases h.moves.attemptsOf id with hsame | ⟨heq, -⟩
    · exact hsame.symm
    · exact absurd heq (hne id)

theorem Sound.completed_of_applied (hsound : Sound self)
    (h : Applied self transition next) (hlive : self.state ≠ .completed)
    (hstate : next.state = .completed) :
    ∀ stepId ∈ next.definition.stepIds, next.IsCompleted stepId := by
  cases h with
  | complete _ hsteps =>
    intro stepId hmem
    obtain ⟨⟨_, attempts⟩, hget⟩ := Option.isSome_iff_exists.mp ((hsound.keys stepId).mpr hmem)
    cases hsteps stepId _ hget
    exact ⟨attempts, hget⟩
  | carried =>
    rw [state_refreshReady] at hstate
    dsimp only at hstate
    split at hstate <;> simp at hstate
  | claim | expireClaim | suspendStep | resumeStep | failStep => exact absurd hstate hlive
  | completeStep | retryStep =>
    rw [state_refreshReady] at hstate
    exact absurd hstate hlive
  | _ => simp at hstate

/-- One transition keeps the invariant. -/
theorem Sound.applied (hsound : Sound self) (h : Applied self transition next)
    (hlive : self.state ≠ .completed) : Sound next := by
  have hkeys : ∀ stepId : PlanStepId,
      (next.steps[stepId]?).isSome ↔ stepId ∈ next.definition.stepIds := by
    intro stepId
    rw [h.moves.isSome_iff, h.definition]
    exact hsound.keys stepId
  obtain ⟨htotal, htotal_le⟩ := hsound.total_of_applied h hkeys
  refine {
    keys := hkeys
    dependencies := ?_
    attempts := ?_
    total := htotal
    total_le := htotal_le
    completed := hsound.completed_of_applied h hlive }
  · intro declared hmem progress hget hstate stepId hcontains
    obtain ⟨before, hbef, hmove⟩ := h.moves.exists_before hget
    have hself : before.state ≠ .pending → next.IsCompleted stepId := fun hne ↦
      h.moves.isCompleted (hsound.dependencies declared (h.definition ▸ hmem) before hbef hne
        stepId hcontains)
    -- The move names the declared step itself, identities being unique.
    have hunique : ∀ other ∈ next.definition.steps, other.stepId = declared.stepId →
        other = declared := fun other hother hid ↦
      inj_on_of_nodup_map next.definition.admitted.ids_nodup hother hmem hid
    cases hmove with
    | same => exact hself hstate
    | readied _ hother hid hdeps =>
      exact hdeps stepId (hunique _ hother hid ▸ hcontains)
    | carried hother hid hdeps =>
      exact hdeps stepId (hunique _ hother hid ▸ hcontains)
    | retried => exact absurd rfl hstate
    | _ => exact hself (by simp)
  · intro declared hmem progress hget
    obtain ⟨before, hbef, hmove⟩ := h.moves.exists_before hget
    have hself := hsound.attempts declared (h.definition ▸ hmem) before hbef
    cases hmove with
    | started _ hother hid hatts =>
      have heq := inj_on_of_nodup_map next.definition.admitted.ids_nodup hother hmem hid
      exact heq ▸ hatts
    | _ => exact hself

/-! ## Runs -/

theorem Sound.apply (hsound : Sound self)
    (h : self.apply transition = .ok next) : Sound next := by
  refine hsound.applied (applied_of_apply h) fun hstate ↦ ?_
  have := not_terminal_of_apply h
  rw [hstate] at this
  simp [PlanState.isTerminal] at this

variable {transitions : List PlanTransition}

variable {self last : PlanSnapshot}

theorem Sound.applyAll (hsound : Sound self)
    (h : self.applyAll transitions = .ok last) : Sound last :=
  applyAll_induction (P := Sound) hsound (fun _ _ _ hbef happly ↦ hbef.apply happly) h

theorem definition_applyAll (h : self.applyAll transitions = .ok last) :
    last.definition = self.definition :=
  applyAll_induction (P := fun snapshot ↦ snapshot.definition = self.definition) rfl
    (fun _ _ _ hbef happly ↦ (applied_of_apply happly).definition.trans hbef) h

theorem IsCompleted.applyAll (hdone : self.IsCompleted stepId)
    (h : self.applyAll transitions = .ok last) : last.IsCompleted stepId :=
  applyAll_induction (P := fun snapshot ↦ snapshot.IsCompleted stepId) hdone
    (fun _ _ _ hbef happly ↦ (applied_of_apply happly).moves.isCompleted hbef) h

/-- **Plan step safety.** Every projection that transitions lead to from a proposal is sound, and
the steps it has completed stay completed whatever is applied to it later. -/
theorem sound_of_applyAll (definition : PlanDefinitionV1) {transitions : List PlanTransition}
    {snapshot : PlanSnapshot} (h : (new definition).applyAll transitions = .ok snapshot) :
    snapshot.definition = definition ∧ snapshot.Sound ∧
      ∀ (later : List PlanTransition) (last : PlanSnapshot), snapshot.applyAll later = .ok last →
        ∀ stepId : PlanStepId, snapshot.IsCompleted stepId → last.IsCompleted stepId :=
  ⟨definition_applyAll h, (sound_new definition).applyAll h,
    fun _ _ hlater _ hdone ↦ hdone.applyAll hlater⟩

end PlanSnapshot

end Garive
