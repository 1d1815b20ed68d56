import Garive.Ledger.Projection.Trace

/-!
# How tool invocations move

Every fact that writes the tables of tool invocations, with everything it asks for and everything it
writes. `ToolMove` has one case per kind of move; `apply_toolMove` says that an accepted fact is one
of them. Invariants of tool invocations are proved over these cases and never look into an operation
again.
-/

namespace Garive

namespace SessionProjection

/-- The decision a safety fact states. -/
structure Decides (lib : Externals) (fact : FactDraft) (record : F0Record) : Prop where
  decision : payloadText? lib fact "decision_id" = some record.decisionId
  disposition : (payloadText? lib fact "disposition").bind safetyDisposition = some record.disposition
  prepared : payloadText? lib fact "prepared_digest" = some record.preparedDigest
  policy : payloadText? lib fact "policy_revision" = some record.policyRevision
  constraints : payloadText? lib fact "constraints_digest" = record.constraintsDigest
  unbound : record.sandbox = none

/-- The authorization repeats the decision that allowed it. -/
structure Repeats (lib : Externals) (fact : FactDraft) (record : F0Record) : Prop where
  version : fact.schemaVersion = 2
  allowed : record.disposition = .allow
  prepared : payloadText? lib fact "prepared_digest" = some record.preparedDigest
  policy : payloadText? lib fact "authority_revision" = some record.policyRevision
  constraints : payloadText? lib fact "constraints_digest" = record.constraintsDigest
  constrained : record.constraintsDigest.isSome = true

/-- The sandbox fact is for the executor of the proof and for the decision's invocation. -/
structure BoundTo (lib : Externals) (fact : FactDraft) (record : F0Record)
    (proof : SandboxProofRecord) : Prop where
  prepared : payloadText? lib fact "prepared_digest" = some record.preparedDigest
  executor : payloadText? lib fact "executor_id" = some proof.executorId
  revision : payloadText? lib fact "executor_revision" = some proof.executorRevision

/-- The dispatch is the one the sandbox proof covers. -/
structure Covers (lib : Externals) (fact : FactDraft) (proof : SandboxProofRecord)
    (grant : String) : Prop where
  granted : proof.grantId = some grant
  executor : payloadText? lib fact "executor_id" = some proof.executorId
  revision : payloadText? lib fact "executor_revision" = some proof.executorRevision
  attempt : payloadText? lib fact "dispatch_attempt_id" = proof.dispatchAttemptId
  attempted : proof.dispatchAttemptId.isSome = true

/-- What a batch plan reads from its fact and finds in the projection. -/
structure Plans (lib : Externals) (p : SessionProjection) (fact : FactDraft) (digests : List Value)
    (tools : List ToolInvocationId) (steps : List Value) (maxParallel maxBuffered : Nat) : Prop where
  execution : ∃ execution, fact.executionId = some execution ∧
    p.batchTools execution digests = .ok tools
  payload : ∃ payload, payloadOf lib fact = .ok payload ∧
    contentValue lib payload "ordered_prepared_digests" = .ok (.array digests) ∧
    contentValue lib payload "steps" = .ok (.array steps)
  parallel : payloadNumber? lib fact "max_parallel_reads" = some maxParallel
  buffered : payloadNumber? lib fact "max_buffered_result_bytes" = some maxBuffered
  nodup : tools.Nodup
  covered : p.stepIndexes tools maxParallel maxBuffered steps = .ok (List.range tools.length)

/-- The moves of tool invocations. -/
inductive ToolMove (lib : Externals) (p : SessionProjection) (fact : FactDraft) : ToolTables → Prop
  | prepare {tool : ToolInvocationId} {execution : ExecutionId} {digest : String} {bytes : Nat}
    (hkind : fact.kind = .known .effectPrepared) (htool : fact.toolInvocationId = some tool)
    (hexec : fact.executionId = some execution) (hnew : p.tools[tool]? = none)
    (hdig : payloadText? lib fact "prepared_digest" = some digest)
    (hbytes : fact.schemaVersion = 2 ∨ fact.schemaVersion = 3 →
      payloadNumber? lib fact "max_result_bytes" = some bytes) :
    ToolMove lib p fact { p.toolTables with
      tools := p.tools.insert tool (execution, .prepared)
      toolDigests := p.toolDigests.insert tool digest
      toolContractVersions := p.toolContractVersions.insert tool fact.schemaVersion
      toolResultBytes := if fact.schemaVersion = 2 ∨ fact.schemaVersion = 3
        then p.toolResultBytes.insert tool bytes else p.toolResultBytes }
  | decide {tool : ToolInvocationId} {execution : ExecutionId} {record : F0Record}
    (hkind : fact.kind = .known .safetyDecided) (htool : fact.toolInvocationId = some tool)
    (hver : p.toolContractVersions[tool]? = some 3)
    (hentry : p.tools[tool]? = some (execution, .prepared)) (hnew : p.f0[tool]? = none)
    (hdig : p.toolDigests[tool]? = some record.preparedDigest) (hdecides : Decides lib fact record) :
    ToolMove lib p fact { p.toolTables with f0 := p.f0.insert tool record }
  | authorize {tool : ToolInvocationId} {execution : ExecutionId} {grant : String}
    (hkind : fact.kind = .known .effectAuthorized) (htool : fact.toolInvocationId = some tool)
    (hentry : p.tools[tool]? = some (execution, .prepared))
    (hgrant : payloadText? lib fact "grant_id" = some grant)
    (hallowed : p.toolContractVersions[tool]? = some 3 →
      ∃ record, p.f0[tool]? = some record ∧ Repeats lib fact record) :
    ToolMove lib p fact { p.toolTables with
      tools := p.tools.insert tool (execution, .authorized)
      toolGrants := p.toolGrants.insert tool grant }
  | bind {tool : ToolInvocationId} {record : F0Record} {proof : SandboxProofRecord}
    (hkind : fact.kind = .known .sandboxBound) (htool : fact.toolInvocationId = some tool)
    (hentry : p.tools[tool]?.map (·.2) = some .authorized) (hrec : p.f0[tool]? = some record)
    (hallowed : record.disposition = .allow) (hunbound : record.sandbox = none)
    (hbound : BoundTo lib fact record proof) (hungranted : proof.grantId = none) :
    ToolMove lib p fact { p.toolTables with
      f0 := p.f0.insert tool { record with sandbox := some proof } }
  | preflight {tool : ToolInvocationId} {record : F0Record} {proof : SandboxProofRecord}
    {grant attempt : String}
    (hkind : fact.kind = .known .sandboxPreflighted) (htool : fact.toolInvocationId = some tool)
    (hrec : p.f0[tool]? = some record) (hproof : record.sandbox = some proof)
    (hungranted : proof.grantId = none) (hbound : BoundTo lib fact record proof)
    (hgrant : payloadText? lib fact "grant_id" = some grant)
    (hgranted : p.toolGrants[tool]? = some grant)
    (hatt : payloadText? lib fact "dispatch_attempt_id" = some attempt) :
    ToolMove lib p fact { p.toolTables with
      f0 := p.f0.insert tool { record with
        sandbox := some { proof with grantId := some grant, dispatchAttemptId := some attempt } } }
  | start {tool : ToolInvocationId} {execution : ExecutionId} {current : InvocationState}
    {digest grant : String}
    (hkind : fact.kind = .known .effectStarted) (htool : fact.toolInvocationId = some tool)
    (hentry : p.tools[tool]? = some (execution, current))
    (hcur : current = .prepared ∨ current = .authorized)
    (hdig : payloadText? lib fact "prepared_digest" = some digest)
    (hprep : p.toolDigests[tool]? = some digest)
    (hgrant : payloadText? lib fact "grant_id" = some grant)
    (hgranted : p.toolGrants[tool]?.all (· == grant) = true)
    (hcovered : p.toolContractVersions[tool]? = some 3 → current = .authorized ∧
      ∃ record proof, p.f0[tool]? = some record ∧ record.sandbox = some proof ∧
        Covers lib fact proof grant)
    (hplanned : p.toolContractVersions[tool]? = some 2 → ∃ plan batch,
      p.toolBatchPlans[tool]? = some plan ∧ p.effectBatches[plan]? = some batch ∧
        batch.tools[batch.nextStart]? = some tool) :
    ToolMove lib p fact { p.toolTables with
      tools := p.tools.insert tool (execution, .started)
      toolGrants := p.toolGrants.insert tool grant
      effectBatches := p.advanceBatch tool .started }
  | plan {plan : String} {digests steps : List Value} {tools : List ToolInvocationId}
    {maxParallel maxBuffered : Nat}
    (hkind : fact.kind = .known .executionEffectBatchPlanned)
    (hplan : payloadText? lib fact "plan_digest" = some plan) (hnew : p.effectBatches[plan]? = none)
    (hplans : Plans lib p fact digests tools steps maxParallel maxBuffered) :
    ToolMove lib p fact { p.toolTables with
      toolBatchPlans := tools.foldl (fun plans tool ↦ plans.insert tool plan) p.toolBatchPlans
      effectBatches := p.effectBatches.insert plan { tools, nextStart := 0 } }
  /-- Outcomes and observations. -/
  | settle {tool : ToolInvocationId} {execution : ExecutionId} {current next : InvocationState}
    (hrole : roleOf fact.kind = .tool next) (htool : fact.toolInvocationId = some tool)
    (hnext : next ≠ .prepared ∧ next ≠ .authorized ∧ next ≠ .started)
    (hentry : p.tools[tool]? = some (execution, current)) :
    ToolMove lib p fact { p.toolTables with tools := p.tools.insert tool (execution, next) }

variable {lib : Externals} {p p' : SessionProjection} {fact : FactDraft}

variable {tool : ToolInvocationId} {payload : Object}

/-- The result bound of a prepared tool is kept from its second contract version on. -/
theorem toolTables_prepareToolExtras {q : SessionProjection}
    (h : q.prepareToolExtras fact tool payload = .ok p') :
    ∃ bytes, (fact.schemaVersion = 2 ∨ fact.schemaVersion = 3 →
        unsignedOf payload "max_result_bytes" = .ok bytes) ∧
      p'.toolTables = { q.toolTables with
        toolResultBytes := if fact.schemaVersion = 2 ∨ fact.schemaVersion = 3
          then q.toolResultBytes.insert tool bytes else q.toolResultBytes } := by
  unfold prepareToolExtras at h
  split at h
  · rename_i hver
    simp only [bind_eq_ok_iff] at h
    obtain ⟨bytes, hbytes, h⟩ := h
    refine ⟨bytes, fun _ ↦ hbytes, ?_⟩
    rw [if_pos hver]
    split at h
    · simp only [ok_iff] at h
      obtain ⟨_, -, _, -, rfl⟩ := h
      rfl
    · cases h
      rfl
  · rename_i hver
    cases h
    refine ⟨0, fun h ↦ absurd h hver, ?_⟩
    rw [if_neg hver]
    rfl

theorem prepareTool_toolMove (hkind : fact.kind = .known .effectPrepared)
    (h : p.prepareTool lib fact = .ok p') : ToolMove lib p fact p'.toolTables := by
  simp only [prepareTool, ok_iff, required_eq_ok_iff] at h
  obtain ⟨-, _, htool, _, hexec, hnew, _, hpay, _, hdig, _, -,
    _, -, h⟩ := h
  obtain ⟨_, hbytes, htables⟩ := toolTables_prepareToolExtras h
  rw [htables]
  exact .prepare hkind htool hexec hnew (payloadText?_eq hpay hdig)
    fun hver ↦ payloadNumber?_eq hpay (hbytes hver)

theorem decideSafety_toolMove (hkind : fact.kind = .known .safetyDecided)
    (h : p.decideSafety lib fact = .ok p') : ToolMove lib p fact p'.toolTables := by
  simp only [decideSafety, ok_iff, required_eq_ok_iff] at h
  obtain ⟨-, _, htool, _, -, ⟨hver, hentry, hnew⟩, _, hpay, _, hdig,
    hprep, _, -, _, -, -, _, -, -, _, -, -, _, htext, _,
    hdisp, _, hdecision, _, hpolicy, rfl⟩ := h
  refine .decide hkind htool hver hentry hnew hprep ⟨payloadText?_eq hpay hdecision, ?_,
    payloadText?_eq hpay hdig, payloadText?_eq hpay hpolicy,
    payloadText?_eq_bind hpay, rfl⟩
  rw [payloadText?_eq hpay htext, Option.bind_some, hdisp]

theorem bindSandbox_toolMove (hkind : fact.kind = .known .sandboxBound)
    (h : p.bindSandbox lib fact = .ok p') : ToolMove lib p fact p'.toolTables := by
  simp only [bindSandbox, ok_iff, required_eq_ok_iff] at h
  obtain ⟨-, _, htool, _, hpay, _, hrec, ⟨hallowed, hunbound, hentry⟩, _,
    -, -, _, hdig, rfl, _, -, -, _, -, _, hexecutor, _, hrev,
    rfl⟩ := h
  exact .bind hkind htool hentry hrec hallowed hunbound ⟨payloadText?_eq hpay hdig,
    payloadText?_eq hpay hexecutor, payloadText?_eq hpay hrev⟩ rfl

theorem preflightSandbox_toolMove (hkind : fact.kind = .known .sandboxPreflighted)
    (h : p.preflightSandbox lib fact = .ok p') : ToolMove lib p fact p'.toolTables := by
  simp only [preflightSandbox, ok_iff, required_eq_ok_iff] at h
  obtain ⟨-, _, htool, _, hpay, _, hrec, _, hproof, _, hgrant,
    hungranted, _, -, -, _, hdig, rfl, _, -, -, _, hexecutor, rfl,
    _, hrev, rfl, hgranted, _, hatt, rfl⟩ := h
  exact .preflight hkind htool hrec hproof hungranted ⟨payloadText?_eq hpay hdig,
    payloadText?_eq hpay hexecutor, payloadText?_eq hpay hrev⟩
    (payloadText?_eq hpay hgrant) hgranted (payloadText?_eq hpay hatt)

theorem observeTool_toolMove (hkind : fact.kind = .known .effectObservation)
    (h : p.observeTool lib fact = .ok p') : ToolMove lib p fact p'.toolTables := by
  simp only [observeTool, ok_iff, required_eq_ok_iff] at h
  obtain ⟨_, htool, _, -, _, -, _, hentry, ⟨rfl, -⟩, -, _, -, -, rfl⟩ := h
  exact .settle (by rw [hkind]; rfl) htool (by decide) hentry

theorem reconcileTool_toolMove (hkind : fact.kind = .known .effectReconciled)
    (h : p.reconcileTool lib fact = .ok p') : ToolMove lib p fact p'.toolTables := by
  simp only [reconcileTool, ok_iff, required_eq_ok_iff] at h
  obtain ⟨-, _, htool, _, -, _, -, _, -, ⟨-, hentry⟩, _, -, rfl⟩ := h
  exact .settle (by rw [hkind]; rfl) htool (by decide) hentry

theorem planEffectBatch_toolMove (hkind : fact.kind = .known .executionEffectBatchPlanned)
    (h : p.planEffectBatch lib fact = .ok p') : ToolMove lib p fact p'.toolTables := by
  simp only [planEffectBatch, ok_iff, required_eq_ok_iff, validateBatchSteps,
    Value.asArray_eq_some_iff] at h
  obtain ⟨-, execution, hexec, payload, hpay, plan, hplan, hnew, _, hdigs,
    _, rfl, -, _, htools, hnodup, _, hsteps, _, hparallel, _,
    hbuffered, ⟨_, rfl, _, hidxs, rfl⟩, rfl⟩ := h
  exact .plan hkind (payloadText?_eq hpay hplan) hnew
    ⟨⟨execution, hexec, htools⟩, ⟨payload, hpay, hdigs, hsteps⟩,
      payloadNumber?_eq hpay hparallel, payloadNumber?_eq hpay hbuffered, hnodup, hidxs⟩

/-! ### Transitions -/

variable {next : InvocationState}

/-- What every transition asks for, with the evidence of the move left to `validateEffectBinding`. -/
theorem transitionTool_eq_ok (h : p.transitionTool lib fact next = .ok p') :
    ∃ tool execution payload digest current bound, fact.toolInvocationId = some tool ∧
      payloadOf lib fact = .ok payload ∧ textOf payload "prepared_digest" = .ok digest ∧
      p.toolDigests[tool]? = some digest ∧ p.tools[tool]? = some (execution, current) ∧
      toolMoves current next ∧
      (p.toolContractVersions[tool]? = some 3 → p.f0Moves fact tool current next) ∧
      p.startsInBatchOrder tool next ∧
      p.validateEffectBinding tool current next payload = .ok bound ∧
      p'.toolTables = { bound.toolTables with
        tools := p.tools.insert tool (execution, next)
        effectBatches := p.advanceBatch tool next } := by
  simp only [transitionTool, ok_iff, required_eq_ok_iff] at h
  obtain ⟨-, tool, htool, execution, -, payload, hpay, digest, hdig, hprep, ⟨_, current⟩,
    hentry, rfl, hmoves, hf0, horder, bound, hbound, rfl⟩ := h
  exact ⟨tool, _, payload, digest, current, bound, htool, hpay, hdig, hprep, hentry,
    hmoves, hf0, horder, hbound, rfl⟩

theorem advanceBatch_eq (hnext : next ≠ .started) : p.advanceBatch tool next = p.effectBatches := by
  simp [advanceBatch, hnext]

theorem requireAllowedDecision_eq_ok (hpay : payloadOf lib fact = .ok payload)
    (hver : p.toolContractVersions[tool]? = some 3) (hschema : fact.schemaVersion = 2)
    (h : p.requireAllowedDecision tool payload = .ok ()) :
    ∃ record, p.f0[tool]? = some record ∧ Repeats lib fact record := by
  rw [requireAllowedDecision, if_pos hver] at h
  simp only [ok_iff] at h
  obtain ⟨record, hrec, hallowed, _, hdig, rfl, _, hrev, rfl, _,
    hcons, hsame⟩ := h
  exact ⟨record, hrec, hschema, hallowed, payloadText?_eq hpay hdig,
    payloadText?_eq hpay hrev, by rw [hsame, payloadText?_eq hpay hcons],
    by rw [hsame]; rfl⟩

theorem authorize_toolMove (hkind : fact.kind = .known .effectAuthorized)
    (h : p.transitionTool lib fact .authorized = .ok p') : ToolMove lib p fact p'.toolTables := by
  obtain ⟨_, _, _, _, current, _, htool, hpay, -, -, hentry, hmoves,
    hf0, -, hbound, htables⟩ := transitionTool_eq_ok h
  have hcur : current = .prepared := by
    cases current <;> first | rfl | cases hmoves
  subst hcur
  simp only [validateEffectBinding, ok_iff] at hbound
  obtain ⟨hallowed, _, hgrant, rfl⟩ := hbound
  rw [htables, advanceBatch_eq (by decide)]
  refine .authorize hkind htool hentry (payloadText?_eq hpay hgrant) fun hver ↦ ?_
  have hschema : fact.schemaVersion = 2 := by simpa [f0Moves] using hf0 hver
  exact requireAllowedDecision_eq_ok hpay hver hschema hallowed

theorem sandboxCovers_iff {grant executor revision attempt : String} :
    p.sandboxCovers tool grant executor revision attempt ↔
      ∃ record proof, p.f0[tool]? = some record ∧ record.sandbox = some proof ∧
        proof.grantId = some grant ∧ proof.executorId = executor ∧
        proof.executorRevision = revision ∧ proof.dispatchAttemptId = some attempt := by
  simp only [sandboxCovers, Option.any_eq_true, Option.bind_eq_some_iff, Bool.and_eq_true,
    beq_iff_eq, and_assoc]
  constructor
  · rintro ⟨proof, ⟨record, hrec, hproof⟩, hrest⟩
    exact ⟨record, proof, hrec, hproof, hrest⟩
  · rintro ⟨record, proof, hrec, hproof, hrest⟩
    exact ⟨proof, ⟨record, hrec, hproof⟩, hrest⟩

theorem startsInBatchOrder_iff (hver : p.toolContractVersions[tool]? = some 2) :
    p.startsInBatchOrder tool .started ↔ ∃ plan batch, p.toolBatchPlans[tool]? = some plan ∧
      p.effectBatches[plan]? = some batch ∧ batch.tools[batch.nextStart]? = some tool := by
  rw [startsInBatchOrder, if_pos ⟨rfl, hver⟩]
  simp [plannedBatch, Option.any_eq_true, Option.bind_eq_some_iff, and_assoc]

theorem start_toolMove (hkind : fact.kind = .known .effectStarted)
    (h : p.transitionTool lib fact .started = .ok p') : ToolMove lib p fact p'.toolTables := by
  obtain ⟨_, _, _, _, current, _, htool, hpay, hdig, hprep,
    hentry, hmoves, hf0, horder, hbound, htables⟩ := transitionTool_eq_ok h
  have hcur : current = .prepared ∨ current = .authorized := by
    cases current <;> first | exact .inl rfl | exact .inr rfl | cases hmoves
  simp only [validateEffectBinding, ok_iff] at hbound
  obtain ⟨_, hgrant, hgranted, hcover, _, _, _, _, rfl⟩ := hbound
  rw [htables]
  refine .start hkind htool hentry hcur (payloadText?_eq hpay hdig) hprep
    (payloadText?_eq hpay hgrant) hgranted (fun hver ↦ ⟨?_, ?_⟩)
    fun hver ↦ (startsInBatchOrder_iff hver).mp horder
  · simpa [f0Moves] using hf0 hver
  · rw [requireSandboxCover, if_pos hver] at hcover
    simp only [ok_iff, sandboxCovers_iff] at hcover
    obtain ⟨_, hfound, _, hfoundRev, _, hatt, record, proof, hrec,
      hproof, hproofGrant, rfl, rfl, hproofAtt⟩ := hcover
    exact ⟨record, proof, hrec, hproof, hproofGrant, payloadText?_eq hpay hfound,
      payloadText?_eq hpay hfoundRev,
      by rw [hproofAtt, payloadText?_eq hpay hatt], by rw [hproofAtt]; rfl⟩

/-- The other transitions record evidence outside these tables. -/
theorem toolTables_validateEffectBinding {bound : SessionProjection} {current : InvocationState}
    (hnext : next ≠ .prepared ∧ next ≠ .authorized ∧ next ≠ .started)
    (h : p.validateEffectBinding tool current next payload = .ok bound) :
    bound.toolTables = p.toolTables := by
  unfold validateEffectBinding at h
  split at h
  · exact absurd rfl hnext.2.1
  · exact absurd rfl hnext.2.2
  all_goals
    simp only [ok_iff] at h
  · obtain ⟨_, -, -, -, _, -, _, -, -, -, receipt, -, rfl⟩ := h
    rfl
  · obtain ⟨receipt, -, -, -, rfl⟩ := h
    rfl
  · obtain ⟨-, -, rfl⟩ := h
    rfl
  · rw [h]

theorem settle_toolMove (hrole : roleOf fact.kind = .tool next)
    (hnext : next ≠ .prepared ∧ next ≠ .authorized ∧ next ≠ .started)
    (h : p.transitionTool lib fact next = .ok p') : ToolMove lib p fact p'.toolTables := by
  obtain ⟨tool, _, _, _, _, _, htool, -, -, -, hentry, -, -, -, hbound,
    htables⟩ := transitionTool_eq_ok h
  rw [htables, toolTables_validateEffectBinding hnext hbound, advanceBatch_eq hnext.2.2]
  exact .settle hrole htool hnext hentry

/-- An accepted fact that writes the tables of tool invocations is one of the moves. -/
theorem apply_toolMove (hwr : fact.kind.writes = .tools) (h : p.apply lib fact = .ok p') :
    ToolMove lib p fact p'.toolTables := by
  obtain ⟨kind, hkind, hwr, happly⟩ := applyKind_of_apply hwr nofun h
  cases kind with
  | executionEffectBatchPlanned => exact planEffectBatch_toolMove hkind happly
  | effectPrepared => exact prepareTool_toolMove hkind happly
  | safetyDecided => exact decideSafety_toolMove hkind happly
  | effectAuthorized => exact authorize_toolMove hkind happly
  | sandboxBound => exact bindSandbox_toolMove hkind happly
  | sandboxPreflighted => exact preflightSandbox_toolMove hkind happly
  | effectStarted => exact start_toolMove hkind happly
  | effectReceipt | effectCompleted | effectFailed | effectDenied | effectUncertain =>
    exact settle_toolMove (by rw [hkind]; rfl) (by decide) happly
  | effectReconciled => exact reconcileTool_toolMove hkind happly
  | effectObservation => exact observeTool_toolMove hkind happly
  | _ => cases hwr

end SessionProjection

end Garive
