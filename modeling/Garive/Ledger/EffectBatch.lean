import Garive.Ledger.Gate
import Garive.Ledger.Invocations

/-!
# Effect batches

Tools of the second contract version start in batches. A plan names the prepared digests of its
members in the order they may start and arranges them into steps; a cursor of the projection moves
through the batch as its members start. What a plan says is read declaratively here (`BatchStep`,
`Admitted`), and the invariant `Batched` ties the batches of the projection to the plans and the
starts among the facts: every plan was admissible when it was accepted, no invocation is in two of
them, and the starts of a batch's members are the members up to its cursor, in order.
-/

namespace Garive

open List Option

/-! ## Plans -/

/-- A step of a plan: one member alone, or several members that only read. -/
inductive BatchStep where
  | sequential (index : Nat)
  | parallel (group : List Nat)

namespace BatchStep

/-- The members a step starts. -/
def indexes : BatchStep → List Nat
  | sequential index => [index]
  | parallel group => group

/-- The value states the step. -/
inductive Reads : Value → BatchStep → Prop
  | sequential {step : Object} {index : Nat} (hkind : step.get? "kind" = some (.string "sequential_step"))
    (hidx : (step.get? "intent_index").bind Value.asU64 = some index) :
    Reads (.object step) (.sequential index)
  | parallel {step : Object} {values : List Value} {group : List Nat}
    (hkind : step.get? "kind" = some (.string "parallel_read_group"))
    (hvalues : step.get? "intent_indexes" = some (.array values))
    (hgroup : List.Forall₂ (fun value index ↦ value.asU64 = some index) values group) :
    Reads (.object step) (.parallel group)

end BatchStep

/-- The fact prepared the invocation with the result bound. -/
def HasResultBound (lib : Externals) (before : List FactDraft) (tool : ToolInvocationId)
    (size : Nat) : Prop :=
  ∃ prepared ∈ before, prepared.Tells .effectPrepared tool ∧
    payloadNumber? lib prepared "max_result_bytes" = some size

/-- The steps run every member once and in order, and each group stays within the bounds. -/
structure Arranges (lib : Externals) (before : List FactDraft) (tools : List ToolInvocationId)
    (maxParallel maxBuffered : Nat) (steps : List BatchStep) : Prop where
  enumerates : steps.flatMap BatchStep.indexes = range tools.length
  parallel : ∀ group, BatchStep.parallel group ∈ steps → group ≠ [] ∧ group.length ≤ maxParallel
  buffered : ∀ group, BatchStep.parallel group ∈ steps → ∃ sizes : List Nat,
    List.Forall₂ (fun index size ↦ ∃ tool, tools[index]? = some tool ∧
      HasResultBound lib before tool size) group sizes ∧ sizes.sum ≤ maxBuffered

/-- The invocation with the digest is of the plan's execution and was prepared, in its second contract
version, and authorized before. -/
structure IsMember (lib : Externals) (before : List FactDraft) (planned : FactDraft)
    (digest : String) (tool : ToolInvocationId) : Prop where
  prepared : ∃ prepared ∈ before, prepared.Tells .effectPrepared tool ∧ prepared.schemaVersion = 2 ∧
    prepared.executionId = planned.executionId ∧
    payloadText? lib prepared "prepared_digest" = some digest
  authorized : ∃ authorized ∈ before, authorized.Tells .effectAuthorized tool

/-- After the facts before it, the plan may be accepted with these members. -/
structure Admitted (lib : Externals) (before : List FactDraft) (planned : FactDraft)
    (tools : List ToolInvocationId) : Prop where
  nodup : tools.Nodup
  members : ∃ (payload : Object) (digests : List String), payloadOf lib planned = .ok payload ∧
    contentValue lib payload "ordered_prepared_digests" = .ok (.array (digests.map .string)) ∧
    List.Forall₂ (IsMember lib before planned) digests tools
  steps : ∃ (payload : Object) (values : List Value) (steps : List BatchStep)
    (maxParallel maxBuffered : Nat), payloadOf lib planned = .ok payload ∧
    contentValue lib payload "steps" = .ok (.array values) ∧
    payloadNumber? lib planned "max_parallel_reads" = some maxParallel ∧
    payloadNumber? lib planned "max_buffered_result_bytes" = some maxBuffered ∧
    List.Forall₂ BatchStep.Reads values steps ∧
    Arranges lib before tools maxParallel maxBuffered steps

variable {execution : ExecutionId} {digests steps : List Value} {digest : String}

namespace SessionProjection

variable {lib : Externals} {p : SessionProjection} {fact : FactDraft}
  {tools : List ToolInvocationId} {maxParallel maxBuffered : Nat}

/-- What is related on the right is related to something on the left. -/
theorem exists_left_of_forall₂ {α β : Type} {R : α → β → Prop} {xs : List α} {ys : List β} {y : β}
    (h : List.Forall₂ R xs ys) (hy : y ∈ ys) : ∃ x ∈ xs, R x y := by
  induction h with
  | nil => cases hy
  | cons hxy _ ih =>
    rcases mem_cons.mp hy with rfl | hy
    · exact ⟨_, mem_cons_self, hxy⟩
    · obtain ⟨x, hx, hxy⟩ := ih hy
      exact ⟨x, mem_cons_of_mem _ hx, hxy⟩

variable {values : List Value}

/-- The group reads its indexes and adds up the bounds of the members they name. -/
theorem groupIndexes_eq_ok {bytes total : Nat} {group : List Nat}
    (h : p.groupIndexes tools bytes values = .ok (group, total)) :
    List.Forall₂ (fun value index ↦ value.asU64 = some index) values group ∧
      ∃ sizes : List Nat, List.Forall₂ (fun index size ↦ ∃ tool, tools[index]? = some tool ∧
        p.toolResultBytes[tool]? = some size) group sizes ∧ total = bytes + sizes.sum := by
  induction values generalizing bytes group with
  | nil =>
    cases h
    exact ⟨.nil, [], .nil, rfl⟩
  | cons value rest ih =>
    simp only [groupIndexes, ok_iff] at h
    obtain ⟨index, hidx, tool, htool, size, hsize, sum, hsum, ⟨_, _⟩, htail, heq⟩ := h
    cases heq
    obtain ⟨hreads, sizes, hsizes, rfl⟩ := ih htail
    have hadd : sum = bytes + size := by
      simp only [checkedAdd] at hsum
      split at hsum
      · cases hsum
        rfl
      · cases hsum
    refine ⟨.cons hidx hreads, size :: sizes, .cons ⟨tool, htool, hsize⟩ hsizes, ?_⟩
    rw [sum_cons, hadd]
    omega

/-- One step of a plan, read declaratively. -/
theorem oneStepIndexes_eq_ok {step : Object}
    (h : p.oneStepIndexes tools maxParallel maxBuffered step = .ok indexes) :
    ∃ found : BatchStep, BatchStep.Reads (.object step) found ∧ found.indexes = indexes ∧
      ∀ group, BatchStep.parallel group = found → (group ≠ [] ∧ group.length ≤ maxParallel) ∧
        ∃ sizes : List Nat, List.Forall₂ (fun index size ↦ ∃ tool, tools[index]? = some tool ∧
          p.toolResultBytes[tool]? = some size) group sizes ∧ sizes.sum ≤ maxBuffered := by
  simp only [oneStepIndexes, ok_iff, textOf, bind_eq_some_iff, Value.asStr_eq_some_iff] at h
  obtain ⟨_, ⟨_, hkind, rfl⟩, h⟩ := h
  split at h
  · rename_i hsequential
    simp only [ok_iff, unsignedOf] at h
    obtain ⟨index, hidx, rfl⟩ := h
    exact ⟨.sequential index, .sequential (hsequential.1 ▸ hkind) hidx, rfl,
      fun group hgroup ↦ by cases hgroup⟩
  · split at h
    · rename_i hparallel
      simp only [ok_iff, bind_eq_some_iff, Value.asArray_eq_some_iff, Prod.exists] at h
      obtain ⟨_, ⟨_, hvalues, rfl⟩, ⟨hne, hlen⟩, found, _, hfound, _, rfl⟩ := h
      obtain ⟨hidxs, sizes, hsizes, rfl⟩ := groupIndexes_eq_ok hfound
      have hsame := hidxs.length_eq
      refine ⟨.parallel found, .parallel (hparallel.1 ▸ hkind) hvalues hidxs, rfl,
        fun group hgroup ↦ ?_⟩
      cases hgroup
      refine ⟨⟨?_, hsame ▸ hlen⟩, sizes, hsizes, by omega⟩
      rintro rfl
      exact hne (length_eq_zero_iff.mp hsame)
    · cases h

/-- The steps of a plan, read declaratively. -/
theorem stepIndexes_eq_ok (h : p.stepIndexes tools maxParallel maxBuffered values = .ok indexes) :
    ∃ steps : List BatchStep, List.Forall₂ BatchStep.Reads values steps ∧
      steps.flatMap BatchStep.indexes = indexes ∧
      ∀ group, BatchStep.parallel group ∈ steps → (group ≠ [] ∧ group.length ≤ maxParallel) ∧
        ∃ sizes : List Nat, List.Forall₂ (fun index size ↦ ∃ tool, tools[index]? = some tool ∧
          p.toolResultBytes[tool]? = some size) group sizes ∧ sizes.sum ≤ maxBuffered := by
  induction values generalizing indexes with
  | nil =>
    cases h
    exact ⟨[], .nil, rfl, by simp⟩
  | cons value rest ih =>
    simp only [stepIndexes, ok_iff, Value.asObject_eq_some_iff] at h
    obtain ⟨_, rfl, _, hfirst, _, htail, rfl⟩ := h
    obtain ⟨found, hfound, rfl, hgroup⟩ := oneStepIndexes_eq_ok hfirst
    obtain ⟨steps, hreads, rfl, hgroups⟩ := ih htail
    refine ⟨found :: steps, .cons hfound hreads, rfl, fun group hmem ↦ ?_⟩
    rcases mem_cons.mp hmem with heq | hmem
    · exact hgroup group heq
    · exact hgroups group hmem

/-- A digest of a plan names an authorized version-2 invocation of the execution that is in no batch. -/
theorem batchTool_eq_some {tool : ToolInvocationId} (h : p.batchTool execution digest = some tool) :
    p.tools[tool]? = some (execution, .authorized) ∧ p.toolContractVersions[tool]? = some 2 ∧
      p.toolDigests[tool]? = some digest ∧ p.toolBatchPlans[tool]? = none := by
  dsimp only [batchTool] at h
  split at h
  · rename_i entry hfound
    cases h
    have hmem := mem_singleton_self entry
    rw [← hfound, mem_filter] at hmem
    obtain ⟨hentry, htest⟩ := hmem
    simp only [Bool.and_eq_true, beq_iff_eq, Bool.not_eq_true'] at htest
    obtain ⟨⟨⟨⟨hexec, hstate⟩, hver⟩, hdig⟩, hplan⟩ := htest
    have hget := Std.ExtTreeMap.mem_toList_iff_getElem?_eq_some.mp hentry
    exact ⟨by rw [hget, ← hexec, ← hstate], hver, hdig, Std.ExtTreeMap.getElem?_eq_none_of_contains_eq_false hplan⟩
  · cases h

theorem batchTools_eq_ok (h : p.batchTools execution values = .ok tools) : ∃ digests : List String,
      values = digests.map .string ∧ List.Forall₂ (fun digest tool ↦
        p.tools[tool]? = some (execution, .authorized) ∧ p.toolContractVersions[tool]? = some 2 ∧
        p.toolDigests[tool]? = some digest ∧ p.toolBatchPlans[tool]? = none) digests tools := by
  induction values generalizing tools with
  | nil =>
    cases h
    exact ⟨[], rfl, .nil⟩
  | cons value rest ih =>
    simp only [batchTools, ok_iff, Value.asStr_eq_some_iff] at h
    obtain ⟨digest, rfl, tool, htool, _, htail, rfl⟩ := h
    obtain ⟨digests, rfl, hdigs⟩ := ih htail
    exact ⟨digest :: digests, rfl, .cons (batchTool_eq_some htool) hdigs⟩

/-- An accepted plan is admissible after the facts the tables were read from. -/
theorem Plans.admitted {history : List FactDraft}
    (h : Plans lib p fact digests tools steps maxParallel maxBuffered)
    (hinvoked : ∀ tool, Invoked lib history p.toolTables tool) :
    Admitted lib history fact tools := by
  obtain ⟨execution, hexec, htools⟩ := h.execution
  obtain ⟨payload, hpay, hdigs, hsteps⟩ := h.payload
  obtain ⟨texts, rfl, hmems⟩ := batchTools_eq_ok htools
  obtain ⟨read, hreads, henumerates, hgroups⟩ := stepIndexes_eq_ok h.covered
  refine ⟨h.nodup, ⟨payload, texts, hpay, hdigs, ?_⟩,
    ⟨payload, steps, read, maxParallel, maxBuffered, hpay, hsteps, h.parallel, h.buffered, hreads,
      henumerates, fun group hgroup ↦ (hgroups group hgroup).1, fun group hgroup ↦ ?_⟩⟩
  · refine hmems.imp fun digest tool hmember ↦ ⟨?_, (hinvoked tool).authorized _ hmember.1⟩
    obtain ⟨prepared, hprep, has⟩ := (hinvoked tool).prepared _ _ hmember.1
    have hver : some 2 = some prepared.schemaVersion := hmember.2.1.symm.trans has.version
    exact ⟨prepared, hprep, has.tells, (some.inj hver).symm,
      by rw [has.execution_eq, hexec], has.digest.trans hmember.2.2.1⟩
  · obtain ⟨-, sizes, hsizes, hsum⟩ := hgroups group hgroup
    refine ⟨sizes, hsizes.imp fun index size hsize ↦ ?_, hsum⟩
    obtain ⟨tool, htool, hbytes⟩ := hsize
    have hmem : tool ∈ tools := mem_of_getElem? htool
    obtain ⟨digest, -, hmember⟩ := exists_left_of_forall₂ hmems hmem
    obtain ⟨prepared, hprep, has⟩ := (hinvoked tool).prepared _ _ hmember.1
    have hver : some 2 = some prepared.schemaVersion := hmember.2.1.symm.trans has.version
    exact ⟨tool, htool, prepared, hprep, has.tells,
      (has.bytes (some.inj hver).symm).trans hbytes⟩

end SessionProjection

/-! ## The tables of batches -/

open SessionProjection

variable {lib : Externals} {history : List FactDraft} {fact : FactDraft} {p p' : SessionProjection}
  {t t' : ToolTables} {tool : ToolInvocationId}

/-- The tables of batches agree with one another. -/
structure BatchTables (t : ToolTables) : Prop where
  planned : ∀ (tool : ToolInvocationId) (plan : String), t.toolBatchPlans[tool]? = some plan ↔
    ∃ batch : EffectBatchRecord, t.effectBatches[plan]? = some batch ∧ tool ∈ batch.tools
  nodup : ∀ (plan : String) (batch : EffectBatchRecord), t.effectBatches[plan]? = some batch →
    batch.tools.Nodup
  present : ∀ (plan : String) (batch : EffectBatchRecord), t.effectBatches[plan]? = some batch →
    ∀ tool ∈ batch.tools, t.tools[tool]? ≠ none ∧ t.toolContractVersions[tool]? = some 2
  cursor : ∀ (plan : String) (batch : EffectBatchRecord), t.effectBatches[plan]? = some batch →
    batch.nextStart ≤ batch.tools.length

/-- An invocation that has an entry keeps it, and its contract version. -/
theorem SessionProjection.ToolMove.keeps (h : ToolMove lib p fact t') (hentry : p.tools[tool]? ≠ none) :
    t'.tools[tool]? ≠ none ∧ t'.toolContractVersions[tool]? = p.toolContractVersions[tool]? := by
  have hinsert : ∀ (other : ToolInvocationId) (entry : ExecutionId × InvocationState),
      (p.tools.insert other entry)[tool]? ≠ none := by
    intro other entry
    rw [Map.get?_insert]
    split
    · simp
    · exact hentry
  cases h with
  | @prepare other _ _ _ _ _ _ hnew =>
    have hne : other ≠ tool := by
      rintro rfl
      exact hentry hnew
    exact ⟨hinsert _ _, Map.get?_insert_of_ne hne⟩
  | authorize | start | settle => exact ⟨hinsert _ _, rfl⟩
  | decide | bind | preflight | plan => exact ⟨hentry, rfl⟩

/-- Inserting one value under many keys. -/
theorem get?_foldl_insert {κ ν : Type} [Ord κ] [Std.TransOrd κ] [Std.LawfulEqOrd κ] [DecidableEq κ]
    (keys : List κ) (v : ν) (m : Map κ ν) (k : κ) :
    (keys.foldl (fun m key ↦ m.insert key v) m)[k]? = if k ∈ keys then some v else m[k]? := by
  induction keys generalizing m with
  | nil => simp
  | cons key rest ih =>
    rw [foldl_cons, ih, Map.get?_insert]
    by_cases hk : k ∈ rest
    · simp [hk]
    · by_cases heq : key = k
      · simp [heq]
      · simp [hk, heq, Ne.symm heq]

variable {batch : EffectBatchRecord}

/-- Starting a member moves the cursor of its batch; nothing else changes. -/
theorem SessionProjection.get?_advanceBatch {plan : String}
    (hver : p.toolContractVersions[tool]? = some 2)
    (hplan : p.toolBatchPlans[tool]? = some plan) (hbatch : p.effectBatches[plan]? = some batch)
    (other : String) : (p.advanceBatch tool .started)[other]? =
      if plan = other then some { batch with nextStart := batch.nextStart + 1 }
      else p.effectBatches[other]? := by
  have hplanned : p.plannedBatch tool = some (plan, batch) := by simp [plannedBatch, hplan, hbatch]
  rw [advanceBatch, if_pos ⟨rfl, hver⟩, hplanned]
  exact Map.get?_insert ..

theorem SessionProjection.advanceBatch_of_version (hver : p.toolContractVersions[tool]? ≠ some 2) :
    p.advanceBatch tool .started = p.effectBatches := by
  simp [advanceBatch, hver]

namespace BatchTables

/-- A move that leaves the batches alone. -/
theorem congr (h : BatchTables p.toolTables) (hmove : ToolMove lib p fact t')
    (hplans : t'.toolBatchPlans = p.toolBatchPlans) (hbatches : t'.effectBatches = p.effectBatches) :
    BatchTables t' where
  planned := by
    rw [hplans, hbatches]
    exact h.planned
  nodup := by
    rw [hbatches]
    exact h.nodup
  present := by
    rw [hbatches]
    intro plan batch hbatch tool htool
    obtain ⟨hentry, hver⟩ := h.present plan batch hbatch tool htool
    obtain ⟨hentry', hver'⟩ := hmove.keeps hentry
    exact ⟨hentry', hver'.trans hver⟩
  cursor := by
    rw [hbatches]
    exact h.cursor

/-- A batch after a member of it has started. -/
theorem advance {plan : String} (h : BatchTables p.toolTables) (hmove : ToolMove lib p fact t')
    (hbatch : p.effectBatches[plan]? = some batch) (hnext : batch.nextStart < batch.tools.length)
    (hplans : t'.toolBatchPlans = p.toolBatchPlans)
    (hbatches : ∀ other : String, t'.effectBatches[other]? = if plan = other then some { batch with nextStart := batch.nextStart + 1 } else p.effectBatches[other]?) :
    BatchTables t' := by
  -- A batch of the new tables has the members of the batch before.
  have hmems : ∀ (other : String) (found : EffectBatchRecord),
      t'.effectBatches[other]? = some found →
      ∃ old : EffectBatchRecord, p.effectBatches[other]? = some old ∧ old.tools = found.tools := by
    intro other found hfound
    rw [hbatches] at hfound
    split at hfound
    · rename_i heq
      cases hfound
      exact ⟨batch, heq ▸ hbatch, rfl⟩
    · exact ⟨found, hfound, rfl⟩
  constructor
  · intro tool other
    rw [hplans]
    refine (h.planned tool other).trans ⟨?_, ?_⟩
    · rintro ⟨old, hold, htool⟩
      rw [hbatches]
      split
      · rename_i heq
        have hold' : p.effectBatches[other]? = some old := hold
        rw [← heq, hbatch] at hold'
        cases hold'
        exact ⟨_, rfl, htool⟩
      · exact ⟨old, hold, htool⟩
    · rintro ⟨found, hfound, htool⟩
      obtain ⟨old, hold, htools⟩ := hmems other found hfound
      exact ⟨old, hold, htools ▸ htool⟩
  · intro other found hfound
    obtain ⟨old, hold, htools⟩ := hmems other found hfound
    exact htools ▸ h.nodup other old hold
  · intro other found hfound tool htool
    obtain ⟨old, hold, htools⟩ := hmems other found hfound
    obtain ⟨hentry, hver⟩ := h.present other old hold tool (htools ▸ htool)
    obtain ⟨hentry', hver'⟩ := hmove.keeps hentry
    exact ⟨hentry', hver'.trans hver⟩
  · intro other found hfound
    rw [hbatches] at hfound
    split at hfound
    · cases hfound
      exact hnext
    · exact h.cursor other found hfound

/-- A new plan. -/
theorem plan {plan : String} {tools : List ToolInvocationId} (h : BatchTables p.toolTables)
    (hnew : p.effectBatches[plan]? = none) (hnodup : tools.Nodup)
    (hmems : ∀ tool ∈ tools, p.tools[tool]? ≠ none ∧ p.toolContractVersions[tool]? = some 2 ∧
      p.toolBatchPlans[tool]? = none) :
    BatchTables { p.toolTables with
      toolBatchPlans := tools.foldl (fun plans tool ↦ plans.insert tool plan) p.toolBatchPlans
      effectBatches := p.effectBatches.insert plan { tools, nextStart := 0 } } := by
  constructor
  · intro tool other
    dsimp only
    rw [get?_foldl_insert]
    by_cases heq : plan = other
    · subst heq
      rw [Map.get?_insert_self]
      split
      · rename_i htool
        exact ⟨fun _ ↦ ⟨_, rfl, htool⟩, fun _ ↦ rfl⟩
      · rename_i htool
        refine ⟨fun hplan ↦ ?_, fun ⟨batch, hbatch, hmem⟩ ↦ ?_⟩
        · obtain ⟨batch, hbatch, -⟩ := (h.planned tool plan).mp hplan
          exact absurd (hnew.symm.trans hbatch) (by simp)
        · cases hbatch
          exact absurd hmem htool
    · rw [Map.get?_insert_of_ne heq]
      split
      · rename_i htool
        refine ⟨fun hplan ↦ absurd (some.inj hplan) heq, fun hbatch ↦ ?_⟩
        have hplan := (h.planned tool other).mpr hbatch
        exact absurd ((hmems tool htool).2.2.symm.trans hplan) (by simp)
      · exact h.planned tool other
  all_goals
    intro other found hfound
    rcases Map.of_get?_insert hfound with ⟨-, rfl⟩ | hfound
  · exact hnodup
  · exact h.nodup other found hfound
  · exact fun tool htool ↦ ⟨(hmems tool htool).1, (hmems tool htool).2.1⟩
  · exact h.present other found hfound
  · exact Nat.zero_le _
  · exact h.cursor other found hfound

end BatchTables

/-! ## Plans and starts among the facts -/

/-- The fact at the index plans the batch with the digest. -/
structure PlansAt (lib : Externals) (history : List FactDraft) (i : Nat) (plan : String)
    (planned : FactDraft) : Prop where
  get : history[i]? = some planned
  kind : planned.kind = .known .executionEffectBatchPlanned
  digest : payloadText? lib planned "plan_digest" = some plan

/-- The starts of the invocations, in order. -/
def starts (tools : List ToolInvocationId) (history : List FactDraft) : List ToolInvocationId :=
  ((history.filter (·.kind == .known .effectStarted)).filterMap (·.toolInvocationId)).filter
    (· ∈ tools)

theorem starts_concat (tools : List ToolInvocationId) (history : List FactDraft) (fact : FactDraft) :
    starts tools (history ++ [fact]) = starts tools history ++ starts tools [fact] := by
  simp [starts]

theorem starts_of_tells {tools : List ToolInvocationId} (htells : fact.Tells .effectStarted tool) :
    starts tools [fact] = if tool ∈ tools then [tool] else [] := by
  simp [starts, htells.kind_eq, htells.tool_eq, filter_cons]

theorem starts_of_kind {tools : List ToolInvocationId} (hkind : fact.kind ≠ .known .effectStarted) :
    starts tools [fact] = [] := by
  simp [starts, hkind]

/-- Invocations that were not started have no starts. -/
theorem starts_eq_nil {tools : List ToolInvocationId}
    (h : ∀ tool ∈ tools, ∀ found ∈ history, ¬found.Tells .effectStarted tool) :
    starts tools history = [] := by
  simp only [starts, filter_eq_nil_iff, mem_filterMap, mem_filter, beq_iff_eq,
    decide_eq_true_eq]
  rintro tool ⟨found, ⟨hfound, hkind⟩, htool⟩ hmem
  exact h tool hmem found hfound ⟨hkind, htool⟩

variable {found : FactDraft}

/-- A fact of the longer history is an old one or the new one. -/
theorem getElem?_concat_eq_some {i : Nat} (h : (history ++ [fact])[i]? = some found) :
    history[i]? = some found ∨ i = history.length ∧ found = fact := by
  rcases Nat.lt_trichotomy i history.length with hlt | rfl | hgt
  · rw [getElem?_append_left hlt] at h
    exact .inl h
  · rw [getElem?_concat_length] at h
    exact .inr ⟨rfl, (some.inj h).symm⟩
  · rw [getElem?_eq_none (by simp; omega)] at h
    cases h

theorem getElem?_concat_of_some {i : Nat} (h : history[i]? = some found) :
    (history ++ [fact])[i]? = some found :=
  (List.getElem?_append_left (List.getElem?_eq_some_iff.mp h).1).trans h

theorem take_concat_of_some {i : Nat} (h : history[i]? = some found) :
    (history ++ [fact]).take i = history.take i :=
  List.take_append_of_le_length (List.getElem?_eq_some_iff.mp h).1.le

namespace PlansAt

variable {i : Nat} {plan : String} {planned : FactDraft}

theorem concat (h : PlansAt lib history i plan planned) (fact : FactDraft) :
    PlansAt lib (history ++ [fact]) i plan planned :=
  ⟨getElem?_concat_of_some h.get, h.kind, h.digest⟩

theorem of_concat (h : PlansAt lib (history ++ [fact]) i plan planned) :
    PlansAt lib history i plan planned ∨ i = history.length ∧ planned = fact :=
  (getElem?_concat_eq_some h.get).imp_left fun hget ↦ ⟨hget, h.kind, h.digest⟩

theorem of_concat_of_kind (h : PlansAt lib (history ++ [fact]) i plan planned)
    (hkind : fact.kind ≠ .known .executionEffectBatchPlanned) : PlansAt lib history i plan planned :=
  h.of_concat.resolve_right fun ⟨_, heq⟩ ↦ hkind (heq ▸ h.kind)

end PlansAt

/-- The batches are those the plans among the facts ask for, and their cursors stand after the members
that the facts start. -/
structure Batched (lib : Externals) (history : List FactDraft) (t : ToolTables) : Prop where
  tables : BatchTables t
  admitted : ∀ (i : Nat) (planned : FactDraft), history[i]? = some planned →
    planned.kind = .known .executionEffectBatchPlanned → ∃ (plan : String) (batch : EffectBatchRecord),
      PlansAt lib history i plan planned ∧ t.effectBatches[plan]? = some batch ∧
      Admitted lib (history.take i) planned batch.tools
  recorded : ∀ (plan : String) (batch : EffectBatchRecord), t.effectBatches[plan]? = some batch →
    ∃ (i : Nat) (planned : FactDraft), PlansAt lib history i plan planned
  once : ∀ (i j : Nat) (plan : String) (planned other : FactDraft),
    PlansAt lib history i plan planned → PlansAt lib history j plan other → i = j
  ordered : ∀ (plan : String) (batch : EffectBatchRecord), t.effectBatches[plan]? = some batch →
    starts batch.tools history = batch.tools.take batch.nextStart
  started : ∀ (i : Nat) (found : FactDraft) (tool : ToolInvocationId), history[i]? = some found →
    found.Tells .effectStarted tool → t.toolContractVersions[tool]? = some 2 →
    ∃ j < i, ∃ (plan : String) (planned : FactDraft) (batch : EffectBatchRecord),
      PlansAt lib history j plan planned ∧ t.effectBatches[plan]? = some batch ∧ tool ∈ batch.tools

theorem batched_empty (lib : Externals) : Batched lib [] ({} : SessionProjection).toolTables where
  tables := by constructor <;> simp [toolTables]
  admitted i planned h := by simp at h
  recorded plan batch h := by simp [toolTables] at h
  once i j plan planned other h := by simpa using h.get
  ordered plan batch h := by simp [toolTables] at h
  started i found tool h := by simp at h

namespace Batched

/-- A fact that plans nothing carries the plans over, as long as the batches keep their members. -/
theorem carry (h : Batched lib history t) (hinvoked : ∀ tool, Invoked lib history t tool)
    (hkind : fact.kind ≠ .known .executionEffectBatchPlanned) (htables : BatchTables t')
    (hmems : ∀ plan : String, t'.effectBatches[plan]?.map (·.tools)
      = t.effectBatches[plan]?.map (·.tools))
    (hvers : ∀ tool : ToolInvocationId, t.tools[tool]? ≠ none →
      t'.toolContractVersions[tool]? = t.toolContractVersions[tool]?)
    (hordered : ∀ (plan : String) (batch : EffectBatchRecord), t'.effectBatches[plan]? = some batch →
      starts batch.tools (history ++ [fact]) = batch.tools.take batch.nextStart)
    (hstarted : ∀ tool, fact.Tells .effectStarted tool → t'.toolContractVersions[tool]? = some 2 →
      ∃ (plan : String) (batch : EffectBatchRecord), t.effectBatches[plan]? = some batch ∧
        tool ∈ batch.tools) :
    Batched lib (history ++ [fact]) t' := by
  have hfwd : ∀ (plan : String) (batch : EffectBatchRecord), t.effectBatches[plan]? = some batch →
      ∃ found : EffectBatchRecord, t'.effectBatches[plan]? = some found ∧ found.tools = batch.tools := by
    intro plan batch hbatch
    have hsame := hmems plan
    rw [hbatch, map_some, map_eq_some_iff] at hsame
    exact hsame
  have hback : ∀ (plan : String) (batch : EffectBatchRecord), t'.effectBatches[plan]? = some batch →
      ∃ found : EffectBatchRecord, t.effectBatches[plan]? = some found ∧ found.tools = batch.tools := by
    intro plan batch hbatch
    have hsame := (hmems plan).symm
    rw [hbatch, map_some, map_eq_some_iff] at hsame
    exact hsame
  refine ⟨htables, ?_, ?_, ?_, hordered, ?_⟩
  · intro i planned hplanned hplanKind
    have hold := (getElem?_concat_eq_some hplanned).resolve_right fun ⟨_, heq⟩ ↦
      hkind (heq ▸ hplanKind)
    obtain ⟨plan, batch, hplan, hbatch, hadm⟩ := h.admitted i planned hold hplanKind
    obtain ⟨found, hfound, htools⟩ := hfwd plan batch hbatch
    refine ⟨plan, found, hplan.concat fact, hfound, ?_⟩
    rw [take_concat_of_some hold, htools]
    exact hadm
  · intro plan batch hbatch
    obtain ⟨found, hfound, -⟩ := hback plan batch hbatch
    obtain ⟨i, planned, hplan⟩ := h.recorded plan found hfound
    exact ⟨i, planned, hplan.concat fact⟩
  · intro i j plan planned other hi hj
    exact h.once i j plan planned other (hi.of_concat_of_kind hkind) (hj.of_concat_of_kind hkind)
  · intro i found tool hfound htells hver
    rcases getElem?_concat_eq_some hfound with hold | ⟨rfl, rfl⟩
    · have hentry := (hinvoked tool).ne_none_of_started (mem_of_getElem? hold) htells
      rw [hvers tool hentry] at hver
      obtain ⟨j, hj, plan, planned, batch, hplan, hbatch, htool⟩ :=
        h.started i found tool hold htells hver
      obtain ⟨batch', hbatch', htools⟩ := hfwd plan batch hbatch
      exact ⟨j, hj, plan, planned, batch', hplan.concat fact, hbatch', htools ▸ htool⟩
    · obtain ⟨plan, batch, hbatch, htool⟩ := hstarted tool htells hver
      obtain ⟨j, planned, hplan⟩ := h.recorded plan batch hbatch
      obtain ⟨batch', hbatch', htools⟩ := hfwd plan batch hbatch
      exact ⟨j, (List.getElem?_eq_some_iff.mp hplan.get).1, plan, planned, batch', hplan.concat _,
        hbatch', htools ▸ htool⟩

/-- A move that neither plans a batch nor starts an invocation. -/
theorem quiet (h : Batched lib history p.toolTables)
    (hinvoked : ∀ tool, Invoked lib history p.toolTables tool) (hmove : ToolMove lib p fact t')
    (hplan : fact.kind ≠ .known .executionEffectBatchPlanned)
    (hstart : fact.kind ≠ .known .effectStarted) (hplans : t'.toolBatchPlans = p.toolBatchPlans)
    (hbatches : t'.effectBatches = p.effectBatches) : Batched lib (history ++ [fact]) t' := by
  refine h.carry hinvoked hplan (h.tables.congr hmove hplans hbatches) (fun plan ↦ by rw [hbatches]; rfl)
    (fun tool hentry ↦ (hmove.keeps hentry).2) (fun plan batch hbatch ↦ ?_)
    fun tool htells ↦ absurd htells.kind_eq hstart
  rw [starts_concat, starts_of_kind hstart, append_nil]
  rw [hbatches] at hbatch
  exact h.ordered plan batch hbatch

/-- The next member of a batch starts. -/
theorem start {plan : String} (h : Batched lib history p.toolTables)
    (hinvoked : ∀ tool, Invoked lib history p.toolTables tool) (hmove : ToolMove lib p fact t')
    (htells : fact.Tells .effectStarted tool) (hplan : p.toolBatchPlans[tool]? = some plan)
    (hbatch : p.effectBatches[plan]? = some batch)
    (hnext : batch.tools[batch.nextStart]? = some tool)
    (hplans : t'.toolBatchPlans = p.toolBatchPlans)
    (hbatches : ∀ other : String, t'.effectBatches[other]? = if plan = other then some { batch with nextStart := batch.nextStart + 1 } else p.effectBatches[other]?) :
    Batched lib (history ++ [fact]) t' := by
  have hlt := (List.getElem?_eq_some_iff.mp hnext).1
  refine h.carry hinvoked (by rw [htells.kind_eq]; decide)
    (h.tables.advance hmove hbatch hlt hplans hbatches) (fun other ↦ ?_)
    (fun tool hentry ↦ (hmove.keeps hentry).2) (fun other found hfound ↦ ?_) fun found hfound _ ↦ ?_
  · rw [hbatches]
    split
    · rename_i heq
      rw [← heq]
      exact congrArg (Option.map (·.tools)) hbatch.symm
    · rfl
  · rw [starts_concat, starts_of_tells htells]
    rw [hbatches] at hfound
    split at hfound
    · cases hfound
      rw [if_pos (List.mem_of_getElem? hnext), h.ordered plan batch hbatch, List.take_add_one, hnext,
        toList_some]
    · rename_i hne
      -- An invocation is in one batch only, so no other batch notices the start.
      have hother : tool ∉ found.tools := fun hmem ↦ by
        have hfoundPlan := (h.tables.planned tool other).mpr ⟨found, hfound, hmem⟩
        exact hne (some.inj (hplan.symm.trans hfoundPlan))
      rw [if_neg hother, List.append_nil]
      exact h.ordered other found hfound
  · have heq : some tool = some found := htells.tool_eq.symm.trans hfound.tool_eq
    exact ⟨plan, batch, hbatch, some.inj heq ▸ List.mem_of_getElem? hnext⟩

/-- An invocation of another contract version starts. -/
theorem start_alone (h : Batched lib history p.toolTables)
    (hinvoked : ∀ tool, Invoked lib history p.toolTables tool) (hmove : ToolMove lib p fact t')
    (htells : fact.Tells .effectStarted tool) (hentry : p.tools[tool]? ≠ none)
    (hver : p.toolContractVersions[tool]? ≠ some 2)
    (hplans : t'.toolBatchPlans = p.toolBatchPlans) (hbatches : t'.effectBatches = p.effectBatches) :
    Batched lib (history ++ [fact]) t' := by
  refine h.carry hinvoked (by rw [htells.kind_eq]; decide) (h.tables.congr hmove hplans hbatches)
    (fun plan ↦ by rw [hbatches]; rfl) (fun tool hentry ↦ (hmove.keeps hentry).2)
    (fun plan batch hbatch ↦ ?_) fun found hfound hfoundVer ↦ ?_
  · rw [hbatches] at hbatch
    have hother : tool ∉ batch.tools := fun hmem ↦
      hver (h.tables.present plan batch hbatch tool hmem).2
    rw [starts_concat, starts_of_tells htells, if_neg hother, append_nil]
    exact h.ordered plan batch hbatch
  · have heq : some tool = some found := htells.tool_eq.symm.trans hfound.tool_eq
    rw [← some.inj heq, (hmove.keeps hentry).2] at hfoundVer
    exact absurd hfoundVer hver

/-- A batch is planned. -/
theorem plan {plan : String} {tools : List ToolInvocationId} {maxParallel maxBuffered : Nat}
    (h : Batched lib history p.toolTables)
    (hinvoked : ∀ tool, Invoked lib history p.toolTables tool)
    (hkind : fact.kind = .known .executionEffectBatchPlanned)
    (hdig : payloadText? lib fact "plan_digest" = some plan)
    (hnew : p.effectBatches[plan]? = none)
    (hplans : Plans lib p fact digests tools steps maxParallel maxBuffered) :
    Batched lib (history ++ [fact]) { p.toolTables with
      toolBatchPlans := tools.foldl (fun plans tool ↦ plans.insert tool plan) p.toolBatchPlans
      effectBatches := p.effectBatches.insert plan { tools, nextStart := 0 } } := by
  have hstart : fact.kind ≠ .known .effectStarted := by rw [hkind]; decide
  have hmems : ∀ tool ∈ tools, p.tools[tool]?.map (·.2) = some .authorized ∧
      p.toolContractVersions[tool]? = some 2 ∧ p.toolBatchPlans[tool]? = none := by
    intro tool htool
    obtain ⟨execution, -, htools⟩ := hplans.execution
    obtain ⟨_, -, hforall⟩ := batchTools_eq_ok htools
    obtain ⟨digest, -, hentry, hver, -, hfree⟩ := exists_left_of_forall₂ hforall htool
    exact ⟨by rw [hentry]; rfl, hver, hfree⟩
  have hlast : PlansAt lib (history ++ [fact]) history.length plan fact :=
    ⟨getElem?_concat_length, hkind, hdig⟩
  -- The new digest is that of no earlier plan.
  have hfresh : ∀ (i : Nat) (planned : FactDraft), ¬PlansAt lib history i plan planned := by
    intro i planned hplanned
    obtain ⟨found, batch, hfound, hbatch, -⟩ := h.admitted i planned hplanned.get hplanned.kind
    have heq : plan = found := some.inj (hplanned.digest.symm.trans hfound.digest)
    exact absurd (hnew.symm.trans (heq ▸ hbatch)) (by simp)
  have hlookup : ∀ (other : String) (batch : EffectBatchRecord),
      p.effectBatches[other]? = some batch →
      (p.effectBatches.insert plan { tools, nextStart := 0 })[other]? = some batch := by
    intro other batch hbatch
    have hne : plan ≠ other := by
      rintro rfl
      exact absurd (hnew.symm.trans hbatch) (by simp)
    rw [Map.get?_insert_of_ne hne, hbatch]
  refine ⟨h.tables.plan hnew hplans.nodup fun tool htool ↦ ⟨fun hnone ↦ ?_, (hmems tool htool).2⟩,
    ?_, ?_, ?_, ?_, ?_⟩
  · have hentry := (hmems tool htool).1
    rw [hnone] at hentry
    cases hentry
  · intro i planned hplanned hplanKind
    rcases getElem?_concat_eq_some hplanned with hold | ⟨rfl, rfl⟩
    · obtain ⟨found, batch, hfound, hbatch, _⟩ := h.admitted i planned hold hplanKind
      refine ⟨found, batch, hfound.concat fact, hlookup found batch hbatch, ?_⟩
      rwa [take_concat_of_some hold]
    · refine ⟨plan, { tools, nextStart := 0 }, hlast, Map.get?_insert_self .., ?_⟩
      rw [take_left]
      exact hplans.admitted hinvoked
  · intro other batch hbatch
    rcases Map.of_get?_insert hbatch with ⟨heq, -⟩ | hbatch
    · exact ⟨_, fact, heq ▸ hlast⟩
    · obtain ⟨i, planned, hplanned⟩ := h.recorded other batch hbatch
      exact ⟨i, planned, hplanned.concat fact⟩
  · intro i j other planned planned' hi hj
    rcases hi.of_concat with hold | ⟨hilast, hifact⟩ <;>
      rcases hj.of_concat with hold' | ⟨hjlast, hjfact⟩
    · exact h.once i j other planned planned' hold hold'
    · have heq : other = plan := some.inj (hj.digest.symm.trans (hjfact ▸ hdig))
      exact absurd (heq ▸ hold) (hfresh i planned)
    · have heq : other = plan := some.inj (hi.digest.symm.trans (hifact ▸ hdig))
      exact absurd (heq ▸ hold') (hfresh j planned')
    · exact hilast.trans hjlast.symm
  · intro other batch hbatch
    rw [starts_concat, starts_of_kind hstart, append_nil]
    rcases Map.of_get?_insert hbatch with ⟨-, rfl⟩ | hbatch
    · -- The members are authorized, so none of them has started.
      refine starts_eq_nil fun tool htool ↦ (hinvoked tool).unstarted fun execution state hentry ↦ ?_
      have hstate := (hmems tool htool).1
      have hentry' : p.tools[tool]? = some (execution, state) := hentry
      rw [hentry', map_some, some.injEq] at hstate
      exact .inr hstate
    · exact h.ordered other batch hbatch
  · intro i found tool hfound htells hver
    have hold := (getElem?_concat_eq_some hfound).resolve_right fun ⟨_, heq⟩ ↦
      hstart (heq ▸ htells.kind_eq)
    obtain ⟨j, hj, other, planned, batch, hplanned, hbatch, htool⟩ :=
      h.started i found tool hold htells hver
    exact ⟨j, hj, other, planned, batch, hplanned.concat fact, hlookup other batch hbatch, htool⟩

/-- Every move keeps the batches in step with the facts. -/
theorem step (h : Batched lib history p.toolTables)
    (hinvoked : ∀ tool, Invoked lib history p.toolTables tool) (hmove : ToolMove lib p fact t') :
    Batched lib (history ++ [fact]) t' := by
  have hcopy := hmove
  cases hmove with
  | plan hkind hdig hnew hplans => exact h.plan hinvoked hkind hdig hnew hplans
  | @start other execution current digest grant hkind htool hentry _ _ _ _ _ _ hplanned =>
    by_cases hver : p.toolContractVersions[other]? = some 2
    · obtain ⟨plan, _, hplan, hbatch, hnext⟩ := hplanned hver
      exact h.start hinvoked hcopy ⟨hkind, htool⟩ hplan hbatch hnext rfl
        (get?_advanceBatch hver hplan hbatch)
    · exact h.start_alone hinvoked hcopy ⟨hkind, htool⟩ (by simp [hentry]) hver rfl
        (advanceBatch_of_version hver)
  | settle hrole _ hnext =>
    refine h.quiet hinvoked hcopy ?_ ?_ rfl rfl
    all_goals
      intro hkind
      rw [hkind] at hrole
      cases hrole
    exact absurd rfl hnext.2.2
  | prepare hkind | decide hkind | authorize hkind | bind hkind | preflight hkind =>
    exact h.quiet hinvoked hcopy (by rw [hkind]; decide) (by rw [hkind]; decide) rfl rfl

end Batched

variable {condition : StepCondition}

/-- Along every course, the batches are in step with the facts. -/
theorem Leads.batched (h : Leads lib condition history p) : Batched lib history p.toolTables := by
  induction h with
  | empty => exact batched_empty lib
  | commit _ _ ih => exact ih
  | @fact history p p' fact hbef _ happly ih =>
    by_cases hwr : fact.kind.writes = .tools
    · exact ih.step hbef.invoked (apply_toolMove hwr happly)
    · rw [(apply_keeps happly).toolTables_eq hwr]
      have hkind : ∀ kind : RuntimeKind, kind.writes = .tools → fact.kind ≠ .known kind :=
        fun kind htools heq ↦ hwr (heq ▸ htools)
      refine ih.carry hbef.invoked (hkind _ rfl) ih.tables (fun _ ↦ rfl) (fun _ _ ↦ rfl) ?_
        fun tool htells ↦ absurd htells.kind_eq (hkind _ rfl)
      intro plan batch hbatch
      rw [starts_concat, starts_of_kind (hkind _ rfl), append_nil]
      exact ih.ordered plan batch hbatch

/-! ## Sessions -/

/-- The discipline of effect batches. -/
structure Disciplined (lib : Externals) (history : List FactDraft)
    (batches : Map String EffectBatchRecord) : Prop where
  /-- Every accepted plan has its batch and was admissible after the facts before it. -/
  admitted : ∀ (i : Nat) (planned : FactDraft), history[i]? = some planned →
    planned.kind = .known .executionEffectBatchPlanned → ∃ (plan : String) (batch : EffectBatchRecord),
      PlansAt lib history i plan planned ∧ batches[plan]? = some batch ∧
      Admitted lib (history.take i) planned batch.tools
  /-- Every batch has its plan. -/
  recorded : ∀ (plan : String) (batch : EffectBatchRecord), batches[plan]? = some batch →
    ∃ (i : Nat) (planned : FactDraft), PlansAt lib history i plan planned
  /-- An invocation is a member of one plan at most. -/
  exclusive : ∀ (i j : Nat) (plan other : String) (planned found : FactDraft)
    (batch second : EffectBatchRecord) (tool : ToolInvocationId),
    PlansAt lib history i plan planned → batches[plan]? = some batch → tool ∈ batch.tools →
    PlansAt lib history j other found → batches[other]? = some second → tool ∈ second.tools → i = j
  /-- The cursor of a batch stays within it. -/
  cursor : ∀ (plan : String) (batch : EffectBatchRecord), batches[plan]? = some batch →
    batch.nextStart ≤ batch.tools.length
  /-- The members of a batch start in the order of the plan. -/
  ordered : ∀ (plan : String) (batch : EffectBatchRecord), batches[plan]? = some batch →
    starts batch.tools history = batch.tools.take batch.nextStart
  /-- An invocation of the second contract version starts after its authorization and its plan. -/
  started : ∀ (i : Nat) (found prepared : FactDraft) (tool : ToolInvocationId),
    history[i]? = some found → found.Tells .effectStarted tool → prepared ∈ history →
    prepared.Tells .effectPrepared tool → prepared.schemaVersion = 2 →
    (∃ authorized ∈ history.take i, authorized.Tells .effectAuthorized tool) ∧
      ∃ j < i, ∃ (plan : String) (planned : FactDraft) (batch : EffectBatchRecord),
        PlansAt lib history j plan planned ∧ batches[plan]? = some batch ∧ tool ∈ batch.tools

/-- Along every course, batches are disciplined. -/
theorem Leads.disciplined (h : Leads lib condition history p) :
    Disciplined lib history p.effectBatches := by
  have hbatched := h.batched
  refine ⟨hbatched.admitted, hbatched.recorded, ?_, hbatched.tables.cursor, hbatched.ordered, ?_⟩
  · intro i j plan other planned found batch second tool hplan hbatch htool hother hsecond htool'
    have hfirst := (hbatched.tables.planned tool plan).mpr ⟨batch, hbatch, htool⟩
    have hlast := (hbatched.tables.planned tool other).mpr ⟨second, hsecond, htool'⟩
    have heq : plan = other := some.inj (hfirst.symm.trans hlast)
    exact hbatched.once i j plan planned found hplan (heq ▸ hother)
  · intro i found prepared tool hfound htells hprep hprepTells hver
    have hstage : prepared ∈ stages tool history := mem_filter.mpr ⟨hprep,
      FactDraft.isStageOf_eq_true hprepTells.tool_eq hprepTells.kind_eq (by decide)⟩
    have hcontract : p.toolContractVersions[tool]? = some prepared.schemaVersion :=
      (h.gated tool).version prepared hstage hprepTells.kind_eq
    obtain ⟨j, hj, plan, planned, batch, hplan, hbatch, htool⟩ :=
      hbatched.started i found tool hfound htells (hver ▸ hcontract)
    refine ⟨?_, j, hj, plan, planned, batch, hplan, hbatch, htool⟩
    obtain ⟨plan', batch', hplan', hbatch', hadm⟩ :=
      hbatched.admitted j planned hplan.get hplan.kind
    have heq : plan = plan' := some.inj (hplan.digest.symm.trans hplan'.digest)
    subst heq
    have hsame : batch = batch' := some.inj (hbatch.symm.trans hbatch')
    subst hsame
    obtain ⟨-, _, -, -, hmems⟩ := hadm.members
    obtain ⟨digest, -, hmember⟩ := exists_left_of_forall₂ hmems htool
    obtain ⟨authorized, hauth, htold⟩ := hmember.authorized
    exact ⟨authorized, take_subset_take_left history hj.le hauth, htold⟩

namespace LedgerState

variable {state : LedgerState} {sessionId : SessionId} {session : SessionLedger}

/-- **Effect batches.** In every session of every reachable ledger, batches are disciplined. -/
theorem effect_batches_disciplined (h : Reachable lib state)
    (hsession : state.sessions[sessionId]? = some session) :
    Disciplined lib (session.facts.map (·.toDraft)) session.projection.effectBatches :=
  (Reachable.leads h hsession).1.disciplined

/-- A batched tool is prepared, authorized, planned and started in one commit. -/
def batchedStart : List FactDraft :=
  [toolFact runTurn runExecution runTool ⟨"fact-batched-prepared", by simp⟩ .effectPrepared 2
      prepareBatchedFields,
    toolFact runTurn runExecution runTool ⟨"fact-batched-authorized", by simp⟩ .effectAuthorized 1
      authorizeFields,
    planBatch runTurn runExecution ⟨"fact-planned", by simp⟩,
    toolFact runTurn runExecution runTool ⟨"fact-batched-started", by simp⟩ .effectStarted 1 startToolFields]

/-- The run in which the batched tool is started. -/
def batchedRun : WrittenRun :=
  startRun ++ [(batchedStart, [prepareBatchedFields, authorizeFields, planFields, startToolFields])]

/-- The batch of the run, with its one member started. -/
def hasStarted (p : SessionProjection) : Bool :=
  decide (p.effectBatches[Sha256.hex ""]? = some { tools := [runTool], nextStart := 1 })

instance : Replayed batchedRun hasStarted := ⟨by repeat constructor, by decide +kernel⟩

/-- In the ledger of that run the batch is disciplined, and its member is the one that was started. -/
theorem batchedStart_disciplined : ∃ (state : LedgerState) (session : SessionLedger),
    Reachable reference state ∧ state.sessions[runSession]? = some session ∧
    session.projection.effectBatches[Sha256.hex ""]? = some { tools := [runTool], nextStart := 1 } ∧
    starts [runTool] (session.facts.map (·.toDraft)) = [runTool] ∧
    Disciplined reference (session.facts.map (·.toDraft)) session.projection.effectBatches := by
  obtain ⟨-, state, _, hholds, hcheck⟩ := exists_holds_of_replayed batchedRun hasStarted
  have hbatch := of_decide_eq_true hcheck
  have hsession := hholds.get?_sessions (cons_ne_nil _ _)
  have hdisciplined := effect_batches_disciplined hholds.reachable hsession
  rw [← hholds.projection_eq] at hbatch
  exact ⟨state, _, hholds.reachable, hsession, hbatch, hdisciplined.ordered _ _ hbatch, hdisciplined⟩

end LedgerState

end Garive
