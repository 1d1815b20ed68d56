import Garive.Ledger.Course
import Garive.Ledger.Projection.Tools
import Garive.Ledger.Writers

/-!
# The gate before a version-3 tool

A tool invocation of the third contract version starts only behind a gate of five stages: it was
prepared, a safety decision allowed it, it was authorized under that decision, a sandbox was bound to
it and preflighted for the very dispatch. `Passed` is the gate as a protocol of its own, a chain of
facts with the evidence they add up to; it has no way to skip a stage, to repeat one or to change the
evidence of an earlier one. The invariant `Gated` says that the stage facts of every version-3
invocation form such a chain, with the evidence that the projection holds.
-/

namespace Garive

open List Map

/-- The kinds of the stages, and of the start behind them. -/
def gateKinds : List RuntimeKind :=
  [.effectPrepared, .safetyDecided, .effectAuthorized, .sandboxBound, .sandboxPreflighted,
    .effectStarted]

/-- The fact is a stage, or the start, of the invocation. -/
def FactDraft.isStageOf (fact : FactDraft) (tool : ToolInvocationId) : Bool :=
  fact.toolInvocationId == some tool && gateKinds.any fun kind ↦ fact.kind == .known kind

/-- The stage facts of an invocation, in order. -/
def stages (tool : ToolInvocationId) (history : List FactDraft) : List FactDraft :=
  history.filter (·.isStageOf tool)

/-! ## The protocol -/

/-- What the stages of an invocation have established. -/
structure Evidence where
  digest : String
  decision : Option F0Record
  grant : Option String
  started : Bool

open SessionProjection in
/-- The chain of stage facts establishes the evidence. -/
inductive Passed (lib : Externals) : List FactDraft → Evidence → Prop
  | prepared {fact : FactDraft} {digest : String} (hkind : fact.kind = .known .effectPrepared)
    (hdig : payloadText? lib fact "prepared_digest" = some digest) :
    Passed lib [fact] ⟨digest, none, none, false⟩
  | decided {chain : List FactDraft} {digest : String} {fact : FactDraft} {record : F0Record}
    (h : Passed lib chain ⟨digest, none, none, false⟩) (hkind : fact.kind = .known .safetyDecided)
    (hdecides : Decides lib fact record) (hdig : record.preparedDigest = digest) :
    Passed lib (chain ++ [fact]) ⟨digest, some record, none, false⟩
  | authorized {chain : List FactDraft} {digest grant : String} {fact : FactDraft}
    {record : F0Record} (h : Passed lib chain ⟨digest, some record, none, false⟩)
    (hkind : fact.kind = .known .effectAuthorized) (hrepeats : Repeats lib fact record)
    (hgrant : payloadText? lib fact "grant_id" = some grant) :
    Passed lib (chain ++ [fact]) ⟨digest, some record, some grant, false⟩
  | bound {chain : List FactDraft} {digest grant : String} {fact : FactDraft} {record : F0Record}
    {proof : SandboxProofRecord} (h : Passed lib chain ⟨digest, some record, some grant, false⟩)
    (hkind : fact.kind = .known .sandboxBound) (hunbound : record.sandbox = none)
    (hbound : BoundTo lib fact record proof) (hungranted : proof.grantId = none) :
    Passed lib (chain ++ [fact]) ⟨digest, some { record with sandbox := some proof }, some grant, false⟩
  | preflighted {chain : List FactDraft} {digest grant attempt : String} {fact : FactDraft}
    {record : F0Record} {proof : SandboxProofRecord}
    (h : Passed lib chain ⟨digest, some record, some grant, false⟩)
    (hkind : fact.kind = .known .sandboxPreflighted) (hproof : record.sandbox = some proof)
    (hungranted : proof.grantId = none) (hbound : BoundTo lib fact record proof)
    (hgrant : payloadText? lib fact "grant_id" = some grant)
    (hatt : payloadText? lib fact "dispatch_attempt_id" = some attempt) :
    Passed lib (chain ++ [fact]) ⟨digest, some { record with
      sandbox := some { proof with grantId := some grant, dispatchAttemptId := some attempt } },
      some grant, false⟩
  | started {chain : List FactDraft} {digest grant : String} {fact : FactDraft} {record : F0Record}
    {proof : SandboxProofRecord} (h : Passed lib chain ⟨digest, some record, some grant, false⟩)
    (hkind : fact.kind = .known .effectStarted) (hproof : record.sandbox = some proof)
    (hcovers : Covers lib fact proof grant)
    (hdig : payloadText? lib fact "prepared_digest" = some digest)
    (hgrant : payloadText? lib fact "grant_id" = some grant) :
    Passed lib (chain ++ [fact]) ⟨digest, some record, some grant, true⟩

/-- The facts of a complete chain agree with one another. -/
structure Cleared (lib : Externals)
    (prepared decided authorized bound preflighted started : FactDraft) : Prop where
  digest : ∃ digest, ∀ fact ∈ [prepared, decided, authorized, bound, preflighted, started],
    payloadText? lib fact "prepared_digest" = some digest
  allowed : payloadText? lib decided "disposition" = some "allow"
  version : authorized.schemaVersion = 2
  grant : ∃ grant, ∀ fact ∈ [authorized, preflighted, started],
    payloadText? lib fact "grant_id" = some grant
  executor : ∃ executor revision, ∀ fact ∈ [bound, preflighted, started],
    payloadText? lib fact "executor_id" = some executor ∧
      payloadText? lib fact "executor_revision" = some revision
  attempt : ∃ attempt, ∀ fact ∈ [preflighted, started],
    payloadText? lib fact "dispatch_attempt_id" = some attempt
  constraints : ∃ constraints, ∀ fact ∈ [decided, authorized],
    payloadText? lib fact "constraints_digest" = some constraints
  authority : ∃ revision, payloadText? lib decided "policy_revision" = some revision ∧
    payloadText? lib authorized "authority_revision" = some revision

/-- The kinds of a complete chain, in order. -/
structure InOrder (prepared decided authorized bound preflighted started : FactDraft) : Prop where
  prepared : prepared.kind = .known .effectPrepared
  decided : decided.kind = .known .safetyDecided
  authorized : authorized.kind = .known .effectAuthorized
  bound : bound.kind = .known .sandboxBound
  preflighted : preflighted.kind = .known .sandboxPreflighted
  started : started.kind = .known .effectStarted

namespace Passed

open SessionProjection

variable {lib : Externals} {chain : List FactDraft} {digest grant : String} {record : F0Record}
  {evidence : Evidence}

/-- A decision stands on a preparation. -/
theorem of_decided (h : Passed lib chain ⟨digest, some record, none, false⟩) :
    ∃ prepared decided, chain = [prepared, decided] ∧ prepared.kind = .known .effectPrepared ∧
      decided.kind = .known .safetyDecided ∧
      payloadText? lib prepared "prepared_digest" = some digest ∧
      Decides lib decided record ∧ record.preparedDigest = digest := by
  cases h with
  | decided h hkind hdecides hdig =>
    cases h with
    | prepared hprepKind hprep =>
      exact ⟨_, _, rfl, hprepKind, hkind, hprep, hdecides, hdig⟩

theorem sandbox_of_decided (h : Passed lib chain ⟨digest, some record, none, false⟩) :
    record.sandbox = none := by
  obtain ⟨_, _, -, -, -, -, hdecides, -⟩ := h.of_decided
  exact hdecides.unbound

/-- An authorization without a sandbox stands on a decision. -/
theorem of_authorized (h : Passed lib chain ⟨digest, some record, some grant, false⟩)
    (hunbound : record.sandbox = none) : ∃ before authorized, chain = before ++ [authorized] ∧
      Passed lib before ⟨digest, some record, none, false⟩ ∧
      authorized.kind = .known .effectAuthorized ∧ Repeats lib authorized record ∧
      payloadText? lib authorized "grant_id" = some grant := by
  cases h with
  | authorized h hkind hrepeats hgrant => exact ⟨_, _, rfl, h, hkind, hrepeats, hgrant⟩
  | bound => cases hunbound
  | preflighted => cases hunbound

variable {proof : SandboxProofRecord}

/-- A sandbox that was not granted stands on an authorization. -/
theorem of_bound (h : Passed lib chain ⟨digest, some record, some grant, false⟩)
    (hproof : record.sandbox = some proof) (hungranted : proof.grantId = none) :
    ∃ before bound base, chain = before ++ [bound] ∧
      Passed lib before ⟨digest, some base, some grant, false⟩ ∧
      bound.kind = .known .sandboxBound ∧ BoundTo lib bound base proof ∧ base.sandbox = none ∧
      base.preparedDigest = record.preparedDigest := by
  cases h with
  | authorized h =>
    rw [h.sandbox_of_decided] at hproof
    cases hproof
  | bound h hkind hunbound hbound =>
    cases hproof
    exact ⟨_, _, _, rfl, h, hkind, hbound, hunbound, rfl⟩
  | preflighted =>
    cases hproof
    cases hungranted

/-- A granted sandbox stands on one that was not granted. -/
theorem of_preflighted (h : Passed lib chain ⟨digest, some record, some grant, false⟩)
    (hproof : record.sandbox = some proof) (hgranted : proof.grantId ≠ none) :
    ∃ before preflighted base unproved attempt, chain = before ++ [preflighted] ∧
      Passed lib before ⟨digest, some base, some grant, false⟩ ∧
      preflighted.kind = .known .sandboxPreflighted ∧ BoundTo lib preflighted base unproved ∧
      base.sandbox = some unproved ∧ unproved.grantId = none ∧
      payloadText? lib preflighted "grant_id" = some grant ∧
      payloadText? lib preflighted "dispatch_attempt_id" = some attempt ∧
      proof = { unproved with grantId := some grant, dispatchAttemptId := some attempt } := by
  cases h with
  | authorized h =>
    rw [h.sandbox_of_decided] at hproof
    cases hproof
  | bound h hkind hunbound hbound hungranted =>
    cases hproof
    exact absurd hungranted hgranted
  | preflighted h hkind hunproved hungranted hbound hgrant hatt =>
    cases hproof
    exact ⟨_, _, _, _, _, rfl, h, hkind, hbound, hunproved, hungranted, hgrant, hatt, rfl⟩

theorem allow_of_safetyDisposition {text : String} (h : safetyDisposition text = some .allow) :
    text = "allow" := by
  unfold safetyDisposition at h
  split_ifs at h with hallow
  · exact hallow
  all_goals cases h

/-- A chain that ends in a start has all its stages, once each and in order, and they agree. -/
theorem cleared {decision : Option F0Record} {granted : Option String}
    (h : Passed lib chain ⟨digest, decision, granted, true⟩) :
    ∃ prepared decided authorized bound preflighted started,
      chain = [prepared, decided, authorized, bound, preflighted, started] ∧
      InOrder prepared decided authorized bound preflighted started ∧
      Cleared lib prepared decided authorized bound preflighted started := by
  cases h with
  | @started _ _ grant started record proof h hstarted hproof hcovers hdig hgrant =>
  -- The evidence of each stage names the stage before it.
  have hgranted : proof.grantId ≠ none := by simp [hcovers.granted]
  obtain ⟨_, preflighted, _, unproved, attempt, rfl, h, hpreflighted, hpreflightBound, hunproved,
    hungranted, hpreflightGrant, hatt, rfl⟩ := h.of_preflighted hproof hgranted
  obtain ⟨_, bound, plain, rfl, h, hbound, hboundTo, hplain, hplainDig⟩ :=
    h.of_bound hunproved hungranted
  obtain ⟨_, authorized, rfl, h, hauth, hrepeats, hauthGrant⟩ := h.of_authorized hplain
  obtain ⟨prepared, decided, rfl, hprep, hdecided, hprepDig, hdecides, rfl⟩ := h.of_decided
  obtain ⟨constraints, hcons⟩ := Option.isSome_iff_exists.mp hrepeats.constrained
  refine ⟨prepared, decided, authorized, bound, preflighted, started, rfl,
    ⟨hprep, hdecided, hauth, hbound, hpreflighted, hstarted⟩, ?_⟩
  have hallowed : payloadText? lib decided "disposition" = some "allow" := by
    obtain ⟨_, htext, hdisp⟩ := Option.bind_eq_some_iff.mp hdecides.disposition
    rw [hrepeats.allowed] at hdisp
    rw [htext, allow_of_safetyDisposition hdisp]
  refine ⟨⟨plain.preparedDigest, ?_⟩, hallowed, hrepeats.version, ⟨grant, ?_⟩,
    ⟨unproved.executorId, unproved.executorRevision, ?_⟩, ⟨attempt, ?_⟩, ⟨constraints, ?_⟩,
    ⟨plain.policyRevision, hdecides.policy, hrepeats.policy⟩⟩
  · simp [hprepDig, hdecides.prepared, hrepeats.prepared, hboundTo.prepared,
      hpreflightBound.prepared, hplainDig, hdig]
  · simp [hauthGrant, hpreflightGrant, hgrant]
  · simp [hboundTo.executor, hboundTo.revision, hpreflightBound.executor, hpreflightBound.revision,
      hcovers.executor, hcovers.revision]
  · simp [hatt, hcovers.attempt]
  · simp [hdecides.constraints, hrepeats.constraints, hcons]

/-- A start is the last fact of its chain. -/
theorem started_of_mem (h : Passed lib chain evidence) {fact : FactDraft} (hfact : fact ∈ chain)
    (hkind : fact.kind = .known .effectStarted) : evidence.started := by
  induction h with
  | prepared hprep =>
    rw [mem_singleton.mp hfact, hprep] at hkind
    cases hkind
  | started => rfl
  | decided _ hother _ _ ih | authorized _ hother _ _ ih | bound _ hother _ _ _ ih
  | preflighted _ hother _ _ _ _ _ ih =>
    rcases mem_append.mp hfact with hfact | hfact
    · exact absurd (ih hfact) Bool.false_ne_true
    · rw [mem_singleton.mp hfact, hother] at hkind
      cases hkind

/-- Behind the start, the sandbox is granted. -/
theorem granted_of_started (h : Passed lib chain ⟨digest, some record, some grant, true⟩) :
    ∃ proof, record.sandbox = some proof ∧ proof.grantId = some grant := by
  cases h with
  | started h hkind hproof hcovers => exact ⟨_, hproof, hcovers.granted⟩

end Passed

/-! ## The invariant -/

open SessionProjection

theorem stages_append (tool : ToolInvocationId) (history : List FactDraft) (fact : FactDraft) :
    stages tool (history ++ [fact]) =
      if fact.isStageOf tool then stages tool history ++ [fact] else stages tool history := by
  cases hstage : fact.isStageOf tool <;> simp [stages, hstage]

variable {kind : RuntimeKind}

theorem FactDraft.isStageOf_eq_true {fact : FactDraft} {tool : ToolInvocationId}
    (htool : fact.toolInvocationId = some tool) (hkind : fact.kind = .known kind)
    (hgate : kind ∈ gateKinds) : fact.isStageOf tool := by
  simp only [isStageOf, htool, hkind, beq_self_eq_true, Bool.true_and, any_eq_true]
  exact ⟨kind, hgate, beq_self_eq_true _⟩

theorem FactDraft.isStageOf_eq_false {fact : FactDraft}
    (hkind : ∀ kind ∈ gateKinds, fact.kind ≠ .known kind) (tool : ToolInvocationId) :
    fact.isStageOf tool = false := by
  rw [isStageOf, Bool.and_eq_false_iff]
  refine .inr (any_eq_false.mpr fun kind hgate ↦ ?_)
  simpa using hkind kind hgate

/-- The stage facts of the invocation are as its tables say. -/
structure Gated (lib : Externals) (history : List FactDraft) (t : ToolTables)
    (tool : ToolInvocationId) : Prop where
  absent : t.tools[tool]? = none → stages tool history = [] ∧ t.f0[tool]? = none ∧
    t.toolGrants[tool]? = none ∧ t.toolContractVersions[tool]? = none
  version : ∀ fact ∈ stages tool history, fact.kind = .known .effectPrepared →
    t.toolContractVersions[tool]? = some fact.schemaVersion
  passed : t.toolContractVersions[tool]? = some 3 → ∃ execution state digest started,
    t.tools[tool]? = some (execution, state) ∧ t.toolDigests[tool]? = some digest ∧
    Passed lib (stages tool history) ⟨digest, t.f0[tool]?, t.toolGrants[tool]?, started⟩ ∧
    (state = .prepared → t.toolGrants[tool]? = none ∧ started = false) ∧
    (state = .authorized → t.toolGrants[tool]? ≠ none ∧ started = false)

variable {lib : Externals} {p p' : SessionProjection} {history : List FactDraft} {fact : FactDraft}
  {tool : ToolInvocationId}

theorem gated_empty (lib : Externals) (tool : ToolInvocationId) :
    Gated lib [] ({} : SessionProjection).toolTables tool where
  absent _ := by simp [stages, toolTables]
  version fact hfact := by cases hfact
  passed h := by simp [toolTables] at h

variable {t' : ToolTables}

/-- The invocation is untouched by a fact that is not one of its stages and leaves its entries. -/
theorem Gated.congr {t : ToolTables} (h : Gated lib history t tool)
    (hstage : fact.isStageOf tool = false) (htools : t'.tools[tool]? = t.tools[tool]?)
    (hf0 : t'.f0[tool]? = t.f0[tool]?) (hgrants : t'.toolGrants[tool]? = t.toolGrants[tool]?)
    (hvers : t'.toolContractVersions[tool]? = t.toolContractVersions[tool]?)
    (hdigs : t'.toolDigests[tool]? = t.toolDigests[tool]?) :
    Gated lib (history ++ [fact]) t' tool := by
  have hstages : stages tool (history ++ [fact]) = stages tool history := by
    rw [stages_append, hstage]
    rfl
  constructor
  · rw [hstages, htools, hf0, hgrants, hvers]
    exact h.absent
  · rw [hstages, hvers]
    exact h.version
  · rw [hstages, htools, hf0, hgrants, hvers, hdigs]
    exact h.passed

/-- A stage of the invocation is added to its chain. -/
theorem stages_concat (htool : fact.toolInvocationId = some tool) (hkind : fact.kind = .known kind)
    (hgate : kind ∈ gateKinds) :
    stages tool (history ++ [fact]) = stages tool history ++ [fact] := by
  rw [stages_append, FactDraft.isStageOf_eq_true htool hkind hgate]
  rfl

theorem isStageOf_eq_false_of_plan (hkind : fact.kind = .known .executionEffectBatchPlanned)
    (tool : ToolInvocationId) : fact.isStageOf tool = false := by
  refine FactDraft.isStageOf_eq_false (fun kind hgate heq ↦ ?_) tool
  rw [hkind, FactKind.known.injEq] at heq
  subst heq
  exact absurd hgate (by decide)

theorem isStageOf_eq_false_of_role {next : InvocationState} (hrole : roleOf fact.kind = .tool next)
    (hnext : next ≠ .prepared ∧ next ≠ .authorized ∧ next ≠ .started) (tool : ToolInvocationId) :
    fact.isStageOf tool = false := by
  refine FactDraft.isStageOf_eq_false (fun kind hgate hkind ↦ ?_) tool
  rw [hkind] at hrole
  simp only [gateKinds, mem_cons, not_mem_nil, or_false] at hgate
  rcases hgate with rfl | rfl | rfl | rfl | rfl | rfl <;> cases hrole
  · exact hnext.1 rfl
  · exact hnext.2.1 rfl
  · exact hnext.2.2 rfl

/-- A stage other than the preparation. -/
theorem Gated.stage (h : Gated lib history p.toolTables tool)
    (htool : fact.toolInvocationId = some tool) (hkind : fact.kind = .known kind)
    (hgate : kind ∈ gateKinds) (hother : kind ≠ .effectPrepared)
    (hvers : t'.toolContractVersions[tool]? = p.toolContractVersions[tool]?)
    (hpresent : t'.tools[tool]? ≠ none)
    (hpassed : ∀ execution state digest started, p.tools[tool]? = some (execution, state) → p.toolDigests[tool]? = some digest → Passed lib (stages tool history) ⟨digest, p.f0[tool]?, p.toolGrants[tool]?, started⟩ → (state = .prepared → p.toolGrants[tool]? = none ∧ started = false) → (state = .authorized → p.toolGrants[tool]? ≠ none ∧ started = false) → p.toolContractVersions[tool]? = some 3 → ∃ execution state digest started, t'.tools[tool]? = some (execution, state) ∧ t'.toolDigests[tool]? = some digest ∧ Passed lib (stages tool history ++ [fact]) ⟨digest, t'.f0[tool]?, t'.toolGrants[tool]?, started⟩ ∧ (state = .prepared → t'.toolGrants[tool]? = none ∧ started = false) ∧ (state = .authorized → t'.toolGrants[tool]? ≠ none ∧ started = false)) :
    Gated lib (history ++ [fact]) t' tool where
  absent hnone := absurd hnone hpresent
  version found hfound hprep := by
    rw [hvers]
    rw [stages_concat htool hkind hgate] at hfound
    rcases mem_append.mp hfound with hfound | hfound
    · exact h.version found hfound hprep
    · rw [mem_singleton.mp hfound, hkind, FactKind.known.injEq] at hprep
      exact absurd hprep hother
  passed hver := by
    rw [hvers] at hver
    obtain ⟨execution, state, digest, started, hstate, hdig, hchain, hprepare, hauthorize⟩ :=
      h.passed hver
    rw [stages_concat htool hkind hgate]
    exact hpassed execution state digest started hstate hdig hchain hprepare hauthorize hver

theorem Gated.prepare {digest : String} {bytes : Map ToolInvocationId Nat} {execution : ExecutionId}
    (h : Gated lib history p.toolTables tool) (hkind : fact.kind = .known .effectPrepared)
    (htool : fact.toolInvocationId = some tool) (hnew : p.tools[tool]? = none)
    (hdig : payloadText? lib fact "prepared_digest" = some digest) :
    Gated lib (history ++ [fact]) { p.toolTables with
      tools := p.tools.insert tool (execution, .prepared)
      toolDigests := p.toolDigests.insert tool digest
      toolContractVersions := p.toolContractVersions.insert tool fact.schemaVersion
      toolResultBytes := bytes } tool := by
  obtain ⟨hempty, hf0, hgrants, -⟩ := h.absent hnew
  have hstages : stages tool (history ++ [fact]) = [fact] := by
    rw [stages_concat htool hkind (by decide), hempty]
    rfl
  refine ⟨fun hnone ↦ ?_, ?_, fun _ ↦ ⟨execution, .prepared, digest, false, ?_, ?_, ?_, ?_, ?_⟩⟩
  · simp at hnone
  · rw [hstages]
    intro found hfound _
    rw [mem_singleton.mp hfound]
    exact get?_insert_self ..
  · exact get?_insert_self ..
  · exact get?_insert_self ..
  · rw [hstages, hf0, hgrants]
    exact .prepared hkind hdig
  · exact fun _ ↦ ⟨hgrants, rfl⟩
  · rintro ⟨⟩

/-- Every move of the invocation adds to its chain what it asks for. -/
theorem Gated.move (h : Gated lib history p.toolTables tool) (hmove : ToolMove lib p fact t')
    (htool : fact.toolInvocationId = some tool) : Gated lib (history ++ [fact]) t' tool := by
  have hsame : ∀ {other}, fact.toolInvocationId = some other → other = tool :=
    fun hother ↦ Option.some.inj (hother.symm.trans htool)
  cases hmove with
  | prepare hkind hother _ hnew hdig =>
    cases hsame hother
    exact h.prepare hkind htool hnew hdig
  | @decide _ execution _ hkind hother hver hentry hnew hdig hdecides =>
    cases hsame hother
    refine h.stage htool hkind (by decide) (by decide) rfl
      (by rw [show p.toolTables.tools[tool]? = _ from hentry]; simp) ?_
    intro owner state digest started hstate hprep hchain hprepare hauthorize _
    rw [hentry] at hstate
    cases hstate
    rw [hdig] at hprep
    cases hprep
    obtain ⟨hungranted, rfl⟩ := hprepare rfl
    rw [hnew, hungranted] at hchain
    refine ⟨execution, .prepared, _, false, hentry, hdig, ?_, hprepare, hauthorize⟩
    rw [get?_insert_self, show p.toolTables.toolGrants[tool]? = none from hungranted]
    exact hchain.decided hkind hdecides rfl
  | @authorize _ execution _ hkind hother hentry hgrant hallowed =>
    cases hsame hother
    refine h.stage htool hkind (by decide) (by decide) rfl (by simp) ?_
    intro owner state digest started hstate hprep hchain hprepare _ hver
    rw [hentry] at hstate
    cases hstate
    obtain ⟨hungranted, rfl⟩ := hprepare rfl
    obtain ⟨record, hrec, hrepeats⟩ := hallowed hver
    rw [hrec, hungranted] at hchain
    refine ⟨execution, .authorized, digest, false, get?_insert_self .., hprep, ?_, nofun,
      fun _ ↦ ⟨by simp, rfl⟩⟩
    rw [show p.toolTables.f0[tool]? = some record from hrec, get?_insert_self]
    exact hchain.authorized hkind hrepeats hgrant
  | @bind _ record _ hkind hother hentry hrec _ hunbound hbound hungranted =>
    cases hsame hother
    obtain ⟨⟨execution, _⟩, hentry, rfl⟩ := Option.map_eq_some_iff.mp hentry
    refine h.stage htool hkind (by decide) (by decide) rfl
      (by rw [show p.toolTables.tools[tool]? = _ from hentry]; simp) ?_
    intro owner state digest started hstate hprep hchain hprepare hauthorize _
    rw [hentry] at hstate
    cases hstate
    obtain ⟨hgranted, rfl⟩ := hauthorize rfl
    obtain ⟨grant, hgrant⟩ := Option.ne_none_iff_exists'.mp hgranted
    rw [hrec, hgrant] at hchain
    refine ⟨execution, _, digest, false, hentry, hprep, ?_, hprepare, hauthorize⟩
    rw [get?_insert_self, show p.toolTables.toolGrants[tool]? = some grant from hgrant]
    exact hchain.bound hkind hunbound hbound hungranted
  | @preflight _ record proof grant attempt hkind hother hrec hproof hungranted hbound hgrant
      hgranted hatt =>
    cases hsame hother
    have hrec' : p.toolTables.f0[tool]? = some record := hrec
    refine h.stage htool hkind (by decide) (by decide) rfl
      (fun hnone ↦ by simp [(h.absent hnone).2.1] at hrec') ?_
    intro execution state digest started hstate hprep hchain hprepare hauthorize _
    rw [hrec, hgranted] at hchain
    -- The projection does not ask for the invocation's state here; the chain still tells it.
    have hstarted : started = false := by
      by_contra hstarted
      rw [Bool.not_eq_false] at hstarted
      subst hstarted
      obtain ⟨found, hfound, hfoundGrant⟩ := hchain.granted_of_started
      rw [hproof, Option.some.injEq] at hfound
      rw [← hfound, hungranted] at hfoundGrant
      cases hfoundGrant
    subst hstarted
    refine ⟨execution, state, digest, false, hstate, hprep, ?_, hprepare, hauthorize⟩
    rw [get?_insert_self, show p.toolTables.toolGrants[tool]? = some grant from hgranted]
    exact hchain.preflighted hkind hproof hungranted hbound hgrant hatt
  | @start _ execution current digest grant hkind hother hentry _ hdig hprep hgrant hgranted
      hcovered =>
    cases hsame hother
    refine h.stage htool hkind (by decide) (by decide) rfl (by simp) ?_
    intro owner state found started hstate hfound hchain _ hauthorize hver
    obtain ⟨rfl, record, proof, hrec, hproof, hcovers⟩ := hcovered hver
    rw [hentry] at hstate
    cases hstate
    rw [hprep] at hfound
    cases hfound
    obtain ⟨hsome, rfl⟩ := hauthorize rfl
    -- The grant of the start is the one of the authorization.
    obtain ⟨_, hheld⟩ := Option.ne_none_iff_exists'.mp hsome
    rw [hheld, Option.all_some, beq_iff_eq] at hgranted
    rw [hrec, hheld, hgranted] at hchain
    refine ⟨execution, .started, digest, true, get?_insert_self .., hprep, ?_, nofun, nofun⟩
    rw [show p.toolTables.f0[tool]? = some record from hrec, get?_insert_self]
    exact hchain.started hkind hproof hcovers hdig hgrant
  | plan hkind => exact h.congr (isStageOf_eq_false_of_plan hkind tool) rfl rfl rfl rfl rfl
  | @settle _ execution _ next hrole hother hnext =>
    cases hsame hother
    have hstages : stages tool (history ++ [fact]) = stages tool history := by
      rw [stages_append, isStageOf_eq_false_of_role hrole hnext tool]
      rfl
    refine ⟨fun hnone ↦ by simp at hnone, by rw [hstages]; exact h.version, fun hver ↦ ?_⟩
    obtain ⟨-, -, digest, started, -, hprep, hchain, -, -⟩ := h.passed hver
    rw [hstages]
    exact ⟨execution, next, digest, started, get?_insert_self .., hprep, hchain,
      fun heq ↦ absurd heq hnext.1, fun heq ↦ absurd heq hnext.2.1⟩

/-- Every move keeps every invocation gated. -/
theorem Gated.step (h : Gated lib history p.toolTables tool) (hmove : ToolMove lib p fact t') :
    Gated lib (history ++ [fact]) t' tool := by
  by_cases htool : fact.toolInvocationId = some tool
  · exact h.move hmove htool
  -- A move of another invocation leaves the entries of this one.
  have hstage : fact.isStageOf tool = false := by simp [FactDraft.isStageOf, htool]
  have hne : ∀ {other}, fact.toolInvocationId = some other → other ≠ tool :=
    fun hother heq ↦ htool (heq ▸ hother)
  cases hmove with
  | prepare _ hother =>
    exact h.congr hstage (get?_insert_of_ne (hne hother)) rfl rfl
      (get?_insert_of_ne (hne hother)) (get?_insert_of_ne (hne hother))
  | decide _ hother | bind _ hother | preflight _ hother =>
    exact h.congr hstage rfl (get?_insert_of_ne (hne hother)) rfl rfl rfl
  | authorize _ hother | start _ hother =>
    exact h.congr hstage (get?_insert_of_ne (hne hother)) rfl
      (get?_insert_of_ne (hne hother)) rfl rfl
  | plan => exact h.congr hstage rfl rfl rfl rfl rfl
  | settle _ hother => exact h.congr hstage (get?_insert_of_ne (hne hother)) rfl rfl rfl rfl

/-- Along every course, every invocation is gated. -/
theorem Leads.gated {condition : StepCondition} (h : Leads lib condition history p)
    (tool : ToolInvocationId) : Gated lib history p.toolTables tool := by
  induction h with
  | empty => exact gated_empty lib tool
  | commit _ _ ih => exact ih
  | @fact history p p' fact _ _ happly ih =>
    by_cases hwr : fact.kind.writes = .tools
    · exact ih.step (apply_toolMove hwr happly)
    · rw [(apply_keeps happly).toolTables_eq hwr]
      refine ih.congr (FactDraft.isStageOf_eq_false (fun kind hgate hkind ↦ hwr ?_) tool) rfl rfl
        rfl rfl rfl
      rw [hkind]
      simp only [gateKinds, mem_cons, not_mem_nil, or_false] at hgate
      rcases hgate with rfl | rfl | rfl | rfl | rfl | rfl <;> rfl

/-! ## Sessions -/

namespace LedgerState

variable {state : LedgerState} {sessionId : SessionId} {session : SessionLedger}

/-- The facts of one kind about an invocation. -/
def stageFacts (session : SessionLedger) (tool : ToolInvocationId) (kind : RuntimeKind) :
    List DurableFact :=
  session.facts.filter fun fact ↦ fact.toolInvocationId == some tool && fact.kind == .known kind

/-- All stage facts of an invocation. -/
def gateFacts (session : SessionLedger) (tool : ToolInvocationId) : List DurableFact :=
  session.facts.filter (·.toDraft.isStageOf tool)

theorem isStageOf_toDraft {fact : DurableFact} (htool : fact.toolInvocationId = some tool)
    (hkind : fact.kind = .known kind) (hgate : kind ∈ gateKinds) :
    fact.toDraft.isStageOf tool :=
  FactDraft.isStageOf_eq_true htool hkind hgate

theorem map_toDraft_gateFacts (session : SessionLedger) (tool : ToolInvocationId) :
    (gateFacts session tool).map (·.toDraft) = stages tool (session.facts.map (·.toDraft)) := by
  rw [gateFacts, stages, filter_map]
  rfl

theorem stageFacts_eq (session : SessionLedger) (tool : ToolInvocationId) (hgate : kind ∈ gateKinds) :
    stageFacts session tool kind = (gateFacts session tool).filter fun fact ↦ fact.kind == .known kind := by
  rw [stageFacts, gateFacts, filter_filter]
  refine filter_congr fun fact _ ↦ ?_
  rw [Bool.eq_iff_iff]
  simp only [Bool.and_eq_true, beq_iff_eq]
  constructor
  · rintro ⟨htool, hkind⟩
    exact ⟨hkind, isStageOf_toDraft htool hkind hgate⟩
  · rintro ⟨hkind, hstage⟩
    have htool : fact.toDraft.toolInvocationId = some tool := by
      simpa using (Bool.and_eq_true_iff.mp hstage).1
    exact ⟨htool, hkind⟩

/-- **The gate.** In every session of every reachable ledger, a version-3 invocation that was started
was prepared, allowed, authorized, bound to a sandbox and preflighted before, once each and in this
order, under one prepared digest, one grant, one executor and one dispatch attempt, and the
authorization repeats the constraints and the policy revision of the decision. -/
theorem started_behind_gate (h : Reachable lib state)
    (hsession : state.sessions[sessionId]? = some session) {prepared started : DurableFact}
    (hprepared : prepared ∈ session.facts) (hpreparedTool : prepared.toolInvocationId = some tool)
    (hpreparedKind : prepared.kind = .known .effectPrepared) (hversion : prepared.schemaVersion = 3)
    (hstarted : started ∈ session.facts) (hstartedTool : started.toolInvocationId = some tool)
    (hstartedKind : started.kind = .known .effectStarted) :
    ∃ decided authorized bound preflighted : DurableFact,
      stageFacts session tool .effectPrepared = [prepared] ∧
      stageFacts session tool .safetyDecided = [decided] ∧
      stageFacts session tool .effectAuthorized = [authorized] ∧
      stageFacts session tool .sandboxBound = [bound] ∧
      stageFacts session tool .sandboxPreflighted = [preflighted] ∧
      stageFacts session tool .effectStarted = [started] ∧
      prepared.position < decided.position ∧ decided.position < authorized.position ∧
      authorized.position < bound.position ∧ bound.position < preflighted.position ∧
      preflighted.position < started.position ∧
      Cleared lib prepared.toDraft decided.toDraft authorized.toDraft bound.toDraft
        preflighted.toDraft started.toDraft := by
  have hgated := (Reachable.leads h hsession).1.gated tool
  have hchain := map_toDraft_gateFacts session tool
  have hpreparedMem : prepared ∈ gateFacts session tool :=
    mem_filter.mpr
      ⟨hprepared, isStageOf_toDraft hpreparedTool hpreparedKind (by decide)⟩
  have hstartedMem : started ∈ gateFacts session tool :=
    mem_filter.mpr
      ⟨hstarted, isStageOf_toDraft hstartedTool hstartedKind (by decide)⟩
  have hcontract := hgated.version prepared.toDraft (hchain ▸ mem_map_of_mem hpreparedMem)
    hpreparedKind
  obtain ⟨_, _, _, dispatched, -, -, hpassed, -⟩ := hgated.passed (hversion ▸ hcontract)
  have hdispatched : dispatched = true :=
    hpassed.started_of_mem (hchain ▸ mem_map_of_mem hstartedMem) hstartedKind
  subst hdispatched
  obtain ⟨_, _, _, _, _, _, heq, horder, hcleared⟩ := hpassed.cleared
  rw [← hchain] at heq
  simp only [map_eq_cons_iff, map_eq_nil_iff] at heq
  obtain ⟨a, _, hfacts, rfl, b, _, rfl, rfl, c, _, rfl, rfl, d, _, rfl, rfl, e, _, rfl, rfl, f, _,
    rfl, rfl, rfl⟩ := heq
  have ha : a.kind = .known .effectPrepared := horder.prepared
  have hb : b.kind = .known .safetyDecided := horder.decided
  have hc : c.kind = .known .effectAuthorized := horder.authorized
  have hd : d.kind = .known .sandboxBound := horder.bound
  have he : e.kind = .known .sandboxPreflighted := horder.preflighted
  have hf : f.kind = .known .effectStarted := horder.started
  have hpositions := (Reachable.pairwise_position h hsession).sublist
    (filter_sublist (p := fun fact : DurableFact ↦ fact.toDraft.isStageOf tool))
  rw [← gateFacts, hfacts] at hpositions
  simp only [pairwise_cons, forall_mem_cons] at hpositions
  -- A fact of the chain is told by its kind.
  rw [hfacts] at hpreparedMem hstartedMem
  obtain rfl : prepared = a := by
    simp only [mem_cons, not_mem_nil, or_false] at hpreparedMem
    rcases hpreparedMem with rfl | rfl | rfl | rfl | rfl | rfl
    · rfl
    all_goals simp_all
  obtain rfl : started = f := by
    simp only [mem_cons, not_mem_nil, or_false] at hstartedMem
    rcases hstartedMem with rfl | rfl | rfl | rfl | rfl | rfl
    case inr.inr.inr.inr.inr => rfl
    all_goals simp_all
  refine ⟨b, c, d, e, ?_, ?_, ?_, ?_, ?_, ?_, hpositions.1.1, hpositions.2.1.1, hpositions.2.2.1.1,
    hpositions.2.2.2.1.1, hpositions.2.2.2.2.1.1, hcleared⟩
  all_goals
    rw [stageFacts_eq session tool (by decide), hfacts]
    simp [ha, hb, hc, hd, he, hf]

/-- A gated tool goes through all its stages in one commit. -/
def gateBatch : List FactDraft :=
  [toolFact runTurn runExecution runTool ⟨"fact-prepared", by simp⟩ .effectPrepared 3
      prepareGatedFields,
    toolFact runTurn runExecution runTool ⟨"fact-decided", by simp⟩ .safetyDecided 1 allowFields,
    toolFact runTurn runExecution runTool ⟨"fact-authorized", by simp⟩ .effectAuthorized 2
      authorizeGatedFields,
    toolFact runTurn runExecution runTool ⟨"fact-bound", by simp⟩ .sandboxBound 1 bindSandboxFields,
    toolFact runTurn runExecution runTool ⟨"fact-preflighted", by simp⟩ .sandboxPreflighted 1
      preflightSandboxFields,
    toolFact runTurn runExecution runTool ⟨"fact-tool-started", by simp⟩ .effectStarted 1 startToolFields]

/-- The run in which the gated tool is started. -/
def gateRun : WrittenRun :=
  startRun ++ [(gateBatch, [prepareGatedFields, allowFields, authorizeGatedFields, bindSandboxFields,
    preflightSandboxFields, startToolFields])]

instance : Replayed gateRun fun _ ↦ true := ⟨by repeat constructor, by decide +kernel⟩

/-- In the ledger of that run the started tool is behind its gate. -/
theorem gateBatch_behind_gate : ∃ (state : LedgerState) (session : SessionLedger)
    (prepared decided authorized bound preflighted started : DurableFact),
    Reachable reference state ∧ state.sessions[runSession]? = some session ∧
    session.facts.map (·.toDraft) = [openingFact, turnStart, executionStart] ++ gateBatch ∧
    stageFacts session runTool .effectStarted = [started] ∧
    prepared.position < decided.position ∧ decided.position < authorized.position ∧
    authorized.position < bound.position ∧ bound.position < preflighted.position ∧
    preflighted.position < started.position ∧
    Cleared reference prepared.toDraft decided.toDraft authorized.toDraft bound.toDraft
      preflighted.toDraft started.toDraft := by
  obtain ⟨-, state, _, hholds, -⟩ := exists_holds_of_replayed gateRun fun _ ↦ true
  have hsession := hholds.get?_sessions (cons_ne_nil _ _)
  have hfacts := hholds.facts_eq
  have hmem : ∀ fact ∈ numbered runSession 4 gateBatch, fact ∈ (state.session runSession).facts := by
    intro fact hfact
    rw [hfacts]
    exact mem_append_right (numbered runSession 1 [openingFact, turnStart, executionStart]) hfact
  obtain ⟨decided, authorized, bound, preflighted, -, -, -, -, -, hstarted, hdecided, hauthorized,
    hbound, hpreflighted, hlast, hcleared⟩ := started_behind_gate hholds.reachable hsession
      (hmem _ mem_cons_self) rfl rfl rfl
      (hmem _ (mem_of_getElem? (i := 5) rfl)) rfl rfl
  refine ⟨state, _, _, decided, authorized, bound, preflighted, _, hholds.reachable, hsession, ?_,
    hstarted, hdecided, hauthorized, hbound, hpreflighted, hlast, hcleared⟩
  rw [hfacts, map_toDraft_numbered]
  rfl

end LedgerState

end Garive
