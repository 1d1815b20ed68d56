import Garive.Effects.Recording
import Garive.Ledger.Started
import Garive.Ledger.Stored

/-!
# Which ends of a batch are recorded

The end of a started member is recorded by one commit at the publisher's version. A proved end and a
cancelled one are written with a code that the ledger admits, an uncertain one with none. An
execution timeout and an exceeded result bound are written with codes of their own that it does not
admit, so their commit fails and the member stays started (`publishTerminal_iff`).
-/

namespace Garive

open LedgerState RuntimeFacts SessionProjection List LedgerState.Reachable

namespace SqliteEffectBatchPublisher

variable {lib : Externals} {publisher : SqliteEffectBatchPublisher}
  {invocation : AuthorizedBatchInvocation} {execution : PreparedExecution} {fact : FactDraft}

/-! ## Members of a committed batch -/

/-- The fact prepared the invocation as the admission of its batch writes it. -/
structure PreparedBy (lib : Externals) (invocation : AuthorizedBatchInvocation) (fact : FactDraft) :
    Prop where
  tells : fact.Tells .effectPrepared invocation.invocationId
  version_eq : fact.schemaVersion = 2
  call_eq : payloadText? lib fact "model_call_id" = some invocation.prepared.modelCallId

/-- The invocation is a member of a committed batch, its start was committed by the publisher, its
execution is active at the publisher's version, and it has not moved on from its start. -/
structure Dispatched (lib : Externals) (publisher : SqliteEffectBatchPublisher)
    (invocation : AuthorizedBatchInvocation) (execution : PreparedExecution) : Prop where
  reachable : LedgerState.Reachable lib publisher.ledger
  prepared : ∃ fact ∈ publisher.ledger.history publisher.sessionId, PreparedBy lib invocation fact
  started : ∃ fact ∈ publisher.ledger.history publisher.sessionId,
    publisher.startedFact lib invocation execution = .ok fact
  unsettled : (publisher.ledger.session publisher.sessionId).projection.tools[invocation.invocationId]?
    = some (publisher.context.executionId, .started)
  active : (publisher.ledger.session publisher.sessionId).projection.executions[
    publisher.context.executionId]? = some (publisher.context.turnId, .active)
  version_eq : (publisher.ledger.session publisher.sessionId).version = publisher.version

namespace Dispatched

theorem exists_writes (h : Dispatched lib publisher invocation execution) :
    ∃ fact ∈ publisher.ledger.history publisher.sessionId, Writes lib publisher invocation "started"
      .effectStarted (startedFields invocation execution) fact := by
  obtain ⟨fact, hfact, hstarted⟩ := h.started
  simp only [startedFact, ok_iff] at hstarted
  exact ⟨fact, hfact, writes_of_memberFact (by simp [startedFields]) hstarted.2⟩

/-- A prepared invocation has the identity of the model's call. -/
theorem call_ne_empty (h : Dispatched lib publisher invocation execution) :
    invocation.prepared.modelCallId ≠ "" := by
  obtain ⟨fact, hfact, hprep⟩ := h.prepared
  obtain ⟨-, _, hadm⟩ := admitted h.reachable hfact
  have hruntime : fact.kind.isRuntime := by
    rw [hprep.tells.kind_eq]
    rfl
  have hver : fact.kind.admittedVersion? fact.schemaVersion = some .appliedV2 := by
    rw [hprep.tells.kind_eq, hprep.version_eq]
    rfl
  rw [validateRuntimeFact, if_pos hruntime, hver] at hadm
  simp only [ok_iff, object] at hadm
  obtain ⟨-, _, hvalue, payload, hpay, hrule, -⟩ := hadm
  rw [hprep.tells.kind_eq, hprep.version_eq] at hrule
  change RuntimeFacts.Effect.preparedV2 lib payload = .ok () at hrule
  have hread : payloadOf lib fact = .ok payload := by
    simp [payloadOf, hvalue, hpay]
  have hcall := hprep.call_eq
  rw [payloadText?_eq_bind hread] at hcall
  simp only [RuntimeFacts.Effect.preparedV2, identities, ok_iff,
    checkAll_cons_eq_ok_iff, nonEmpty_eq_ok_iff] at hrule
  obtain ⟨-, -, -, ⟨-, -, ⟨_, hget, hne⟩, -⟩, -⟩ := hrule
  rw [hget] at hcall
  simp only [Option.bind_some, Value.asStr_string, Option.some.injEq] at hcall
  exact hcall ▸ hne

/-- What the ledger has admitted about the dispatch. -/
theorem stated (h : Dispatched lib publisher invocation execution) (hlib : lib.Documented) :
    Stated lib publisher invocation execution := by
  obtain ⟨_, hfact, hwr⟩ := h.exists_writes
  obtain ⟨hvalid, hadm⟩ := admitted h.reachable hfact
  have hrule := (hwr.admitted_iff hlib (by decide)).mp hadm
  change RuntimeFacts.Effect.started _ = .ok () at hrule
  simp only [RuntimeFacts.Effect.started, identities, ok_iff, checkAll_cons_eq_ok_iff,
    nonEmpty_eq_ok_iff, digest_eq_ok_iff] at hrule
  obtain ⟨-, ⟨_, hdig, hisDig⟩, -, ⟨_, hexecutor, hexecutorNe⟩,
    ⟨_, hrev, hrevNe⟩, -⟩ := hrule
  have htime : lib.parseFromRfc3339 publisher.context.recordedAt := by
    rw [← hwr.recordedAt_eq]
    by_contra hfalse
    rw [FactDraft.validate, if_pos (.inr (Bool.not_eq_true _ ▸ hfalse))] at hvalid
    cases hvalid
  simp only [startedFields, Object.get?_ofFields] at hdig hexecutor hrev
  simp at hdig hexecutor hrev
  exact ⟨htime, hdig ▸ hisDig, h.call_ne_empty, hexecutor ▸ hexecutorNe,
    hrev ▸ hrevNe⟩

/-- The session stands at the start of the invocation, bound to the publisher's dispatch. -/
theorem stands (h : Dispatched lib publisher invocation execution) (hlib : lib.Documented) :
    Stands publisher invocation
      (publisher.ledger.session publisher.sessionId).projection.beginCommit .started ∧
    (publisher.ledger.session publisher.sessionId).projection.toolGrants[invocation.invocationId]?
      = some invocation.grant.grantId.text ∧
    (publisher.ledger.session publisher.sessionId).projection.toolExecutors[invocation.invocationId]?
      = some (execution.executorId, execution.executorRevision) := by
  obtain ⟨fact, hfact, hwr⟩ := h.exists_writes
  obtain ⟨hleads, hbdry⟩ := leads_history h.reachable publisher.sessionId
  have hpay := hwr.written.payloadOf_eq hlib
  have hbound := (hleads.begun invocation.invocationId).bound fact hfact
    ⟨hwr.kind_eq, hwr.toolInvocationId_eq⟩
  obtain ⟨digest, hdig, hdigEntry⟩ := hbound.digest
  obtain ⟨grant, hgrant, hgrantEntry⟩ := hbound.grant
  obtain ⟨executor, _, hexecutor, hrev, hexecutorEntry⟩ := hbound.executor
  rw [payloadText?_eq_bind hpay] at hdig hgrant hexecutor hrev
  simp [startedFields] at hdig hgrant hexecutor hrev
  subst hdig hgrant hexecutor hrev
  have hclosed : (publisher.ledger.session publisher.sessionId).projection.closed = false := by
    by_contra hclosed
    have hsettled := hleads.contained.closed (Bool.not_eq_false _ ▸ hclosed)
    exact hsettled.executions publisher.context.executionId ⟨_, h.active⟩
  have hopened := hleads.opened (ne_nil_of_mem hfact)
  refine ⟨⟨hopened, hclosed, h.active, h.unsettled, hdigEntry, ?_⟩, hgrantEntry, hexecutorEntry⟩
  rw [validateCommitBoundary_eq_ok_iff] at hbdry ⊢
  refine ⟨hbdry.1, fun id record _ ↦ ?_⟩
  simp [beginCommit]

/-- No outcome of the invocation is stored. -/
theorem not_stored (h : Dispatched lib publisher invocation execution) {draft : FactDraft}
    (htool : draft.toolInvocationId = some invocation.invocationId) {state : InvocationState}
    (hrole : roleOf draft.kind = .tool state) (hstate : ¬state.Early) :
    draft ∉ publisher.ledger.history publisher.sessionId := by
  intro hmem
  obtain ⟨hleads, -⟩ := leads_history h.reachable publisher.sessionId
  refine hstate ((hleads.begun invocation.invocationId).early (fun owner found hfound ↦ ?_) draft hmem
    htool state hrole)
  rw [h.unsettled] at hfound
  cases hfound
  exact .inr (.inr rfl)

end Dispatched

/-! ## Publication -/

/-- The ledger has room for the facts of an end: their identities are distinct and new, and the
positions and the version after them fit. -/
structure Clear (lib : Externals) (publisher : SqliteEffectBatchPublisher)
    (invocation : AuthorizedBatchInvocation) (terminal : BatchTerminal) : Prop where
  nodup : ((terminalNames terminal).map (publisher.memberId lib invocation)).Nodup
  unused : ∀ name ∈ terminalNames terminal,
    publisher.ledger.factIndex[publisher.memberId lib invocation name]? = none
  positions : (publisher.ledger.session publisher.sessionId).facts.length
    + (terminalNames terminal).length < 2 ^ 64
  version : publisher.version + 1 < 2 ^ 64

/-- The end has a code that the ledger admits, or none. -/
def Recordable (terminal : BatchTerminal) : Prop :=
  terminal ≠ .executionTimedOut ∧ terminal ≠ .resultBoundExceeded

/-- The publication of an end succeeds: its facts are admitted, their commit succeeds, and the
invocation has ended in the ledger after it. -/
def Publishes (lib : Externals) (publisher : SqliteEffectBatchPublisher)
    (invocation : AuthorizedBatchInvocation) (execution : PreparedExecution)
    (terminal : BatchTerminal) : Prop :=
  ∃ facts, publisher.terminalFacts lib invocation execution terminal = .ok facts ∧
    (∀ fact ∈ facts, ∃ disposition, validateRuntimeFact lib fact = .ok disposition) ∧
    (publisher.publishTerminal lib invocation execution terminal).1 = .ok () ∧
    ∃ state, ((publisher.publishTerminal lib invocation execution terminal).2.ledger.session
      publisher.sessionId).projection.tools[invocation.invocationId]?
        = some (publisher.context.executionId, state) ∧ ¬state.InFlight

section Publication

variable {terminal : BatchTerminal}

variable {facts : List FactDraft}

theorem publishTerminal_eq
    (h : publisher.terminalFacts lib invocation execution terminal = .ok facts) :
    publisher.publishTerminal lib invocation execution terminal = publisher.commit lib facts := by
  rw [publishTerminal, h]
  rfl

/-- The facts of an end are written about the publisher's invocation. -/
theorem Ends.envelope (h : Ends lib publisher invocation execution facts) :
    ∀ fact ∈ facts, ∃ name kind fields, Writes lib publisher invocation name kind fields fact := by
  cases h <;> simp only [forall_mem_cons, not_mem_nil, false_implies, implies_true, and_true]
  case completed hrecv hended hseen =>
    exact ⟨⟨_, _, _, hrecv⟩, ⟨_, _, _, hended⟩, ⟨_, _, _, hseen⟩⟩
  case failed hrecv _ hended hseen =>
    exact ⟨⟨_, _, _, hrecv⟩, ⟨_, _, _, hended⟩, ⟨_, _, _, hseen⟩⟩
  case settled hended hseen => exact ⟨⟨_, _, _, hended⟩, ⟨_, _, _, hseen⟩⟩
  case unknown hended => exact ⟨_, _, _, hended⟩

/-- The first fact of an end is an outcome or leads to one. -/
theorem Ends.exists_outcome (h : Ends lib publisher invocation execution facts) :
    ∃ fact ∈ facts, ∃ state,
      roleOf fact.kind = .tool state ∧ ¬state.Early ∧
      fact.toolInvocationId = some invocation.invocationId := by
  have hlate : ∀ state : InvocationState, state = .receipt ∨ state = .failed ∨ state = .uncertain →
      ¬state.Early := by
    rintro state (rfl | rfl | rfl) (h | h | h) <;> cases h
  cases h with
  | completed _ hrecv | failed _ hrecv =>
    exact ⟨_, by simp, .receipt, by rw [hrecv.kind_eq]; rfl, hlate _ (.inl rfl),
      hrecv.toolInvocationId_eq⟩
  | settled _ hended =>
    exact ⟨_, by simp, .failed, by rw [hended.kind_eq]; rfl, hlate _ (.inr (.inl rfl)),
      hended.toolInvocationId_eq⟩
  | unknown hended =>
    exact ⟨_, by simp, .uncertain, by rw [hended.kind_eq]; rfl, hlate _ (.inr (.inr rfl)),
      hended.toolInvocationId_eq⟩

theorem commit_eq_ok_iff : (publisher.commit lib facts).1 = .ok () ↔
    ∃ result after, publisher.ledger.commit lib publisher.sessionId publisher.version facts
      = (.ok result, after) := by
  unfold commit
  cases hcom : publisher.ledger.commit lib publisher.sessionId publisher.version facts with
  | mk answer after =>
    cases answer with
    | ok result => simp
    | error e => simp

/-- A commit that fails changes nothing. -/
theorem commit_of_not_ok (h : (publisher.commit lib facts).1 ≠ .ok ()) :
    publisher.commit lib facts = (.error .durabilityFailure, publisher) := by
  rcases commit_cases lib publisher.ledger publisher.sessionId publisher.version facts with
    ⟨e, he⟩ | ⟨session, hreplays⟩ | ⟨position, projection, happ⟩
  · rw [commit, he]
  · exact absurd (commit_eq_ok_iff.mpr ⟨_, _, commit_of_replays hreplays⟩) h
  · exact absurd (commit_eq_ok_iff.mpr ⟨_, _, commit_of_appends happ⟩) h

/-- With room in the ledger, an end that is written as facts it can hold is published. -/
theorem Records.publishes (hrecs : Records lib publisher invocation execution terminal)
    (hlib : lib.Documented) (h : Dispatched lib publisher invocation execution)
    (hclear : Clear lib publisher invocation terminal) :
    Publishes lib publisher invocation execution terminal := by
  obtain ⟨facts, hfacts, hends, hids⟩ := hrecs
  have hstated := h.stated hlib
  have hadm := hends.admitted hlib hstated
  obtain ⟨hstands, hgrant, hexecutor⟩ := h.stands hlib
  obtain ⟨p', state, haccepted, hbdry, hentry, hended⟩ :=
    hends.accepts hlib hstated hstands hgrant hexecutor
  obtain ⟨_, hstarted, hwr⟩ := h.exists_writes
  have hlen : facts.length = (terminalNames terminal).length := by
    rw [← length_map (·.factId), hids, length_map]
  have hnonempty : facts ≠ [] := by
    obtain ⟨fact, hfact, -⟩ := hends.exists_outcome
    exact ne_nil_of_mem hfact
  have hpositive : 0 < facts.length := length_pos_iff.mpr hnonempty
  have hfresh : ∀ fact ∈ facts, publisher.ledger.factIndex[fact.factId]? = none := by
    intro fact hfact
    have hmem : fact.factId ∈ (terminalNames terminal).map (publisher.memberId lib invocation) := by
      rw [← hids]
      exact mem_map_of_mem hfact
    obtain ⟨name, hname, heq⟩ := mem_map.mp hmem
    rw [← heq]
    exact hclear.unused name hname
  have hposition : (publisher.ledger.session publisher.sessionId).nextPosition
      = .ok ((publisher.ledger.session publisher.sessionId).facts.length + 1) := by
    have hposs := hclear.positions
    rw [(records h.reachable publisher.sessionId).nextPosition_eq,
      length_history, if_pos (by omega)]
  have happ : LedgerState.Appends lib publisher.ledger publisher.sessionId publisher.version facts
      ((publisher.ledger.session publisher.sessionId).facts.length + 1) p' := by
    refine ⟨hnonempty, fun fact hfact ↦ ?_, hids ▸ hclear.nodup, hfresh, h.version_eq, hposition,
      haccepted, hbdry, fun _ ↦ ?_, hclear.version⟩
    · obtain ⟨name, _, _, hfactWr⟩ := hends.envelope fact hfact
      refine ⟨(hadm fact hfact).1, (hadm fact hfact).2,
        unowned h.reachable hstarted (.inr ?_) (.inr ?_) (.inl ?_) (.inr ?_),
        fun existing hexisting ↦ ?_⟩
      · rw [hfactWr.turnId_eq, hwr.turnId_eq]
      · rw [hfactWr.executionId_eq, hwr.executionId_eq]
      · exact hfactWr.modelRequestId_eq
      · rw [hfactWr.toolInvocationId_eq, hwr.toolInvocationId_eq]
      · rw [hfresh fact hfact] at hexisting
        cases hexisting
    · have hposs := hclear.positions
      omega
  have hcom : publisher.commit lib facts = (.ok (), { publisher with
      ledger := publisher.ledger.appended publisher.sessionId facts
        ((publisher.ledger.session publisher.sessionId).facts.length + 1) p'
      version := publisher.version + 1 }) := by
    rw [commit, commit_of_appends happ]
  refine ⟨facts, hfacts, fun fact hfact ↦ (hadm fact hfact).2, ?_, state, ?_, hended⟩
  · rw [publishTerminal_eq hfacts, hcom]
  · rw [publishTerminal_eq hfacts, hcom]
    dsimp only
    rw [session_appended, if_pos rfl]
    exact hentry

/-- A published end had room in the ledger. -/
theorem Records.clear (hrecs : Records lib publisher invocation execution terminal)
    (h : Dispatched lib publisher invocation execution)
    (hok : (publisher.publishTerminal lib invocation execution terminal).1 = .ok ()) :
    Clear lib publisher invocation terminal := by
  obtain ⟨facts, hfacts, hends, hids⟩ := hrecs
  rw [publishTerminal_eq hfacts, commit_eq_ok_iff] at hok
  obtain ⟨_, _, hcom⟩ := hok
  have hlen : facts.length = (terminalNames terminal).length := by
    rw [← length_map (·.factId), hids, length_map]
  rcases commit_cases lib publisher.ledger publisher.sessionId publisher.version facts with
    ⟨e, he⟩ | ⟨session, hreplays⟩ | ⟨position, projection, happ⟩
  · rw [he] at hcom
    cases hcom
  · -- A replay would find an outcome of the invocation in the session.
    obtain ⟨fact, hfact, _, hrole, hstate, htool⟩ := hends.exists_outcome
    obtain ⟨stored, hstored⟩ := hreplays.stored fact hfact
    simp only [storedPosition?, Option.map_eq_some_iff] at hstored
    obtain ⟨entry, hentry, -⟩ := hstored
    obtain ⟨hsess, hsame⟩ := (hreplays.screened fact hfact).consistent entry hentry
    obtain ⟨hmem, -⟩ := mem_history_of_indexed h.reachable hentry
    rw [FactDraft.sameSemantics_iff] at hsame
    rw [hsess] at hmem
    refine absurd hmem (h.not_stored ?_ ?_ hstate)
    · rw [hsame]
      exact htool
    · rw [hsame]
      exact hrole
  · have hposition := (records h.reachable publisher.sessionId).position_eq
      happ.position_eq
    rw [length_history] at hposition
    have hfits := happ.positions_fit
    have hnext := SessionLedger.nextPosition_lt happ.position_eq
    refine ⟨hids ▸ happ.nodup, fun name hname ↦ ?_, ?_, happ.version_fits⟩
    · have hmem : publisher.memberId lib invocation name ∈ facts.map (·.factId) := by
        rw [hids]
        exact mem_map_of_mem hname
      obtain ⟨fact, hfact, heq⟩ := mem_map.mp hmem
      rw [← heq]
      exact happ.fresh fact hfact
    · omega

/-- An end with a code of its own is not published. -/
theorem not_publishes {code : String} (hlib : lib.Documented)
    (h : Dispatched lib publisher invocation execution)
    (hfacts : publisher.terminalFacts lib invocation execution terminal
      = publisher.failureFacts lib invocation terminal)
    (hcode : failureCode terminal = some code) (hnot : code ∉ failureCodes) :
    (publisher.publishTerminal lib invocation execution terminal).1 ≠ .ok () := by
  intro hok
  obtain ⟨ended, _, evidence, _, hfailure, hended, -⟩ :=
    exists_failureFacts lib publisher invocation terminal hcode
  rw [publishTerminal_eq (hfacts.trans hfailure), commit_eq_ok_iff] at hok
  obtain ⟨_, _, hcom⟩ := hok
  have hscreened := screened_of_commit hcom ended (by simp)
  have hrule := (hended.admitted_iff hlib (by decide)).mp hscreened.admitted
  exact hnot ((rule_failureFields_iff hlib (h.stated hlib).digest code evidence).mp hrule)

end Publication

/-- **Which ends can be recorded.** Whatever way the dispatch of a started member of a committed
batch comes to its end, the publisher records that end exactly when it is neither an execution
timeout nor an exceeded result bound and the ledger has room for its facts. -/
theorem publishTerminal_iff (prep : Preparing) (hlib : prep.toExternals.Documented)
    (publisher : SqliteEffectBatchPublisher) (invocation : AuthorizedBatchInvocation)
    (execution : PreparedExecution)
    (h : Dispatched prep.toExternals publisher invocation execution) (course : InvocationCourse) :
    Publishes prep.toExternals publisher invocation execution
        (runInvocation prep invocation execution course) ↔
      Recordable (runInvocation prep invocation execution course) ∧
      Clear prep.toExternals publisher invocation (runInvocation prep invocation execution course) := by
  have hrecorded : ∀ terminal, Recordable terminal →
      Records prep.toExternals publisher invocation execution terminal →
      (Publishes prep.toExternals publisher invocation execution terminal ↔
        Recordable terminal ∧ Clear prep.toExternals publisher invocation terminal) := by
    intro terminal hrecordable hrecords
    constructor
    · rintro ⟨-, -, -, hok, -⟩
      exact ⟨hrecordable, hrecords.clear h hok⟩
    · rintro ⟨-, hclear⟩
      exact hrecords.publishes hlib h hclear
  have hrefused : ∀ terminal, ¬Recordable terminal →
      (publisher.publishTerminal prep.toExternals invocation execution terminal).1 ≠ .ok () →
      (Publishes prep.toExternals publisher invocation execution terminal ↔
        Recordable terminal ∧ Clear prep.toExternals publisher invocation terminal) := by
    intro terminal hrecordable hnot
    constructor
    · rintro ⟨-, -, -, hok, -⟩
      exact absurd hok hnot
    · rintro ⟨hrecord, -⟩
      exact absurd hrecord hrecordable
  rcases runInvocation_cases prep invocation execution course with ⟨fact, heq, hvalid⟩ | hmem
  · rw [heq]
    exact hrecorded _ (by simp [Recordable]) (records_execution publisher hvalid)
  · simp only [mem_cons, not_mem_nil, or_false] at hmem
    rcases hmem with heq | heq | heq | heq <;> rw [heq]
    · exact hrefused _ (by simp [Recordable]) (not_publishes hlib h rfl rfl (by decide))
    · exact hrecorded _ (by simp [Recordable]) (records_cancelled ..)
    · exact hrecorded _ (by simp [Recordable]) (records_uncertain ..)
    · exact hrefused _ (by simp [Recordable]) (not_publishes hlib h rfl rfl (by decide))

/-! ## A dispatched member -/

/-- The member that the batch of one tool has. -/
def onlyInvocation : AuthorizedBatchInvocation where
  invocationId := runTool
  prepared :=
    { modelCallId := "call-1", toolName := "tool", toolRevision := "revision-1"
      normalizedArguments := "null", inputDigest := Sha256.hex ""
      requirements := { capabilities := [], maxDurationMs := 1, maxOutputBytes := 1 }
      replayClass := .readOnly, contractVersion := 2, invocationAccesses := some []
      maxResultBytes := some 1 }
  grant :=
    { grantId := ⟨"grant-1", by simp⟩, invocationId := runTool
      preparedDigest := Sha256.hex "" }
  receiptId := "receipt-1"

/-- The executor it is dispatched to. -/
def onlyExecution : PreparedExecution where
  executorId := "executor-1"
  executorRevision := "revision-1"
  dispatchAttemptId := "attempt-1"

/-- The publisher of the batch, with a ledger. -/
def onlyPublisher (ledger : LedgerState) : SqliteEffectBatchPublisher where
  ledger
  sessionId := runSession
  version := 4
  context :=
    { turnId := runTurn, executionId := runExecution, maxParallelReads := 1
      maxBufferedResultBytes := 1, recordedAt := "2026-01-01T00:00:00Z" }
  planDigest := "plan"

/-- The identity of the member's facts. -/
def onlyId (name : String) : FactId := childId reference "plan" "tool-1" name

open LedgerState in
/-- The member is prepared. -/
def onlyPrepared : FactDraft :=
  toolFact runTurn runExecution runTool ⟨"fact-member-prepared", by simp⟩ .effectPrepared 2
    prepareBatchedFields

open LedgerState in
/-- The batch is admitted. -/
def onlyAdmission : List FactDraft :=
  [onlyPrepared,
    toolFact runTurn runExecution runTool ⟨"fact-member-authorized", by simp⟩ .effectAuthorized 1
      authorizeFields,
    planBatch runTurn runExecution ⟨"fact-member-planned", by simp⟩]

open LedgerState in
/-- Its member starts. -/
def onlyStart : FactDraft :=
  toolFact runTurn runExecution runTool (onlyId "started") .effectStarted 1 startToolFields

theorem startedFact_only (ledger : LedgerState) :
    (onlyPublisher ledger).startedFact reference onlyInvocation onlyExecution = .ok onlyStart := by
  have hplain : ∀ entry ∈ startedFields onlyInvocation onlyExecution, entry.2.Plain 126 := by
    simp [startedFields]
  have hpay := fromValue_referencePayload (Value.plain_json hplain).exact
  simp only [startedFact, validateExecution, memberFact, batchFact, hpay, Except.mapError,
    ok_bind, pure_eq_ok]
  rfl

open LedgerState in
/-- The run in which the batch is admitted and its member starts. -/
def onlyRun : WrittenRun :=
  startRun ++ [(onlyAdmission, [prepareBatchedFields, authorizeFields, planFields]),
    ([onlyStart], [startToolFields])]

open LedgerState in
/-- The member has started, in an active execution. -/
def onlyStarted (p : SessionProjection) : Bool :=
  decide (p.tools[runTool]? = some (runExecution, .started) ∧
    p.executions[runExecution]? = some (runTurn, .active))

instance : LedgerState.Replayed onlyRun onlyStarted := ⟨by repeat constructor, by decide +kernel⟩

instance : LedgerState.Admits onlyPrepared prepareBatchedFields .appliedV2 :=
  ⟨rfl, by decide +kernel⟩

/-- The identities of the member's facts differ from the others by their length. -/
theorem length_onlyId (name : String) : (onlyId name).text.length = 69 := by
  have hdig := (isDigest_iff.mp
    (Sha256.isDigest_hex ("plan" ++ ":" ++ "tool-1" ++ ":" ++ name))).1
  change ("fact-" ++ Sha256.hex ("plan" ++ ":" ++ "tool-1" ++ ":" ++ name)).length = 69
  rw [String.length_append _ _, show "fact-".length = 5 from rfl, ← String.length_toList, hdig]

open LedgerState in
/-- A reachable ledger in which the member was dispatched, with room for the facts named. -/
theorem exists_dispatched : ∃ ledger, Dispatched reference (onlyPublisher ledger) onlyInvocation
    onlyExecution ∧ ∀ terminal,
      ((terminalNames terminal).map onlyId).Nodup → onlyId "started" ∉ (terminalNames terminal).map onlyId →
      Clear reference (onlyPublisher ledger) onlyInvocation terminal := by
  obtain ⟨-, ledger, _, hledger, hcheck⟩ := exists_holds_of_replayed onlyRun onlyStarted
  obtain ⟨htool, hact⟩ := of_decide_eq_true hcheck
  have hlen : ∀ name id, id.text.length < 69 → onlyId name ≠ id := by
    rintro name _ hshort rfl
    rw [length_onlyId] at hshort
    omega
  have hshort : ∀ id ∈ ([openingFact, turnStart, executionStart] ++ onlyAdmission).map (·.factId),
      id.text.length < 69 := by
    decide
  have hhistory : ledger.history runSession
      = [openingFact, turnStart, executionStart] ++ onlyAdmission ++ [onlyStart] := by
    rw [history, hledger.facts_eq, map_toDraft_numbered]
    rfl
  refine ⟨ledger, ⟨hledger.reachable, ⟨onlyPrepared, ?_, ⟨rfl, rfl⟩, rfl, ?_⟩,
    ⟨onlyStart, ?_, startedFact_only ledger⟩, ?_, ?_, hledger.version_eq⟩, fun terminal hnodup hnew ↦ ?_⟩
  · change _ ∈ ledger.history runSession
    rw [hhistory]
    simp [onlyAdmission]
  · have hpay : payloadOf reference onlyPrepared = .ok (.ofFields prepareBatchedFields) :=
      (Admits.admissible onlyPrepared).2.1.payload
    rw [payloadText?_eq_bind hpay]
    simp [prepareBatchedFields, onlyInvocation]
  · change _ ∈ ledger.history runSession
    rw [hhistory]
    simp
  · change (ledger.session runSession).projection.tools[runTool]? = _
    rw [hledger.projection_eq]
    exact htool
  · change (ledger.session runSession).projection.executions[runExecution]? = _
    rw [hledger.projection_eq]
    exact hact
  · refine ⟨hnodup, fun name hname ↦ ?_, ?_, by change 4 + 1 < 2 ^ 64; decide⟩
    · by_contra hsome
      obtain ⟨entry, hentry⟩ := Option.ne_none_iff_exists'.mp hsome
      have hmem : _ ∈ (([openingFact, turnStart, executionStart] ++ onlyAdmission) ++ [onlyStart]).map
        (·.factId) := (hledger.indexed _ entry hentry).2
      rw [map_append, mem_append] at hmem
      rcases hmem with hmem | hmem
      · exact hlen name _ (hshort _ hmem) rfl
      · have heq : onlyId name = onlyId "started" := mem_singleton.mp hmem
        exact hnew (heq ▸ mem_map_of_mem hname)
    · have hfacts : (ledger.session runSession).facts.length = 7 := by
        rw [← length_history, hhistory]
        rfl
      change (ledger.session runSession).facts.length + _ < 2 ^ 64
      have hnames : (terminalNames terminal).length ≤ 3 := by
        cases terminal <;> simp [terminalNames]
      omega

/-- The member's dispatch ends without the executor being known to have finished. -/
theorem publishTerminal_iff_unknown : ∃ ledger,
    Publishes reference (onlyPublisher ledger) onlyInvocation onlyExecution .uncertain := by
  obtain ⟨ledger, hdispatched, hclear⟩ := exists_dispatched
  have hids : onlyId "started" ≠ onlyId "uncertain" := by decide +kernel
  exact ⟨ledger, (publishTerminal_iff lenientPreparing reference_documented (onlyPublisher ledger)
    onlyInvocation onlyExecution hdispatched (.timedOut (.expired .unknown))).mpr
    ⟨by simp [runInvocation, terminalAfterCancel, Recordable],
      hclear .uncertain (nodup_singleton _) (by simpa [terminalNames] using hids)⟩⟩

/-- **An execution timeout is not recorded.** The dispatch of the member runs into its deadline, and
the executor proves that nothing was completed; its end is written with a code that the ledger does
not admit, and the member stays started. -/
theorem exists_timeout_unrecorded : ∃ ledger,
    Dispatched reference (onlyPublisher ledger) onlyInvocation onlyExecution ∧
    runInvocation lenientPreparing onlyInvocation onlyExecution
      (.timedOut (.expired .provenNotCompleted)) = .executionTimedOut ∧
    Clear reference (onlyPublisher ledger) onlyInvocation .executionTimedOut ∧
    (onlyPublisher ledger).publishTerminal reference onlyInvocation onlyExecution .executionTimedOut
      = (.error .durabilityFailure, onlyPublisher ledger) := by
  obtain ⟨ledger, hdispatched, hclear⟩ := exists_dispatched
  have hdistinct : ([onlyId "started", onlyId "terminal", onlyId "observation"]).Nodup := by
    decide +kernel
  rw [nodup_cons] at hdistinct
  refine ⟨ledger, hdispatched, rfl, hclear _ hdistinct.2 hdistinct.1, ?_⟩
  obtain ⟨ended, seen, -, -, hfailure, -⟩ := exists_failureFacts reference (onlyPublisher ledger)
    onlyInvocation .executionTimedOut rfl
  have hfacts : (onlyPublisher ledger).terminalFacts reference onlyInvocation onlyExecution
      .executionTimedOut = .ok [ended, seen] := hfailure
  have hnot : ((onlyPublisher ledger).publishTerminal reference onlyInvocation onlyExecution
      .executionTimedOut).1 ≠ .ok () :=
    not_publishes reference_documented hdispatched rfl rfl (by decide)
  rw [publishTerminal_eq hfacts] at hnot ⊢
  exact commit_of_not_ok hnot

end SqliteEffectBatchPublisher

end Garive
