import Garive.Effects.Publisher
import Garive.Ledger.Writers

/-!
# The facts of an end

What the publisher writes about the end of a member, from three sides: which facts it is (`Ends`),
that the ledger admits them (`Ends.admitted`), and that a session in which the member is started, by
the executor and under the grant of the dispatch, accepts them one after the other (`Ends.accepts`).
The ledger admits a failure with one of five codes only, and not every end has one of them.
-/

namespace Garive

open SessionProjection CanonicalPayload List RuntimeFacts.Effect

/-! ## Content -/

mutual

/-- Only a value without floats has a canonical text. -/
theorem exact_of_encodeValue : (value : Value) → (text : List Char) → encodeValue value = .ok text →
    value.Exact
  | .null, _, _ | .bool _, _, _ | .string _, _, _ => trivial
  | .number (.posInt _), _, _ | .number (.negInt _), _, _ => trivial
  | .number (.float _), _, h => by cases h
  | .array elements, _, h => by
    rw [encodeValue, bind_eq_ok_iff] at h
    obtain ⟨body, hbody, -⟩ := h
    exact exact_of_encodeElements elements body hbody
  | .object members, _, h => by
    rw [encodeValue, bind_eq_ok_iff] at h
    obtain ⟨body, hbody, -⟩ := h
    exact exact_of_encodeMembers members body hbody

theorem exact_of_encodeElements : (elements : List Value) → (body : List Char) →
    encodeElements elements = .ok body → Value.ExactElements elements
  | [], _, _ => trivial
  | [value], body, h => ⟨exact_of_encodeValue value body h, trivial⟩
  | value :: next :: rest, _, h => by
    simp only [encodeElements, bind_eq_ok_iff] at h
    obtain ⟨head, hhead, tail, htail, -⟩ := h
    exact ⟨exact_of_encodeValue value head hhead, exact_of_encodeElements (next :: rest) tail htail⟩

theorem exact_of_encodeMembers : (members : List (String × Value)) → (body : List Char) →
    encodeMembers members = .ok body → Value.ExactMembers members
  | [], _, _ => trivial
  | [(_, value)], _, h => by
    simp only [encodeMembers, bind_eq_ok_iff] at h
    obtain ⟨body, hbody, -⟩ := h
    exact ⟨exact_of_encodeValue value body hbody, trivial⟩
  | (_, value) :: next :: rest, _, h => by
    simp only [encodeMembers, bind_eq_ok_iff] at h
    obtain ⟨body, hbody, tail, htail, -⟩ := h
    exact ⟨exact_of_encodeValue value body hbody, exact_of_encodeMembers (next :: rest) tail htail⟩

end

section Content

variable {lib : Externals} {value : Value} {payload : CanonicalPayload}

theorem exact_of_fromValue (h : fromValue lib value = .ok payload) : value.Exact := by
  simp only [fromValue, encode, bind_eq_ok_iff] at h
  obtain ⟨_, ⟨text, htext, -⟩, -⟩ := h
  exact exact_of_encodeValue value text htext

variable {fields : List (String × Value)}

theorem exact_json (h : ∀ entry ∈ fields, entry.2.Exact) :
    (json fields).Exact :=
  Value.exactMembers_iff.mpr fun entry hentry ↦ h entry (Object.mem_ofFields hentry)

/-- The fields of an object without floats have none. -/
theorem exact_of_json (key : String)
    (h : (json fields).Exact) (hget : Object.get? fields key = some value) : value.Exact := by
  rw [← Object.get?_ofFields] at hget
  have hmems : ∀ members : Object, (∀ entry ∈ members, entry.2.Exact) →
      members.get? key = some value → value.Exact := by
    intro members
    induction members with
    | nil => intro _ hnone; cases hnone
    | cons entry rest ih =>
      intro hall hfound
      rw [forall_mem_cons] at hall
      rw [Object.get?_cons] at hfound
      split at hfound
      · cases hfound
        exact hall.1
      · exact ih hall.2 hfound
  exact hmems _ (Value.exactMembers_iff.mp h) hget

/-- A value without floats is kept inline. -/
theorem exists_content (lib : Externals) (value : Value) (h : value.Exact) :
    ∃ text, content lib value = .ok (inlineContent lib text) := by
  obtain ⟨payload, hpay⟩ := exists_fromValue lib h
  refine ⟨payload.json, ?_⟩
  have hdig : payload.sha256 = lib.sha256Hex payload.json := by
    simp only [fromValue, ok_iff] at hpay
    obtain ⟨text, -, rfl⟩ := hpay
    rfl
  rw [content, hpay]
  simp [Except.mapError, hdig, inlineContent]

end Content

namespace SqliteEffectBatchPublisher

variable {lib : Externals} {publisher : SqliteEffectBatchPublisher}
  {invocation : AuthorizedBatchInvocation} {execution : PreparedExecution} {fact : FactDraft}

/-! ## Written facts -/

/-- The fact is the one the publisher writes about the invocation from the fields. -/
structure Writes (lib : Externals) (publisher : SqliteEffectBatchPublisher)
    (invocation : AuthorizedBatchInvocation) (name : String) (kind : RuntimeKind)
    (fields : List (String × Value)) (fact : FactDraft) : Prop where
  factId_eq : fact.factId = publisher.memberId lib invocation name
  turnId_eq : fact.turnId = some publisher.context.turnId
  executionId_eq : fact.executionId = some publisher.context.executionId
  modelRequestId_eq : fact.modelRequestId = none
  toolInvocationId_eq : fact.toolInvocationId = some invocation.invocationId
  kind_eq : fact.kind = .known kind
  version_eq : fact.schemaVersion = 1
  recordedAt_eq : fact.recordedAt = publisher.context.recordedAt
  written : Written lib fact fields

theorem writes_of_memberFact {name : String} {kind : RuntimeKind}
    (hplain : ∀ entry ∈ fields, entry.2.Plain 126)
    (h : publisher.memberFact lib invocation name kind fields = .ok fact) :
    Writes lib publisher invocation name kind fields fact := by
  simp only [memberFact, batchFact, ok_iff] at h
  obtain ⟨_, hpay, rfl⟩ := h
  exact ⟨rfl, rfl, rfl, rfl, rfl, rfl, rfl, rfl, hpay, hplain⟩

variable (lib publisher invocation) in
theorem exists_memberFact (name : String) (kind : RuntimeKind) (fields : List (String × Value))
    (hplain : ∀ entry ∈ fields, entry.2.Plain 126) : ∃ fact, publisher.memberFact lib invocation name kind fields = .ok fact ∧
      Writes lib publisher invocation name kind fields fact := by
  obtain ⟨_, hpay⟩ :=
    exists_fromValue lib (Value.plain_json hplain).exact
  have hfact : ∃ fact, publisher.memberFact lib invocation name kind fields = .ok fact := by
    simp [memberFact, batchFact, hpay, Except.mapError]
  obtain ⟨fact, hfact⟩ := hfact
  exact ⟨fact, hfact, writes_of_memberFact hplain hfact⟩

/-- The kinds the publisher writes. -/
def publishedKinds : List RuntimeKind :=
  [.effectStarted, .effectReceipt, .effectCompleted, .effectFailed, .effectUncertain,
    .effectObservation]

namespace Writes

variable {name : String} {kind : RuntimeKind} {fields : List (String × Value)}

theorem validate_eq (h : Writes lib publisher invocation name kind fields fact)
    (htime : lib.parseFromRfc3339 publisher.context.recordedAt) :
    fact.validate lib = .ok () :=
  h.written.validate_eq (by rw [h.version_eq]; decide) (by rw [h.recordedAt_eq, htime])

/-- The ledger admits a written fact exactly when its fields pass the rule of its kind. -/
theorem admitted_iff (h : Writes lib publisher invocation name kind fields fact)
    (hlib : lib.Documented) (hkind : kind ∈ publishedKinds) :
    (∃ disposition, validateRuntimeFact lib fact = .ok disposition) ↔
      validate lib (.ofFields fields) (.known kind) = .ok () := by
  simp only [publishedKinds, mem_cons, not_mem_nil, or_false] at hkind
  have hruntime : fact.kind.isRuntime := by
    rw [h.kind_eq]
    rcases hkind with rfl | rfl | rfl | rfl | rfl | rfl <;> rfl
  have hver : fact.kind.admittedVersion? fact.schemaVersion = some .appliedV1 := by
    rw [h.version_eq]
    rfl
  have henv : fact.envelopeMatches := by
    rw [FactDraft.envelopeMatches, h.turnId_eq, h.executionId_eq, h.modelRequestId_eq,
      h.toolInvocationId_eq, h.kind_eq]
    rcases hkind with rfl | rfl | rfl | rfl | rfl | rfl <;> rfl
  have hrule : RuntimeFacts.validatePayload lib fact.kind fact.schemaVersion (.ofFields fields) =
      validate lib (.ofFields fields) (.known kind) := by
    rw [h.kind_eq, h.version_eq]
    rcases hkind with rfl | rfl | rfl | rfl | rfl | rfl <;> rfl
  rw [validateRuntimeFact, if_pos hruntime, hver, h.written.fromStr_eq hlib]
  simp only [ensure_of henv, ok_bind, okOr_some, RuntimeFacts.object, json,
    Value.asObject_object, hrule, ok_iff, exists_and_left]
  exact ⟨fun hadm ↦ hadm.1, fun hvalid ↦ ⟨hvalid, _, rfl⟩⟩

end Writes

/-! ## The facts of an end -/

/-- The codes of a failure that the ledger admits. -/
def failureCodes : List String :=
  ["timeout", "cancelled", "tool_failure", "requirement_unsupported", "executor_unavailable"]

theorem stableFailure_mem (code : String) : stableFailure code ∈ failureCodes := by
  unfold stableFailure
  split_ifs <;> decide

/-- The receipt is for the grant and the executor of the dispatch. -/
structure BoundReceipt (invocation : AuthorizedBatchInvocation) (execution : PreparedExecution)
    (receipt : EffectReceipt) : Prop where
  grantId_eq : receipt.grantId = invocation.grant.grantId
  executorId_eq : receipt.executorId = execution.executorId
  executorRevision_eq : receipt.executorRevision = execution.executorRevision

/-- The facts of an end that the ledger can hold. -/
inductive Ends (lib : Externals) (publisher : SqliteEffectBatchPublisher)
    (invocation : AuthorizedBatchInvocation) (execution : PreparedExecution) : List FactDraft → Prop
  | completed {receipt : EffectReceipt} {evidence result observation : String}
    {received ended seen : FactDraft} (hbound : BoundReceipt invocation execution receipt)
    (hrecv : Writes lib publisher invocation "receipt" .effectReceipt
      (receiptFields invocation receipt (inlineContent lib evidence)) received)
    (hended : Writes lib publisher invocation "terminal" .effectCompleted
      (completedFields invocation receipt (inlineContent lib result)) ended)
    (hseen : Writes lib publisher invocation "observation" .effectObservation
      (observationFields invocation (inlineContent lib observation)) seen) :
    Ends lib publisher invocation execution [received, ended, seen]
  | failed {receipt : EffectReceipt} {evidence code observation : String} {details : Option String}
    {received ended seen : FactDraft} (hbound : BoundReceipt invocation execution receipt)
    (hrecv : Writes lib publisher invocation "receipt" .effectReceipt
      (receiptFields invocation receipt (inlineContent lib evidence)) received)
    (hcode : code ∈ failureCodes)
    (hended : Writes lib publisher invocation "terminal" .effectFailed
      (failedFields invocation receipt code (details.map (inlineContent lib))) ended)
    (hseen : Writes lib publisher invocation "observation" .effectObservation
      (observationFields invocation (inlineContent lib observation)) seen) :
    Ends lib publisher invocation execution [received, ended, seen]
  /-- Without a receipt. -/
  | settled {evidence code observation : String} {ended seen : FactDraft} (hcode : code ∈ failureCodes)
    (hended : Writes lib publisher invocation "terminal" .effectFailed
      (failureFields invocation code (inlineContent lib evidence)) ended)
    (hseen : Writes lib publisher invocation "observation" .effectObservation
      (observationFields invocation (inlineContent lib observation)) seen) :
    Ends lib publisher invocation execution [ended, seen]
  | unknown {evidence : String} {ended : FactDraft}
    (hended : Writes lib publisher invocation "uncertain" .effectUncertain
      (uncertainFields invocation (inlineContent lib evidence)) ended) :
    Ends lib publisher invocation execution [ended]

/-- The names of the facts of an end. -/
def terminalNames : BatchTerminal → List String
  | .execution _ => ["receipt", "terminal", "observation"]
  | .uncertain => ["uncertain"]
  | _ => ["terminal", "observation"]

/-- The publisher writes an end as facts that the ledger can hold. -/
def Records (lib : Externals) (publisher : SqliteEffectBatchPublisher)
    (invocation : AuthorizedBatchInvocation) (execution : PreparedExecution)
    (terminal : BatchTerminal) : Prop :=
  ∃ facts, publisher.terminalFacts lib invocation execution terminal = .ok facts ∧
    Ends lib publisher invocation execution facts ∧
    facts.map (·.factId) = (terminalNames terminal).map (publisher.memberId lib invocation)

section Recorded

variable (lib publisher invocation execution)

theorem exists_observationFact {envelope : Value} (h : envelope.Exact) :
    ∃ fact text, publisher.observationFact lib invocation envelope = .ok fact ∧
      Writes lib publisher invocation "observation" .effectObservation
        (observationFields invocation (inlineContent lib text)) fact := by
  obtain ⟨text, htext⟩ := exists_content lib envelope h
  obtain ⟨fact, hfact, hwr⟩ := exists_memberFact lib publisher invocation "observation"
    .effectObservation (observationFields invocation (inlineContent lib text))
    (by simp [observationFields, plain_inlineContent])
  exact ⟨fact, text, by rw [observationFact, htext, ok_bind, hfact], hwr⟩

variable {partialContent : Option Value}

theorem exact_failedEnvelope (code : String) (details : Option String)
    (h : (optionalJson partialContent).Exact) :
    (failedEnvelope code details partialContent).Exact := by
  refine exact_json ?_
  simp only [forall_mem_cons, not_mem_nil, false_implies, implies_true, and_true]
  refine ⟨trivial, trivial, ?_, h⟩
  cases details <;> trivial

theorem records_uncertain : Records lib publisher invocation execution .uncertain := by
  obtain ⟨text, htext⟩ := exists_content lib (.string "effect_batch_uncertain") trivial
  obtain ⟨fact, hfact, hwr⟩ := exists_memberFact lib publisher invocation "uncertain"
    .effectUncertain (uncertainFields invocation (inlineContent lib text))
    (by simp [uncertainFields, plain_inlineContent])
  refine ⟨[fact], ?_, .unknown hwr, by simp [terminalNames, hwr.factId_eq]⟩
  simp only [terminalFacts, uncertainFacts, htext, hfact, ok_bind, pure_eq_ok]

variable {code : String}

/-- The facts of an end that the dispatcher settled. -/
theorem exists_failureFacts (terminal : BatchTerminal) (hcode : failureCode terminal = some code) : ∃ ended seen evidence observation,
      publisher.failureFacts lib invocation terminal = .ok [ended, seen] ∧
      Writes lib publisher invocation "terminal" .effectFailed
        (failureFields invocation code (inlineContent lib evidence)) ended ∧
      Writes lib publisher invocation "observation" .effectObservation
        (observationFields invocation (inlineContent lib observation)) seen := by
  obtain ⟨evidence, hevid⟩ := exists_content lib (.string code) trivial
  obtain ⟨ended, hended, hwr⟩ := exists_memberFact lib publisher invocation "terminal"
    .effectFailed (failureFields invocation code (inlineContent lib evidence))
    (by simp [failureFields, plain_inlineContent])
  have henv : (failedEnvelope code none none).Exact := exact_failedEnvelope code none trivial
  obtain ⟨seen, observation, hseen, hobserves⟩ :=
    exists_observationFact lib publisher invocation henv
  refine ⟨ended, seen, evidence, observation, ?_, hwr, hobserves⟩
  simp only [failureFacts, hcode, okOr_some, hevid, hended, hseen, ok_bind, pure_eq_ok]

theorem records_cancelled : Records lib publisher invocation execution .cancelled := by
  obtain ⟨_, _, _, _, hfacts, hended, hseen⟩ :=
    exists_failureFacts lib publisher invocation .cancelled rfl
  exact ⟨_, hfacts, .settled (by decide) hended hseen,
    by simp [terminalNames, hended.factId_eq, hseen.factId_eq]⟩

end Recorded

section Proved

variable {prep : Preparing} {terminal : ExecutionFact}

/-- What a bound terminal fact carries. -/
theorem bound_of_valid (h : validTerminalBinding prep terminal invocation execution) :
    ∃ receipt evidence, terminal.receipt? = some receipt ∧ terminal.evidence? = some evidence ∧
      evidence.Exact ∧ BoundReceipt invocation execution receipt ∧
      validateReceipt prep.toExternals invocation execution receipt terminal = .ok () := by
  unfold validTerminalBinding at h
  split at h
  · rename_i receipt evidence hrcpt hevid
    cases hcanonical : fromValue prep.toExternals evidence with
    | error e => simp [hcanonical] at h
    | ok canonical =>
      simp only [hcanonical, Bool.and_eq_true, decide_eq_true_eq] at h
      obtain ⟨⟨⟨⟨⟨⟨⟨⟨hvalid, hid⟩, hinvoc⟩, hdig⟩, hgrant⟩, hexecutor⟩, hrev⟩, hres⟩,
        hclass⟩ := h
      refine ⟨receipt, evidence, hrcpt, hevid, exact_of_fromValue hcanonical,
        ⟨hgrant, hexecutor, hrev⟩, ?_⟩
      simp [validateReceipt, hvalid, hevid, hcanonical, hid, hinvoc, hdig, hgrant,
        hexecutor, hrev, hres, hclass, Except.mapError]
  · cases h

theorem exists_failureEvidence (lib : Externals) (details : Option String)
    (h : (optionalJson partialContent).Exact) : ∃ text, failureEvidence lib details partialContent
      = .ok (Option.map (inlineContent lib) text) := by
  unfold failureEvidence
  split
  · have hexact : (json [("details", optionalJson (details.map .string)),
        ("partial", optionalJson partialContent)]).Exact := by
      refine exact_json ?_
      simp only [forall_mem_cons, not_mem_nil, false_implies, implies_true, and_true]
      refine ⟨?_, h⟩
      cases details <;> trivial
    obtain ⟨text, htext⟩ := exists_content lib _ hexact
    exact ⟨some text, by rw [htext]; rfl⟩
  · exact ⟨none, rfl⟩

theorem records_execution (publisher : SqliteEffectBatchPublisher)
    (h : validTerminalBinding prep terminal invocation execution) :
    Records prep.toExternals publisher invocation execution (.execution terminal) := by
  obtain ⟨receipt, evidence, hrcpt, hevid, hexact, hbound, hvalid⟩ := bound_of_valid h
  obtain ⟨text, htext⟩ := exists_content prep.toExternals evidence hexact
  obtain ⟨received, hrecv, hwr⟩ := exists_memberFact prep.toExternals publisher invocation
    "receipt" .effectReceipt (receiptFields invocation receipt (inlineContent prep.toExternals text))
    (by simp [receiptFields, plain_inlineContent])
  cases terminal with
  | completed found value truncated =>
    cases hevid
    obtain ⟨ended, hended, hoends⟩ := exists_memberFact prep.toExternals publisher invocation
      "terminal" .effectCompleted
      (completedFields invocation receipt (inlineContent prep.toExternals text))
      (by simp [completedFields, plain_inlineContent])
    have henv : (succeededEnvelope evidence truncated).Exact := by
      refine exact_json ?_
      simp only [forall_mem_cons, not_mem_nil, false_implies, implies_true, and_true]
      exact ⟨trivial, hexact, trivial⟩
    obtain ⟨seen, observation, hseen, hobserves⟩ :=
      exists_observationFact prep.toExternals publisher invocation henv
    refine ⟨[received, ended, seen], ?_, .completed hbound hwr hoends hobserves,
      by simp [terminalNames, hwr.factId_eq, hoends.factId_eq, hobserves.factId_eq]⟩
    simp only [terminalFacts, executionTerminalFacts, hrcpt, okOr_some, hvalid,
      ExecutionFact.evidence?, htext, hrecv, outcomeFact, hended, hseen, ok_bind,
      pure_eq_ok]
  | failed found code details partialContent =>
    cases hevid
    have hpartial : (optionalJson partialContent).Exact :=
      exact_of_json "partial" hexact (by simp)
    obtain ⟨detail, hdetail⟩ := exists_failureEvidence prep.toExternals details hpartial
    obtain ⟨ended, hended, hoends⟩ := exists_memberFact prep.toExternals publisher invocation
      "terminal" .effectFailed (failedFields invocation receipt (stableFailure code)
        (Option.map (inlineContent prep.toExternals) detail))
      (by cases detail <;> simp [failedFields, plain_inlineContent])
    obtain ⟨seen, observation, hseen, hobserves⟩ :=
      exists_observationFact prep.toExternals publisher invocation
        (exact_failedEnvelope (stableFailure code) details hpartial)
    refine ⟨[received, ended, seen], ?_,
      .failed hbound hwr (stableFailure_mem code) hoends hobserves,
      by simp [terminalNames, hwr.factId_eq, hoends.factId_eq, hobserves.factId_eq]⟩
    simp only [terminalFacts, executionTerminalFacts, hrcpt, okOr_some, hvalid,
      ExecutionFact.evidence?, htext, hrecv, outcomeFact, hdetail, hended, hseen, ok_bind,
      pure_eq_ok]
  | started | uncertain | unsupported => cases hrcpt

/-- The ends a dispatch can come to. -/
theorem runInvocation_cases (prep : Preparing) (invocation : AuthorizedBatchInvocation)
    (execution : PreparedExecution) (course : InvocationCourse) :
    (∃ fact, runInvocation prep invocation execution course = .execution fact ∧
      validTerminalBinding prep fact invocation execution) ∨
    runInvocation prep invocation execution course ∈
      [.executionTimedOut, .cancelled, .uncertain, .resultBoundExceeded] := by
  have hnormalize : ∀ result, (∃ fact, normalize prep result invocation execution = .execution fact ∧
      validTerminalBinding prep fact invocation execution) ∨
      normalize prep result invocation execution ∈
        [.executionTimedOut, .cancelled, .uncertain, .resultBoundExceeded] := by
    intro result
    unfold normalize
    split
    · simp
    · rename_i fact
      by_cases hvalid : validTerminalBinding prep fact invocation execution
      · rw [if_pos hvalid]
        cases fact <;> simp [measuredTerminal] <;> split <;> simp_all
      · rw [if_neg hvalid]
        simp
  have hcancel : ∀ unfinished grace, unfinished ∈ [BatchTerminal.executionTimedOut, .cancelled] →
      (∃ fact, terminalAfterCancel prep invocation execution unfinished grace = .execution fact ∧
        validTerminalBinding prep fact invocation execution) ∨
      terminalAfterCancel prep invocation execution unfinished grace ∈
        [.executionTimedOut, .cancelled, .uncertain, .resultBoundExceeded] := by
    intro unfinished grace hunfin
    cases grace with
    | returned result => exact hnormalize result
    | expired evidence =>
      cases evidence with
      | terminal fact => exact hnormalize (.ok fact)
      | provenNotCompleted =>
        right
        simp only [mem_cons, not_mem_nil, or_false] at hunfin
        rcases hunfin with rfl | rfl <;> simp [terminalAfterCancel]
      | unknown => simp [terminalAfterCancel]
  cases course with
  | returned result => exact hnormalize result
  | timedOut grace => exact hcancel _ grace (by simp)
  | cancelled grace => exact hcancel _ grace (by simp)

end Proved

/-! ## Admission -/

/-- What the ledger has already admitted about the invocation and its dispatch. -/
structure Stated (lib : Externals) (publisher : SqliteEffectBatchPublisher)
    (invocation : AuthorizedBatchInvocation) (execution : PreparedExecution) : Prop where
  time : lib.parseFromRfc3339 publisher.context.recordedAt = true
  digest : RuntimeFacts.isDigest invocation.prepared.inputDigest = true
  call : invocation.prepared.modelCallId ≠ ""
  executor : execution.executorId ≠ ""
  revision : execution.executorRevision ≠ ""

/-- Inline content passes its rule. -/
theorem content_field (hlib : lib.Documented) {key : String}
    (text : String) (h : Object.get? fields key = some (inlineContent lib text)) :
    RuntimeFacts.content lib (.ofFields fields) key = .ok () :=
  content_inlineContent hlib (by rw [Object.get?_ofFields, h])

theorem optionalContent_field (hlib : lib.Documented) {key : String}
    (text : String) (h : Object.get? fields key = some (inlineContent lib text)) :
    RuntimeFacts.optionalContent lib (.ofFields fields) key = .ok () := by
  rw [RuntimeFacts.optionalContent, content_field hlib text h]
  split <;> rfl

section Rules

variable (hlib : lib.Documented) (hdig : RuntimeFacts.isDigest invocation.prepared.inputDigest)
include hlib hdig

theorem rule_receiptFields {receipt : EffectReceipt} (text : String)
    (hexecutor : receipt.executorId ≠ "") (hrev : receipt.executorRevision ≠ "") :
    RuntimeFacts.Effect.receipt lib
      (.ofFields (receiptFields invocation receipt (inlineContent lib text))) = .ok () := by
  simp only [RuntimeFacts.Effect.receipt, ok_iff]
  refine ⟨fields_ofFields [] rfl (by simp), ?_, ?_, terminalClass receipt.terminalClassification, ?_,
    content_field hlib text (by simp [receiptFields])⟩
  case refine_3 =>
    have hclass : terminalClass receipt.terminalClassification ∈ ["completed", "failed"] := by
      cases receipt.terminalClassification <;> simp [terminalClass]
    simpa [receiptFields] using hclass
  all_goals simp [receiptFields, RuntimeFacts.identities, hdig, hexecutor, hrev,
    receipt.receiptId.nonempty, receipt.grantId.nonempty]

theorem rule_completedFields (receipt : EffectReceipt) (text : String) :
    completed lib
      (.ofFields (completedFields invocation receipt (inlineContent lib text))) = .ok () := by
  simp only [completed, ok_iff]
  refine ⟨fields_ofFields [] rfl (by simp), ?_, ?_, content_field hlib text (by simp [completedFields])⟩
  all_goals simp [completedFields, hdig, receipt.receiptId.nonempty]

theorem rule_observationFields (hcall : invocation.prepared.modelCallId ≠ "") (text : String) :
    observation lib
      (.ofFields (observationFields invocation (inlineContent lib text))) = .ok () := by
  simp only [observation, ok_iff]
  refine ⟨fields_ofFields [] rfl (by simp), ?_, ?_,
    content_field hlib text (by simp [observationFields])⟩
  all_goals simp [observationFields, hdig, hcall]

theorem rule_uncertainFields (text : String) :
    uncertain lib
      (.ofFields (uncertainFields invocation (inlineContent lib text))) = .ok () := by
  simp only [uncertain, ok_iff]
  refine ⟨fields_ofFields ["evidence"] rfl (by simp), ?_,
    "executor_state_unknown", ?_, optionalContent_field hlib text ?_⟩
  all_goals simp [uncertainFields, hdig]

/-- A failure with a receipt passes its rule when its code is admitted. -/
theorem rule_failedFields (receipt : EffectReceipt) (hcode : code ∈ failureCodes)
    (detail : Option String) : failed lib
      (.ofFields (failedFields invocation receipt code (detail.map (inlineContent lib)))) = .ok () := by
  simp only [failed, ok_iff]
  refine ⟨fields_ofFields_of_mem ?_ ?_, ?_, ?_, code, ?_, ?_⟩
  case refine_6 =>
    cases detail with
    | none => simp [RuntimeFacts.optionalContent, failedFields]
    | some text => exact optionalContent_field hlib text (by simp [failedFields])
  case refine_5 => cases detail <;> simpa [failedFields, failureCodes] using hcode
  all_goals cases detail <;> simp [failedFields, hdig, receipt.receiptId.nonempty]

/-- A failure without a receipt passes its rule exactly when its code is admitted. -/
theorem rule_failureFields_iff (code text : String) : failed lib
      (.ofFields (failureFields invocation code (inlineContent lib text))) = .ok () ↔
    code ∈ failureCodes := by
  have hfields : RuntimeFacts.fields (.ofFields (failureFields invocation code (inlineContent lib text)))
      ["prepared_digest", "code"] ["receipt_id", "evidence"] = .ok () :=
    fields_ofFields ["evidence"] rfl (by simp)
  have hcont : RuntimeFacts.optionalContent lib
      (.ofFields (failureFields invocation code (inlineContent lib text))) "evidence" = .ok () :=
    optionalContent_field hlib text (by simp [failureFields])
  simp only [failed, bind_eq_ok_iff, hfields, hcont]
  simp [failureFields, hdig, failureCodes]

end Rules

variable {facts : List FactDraft}

/-- The ledger admits the facts of an end. -/
theorem Ends.admitted (h : Ends lib publisher invocation execution facts) (hlib : lib.Documented)
    (hstated : Stated lib publisher invocation execution) :
    ∀ fact ∈ facts, fact.validate lib = .ok () ∧
      ∃ disposition, validateRuntimeFact lib fact = .ok disposition := by
  have hone : ∀ {name kind fields fact}, Writes lib publisher invocation name kind fields fact →
      kind ∈ publishedKinds →
      RuntimeFacts.Effect.validate lib (.ofFields fields) (.known kind) = .ok () →
      fact.validate lib = .ok () ∧ ∃ disposition, validateRuntimeFact lib fact = .ok disposition :=
    fun hwr hkind hrule ↦
      ⟨hwr.validate_eq hstated.time, (hwr.admitted_iff hlib hkind).mpr hrule⟩
  have hrcpt : ∀ {receipt}, BoundReceipt invocation execution receipt →
      receipt.executorId ≠ "" ∧ receipt.executorRevision ≠ "" := fun hbound ↦
    ⟨hbound.executorId_eq ▸ hstated.executor, hbound.executorRevision_eq ▸ hstated.revision⟩
  cases h with
  | completed hbound hrecv hended hseen =>
    simp only [forall_mem_cons, not_mem_nil, false_implies, implies_true, and_true]
    exact ⟨hone hrecv (by decide) (rule_receiptFields hlib hstated.digest _ (hrcpt hbound).1
        (hrcpt hbound).2),
      hone hended (by decide) (rule_completedFields hlib hstated.digest _ _),
      hone hseen (by decide) (rule_observationFields hlib hstated.digest hstated.call _)⟩
  | failed hbound hrecv hcode hended hseen =>
    simp only [forall_mem_cons, not_mem_nil, false_implies, implies_true, and_true]
    exact ⟨hone hrecv (by decide) (rule_receiptFields hlib hstated.digest _ (hrcpt hbound).1
        (hrcpt hbound).2),
      hone hended (by decide) (rule_failedFields hlib hstated.digest _ hcode _),
      hone hseen (by decide) (rule_observationFields hlib hstated.digest hstated.call _)⟩
  | settled hcode hended hseen =>
    simp only [forall_mem_cons, not_mem_nil, false_implies, implies_true, and_true]
    exact ⟨hone hended (by decide) ((rule_failureFields_iff hlib hstated.digest _ _).mpr hcode),
      hone hseen (by decide) (rule_observationFields hlib hstated.digest hstated.call _)⟩
  | unknown hended =>
    simp only [forall_mem_cons, not_mem_nil, false_implies, implies_true, and_true]
    exact hone hended (by decide) (rule_uncertainFields hlib hstated.digest _)

/-! ## Acceptance -/

/-- The session stands between two commits or within one, and the invocation is in the state. -/
structure Stands (publisher : SqliteEffectBatchPublisher) (invocation : AuthorizedBatchInvocation)
    (p : SessionProjection) (state : InvocationState) : Prop where
  opened : p.opened = true
  closed : p.closed = false
  active : p.executions[publisher.context.executionId]? = some (publisher.context.turnId, .active)
  entry : p.tools[invocation.invocationId]? = some (publisher.context.executionId, state)
  digest : p.toolDigests[invocation.invocationId]? = some invocation.prepared.inputDigest
  boundary : p.validateCommitBoundary = .ok ()

variable {text : String}

namespace Stands

variable {p bound : SessionProjection} {current next : InvocationState} {name : String}
  {kind : RuntimeKind} {fields : List (String × Value)}

/-- A written fact moves the invocation on when its evidence agrees. -/
theorem transition (h : Stands publisher invocation p current) (hlib : lib.Documented)
    (hstated : Stated lib publisher invocation execution)
    (hwr : Writes lib publisher invocation name kind fields fact)
    (hdig : Object.get? fields "prepared_digest" = some (.string invocation.prepared.inputDigest))
    (hother : kind ≠ .sessionOpened)
    (hkind : p.applyKind lib fact kind = p.transitionTool lib fact next)
    (hmoves : toolMoves current next)
    (hnext : next ≠ .authorized ∧ next ≠ .started ∧ next ≠ .denied)
    (hbound : p.validateEffectBinding invocation.invocationId current next (.ofFields fields)
      = .ok bound) (hkeeps : bound = { p with toolReceipts := bound.toolReceipts }) :
    ∃ p', p.apply lib fact = .ok p' ∧ Stands publisher invocation p' next ∧
      p'.toolReceipts = bound.toolReceipts := by
  have hpay := hwr.written.payloadOf_eq hlib
  have horder : p.startsInBatchOrder invocation.invocationId next := by
    simp [startsInBatchOrder, hnext.2.1]
  have hf0 : p.f0Moves fact invocation.invocationId current next := by
    unfold f0Moves
    split
    · exact absurd rfl hnext.1
    · exact absurd rfl hnext.2.1
    · exact absurd rfl hnext.2.2
    · rfl
  refine ⟨{ bound with
    tools := p.tools.insert invocation.invocationId (publisher.context.executionId, next)
    toolsCompletedInCommit := if next = .completed
      then p.toolsCompletedInCommit.insert invocation.invocationId else p.toolsCompletedInCommit
    effectBatches := p.advanceBatch invocation.invocationId next }, ?_, ?_, rfl⟩
  · rw [LedgerState.apply_known (hwr.validate_eq hstated.time) hwr.kind_eq hother h.opened
      h.closed, hkind]
    simp only [transitionTool, ok_iff, required_eq_ok_iff,
      requireActiveExecution_eq_ok_iff]
    refine ⟨⟨_, _, hwr.executionId_eq, hwr.turnId_eq, h.active⟩, _,
      hwr.toolInvocationId_eq, _, hwr.executionId_eq, _, hpay, _, ?_, h.digest, _,
      h.entry, rfl, hmoves, fun _ ↦ hf0, horder, bound, hbound, rfl⟩
    simp [textOf, hdig]
  · rw [hkeeps]
    exact ⟨h.opened, h.closed, h.active, Map.get?_insert_self .., h.digest, h.boundary⟩

/-- The observation of an outcome. -/
theorem observe (h : Stands publisher invocation p current) (hlib : lib.Documented)
    (hstated : Stated lib publisher invocation execution)
    (hwr : Writes lib publisher invocation "observation" .effectObservation (observationFields invocation (inlineContent lib text)) fact)
    (hcur : current = .completed ∨ current = .failed) :
    ∃ p', p.apply lib fact = .ok p' ∧ Stands publisher invocation p' .observed := by
  have hpay := hwr.written.payloadOf_eq hlib
  refine ⟨{ p with
    tools := p.tools.insert invocation.invocationId (publisher.context.executionId, .observed) },
    ?_, ⟨h.opened, h.closed, h.active, Map.get?_insert_self .., h.digest, h.boundary⟩⟩
  rw [LedgerState.apply_known (hwr.validate_eq hstated.time) hwr.kind_eq (by decide) h.opened
    h.closed]
  change p.observeTool lib fact = _
  have hobserver : ∀ payload, p.requireObserver fact invocation.invocationId current payload
      = .ok () := by
    intro payload
    have hne : current ≠ .reconciled := by rcases hcur with rfl | rfl <;> decide
    rw [requireObserver, if_neg hne,
      requireActiveExecution_eq_ok_iff]
    exact ⟨_, _, hwr.executionId_eq, hwr.turnId_eq, h.active⟩
  have hobservable : observable current := by
    rcases hcur with rfl | rfl <;> rfl
  simp only [observeTool, ok_iff, required_eq_ok_iff]
  refine ⟨_, hwr.toolInvocationId_eq, _, hwr.executionId_eq, _, hpay, _, h.entry,
    ⟨rfl, hobservable⟩, hobserver _, _, ?_, h.digest, rfl⟩
  simp [textOf, observationFields]

end Stands

/-- A projection that accepts the facts, and in which the invocation has ended. -/
def Accepts (lib : Externals) (publisher : SqliteEffectBatchPublisher)
    (invocation : AuthorizedBatchInvocation) (p : SessionProjection) (facts : List FactDraft) : Prop :=
  ∃ p' state, p.applyAll lib facts = .ok p' ∧ p'.validateCommitBoundary = .ok () ∧
    p'.tools[invocation.invocationId]? = some (publisher.context.executionId, state) ∧
    ¬state.InFlight

theorem Accepts.cons {p q : SessionProjection} (happly : p.apply lib fact = .ok q)
    (h : Accepts lib publisher invocation q facts) :
    Accepts lib publisher invocation p (fact :: facts) := by
  obtain ⟨p', state, hall, hrest⟩ := h
  exact ⟨p', state, LedgerState.applyAll_cons happly hall, hrest⟩

section Acceptance

variable {p : SessionProjection} {receipt : EffectReceipt} {ended seen : FactDraft}
  (hlib : lib.Documented) (hstated : Stated lib publisher invocation execution)
include hlib hstated

theorem accepts_observed {current : InvocationState} (h : Stands publisher invocation p current)
    (hcur : current = .completed ∨ current = .failed)
    (hseen : Writes lib publisher invocation "observation" .effectObservation (observationFields invocation (inlineContent lib text)) seen) :
    Accepts lib publisher invocation p [seen] := by
  obtain ⟨p', happly, hstands⟩ := h.observe hlib hstated hseen hcur
  refine ⟨p', .observed, LedgerState.applyAll_cons happly rfl, hstands.boundary, hstands.entry, ?_⟩
  rintro (hstate | hstate) <;> cases hstate

/-- The receipt of a dispatch is accepted when it is for its grant and its executor. -/
theorem exists_received (h : Stands publisher invocation p .started)
    (hgrant : p.toolGrants[invocation.invocationId]? = some invocation.grant.grantId.text)
    (hexecutor : p.toolExecutors[invocation.invocationId]? = some (execution.executorId, execution.executorRevision))
    (hbound : BoundReceipt invocation execution receipt)
    (hrecv : Writes lib publisher invocation "receipt" .effectReceipt (receiptFields invocation receipt (inlineContent lib text)) fact) :
    ∃ p', p.apply lib fact = .ok p' ∧ Stands publisher invocation p' .receipt ∧
      p'.toolReceipts[invocation.invocationId]? = some receipt.receiptId.text := by
  have hbinding : p.validateEffectBinding invocation.invocationId .started .receipt
      (.ofFields (receiptFields invocation receipt (inlineContent lib text)))
      = .ok { p with toolReceipts :=
          p.toolReceipts.insert invocation.invocationId receipt.receiptId.text } := by
    simp [validateEffectBinding, textOf, receiptFields, hbound.grantId_eq,
      hbound.executorId_eq, hbound.executorRevision_eq, hgrant, hexecutor]
  obtain ⟨p', happly, hstands, hreceipts⟩ := h.transition hlib hstated hrecv
    (by simp [receiptFields]) (by decide) rfl rfl (by decide) hbinding rfl
  exact ⟨p', happly, hstands, by rw [hreceipts, Map.get?_insert_self]⟩

/-- The session accepts the facts of an end of a started invocation. -/
theorem Ends.accepts (h : Ends lib publisher invocation execution facts)
    (hstands : Stands publisher invocation p .started)
    (hgrant : p.toolGrants[invocation.invocationId]? = some invocation.grant.grantId.text)
    (hexecutor : p.toolExecutors[invocation.invocationId]? = some (execution.executorId, execution.executorRevision)) :
    Accepts lib publisher invocation p facts := by
  cases h with
  | @completed receipt _ _ _ _ _ _ hbound hrecv hended hseen =>
    obtain ⟨q, hq, hqstands, hrcpt⟩ :=
      exists_received hlib hstated hstands hgrant hexecutor hbound hrecv
    have hbinding : ∀ text, q.validateEffectBinding invocation.invocationId .receipt .completed
        (.ofFields (completedFields invocation receipt (inlineContent lib text))) = .ok q := by
      intro text
      simp [validateEffectBinding, textOf, completedFields, hrcpt]
    obtain ⟨r, hr, hrstands, -⟩ := hqstands.transition hlib hstated hended
      (by simp [completedFields]) (by decide) rfl rfl (by decide) (hbinding _) rfl
    exact .cons hq (.cons hr (accepts_observed hlib hstated hrstands (.inl rfl) hseen))
  | @failed receipt _ code _ detail _ _ _ hbound hrecv hcode hended hseen =>
    obtain ⟨q, hq, hqstands, hrcpt⟩ :=
      exists_received hlib hstated hstands hgrant hexecutor hbound hrecv
    have hbinding : q.validateEffectBinding invocation.invocationId .receipt .failed
        (.ofFields (failedFields invocation receipt code (detail.map (inlineContent lib)))) = .ok q := by
      cases detail <;> simp [validateEffectBinding, failedFields, hrcpt]
    obtain ⟨r, hr, hrstands, -⟩ := hqstands.transition hlib hstated hended
      (by cases detail <;> simp [failedFields]) (by decide) rfl rfl (by decide) hbinding rfl
    exact .cons hq (.cons hr (accepts_observed hlib hstated hrstands (.inr rfl) hseen))
  | @settled evidence code _ _ _ hcode hended hseen =>
    have hbinding : p.validateEffectBinding invocation.invocationId .started .failed
        (.ofFields (failureFields invocation code (inlineContent lib evidence))) = .ok p := by
      simp [validateEffectBinding]
    obtain ⟨r, hr, hrstands, -⟩ := hstands.transition hlib hstated hended
      (by simp [failureFields]) (by decide) rfl rfl (by decide) hbinding rfl
    exact .cons hr (accepts_observed hlib hstated hrstands (.inr rfl) hseen)
  | unknown hended =>
    obtain ⟨r, hr, hrstands, -⟩ := hstands.transition hlib hstated hended
      (by simp [uncertainFields]) (by decide) rfl rfl (by decide) rfl rfl
    refine ⟨r, .uncertain, LedgerState.applyAll_cons hr rfl, hrstands.boundary, hrstands.entry, ?_⟩
    rintro (hstate | hstate) <;> cases hstate

end Acceptance

end SqliteEffectBatchPublisher

end Garive
