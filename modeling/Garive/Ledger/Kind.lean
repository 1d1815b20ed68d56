import Mathlib.Data.List.Nodup

/-!
# Fact kinds

A fact kind is a non-empty dotted text. The ledger dispatches on whole texts and on the part before
the first dot, its *namespace*: a kind such as `model.started` is validated by the model rules, and
so is an unknown `model.` kind, which those rules then reject.

Every text the code names is a constructor of `RuntimeKind`; every other non-empty text is kept as
`FactKind.other`. A dispatch on text is then a case distinction, and the texts themselves are needed
only where a kind is stored and read back.
-/

namespace Garive

open List

/-! ## Namespaces -/

/-- The part of a kind's text before its first dot, for the namespaces the code names. -/
inductive Namespace where
  | session
  | turn
  | execution
  | model
  | effect
  | interaction
  | safety
  | sandbox
  | skill
  | memory
  | knowledge
  | schedule
  | delegation
  | workspace
  | artifact
  | goal
  | plan
  | tool
  | context
  | privacy
deriving DecidableEq

namespace Namespace

/-- The text that starts every kind of the namespace. -/
def label : Namespace → String
  | session => "session."
  | turn => "turn."
  | execution => "execution."
  | model => "model."
  | effect => "effect."
  | interaction => "interaction."
  | safety => "safety."
  | sandbox => "sandbox."
  | skill => "skill."
  | memory => "memory."
  | knowledge => "knowledge."
  | schedule => "schedule."
  | delegation => "delegation."
  | workspace => "workspace."
  | artifact => "artifact."
  | goal => "goal."
  | plan => "plan."
  | tool => "tool."
  | context => "context."
  | privacy => "privacy."

/-- All namespaces. -/
def all : List Namespace :=
  [session, turn, execution, model, effect, interaction, safety, sandbox, skill, memory, knowledge,
    schedule, delegation, workspace, artifact, goal, plan, tool, context, privacy]

theorem mem_all (ns : Namespace) : ns ∈ all := by
  cases ns <;> decide

/-- The namespace whose label starts a text. -/
def ofText? (text : String) : Option Namespace :=
  all.find? fun ns ↦ ns.label.toList.isPrefixOf text.toList

end Namespace

/-! ## Kinds -/

/-- The fact kinds the code names. -/
inductive RuntimeKind where
  | sessionOpened
  | sessionClosed
  | turnStarted
  | turnInput
  | turnCancelRequested
  | turnSuspended
  | turnCompleted
  | turnStopped
  | turnFailed
  | turnSteered
  | executionStarted
  | executionIterationStarted
  | executionAbandoned
  | executionCompleted
  | executionSuspended
  | executionStopped
  | executionFailed
  | executionEffectBatchPlanned
  | modelPrepared
  | modelStarted
  | modelCompleted
  | modelRejected
  | modelInterrupted
  | modelUnavailable
  | modelUncertain
  | effectPrepared
  | effectAuthorized
  | effectDenied
  | effectStarted
  | effectReceipt
  | effectCompleted
  | effectFailed
  | effectUncertain
  | effectReconciled
  | effectObservation
  | interactionRequested
  | interactionResolved
  | interactionCancelled
  | safetyDecided
  | sandboxBound
  | sandboxPreflighted
  | skillActivated
  | memoryProposed
  | memoryCommitted
  | memoryRevisionClassified
  | memoryRejected
  | memorySuperseded
  | memoryTombstoned
  | memoryRetrievalRecorded
  | memoryRecallRecorded
  | memoryObligationOpened
  | memoryObservationRecorded
  | memoryLifecycleTransitioned
  | memoryCandidateRecorded
  | memoryMaintenanceDecided
  | memoryDistillationCheckpointed
  | memoryAuditRecorded
  | memoryPromotionRequested
  | memoryPromotionRecorded
  | memoryErasureRequested
  | memoryErasureRecorded
  | knowledgeRequested
  | knowledgeDispatched
  | knowledgeCompleted
  | knowledgeFailed
  | scheduleCreated
  | scheduleClaimed
  | scheduleFired
  | scheduleSkipped
  | scheduleCancelled
  | scheduleFailed
  | scheduleExhausted
  | delegationRequested
  | delegationAuthorized
  | delegationDenied
  | delegationChildStarted
  | delegationChildTerminal
  | delegationObserved
  | workspaceAttached
  | workspaceDetached
  | workspaceContextSelected
  | artifactCommitted
  | goalCreated
  | goalRevised
  | goalActivated
  | goalSuspended
  | goalSucceeded
  | goalFailed
  | goalCancelled
  | planProposalRequested
  | planProposalResultBound
  | planReplanAdmitted
  | planReplanProposalRequested
  | planReplanProposalResultBound
  | planProposed
  | planAdopted
  | planRejected
  | planSuperseded
  | planSuspended
  | planResumed
  | planCompleted
  | planFailed
  | planStepClaimed
  | planStepClaimExpired
  | planStepStarted
  | planStepCompleted
  | planStepFailed
  | planStepSuspended
  | planStepResumed
  | toolPreparationRejected
  | contextSummary
  | privacyRedacted
deriving DecidableEq

namespace RuntimeKind

/-- The namespace of a kind and the rest of its text. -/
def parts : RuntimeKind → Namespace × String
  | sessionOpened => (.session, "opened")
  | sessionClosed => (.session, "closed")
  | turnStarted => (.turn, "started")
  | turnInput => (.turn, "input")
  | turnCancelRequested => (.turn, "cancel_requested")
  | turnSuspended => (.turn, "suspended")
  | turnCompleted => (.turn, "completed")
  | turnStopped => (.turn, "stopped")
  | turnFailed => (.turn, "failed")
  | turnSteered => (.turn, "steered")
  | executionStarted => (.execution, "started")
  | executionIterationStarted => (.execution, "iteration_started")
  | executionAbandoned => (.execution, "abandoned")
  | executionCompleted => (.execution, "completed")
  | executionSuspended => (.execution, "suspended")
  | executionStopped => (.execution, "stopped")
  | executionFailed => (.execution, "failed")
  | executionEffectBatchPlanned => (.execution, "effect_batch_planned")
  | modelPrepared => (.model, "prepared")
  | modelStarted => (.model, "started")
  | modelCompleted => (.model, "completed")
  | modelRejected => (.model, "rejected")
  | modelInterrupted => (.model, "interrupted")
  | modelUnavailable => (.model, "unavailable")
  | modelUncertain => (.model, "uncertain")
  | effectPrepared => (.effect, "prepared")
  | effectAuthorized => (.effect, "authorized")
  | effectDenied => (.effect, "denied")
  | effectStarted => (.effect, "started")
  | effectReceipt => (.effect, "receipt")
  | effectCompleted => (.effect, "completed")
  | effectFailed => (.effect, "failed")
  | effectUncertain => (.effect, "uncertain")
  | effectReconciled => (.effect, "reconciled")
  | effectObservation => (.effect, "observation")
  | interactionRequested => (.interaction, "requested")
  | interactionResolved => (.interaction, "resolved")
  | interactionCancelled => (.interaction, "cancelled")
  | safetyDecided => (.safety, "decided")
  | sandboxBound => (.sandbox, "bound")
  | sandboxPreflighted => (.sandbox, "preflighted")
  | skillActivated => (.skill, "activated")
  | memoryProposed => (.memory, "proposed")
  | memoryCommitted => (.memory, "committed")
  | memoryRevisionClassified => (.memory, "revision_classified")
  | memoryRejected => (.memory, "rejected")
  | memorySuperseded => (.memory, "superseded")
  | memoryTombstoned => (.memory, "tombstoned")
  | memoryRetrievalRecorded => (.memory, "retrieval_recorded")
  | memoryRecallRecorded => (.memory, "recall_recorded")
  | memoryObligationOpened => (.memory, "obligation_opened")
  | memoryObservationRecorded => (.memory, "observation_recorded")
  | memoryLifecycleTransitioned => (.memory, "lifecycle_transitioned")
  | memoryCandidateRecorded => (.memory, "candidate_recorded")
  | memoryMaintenanceDecided => (.memory, "maintenance_decided")
  | memoryDistillationCheckpointed => (.memory, "distillation_checkpointed")
  | memoryAuditRecorded => (.memory, "audit_recorded")
  | memoryPromotionRequested => (.memory, "promotion_requested")
  | memoryPromotionRecorded => (.memory, "promotion_recorded")
  | memoryErasureRequested => (.memory, "erasure_requested")
  | memoryErasureRecorded => (.memory, "erasure_recorded")
  | knowledgeRequested => (.knowledge, "requested")
  | knowledgeDispatched => (.knowledge, "dispatched")
  | knowledgeCompleted => (.knowledge, "completed")
  | knowledgeFailed => (.knowledge, "failed")
  | scheduleCreated => (.schedule, "created")
  | scheduleClaimed => (.schedule, "claimed")
  | scheduleFired => (.schedule, "fired")
  | scheduleSkipped => (.schedule, "skipped")
  | scheduleCancelled => (.schedule, "cancelled")
  | scheduleFailed => (.schedule, "failed")
  | scheduleExhausted => (.schedule, "exhausted")
  | delegationRequested => (.delegation, "requested")
  | delegationAuthorized => (.delegation, "authorized")
  | delegationDenied => (.delegation, "denied")
  | delegationChildStarted => (.delegation, "child_started")
  | delegationChildTerminal => (.delegation, "child_terminal")
  | delegationObserved => (.delegation, "observed")
  | workspaceAttached => (.workspace, "attached")
  | workspaceDetached => (.workspace, "detached")
  | workspaceContextSelected => (.workspace, "context_selected")
  | artifactCommitted => (.artifact, "committed")
  | goalCreated => (.goal, "created")
  | goalRevised => (.goal, "revised")
  | goalActivated => (.goal, "activated")
  | goalSuspended => (.goal, "suspended")
  | goalSucceeded => (.goal, "succeeded")
  | goalFailed => (.goal, "failed")
  | goalCancelled => (.goal, "cancelled")
  | planProposalRequested => (.plan, "proposal.requested")
  | planProposalResultBound => (.plan, "proposal.result_bound")
  | planReplanAdmitted => (.plan, "replan.admitted")
  | planReplanProposalRequested => (.plan, "replan.proposal.requested")
  | planReplanProposalResultBound => (.plan, "replan.proposal.result_bound")
  | planProposed => (.plan, "proposed")
  | planAdopted => (.plan, "adopted")
  | planRejected => (.plan, "rejected")
  | planSuperseded => (.plan, "superseded")
  | planSuspended => (.plan, "suspended")
  | planResumed => (.plan, "resumed")
  | planCompleted => (.plan, "completed")
  | planFailed => (.plan, "failed")
  | planStepClaimed => (.plan, "step.claimed")
  | planStepClaimExpired => (.plan, "step.claim_expired")
  | planStepStarted => (.plan, "step.started")
  | planStepCompleted => (.plan, "step.completed")
  | planStepFailed => (.plan, "step.failed")
  | planStepSuspended => (.plan, "step.suspended")
  | planStepResumed => (.plan, "step.resumed")
  | toolPreparationRejected => (.tool, "preparation_rejected")
  | contextSummary => (.context, "summary")
  | privacyRedacted => (.privacy, "redacted")

/-- All named kinds. -/
def all : List RuntimeKind :=
  [sessionOpened, sessionClosed, turnStarted, turnInput, turnCancelRequested, turnSuspended,
    turnCompleted, turnStopped, turnFailed, turnSteered, executionStarted,
    executionIterationStarted, executionAbandoned, executionCompleted, executionSuspended,
    executionStopped, executionFailed, executionEffectBatchPlanned, modelPrepared, modelStarted,
    modelCompleted, modelRejected, modelInterrupted, modelUnavailable, modelUncertain,
    effectPrepared, effectAuthorized, effectDenied, effectStarted, effectReceipt,
    effectCompleted, effectFailed, effectUncertain, effectReconciled, effectObservation,
    interactionRequested, interactionResolved, interactionCancelled, safetyDecided, sandboxBound,
    sandboxPreflighted, skillActivated, memoryProposed, memoryCommitted,
    memoryRevisionClassified, memoryRejected, memorySuperseded, memoryTombstoned,
    memoryRetrievalRecorded, memoryRecallRecorded, memoryObligationOpened,
    memoryObservationRecorded, memoryLifecycleTransitioned, memoryCandidateRecorded,
    memoryMaintenanceDecided, memoryDistillationCheckpointed, memoryAuditRecorded,
    memoryPromotionRequested, memoryPromotionRecorded, memoryErasureRequested,
    memoryErasureRecorded, knowledgeRequested, knowledgeDispatched, knowledgeCompleted,
    knowledgeFailed, scheduleCreated, scheduleClaimed, scheduleFired, scheduleSkipped,
    scheduleCancelled, scheduleFailed, scheduleExhausted, delegationRequested,
    delegationAuthorized, delegationDenied, delegationChildStarted, delegationChildTerminal,
    delegationObserved, workspaceAttached, workspaceDetached, workspaceContextSelected,
    artifactCommitted, goalCreated, goalRevised, goalActivated, goalSuspended, goalSucceeded,
    goalFailed, goalCancelled, planProposalRequested, planProposalResultBound,
    planReplanAdmitted, planReplanProposalRequested, planReplanProposalResultBound, planProposed,
    planAdopted, planRejected, planSuperseded, planSuspended, planResumed, planCompleted,
    planFailed, planStepClaimed, planStepClaimExpired, planStepStarted, planStepCompleted,
    planStepFailed, planStepSuspended, planStepResumed, toolPreparationRejected, contextSummary,
    privacyRedacted]

/-- The namespace of a kind. -/
def ns (kind : RuntimeKind) : Namespace := kind.parts.1

/-- The kind as text. -/
def text (kind : RuntimeKind) : String := kind.parts.1.label ++ kind.parts.2

/-- The named kind with a given text. -/
def ofText? (text : String) : Option RuntimeKind := all.find? fun kind ↦ kind.text == text

theorem mem_all (kind : RuntimeKind) : kind ∈ all := by
  cases kind <;> decide

private theorem nodup_map_parts : (all.map parts).Nodup := by
  simp [all, parts]

theorem parts_injective : Function.Injective parts := fun a b h ↦
  inj_on_of_nodup_map nodup_map_parts (mem_all a) (mem_all b) h

end RuntimeKind

namespace Namespace

/-- A label is a word without dots, followed by a dot. -/
private theorem exists_label_eq (ns : Namespace) :
    ∃ word : List Char, '.' ∉ word ∧ ns.label.toList = word ++ ['.'] := by
  refine ⟨ns.label.toList.dropLast, ?_⟩
  cases ns <;> simp [label]

/-- Labels are told apart by what precedes the first dot, so at most one starts a text. -/
theorem label_eq_of_starts {a b : Namespace} {text : List Char} (ha : a.label.toList <+: text)
    (hb : b.label.toList <+: text) : a.label = b.label := by
  obtain ⟨wa, hwa, ea⟩ := exists_label_eq a
  obtain ⟨wb, hwb, eb⟩ := exists_label_eq b
  have hword : ∀ word rest : List Char, '.' ∉ word →
      (word ++ ['.'] ++ rest).takeWhile (· != '.') = word := by
    intro word rest hword
    rw [append_assoc, takeWhile_append_of_pos]
    · simp
    · intro c hc
      simp only [bne_iff_ne, ne_eq]
      rintro rfl
      exact hword hc
  obtain ⟨ra, rfl⟩ := ha
  obtain ⟨rb, hrb⟩ := hb
  rw [ea, eb] at hrb
  have hw : wb = wa := by
    rw [← hword wb rb hwb, hrb, hword wa ra hwa]
  rw [← String.toList_inj, ea, eb, hw]

theorem label_injective : Function.Injective label := by
  intro a b h
  cases a <;> cases b <;> first | rfl | (exfalso; revert h; simp [label])

/-- A text that starts with a label is in that label's namespace and in no other. -/
theorem ofText?_eq_some_iff {text : String} {ns : Namespace} :
    ofText? text = some ns ↔ ns.label.toList <+: text.toList := by
  constructor
  · intro h
    simpa using find?_some h
  · intro h
    obtain ⟨found, hfound⟩ : ∃ found, ofText? text = some found := by
      rw [← Option.isSome_iff_exists, ofText?, find?_isSome]
      exact ⟨ns, mem_all ns, by simpa using h⟩
    have hlabel : found.label.toList <+: text.toList := by
      simpa using find?_some hfound
    rw [hfound, label_injective (label_eq_of_starts hlabel h)]

end Namespace

namespace RuntimeKind

/-- The namespace of a named kind is the one its text starts with. -/
theorem ofText?_text_ns (kind : RuntimeKind) : Namespace.ofText? kind.text = some kind.ns := by
  rw [Namespace.ofText?_eq_some_iff, text, String.toList_append]
  exact prefix_append _ _

theorem text_injective : Function.Injective text := by
  intro a b h
  have hns : a.ns = b.ns := by
    rw [← Option.some_inj, ← ofText?_text_ns, ← ofText?_text_ns, h]
  apply parts_injective
  apply Prod.ext hns
  rw [text, text, show a.parts.1 = b.parts.1 from hns, ← String.toList_inj, String.toList_append,
    String.toList_append, append_cancel_left_eq] at h
  exact String.toList_inj.mp h

theorem ofText?_eq_some_iff {text : String} {kind : RuntimeKind} :
    ofText? text = some kind ↔ kind.text = text := by
  constructor
  · intro h
    simpa using find?_some h
  · rintro rfl
    obtain ⟨found, hfound⟩ : ∃ found, ofText? kind.text = some found := by
      rw [← Option.isSome_iff_exists, ofText?, find?_isSome]
      exact ⟨kind, mem_all kind, by simp⟩
    have htext : found.text = kind.text := by simpa using find?_some hfound
    rw [hfound, text_injective htext]

end RuntimeKind

/-! ## Kinds of stored facts -/

/-- Stable, non-empty semantic name for one durable fact kind. -/
inductive FactKind where
  | known (kind : RuntimeKind)
  | other (text : String) (nonempty : text ≠ "") (unknown : RuntimeKind.ofText? text = none)
deriving DecidableEq

namespace FactKind

/-- The kind as text. -/
def text : FactKind → String
  | known kind => kind.text
  | other text _ _ => text

/-- The kind with a given text, unless the text is empty. -/
def new (value : String) : Option FactKind :=
  match h : RuntimeKind.ofText? value with
  | some kind => some (known kind)
  | none => if hne : value ≠ "" then some (other value hne h) else none

/-- The namespace the kind's text starts with. -/
def ns? : FactKind → Option Namespace
  | known kind => some kind.ns
  | other text _ _ => Namespace.ofText? text

@[simp] theorem new_text (kind : FactKind) : new kind.text = some kind := by
  cases kind with
  | known kind =>
    have h : RuntimeKind.ofText? (known kind).text = some kind :=
      RuntimeKind.ofText?_eq_some_iff.mpr rfl
    unfold new
    split
    · simp_all
    · simp_all
  | other text hne hunknown =>
    unfold new
    split <;> simp_all [FactKind.text]

@[simp] theorem ns?_known (kind : RuntimeKind) : (known kind).ns? = some kind.ns := rfl

end FactKind

end Garive
