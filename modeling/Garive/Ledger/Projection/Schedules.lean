import Garive.Ledger.Projection.Trace

/-!
# How schedules move

A schedule is created, or gets its next revision, by `schedule.created`; every other fact moves the
record of its schedule by one step. `ScheduleStep` has one case per kind of step, with what the
operation asks for, and `apply_scheduleMove` says that an accepted fact is one of them.
-/

namespace Garive

/-- The claim a fact states. -/
def FactDraft.claim? (lib : Externals) (fact : FactDraft) : Option ScheduleClaim := do
  let occurrenceId ← payloadText? lib fact "occurrence_id"
  let ordinal ← payloadNumber? lib fact "ordinal"
  let dueAtUtc ← payloadText? lib fact "due_at_utc"
  let leaseEpoch ← payloadNumber? lib fact "lease_epoch"
  return { occurrenceId, ordinal, dueAtUtc, leaseEpoch }

/-- Two claims of one occurrence. -/
structure ScheduleClaim.SameOccurrence (claim other : ScheduleClaim) : Prop where
  ordinal : other.ordinal = claim.ordinal
  occurrenceId : other.occurrenceId = claim.occurrenceId
  dueAtUtc : other.dueAtUtc = claim.dueAtUtc

namespace SessionProjection

/-- What a fact makes of the record of its schedule. -/
inductive ScheduleStep (lib : Externals) (fact : FactDraft) : ScheduleRecord → ScheduleRecord → Prop
  /-- The next occurrence is claimed, or the pending one again under a later lease. -/
  | claim {record : ScheduleRecord} {claim : ScheduleClaim} (hkind : fact.kind = .known .scheduleClaimed)
    (hact : record.state = .active)
    (hrev : payloadText? lib fact "revision_id" = some record.revisionId)
    (hclaim : fact.claim? lib = some claim)
    (hnext : record.pendingClaim = none → claim.ordinal = record.lastHandledOrdinal + 1)
    (hagain : ∀ pending, record.pendingClaim = some pending →
      pending.SameOccurrence claim ∧ pending.leaseEpoch < claim.leaseEpoch) :
    ScheduleStep lib fact record { record with pendingClaim := some claim }
  /-- The pending occurrence is handled. -/
  | fire {record : ScheduleRecord} {pending : ScheduleClaim} (hkind : fact.kind = .known .scheduleFired)
    (hact : record.state = .active)
    (hrev : payloadText? lib fact "revision_id" = some record.revisionId)
    (hpend : record.pendingClaim = some pending)
    (hord : payloadNumber? lib fact "ordinal" = some pending.ordinal)
    (hocc : payloadText? lib fact "occurrence_id" = some pending.occurrenceId) :
    ScheduleStep lib fact record
      { record with lastHandledOrdinal := pending.ordinal, pendingClaim := none }
  /-- The cursor moves to the end of a range that begins at the next occurrence. -/
  | skip {record : ScheduleRecord} {last : Nat} (hkind : fact.kind = .known .scheduleSkipped)
    (hact : record.state = .active)
    (hrev : payloadText? lib fact "revision_id" = some record.revisionId)
    (hpend : record.pendingClaim = none)
    (hfirst : payloadNumber? lib fact "first_ordinal" = some (record.lastHandledOrdinal + 1))
    (hlast : payloadNumber? lib fact "last_ordinal" = some last) :
    ScheduleStep lib fact record { record with lastHandledOrdinal := last }
  | cancel {record : ScheduleRecord} {state : ScheduleState}
    (hkind : fact.kind = .known .scheduleCancelled) (hact : record.state = .active)
    (hrev : payloadText? lib fact "expected_revision_id" = some record.revisionId)
    (hpend : record.pendingClaim = none) (hstate : state ≠ .active) :
    ScheduleStep lib fact record { record with state }
  | fail {record : ScheduleRecord} (hkind : fact.kind = .known .scheduleFailed)
    (hact : record.state = .active)
    (hrev : payloadText? lib fact "revision_id" = some record.revisionId) :
    ScheduleStep lib fact record { record with pendingClaim := none, state := .failed }
  | exhaust {record : ScheduleRecord} (hkind : fact.kind = .known .scheduleExhausted)
    (hact : record.state = .active)
    (hrev : payloadText? lib fact "revision_id" = some record.revisionId)
    (hpend : record.pendingClaim = none)
    (hlast : payloadNumber? lib fact "last_handled_ordinal" = some record.lastHandledOrdinal) :
    ScheduleStep lib fact record { record with state := .exhausted }

/-- What a fact makes of the schedules. -/
inductive ScheduleMove (lib : Externals) (p : SessionProjection) (fact : FactDraft) :
    Map String ScheduleRecord → Prop
  | create {schedule : String} {record : ScheduleRecord} (hkind : fact.kind = .known .scheduleCreated)
    (hsched : payloadText? lib fact "schedule_id" = some schedule)
    (hrev : payloadText? lib fact "revision_id" = some record.revisionId)
    (hbef : ∀ old : ScheduleRecord, p.schedules[schedule]? = some old →
      old.state = .superseding ∧ old.revisionId ≠ record.revisionId)
    (hlast : record.lastHandledOrdinal = 0) (hpend : record.pendingClaim = none)
    (hstate : record.state = .active) : ScheduleMove lib p fact (p.schedules.insert schedule record)
  | advance {schedule : String} {record next : ScheduleRecord}
    (hsched : payloadText? lib fact "schedule_id" = some schedule)
    (hrec : p.schedules[schedule]? = some record) (hstep : ScheduleStep lib fact record next) :
    ScheduleMove lib p fact (p.schedules.insert schedule next)

variable {lib : Externals} {p p' : SessionProjection} {fact : FactDraft} {record next : ScheduleRecord}

namespace ScheduleStep

/-- Only an active schedule moves. -/
theorem active (h : ScheduleStep lib fact record next) : record.state = .active := by
  cases h <;> assumption

theorem revisionId_eq (h : ScheduleStep lib fact record next) : next.revisionId = record.revisionId := by
  cases h <;> rfl

/-- A step is of a kind that writes schedules, and does not create one. -/
theorem kind (h : ScheduleStep lib fact record next) :
    fact.kind.writes = .schedules ∧ fact.kind ≠ .known .scheduleCreated := by
  cases h with
  | claim hkind | fire hkind | skip hkind | cancel hkind | fail hkind | exhaust hkind =>
    rw [hkind]
    exact ⟨rfl, by decide⟩

end ScheduleStep

/-! ### The step of each operation -/

theorem createSchedule_move (hkind : fact.kind = .known .scheduleCreated)
    (h : p.createSchedule lib fact = .ok p') : ScheduleMove lib p fact p'.schedules := by
  simp only [createSchedule, ok_iff] at h
  obtain ⟨_, hpay, _, hsched, _, hrev, _, -, hbef, rfl⟩ := h
  refine .create hkind (payloadText?_eq hpay hsched) (payloadText?_eq hpay hrev) ?_ rfl
    rfl rfl
  intro old hold
  simpa [hold] using hbef

/-- A claim that the code accepts is for the next occurrence or renews the pending one. -/
theorem claimValid_iff {claim : ScheduleClaim} {ordinal : Nat} :
    claimValid record claim ordinal ↔
      (record.pendingClaim = none → claim.ordinal = ordinal) ∧
      ∀ pending, record.pendingClaim = some pending →
        pending.SameOccurrence claim ∧ pending.leaseEpoch < claim.leaseEpoch := by
  unfold claimValid
  cases record.pendingClaim with
  | none => simp
  | some pending =>
    simp only [Bool.and_eq_true, beq_iff_eq, decide_eq_true_eq, Option.some.injEq, forall_eq',
      reduceCtorEq, false_implies, true_and]
    constructor
    · rintro ⟨⟨⟨hord, hocc⟩, hdue⟩, hepoch⟩
      exact ⟨⟨hord.symm, hocc.symm, hdue.symm⟩, hepoch⟩
    · rintro ⟨⟨hord, hocc, hdue⟩, hepoch⟩
      exact ⟨⟨⟨hord.symm, hocc.symm⟩, hdue.symm⟩, hepoch⟩

theorem claimSchedule_move (hkind : fact.kind = .known .scheduleClaimed)
    (h : p.claimSchedule lib fact = .ok p') : ScheduleMove lib p fact p'.schedules := by
  simp only [claimSchedule, ok_iff, checkedAdd_eq_some_iff, claimValid_iff,
    activeSchedule_eq_ok_iff, Prod.exists] at h
  obtain ⟨_, hpay, _, _, ⟨hsched, hrec, hact, hrev⟩, _,
    hord, _, hocc, _, hdue, _, hepoch, _, ⟨rfl, -⟩, ⟨hnext, hagain⟩,
    rfl⟩ := h
  refine .advance (payloadText?_eq hpay hsched) hrec
    (.claim hkind hact (payloadText?_eq hpay hrev) ?_ hnext hagain)
  simp [FactDraft.claim?, payloadText?_eq hpay hocc, payloadText?_eq hpay hdue,
    payloadNumber?_eq hpay hord, payloadNumber?_eq hpay hepoch]

theorem fireSchedule_move (hkind : fact.kind = .known .scheduleFired)
    (h : p.fireSchedule lib fact = .ok p') : ScheduleMove lib p fact p'.schedules := by
  simp only [fireSchedule, ok_iff, activeSchedule_eq_ok_iff, Prod.exists, Option.any_eq_true,
    Bool.and_eq_true, beq_iff_eq] at h
  obtain ⟨_, hpay, _, _, ⟨hsched, hrec, hact, hrev⟩, _,
    hord, _, hocc, ⟨_, hpend, rfl, rfl⟩, rfl⟩ := h
  exact .advance (payloadText?_eq hpay hsched) hrec
    (.fire hkind hact (payloadText?_eq hpay hrev) hpend
      (payloadNumber?_eq hpay hord) (payloadText?_eq hpay hocc))

theorem skipSchedule_move (hkind : fact.kind = .known .scheduleSkipped)
    (h : p.skipSchedule lib fact = .ok p') : ScheduleMove lib p fact p'.schedules := by
  simp only [skipSchedule, ok_iff, activeSchedule_eq_ok_iff, checkedAdd_eq_some_iff,
    Prod.exists] at h
  obtain ⟨_, hpay, _, _, ⟨hsched, hrec, hact, hrev⟩, _, hfirst,
    _, hlast, ⟨hpend, rfl, -⟩, rfl⟩ := h
  exact .advance (payloadText?_eq hpay hsched) hrec
    (.skip hkind hact (payloadText?_eq hpay hrev) hpend
      (payloadNumber?_eq hpay hfirst) (payloadNumber?_eq hpay hlast))

theorem cancelSchedule_move (hkind : fact.kind = .known .scheduleCancelled)
    (h : p.cancelSchedule lib fact = .ok p') : ScheduleMove lib p fact p'.schedules := by
  simp only [cancelSchedule, ok_iff] at h
  obtain ⟨_, hpay, _, hsched, _, hrec, ⟨hact, hpend⟩, _,
    hrev, rfl, _, -, rfl⟩ := h
  refine .advance (payloadText?_eq hpay hsched) hrec
    (.cancel hkind hact (payloadText?_eq hpay hrev) hpend ?_)
  split <;> simp

theorem failSchedule_move (hkind : fact.kind = .known .scheduleFailed)
    (h : p.failSchedule lib fact = .ok p') : ScheduleMove lib p fact p'.schedules := by
  simp only [failSchedule, ok_iff, activeSchedule_eq_ok_iff, Prod.exists] at h
  obtain ⟨_, hpay, _, _, ⟨hsched, hrec, hact, hrev⟩, -, rfl⟩ := h
  exact .advance (payloadText?_eq hpay hsched) hrec
    (.fail hkind hact (payloadText?_eq hpay hrev))

theorem exhaustSchedule_move (hkind : fact.kind = .known .scheduleExhausted)
    (h : p.exhaustSchedule lib fact = .ok p') : ScheduleMove lib p fact p'.schedules := by
  simp only [exhaustSchedule, ok_iff, activeSchedule_eq_ok_iff, Prod.exists] at h
  obtain ⟨_, hpay, _, _, ⟨hsched, hrec, hact, hrev⟩, hpend, _,
    hlast, rfl, rfl⟩ := h
  exact .advance (payloadText?_eq hpay hsched) hrec
    (.exhaust hkind hact (payloadText?_eq hpay hrev) hpend
      (payloadNumber?_eq hpay hlast))

/-- An accepted fact that writes the schedules is one of the moves. -/
theorem apply_scheduleMove (hwr : fact.kind.writes = .schedules) (h : p.apply lib fact = .ok p') :
    ScheduleMove lib p fact p'.schedules := by
  obtain ⟨kind, hkind, hwr, happly⟩ := applyKind_of_apply hwr nofun h
  cases kind with
  | scheduleCreated => exact createSchedule_move hkind happly
  | scheduleClaimed => exact claimSchedule_move hkind happly
  | scheduleFired => exact fireSchedule_move hkind happly
  | scheduleSkipped => exact skipSchedule_move hkind happly
  | scheduleCancelled => exact cancelSchedule_move hkind happly
  | scheduleFailed => exact failSchedule_move hkind happly
  | scheduleExhausted => exact exhaustSchedule_move hkind happly
  | _ => cases hwr

end SessionProjection

end Garive
