import Garive.Ledger.Course
import Garive.Ledger.Projection.Schedules
import Garive.Ledger.Writers
import Mathlib.Data.List.DropRight

/-!
# Occurrences are handled once and in order

Between two `schedule.created` facts of a schedule, its record is moved by the facts of one revision.
`RevisionRun` is such a stretch, step by step, and carries the argument: the cursor is the end of what
was handled so far, a pending claim is for the occurrence behind the cursor, and a record that is not
active does not move any more. `Leads.scheduled` says that the record of a schedule always is where the
facts since its last creation have brought it.
-/

namespace Garive

open SessionProjection List

/-! ## One revision -/

/-- The fact is of the kind and names the schedule. -/
def FactDraft.Reports (lib : Externals) (fact : FactDraft) (kind : RuntimeKind) (schedule : String) :
    Prop :=
  fact.kind = .known kind ∧ payloadText? lib fact "schedule_id" = some schedule

instance (lib : Externals) (fact : FactDraft) (kind : RuntimeKind) (schedule : String) :
    Decidable (fact.Reports lib kind schedule) :=
  inferInstanceAs (Decidable (_ ∧ _))

/-- The ordinals that a fact handles: the one it fires, or the range it skips. -/
def handledBy (lib : Externals) (schedule : String) (fact : FactDraft) : List Nat :=
  if fact.Reports lib .scheduleFired schedule then (payloadNumber? lib fact "ordinal").toList
  else if fact.Reports lib .scheduleSkipped schedule then
    match payloadNumber? lib fact "first_ordinal", payloadNumber? lib fact "last_ordinal" with
    | some first, some last => range' first (last + 1 - first)
    | _, _ => []
  else []

/-- A skipped range is not turned around. -/
def SkipsForward (lib : Externals) (fact : FactDraft) : Prop :=
  ∀ first last, fact.kind = .known .scheduleSkipped →
    payloadNumber? lib fact "first_ordinal" = some first →
    payloadNumber? lib fact "last_ordinal" = some last → first ≤ last + 1

/-- The facts since the creation of a revision have moved the record of their schedule here. -/
inductive RevisionRun (lib : Externals) (schedule : String) : List FactDraft → ScheduleRecord → Prop
  | created {record : ScheduleRecord} (hlast : record.lastHandledOrdinal = 0)
    (hpend : record.pendingClaim = none) (hstate : record.state = .active) :
    RevisionRun lib schedule [] record
  | other {facts : List FactDraft} {fact : FactDraft} {record : ScheduleRecord}
    (h : RevisionRun lib schedule facts record)
    (hother : fact.kind.writes = .schedules → payloadText? lib fact "schedule_id" ≠ some schedule) :
    RevisionRun lib schedule (facts ++ [fact]) record
  | step {facts : List FactDraft} {fact : FactDraft} {record next : ScheduleRecord}
    (h : RevisionRun lib schedule facts record)
    (hsched : payloadText? lib fact "schedule_id" = some schedule)
    (hstep : ScheduleStep lib fact record next) : RevisionRun lib schedule (facts ++ [fact]) next

variable {lib : Externals} {schedule : String} {facts history : List FactDraft} {fact : FactDraft}
  {record next : ScheduleRecord} {p p' : SessionProjection}

/-- A fact of another schedule, or of no schedule, is no report about this one. -/
theorem not_reports {kind : RuntimeKind} (hkind : kind.writes = .schedules)
    (hother : fact.kind.writes = .schedules → payloadText? lib fact "schedule_id" ≠ some schedule) :
    ¬fact.Reports lib kind schedule := by
  rintro ⟨hfact, hsched⟩
  exact hother (by rw [hfact]; exact hkind) hsched

theorem handledBy_of_other
    (hother : fact.kind.writes = .schedules → payloadText? lib fact "schedule_id" ≠ some schedule) :
    handledBy lib schedule fact = [] := by
  rw [handledBy, if_neg (not_reports rfl hother), if_neg (not_reports rfl hother)]

namespace RevisionRun

/-- The last fact of a stretch. -/
theorem concat (h : RevisionRun lib schedule (facts ++ [fact]) next) :
    ∃ record, RevisionRun lib schedule facts record ∧
      ((fact.kind.writes = .schedules → payloadText? lib fact "schedule_id" ≠ some schedule) ∧
          next = record ∨
        payloadText? lib fact "schedule_id" = some schedule ∧ ScheduleStep lib fact record next) := by
  generalize hall : facts ++ [fact] = all at h
  cases h with
  | created => simp at hall
  | other h hother =>
    obtain ⟨rfl, hlast⟩ := append_inj' hall rfl
    cases hlast
    exact ⟨_, h, .inl ⟨hother, rfl⟩⟩
  | step h hsched hstep =>
    obtain ⟨rfl, hlast⟩ := append_inj' hall rfl
    cases hlast
    exact ⟨_, h, .inr ⟨hsched, hstep⟩⟩

variable {rest : List FactDraft}

/-- A stretch, stopped early. -/
theorem take (h : RevisionRun lib schedule (facts ++ rest) record) :
    ∃ record, RevisionRun lib schedule facts record := by
  induction rest using reverseRecOn generalizing record with
  | nil => exact ⟨record, by rwa [append_nil] at h⟩
  | append_singleton rest fact ih =>
    rw [← append_assoc] at h
    obtain ⟨_, hbef, -⟩ := h.concat
    exact ih hbef

/-- A report about the schedule is a step. -/
theorem step_of_reports {kind : RuntimeKind} (h : RevisionRun lib schedule (facts ++ [fact]) next)
    (hreports : fact.Reports lib kind schedule) (hkind : kind.writes = .schedules) :
    ∃ record, RevisionRun lib schedule facts record ∧ ScheduleStep lib fact record next := by
  obtain ⟨record, hrun, ⟨hother, -⟩ | ⟨-, hstep⟩⟩ := h.concat
  · exact absurd hreports (not_reports hkind hother)
  · exact ⟨record, hrun, hstep⟩

/-- A pending claim is for the occurrence behind the cursor. -/
theorem pending_ordinal (h : RevisionRun lib schedule facts record) {pending : ScheduleClaim}
    (hpend : record.pendingClaim = some pending) :
    pending.ordinal = record.lastHandledOrdinal + 1 := by
  induction h generalizing pending with
  | created _ hnone =>
    rw [hnone] at hpend
    cases hpend
  | other _ _ ih => exact ih hpend
  | @step _ _ record _ _ _ hstep ih =>
    cases hstep with
    | claim _ _ _ _ hnext hagain =>
      cases hpend
      cases hold : record.pendingClaim with
      | none => exact hnext hold
      | some old => exact (hagain old hold).1.ordinal.trans (ih hold)
    | fire => cases hpend
    | skip _ _ _ hnone | cancel _ _ _ hnone | exhaust _ _ _ hnone =>
      exact absurd (hnone.symm.trans hpend) (by simp)
    | fail => cases hpend

/-- What was handled is exactly what the cursor covers. -/
theorem handled (h : RevisionRun lib schedule facts record) (hfwd : ∀ fact ∈ facts, SkipsForward lib fact) :
    facts.flatMap (handledBy lib schedule) = range' 1 record.lastHandledOrdinal := by
  induction h with
  | created hlast => simp [hlast]
  | other _ hother ih =>
    rw [forall_mem_append, forall_mem_singleton] at hfwd
    rw [flatMap_append, ih hfwd.1, flatMap_singleton, handledBy_of_other hother,
      append_nil]
  | @step facts fact record next hrun hsched hstep ih =>
    rw [forall_mem_append, forall_mem_singleton] at hfwd
    rw [flatMap_append, ih hfwd.1, flatMap_singleton]
    have hquiet : fact.kind ≠ .known .scheduleFired → fact.kind ≠ .known .scheduleSkipped →
        handledBy lib schedule fact = [] := by
      intro hfired hskipped
      rw [handledBy, if_neg fun h ↦ hfired h.1, if_neg fun h ↦ hskipped h.1]
    cases hstep with
    | claim hkind | cancel hkind | fail hkind | exhaust hkind =>
      rw [hquiet (by simp [hkind]) (by simp [hkind]), append_nil]
    | @fire pending hkind _ _ hpend hord =>
      rw [handledBy, if_pos ⟨hkind, hsched⟩, hord, hrun.pending_ordinal hpend]
      dsimp only
      rw [range'_1_concat, Nat.add_comm 1, Option.toList_some]
    | @skip last hkind _ _ _ hfirst hlast =>
      have hle := hfwd.2 _ _ hkind hfirst hlast
      have hfired : ¬fact.Reports lib .scheduleFired schedule := by
        rintro ⟨hother, -⟩
        rw [hkind] at hother
        cases hother
      rw [handledBy, if_neg hfired, if_pos ⟨hkind, hsched⟩, hfirst, hlast]
      dsimp only
      rw [Nat.add_comm record.lastHandledOrdinal 1, range'_append_1]
      congr 1
      omega

/-- A claim stays pending until it is fired: it may be renewed, under later leases only. -/
theorem pending_of_claimed {claimed : FactDraft}
    (h : RevisionRun lib schedule (facts ++ claimed :: rest) record)
    (hclaimed : claimed.Reports lib .scheduleClaimed schedule)
    (hfired : ∀ fact ∈ rest, ¬fact.Reports lib .scheduleFired schedule)
    (hact : record.state = .active) :
    ∃ claim pending, claimed.claim? lib = some claim ∧ record.pendingClaim = some pending ∧
      claim.SameOccurrence pending ∧ claim.leaseEpoch ≤ pending.leaseEpoch := by
  induction rest using reverseRecOn generalizing record with
  | nil =>
    obtain ⟨before, -, hstep⟩ := h.step_of_reports hclaimed rfl
    cases hstep with
    | @claim claim _ _ _ hclaim => exact ⟨claim, claim, hclaim, rfl, ⟨rfl, rfl, rfl⟩, le_rfl⟩
    | fire hkind | skip hkind | cancel hkind | fail hkind | exhaust hkind =>
      rw [hclaimed.1] at hkind
      cases hkind
  | append_singleton rest fact ih =>
    rw [forall_mem_append, forall_mem_singleton] at hfired
    rw [← cons_append, ← append_assoc] at h
    obtain ⟨before, hrun, ⟨-, rfl⟩ | ⟨hsched, hstep⟩⟩ := h.concat
    · exact ih hrun hfired.1 hact
    · obtain ⟨claim, pending, hclaim, hpend, hsame, hepoch⟩ := ih hrun hfired.1 hstep.active
      cases hstep with
      | @claim again _ _ _ _ _ hagain =>
        obtain ⟨hsame', hepoch'⟩ := hagain pending hpend
        exact ⟨claim, again, hclaim, rfl, ⟨hsame'.ordinal.trans hsame.ordinal,
          hsame'.occurrenceId.trans hsame.occurrenceId, hsame'.dueAtUtc.trans hsame.dueAtUtc⟩,
          hepoch.trans hepoch'.le⟩
      | fire hkind => exact absurd ⟨hkind, hsched⟩ hfired.2
      | skip _ _ _ hnone | cancel _ _ _ hnone | exhaust _ _ _ hnone =>
        exact absurd (hnone.symm.trans hpend) (by simp)
      | fail => cases hact

/-- Two claims with no firing between them are of one occurrence, the later one under a later lease. -/
theorem claims_agree {again : FactDraft} {claimed : FactDraft}
    (h : RevisionRun lib schedule (facts ++ claimed :: rest ++ [again]) record)
    (hclaimed : claimed.Reports lib .scheduleClaimed schedule)
    (hagain : again.Reports lib .scheduleClaimed schedule)
    (hfired : ∀ fact ∈ rest, ¬fact.Reports lib .scheduleFired schedule) :
    ∃ claim renewed, claimed.claim? lib = some claim ∧ again.claim? lib = some renewed ∧
      claim.SameOccurrence renewed ∧ claim.leaseEpoch < renewed.leaseEpoch := by
  obtain ⟨_, hrun, hstep⟩ := h.step_of_reports hagain rfl
  obtain ⟨claim, pending, hclaim, hpend, hsame, hepoch⟩ :=
    hrun.pending_of_claimed hclaimed hfired hstep.active
  cases hstep with
  | @claim renewed _ _ _ hrenewed _ hvalid =>
    obtain ⟨hsame', hepoch'⟩ := hvalid pending hpend
    exact ⟨claim, renewed, hclaim, hrenewed, ⟨hsame'.ordinal.trans hsame.ordinal,
      hsame'.occurrenceId.trans hsame.occurrenceId, hsame'.dueAtUtc.trans hsame.dueAtUtc⟩,
      hepoch.trans_lt hepoch'⟩
  | fire hkind | skip hkind | cancel hkind | fail hkind | exhaust hkind =>
    rw [hagain.1] at hkind
    cases hkind

/-- After its end a revision is not active. -/
theorem not_active_of_ended {ended : FactDraft}
    (h : RevisionRun lib schedule (facts ++ ended :: rest) record)
    (hended : ended.Reports lib .scheduleCancelled schedule ∨ ended.Reports lib .scheduleFailed schedule ∨ ended.Reports lib .scheduleExhausted schedule) :
    record.state ≠ .active := by
  induction rest using reverseRecOn generalizing record with
  | nil =>
    obtain ⟨before, -, hstep⟩ :
        ∃ before, RevisionRun lib schedule facts before ∧ ScheduleStep lib ended before record := by
      rcases hended with h' | h' | h' <;> exact h.step_of_reports h' rfl
    have hkind : ended.kind = .known .scheduleCancelled ∨ ended.kind = .known .scheduleFailed ∨
        ended.kind = .known .scheduleExhausted := by
      rcases hended with h' | h' | h'
      · exact .inl h'.1
      · exact .inr (.inl h'.1)
      · exact .inr (.inr h'.1)
    cases hstep with
    | claim hother | fire hother | skip hother =>
      rw [hother] at hkind
      rcases hkind with hkind | hkind | hkind <;> cases hkind
    | cancel _ _ _ _ hstate => exact hstate
    | fail | exhaust => exact ScheduleState.noConfusion
  | append_singleton rest fact ih =>
    rw [← cons_append, ← append_assoc] at h
    obtain ⟨before, hrun, ⟨-, rfl⟩ | ⟨-, hstep⟩⟩ := h.concat
    · exact ih hrun
    · exact absurd hstep.active (ih hrun)

end RevisionRun

/-! ## Along a course -/

/-- The facts since the last creation of the schedule. -/
def sinceCreated (lib : Externals) (schedule : String) (history : List FactDraft) : List FactDraft :=
  history.rtakeWhile fun fact ↦ decide (¬fact.Reports lib .scheduleCreated schedule)

/-- The records are where the facts have brought them. -/
structure Scheduled (lib : Externals) (history : List FactDraft) (schedules : Map String ScheduleRecord) :
    Prop where
  run : ∀ (schedule : String) (record : ScheduleRecord), schedules[schedule]? = some record →
    RevisionRun lib schedule (sinceCreated lib schedule history) record
  known : ∀ (schedule : String) (fact : FactDraft), fact ∈ history →
    fact.Reports lib .scheduleCreated schedule → ∃ record, schedules[schedule]? = some record

theorem sinceCreated_concat_of_not (h : ¬fact.Reports lib .scheduleCreated schedule) :
    sinceCreated lib schedule (history ++ [fact]) = sinceCreated lib schedule history ++ [fact] :=
  rtakeWhile_concat_pos _ _ _ (by simpa using h)

theorem sinceCreated_concat_of (h : fact.Reports lib .scheduleCreated schedule) :
    sinceCreated lib schedule (history ++ [fact]) = [] :=
  rtakeWhile_concat_neg _ _ _ (by simpa using h)

theorem sinceCreated_append_cons {created : FactDraft} {segment : List FactDraft}
    (hcreated : created.Reports lib .scheduleCreated schedule)
    (hnext : ∀ fact ∈ segment, ¬fact.Reports lib .scheduleCreated schedule) :
    sinceCreated lib schedule (history ++ created :: segment) = segment := by
  induction segment using reverseRecOn with
  | nil => exact sinceCreated_concat_of hcreated
  | append_singleton segment fact ih =>
    rw [forall_mem_append, forall_mem_singleton] at hnext
    rw [← cons_append, ← append_assoc, sinceCreated_concat_of_not hnext.2, ih hnext.1]

variable {schedules : Map String ScheduleRecord}

/-- A fact that does not write the schedules changes nothing. -/
theorem Scheduled.other (h : Scheduled lib history schedules)
    (hwr : fact.kind.writes ≠ .schedules) : Scheduled lib (history ++ [fact]) schedules where
  run schedule record hrec := by
    have hno : ¬fact.Reports lib .scheduleCreated schedule :=
      not_reports rfl fun hkind ↦ absurd hkind hwr
    rw [sinceCreated_concat_of_not hno]
    exact (h.run schedule record hrec).other fun hkind ↦ absurd hkind hwr
  known schedule created hmem hcreated := by
    rcases mem_append.mp hmem with hold | hnew
    · exact h.known schedule created hold hcreated
    · rw [mem_singleton.mp hnew] at hcreated
      exact absurd hcreated (not_reports rfl fun hkind ↦ absurd hkind hwr)

/-- A move of the schedules. -/
theorem Scheduled.move (h : Scheduled lib history p.schedules)
    (hmove : ScheduleMove lib p fact schedules) : Scheduled lib (history ++ [fact]) schedules := by
  -- The fact names one schedule, so nothing happens to the others.
  have hothers : ∀ (named other : String) (next record : ScheduleRecord),
      payloadText? lib fact "schedule_id" = some named → named ≠ other →
      p.schedules[other]? = some record →
      RevisionRun lib other (sinceCreated lib other (history ++ [fact])) record := by
    intro named other next record hnamed hne hrec
    have hother : fact.kind.writes = .schedules → payloadText? lib fact "schedule_id" ≠ some other := by
      intro _ heq
      exact hne (Option.some.inj (hnamed.symm.trans heq))
    rw [sinceCreated_concat_of_not (not_reports rfl hother)]
    exact (h.run other record hrec).other hother
  have hknown : ∀ (named : String) (next : ScheduleRecord),
      payloadText? lib fact "schedule_id" = some named →
      ∀ (schedule : String) (created : FactDraft), created ∈ history ++ [fact] →
      created.Reports lib .scheduleCreated schedule →
      ∃ record, (p.schedules.insert named next)[schedule]? = some record := by
    intro named next hnamed schedule created hmem hcreated
    rw [Map.get?_insert]
    split
    · exact ⟨next, rfl⟩
    · rename_i hne
      rcases mem_append.mp hmem with hold | hnew
      · exact h.known schedule created hold hcreated
      · rw [mem_singleton.mp hnew] at hcreated
        exact absurd (Option.some.inj (hnamed.symm.trans hcreated.2)) hne
  cases hmove with
  | @create named created hkind hsched _ _ hlast hpend hstate =>
    refine ⟨fun schedule record hrec ↦ ?_, hknown named created hsched⟩
    rw [Map.get?_insert] at hrec
    split at hrec
    · rename_i heq
      subst heq
      cases hrec
      rw [sinceCreated_concat_of ⟨hkind, hsched⟩]
      exact .created hlast hpend hstate
    · rename_i hne
      exact hothers named schedule created record hsched hne hrec
  | @advance named before next hsched hbef hstep =>
    refine ⟨fun schedule record hrec ↦ ?_, hknown named next hsched⟩
    rw [Map.get?_insert] at hrec
    split at hrec
    · rename_i heq
      subst heq
      cases hrec
      rw [sinceCreated_concat_of_not fun hcreated ↦ hstep.kind.2 hcreated.1]
      exact (h.run named before hbef).step hsched hstep
    · rename_i hne
      exact hothers named schedule next record hsched hne hrec

/-- Along every course, the records are where the facts have brought them. -/
theorem Leads.scheduled {condition : StepCondition} (h : Leads lib condition history p) :
    Scheduled lib history p.schedules := by
  induction h with
  | empty => exact ⟨by simp, by simp⟩
  | commit _ _ ih => exact ih
  | @fact history p p' fact _ _ happly ih =>
    by_cases hwr : fact.kind.writes = .schedules
    · exact ih.move (apply_scheduleMove hwr happly)
    · rw [(apply_keeps happly).schedules_eq hwr]
      exact ih.other hwr

/-! ## Exactly once -/

/-- The fact claims, fires or skips an occurrence of the schedule. -/
def FactDraft.Uses (lib : Externals) (fact : FactDraft) (schedule : String) : Prop :=
  fact.Reports lib .scheduleClaimed schedule ∨ fact.Reports lib .scheduleFired schedule ∨
    fact.Reports lib .scheduleSkipped schedule

/-- The fact ends the schedule's revision. -/
def FactDraft.EndsSchedule (lib : Externals) (fact : FactDraft) (schedule : String) : Prop :=
  fact.Reports lib .scheduleCancelled schedule ∨ fact.Reports lib .scheduleFailed schedule ∨
    fact.Reports lib .scheduleExhausted schedule

/-- The facts of one revision have handled its occurrences once and in order, up to the cursor. -/
structure OccurrencesExact (lib : Externals) (schedule : String) (segment : List FactDraft)
    (p : SessionProjection) (record : ScheduleRecord) : Prop where
  handled : segment.flatMap (handledBy lib schedule) = range' 1 record.lastHandledOrdinal
  /-- Until it is fired, an occurrence can only be claimed again, under a later lease. -/
  claims : ∀ (first between rest : List FactDraft) (claimed again : FactDraft),
    segment = first ++ claimed :: between ++ again :: rest →
    claimed.Reports lib .scheduleClaimed schedule → again.Reports lib .scheduleClaimed schedule →
    (∀ fact ∈ between, ¬fact.Reports lib .scheduleFired schedule) →
    ∃ claim renewed, claimed.claim? lib = some claim ∧ again.claim? lib = some renewed ∧
      claim.SameOccurrence renewed ∧ claim.leaseEpoch < renewed.leaseEpoch
  /-- Nothing is claimed, fired or skipped after the end, and nothing can be. -/
  ended : ∀ (first rest : List FactDraft) (ended : FactDraft), segment = first ++ ended :: rest →
    ended.EndsSchedule lib schedule → (∀ fact ∈ rest, ¬fact.Uses lib schedule) ∧
      ∀ fact : FactDraft, fact.Uses lib schedule → ∃ e, p.apply lib fact = .error e

/-- A use is of a kind that writes schedules, and does not create one. -/
theorem FactDraft.Uses.kind (h : fact.Uses lib schedule) : fact.kind.writes = .schedules ∧
    fact.kind ≠ .known .scheduleCreated ∧ payloadText? lib fact "schedule_id" = some schedule := by
  rcases h with ⟨hkind, hsched⟩ | ⟨hkind, hsched⟩ | ⟨hkind, hsched⟩ <;>
    exact ⟨by rw [hkind]; rfl, by rw [hkind]; decide, hsched⟩

/-- A schedule that is not active accepts no use. -/
theorem rejects_of_not_active (hrec : p.schedules[schedule]? = some record)
    (hstate : record.state ≠ .active) (huses : fact.Uses lib schedule) :
    ∃ e, p.apply lib fact = .error e := by
  obtain ⟨hwr, hcreated, hsched⟩ := huses.kind
  cases happly : p.apply lib fact with
  | error e => exact ⟨e, rfl⟩
  | ok p' =>
    have hmove := apply_scheduleMove hwr happly
    generalize p'.schedules = schedules at hmove
    cases hmove with
    | create hkind => exact absurd hkind hcreated
    | advance hnamed hfound hstep =>
      cases hsched.symm.trans hnamed
      cases hrec.symm.trans hfound
      exact absurd hstep.active hstate

/-- A fact that was admitted passes the payload rule of its kind. -/
theorem exists_payload_of_admitted (h : validateRuntimeFact lib fact = .ok .appliedV1) :
    ∃ payload, payloadOf lib fact = .ok payload ∧
      RuntimeFacts.validatePayload lib fact.kind fact.schemaVersion payload = .ok () := by
  unfold validateRuntimeFact at h
  split at h
  · split at h
    · cases h
    · simp only [bind_eq_ok_iff, exists_unit, ensure_eq_ok_iff] at h
      obtain ⟨-, value, hvalue, payload, hpay, hrule, -⟩ := h
      exact ⟨payload, bind_eq_ok_iff.mpr ⟨value, hvalue, hpay⟩, hrule⟩
  · cases h

/-- The payload rule of skipped ranges turns none around. -/
theorem skipsForward_of_admitted (h : validateRuntimeFact lib fact = .ok .appliedV1) :
    SkipsForward lib fact := by
  intro first last hkind hfirst hlast
  obtain ⟨payload, hpay, hrule⟩ := exists_payload_of_admitted h
  rw [payloadNumber?_eq_bind hpay] at hfirst hlast
  rw [hkind] at hrule
  change RuntimeFacts.Scheduler.skipped lib payload = .ok () at hrule
  simp only [RuntimeFacts.Scheduler.skipped, ok_iff] at hrule
  obtain ⟨-, -, -, -, horder, -⟩ := hrule
  have hread : ∀ {key : String} {n : Nat}, (payload.get? key).bind Value.asU64 = some n →
      (RuntimeFacts.indexed payload key).asU64 = some n := by
    intro key n hn
    obtain ⟨_, hvalue, hnumber⟩ := Option.bind_eq_some_iff.mp hn
    rw [RuntimeFacts.indexed, hvalue, Option.getD_some, hnumber]
  rw [hread hfirst, hread hlast] at horder
  have hle : ¬last < first := by simpa [RuntimeFacts.Scheduler.optionGt] using horder
  omega

theorem RevisionRun.occurrencesExact (h : RevisionRun lib schedule facts record)
    (hrec : p.schedules[schedule]? = some record) (hfwd : ∀ fact ∈ facts, SkipsForward lib fact) :
    OccurrencesExact lib schedule facts p record where
  handled := h.handled hfwd
  claims first between rest claimed again hfacts hclaimed hagain hfired := by
    rw [hfacts, append_cons] at h
    obtain ⟨_, hrun⟩ := h.take
    exact hrun.claims_agree hclaimed hagain hfired
  ended first rest ended hfacts hended := by
    subst hfacts
    refine ⟨fun fact hfact huses ↦ ?_,
      fun fact ↦ rejects_of_not_active hrec (h.not_active_of_ended hended)⟩
    obtain ⟨between, _, rfl⟩ := append_of_mem hfact
    rw [← cons_append, ← append_assoc, append_cons] at h
    obtain ⟨_, hrun⟩ := h.take
    obtain ⟨_, hbef, ⟨hother, -⟩ | ⟨-, hstep⟩⟩ := hrun.concat
    · exact hother huses.kind.1 huses.kind.2.2
    · exact hbef.not_active_of_ended hended hstep.active

namespace LedgerState

variable {state : LedgerState} {sessionId : SessionId} {session : SessionLedger}

/-- **Exactly once.** In every session of every reachable ledger whose schedule facts were admitted,
the facts of a schedule between a creation and the next one handle its occurrences once and in order,
up to the cursor of the projection they lead to. -/
theorem occurrences_exactly_once (h : Reachable lib state)
    (hsession : state.sessions[sessionId]? = some session)
    (hadmitted : ∀ fact ∈ session.facts, fact.kind.inNamespace .schedule = true →
      validateRuntimeFact lib fact.toDraft = .ok .appliedV1)
    {before segment after : List FactDraft} {created : FactDraft}
    (hfacts : session.facts.map (·.toDraft) = before ++ created :: segment ++ after)
    (hcreated : created.Reports lib .scheduleCreated schedule)
    (hnext : ∀ fact ∈ segment, ¬fact.Reports lib .scheduleCreated schedule) :
    ∃ (p : SessionProjection) (record : ScheduleRecord),
      Leads lib .any (before ++ created :: segment) p ∧ (after = [] → p = session.projection) ∧
      p.schedules[schedule]? = some record ∧ OccurrencesExact lib schedule segment p record := by
  obtain ⟨hleads, -⟩ := Reachable.leads h hsession
  obtain ⟨p, hp, hlast⟩ : ∃ p, Leads lib .any (before ++ created :: segment) p ∧
      (after = [] → p = session.projection) := by
    rw [hfacts] at hleads
    rcases after with - | ⟨next, after⟩
    · exact ⟨_, by rwa [append_nil] at hleads, fun _ ↦ rfl⟩
    · obtain ⟨p, hp⟩ := hleads.take
      exact ⟨p, hp, fun hnil ↦ by cases hnil⟩
  have hforward : ∀ fact ∈ segment, SkipsForward lib fact := by
    intro fact hfact first last hkind
    have hmem : fact ∈ session.facts.map (·.toDraft) := by
      rw [hfacts]
      simp [hfact]
    obtain ⟨durable, hdurable, rfl⟩ := mem_map.mp hmem
    refine skipsForward_of_admitted (hadmitted durable hdurable ?_) first last hkind
    have hdraft : durable.kind = .known .scheduleSkipped := hkind
    rw [hdraft]
    rfl
  obtain ⟨record, hrecord⟩ := hp.scheduled.known schedule created (by simp) hcreated
  have hrun := hp.scheduled.run schedule record hrecord
  rw [sinceCreated_append_cons hcreated hnext] at hrun
  exact ⟨p, record, hp, hlast, hrecord, hrun.occurrencesExact hrecord hforward⟩

/-! ## A schedule with three occurrences -/

theorem Admissible.payloadText?_eq {disposition : RuntimeFactDisposition} {fields : List (String × Value)}
    (h : Admissible fact disposition fields) (key : String) :
    payloadText? reference fact key = (Object.get? fields key).bind Value.asStr := by
  rw [payloadText?_eq_bind h.payload, Object.get?_ofFields]

/-- The schedule is created. -/
def scheduleStart : FactDraft :=
  scheduleFact ⟨"fact-created", by simp⟩ .scheduleCreated (createScheduleFields "revision-1")

/-- The first occurrence is claimed twice and fired, the next two are skipped, and that is all. -/
def scheduleRest : List FactDraft :=
  [scheduleFact ⟨"fact-claimed", by simp⟩ .scheduleClaimed
      (claimScheduleFields "revision-1" 1 "lease-1" 1),
    scheduleFact ⟨"fact-claimed-again", by simp⟩ .scheduleClaimed
      (claimScheduleFields "revision-1" 1 "lease-2" 2),
    scheduleFact ⟨"fact-fired", by simp⟩ .scheduleFired (fireScheduleFields "revision-1" 1),
    scheduleFact ⟨"fact-skipped", by simp⟩ .scheduleSkipped (skipScheduleFields "revision-1" 2 3),
    scheduleFact ⟨"fact-exhausted", by simp⟩ .scheduleExhausted (exhaustScheduleFields "revision-1" 3)]

/-- An identity for facts whose identity does not matter. -/
def someFact : FactId := ⟨"fact-schedule", by simp⟩

/-- Whether a schedule's fact is admitted does not depend on its identity. -/
theorem admissible_scheduleFact {kind : RuntimeKind} {fields : List (String × Value)}
    {disposition : RuntimeFactDisposition} (id : FactId)
    [h : Admits (scheduleFact someFact kind fields) fields disposition] :
    Admissible (scheduleFact id kind fields) disposition fields :=
  have hwritten : IsWritten (scheduleFact id kind fields) fields := rfl
  (admissible_of_admission hwritten h.holds).2.1

instance : Admits (scheduleFact someFact .scheduleCreated (createScheduleFields "revision-1"))
    (createScheduleFields "revision-1") .appliedV1 := ⟨rfl, by decide +kernel⟩

/-- The run that handles three occurrences. -/
def scheduleRun : WrittenRun :=
  [(scheduleStart :: scheduleRest, [createScheduleFields "revision-1",
    claimScheduleFields "revision-1" 1 "lease-1" 1, claimScheduleFields "revision-1" 1 "lease-2" 2,
    fireScheduleFields "revision-1" 1, skipScheduleFields "revision-1" 2 3,
    exhaustScheduleFields "revision-1" 3])]

instance : Replayed scheduleRun fun p ↦
    p.schedules[runSchedule]?.any (·.lastHandledOrdinal = 3) := ⟨by repeat constructor, by decide +kernel⟩

/-- A reachable ledger with that schedule, whose facts were all admitted. -/
theorem exists_holds_schedule : ∃ state p,
    Holds reference state runSession [[openingFact], scheduleStart :: scheduleRest] p ∧
    p.schedules[runSchedule]?.any (·.lastHandledOrdinal = 3) ∧
    ∀ fact ∈ scheduleStart :: scheduleRest, ∃ fields, Admissible fact .appliedV1 fields := by
  obtain ⟨hadm, state, p, hholds, hcheck⟩ := exists_holds_of_replayed scheduleRun fun p ↦
    p.schedules[runSchedule]?.any (·.lastHandledOrdinal = 3)
  refine ⟨state, p, hholds, hcheck, fun fact hfact ↦ ?_⟩
  have hfirst : ∀ fact ∈ scheduleStart :: scheduleRest,
      fact.kind.admittedVersion? fact.schemaVersion = some .appliedV1 := by decide
  exact (hadm fact (by simpa [scheduleRun] using hfact)).exists_admissible (hfirst fact hfact)

/-- In that ledger three occurrences were handled, once and in order. -/
theorem three_occurrences_once : ∃ (state : LedgerState) (session : SessionLedger)
    (record : ScheduleRecord), Reachable reference state ∧
    state.sessions[runSession]? = some session ∧
    session.facts.map (·.toDraft) = openingFact :: scheduleStart :: scheduleRest ∧
    session.projection.schedules[runSchedule]? = some record ∧ record.lastHandledOrdinal = 3 ∧
    OccurrencesExact reference runSchedule scheduleRest session.projection record := by
  obtain ⟨state, _, hholds, hq, hadmissible⟩ := exists_holds_schedule
  have hsession := hholds.get?_sessions (cons_ne_nil _ _)
  have hfacts : (state.session runSession).facts.map (·.toDraft)
      = [openingFact] ++ scheduleStart :: scheduleRest ++ [] := by
    rw [hholds.facts_eq, map_toDraft_numbered]
    rfl
  have hadmitted : ∀ fact ∈ (state.session runSession).facts,
      fact.kind.inNamespace .schedule = true →
      validateRuntimeFact reference fact.toDraft = .ok .appliedV1 := by
    intro fact hfact hschedule
    have hmem : fact.toDraft ∈ [openingFact] ++ scheduleStart :: scheduleRest ++ [] :=
      hfacts ▸ mem_map_of_mem hfact
    rw [append_nil, singleton_append, mem_cons] at hmem
    rcases hmem with hopening | hmem
    · have hkind : fact.kind = .known .sessionOpened := congrArg (·.kind) hopening
      rw [hkind] at hschedule
      cases hschedule
    · obtain ⟨_, h⟩ := hadmissible _ hmem
      exact h.admitted
  have hcreated : scheduleStart.Reports reference .scheduleCreated runSchedule := by
    refine ⟨rfl, ?_⟩
    rw [scheduleStart, (admissible_scheduleFact _).payloadText?_eq]
    simp [createScheduleFields]
  have hnone : ∀ fact ∈ scheduleRest, fact.kind ≠ .known .scheduleCreated := by decide
  obtain ⟨_, record, -, hlast, hrecord, hexact⟩ := occurrences_exactly_once hholds.reachable hsession
    hadmitted hfacts hcreated fun fact hfact hreports ↦ hnone fact hfact hreports.1
  rw [hlast rfl] at hrecord hexact
  refine ⟨state, _, record, hholds.reachable, hsession, hfacts.trans (append_nil _), hrecord, ?_,
    hexact⟩
  rw [hholds.projection_eq] at hrecord
  rw [hrecord] at hq
  exact of_decide_eq_true hq

end LedgerState

end Garive
