import Garive.Ledger.Schedules

/-!
# Revisions of a schedule

A schedule gets a new revision by superseding the current one, and its cursor starts again at zero. The
new revision is compared with the current one only, so a schedule can go back to a revision it had
before and handle the same ordinals under it again. As long as every revision is new to its schedule,
an occurrence is told by schedule, revision and ordinal, and it is fired once at most.
-/

namespace Garive

open SessionProjection List

/-- The schedule and the revision that a fact creates. -/
def createdKey (lib : Externals) (fact : FactDraft) : Option (String × String) :=
  if fact.kind = .known .scheduleCreated then do
    return (← payloadText? lib fact "schedule_id", ← payloadText? lib fact "revision_id")
  else none

/-- The schedule, the revision and the ordinal that a fact fires. -/
def firedKey (lib : Externals) (fact : FactDraft) : Option (String × String × Nat) :=
  if fact.kind = .known .scheduleFired then do
    return (← payloadText? lib fact "schedule_id", ← payloadText? lib fact "revision_id",
      ← payloadNumber? lib fact "ordinal")
  else none

/-- A revision that the fact creates is new to its schedule. -/
def FreshRevision (lib : Externals) (history : List FactDraft) (fact : FactDraft) : Prop :=
  ∀ key, createdKey lib fact = some key → key ∉ history.filterMap (createdKey lib)

variable {lib : Externals} {history : List FactDraft} {fact : FactDraft} {p : SessionProjection}
  {schedule : String} {record next : ScheduleRecord}

/-- What was created and fired, against the records. -/
structure RevisionsKept (lib : Externals) (history : List FactDraft)
    (schedules : Map String ScheduleRecord) : Prop where
  /-- The revision of a record was created. -/
  current : ∀ (schedule : String) (record : ScheduleRecord), schedules[schedule]? = some record →
    (schedule, record.revisionId) ∈ history.filterMap (createdKey lib)
  /-- What was fired belongs to a revision that was created. -/
  owned : ∀ key ∈ history.filterMap (firedKey lib),
    (key.1, key.2.1) ∈ history.filterMap (createdKey lib)
  /-- What was fired under the revision of a record is behind its cursor. -/
  behind : ∀ key ∈ history.filterMap (firedKey lib), ∀ record : ScheduleRecord,
    schedules[key.1]? = some record → record.revisionId = key.2.1 →
    key.2.2 ≤ record.lastHandledOrdinal
  created_nodup : (history.filterMap (createdKey lib)).Nodup
  fired_nodup : (history.filterMap (firedKey lib)).Nodup

variable {schedules : Map String ScheduleRecord}

/-- A fact that neither creates nor fires leaves the keys as they are. -/
theorem RevisionsKept.quiet {schedules' : Map String ScheduleRecord}
    (h : RevisionsKept lib history schedules) (hcreated : createdKey lib fact = none)
    (hfired : firedKey lib fact = none)
    (hcur : ∀ (schedule : String) (record : ScheduleRecord), schedules'[schedule]? = some record → ∃ before : ScheduleRecord, schedules[schedule]? = some before ∧ record.revisionId = before.revisionId ∧ before.lastHandledOrdinal ≤ record.lastHandledOrdinal) :
    RevisionsKept lib (history ++ [fact]) schedules' := by
  have hkeys := filterMap_concat_none hcreated history
  have hkeys' := filterMap_concat_none hfired history
  refine ⟨fun schedule record hrec ↦ ?_, ?_, fun key hkey record hrec hrev ↦ ?_, ?_, ?_⟩
  · obtain ⟨before, hbef, hsame, -⟩ := hcur schedule record hrec
    rw [hkeys, hsame]
    exact h.current schedule before hbef
  · rw [hkeys, hkeys']
    exact h.owned
  · rw [hkeys'] at hkey
    obtain ⟨before, hbef, hsame, hle⟩ := hcur key.1 record hrec
    exact (h.behind key hkey before hbef (hsame.symm.trans hrev)).trans hle
  · rw [hkeys]
    exact h.created_nodup
  · rw [hkeys']
    exact h.fired_nodup

/-- A new revision. -/
theorem RevisionsKept.create (h : RevisionsKept lib history p.schedules)
    (hkey : createdKey lib fact = some (schedule, record.revisionId)) (hfired : firedKey lib fact = none)
    (hfresh : FreshRevision lib history fact) :
    RevisionsKept lib (history ++ [fact]) (p.schedules.insert schedule record) := by
  have hkeys := filterMap_concat_some hkey history
  have hkeys' := filterMap_concat_none hfired history
  have hnew := hfresh _ hkey
  refine ⟨fun other found hfound ↦ ?_, fun key hmem ↦ ?_, fun key hmem found hfound hrev ↦ ?_, ?_, ?_⟩
  · rw [hkeys, mem_append, mem_singleton]
    rcases Map.of_get?_insert hfound with ⟨heq, rfl⟩ | hfound
    · exact .inr (by rw [heq])
    · exact .inl (h.current other found hfound)
  · rw [hkeys, mem_append]
    exact .inl (h.owned key (hkeys' ▸ hmem))
  · rw [hkeys'] at hmem
    rcases Map.of_get?_insert hfound with ⟨heq, rfl⟩ | hfound
    · -- Nothing was fired under the revision yet.
      rw [heq, hrev] at hnew
      exact absurd (h.owned key hmem) hnew
    · exact h.behind key hmem found hfound hrev
  · rw [hkeys, ← concat_eq_append]
    exact h.created_nodup.concat hnew
  · rw [hkeys']
    exact h.fired_nodup

/-- The next occurrence is fired. -/
theorem RevisionsKept.fire (h : RevisionsKept lib history p.schedules)
    (hrec : p.schedules[schedule]? = some record) (hcreated : createdKey lib fact = none)
    (hrev : next.revisionId = record.revisionId)
    (hlast : next.lastHandledOrdinal = record.lastHandledOrdinal + 1)
    (hkey : firedKey lib fact = some (schedule, record.revisionId, record.lastHandledOrdinal + 1)) :
    RevisionsKept lib (history ++ [fact]) (p.schedules.insert schedule next) := by
  have hkeys := filterMap_concat_none hcreated history
  have hkeys' := filterMap_concat_some hkey history
  have hcur := h.current schedule record hrec
  refine ⟨fun other found hfound ↦ ?_, fun key hmem ↦ ?_, fun key hmem found hfound hsame ↦ ?_, ?_, ?_⟩
  · rw [hkeys]
    rcases Map.of_get?_insert hfound with ⟨heq, rfl⟩ | hfound
    · rw [← heq, hrev]
      exact hcur
    · exact h.current other found hfound
  · rw [hkeys]
    rw [hkeys', mem_append, mem_singleton] at hmem
    rcases hmem with hold | rfl
    · exact h.owned key hold
    · exact hcur
  · rw [hkeys', mem_append, mem_singleton] at hmem
    rw [Map.get?_insert] at hfound
    rcases hmem with hold | rfl
    · split at hfound
      · rename_i heq
        cases hfound
        have hle := h.behind key hold record (heq ▸ hrec) (hrev.symm.trans hsame)
        omega
      · exact h.behind key hold found hfound hsame
    · rw [if_pos rfl] at hfound
      cases hfound
      exact hlast.ge
  · rw [hkeys]
    exact h.created_nodup
  · rw [hkeys', ← concat_eq_append]
    refine h.fired_nodup.concat fun hmem ↦ ?_
    have hle := h.behind _ hmem record hrec rfl
    dsimp only at hle
    omega

/-- Keys of other kinds. -/
theorem createdKey_of_ne (h : fact.kind ≠ .known .scheduleCreated) : createdKey lib fact = none :=
  if_neg h

theorem firedKey_of_ne (h : fact.kind ≠ .known .scheduleFired) : firedKey lib fact = none :=
  if_neg h

/-- A step of a schedule that does not fire keeps the revision and does not move the cursor back. -/
theorem SessionProjection.ScheduleStep.le_of_ne_fired (h : ScheduleStep lib fact record next)
    (hfwd : SkipsForward lib fact) (hfired : fact.kind ≠ .known .scheduleFired) :
    record.lastHandledOrdinal ≤ next.lastHandledOrdinal := by
  cases h with
  | claim | cancel | fail | exhaust => exact le_rfl
  | fire hkind => exact absurd hkind hfired
  | skip hkind _ _ _ hfirst hlast =>
    have hle := hfwd _ _ hkind hfirst hlast
    dsimp only
    omega

/-- A move of the schedules under the condition. -/
theorem RevisionsKept.move (h : RevisionsKept lib history p.schedules)
    (hscheduled : Scheduled lib history p.schedules) (hfresh : FreshRevision lib history fact)
    (hfwd : SkipsForward lib fact) (hmove : ScheduleMove lib p fact schedules) :
    RevisionsKept lib (history ++ [fact]) schedules := by
  cases hmove with
  | @create schedule record hkind hsched hrev =>
    refine h.create ?_ (firedKey_of_ne (by simp [hkind])) hfresh
    rw [createdKey, if_pos hkind, hsched, hrev]
    rfl
  | @advance schedule record next hsched hrec hstep =>
    have hcreated : createdKey lib fact = none := createdKey_of_ne hstep.kind.2
    by_cases hfired : fact.kind = .known .scheduleFired
    · cases hstep with
      | @fire pending hkind _ hrev hpend hord =>
        have hnext := (hscheduled.run schedule record hrec).pending_ordinal hpend
        refine h.fire hrec hcreated rfl hnext ?_
        rw [firedKey, if_pos hkind, hsched, hrev, hord, hnext]
        rfl
      | claim hkind | skip hkind | cancel hkind | fail hkind | exhaust hkind =>
        rw [hfired] at hkind
        cases hkind
    · refine h.quiet hcreated (firedKey_of_ne hfired) fun other found hfound ↦ ?_
      rcases Map.of_get?_insert hfound with ⟨heq, rfl⟩ | hfound
      · exact ⟨record, heq ▸ hrec, hstep.revisionId_eq, hstep.le_of_ne_fired hfwd hfired⟩
      · exact ⟨found, hfound, rfl, le_rfl⟩

/-- Along a course whose revisions are fresh and whose skips go forward. -/
theorem Leads.revisionsKept
    (h : Leads lib (fun history _ fact ↦ FreshRevision lib history fact ∧ SkipsForward lib fact) history p) :
    RevisionsKept lib history p.schedules := by
  induction h with
  | empty => exact ⟨by simp, by simp, by simp, .nil, .nil⟩
  | commit _ _ ih => exact ih
  | @fact history p p' fact hbef hcond happly ih =>
    by_cases hwr : fact.kind.writes = .schedules
    · exact ih.move hbef.scheduled hcond.1 hcond.2 (apply_scheduleMove hwr happly)
    · rw [(apply_keeps happly).schedules_eq hwr]
      refine ih.quiet (createdKey_of_ne ?_) (firedKey_of_ne ?_) fun _ found hfound ↦
        ⟨found, hfound, rfl, le_rfl⟩
      · rintro hkind
        exact hwr (by rw [hkind]; rfl)
      · rintro hkind
        exact hwr (by rw [hkind]; rfl)

namespace LedgerState

variable {state : LedgerState} {sessionId : SessionId} {session : SessionLedger}

variable {fields : List (String × Value)} {kind : RuntimeKind} {id : FactId}

theorem createdKey_scheduleFact (h : kind ≠ .scheduleCreated) :
    createdKey lib (scheduleFact id kind fields) = none :=
  createdKey_of_ne fun hkind ↦ h (FactKind.known.inj hkind)

theorem firedKey_scheduleFact (h : kind ≠ .scheduleFired) :
    firedKey lib (scheduleFact id kind fields) = none :=
  firedKey_of_ne fun hkind ↦ h (FactKind.known.inj hkind)

variable {revision : String}

theorem createdKey_createSchedule (id : FactId)
    [Admits (scheduleFact someFact .scheduleCreated (createScheduleFields revision))
      (createScheduleFields revision) .appliedV1] :
    createdKey reference (scheduleFact id .scheduleCreated (createScheduleFields revision))
      = some (runSchedule, revision) := by
  have hfact : Admissible (scheduleFact id .scheduleCreated (createScheduleFields revision)) _ _ :=
    admissible_scheduleFact id
  have hkind : (scheduleFact id .scheduleCreated (createScheduleFields revision)).kind
      = .known .scheduleCreated := rfl
  rw [createdKey, if_pos hkind, hfact.payloadText?_eq, hfact.payloadText?_eq]
  simp [createScheduleFields]

theorem firedKey_fireSchedule {ordinal : Nat} (id : FactId)
    [Admits (scheduleFact someFact .scheduleFired (fireScheduleFields revision ordinal))
      (fireScheduleFields revision ordinal) .appliedV1] :
    firedKey reference (scheduleFact id .scheduleFired (fireScheduleFields revision ordinal))
      = some (runSchedule, revision, ordinal) := by
  have hfact : Admissible (scheduleFact id .scheduleFired (fireScheduleFields revision ordinal)) _ _ :=
    admissible_scheduleFact id
  have hkind : (scheduleFact id .scheduleFired (fireScheduleFields revision ordinal)).kind
      = .known .scheduleFired := rfl
  rw [firedKey, if_pos hkind, hfact.payloadText?_eq, hfact.payloadText?_eq,
    payloadNumber?_eq_bind hfact.payload, Object.get?_ofFields]
  simp [fireScheduleFields, Number.asU64]

instance : Admits (scheduleFact someFact .scheduleFired (fireScheduleFields "revision-1" 1))
    (fireScheduleFields "revision-1" 1) .appliedV1 := ⟨rfl, by decide +kernel⟩

/-- The schedule with three occurrences has one revision and one firing. -/
theorem keys_scheduleRest :
    (openingFact :: scheduleStart :: scheduleRest).filterMap (createdKey reference)
      = [(runSchedule, "revision-1")] ∧
    (openingFact :: scheduleStart :: scheduleRest).filterMap (firedKey reference)
      = [(runSchedule, "revision-1", 1)] := by
  have hopening : createdKey reference openingFact = none := createdKey_of_ne (by decide)
  have hopening' : firedKey reference openingFact = none := firedKey_of_ne (by decide)
  constructor
  · simp [scheduleStart, scheduleRest, hopening, createdKey_createSchedule, createdKey_scheduleFact]
  · simp [scheduleStart, scheduleRest, hopening', firedKey_fireSchedule, firedKey_scheduleFact]

/-- A schedule that goes back to its first revision, and fires the first occurrence under it again. -/
def revisionBatch : List FactDraft :=
  [scheduleFact ⟨"fact-created-a", by simp⟩ .scheduleCreated (createScheduleFields "revision-a"),
    scheduleFact ⟨"fact-claimed-a", by simp⟩ .scheduleClaimed
      (claimScheduleFields "revision-a" 1 "lease-1" 1),
    scheduleFact ⟨"fact-fired-a", by simp⟩ .scheduleFired (fireScheduleFields "revision-a" 1),
    scheduleFact ⟨"fact-superseded-a", by simp⟩ .scheduleCancelled (supersedeScheduleFields "revision-a"),
    scheduleFact ⟨"fact-created-b", by simp⟩ .scheduleCreated (createScheduleFields "revision-b"),
    scheduleFact ⟨"fact-superseded-b", by simp⟩ .scheduleCancelled (supersedeScheduleFields "revision-b"),
    scheduleFact ⟨"fact-created-again", by simp⟩ .scheduleCreated (createScheduleFields "revision-a"),
    scheduleFact ⟨"fact-claimed-a-again", by simp⟩ .scheduleClaimed
      (claimScheduleFields "revision-a" 1 "lease-2" 2),
    scheduleFact ⟨"fact-fired-again", by simp⟩ .scheduleFired (fireScheduleFields "revision-a" 1)]

/-- The run that fires the first occurrence twice. -/
def revisionRun : WrittenRun :=
  [(revisionBatch, [createScheduleFields "revision-a", claimScheduleFields "revision-a" 1 "lease-1" 1,
    fireScheduleFields "revision-a" 1, supersedeScheduleFields "revision-a",
    createScheduleFields "revision-b", supersedeScheduleFields "revision-b",
    createScheduleFields "revision-a", claimScheduleFields "revision-a" 1 "lease-2" 2,
    fireScheduleFields "revision-a" 1])]

instance : Replayed revisionRun fun _ ↦ true := ⟨by repeat constructor, by decide +kernel⟩

instance : Admits (scheduleFact someFact .scheduleCreated (createScheduleFields "revision-a"))
    (createScheduleFields "revision-a") .appliedV1 := ⟨rfl, by decide +kernel⟩

instance : Admits (scheduleFact someFact .scheduleCreated (createScheduleFields "revision-b"))
    (createScheduleFields "revision-b") .appliedV1 := ⟨rfl, by decide +kernel⟩

instance : Admits (scheduleFact someFact .scheduleFired (fireScheduleFields "revision-a" 1))
    (fireScheduleFields "revision-a" 1) .appliedV1 := ⟨rfl, by decide +kernel⟩

end LedgerState

end Garive
