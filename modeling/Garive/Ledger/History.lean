import Garive.Ledger.Projection.Step
import Garive.Ledger.Representation
import Garive.Ledger.Written

/-!
# Histories of one session

A ledger that holds a single session is determined by the batches committed to it. `Holds` says that
a state is what a given list of batches leads to, and `Holds.commit` extends the list by one batch:
it is enough that the batch's facts are new and valid and that the projection accepts them.
Concrete runs are not put together by hand: `replay` decides from the fields of their facts whether
they can be committed, and a run that can be replayed leads to a reachable ledger.
-/

namespace Garive

open SessionProjection CanonicalPayload List

namespace LedgerState

variable {lib : Externals} {state : LedgerState} {sessionId : SessionId}
  {batches : List (List FactDraft)} {projection next : SessionProjection} {batch : List FactDraft}

/-- The state is what committing the batches to one session leads to. -/
structure Holds (lib : Externals) (state : LedgerState) (sessionId : SessionId)
    (batches : List (List FactDraft)) (projection : SessionProjection) : Prop where
  reachable : Reachable lib state
  records : (state.session sessionId).Records sessionId batches.flatten
  version_eq : (state.session sessionId).version = batches.length
  projection_eq : (state.session sessionId).projection = projection
  indexed : ∀ (id : FactId) (entry : FactIndexEntry), state.factIndex[id]? = some entry →
    entry.sessionId = sessionId ∧ id ∈ batches.flatten.map (·.factId)

theorem holds_empty (lib : Externals) (sessionId : SessionId) :
    Holds lib {} sessionId [] {} where
  reachable := (ledgerMachine lib).reachable_init
  records := by simpa [session] using SessionLedger.records_empty sessionId
  version_eq := by simp [session]
  projection_eq := by simp [session]
  indexed id entry h := by simp at h

/-- What a batch needs in order to follow a history. -/
structure Follows (lib : Externals) (batches : List (List FactDraft))
    (projection : SessionProjection) (batch : List FactDraft) (next : SessionProjection) :
    Prop where
  nonempty : batch ≠ []
  valid : ∀ draft ∈ batch, draft.validate lib = .ok ()
  admitted : ∀ draft ∈ batch, ∃ disposition, validateRuntimeFact lib draft = .ok disposition
  nodup : ((batches.flatten ++ batch).map (·.factId)).Nodup
  accepted : projection.beginCommit.applyAll lib batch = .ok next
  boundary : next.validateCommitBoundary = .ok ()
  fits : batches.length + batches.flatten.length + batch.length + 1 < 2 ^ 64

theorem Holds.appends (h : Holds lib state sessionId batches projection)
    (hb : Follows lib batches projection batch next) :
    Appends lib state sessionId batches.length batch (batches.flatten.length + 1) next := by
  have hfits := hb.fits
  have hnodup := hb.nodup
  rw [map_append, nodup_append] at hnodup
  have hfresh : ∀ draft ∈ batch, state.factIndex[draft.factId]? = none := by
    intro draft hd
    by_contra hsome
    obtain ⟨entry, hentry⟩ := Option.ne_none_iff_exists'.mp hsome
    exact hnodup.2.2 _ (h.indexed _ _ hentry).2 _ (mem_map_of_mem hd) rfl
  have hposition : (state.session sessionId).nextPosition = .ok (batches.flatten.length + 1) := by
    rw [h.records.nextPosition_eq, if_pos (by omega)]
  refine ⟨hb.nonempty, ?_, hnodup.2.1, hfresh, h.version_eq, hposition,
    h.projection_eq ▸ hb.accepted, hb.boundary, by omega, by omega⟩
  intro draft hd
  refine ⟨hb.valid draft hd, hb.admitted draft hd, ?_, ?_⟩
  · rw [identityOwnedByOtherSession, Map.any_eq_false_iff]
    intro id entry hentry
    simp [(h.indexed id entry hentry).1]
  · intro existing hexisting
    rw [hfresh draft hd] at hexisting
    cases hexisting

/-- Committing a batch that follows the history extends it. -/
theorem Holds.commit (h : Holds lib state sessionId batches projection)
    (hb : Follows lib batches projection batch next) :
    ∃ after, state.commit lib sessionId batches.length batch =
        (.ok ⟨.committed, batches.length + 1,
          range' (batches.flatten.length + 1) batch.length⟩, after) ∧
      Holds lib after sessionId (batches ++ [batch]) next := by
  have happ := h.appends hb
  have hcom := commit_of_appends happ
  refine ⟨_, hcom, ?_⟩
  have hsess : ∀ p, (state.appended sessionId batch p next).session sessionId =
      { (state.session sessionId).extended sessionId p batch next with
        version := (state.session sessionId).version + 1 } := fun p ↦ by
    rw [session_appended, if_pos rfl]
  have hflatten : (batches ++ [batch]).flatten = batches.flatten ++ batch := by simp
  constructor
  · have hstep := h.reachable.step (m := ledgerMachine lib) ⟨sessionId, batches.length, batch⟩
    rwa [show (ledgerMachine lib).step state ⟨sessionId, batches.length, batch⟩
      = state.commit lib sessionId batches.length batch from rfl, hcom] at hstep
  · rw [hsess, hflatten]
    exact h.records.extended batch next _
  · rw [hsess]
    simp [h.version_eq]
  · rw [hsess]
    rfl
  · intro id entry hentry
    rw [hflatten, map_append, mem_append]
    rcases (get?_factIndex_appended happ id entry).mp hentry with
      hold | ⟨offset, draft, hget, rfl, rfl⟩
    · exact ⟨(h.indexed id entry hold).1, .inl (h.indexed id entry hold).2⟩
    · exact ⟨rfl, .inr (mem_map_of_mem (mem_of_getElem? hget))⟩

/-- The facts of a session's only history, in order. -/
theorem Holds.facts_eq (h : Holds lib state sessionId batches projection) :
    (state.session sessionId).facts = numbered sessionId 1 batches.flatten :=
  h.records.facts_eq

/-- A session with a history exists. -/
theorem Holds.get?_sessions (h : Holds lib state sessionId batches projection)
    (hne : batches ≠ []) : state.sessions[sessionId]? = some (state.session sessionId) := by
  cases hsess : state.sessions[sessionId]? with
  | some found => rw [session_of_get? hsess]
  | none =>
    have hver := h.version_eq
    rw [session, hsess, Option.getD_none] at hver
    exact absurd (length_eq_zero_iff.mp hver.symm) hne

/-! ## A concrete session -/

/-- The session of the concrete runs. -/
def runSession : SessionId := ⟨"session-1", by simp⟩

/-- The fact that opens it. -/
def openingFact : FactDraft :=
  referenceFact ⟨"fact-opened", by simp⟩ .sessionOpened (.object [])

theorem validate_openingFact : openingFact.validate reference = .ok () :=
  have hexact : (Value.object []).Exact := by simp [Value.Exact, Value.ExactMembers]
  validate_reference (by decide) hexact rfl rfl

/-- The opening can be the first commit of a ledger. -/
theorem follows_opening : Follows reference [] {} [openingFact] { opened := true } where
  nonempty := cons_ne_nil _ _
  valid := by
    rw [forall_mem_singleton]
    exact validate_openingFact
  admitted := by
    rw [forall_mem_singleton]
    exact ⟨.opaqueFact, rfl⟩
  nodup := by simp
  accepted := by
    have hkind : openingFact.kind = .known .sessionOpened := rfl
    simp [applyAll, apply, validate_openingFact, hkind,
      openSession, beginCommit]
  boundary := by simp [validateCommitBoundary, Map.any]
  fits := by decide

/-- The ledger after the opening. -/
theorem exists_holds_opening :
    ∃ state, Holds reference state runSession [[openingFact]] { opened := true } := by
  obtain ⟨state, -, hholds⟩ := (holds_empty reference runSession).commit follows_opening
  exact ⟨state, hholds⟩

/-! ## A concrete turn -/

/-- The turn of the concrete runs. -/
def runTurn : TurnId := ⟨"turn-1", by simp⟩

/-- Its first execution. -/
def runExecution : ExecutionId := ⟨"execution-1", by simp⟩

/-- A fact of the turn, written from fields. -/
def turnFact (id : FactId) (kind : RuntimeKind) (fields : List (String × Value)) : FactDraft :=
  { referenceFact id kind (json fields) with turnId := some runTurn }

/-- A fact of the execution, written from fields. -/
def executionFact (id : FactId) (kind : RuntimeKind) (fields : List (String × Value)) : FactDraft :=
  { turnFact id kind fields with executionId := some runExecution }

/-- The digest of the concrete payloads. -/
def runDigest : Value := .string (Sha256.hex "")

/-- The fields of the turn's start. -/
def turnStartFields : List (String × Value) :=
  [("command_id", .string "command-1"), ("kind", .string "start"),
    ("agent_instance_id", .string "agent-1"), ("definition_id", .string "definition-1"),
    ("definition_revision", .string "revision-1"), ("snapshot_digest", runDigest),
    ("trusted_input_digest", runDigest)]

/-- The start of the turn. -/
def turnStart : FactDraft := turnFact ⟨"fact-turn-started", by simp⟩ .turnStarted turnStartFields

/-- The fields of the execution's start. -/
def executionStartFields : List (String × Value) :=
  [("snapshot_digest", runDigest), ("through_position", .number (.posInt 1)),
    ("completed_iterations", .number (.posInt 0)),
    ("limits", json [("max_iterations", .number (.posInt 8))]),
    ("recovery_ordinal", .number (.posInt 0))]

/-- The start of its execution. -/
def executionStart : FactDraft :=
  executionFact ⟨"fact-execution-started", by simp⟩ .executionStarted executionStartFields

/-! ## Facts that pass both validations -/

variable {fields : List (String × Value)} {kind : RuntimeKind} {disposition : RuntimeFactDisposition}
  {fact : FactDraft} {p q : SessionProjection}

/-- The fact passes both validations and reads back as its fields. -/
structure Admissible (fact : FactDraft) (disposition : RuntimeFactDisposition)
    (fields : List (String × Value)) : Prop where
  valid : fact.validate reference = .ok ()
  admitted : validateRuntimeFact reference fact = .ok disposition
  payload : payloadOf reference fact = .ok (.ofFields fields)

/-- A fact of a known kind, applied to an open session. -/
theorem apply_known (hvalid : fact.validate lib = .ok ()) (hkind : fact.kind = .known kind)
    (hother : kind ≠ .sessionOpened) (hopened : p.opened) (hclosed : p.closed = false) :
    p.apply lib fact = p.applyKind lib fact kind := by
  simp [apply, hvalid, hkind, hother, hopened, hclosed]

/-- A batch, applied one fact after the other. -/
theorem applyAll_cons {r : SessionProjection} {rest : List FactDraft}
    (hfact : p.apply lib fact = .ok q) (hrest : q.applyAll lib rest = .ok r) :
    p.applyAll lib (fact :: rest) = .ok r := by
  rw [applyAll, hfact, ok_bind, hrest]

/-! ## Replaying written facts

A run on written facts is decided from their fields. Each payload is replaced by a token that stands
for the fields, so that replaying a run encodes and parses no payload. -/

/-- The token that stands for a payload. -/
def token : CanonicalPayload := ⟨"payload", ""⟩

/-- The libraries, with the token read as the fields. -/
def reading (fields : List (String × Value)) : Externals :=
  { reference with
    fromStr text := if text = token.json then some (json fields) else reference.fromStr text }

/-- The field does not bind the token as its content. -/
def isTokenFree (entry : String × Value) : Bool :=
  entry.2.asObject.all fun members ↦ (members.get? "inline_utf8").bind Value.asStr != some token.json

/-- How a fact that was written from the fields is admitted. -/
def admission (fact : FactDraft) (fields : List (String × Value)) : Option RuntimeFactDisposition :=
  if fact.schemaVersion ≠ 0 ∧ reference.parseFromRfc3339 fact.recordedAt = true ∧
      (fields.all fun entry ↦ entry.2.isStored && decide (entry.2.depth ≤ 126)) = true ∧
      fact.kind.isRuntime = true ∧ fact.envelopeMatches = true ∧
      RuntimeFacts.validatePayload reference fact.kind fact.schemaVersion (.ofFields fields) = .ok () then
    fact.kind.admittedVersion? fact.schemaVersion
  else none

/-- Applies a fact that was written from the fields. -/
def applyWritten (p : SessionProjection) (fact : FactDraft) (fields : List (String × Value)) :
    Except LedgerError SessionProjection := do
  ensure ((admission fact fields).isSome = true ∧ fields.all isTokenFree = true ∧
    p.opened = true ∧ p.closed = false ∧ fact.kind ≠ .known .sessionOpened) .invalidFact
  match fact.kind with
  | .known kind => p.applyKind (reading fields) { fact with payload := token } kind
  | .other _ _ _ => .error .invalidFact

/-- Applies written facts one after the other. -/
def applyAllWritten (p : SessionProjection) :
    List FactDraft → List (List (String × Value)) → Except LedgerError SessionProjection
  | [], [] => .ok p
  | fact :: facts, fields :: rest => do
    let q ← applyWritten p fact fields
    applyAllWritten q facts rest
  | _, _ => .error .invalidFact

/-- The batches of a run, each with the fields its facts were written from. -/
abbrev WrittenRun := List (List FactDraft × List (List (String × Value)))

/-- Commits the batches of a run after those of a history. -/
def replay (batches : List (List FactDraft)) (p : SessionProjection) :
    WrittenRun → Except LedgerError SessionProjection
  | [] => .ok p
  | (batch, fields) :: rest => do
    ensure (batch ≠ [] ∧ ((batches.flatten ++ batch).map (·.factId)).Nodup ∧
      batches.length + batches.flatten.length + batch.length + 1 < 2 ^ 64) .invalidFact
    let q ← applyAllWritten p.beginCommit batch fields
    q.validateCommitBoundary
    replay (batches ++ [batch]) q rest

/-- The fact was written from the fields. -/
def IsWritten (fact : FactDraft) (fields : List (String × Value)) : Prop :=
  fact.payload = referencePayload (json fields)

/-- The fact, written from the fields, is admitted. -/
class Admits (fact : FactDraft) (fields : outParam (List (String × Value)))
    (disposition : outParam RuntimeFactDisposition) : Prop where
  written : IsWritten fact fields
  holds : admission fact fields = some disposition

/-- The replay of a written run succeeds and ends as the check asks. -/
class Replayed (run : WrittenRun) (check : SessionProjection → Bool) : Prop where
  written : run.Forall fun entry ↦ List.Forall₂ IsWritten entry.1 entry.2
  holds : (replay [[openingFact]] { opened := true } run).toOption.any check = true

/-- A written fact with an admission passes both validations. -/
theorem admissible_of_admission (hwritten : IsWritten fact fields)
    (h : admission fact fields = some disposition) :
    Written reference fact fields ∧ Admissible fact disposition fields ∧
      fact.kind.admittedVersion? fact.schemaVersion = some disposition := by
  rw [admission, Option.ite_none_right_eq_some] at h
  obtain ⟨⟨hver, htime, hfields, hruntime, henv, hrule⟩, hadm⟩ := h
  have hplain : ∀ entry ∈ fields, entry.2.Plain 126 := by
    intro entry hentry
    have hchecked := all_eq_true.mp hfields entry hentry
    rw [Bool.and_eq_true, decide_eq_true_eq] at hchecked
    have hstored := Value.stored_of_isStored _ hchecked.1
    exact ⟨hstored.1, hchecked.2, hstored.2⟩
  have hfact : Written reference fact fields :=
    ⟨hwritten ▸ fromValue_referencePayload (Value.plain_json hplain).exact, hplain⟩
  exact ⟨hfact, ⟨hfact.validate_eq hver htime,
    hfact.validateRuntimeFact_eq reference_documented hruntime hadm henv hrule,
    hfact.payloadOf_eq reference_documented⟩, hadm⟩

theorem Admits.admissible (fact : FactDraft) {fields : List (String × Value)}
    {disposition : RuntimeFactDisposition} [h : Admits fact fields disposition] :
    Written reference fact fields ∧ Admissible fact disposition fields ∧
      fact.kind.admittedVersion? fact.schemaVersion = some disposition :=
  admissible_of_admission h.written h.holds

/-- The fact was written from fields, and is admitted as its version asks. -/
def IsAdmitted (fact : FactDraft) : Prop :=
  ∃ disposition fields, Written reference fact fields ∧ Admissible fact disposition fields ∧
    fact.kind.admittedVersion? fact.schemaVersion = some disposition

theorem IsAdmitted.exists_admissible (h : IsAdmitted fact)
    (hver : fact.kind.admittedVersion? fact.schemaVersion = some disposition) :
    ∃ fields, Admissible fact disposition fields := by
  obtain ⟨_, fields, -, hfact, hsome⟩ := h
  cases hsome.symm.trans hver
  exact ⟨fields, hfact⟩

theorem contentValue_reading (h : fields.all isTokenFree) (key : String) :
    contentValue reference (.ofFields fields) key = contentValue (reading fields) (.ofFields fields) key := by
  rw [contentValue, contentValue]
  refine bind_congr_ok fun binding hbind ↦ bind_congr_ok fun text htext ↦ bind_congr_ok fun sha _ ↦ ?_
  have hne : text ≠ token.json := by
    rintro rfl
    simp only [objectOf, textOf, okOr_eq_ok_iff, Object.get?_ofFields] at hbind htext
    obtain ⟨_, hvalue, hmembers⟩ := Option.bind_eq_some_iff.mp hbind
    obtain ⟨entry, hentry, rfl⟩ := Option.map_eq_some_iff.mp hvalue
    have hfree := all_eq_true.mp h entry (mem_of_find?_eq_some hentry)
    simp [isTokenFree, hmembers, htext] at hfree
  have hread : (reading fields).fromStr text = reference.fromStr text := if_neg hne
  have hparts : fromCanonicalParts (reading fields) text sha
      = fromCanonicalParts reference text sha := by
    rw [fromCanonicalParts, hread]
    rfl
  rw [hparts]
  refine bind_congr_ok fun canonical hcanonical ↦ ?_
  have hjson : canonical.json = text := by
    cases hcan : fromCanonicalParts reference text sha with
    | error _ => rw [hcan] at hcanonical; cases hcanonical
    | ok _ =>
      rw [hcan] at hcanonical
      cases hcanonical
      rw [(fromCanonicalParts_eq_ok_iff.mp hcan).1]
  rw [hjson, hread]

/-- What is applied from the fields is applied by the projection. -/
theorem apply_of_applyWritten (hwritten : IsWritten fact fields)
    (h : applyWritten p fact fields = .ok q) :
    (∃ disposition, admission fact fields = some disposition) ∧ p.apply reference fact = .ok q := by
  simp only [applyWritten, ok_iff] at h
  obtain ⟨⟨hadm, hfree, hopened, hclosed, hkind⟩, h⟩ := h
  obtain ⟨disposition, hadm⟩ := Option.isSome_iff_exists.mp hadm
  have hfact := (admissible_of_admission hwritten hadm).2.1
  refine ⟨⟨disposition, hadm⟩, ?_⟩
  cases hk : fact.kind with
  | other =>
    rw [hk] at h
    cases h
  | known kind =>
    simp only [hk] at h
    rw [apply_known hfact.valid hk (fun heq ↦ hkind (heq ▸ hk)) hopened hclosed, ← h, ← hk]
    exact applyKind_congr token hfact.payload rfl (contentValue_reading hfree)

theorem applyAll_of_written {facts : List FactDraft} {fieldss : List (List (String × Value))}
    (hwritten : List.Forall₂ IsWritten facts fieldss) (h : applyAllWritten p facts fieldss = .ok q) :
    (∀ fact ∈ facts, IsAdmitted fact) ∧ p.applyAll reference facts = .ok q := by
  induction hwritten generalizing p with
  | nil => exact ⟨by simp, h⟩
  | cons hfact _ ih =>
    simp only [applyAllWritten, ok_iff] at h
    obtain ⟨_, hnext, h⟩ := h
    obtain ⟨⟨disposition, hadm⟩, happly⟩ := apply_of_applyWritten hfact hnext
    have hadm : IsAdmitted _ := ⟨disposition, _, admissible_of_admission hfact hadm⟩
    exact ⟨forall_mem_cons.mpr ⟨hadm, (ih h).1⟩, applyAll_cons happly (ih h).2⟩

variable {run : WrittenRun} {check : SessionProjection → Bool}

/-- The first batch of a replayed run follows the history, with facts that are all admitted. -/
theorem follows_of_replay {fieldss : List (List (String × Value))}
    (hwritten : List.Forall₂ IsWritten batch fieldss)
    (h : LedgerState.replay batches p ((batch, fieldss) :: run) = .ok q) :
    (∀ fact ∈ batch, IsAdmitted fact) ∧ ∃ next, Follows reference batches p batch next ∧
      LedgerState.replay (batches ++ [batch]) next run = .ok q := by
  simp only [LedgerState.replay, ok_iff] at h
  obtain ⟨⟨hne, hnodup, hfits⟩, next, hnext, hbdry, h⟩ := h
  obtain ⟨hadm, happly⟩ := applyAll_of_written hwritten hnext
  refine ⟨hadm, next, ⟨hne, fun fact hfact ↦ ?_, fun fact hfact ↦ ?_, hnodup, happly, hbdry, hfits⟩, h⟩
  · obtain ⟨_, _, -, hfact, -⟩ := hadm fact hfact
    exact hfact.valid
  · obtain ⟨disposition, _, -, hfact, -⟩ := hadm fact hfact
    exact ⟨disposition, hfact.admitted⟩

/-- A replayed run extends a history, with facts that are all admitted. -/
theorem Holds.replay (hholds : Holds reference state sessionId batches p)
    (hwritten : run.Forall fun entry ↦ List.Forall₂ IsWritten entry.1 entry.2)
    (h : LedgerState.replay batches p run = .ok q) :
    (∀ fact ∈ (run.map (·.1)).flatten, IsAdmitted fact) ∧ ∃ after, Holds reference after sessionId (batches ++ run.map (·.1)) q := by
  induction run generalizing state batches p with
  | nil =>
    cases h
    exact ⟨by simp, state, by simpa using hholds⟩
  | cons entry rest ih =>
    rw [forall_cons] at hwritten
    obtain ⟨hadm, _, hfollows, h⟩ := follows_of_replay hwritten.1 h
    obtain ⟨after, -, hafter⟩ := hholds.commit hfollows
    obtain ⟨hrest, last, hlast⟩ := ih hafter hwritten.2 h
    refine ⟨?_, last, by simpa using hlast⟩
    intro fact hfact
    rw [map_cons, flatten_cons, mem_append] at hfact
    exact hfact.elim (hadm fact) (hrest fact)

/-- A run that can be replayed leads to a reachable ledger. -/
theorem exists_holds_of_replayed (run : WrittenRun) (check : SessionProjection → Bool)
    [h : Replayed run check] :
    (∀ fact ∈ (run.map (·.1)).flatten, IsAdmitted fact) ∧ ∃ state p, Holds reference state runSession ([openingFact] :: run.map (·.1)) p ∧
      check p := by
  obtain ⟨_, hbef⟩ := exists_holds_opening
  obtain ⟨p, hrun, hend⟩ := any_toOption.mp h.holds
  obtain ⟨hadm, after, hafter⟩ := hbef.replay h.written hrun
  exact ⟨hadm, after, p, hafter, hend⟩

/-! ## The started turn -/

/-- The run that starts the turn. -/
def startRun : WrittenRun := [([turnStart, executionStart], [turnStartFields, executionStartFields])]

instance : Replayed startRun fun _ ↦ true := ⟨by repeat constructor, by decide +kernel⟩

/-- The start can follow the opening. -/
theorem exists_follows_start : ∃ p, Follows reference [[openingFact]] { opened := true }
    [turnStart, executionStart] p ∧ ∀ fact ∈ [turnStart, executionStart], IsAdmitted fact := by
  obtain ⟨_, hrun, -⟩ := any_toOption.mp (inferInstance : Replayed startRun fun _ ↦ true).holds
  obtain ⟨hadm, p, hfollows, -⟩ := follows_of_replay (by repeat constructor) hrun
  exact ⟨p, hfollows, hadm⟩

end LedgerState

end Garive
