import Garive.Ledger.Containment
import Garive.Ledger.Turns

/-!
# The course of a session

A session's projection is the result of a course: facts are accepted one after another, and between
two of them a commit may end and the next one begin. `Leads` keeps the facts together with the
projection they led to, so that an invariant can speak about both, and it looks into commits as well:
every prefix of a course is a course.

A course can be restricted to facts that meet a condition when they are accepted. What holds along
every restricted course says how far a condition carries; without a restriction, every session of
every reachable ledger is the end of a course.
-/

namespace Garive

open SessionProjection List

/-- A condition on an accepted fact, given the facts and the projection before it. -/
abbrev StepCondition := List FactDraft → SessionProjection → FactDraft → Prop

/-- A batch in two parts. -/
theorem SessionProjection.applyAll_append_eq_ok_iff {lib : Externals} {p p' : SessionProjection}
    {first second : List FactDraft} : p.applyAll lib (first ++ second) = .ok p' ↔
      ∃ q, p.applyAll lib first = .ok q ∧ q.applyAll lib second = .ok p' := by
  induction first generalizing p with
  | nil => simp [applyAll]
  | cons fact rest ih =>
    simp only [cons_append, applyAll, bind_eq_ok_iff, ih]
    constructor
    · rintro ⟨next, hnext, q, hq, hsecond⟩
      exact ⟨q, ⟨next, hnext, hq⟩, hsecond⟩
    · rintro ⟨q, ⟨next, hnext, hq⟩, hsecond⟩
      exact ⟨next, hnext, q, hq, hsecond⟩

/-- A batch with one more fact. -/
theorem SessionProjection.applyAll_concat_eq_ok_iff {lib : Externals} {p p' : SessionProjection}
    {batch : List FactDraft} {fact : FactDraft} : p.applyAll lib (batch ++ [fact]) = .ok p' ↔
      ∃ q, p.applyAll lib batch = .ok q ∧ q.apply lib fact = .ok p' := by
  simp [applyAll_append_eq_ok_iff, applyAll, bind_eq_ok_iff]

/-- The condition every fact meets. -/
def StepCondition.any : StepCondition := fun _ _ _ ↦ True

/-- The facts, each accepted when it met the condition, lead to the projection. -/
inductive Leads (lib : Externals) (condition : StepCondition) :
    List FactDraft → SessionProjection → Prop
  | empty : Leads lib condition [] {}
  /-- One commit ends and the next one begins. -/
  | commit {history : List FactDraft} {p : SessionProjection} (h : Leads lib condition history p)
    (hbdry : p.validateCommitBoundary = .ok ()) : Leads lib condition history p.beginCommit
  /-- A fact is accepted. -/
  | fact {history : List FactDraft} {p p' : SessionProjection} {fact : FactDraft}
    (h : Leads lib condition history p) (hcond : condition history p fact)
    (happly : p.apply lib fact = .ok p') : Leads lib condition (history ++ [fact]) p'

namespace Leads

variable {lib : Externals} {condition : StepCondition} {history batch : List FactDraft}
  {p p' : SessionProjection}

/-- A course whose facts all meet a condition on what came before them. -/
theorem restrict {condition : StepCondition} (h : Leads lib .any history p)
    (hcond : ∀ before fact after, history = before ++ fact :: after →
      ∀ q, condition before q fact) : Leads lib condition history p := by
  induction h with
  | empty => exact .empty
  | commit _ hbdry ih => exact (ih hcond).commit hbdry
  | @fact history p p' fact _ _ happly ih =>
    refine (ih fun before other after hhistory ↦ ?_).fact (hcond _ _ _ rfl _) happly
    exact hcond before other (after ++ [fact]) (by rw [hhistory, append_assoc]; rfl)

/-- A batch of accepted facts that meet the condition anywhere continues a course. -/
theorem applyAll_of (h : Leads lib condition history p)
    (hcond : ∀ fact ∈ batch, ∀ history p, condition history p fact)
    (happly : p.applyAll lib batch = .ok p') : Leads lib condition (history ++ batch) p' := by
  induction batch generalizing history p with
  | nil =>
    cases happly
    rwa [append_nil]
  | cons fact rest ih =>
    simp only [applyAll, bind_eq_ok_iff] at happly
    obtain ⟨_, hnext, hrest⟩ := happly
    rw [forall_mem_cons] at hcond
    rw [append_cons]
    exact ih (h.fact (hcond.1 _ _) hnext) hcond.2 hrest

/-- A batch of accepted facts continues a course. -/
theorem applyAll (h : Leads lib .any history p) (happly : p.applyAll lib batch = .ok p') :
    Leads lib .any (history ++ batch) p' :=
  h.applyAll_of (fun _ _ _ _ ↦ trivial) happly

/-- A course, stopped early. -/
theorem take {first rest : List FactDraft} (h : Leads lib condition (first ++ rest) p) :
    ∃ q, Leads lib condition first q := by
  generalize hall : first ++ rest = all at h
  induction h generalizing rest with
  | empty =>
    rw [(append_eq_nil_iff.mp hall).1]
    exact ⟨_, .empty⟩
  | commit _ _ ih => exact ih hall
  | fact h hcond happly ih =>
    rcases eq_nil_or_concat rest with rfl | ⟨rest, last, rfl⟩
    · rw [append_nil] at hall
      exact ⟨_, hall ▸ h.fact hcond happly⟩
    · rw [concat_eq_append, ← append_assoc] at hall
      exact ih (append_inj' hall rfl).1

/-- Whole commits continue a course that stands between two commits. -/
theorem applyBatches {batches : List (List FactDraft)} (h : Leads lib .any history p)
    (hbdry : p.validateCommitBoundary = .ok ()) (happly : p.applyBatches lib batches = .ok p') :
    Leads lib .any (history ++ batches.flatten) p' ∧ p'.validateCommitBoundary = .ok () := by
  induction batches generalizing history p with
  | nil =>
    cases happly
    rw [flatten_nil, append_nil]
    exact ⟨h, hbdry⟩
  | cons batch rest ih =>
    simp only [applyBatches, ok_iff] at happly
    obtain ⟨_, hnext, hnextBdry, hrest⟩ := happly
    rw [flatten_cons, ← append_assoc]
    exact ih ((h.commit hbdry).applyAll hnext) hnextBdry hrest

/-- What runs along a course is contained in what is open. -/
theorem contained (h : Leads lib condition history p) : p.lifecycle.Contained := by
  induction h with
  | empty => constructor <;> simp [lifecycle]
  | commit _ _ ih => exact ih
  | fact _ _ happly ih =>
    obtain ⟨hclosed, hstep, -⟩ := apply_spec happly
    exact ih.step hclosed hstep

end Leads

namespace LedgerState

variable {lib : Externals} {state : LedgerState} {sessionId : SessionId} {session : SessionLedger}

/-- A session of a reachable ledger is the end of a course, between two commits. -/
theorem Reachable.leads (h : Reachable lib state)
    (hsess : state.sessions[sessionId]? = some session) :
    Leads lib .any (session.facts.map (·.toDraft)) session.projection ∧
      session.projection.validateCommitBoundary = .ok () := by
  obtain ⟨_, hbuilt⟩ := Reachable.built h
  have hbuilt' := hbuilt.session sessionId
  rw [session_of_get? hsess] at hbuilt'
  rw [hbuilt'.records.facts_eq, map_toDraft_numbered]
  have hbdry : ({} : SessionProjection).validateCommitBoundary = .ok () := by
    simp [validateCommitBoundary, Map.any]
  exact Leads.empty.applyBatches hbdry hbuilt'.projection_eq

/-- The same for a session that may not have been written yet. -/
theorem Reachable.leads_session (h : Reachable lib state) (sessionId : SessionId) :
    Leads lib .any ((state.session sessionId).facts.map (·.toDraft)) (state.session sessionId).projection ∧
      (state.session sessionId).projection.validateCommitBoundary = .ok () := by
  cases hsess : state.sessions[sessionId]? with
  | some session =>
    rw [session_of_get? hsess]
    exact Reachable.leads h hsess
  | none =>
    rw [LedgerState.session, hsess, Option.getD_none]
    exact ⟨.empty, by simp [validateCommitBoundary, Map.any]⟩

/-- What a commit that was not a replay did to the session's projection. -/
theorem applyAll_of_commit {version : Nat} {batch : List FactDraft} {result : CommitResult}
    {after : LedgerState} (h : state.commit lib sessionId version batch = (.ok result, after))
    (hcomd : result.disposition = .committed) :
    (state.session sessionId).projection.beginCommit.applyAll lib batch
      = .ok (after.session sessionId).projection := by
  obtain ⟨position, projection, happ, -, rfl⟩ := appends_of_commit h hcomd
  rw [session_appended, if_pos rfl]
  exact happ.accepted

/-- The facts of a session stand in the order of their positions. -/
theorem Reachable.pairwise_position (h : Reachable lib state)
    (hsess : state.sessions[sessionId]? = some session) :
    session.facts.Pairwise fun a b ↦ a.position < b.position := by
  obtain ⟨_, hrecs⟩ := (Reachable.wellFormed h).recorded sessionId session hsess
  rw [← pairwise_map (f := DurableFact.position) (R := (· < ·)), hrecs.facts_eq,
    map_position_numbered]
  exact pairwise_lt_range'

end LedgerState

end Garive
