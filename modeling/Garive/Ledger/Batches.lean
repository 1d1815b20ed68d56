import Garive.Ledger.Representation

/-!
# The ledger its batches determine

A reachable ledger is determined by the batches committed to each session; in which order the
sessions took turns does not matter. `Built batches state` says that the state is the one these
batches determine. Appending a batch extends it, two states built from the same batches are equal,
and a state built from a part of the batches accepts the next one, whichever session it belongs to.

The last point is where the representation invariant is used: what another session has not stored
yet cannot get in the way, and what it will store shares no identity with the batch.
-/

namespace Garive

open SessionProjection List

/-- Folds batches into a projection, one commit each. -/
def SessionProjection.applyBatches (lib : Externals) (p : SessionProjection) :
    List (List FactDraft) → Except LedgerError SessionProjection
  | [] => .ok p
  | batch :: rest => do
    let next ← p.beginCommit.applyAll lib batch
    next.validateCommitBoundary
    applyBatches lib next rest

theorem SessionProjection.applyBatches_append (lib : Externals) (p : SessionProjection)
    (first second : List (List FactDraft)) : p.applyBatches lib (first ++ second) =
      (do
        let next ← p.applyBatches lib first
        next.applyBatches lib second) := by
  induction first generalizing p with
  | nil => rfl
  | cons batch rest ih =>
    rw [cons_append, applyBatches, applyBatches]
    cases p.beginCommit.applyAll lib batch with
    | error e => rfl
    | ok next =>
      rw [ok_bind, ok_bind]
      cases next.validateCommitBoundary with
      | error e => rfl
      | ok u =>
        rw [ok_bind, ok_bind]
        exact ih next

variable {batch : List FactDraft}

/-- The projection after one more batch. -/
theorem SessionProjection.applyBatches_concat_eq_ok_iff {lib : Externals} {p q : SessionProjection}
    {batches : List (List FactDraft)} :
    p.applyBatches lib (batches ++ [batch]) = .ok q ↔ ∃ next, p.applyBatches lib batches = .ok next ∧
      next.beginCommit.applyAll lib batch = .ok q ∧ q.validateCommitBoundary = .ok () := by
  rw [applyBatches_append, bind_eq_ok_iff]
  refine exists_congr fun next ↦ and_congr_right fun _ ↦ ?_
  simp only [applyBatches, ok_iff]
  constructor
  · rintro ⟨_, happly, hbdry, rfl⟩
    exact ⟨happly, hbdry⟩
  · rintro ⟨happly, hbdry⟩
    exact ⟨q, happly, hbdry, rfl⟩

namespace LedgerState

variable {lib : Externals} {state other : LedgerState}
  {batches total : SessionId → List (List FactDraft)}

/-- The session's ledger is the one the given batches determine. -/
structure SessionBuilt (lib : Externals) (sessionId : SessionId) (batches : List (List FactDraft))
    (session : SessionLedger) : Prop where
  records : session.Records sessionId batches.flatten
  version_eq : session.version = batches.length
  projection_eq : applyBatches lib {} batches = .ok session.projection
  valid : ∀ batch ∈ batches, batch ≠ [] ∧ ∀ draft ∈ batch, draft.validate lib = .ok () ∧
    ∃ disposition, validateRuntimeFact lib draft = .ok disposition
  positions_fit : batches.flatten.length < 2 ^ 64
  version_fits : batches.length < 2 ^ 64

/-- The state is the one the given batches of each session determine. -/
structure Built (lib : Externals) (batches : SessionId → List (List FactDraft))
    (state : LedgerState) : Prop where
  wellFormed : WellFormed state
  absent : ∀ sessionId, state.sessions[sessionId]? = none ↔ batches sessionId = []
  session : ∀ sessionId, SessionBuilt lib sessionId (batches sessionId) (state.session sessionId)

theorem built_empty (lib : Externals) : Built lib (fun _ ↦ []) {} where
  wellFormed := wellFormed_empty
  absent sessionId := by simp
  session sessionId := by
    have hsess : LedgerState.session {} sessionId = {} := by simp [LedgerState.session]
    rw [hsess]
    exact ⟨SessionLedger.records_empty sessionId, rfl, rfl, fun batch h ↦ absurd h not_mem_nil,
      by decide, by decide⟩

/-- The index of a built state, in terms of its batches. -/
theorem Built.get?_factIndex (h : Built lib batches state) {id : FactId} {entry : FactIndexEntry} :
    state.factIndex[id]? = some entry ↔ entry.draft.factId = id ∧ ∃ offset,
      entry.position = offset + 1 ∧
        (batches entry.sessionId).flatten[offset]? = some entry.draft := by
  rw [h.wellFormed.indexed, ← (h.session entry.sessionId).records.get?_drafts_eq_some_iff]
  refine and_congr_right fun _ ↦ ?_
  rw [LedgerState.session]
  cases hsess : state.sessions[entry.sessionId]? with
  | none => simp
  | some found => simp

/-- A session of a built state exists exactly when it has batches. -/
theorem Built.get?_sessions (h : Built lib batches state) (sessionId : SessionId) :
    state.sessions[sessionId]? =
      if batches sessionId = [] then none else some (state.session sessionId) := by
  split
  · exact (h.absent sessionId).mpr ‹_›
  · rename_i hne
    cases hsess : state.sessions[sessionId]? with
    | none => exact absurd ((h.absent sessionId).mp hsess) hne
    | some found => rw [session_of_get? hsess]

variable {found : List (List FactDraft)} {sessionId : SessionId}

/-- Ledgers built from the same batches are equal. -/
theorem SessionBuilt.unique {a b : SessionLedger} (ha : SessionBuilt lib sessionId found a)
    (hb : SessionBuilt lib sessionId found b) : a = b := by
  have hver : a.version = b.version := ha.version_eq.trans hb.version_eq.symm
  have hprojection : a.projection = b.projection :=
    Except.ok.inj (ha.projection_eq.symm.trans hb.projection_eq)
  have hfacts : a.facts = b.facts := ha.records.facts_eq.trans hb.records.facts_eq.symm
  have hdrafts : a.drafts = b.drafts := by
    apply Std.ExtTreeMap.ext_getElem?
    intro position
    rw [ha.records.get?_drafts, hb.records.get?_drafts]
  cases a
  cases b
  simp_all

/-- States built from the same batches are equal. -/
theorem Built.unique (h : Built lib batches state) (hother : Built lib batches other) :
    state = other := by
  have hsess : ∀ sessionId, state.session sessionId = other.session sessionId :=
    fun sessionId ↦ (h.session sessionId).unique (hother.session sessionId)
  have hsessions : state.sessions = other.sessions := by
    apply Std.ExtTreeMap.ext_getElem?
    intro sessionId
    rw [h.get?_sessions, hother.get?_sessions, hsess]
  have hidx : state.factIndex = other.factIndex := by
    apply Std.ExtTreeMap.ext_getElem?
    intro id
    ext entry
    rw [h.get?_factIndex, hother.get?_factIndex]
  cases state
  cases other
  simp_all

variable {projection : SessionProjection} {version position : Nat}

/-- Appending a batch to a session extends its batches. -/
theorem SessionBuilt.appended (h : SessionBuilt lib sessionId found (state.session sessionId))
    (happ : Appends lib state sessionId version batch position projection) :
    SessionBuilt lib sessionId (found ++ [batch])
      ((state.appended sessionId batch position projection).session sessionId) := by
  have hposition : position = found.flatten.length + 1 :=
    h.records.position_eq happ.position_eq
  have hver : found.length = version := h.version_eq.symm.trans happ.version_eq
  rw [session_appended, if_pos rfl]
  refine ⟨?_, ?_, ?_, ?_, ?_, ?_⟩
  · rw [flatten_concat, hposition]
    exact h.records.extended batch projection _
  · rw [length_append, length_singleton, h.version_eq]
  · rw [applyBatches_concat_eq_ok_iff]
    exact ⟨_, h.projection_eq, happ.accepted, happ.boundary⟩
  · intro candidate hcandidate
    rcases mem_append.mp hcandidate with hold | hnew
    · exact h.valid candidate hold
    · rw [mem_singleton] at hnew
      subst hnew
      exact ⟨happ.nonempty, fun draft hd ↦
        ⟨(happ.screened draft hd).valid, (happ.screened draft hd).admitted⟩⟩
  · have hlt := SessionLedger.nextPosition_lt happ.position_eq
    have hfit := happ.positions_fit
    rw [flatten_concat, length_append]
    omega
  · have hfit := happ.version_fits
    rw [length_append, length_singleton]
    omega

/-- Appending a batch extends the batches of its session and leaves the others. -/
theorem Built.appended (h : Built lib batches state)
    (happ : Appends lib state sessionId version batch position projection) :
    Built lib (Function.update batches sessionId (batches sessionId ++ [batch]))
      (state.appended sessionId batch position projection) := by
  refine ⟨h.wellFormed.appended happ, ?_, ?_⟩
  · intro other
    rw [get?_sessions_appended]
    by_cases heq : sessionId = other
    · subst heq
      simp
    · rw [if_neg heq, Function.update_of_ne (Ne.symm heq)]
      exact h.absent other
  · intro other
    by_cases heq : sessionId = other
    · subst heq
      rw [Function.update_self]
      exact (h.session sessionId).appended happ
    · rw [Function.update_of_ne (Ne.symm heq), session_appended, if_neg heq]
      exact h.session other

/-! ## Replaying a part of the batches -/

/-- A state built from a part of the batches of another accepts the next of them. -/
theorem Built.appends_next (htotal : Built lib total other) (h : Built lib batches state)
    (hpart : ∀ sessionId, batches sessionId <+: total sessionId)
    (hnext : batches sessionId ++ [batch] <+: total sessionId) :
    ∃ projection, Appends lib state sessionId (batches sessionId).length batch
      ((batches sessionId).flatten.length + 1) projection := by
  obtain ⟨rest, hrest⟩ := hnext
  have hsess := h.session sessionId
  have hall := htotal.session sessionId
  have hmem : batch ∈ total sessionId := by
    rw [← hrest]
    simp
  have hflatten : (total sessionId).flatten
      = (batches sessionId).flatten ++ batch ++ rest.flatten := by
    rw [← hrest]
    simp
  have hlen : (batches sessionId).flatten.length + batch.length
      ≤ (total sessionId).flatten.length := by
    rw [hflatten, length_append, length_append]
    omega
  have hbatches : (batches sessionId).length + 1 ≤ (total sessionId).length := by
    rw [← hrest]
    simp
  -- Every fact of the batch is indexed in the total state, at its place after the part.
  have hplace : ∀ (offset : Nat) (draft : FactDraft), batch[offset]? = some draft →
      other.factIndex[draft.factId]? =
        some ⟨sessionId, (batches sessionId).flatten.length + offset + 1, draft⟩ := by
    intro offset draft hget
    obtain ⟨hlt, -⟩ := List.getElem?_eq_some_iff.mp hget
    refine htotal.get?_factIndex.mpr ⟨rfl, _, rfl, ?_⟩
    rw [hflatten, getElem?_append_left (by rw [length_append]; omega),
      getElem?_append_right (by omega), Nat.add_sub_cancel_left]
    exact hget
  -- Whatever the part has indexed, the total state has indexed alike.
  have hindexed : ∀ {id : FactId} {entry : FactIndexEntry}, state.factIndex[id]? = some entry →
      other.factIndex[id]? = some entry ∧
        entry.position ≤ (batches entry.sessionId).flatten.length := by
    intro id entry hentry
    obtain ⟨hid, offset, hoffset, hget⟩ := h.get?_factIndex.mp hentry
    obtain ⟨_, htail⟩ := hpart entry.sessionId
    obtain ⟨hlt, -⟩ := List.getElem?_eq_some_iff.mp hget
    refine ⟨htotal.get?_factIndex.mpr ⟨hid, offset, hoffset, ?_⟩, by omega⟩
    rw [← htail, flatten_append, getElem?_append_left hlt]
    exact hget
  have hfresh : ∀ draft ∈ batch, state.factIndex[draft.factId]? = none := by
    intro draft hd
    by_contra hsome
    obtain ⟨entry, hentry⟩ := Option.ne_none_iff_exists'.mp hsome
    obtain ⟨offset, hget⟩ := getElem?_of_mem hd
    obtain ⟨hother, hposition⟩ := hindexed hentry
    rw [hplace offset draft hget, Option.some.injEq] at hother
    rw [← hother] at hposition
    simp only at hposition
    omega
  have hnodup : (batch.map (·.factId)).Nodup := by
    rw [nodup_iff_getElem?_ne_getElem?]
    intro i j hij hj heq
    rw [length_map] at hj
    rw [getElem?_map, getElem?_map, getElem?_eq_getElem hj,
      getElem?_eq_getElem (Nat.lt_trans hij hj), Option.map_some, Option.map_some,
      Option.some.injEq] at heq
    have hi := hplace i _ (getElem?_eq_getElem (Nat.lt_trans hij hj))
    have hj := hplace j _ (getElem?_eq_getElem hj)
    rw [heq, hj] at hi
    have hposs := congrArg (·.position) (Option.some.inj hi)
    simp only at hposs
    omega
  obtain ⟨projection, happly⟩ : ∃ projection, applyBatches lib {}
      (batches sessionId ++ [batch]) = .ok projection := by
    have hfold := hall.projection_eq
    rw [← hrest, applyBatches_append, bind_eq_ok_iff] at hfold
    obtain ⟨projection, hprojection, -⟩ := hfold
    exact ⟨projection, hprojection⟩
  obtain ⟨_, hcur, haccepted, hbdry⟩ :=
    applyBatches_concat_eq_ok_iff.mp happly
  rw [hsess.projection_eq, Except.ok.injEq] at hcur
  subst hcur
  have hposs := hall.positions_fit
  have hvers := hall.version_fits
  have hpos : 0 < batch.length := length_pos_iff.mpr (hall.valid batch hmem).1
  have hposition : (state.session sessionId).nextPosition
      = .ok ((batches sessionId).flatten.length + 1) := by
    rw [hsess.records.nextPosition_eq, if_pos (by omega)]
  refine ⟨projection, (hall.valid batch hmem).1, ?_, hnodup, hfresh, hsess.version_eq,
    hposition, haccepted, hbdry, by omega, by omega⟩
  intro draft hd
  obtain ⟨hvalid, hadm⟩ := (hall.valid batch hmem).2 draft hd
  refine ⟨hvalid, hadm, ?_, fun existing hexisting ↦ ?_⟩
  · rw [identityOwnedByOtherSession, Map.any_eq_false_iff]
    intro id entry hentry
    by_cases heq : entry.sessionId = sessionId
    · simp [heq]
    · obtain ⟨offset, hget⟩ := getElem?_of_mem hd
      have hshared := htotal.wellFormed.unshared id draft.factId entry _ (hindexed hentry).1
        (hplace offset draft hget) heq
      simp only at hshared
      simp [hshared]
  · rw [hfresh draft hd] at hexisting
    cases hexisting

end LedgerState

end Garive
