import Garive.Ledger.State

/-!
# What a commit does

One lemma per part of `LedgerState.commit`: what it takes for a batch to pass the screening, what
appending a batch to a session yields, and the three ways a commit can end. Everything later in the
development that reasons about commits starts from `LedgerState.commit_cases`.
-/

namespace Garive

open List

/-! ## Numbered batches -/

/-- A batch of drafts at consecutive positions. -/
def numbered (sessionId : SessionId) (position : Nat) : List FactDraft → List DurableFact
  | [] => []
  | draft :: rest => .ofDraft sessionId position draft :: numbered sessionId (position + 1) rest

/-- A batch of drafts inserted at consecutive positions. -/
def placed (drafts : Map Nat FactDraft) (position : Nat) : List FactDraft → Map Nat FactDraft
  | [] => drafts
  | draft :: rest => placed (drafts.insert position draft) (position + 1) rest

@[simp] theorem numbered_nil (sessionId : SessionId) (position : Nat) :
    numbered sessionId position [] = [] := rfl

@[simp] theorem numbered_cons (sessionId : SessionId) (position : Nat) (draft : FactDraft)
    (rest : List FactDraft) : numbered sessionId position (draft :: rest)
      = .ofDraft sessionId position draft :: numbered sessionId (position + 1) rest := rfl

@[simp] theorem length_numbered (sessionId : SessionId) (position : Nat)
    (drafts : List FactDraft) : (numbered sessionId position drafts).length = drafts.length := by
  induction drafts generalizing position with
  | nil => rfl
  | cons draft rest ih => simp [ih]

theorem numbered_append (sessionId : SessionId) (position : Nat) (first second : List FactDraft) :
    numbered sessionId position (first ++ second) = numbered sessionId position first
      ++ numbered sessionId (position + first.length) second := by
  induction first generalizing position with
  | nil => simp
  | cons draft rest ih => simp [ih, Nat.add_assoc, Nat.add_comm 1]

@[simp] theorem map_position_numbered (sessionId : SessionId) (position : Nat)
    (drafts : List FactDraft) :
    (numbered sessionId position drafts).map (·.position) = range' position drafts.length := by
  induction drafts generalizing position with
  | nil => rfl
  | cons draft rest ih => simp [ih, range'_succ, DurableFact.ofDraft]

variable {position : Nat}

variable {sessionId : SessionId}

theorem mem_numbered {drafts : List FactDraft} {fact : DurableFact} :
    fact ∈ numbered sessionId position drafts ↔
      ∃ offset draft, drafts[offset]? = some draft ∧
        fact = .ofDraft sessionId (position + offset) draft := by
  induction drafts generalizing position with
  | nil => simp
  | cons draft rest ih =>
    rw [numbered_cons, mem_cons, ih]
    constructor
    · rintro (rfl | ⟨offset, found, hget, rfl⟩)
      · exact ⟨0, draft, rfl, rfl⟩
      · exact ⟨offset + 1, found, by simpa using hget, by rw [Nat.add_assoc, Nat.add_comm 1]⟩
    · rintro ⟨offset, found, hget, rfl⟩
      cases offset with
      | zero =>
        left
        simp only [getElem?_cons_zero, Option.some.injEq] at hget
        rw [hget, Nat.add_zero]
      | succ offset =>
        right
        exact ⟨offset, found, by simpa using hget, by rw [Nat.add_assoc, Nat.add_comm 1]⟩

theorem get?_placed (drafts : Map Nat FactDraft) (position : Nat) (batch : List FactDraft)
    (at_ : Nat) : (placed drafts position batch)[at_]? =
      if position ≤ at_ ∧ at_ < position + batch.length then batch[at_ - position]?
      else drafts[at_]? := by
  induction batch generalizing drafts position with
  | nil =>
    have h : ¬(position ≤ at_ ∧ at_ < position + ([] : List FactDraft).length) := by simp
    rw [placed, if_neg h]
  | cons draft rest ih =>
    rw [placed, ih, Map.get?_insert, length_cons]
    by_cases hhead : position = at_
    · subst hhead
      have h : ¬(position + 1 ≤ position ∧ position < position + 1 + rest.length) := by omega
      rw [if_neg h]
      simp
    · by_cases htail : position + 1 ≤ at_ ∧ at_ < position + 1 + rest.length
      · have hin : position ≤ at_ ∧ at_ < position + (rest.length + 1) := by omega
        have hoffset : at_ - position = at_ - (position + 1) + 1 := by omega
        rw [if_pos htail, if_pos hin, hoffset, getElem?_cons_succ]
      · have hout : ¬(position ≤ at_ ∧ at_ < position + (rest.length + 1)) := by omega
        rw [if_neg htail, if_neg hout, if_neg hhead]

/-! ## Appending a batch -/

variable {session : SessionLedger} {positions : List Nat}

namespace SessionLedger

variable {lib : Externals}

theorem nextPosition_pos (h : session.nextPosition = .ok position) : 0 < position := by
  unfold nextPosition at h
  split at h
  · cases h
    exact Nat.one_pos
  · rw [okOr_eq_ok_iff, checkedAdd_eq_some_iff] at h
    omega

theorem nextPosition_lt (h : session.nextPosition = .ok position) : position < 2 ^ 64 := by
  unfold nextPosition at h
  split at h
  · cases h
    decide
  · rw [okOr_eq_ok_iff, checkedAdd_eq_some_iff] at h
    exact h.2

/-- The session with a batch appended from a position on and a new projection. -/
def extended (sessionId : SessionId) (session : SessionLedger) (position : Nat)
    (batch : List FactDraft) (projection : SessionProjection) : SessionLedger where
  version := session.version
  facts := session.facts ++ numbered sessionId position batch
  drafts := placed session.drafts position batch
  projection := projection

theorem extended_cons (sessionId : SessionId) (session : SessionLedger) (position : Nat)
    (draft : FactDraft) (rest : List FactDraft) (projection between : SessionProjection) :
    session.extended sessionId position (draft :: rest) projection =
      SessionLedger.extended sessionId
        { session with
          projection := between
          drafts := session.drafts.insert position draft
          facts := session.facts ++ [.ofDraft sessionId position draft] }
        (position + 1) rest projection := by
  simp [extended, placed]

/-- A batch of valid drafts is appended exactly when the projection accepts it and its positions
fit, and it then takes consecutive positions. -/
theorem append_eq_ok_iff {final : SessionLedger} {batch : List FactDraft}
    (hne : batch ≠ []) (hpos : 0 < position) (hvalid : ∀ draft ∈ batch, draft.validate lib = .ok ()) :
    session.append lib sessionId position batch = .ok (final, positions) ↔
      ∃ projection, session.projection.applyAll lib batch = .ok projection ∧
        (1 < batch.length → position + (batch.length - 1) < 2 ^ 64) ∧
        final = session.extended sessionId position batch projection ∧
        positions = range' position batch.length := by
  induction batch generalizing session position positions with
  | nil => exact absurd rfl hne
  | cons draft rest ih =>
    have hverify : (DurableFact.ofDraft sessionId position draft).verify lib = .ok () :=
      DurableFact.verify_ofDraft (by omega) (hvalid draft (mem_cons_self ..))
    cases rest with
    | nil =>
      simp only [append, ok_iff, hverify, ok_bind, Prod.mk.injEq, SessionProjection.applyAll,
        length_singleton, Nat.lt_irrefl, false_imp_iff, true_and, exists_eq_right,
        range'_one]
      constructor
      · rintro ⟨projection, happly, rfl, rfl⟩
        exact ⟨projection, happly, rfl, rfl⟩
      · rintro ⟨projection, happly, rfl, rfl⟩
        exact ⟨projection, happly, rfl, rfl⟩
    | cons second others =>
      have hvalid' : ∀ draft ∈ second :: others, draft.validate lib = .ok () :=
        fun d hd ↦ hvalid d (mem_cons_of_mem _ hd)
      rw [append, SessionProjection.applyAll]
      simp only [ok_iff, hverify, ok_bind, checkedAdd_eq_some_iff, Prod.exists, Prod.mk.injEq]
      constructor
      · rintro ⟨projection, happly, _, ⟨rfl, _⟩, _, _, happend, rfl, rfl⟩
        obtain ⟨last, hlast, hlen, rfl, rfl⟩ :=
          (ih (cons_ne_nil _ _) (Nat.succ_pos _) hvalid').mp happend
        refine ⟨last, ⟨projection, happly, hlast⟩, ?_, ?_, ?_⟩
        · intro _
          simp only [length_cons] at hlen ⊢
          omega
        · exact (extended_cons ..).symm
        · simp [range'_succ]
      · rintro ⟨last, ⟨projection, happly, hlast⟩, hlen, rfl, rfl⟩
        simp only [length_cons] at hlen
        refine ⟨projection, happly, position + 1, ⟨rfl, by omega⟩, _, _,
          (ih (cons_ne_nil _ _) (Nat.succ_pos _) hvalid').mpr
            ⟨last, hlast, ?_, extended_cons .., rfl⟩, rfl, ?_⟩
        · intro _
          simp only [length_cons]
          omega
        · simp [range'_succ]

end SessionLedger

/-! ## Screening a batch -/

namespace LedgerState

variable {lib : Externals} {state : LedgerState}

/-- What screening asks of a single draft. -/
structure Screened (lib : Externals) (state : LedgerState) (sessionId : SessionId)
    (draft : FactDraft) : Prop where
  valid : draft.validate lib = .ok ()
  admitted : ∃ disposition, validateRuntimeFact lib draft = .ok disposition
  unowned : state.identityOwnedByOtherSession sessionId draft = false
  consistent : ∀ existing, state.factIndex[draft.factId]? = some existing →
    existing.sessionId = sessionId ∧ existing.draft.sameSemantics draft = true

/-- The position a draft is stored at. -/
def storedPosition? (state : LedgerState) (draft : FactDraft) : Option Nat :=
  state.factIndex[draft.factId]?.map (·.position)

/-- A batch passes exactly when each draft does and no fact identity repeats; the result lists the
positions of the stored drafts in order. -/
theorem screen_eq_ok_iff {seen : List FactId} {batch : List FactDraft} :
    state.screen lib sessionId seen batch = .ok positions ↔
      (∀ draft ∈ batch, Screened lib state sessionId draft ∧ draft.factId ∉ seen) ∧
      (batch.map (·.factId)).Nodup ∧ positions = batch.filterMap state.storedPosition? := by
  induction batch generalizing seen positions with
  | nil => simp [screen, eq_comm]
  | cons draft rest ih =>
    have hseen : ∀ P : FactDraft → Prop, (∀ d ∈ rest, P d ∧ d.factId ∉ draft.factId :: seen) ↔
        (∀ d ∈ rest, P d ∧ d.factId ∉ seen) ∧ draft.factId ∉ rest.map (·.factId) := by
      intro P
      simp only [mem_cons, not_or, mem_map, not_exists, not_and]
      exact ⟨fun h ↦ ⟨fun d hd ↦ ⟨(h d hd).1, (h d hd).2.2⟩, fun d hd heq ↦ (h d hd).2.1 heq⟩,
        fun h d hd ↦ ⟨(h.1 d hd).1, fun heq ↦ h.2 d hd heq, (h.1 d hd).2⟩⟩
    simp only [screen, ok_iff]
    rw [forall_mem_cons, map_cons, nodup_cons]
    cases hget : state.factIndex[draft.factId]? with
    | none =>
      have hposition : state.storedPosition? draft = none := by simp [storedPosition?, hget]
      rw [filterMap_cons_none hposition, ih, hseen]
      constructor
      · rintro ⟨hvalid, disposition, hadm, hunowned, hfresh, ⟨hrest, hnotin⟩, hnodup, rfl⟩
        exact ⟨⟨⟨⟨hvalid, ⟨disposition, hadm⟩, hunowned, by simp [hget]⟩, hfresh⟩, hrest⟩,
          ⟨hnotin, hnodup⟩, rfl⟩
      · rintro ⟨⟨⟨⟨hvalid, ⟨disposition, hadm⟩, hunowned, -⟩, hfresh⟩, hrest⟩,
          ⟨hnotin, hnodup⟩, rfl⟩
        exact ⟨hvalid, disposition, hadm, hunowned, hfresh, ⟨hrest, hnotin⟩, hnodup, rfl⟩
    | some existing =>
      have hposition : state.storedPosition? draft = some existing.position := by
        simp [storedPosition?, hget]
      rw [filterMap_cons_some hposition]
      simp only [ok_iff, ih, hseen]
      constructor
      · rintro ⟨hvalid, disposition, hadm, hunowned, hfresh, hsame, _,
          ⟨⟨hrest, hnotin⟩, hnodup, rfl⟩, rfl⟩
        refine ⟨⟨⟨⟨hvalid, ⟨disposition, hadm⟩, hunowned, ?_⟩, hfresh⟩, hrest⟩,
          ⟨hnotin, hnodup⟩, rfl⟩
        rintro _ hother
        rw [hget, Option.some.injEq] at hother
        exact hother ▸ hsame
      · rintro ⟨⟨⟨⟨hvalid, ⟨disposition, hadm⟩, hunowned, hconsistent⟩, hfresh⟩, hrest⟩,
          ⟨hnotin, hnodup⟩, rfl⟩
        exact ⟨hvalid, disposition, hadm, hunowned, hfresh, hconsistent _ hget, _,
          ⟨⟨hrest, hnotin⟩, hnodup, rfl⟩, rfl⟩

/-! ## The three endings of a commit -/

/-- A batch all of whose facts are stored. -/
structure Replays (lib : Externals) (state : LedgerState) (sessionId : SessionId)
    (batch : List FactDraft) (session : SessionLedger) : Prop where
  nonempty : batch ≠ []
  screened : ∀ draft ∈ batch, Screened lib state sessionId draft
  nodup : (batch.map (·.factId)).Nodup
  stored : ∀ draft ∈ batch, ∃ position, state.storedPosition? draft = some position
  session_eq : state.sessions[sessionId]? = some session

/-- A batch none of whose facts is stored, at the expected version, that the projection accepts and
whose positions and version fit. -/
structure Appends (lib : Externals) (state : LedgerState) (sessionId : SessionId) (version : Nat)
    (batch : List FactDraft) (position : Nat) (projection : SessionProjection) : Prop where
  nonempty : batch ≠ []
  screened : ∀ draft ∈ batch, Screened lib state sessionId draft
  nodup : (batch.map (·.factId)).Nodup
  fresh : ∀ draft ∈ batch, state.factIndex[draft.factId]? = none
  version_eq : (state.session sessionId).version = version
  position_eq : (state.session sessionId).nextPosition = .ok position
  accepted : (state.session sessionId).projection.beginCommit.applyAll lib batch = .ok projection
  boundary : projection.validateCommitBoundary = .ok ()
  positions_fit : 1 < batch.length → position + (batch.length - 1) < 2 ^ 64
  version_fits : version + 1 < 2 ^ 64

/-- The state after a batch has been appended. -/
def appended (state : LedgerState) (sessionId : SessionId) (batch : List FactDraft)
    (position : Nat) (projection : SessionProjection) : LedgerState where
  sessions := state.sessions.insert sessionId
    { (state.session sessionId).extended sessionId position batch projection with
      version := (state.session sessionId).version + 1 }
  factIndex := indexBatch sessionId state.factIndex
    (batch.zip (range' position batch.length))

theorem appendBatch_eq_ok_iff {version : Nat} {batch : List FactDraft}
    {result : CommitResult} {next : SessionLedger} (hne : batch ≠ [])
    (hvalid : ∀ draft ∈ batch, draft.validate lib = .ok ()) :
    state.appendBatch lib sessionId version batch = .ok (result, next) ↔
      ∃ position projection, (state.session sessionId).version = version ∧
        (state.session sessionId).nextPosition = .ok position ∧
        (state.session sessionId).projection.beginCommit.applyAll lib batch = .ok projection ∧
        projection.validateCommitBoundary = .ok () ∧
        (1 < batch.length → position + (batch.length - 1) < 2 ^ 64) ∧ version + 1 < 2 ^ 64 ∧
        result = ⟨.committed, version + 1, range' position batch.length⟩ ∧
        next = { (state.session sessionId).extended sessionId position batch projection with
          version := version + 1 } := by
  simp only [appendBatch, ok_iff, checkedAdd_eq_some_iff, Prod.exists, Prod.mk.injEq]
  constructor
  · rintro ⟨hver, position, hposition, _, _, happend, hbdry, _, ⟨rfl, hfits⟩,
      rfl, rfl⟩
    obtain ⟨projection, haccepted, hposs, rfl, rfl⟩ :=
      (SessionLedger.append_eq_ok_iff hne (SessionLedger.nextPosition_pos hposition) hvalid).mp
        happend
    subst hver
    exact ⟨position, projection, rfl, hposition, haccepted, hbdry, hposs, hfits, rfl, rfl⟩
  · rintro ⟨position, projection, rfl, hposition, haccepted, hbdry, hposs, hfits, rfl, rfl⟩
    refine ⟨rfl, position, hposition, _, _,
      (SessionLedger.append_eq_ok_iff hne (SessionLedger.nextPosition_pos hposition) hvalid).mpr
        ⟨projection, haccepted, hposs, rfl, rfl⟩, hbdry, _, ⟨rfl, hfits⟩, rfl, rfl⟩

/-- The positions of a batch are all stored exactly when as many are found as there are drafts. -/
private theorem length_filterMap_eq_iff {batch : List FactDraft} :
    (batch.filterMap state.storedPosition?).length = batch.length ↔
      ∀ draft ∈ batch, ∃ position, state.storedPosition? draft = some position := by
  induction batch with
  | nil => simp
  | cons draft rest ih =>
    have hle := length_filterMap_le state.storedPosition? rest
    cases h : state.storedPosition? draft with
    | none =>
      rw [filterMap_cons_none h, length_cons]
      constructor
      · omega
      · intro hall
        obtain ⟨position, hposition⟩ := hall draft (mem_cons_self ..)
        rw [h] at hposition
        cases hposition
    | some position =>
      rw [filterMap_cons_some h, length_cons, length_cons, Nat.add_right_cancel_iff,
        ih, forall_mem_cons]
      exact ⟨fun hrest ↦ ⟨⟨position, h⟩, hrest⟩, fun hall ↦ hall.2⟩

private theorem filterMap_eq_nil_iff_fresh {batch : List FactDraft} :
    (batch.filterMap state.storedPosition?).length = 0 ↔
      ∀ draft ∈ batch, state.factIndex[draft.factId]? = none := by
  simp [storedPosition?]

variable {sessionId : SessionId} {version : Nat} {batch : List FactDraft}

/-- A stored batch is answered with the positions it is stored at. -/
theorem commit_of_replays (h : Replays lib state sessionId batch session) :
    state.commit lib sessionId version batch =
      (.ok ⟨.replayed, session.version, batch.filterMap state.storedPosition?⟩, state) := by
  have hscreen : state.screen lib sessionId [] batch
      = .ok (batch.filterMap state.storedPosition?) :=
    screen_eq_ok_iff.mpr ⟨fun draft hd ↦ ⟨h.screened draft hd, not_mem_nil⟩, h.nodup, rfl⟩
  have hlen := length_filterMap_eq_iff.mpr h.stored
  simp [commit, decideCommit, ensure_of h.nonempty, hscreen, hlen, h.session_eq]

/-- A new batch that fits is appended. -/
theorem commit_of_appends {projection : SessionProjection}
    (h : Appends lib state sessionId version batch position projection) :
    state.commit lib sessionId version batch =
      (.ok ⟨.committed, version + 1, range' position batch.length⟩,
        state.appended sessionId batch position projection) := by
  have hscreen : state.screen lib sessionId [] batch
      = .ok (batch.filterMap state.storedPosition?) :=
    screen_eq_ok_iff.mpr ⟨fun draft hd ↦ ⟨h.screened draft hd, not_mem_nil⟩, h.nodup, rfl⟩
  have hnone := filterMap_eq_nil_iff_fresh.mpr h.fresh
  have hlen : ¬(batch.filterMap state.storedPosition?).length = batch.length := by
    rw [hnone]
    exact fun hzero ↦ h.nonempty (length_eq_zero_iff.mp hzero.symm)
  have happend := (appendBatch_eq_ok_iff h.nonempty fun draft hd ↦ (h.screened draft hd).valid).mpr
    ⟨position, projection, h.version_eq, h.position_eq, h.accepted, h.boundary, h.positions_fit,
      h.version_fits, rfl, rfl⟩
  rw [commit, decideCommit, ensure_of h.nonempty, ok_bind, hscreen, ok_bind, if_neg hlen,
    ensure_of hnone, ok_bind, happend]
  simp [appended, h.version_eq]

/-- A commit fails without a change, answers a replay without a change, or appends its batch. -/
theorem commit_cases (lib : Externals) (state : LedgerState) (sessionId : SessionId)
    (version : Nat) (batch : List FactDraft) :
    (∃ e, state.commit lib sessionId version batch = (.error e, state)) ∨
    (∃ session, Replays lib state sessionId batch session) ∨
    (∃ position projection, Appends lib state sessionId version batch position projection) := by
  cases hdecide : state.decideCommit lib sessionId version batch with
  | error e => exact .inl ⟨e, by simp [commit, hdecide]⟩
  | ok decided =>
    right
    simp only [decideCommit, ok_iff] at hdecide
    obtain ⟨hne, _, hscreen, hrest⟩ := hdecide
    obtain ⟨hscreened, hnodup, rfl⟩ := screen_eq_ok_iff.mp hscreen
    have hscreened' := fun draft hd ↦ (hscreened draft hd).1
    split at hrest
    · rename_i hlen
      left
      simp only [ok_iff] at hrest
      obtain ⟨session, hsess, -⟩ := hrest
      exact ⟨session, hne, hscreened', hnodup, length_filterMap_eq_iff.mp hlen, hsess⟩
    · right
      simp only [ok_iff, Prod.exists] at hrest
      obtain ⟨hnone, _, _, happend, -⟩ := hrest
      obtain ⟨position, projection, hver, hposition, haccepted, hbdry, hposs, hfits,
        -, -⟩ := (appendBatch_eq_ok_iff hne fun draft hd ↦ (hscreened' draft hd).valid).mp happend
      exact ⟨position, projection, hne, hscreened', hnodup, filterMap_eq_nil_iff_fresh.mp hnone,
        hver, hposition, haccepted, hbdry, hposs, hfits⟩

/-- A commit that was no replay has appended its batch. -/
theorem appends_of_commit {result : CommitResult} {after : LedgerState}
    (h : state.commit lib sessionId version batch = (.ok result, after))
    (hcommitted : result.disposition = .committed) : ∃ position projection,
    Appends lib state sessionId version batch position projection ∧
      result = ⟨.committed, version + 1, range' position batch.length⟩ ∧
      after = state.appended sessionId batch position projection := by
  rcases commit_cases lib state sessionId version batch with
    ⟨e, he⟩ | ⟨found, hreplays⟩ | ⟨position, projection, happ⟩
  · rw [he] at h
    cases h
  · rw [commit_of_replays hreplays] at h
    cases h
    cases hcommitted
  · rw [commit_of_appends happ] at h
    cases h
    exact ⟨position, projection, happ, rfl, rfl⟩

/-! ## The index of a batch -/

/-- What a batch adds to the index: its own entries, and nothing else changes. -/
theorem get?_indexBatch {index : Map FactId FactIndexEntry} {pairs : List (FactDraft × Nat)}
    (hnodup : (pairs.map (·.1.factId)).Nodup) (id : FactId) (entry : FactIndexEntry)
    (hfresh : ∀ pair ∈ pairs, index[pair.1.factId]? = none) :
    (indexBatch sessionId index pairs)[id]? = some entry ↔
      index[id]? = some entry ∨ ∃ pair ∈ pairs, pair.1.factId = id ∧
        entry = ⟨sessionId, pair.2, pair.1⟩ := by
  induction pairs generalizing index with
  | nil => simp [indexBatch]
  | cons pair rest ih =>
    obtain ⟨draft, position⟩ := pair
    rw [map_cons, nodup_cons] at hnodup
    obtain ⟨hnotin, hnodup⟩ := hnodup
    have hne : ∀ other ∈ rest, draft.factId ≠ other.1.factId := fun other ho heq ↦
      hnotin (mem_map.mpr ⟨other, ho, heq.symm⟩)
    have hfresh' : ∀ other ∈ rest, (index.insert draft.factId
        (⟨sessionId, position, draft⟩ : FactIndexEntry))[other.1.factId]? = none := by
      intro other ho
      rw [Map.get?_insert_of_ne (hne other ho)]
      exact hfresh other (mem_cons_of_mem _ ho)
    have hdraft : index[draft.factId]? = none := hfresh (draft, position) (mem_cons_self ..)
    rw [indexBatch, ih hnodup hfresh', Map.get?_insert]
    by_cases hid : draft.factId = id
    · subst hid
      simp only [↓reduceIte, Option.some.injEq, hdraft, reduceCtorEq, false_or, mem_cons,
        exists_eq_or_imp, true_and]
      exact or_congr_left eq_comm
    · simp [hid]

end LedgerState

end Garive
