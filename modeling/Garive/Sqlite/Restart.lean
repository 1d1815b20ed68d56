import Garive.Ledger.History
import Garive.Sqlite.Load

/-!
# Restarting from the store

Loading the store after any sequence of commits gives the ledger that the same commits build in
memory, although loading replays them session by session and not in the order they were made.

The rows are written in the order of the commits and read in the order of sessions, versions and
positions. Both orders list the batches of each session alike, which fixes the rows as a set
(`historyRows_perm`) and the ledger they rebuild (`LedgerState.Built.unique`); the read order is the
one order that is sorted (`select_historyRows`).
-/

namespace Garive

open List

namespace StoredFact

/-- The strict order of rows. -/
def StrictlyPrecedes (a b : StoredFact) : Prop :=
  a.sessionId < b.sessionId ∨ a.sessionId = b.sessionId ∧
    (a.commitVersion < b.commitVersion ∨ a.commitVersion = b.commitVersion ∧
      a.position < b.position)

variable {a b : StoredFact}

theorem StrictlyPrecedes.precedes (h : a.StrictlyPrecedes b) : a.Precedes b := by
  rcases h with h | ⟨h, h' | ⟨h', h''⟩⟩
  · exact .inl h
  · exact .inr ⟨h, .inl h'⟩
  · exact .inr ⟨h, .inr ⟨h', List.le_of_lt h''⟩⟩

theorem StrictlyPrecedes.not_precedes (h : a.StrictlyPrecedes b) : ¬b.Precedes a := by
  rintro (g | ⟨g, g' | ⟨g', g''⟩⟩)
  · rcases h with h | ⟨h, -⟩
    · exact String.lt_asymm h g
    · exact String.lt_irrefl _ (h ▸ g)
  · rcases h with h | ⟨-, h' | ⟨h', -⟩⟩
    · exact String.lt_irrefl _ (g ▸ h)
    · exact List.lt_asymm h' g'
    · exact List.lt_irrefl _ (h' ▸ g')
  · rcases h with h | ⟨-, h' | ⟨-, h''⟩⟩
    · exact String.lt_irrefl _ (g ▸ h)
    · exact List.lt_irrefl _ (g' ▸ h')
    · exact g'' h''

/-- Two rows of a strictly sorted list that precede each other are one row. -/
theorem eq_of_precedes {rows : List StoredFact} (h : rows.Pairwise StrictlyPrecedes) (ha : a ∈ rows)
    (hb : b ∈ rows) (hab : a.Precedes b) (hba : b.Precedes a) : a = b := by
  induction rows with
  | nil => cases ha
  | cons row rest ih =>
    rw [pairwise_cons] at h
    rcases mem_cons.mp ha with rfl | ha'
    · rcases mem_cons.mp hb with rfl | hb'
      · rfl
      · exact absurd hba (h.1 b hb').not_precedes
    · rcases mem_cons.mp hb with rfl | hb'
      · exact absurd hab (h.1 a ha').not_precedes
      · exact ih h.2 ha' hb'

instance (a b : StoredFact) : Decidable (a.Precedes b) := by
  unfold Precedes
  infer_instance

theorem Precedes.trans {c : StoredFact} (hab : a.Precedes b) (hbc : b.Precedes c) :
    a.Precedes c := by
  rcases hab with hab | ⟨hab, hab' | ⟨hab', hab''⟩⟩
  · rcases hbc with hbc | ⟨hbc, -⟩
    · exact .inl (String.lt_trans hab hbc)
    · exact .inl (hbc ▸ hab)
  · rcases hbc with hbc | ⟨hbc, hbc' | ⟨hbc', -⟩⟩
    · exact .inl (hab ▸ hbc)
    · exact .inr ⟨hab.trans hbc, .inl (List.lt_trans hab' hbc')⟩
    · exact .inr ⟨hab.trans hbc, .inl (hbc' ▸ hab')⟩
  · rcases hbc with hbc | ⟨hbc, hbc' | ⟨hbc', hbc''⟩⟩
    · exact .inl (hab ▸ hbc)
    · exact .inr ⟨hab.trans hbc, .inl (hab' ▸ hbc')⟩
    · exact .inr ⟨hab.trans hbc, .inr ⟨hab'.trans hbc', List.le_trans hab'' hbc''⟩⟩

theorem precedes_total (a b : StoredFact) : a.Precedes b ∨ b.Precedes a := by
  by_cases hab : a.sessionId < b.sessionId
  · exact .inl (.inl hab)
  by_cases hba : b.sessionId < a.sessionId
  · exact .inr (.inl hba)
  have hsess : a.sessionId = b.sessionId := String.le_antisymm hba hab
  by_cases hab' : a.commitVersion < b.commitVersion
  · exact .inl (.inr ⟨hsess, .inl hab'⟩)
  by_cases hba' : b.commitVersion < a.commitVersion
  · exact .inr (.inr ⟨hsess.symm, .inl hba'⟩)
  have hver : a.commitVersion = b.commitVersion := List.le_antisymm hba' hab'
  rcases List.le_total a.position b.position with hle | hle
  · exact .inl (.inr ⟨hsess, .inr ⟨hver, hle⟩⟩)
  · exact .inr (.inr ⟨hsess.symm, .inr ⟨hver.symm, hle⟩⟩)

end StoredFact

namespace SqliteLedger

variable {lib : Externals} {sqlite : Sqlite}

/-! ## Rows in order -/

variable {batch : List FactDraft} {sessionId : SessionId} {row : StoredFact}
  {version position : Nat}

/-- What a row of a batch carries. -/
theorem mem_batchRows (h : row ∈ batchRows sessionId version position batch) :
    row.sessionId = sessionId.text ∧ row.commitVersion = encodeU64 version ∧
      ∃ offset < batch.length, row.position = encodeU64 (position + offset) := by
  induction batch generalizing position with
  | nil => cases h
  | cons draft rest ih =>
    rcases mem_cons.mp h with rfl | htail
    · exact ⟨rfl, rfl, 0, Nat.succ_pos _, rfl⟩
    · obtain ⟨hsess, hver, offset, hlt, hposition⟩ := ih htail
      refine ⟨hsess, hver, offset + 1, by simpa using hlt, ?_⟩
      rw [hposition, Nat.add_assoc, Nat.add_comm 1]

theorem encodeU64_lt {m n : Nat} (hlt : m < n) (h : n < 2 ^ 64) : encodeU64 m < encodeU64 n :=
  bigEndian_lt hlt (by omega)

theorem batchRows_sorted (h : position + batch.length ≤ 2 ^ 64) :
    (batchRows sessionId version position batch).Pairwise StoredFact.StrictlyPrecedes := by
  induction batch generalizing position with
  | nil => exact .nil
  | cons draft rest ih =>
    rw [length_cons] at h
    rw [batchRows, pairwise_cons]
    refine ⟨?_, ih (by omega)⟩
    intro row hrow
    obtain ⟨hsess, hver, _, _, hposition⟩ := mem_batchRows hrow
    refine .inr ⟨hsess.symm, .inr ⟨hver.symm, ?_⟩⟩
    rw [hposition]
    exact encodeU64_lt (by omega) (by omega)

/-- What a row of a history carries. -/
theorem mem_historyRows (h : row ∈ historyRows batches history) :
    ∃ group ∈ history, row.sessionId = group.1.text ∧
      ∃ version, (batches group.1).length < version ∧
        version ≤ (addBatches batches history group.1).length ∧
        row.commitVersion = encodeU64 version := by
  induction history generalizing batches with
  | nil => cases h
  | cons group rest ih =>
    rcases mem_append.mp h with hhead | htail
    · obtain ⟨hsess, hver, -⟩ := mem_batchRows hhead
      refine ⟨group, mem_cons_self .., hsess, _, Nat.lt_succ_self _, ?_, hver⟩
      rw [addBatches, addBatches_apply, addBatch_self, length_append, length_append,
        length_singleton]
      omega
    · obtain ⟨found, hfound, hsess, version, hlt, hle, hver⟩ := ih htail
      refine ⟨found, mem_cons_of_mem _ hfound, hsess, version, ?_, hle, hver⟩
      by_cases heq : found.1 = group.1
      · rw [heq] at hlt ⊢
        rw [addBatch_self, length_append] at hlt
        omega
      · rwa [addBatch_of_ne heq] at hlt

/-- The rows of batches whose sessions come in order are sorted. -/
theorem historyRows_sorted (hsorted : history.Pairwise fun a b ↦ a.1.text ≤ b.1.text)
    (hfits : ∀ sessionId, (addBatches batches history sessionId).length < 2 ^ 64 ∧ (addBatches batches history sessionId).flatten.length < 2 ^ 64) :
    (historyRows batches history).Pairwise StoredFact.StrictlyPrecedes := by
  induction history generalizing batches with
  | nil => exact .nil
  | cons group rest ih =>
    rw [pairwise_cons] at hsorted
    rw [historyRows, pairwise_append]
    refine ⟨batchRows_sorted ?_, ih hsorted.2 hfits, ?_⟩
    · have hlt := (hfits group.1).2
      rw [addBatches, addBatches_apply, addBatch_self, flatten_append, flatten_concat,
        length_append, length_append] at hlt
      omega
    · intro a ha b hb
      obtain ⟨hsessionA, hversionA, -⟩ := mem_batchRows ha
      obtain ⟨found, hfound, hsessionB, _, hlt, _, hversionB⟩ := mem_historyRows hb
      by_cases heq : found.1 = group.1
      · refine .inr ⟨by rw [hsessionA, hsessionB, heq], .inl ?_⟩
        rw [hversionA, hversionB]
        rw [heq, addBatch_self, length_append, length_singleton] at hlt
        have hfit := (hfits found.1).1
        rw [addBatches] at hfit
        exact encodeU64_lt hlt (by omega)
      · left
        rw [hsessionA, hsessionB]
        by_contra hge
        exact heq (LedgerIdentity.ext_text (String.le_antisymm hge (hsorted.1 found hfound)))

/-! ## The order of reading -/

/-- The rows of one session, after the batches that were there before. -/
def sessionRows (sessionId : SessionId) (done : List (List FactDraft)) :
    List (List FactDraft) → List StoredFact
  | [] => []
  | batch :: rest =>
    batchRows sessionId (done.length + 1) (done.flatten.length + 1) batch
      ++ sessionRows sessionId (done ++ [batch]) rest

/-- The rows of a history that belong to one session are the rows of its batches. -/
theorem filter_historyRows (batches : SessionId → List (List FactDraft))
    (history : List (SessionId × List FactDraft)) (sessionId : SessionId) :
    (historyRows batches history).filter (·.sessionId = sessionId.text) =
      sessionRows sessionId (batches sessionId) (ofSession sessionId history) := by
  induction history generalizing batches with
  | nil => rfl
  | cons group rest ih =>
    obtain ⟨owner, batch⟩ := group
    rw [historyRows, filter_append, ih]
    by_cases h : owner = sessionId
    · subst h
      have hall : (batchRows owner ((batches owner).length + 1)
          ((batches owner).flatten.length + 1) batch).filter (·.sessionId = owner.text) = batchRows
            owner ((batches owner).length + 1) ((batches owner).flatten.length + 1) batch := by
        rw [filter_eq_self]
        intro row hrow
        exact decide_eq_true (mem_batchRows hrow).1
      rw [hall, addBatch_self, ofSession_cons_self, sessionRows]
    · have hnone : (batchRows owner ((batches owner).length + 1)
          ((batches owner).flatten.length + 1) batch).filter (·.sessionId = sessionId.text) = [] := by
        rw [filter_eq_nil_iff]
        intro row hrow hsess
        rw [decide_eq_true_iff, (mem_batchRows hrow).1] at hsess
        exact h (LedgerIdentity.ext_text hsess)
      rw [hnone, nil_append, addBatch_of_ne (Ne.symm h), ofSession_cons_of_ne h]

/-- Two histories that agree on the batches of each session have the same rows. -/
theorem historyRows_perm {first second : List (SessionId × List FactDraft)}
    (h : ∀ sessionId, ofSession sessionId first = ofSession sessionId second) :
    (historyRows batches first).Perm (historyRows batches second) := by
  have hsessions : ∀ sessionId : SessionId,
      (historyRows batches first).filter (·.sessionId = sessionId.text) =
        (historyRows batches second).filter (·.sessionId = sessionId.text) := by
    intro sessionId
    rw [filter_historyRows, filter_historyRows, h]
  rw [perm_iff_count]
  intro row
  -- A row occurs in either list only if its session text is that of an identity.
  have hcount : ∀ sessionId : SessionId, row.sessionId = sessionId.text →
      (historyRows batches first).count row = (historyRows batches second).count row := by
    intro sessionId hsess
    have hkept : ∀ rows : List StoredFact,
        (rows.filter (·.sessionId = sessionId.text)).count row = rows.count row := by
      intro rows
      apply count_filter
      exact decide_eq_true hsess
    rw [← hkept, hsessions, hkept]
  by_cases hfirst : row ∈ historyRows batches first
  · obtain ⟨group, -, hsess, -⟩ := mem_historyRows hfirst
    exact hcount group.1 hsess
  by_cases hsecond : row ∈ historyRows batches second
  · obtain ⟨group, -, hsess, -⟩ := mem_historyRows hsecond
    exact hcount group.1 hsess
  rw [count_eq_zero_of_not_mem hfirst, count_eq_zero_of_not_mem hsecond]

/-- A sorted history is the one the store reads. -/
theorem select_historyRows (hsqlite : sqlite.Documented)
    {sorted : List (SessionId × List FactDraft)}
    (h : ∀ sessionId, ofSession sessionId history = ofSession sessionId sorted)
    (hsorted : sorted.Pairwise fun a b ↦ a.1.text ≤ b.1.text)
    (hfits : ∀ sessionId, (ofSession sessionId history).length < 2 ^ 64 ∧ (ofSession sessionId history).flatten.length < 2 ^ 64) :
    sqlite.select (historyRows (fun _ ↦ []) history) = historyRows (fun _ ↦ []) sorted := by
  have hstrict : (historyRows (fun _ ↦ []) sorted).Pairwise StoredFact.StrictlyPrecedes := by
    apply historyRows_sorted hsorted
    intro sessionId
    rw [addBatches_apply, nil_append, ← h]
    exact hfits sessionId
  have hperm : (sqlite.select (historyRows (fun _ ↦ []) history)).Perm
      (historyRows (fun _ ↦ []) sorted) :=
    (hsqlite.select_perm _).trans (historyRows_perm h)
  apply hperm.eq_of_pairwise _ (hsqlite.select_sorted _) (hstrict.imp fun h ↦ h.precedes)
  intro a b ha hb hab hba
  exact StoredFact.eq_of_precedes hstrict (hperm.subset ha) hb hab hba

/-- The batches of some sessions, one session after the other. -/
def readOrder (sessions : List SessionId) (batches : SessionId → List (List FactDraft)) :
    List (SessionId × List FactDraft) :=
  sessions.flatMap fun sessionId ↦ (batches sessionId).map (sessionId, ·)

theorem ofSession_append (sessionId : SessionId) (first second : List (SessionId × List FactDraft)) :
    ofSession sessionId (first ++ second) =
      ofSession sessionId first ++ ofSession sessionId second := by
  simp [ofSession]

theorem ofSession_map (sessionId owner : SessionId) (batches : List (List FactDraft)) :
    ofSession sessionId (batches.map (owner, ·)) = if owner = sessionId then batches else [] := by
  induction batches with
  | nil => simp [ofSession]
  | cons batch rest ih =>
    rw [map_cons]
    by_cases h : owner = sessionId
    · subst h
      rw [ofSession_cons_self, ih, if_pos rfl, if_pos rfl]
    · rw [ofSession_cons_of_ne h, ih, if_neg h, if_neg h]

variable {sessions : List SessionId}

theorem ofSession_readOrder (hnodup : sessions.Nodup) (batches : SessionId → List (List FactDraft))
    (sessionId : SessionId) : ofSession sessionId (readOrder sessions batches) =
      if sessionId ∈ sessions then batches sessionId else [] := by
  induction sessions with
  | nil => rfl
  | cons owner rest ih =>
    rw [nodup_cons] at hnodup
    rw [readOrder, flatMap_cons, ofSession_append, ← readOrder, ih hnodup.2]
    rw [ofSession_map]
    by_cases h : sessionId = owner
    · subst h
      simp [hnodup.1]
    · simp [h, Ne.symm h]

/-- Sessions in order make a sorted history. -/
theorem readOrder_sorted (h : sessions.Pairwise fun a b ↦ compare a b = .lt)
    (batches : SessionId → List (List FactDraft)) :
    (readOrder sessions batches).Pairwise fun a b ↦ a.1.text ≤ b.1.text := by
  rw [readOrder, pairwise_flatMap]
  constructor
  · intro sessionId _
    rw [pairwise_map]
    exact pairwise_of_forall fun _ _ ↦ String.le_refl _
  · refine h.imp fun {a b} hlt x hx y hy ↦ ?_
    obtain ⟨_, -, rfl⟩ := mem_map.mp hx
    obtain ⟨_, -, rfl⟩ := mem_map.mp hy
    have htext : a.text < b.text := compareOfLessAndEq_eq_lt.mp hlt
    exact String.lt_asymm htext

/-! ## The store between commits -/

/-- The session row that a session's batches lead to. -/
def sessionRow (sessionId : SessionId) (batches : List (List FactDraft)) : SessionRow :=
  ⟨sessionId.text, encodeU64 batches.length, encodeU64 batches.flatten.length⟩

/-- The tables hold the batches of a log, which determine the state. -/
structure Stored (lib : Externals) (sqlite : Sqlite) (log : List (SessionId × List FactDraft))
    (state : LedgerState) (db : Database) : Prop where
  facts_eq : db.facts = historyRows (fun _ ↦ []) log
  built : LedgerState.Built lib (fun sessionId ↦ ofSession sessionId log) state
  sessions : ∀ row ∈ db.sessions, ∃ sessionId, ofSession sessionId log ≠ [] ∧
    row = sessionRow sessionId (ofSession sessionId log)
  complete : ∀ sessionId, ofSession sessionId log ≠ [] →
    ∃ row ∈ db.sessions, row.sessionId = sessionId.text
  fits : db.facts.length ≤ sqlite.maxRows
  restores : ∀ group ∈ log, ∀ draft ∈ group.2, Restores lib draft

theorem stored_empty (lib : Externals) (sqlite : Sqlite) : Stored lib sqlite [] {} {} where
  facts_eq := rfl
  built := LedgerState.built_empty lib
  sessions _ h := absurd h not_mem_nil
  complete _ h := absurd rfl h
  fits := Nat.zero_le _
  restores _ h := absurd h not_mem_nil

theorem length_batchRows (sessionId : SessionId) (version position : Nat)
    (batch : List FactDraft) :
    (batchRows sessionId version position batch).length = batch.length := by
  induction batch generalizing position with
  | nil => rfl
  | cons draft rest ih => rw [batchRows, length_cons, ih, length_cons]

/-- A session has no more facts than the table has rows. -/
theorem length_flatten_ofSession_le (batches : SessionId → List (List FactDraft))
    (history : List (SessionId × List FactDraft)) (sessionId : SessionId) :
    (ofSession sessionId history).flatten.length ≤ (historyRows batches history).length := by
  induction history generalizing batches with
  | nil => exact Nat.le_refl _
  | cons group rest ih =>
    obtain ⟨owner, batch⟩ := group
    have hrest := ih (addBatch batches (owner, batch))
    rw [historyRows, length_append, length_batchRows]
    by_cases h : owner = sessionId
    · subst h
      rw [ofSession_cons_self, flatten_cons, length_append]
      exact Nat.add_le_add_left hrest _
    · rw [ofSession_cons_of_ne h]
      omega

variable {log : List (SessionId × List FactDraft)} {state : LedgerState} {db : Database}

/-- Every session row agrees with the state its log determines. -/
theorem Stored.verifySessionRow (h : Stored lib sqlite log state db)
    {row : SessionRow} (hrow : row ∈ db.sessions) :
    SqliteLedger.verifySessionRow state row = .ok () := by
  obtain ⟨sessionId, hne, rfl⟩ := h.sessions row hrow
  have hsess := h.built.session sessionId
  have hget := h.built.get?_sessions sessionId
  rw [if_neg hne] at hget
  have hlen : (state.session sessionId).facts.length
      = (ofSession sessionId log).flatten.length := by
    rw [hsess.records.facts_eq, length_numbered]
  simp only [SqliteLedger.verifySessionRow, sessionRow, identity_text, ok_bind,
    decodeU64_encodeU64 hsess.version_fits, decodeU64_encodeU64 hsess.positions_fit, hget,
    Option.map_some, hsess.version_eq, hlen]
  exact ensure_of ⟨trivial, trivial⟩

/-- Loading the store rebuilds the state its log determines. -/
theorem Stored.load (h : Stored lib sqlite log state db) (hsqlite : sqlite.Documented) :
    loadStateSnapshot lib sqlite db = .ok state := by
  have hnodup : state.sessions.keys.Nodup := Std.ExtTreeMap.nodup_keys
  let sorted := readOrder state.sessions.keys fun sessionId ↦ ofSession sessionId log
  have hsame : ∀ sessionId, ofSession sessionId log = ofSession sessionId sorted := by
    intro sessionId
    rw [ofSession_readOrder hnodup]
    split
    · rfl
    · rename_i hmem
      rw [Std.ExtTreeMap.mem_keys, Std.ExtTreeMap.mem_iff_isSome_getElem?] at hmem
      exact (h.built.absent sessionId).mp (by simpa using hmem)
  have hsorted : sorted.Pairwise fun a b ↦ a.1.text ≤ b.1.text :=
    readOrder_sorted Std.ExtTreeMap.ordered_keys _
  have hselect : sqlite.select db.facts = historyRows (fun _ ↦ []) sorted := by
    rw [h.facts_eq]
    exact select_historyRows hsqlite hsame hsorted fun sessionId ↦
      ⟨(h.built.session sessionId).version_fits, (h.built.session sessionId).positions_fit⟩
  have hadd : addBatches (fun _ ↦ []) sorted = fun sessionId ↦ ofSession sessionId log := by
    funext sessionId
    rw [addBatches_apply, nil_append, hsame]
  have hrestores : ∀ group ∈ sorted, ∀ draft ∈ group.2, Restores lib draft := by
    intro group hgroup draft hd
    obtain ⟨sessionId, -, hmem⟩ := mem_flatMap.mp hgroup
    obtain ⟨_, hbatch, rfl⟩ := mem_map.mp hmem
    obtain ⟨found, hfound, rfl⟩ := mem_map.mp hbatch
    exact h.restores found (mem_of_mem_filter hfound) draft hd
  have hfits : ∀ sessionId, (ofSession sessionId log).flatten.length + 1 < 2 ^ 64 := by
    intro sessionId
    have hle := length_flatten_ofSession_le (fun _ ↦ []) log sessionId
    have hrows := h.fits
    have hmax := hsqlite.maxRows_lt
    rw [h.facts_eq] at hrows
    omega
  have hpart : ∀ other, addBatches (fun _ ↦ []) sorted other <+: ofSession other log := by
    simp [hadd]
  obtain ⟨_, hloop, hcollected⟩ := Collected.start.history h.built hpart hsorted
    (fun other hother ↦ absurd rfl hother) hrestores hfits
  rw [hadd] at hcollected
  obtain ⟨_, hfinal, hbuilt⟩ := hcollected.finish h.built fun other ↦ prefix_rfl
  rw [hbuilt.unique h.built] at hfinal
  have hcheck : checkAll (SqliteLedger.verifySessionRow state) db.sessions = .ok () :=
    checkAll_eq_ok_iff.mpr fun row hrow ↦ h.verifySessionRow hrow
  rw [loadStateSnapshot, hselect, hloop, ok_bind, hfinal, ok_bind, hcheck]
  rfl

/-! ## A commit to the store -/

/-- The rows a commit writes are those of its batch. -/
theorem map_encodeDraft_zip (sessionId : SessionId) (version position : Nat)
    (batch : List FactDraft) :
    (batch.zip (range' position batch.length)).map
        (fun (draft, position) ↦ encodeDraft sessionId version position draft) =
      batchRows sessionId version position batch := by
  induction batch generalizing position with
  | nil => rfl
  | cons draft rest ih =>
    rw [length_cons, range'_succ, zip_cons_cons, map_cons, ih, batchRows]

theorem historyRows_append (batches : SessionId → List (List FactDraft))
    (first second : List (SessionId × List FactDraft)) :
    historyRows batches (first ++ second) =
      historyRows batches first ++ historyRows (addBatches batches first) second := by
  induction first generalizing batches with
  | nil => rfl
  | cons group rest ih =>
    rw [cons_append, historyRows, historyRows, ih, append_assoc, addBatches]

theorem ofSession_concat (log : List (SessionId × List FactDraft)) (sessionId : SessionId)
    (batch : List FactDraft) : (fun other ↦ ofSession other (log ++ [(sessionId, batch)])) =
      Function.update (fun other ↦ ofSession other log) sessionId
        (ofSession sessionId log ++ [batch]) := by
  funext other
  rw [ofSession_append]
  by_cases h : other = sessionId
  · subst h
    simp [ofSession]
  · simp [ofSession, h, Ne.symm h]

/-- Every session row after the first row of a session has been made sure of. -/
theorem Stored.mem_insertSession (h : Stored lib sqlite log state db) {row : SessionRow}
    (hrow : row ∈ insertSession db.sessions sessionId) :
    ∃ owner, (ofSession owner log ≠ [] ∨ owner = sessionId) ∧
      row = sessionRow owner (ofSession owner log) := by
  rw [insertSession] at hrow
  split at hrow
  · obtain ⟨owner, hne, heq⟩ := h.sessions row hrow
    exact ⟨owner, .inl hne, heq⟩
  · rename_i hany
    rcases mem_append.mp hrow with hold | hnew
    · obtain ⟨owner, hne, heq⟩ := h.sessions row hold
      exact ⟨owner, .inl hne, heq⟩
    · rw [mem_singleton] at hnew
      have hnone : ofSession sessionId log = [] := by
        by_contra hsome
        obtain ⟨found, hfound, htext⟩ := h.complete sessionId hsome
        exact hany (any_eq_true.mpr ⟨found, hfound, by simp [htext]⟩)
      exact ⟨sessionId, .inr rfl, by rw [hnew, hnone]; rfl⟩

theorem exists_mem_insertSession (rows : List SessionRow) (sessionId : SessionId) :
    (∃ row ∈ insertSession rows sessionId, row.sessionId = sessionId.text) ∧
      ∀ row ∈ rows, row ∈ insertSession rows sessionId := by
  rw [insertSession]
  split
  · rename_i hany
    obtain ⟨row, hrow, htext⟩ := any_eq_true.mp hany
    exact ⟨⟨row, hrow, by simpa using htext⟩, fun row hrow ↦ hrow⟩
  · refine ⟨⟨_, mem_append_right _ (mem_singleton_self _), rfl⟩, fun row hrow ↦ ?_⟩
    exact mem_append_left _ hrow

variable {projection : SessionProjection}

/-- A batch that the ledger appends is stored with its session row. -/
theorem Stored.appended (h : Stored lib sqlite log state db)
    (happ : LedgerState.Appends lib state sessionId version batch position projection)
    (hrestores : ∀ draft ∈ batch, Restores lib draft)
    (hfits : (db.facts ++ batchRows sessionId (version + 1) position batch).length ≤ sqlite.maxRows) :
    Stored lib sqlite (log ++ [(sessionId, batch)])
      (state.appended sessionId batch position projection)
      { sessions := updateSession (insertSession db.sessions sessionId) sessionId version
          (version + 1) (position + (batch.length - 1))
        facts := db.facts ++ batchRows sessionId (version + 1) position batch } := by
  have hsess := h.built.session sessionId
  have hver : (ofSession sessionId log).length = version :=
    hsess.version_eq.symm.trans happ.version_eq
  have hposition : position = (ofSession sessionId log).flatten.length + 1 :=
    hsess.records.position_eq happ.position_eq
  have hpos : 0 < batch.length := length_pos_iff.mpr happ.nonempty
  have hlast : position + (batch.length - 1)
      = (ofSession sessionId (log ++ [(sessionId, batch)])).flatten.length := by
    rw [ofSession_append, ofSession_cons_self, flatten_append, length_append, hposition]
    simp [ofSession]
    omega
  have hself : ofSession sessionId (log ++ [(sessionId, batch)])
      = ofSession sessionId log ++ [batch] := by
    rw [ofSession_append, ofSession_cons_self]
    rfl
  have hother : ∀ owner, owner ≠ sessionId →
      ofSession owner (log ++ [(sessionId, batch)]) = ofSession owner log := by
    intro owner hne
    rw [ofSession_append, ofSession_cons_of_ne (Ne.symm hne)]
    exact append_nil _
  refine ⟨?_, ?_, ?_, ?_, hfits, ?_⟩
  · rw [historyRows_append, ← h.facts_eq, historyRows, historyRows, append_nil,
      addBatches_apply, nil_append, hver, ← hposition]
  · rw [ofSession_concat]
    exact h.built.appended happ
  · intro row hrow
    obtain ⟨_, hold, rfl⟩ := mem_map.mp hrow
    obtain ⟨owner, howner, rfl⟩ := h.mem_insertSession hold
    refine ⟨owner, ?_, ?_⟩
    · by_cases heq : owner = sessionId
      · rw [heq, hself]
        simp
      · rw [hother owner heq]
        exact howner.resolve_right heq
    · by_cases heq : owner = sessionId
      · subst heq
        rw [if_pos (by simp [updates, sessionRow, hver]), hlast, sessionRow, sessionRow, hself,
          length_append, length_singleton, hver]
      · rw [if_neg, hother owner heq]
        intro hupdates
        rw [updates, Bool.and_eq_true, beq_iff_eq] at hupdates
        exact heq (LedgerIdentity.ext_text hupdates.1)
  · intro owner howner
    obtain ⟨⟨first, hfirst, htext⟩, hkept⟩ := exists_mem_insertSession db.sessions sessionId
    have hrow : ∃ row ∈ insertSession db.sessions sessionId, row.sessionId = owner.text := by
      by_cases heq : owner = sessionId
      · exact ⟨first, hfirst, by rw [htext, heq]⟩
      · rw [hother owner heq] at howner
        obtain ⟨row, hrow, hrowText⟩ := h.complete owner howner
        exact ⟨row, hkept row hrow, hrowText⟩
    obtain ⟨row, hrow, hrowText⟩ := hrow
    refine ⟨_, mem_map_of_mem hrow, ?_⟩
    split
    · exact hrowText
    · exact hrowText
  · intro group hgroup
    rcases mem_append.mp hgroup with hold | hnew
    · exact h.restores group hold
    · rw [mem_singleton] at hnew
      subst hnew
      exact hrestores

/-- A transaction that goes through commits to the state the tables hold. -/
theorem Stored.commitTransaction (h : Stored lib sqlite log state db) (hsqlite : sqlite.Documented)
    {call : CommitCall} {result : CommitResult} {next : Database}
    (hdecided : SqliteLedger.commitTransaction lib sqlite db call = .ok (result, next))
    (hrestores : ∀ draft ∈ call.drafts, Restores lib draft) :
    ∃ log, Stored lib sqlite log
      (state.commit lib call.sessionId call.expectedSessionVersion call.drafts).2 next := by
  rw [SqliteLedger.commitTransaction, h.load hsqlite, ok_bind] at hdecided
  rcases LedgerState.commit_cases lib state call.sessionId call.expectedSessionVersion
    call.drafts with ⟨e, herror⟩ | ⟨session, hreplays⟩ | ⟨position, projection, happ⟩
  · rw [herror] at hdecided
    cases hdecided
  · rw [LedgerState.commit_of_replays hreplays] at hdecided ⊢
    obtain ⟨rfl, rfl⟩ := Prod.mk.inj (Except.ok.inj hdecided)
    exact ⟨log, h⟩
  · have hpos : 0 < call.drafts.length := length_pos_iff.mpr happ.nonempty
    have hlast : (range' position call.drafts.length).getLast?
        = some (position + (call.drafts.length - 1)) := by
      rw [getLast?_range', if_neg (by omega)]
      congr 1
      omega
    rw [LedgerState.commit_of_appends happ] at hdecided ⊢
    simp only [Except.mapError, ok_bind, reduceCtorEq, if_false, hlast, okOr_some,
      map_encodeDraft_zip, ok_iff, Prod.mk.injEq] at hdecided
    obtain ⟨-, hfits, -, rfl⟩ := hdecided
    exact ⟨_, h.appended happ hrestores hfits⟩

/-! ## A store with one session -/

/-- The tables hold the batches of one session and nothing else. -/
structure Keeps (lib : Externals) (sqlite : Sqlite) (db : Database) (sessionId : SessionId)
    (batches : List (List FactDraft)) (projection : SessionProjection) : Prop where
  stored : ∃ log state, Stored lib sqlite log state db ∧
    LedgerState.Holds lib state sessionId batches projection
  sessions_eq : db.sessions = if batches = [] then [] else [sessionRow sessionId batches]

theorem keeps_empty (lib : Externals) (sqlite : Sqlite) (sessionId : SessionId) :
    Keeps lib sqlite {} sessionId [] {} :=
  ⟨⟨[], {}, stored_empty lib sqlite, LedgerState.holds_empty lib sessionId⟩, rfl⟩

/-- A batch that follows the history goes through. -/
theorem Keeps.commit {batches : List (List FactDraft)} {next : SessionProjection}
    (h : Keeps lib sqlite db sessionId batches projection) (hsqlite : sqlite.Documented)
    (hb : LedgerState.Follows lib batches projection batch next)
    (hrestores : ∀ draft ∈ batch, Restores lib draft)
    (hfits : db.facts.length + batch.length ≤ sqlite.maxRows) :
    ∃ after, SqliteLedger.commitTransaction lib sqlite db ⟨sessionId, batches.length, batch⟩ =
        .ok (⟨.committed, batches.length + 1,
          range' (batches.flatten.length + 1) batch.length⟩, after) ∧
      after.facts = db.facts ++
        batchRows sessionId (batches.length + 1) (batches.flatten.length + 1) batch ∧
      Keeps lib sqlite after sessionId (batches ++ [batch]) next := by
  obtain ⟨⟨_, _, hstored, hholds⟩, hsessions⟩ := h
  have happ := hholds.appends hb
  obtain ⟨_, hcom, hmoved⟩ := hholds.commit hb
  have hpos : 0 < batch.length := length_pos_iff.mpr hb.nonempty
  have hlast : (range' (batches.flatten.length + 1) batch.length).getLast?
      = some (batches.flatten.length + 1 + (batch.length - 1)) := by
    rw [getLast?_range', if_neg (by omega)]
    congr 1
    omega
  have hinserted : insertSession db.sessions sessionId = [sessionRow sessionId batches] := by
    rw [hsessions, insertSession]
    split
    · rename_i hnil
      subst hnil
      rfl
    · simp [sessionRow]
  have hrow : (insertSession db.sessions sessionId).countP (updates sessionId batches.length) = 1 := by
    rw [hinserted]
    simp [updates, sessionRow]
  have hfits' : (db.facts ++ batchRows sessionId (batches.length + 1) (batches.flatten.length + 1)
      batch).length ≤ sqlite.maxRows := by
    rw [length_append, length_batchRows]
    exact hfits
  refine ⟨_, ?_, ?_, ⟨⟨_, _, hstored.appended happ hrestores hfits', ?_⟩, ?_⟩⟩
  · rw [SqliteLedger.commitTransaction, hstored.load hsqlite, ok_bind, hcom]
    simp only [Except.mapError, ok_bind, reduceCtorEq, if_false, hlast, okOr_some,
      map_encodeDraft_zip, ensure_of hrow, ensure_of hfits', pure_eq_ok]
  · rfl
  · rw [LedgerState.commit_of_appends happ] at hcom
    exact (Prod.mk.inj hcom).2 ▸ hmoved
  · have hflatten : batches.flatten.length + 1 + (batch.length - 1)
        = (batches ++ [batch]).flatten.length := by
      simp
      omega
    rw [if_neg (by simp), hinserted, hflatten]
    simp [updateSession, updates, sessionRow]

/-- The tables of one session load as its history. -/
theorem Keeps.load {batches : List (List FactDraft)}
    (h : Keeps lib sqlite db sessionId batches projection) (hsqlite : sqlite.Documented) :
    ∃ state, loadStateSnapshot lib sqlite db = .ok state ∧
      LedgerState.Holds lib state sessionId batches projection := by
  obtain ⟨⟨_, state, hstored, hholds⟩, -⟩ := h
  exact ⟨state, hstored.load hsqlite, hholds⟩

/-- The calls that were answered with a result. -/
def successes (answers : List (Call × Except SqliteLedgerError CommitResult)) : List CommitCall :=
  answers.filterMap fun (call, answer) ↦ if answer.isOk then some call.toCommitCall else none

/-- A commit to the store commits to the state its tables hold, if it succeeds. -/
theorem Stored.commit (h : Stored lib sqlite log state db) (hsqlite : sqlite.Documented)
    {call : Call} (hrestores : ∀ result, (SqliteLedger.commit lib sqlite db call).1 = .ok result →
      ∀ draft ∈ call.drafts, Restores lib draft) :
    ∃ log, Stored lib sqlite log ((ledgerMachine lib).runFrom state
        (successes [(call, (SqliteLedger.commit lib sqlite db call).1)])).2
      (SqliteLedger.commit lib sqlite db call).2 := by
  cases hdecided : SqliteLedger.commitTransaction lib sqlite db call.toCommitCall with
  | error reason =>
    have hcom : SqliteLedger.commit lib sqlite db call = (.error reason, db) := by
      rw [SqliteLedger.commit, hdecided]
    rw [hcom]
    exact ⟨log, h⟩
  | ok decided =>
    obtain ⟨result, next⟩ := decided
    cases hcomp : call.completed with
    | false =>
      have hcom : SqliteLedger.commit lib sqlite db call = (.error .storage, db) := by
        simp [SqliteLedger.commit, hdecided, hcomp]
      rw [hcom]
      exact ⟨log, h⟩
    | true =>
      have hcom : SqliteLedger.commit lib sqlite db call = (.ok result, next) := by
        simp [SqliteLedger.commit, hdecided, hcomp]
      rw [hcom] at hrestores ⊢
      exact h.commitTransaction hsqlite hdecided (hrestores result rfl)

/-- Loading the store after any sequence of commits, to any sessions in any interleaving, succeeds
and gives the ledger the successful ones build in memory, in the order they were made. -/
theorem loadStateSnapshot_of_run (hsqlite : sqlite.Documented) (calls : List Call)
    (hrestores : ∀ (call : Call) (result : CommitResult),
      (call, .ok result) ∈ ((machine lib sqlite).run calls).1 →
        ∀ draft ∈ call.drafts, Restores lib draft) :
    loadStateSnapshot lib sqlite ((machine lib sqlite).run calls).2 =
      .ok ((ledgerMachine lib).run (successes ((machine lib sqlite).run calls).1)).2 := by
  have hstored := (machine lib sqlite).run_induction
    (P := fun answers db ↦
      (∀ (call : Call) (result : CommitResult), (call, .ok result) ∈ answers →
        ∀ draft ∈ call.drafts, Restores lib draft) →
      ∃ log, Stored lib sqlite log ((ledgerMachine lib).run (successes answers)).2 db)
    (fun _ ↦ ⟨[], stored_empty lib sqlite⟩) ?_ calls hrestores
  · obtain ⟨log, h⟩ := hstored
    exact h.load hsqlite
  · intro answers db call ih hanswers
    obtain ⟨log, h⟩ := ih fun call result hmem ↦ hanswers call result (mem_append_left _ hmem)
    rw [successes, filterMap_append, ← successes, ← successes, Machine.run,
      Machine.runFrom_append]
    refine h.commit hsqlite fun result hresult ↦ hanswers call result ?_
    rw [← hresult]
    exact mem_append_right _ (mem_singleton_self _)

/-! ## A concrete store -/

/-- A store that sorts its rows and holds as many as SQLite has row identifiers. -/
def referenceSqlite : Sqlite where
  select rows := rows.mergeSort fun a b ↦ a.Precedes b
  maxRows := 2 ^ 63 - 1

theorem referenceSqlite_documented : referenceSqlite.Documented where
  select_perm rows := mergeSort_perm rows _
  select_sorted rows := by
    have hsorted := @pairwise_mergeSort StoredFact (fun a b ↦ a.Precedes b)
      (fun a b c hab hbc ↦
        decide_eq_true ((of_decide_eq_true hab).trans (of_decide_eq_true hbc)))
      (fun a b ↦ by simpa using StoredFact.precedes_total a b) rows
    exact hsorted.imp fun h ↦ of_decide_eq_true h
  maxRows_lt := by decide

/-- The call that opens the concrete session. -/
def openingCall : Call := ⟨⟨LedgerState.runSession, 0, [LedgerState.openingFact]⟩, true⟩

/-- A written fact is restored. -/
theorem restores_written {fact : FactDraft} {fields : List (String × Value)}
    (h : Written reference fact fields) : Restores reference fact :=
  CanonicalPayload.fromCanonicalParts_of_fromValue reference_documented (Value.plain_json h.plain)
    h.payload_eq

theorem restores_openingFact : Restores reference LedgerState.openingFact := by
  have hreadable : (Value.object []).Readable := ⟨by simp [Value.WellFormed, Value.WellFormedMembers], by decide, by
    simp [Value.Exact, Value.ExactMembers]⟩
  exact CanonicalPayload.fromCanonicalParts_of_fromValue reference_documented hreadable
    (fromValue_referencePayload hreadable.exact)

/-- The opening goes through. -/
theorem exists_opened : ∃ db, commitTransaction reference referenceSqlite {}
      openingCall.toCommitCall = .ok (⟨.committed, 1, [1]⟩, db) ∧
    db.facts = batchRows LedgerState.runSession 1 1 [LedgerState.openingFact] ∧
    Keeps reference referenceSqlite db LedgerState.runSession [[LedgerState.openingFact]]
      { opened := true } :=
  (keeps_empty reference referenceSqlite LedgerState.runSession).commit referenceSqlite_documented
    LedgerState.follows_opening (forall_mem_singleton.mpr restores_openingFact) (by decide)

theorem successes_opening : successes ((machine reference referenceSqlite).run [openingCall]).1 =
    [openingCall.toCommitCall] := by
  obtain ⟨_, hcom, -⟩ := exists_opened
  have hanswer : (SqliteLedger.commit reference referenceSqlite {} openingCall).1
      = .ok ⟨.committed, 1, [1]⟩ := by
    rw [SqliteLedger.commit, hcom]
    rfl
  change successes [(openingCall, (SqliteLedger.commit reference referenceSqlite {} openingCall).1)]
    = _
  rw [hanswer]
  rfl

theorem loadStateSnapshot_after_opening :
    loadStateSnapshot reference referenceSqlite
        ((machine reference referenceSqlite).run [openingCall]).2 =
      .ok ((ledgerMachine reference).run [openingCall.toCommitCall]).2 := by
  rw [← successes_opening]
  apply loadStateSnapshot_of_run referenceSqlite_documented
  intro call result hmem draft hd
  rw [Machine.run, Machine.runFrom_cons, Machine.runFrom_nil, mem_singleton,
    Prod.mk.injEq] at hmem
  rw [hmem.1] at hd
  obtain rfl := mem_singleton.mp hd
  exact restores_openingFact

end SqliteLedger

end Garive
