import Garive.Ledger.Batches
import Garive.Sqlite.Storage

/-!
# Loading stored batches

What the loop over the rows makes of rows that were written by commits. A batch's rows are collected
into the batch, and the batch is committed when the next one begins or the rows end. As long as the
batches of a session come in their order and the rows of a session are not interrupted by another
session's, the loop rebuilds the ledger those batches determine.
-/

namespace Garive

open List

namespace SqliteLedger

variable {lib : Externals}

/-! ## Reading a written row -/

theorem decodeU64_encodeU64 {n : Nat} (h : n < 2 ^ 64) (field : String) :
    decodeU64 (encodeU64 n) field = .ok n := by
  rw [decodeU64, encodeU64, if_pos (length_bigEndian 8 n), ofBigEndian_bigEndian (by omega)]

@[simp] theorem identity_text {label : String} (value : LedgerIdentity label) (field : String) :
    identity value.text field = .ok value := by
  simp [identity]

@[simp] theorem optionalIdentity_text {label : String} (value : Option (LedgerIdentity label))
    (field : String) : optionalIdentity (value.map (·.text)) field = .ok value := by
  cases value <;> simp [optionalIdentity]

theorem decodeSchemaVersion_toNat (version : UInt32) :
    decodeSchemaVersion (version.toNat : Int) = some version := by
  have hlt := version.toNat_lt
  rw [decodeSchemaVersion, if_pos (by omega)]
  simp

/-- The payload reads back from its own text and digest. -/
def Restores (lib : Externals) (draft : FactDraft) : Prop :=
  CanonicalPayload.fromCanonicalParts lib draft.payload.json draft.payload.sha256
    = .ok draft.payload

variable {draft : FactDraft}

/-- A written draft reads back. -/
theorem decodeDraft_encodeDraft (h : Restores lib draft) (sessionId : SessionId)
    (version position : Nat) :
    decodeDraft lib (encodeDraft sessionId version position draft) = .ok draft := by
  simp [decodeDraft, encodeDraft, decodeSchemaVersion_toNat, show CanonicalPayload.fromCanonicalParts
    lib draft.payload.json draft.payload.sha256 = .ok draft.payload from h, Except.mapError]

/-! ## The rows of a batch -/

/-- The rows of a batch at consecutive positions. -/
def batchRows (sessionId : SessionId) (version position : Nat) : List FactDraft → List StoredFact
  | [] => []
  | draft :: rest => encodeDraft sessionId version position draft
      :: batchRows sessionId version (position + 1) rest

theorem loadRows_append (loop : LoadState) (first second : List StoredFact) :
    loadRows lib loop (first ++ second) = (do
      let next ← loadRows lib loop first
      loadRows lib next second) := by
  induction first generalizing loop with
  | nil => rfl
  | cons row rest ih =>
    rw [cons_append, loadRows, loadRows]
    cases loadRow lib loop row with
    | error e => rfl
    | ok next => exact ih next

variable {sessionId : SessionId}

/-- A row of the batch being collected joins it. -/
theorem loadRow_joins {loop : LoadState} {version position : Nat}
    (hsess : loop.groupSession = some sessionId) (hver : loop.groupVersion = version)
    (hposition : loop.expectedPosition = position) (hv : version < 2 ^ 64)
    (hp : position + 1 < 2 ^ 64) (hdraft : Restores lib draft) :
    loadRow lib loop (encodeDraft sessionId version position draft) =
      .ok { loop with expectedPosition := position + 1, group := loop.group ++ [draft] } := by
  have hclose : closeGroup lib loop sessionId version = .ok loop := by
    simp [closeGroup, hsess, hver]
  have hopen : openGroup loop sessionId version = loop := by
    simp [openGroup, hsess]
  have hnext : checkedAdd position 1 = some (position + 1) := by
    rw [checkedAdd_eq_some_iff]
    exact ⟨rfl, hp⟩
  rw [loadRow]
  simp only [encodeDraft, identity_text, ok_bind, decodeU64_encodeU64 hv,
    decodeU64_encodeU64 (show position < 2 ^ 64 by omega), hclose, hopen, hposition, hnext]
  rw [← encodeDraft, decodeDraft_encodeDraft hdraft]
  simp

/-- The remaining rows of a batch join it. -/
theorem loadRows_join {loop : LoadState} {version position : Nat} {batch : List FactDraft}
    (hsess : loop.groupSession = some sessionId) (hver : loop.groupVersion = version)
    (hposition : loop.expectedPosition = position) (hv : version < 2 ^ 64)
    (hp : position + batch.length < 2 ^ 64) (hbatch : ∀ draft ∈ batch, Restores lib draft) :
    loadRows lib loop (batchRows sessionId version position batch) =
      .ok { loop with
        expectedPosition := position + batch.length, group := loop.group ++ batch } := by
  induction batch generalizing loop position with
  | nil =>
    subst hposition
    simp [batchRows, loadRows]
  | cons draft rest ih =>
    rw [length_cons] at hp
    have hrest := @ih { loop with expectedPosition := position + 1, group := loop.group ++ [draft] }
      (position + 1) hsess hver rfl (by omega) fun d hd ↦ hbatch d (mem_cons_of_mem _ hd)
    rw [batchRows, loadRows, loadRow_joins hsess hver hposition hv (by omega)
      (hbatch draft (mem_cons_self ..)), ok_bind, hrest]
    simp [Nat.add_assoc, Nat.add_comm 1]

/-- The first row of a batch closes the one before it and opens its own. -/
theorem loadRow_opens {loop closed : LoadState} {version position : Nat}
    (hclose : closeGroup lib loop sessionId version = .ok closed)
    (hnone : closed.groupSession = none) (hgroup : closed.group = [])
    (hposition : closed.expectedPosition = position) (hv : version < 2 ^ 64)
    (hp : position + 1 < 2 ^ 64) (hdraft : Restores lib draft) :
    loadRow lib loop (encodeDraft sessionId version position draft) =
      .ok { closed with
        groupSession := some sessionId, groupVersion := version
        expectedPosition := position + 1, group := [draft] } := by
  have hopen : openGroup closed sessionId version =
      { closed with groupSession := some sessionId, groupVersion := version } := by
    simp [openGroup, hnone]
  have hnext : checkedAdd position 1 = some (position + 1) := by
    rw [checkedAdd_eq_some_iff]
    exact ⟨rfl, hp⟩
  rw [loadRow]
  simp only [encodeDraft, identity_text, ok_bind, decodeU64_encodeU64 hv,
    decodeU64_encodeU64 (show position < 2 ^ 64 by omega), hclose, hopen, hposition, hnext, hgroup]
  rw [← encodeDraft, decodeDraft_encodeDraft hdraft]
  simp

/-- The rows of a batch close the batch before it and are collected. -/
theorem loadRows_batch {loop closed : LoadState} {version position : Nat} {batch : List FactDraft}
    (hne : batch ≠ []) (hclose : closeGroup lib loop sessionId version = .ok closed)
    (hnone : closed.groupSession = none) (hgroup : closed.group = [])
    (hposition : closed.expectedPosition = position) (hv : version < 2 ^ 64)
    (hp : position + batch.length < 2 ^ 64) (hbatch : ∀ draft ∈ batch, Restores lib draft) :
    loadRows lib loop (batchRows sessionId version position batch) =
      .ok { closed with
        groupSession := some sessionId, groupVersion := version
        expectedPosition := position + batch.length, group := batch } := by
  obtain ⟨draft, rest, rfl⟩ := exists_cons_of_ne_nil hne
  rw [length_cons] at hp
  have hfits : position + 1 + rest.length < 2 ^ 64 := by omega
  rw [batchRows, loadRows, loadRow_opens hclose hnone hgroup hposition hv (by omega)
    (hbatch draft (mem_cons_self ..)), ok_bind,
    loadRows_join rfl rfl rfl hv hfits fun d hd ↦ hbatch d (mem_cons_of_mem _ hd)]
  simp [Nat.add_assoc, Nat.add_comm 1]

/-! ## The rows of a history -/

/-- Batches by session, with one more batch of one session. -/
def addBatch (batches : SessionId → List (List FactDraft)) (group : SessionId × List FactDraft) :
    SessionId → List (List FactDraft) :=
  Function.update batches group.1 (batches group.1 ++ [group.2])

/-- Batches by session, with more batches in a global order. -/
def addBatches (batches : SessionId → List (List FactDraft)) :
    List (SessionId × List FactDraft) → SessionId → List (List FactDraft)
  | [] => batches
  | group :: rest => addBatches (addBatch batches group) rest

/-- The rows of batches in a global order, after the batches that were there before. -/
def historyRows (batches : SessionId → List (List FactDraft)) :
    List (SessionId × List FactDraft) → List StoredFact
  | [] => []
  | group :: rest =>
    batchRows group.1 ((batches group.1).length + 1) ((batches group.1).flatten.length + 1) group.2
      ++ historyRows (addBatch batches group) rest

theorem addBatch_self (batches : SessionId → List (List FactDraft)) (sessionId : SessionId)
    (batch : List FactDraft) :
    addBatch batches (sessionId, batch) sessionId = batches sessionId ++ [batch] :=
  Function.update_self ..

theorem addBatch_of_ne {batches : SessionId → List (List FactDraft)} {other : SessionId}
    {batch : List FactDraft} (h : other ≠ sessionId) :
    addBatch batches (sessionId, batch) other = batches other :=
  Function.update_of_ne h ..

/-- The batches of one session, in their order. -/
def ofSession (sessionId : SessionId) (history : List (SessionId × List FactDraft)) :
    List (List FactDraft) :=
  (history.filter (·.1 = sessionId)).map (·.2)

theorem ofSession_cons_self (sessionId : SessionId) (batch : List FactDraft)
    (rest : List (SessionId × List FactDraft)) :
    ofSession sessionId ((sessionId, batch) :: rest) = batch :: ofSession sessionId rest := by
  simp [ofSession]

theorem ofSession_cons_of_ne {other : SessionId} {batch : List FactDraft}
    {rest : List (SessionId × List FactDraft)} (h : other ≠ sessionId) :
    ofSession sessionId ((other, batch) :: rest) = ofSession sessionId rest := by
  simp [ofSession, h]

theorem addBatches_apply (batches : SessionId → List (List FactDraft))
    (history : List (SessionId × List FactDraft)) (sessionId : SessionId) :
    addBatches batches history sessionId = batches sessionId ++ ofSession sessionId history := by
  induction history generalizing batches with
  | nil => simp [addBatches, ofSession]
  | cons group rest ih =>
    obtain ⟨owner, _⟩ := group
    rw [addBatches, ih]
    by_cases h : owner = sessionId
    · subst h
      rw [addBatch_self, ofSession_cons_self, append_assoc, singleton_append]
    · rw [addBatch_of_ne (Ne.symm h), ofSession_cons_of_ne h]

/-! ## The loop rebuilds the ledger -/

section Rebuild

variable {total batches : SessionId → List (List FactDraft)} {target : LedgerState}
  {loop : LoadState}

/-- The loop has read the given batches: all but the last are committed, and the last one, which
belongs to the session that comes last so far, is being collected. -/
inductive Collected (lib : Externals) : (SessionId → List (List FactDraft)) → LoadState → Prop
  | start : Collected lib (fun _ ↦ []) {}
  | group {done : SessionId → List (List FactDraft)} {loop : LoadState} (sessionId : SessionId)
    (hbuilt : LedgerState.Built lib done loop.state)
    (hsess : loop.groupSession = some sessionId)
    (hver : loop.groupVersion = (done sessionId).length + 1)
    (hposition : loop.expectedPosition = (done sessionId).flatten.length + 1 + loop.group.length)
    (hlast : ∀ other, done other ≠ [] → other.text ≤ sessionId.text) :
    Collected lib (addBatch done (sessionId, loop.group)) loop

/-- A stored batch is committed at its stored version. -/
theorem applyGroup_next {done : SessionId → List (List FactDraft)} {state : LedgerState}
    (htotal : LedgerState.Built lib total target) (h : LedgerState.Built lib done state)
    {batch : List FactDraft}
    (hpart : ∀ other, addBatch done (sessionId, batch) other <+: total other) :
    ∃ next, applyGroup lib state sessionId ((done sessionId).length + 1) batch = .ok next ∧
      LedgerState.Built lib (addBatch done (sessionId, batch)) next := by
  have hnext : done sessionId ++ [batch] <+: total sessionId := by
    have hself := hpart sessionId
    rwa [addBatch_self] at hself
  have hdone : ∀ other, done other <+: total other := by
    intro other
    by_cases heq : other = sessionId
    · subst heq
      exact (prefix_append _ _).trans hnext
    · have hother := hpart other
      rwa [addBatch_of_ne heq] at hother
  obtain ⟨_, happ⟩ := htotal.appends_next h hdone hnext
  refine ⟨_, ?_, h.appended happ⟩
  rw [applyGroup, ensure_of (Nat.succ_ne_zero _), ok_bind, Nat.add_sub_cancel,
    LedgerState.commit_of_appends happ]
  simp

/-- The loop's last batch is committed at the end. -/
theorem Collected.finish (h : Collected lib batches loop)
    (htotal : LedgerState.Built lib total target) (hpart : ∀ other, batches other <+: total other) :
    ∃ state, finishGroup lib loop = .ok state ∧ LedgerState.Built lib batches state := by
  cases h with
  | start => exact ⟨{}, rfl, LedgerState.built_empty lib⟩
  | group sessionId hbuilt hsess hver hposition hlast =>
    obtain ⟨next, happly, hnext⟩ := applyGroup_next htotal hbuilt hpart
    refine ⟨next, ?_, hnext⟩
    simp only [finishGroup, hsess, hver]
    exact happly

/-- The rows of the next batch are collected, and the batch before it is committed. -/
theorem Collected.batch (h : Collected lib batches loop)
    (htotal : LedgerState.Built lib total target) {batch : List FactDraft}
    (hpart : ∀ other, addBatch batches (sessionId, batch) other <+: total other)
    (horder : ∀ other, batches other ≠ [] → other.text ≤ sessionId.text)
    (hrestores : ∀ draft ∈ batch, Restores lib draft)
    (hfits : (total sessionId).flatten.length + 1 < 2 ^ 64) :
    ∃ next, loadRows lib loop (batchRows sessionId ((batches sessionId).length + 1)
        ((batches sessionId).flatten.length + 1) batch) = .ok next ∧
      Collected lib (addBatch batches (sessionId, batch)) next := by
  have hself := hpart sessionId
  rw [addBatch_self] at hself
  obtain ⟨rest, hrest⟩ := hself
  have hmem : batch ∈ total sessionId := by
    rw [← hrest]
    simp
  have hne : batch ≠ [] := ((htotal.session sessionId).valid batch hmem).1
  have hver : (batches sessionId).length + 1 < 2 ^ 64 := by
    have hlt := (htotal.session sessionId).version_fits
    have hle : (batches sessionId).length + 1 ≤ (total sessionId).length := by
      rw [← hrest]
      simp
    omega
  have hlen : (batches sessionId).flatten.length + 1 + batch.length < 2 ^ 64 := by
    have hle : (batches sessionId).flatten.length + batch.length
        ≤ (total sessionId).flatten.length := by
      rw [← hrest]
      simp
    omega
  cases h with
  | start =>
    have hclose : closeGroup lib {} sessionId 1 = .ok {} := rfl
    let next : LoadState := ⟨{}, some sessionId, 1, batch, 1 + batch.length⟩
    have hcollected : Collected lib (addBatch (fun _ ↦ []) (sessionId, next.group)) next :=
      .group sessionId (LedgerState.built_empty lib) rfl rfl rfl fun other hother ↦
        absurd rfl hother
    exact ⟨next, loadRows_batch hne hclose rfl rfl rfl hver hlen hrestores, hcollected⟩
  | @group done _ owner hbuilt hsess hgroupVer hposition hlast =>
    have hdone : ∀ other, addBatch done (owner, loop.group) other <+: total other := by
      intro other
      by_cases heq : other = sessionId
      · subst heq
        exact (prefix_append _ _).trans ⟨rest, hrest⟩
      · have hother := hpart other
        rwa [addBatch_of_ne heq] at hother
    obtain ⟨state, happly, hstate⟩ := applyGroup_next htotal hbuilt hdone
    -- The next batch is of the session being collected, or of one that has not come up yet.
    have hnew : owner ≠ sessionId → addBatch done (owner, loop.group) sessionId = [] := by
      intro hneq
      by_contra hsome
      have hle : sessionId.text ≤ owner.text := by
        rw [addBatch_of_ne (Ne.symm hneq)] at hsome
        exact hlast sessionId hsome
      have hge : owner.text ≤ sessionId.text := by
        apply horder owner
        rw [addBatch_self]
        simp
      exact hneq (LedgerIdentity.ext_text (String.le_antisymm hge hle))
    have hbdry : owner ≠ sessionId ∨ loop.groupVersion
        ≠ (addBatch done (owner, loop.group) sessionId).length + 1 := by
      by_cases heq : owner = sessionId
      · right
        subst heq
        rw [addBatch_self, hgroupVer]
        simp
      · exact .inl heq
    have hclose : closeGroup lib loop sessionId
        ((addBatch done (owner, loop.group) sessionId).length + 1) = .ok
        { loop with
          state
          groupSession := none
          group := []
          expectedPosition := if owner ≠ sessionId then 1 else loop.expectedPosition } := by
      simp only [closeGroup, hsess]
      rw [if_pos hbdry, hgroupVer, happly]
      rfl
    have hexp : (if owner ≠ sessionId then 1 else loop.expectedPosition)
        = (addBatch done (owner, loop.group) sessionId).flatten.length + 1 := by
      split
      · rename_i hneq
        rw [hnew hneq]
        rfl
      · rename_i heq
        rw [not_not] at heq
        subst heq
        rw [addBatch_self, hposition, flatten_concat, length_append]
        omega
    let next : LoadState := ⟨state, some sessionId,
      (addBatch done (owner, loop.group) sessionId).length + 1, batch,
      (addBatch done (owner, loop.group) sessionId).flatten.length + 1 + batch.length⟩
    have hcollected : Collected lib (addBatch (addBatch done (owner, loop.group))
        (sessionId, next.group)) next := .group sessionId hstate rfl rfl rfl horder
    exact ⟨next, loadRows_batch hne hclose rfl rfl hexp hver hlen hrestores,
      hcollected⟩

/-- The rows of batches whose sessions come in order are collected. -/
theorem Collected.history (h : Collected lib batches loop)
    (htotal : LedgerState.Built lib total target) {history : List (SessionId × List FactDraft)}
    (hpart : ∀ other, addBatches batches history other <+: total other)
    (hsorted : history.Pairwise fun a b ↦ a.1.text ≤ b.1.text)
    (horder : ∀ other, batches other ≠ [] → ∀ group ∈ history, other.text ≤ group.1.text)
    (hrestores : ∀ group ∈ history, ∀ draft ∈ group.2, Restores lib draft)
    (hfits : ∀ sessionId, (total sessionId).flatten.length + 1 < 2 ^ 64) :
    ∃ next, loadRows lib loop (historyRows batches history) = .ok next ∧
      Collected lib (addBatches batches history) next := by
  induction history generalizing batches loop with
  | nil => exact ⟨loop, rfl, h⟩
  | cons group rest ih =>
    obtain ⟨sessionId, batch⟩ := group
    rw [pairwise_cons] at hsorted
    have hfirst : ∀ other, addBatch batches (sessionId, batch) other <+: total other := by
      intro other
      have hother := hpart other
      rw [addBatches, addBatches_apply] at hother
      exact (prefix_append _ _).trans hother
    obtain ⟨_, hmiddle, hcollected⟩ := h.batch htotal hfirst
      (fun other hother ↦ horder other hother _ (mem_cons_self ..))
      (hrestores _ (mem_cons_self ..)) (hfits sessionId)
    have horder' : ∀ other, addBatch batches (sessionId, batch) other ≠ [] → ∀ group ∈ rest,
        other.text ≤ group.1.text := by
      intro other hother group hgroup
      by_cases heq : other = sessionId
      · subst heq
        exact hsorted.1 group hgroup
      · rw [addBatch_of_ne heq] at hother
        exact horder other hother group (mem_cons_of_mem _ hgroup)
    obtain ⟨next, hnext, hfinal⟩ := ih hcollected hpart hsorted.2 horder'
      fun group hgroup ↦ hrestores group (mem_cons_of_mem _ hgroup)
    refine ⟨next, ?_, hfinal⟩
    rw [historyRows, loadRows_append, hmiddle, ok_bind]
    exact hnext

end Rebuild

end SqliteLedger

end Garive
