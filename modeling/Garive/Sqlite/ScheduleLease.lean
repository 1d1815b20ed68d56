import Garive.Sqlite.Leases
import Garive.Sqlite.Restart

/-!
# Schedule leases fence their workers

The row of a schedule is the lease that passes. An acquisition writes a row with the request's own
identity, a release removes one, and nothing else touches the table; so a lease identity that was
lost can come back only through a request that repeats it. Requests with identities of their own
therefore fence every worker that was overtaken, and each takeover counts the epoch up.
-/

namespace Garive

/-- Counters are read back as they were stored. -/
@[simp] theorem decodeCounter_encodeCounter (value : UInt64) :
    decodeCounter (encodeCounter value) = some value := by
  have hlt : value.toNat < 256 ^ 8 := value.toNat_lt
  simp [decodeCounter, encodeCounter, SqliteLedger.encodeU64, ofBigEndian_bigEndian hlt]

theorem encodeCounter_injective : Function.Injective encodeCounter := by
  intro a b h
  have hdecoded := congrArg decodeCounter h
  simpa using hdecoded

theorem lt_of_checkedAddU64 {a b : UInt64} (h : checkedAddU64 a 1 = some b) : a < b := by
  simp only [checkedAddU64, Option.map_eq_some_iff, checkedAdd_eq_some_iff] at h
  obtain ⟨_, ⟨hsum, hlt⟩, rfl⟩ := h
  rw [UInt64.lt_iff_toNat_lt, UInt64.toNat_ofNat_of_lt' hlt, ← hsum]
  exact Nat.lt_succ_self _

namespace ScheduleLease

open LeaseStore

variable {lib : Externals} {sqlite : Sqlite} {store next : LeaseStore} {lease a b : ScheduleLease}
  {request : ScheduleLeaseRequest} {now : UInt64} {before rest : List LeaseInput}

/-- The lease passes until it expires, while the row of its schedule is its own. -/
theorem requireOwned_iff : requireOwned store lease now = .ok () ↔
    now < lease.expiresAtMs ∧ store.scheduleLeases[lease.key]? = some lease.row := by
  simp only [requireOwned, ok_iff]

/-- A row tells its lease. -/
theorem eq_of_row_eq (hkey : a.key = b.key) (hrow : a.row = b.row) : a = b := by
  obtain ⟨_, _⟩ := Prod.mk.injEq .. ▸ hkey
  rw [row, row, ScheduleLeaseRow.mk.injEq] at hrow
  obtain ⟨_, _, _, _, _, _, _⟩ := hrow
  cases a
  cases b
  simp_all [encodeCounter_injective.eq_iff]

/-- What a grant takes from its request and from the row before it. -/
theorem granted_of_acquire (h : acquire lib store request = .ok (lease, next)) :
    lease.key = (request.sessionId, request.scheduleId) ∧ lease.leaseId = request.leaseId ∧
      requireActiveRevision lib store.ledger request = .ok () ∧
      nextEpoch lib store.ledger request store.scheduleLeases[lease.key]? = .ok lease.epoch := by
  simp only [acquire, ok_iff, Prod.mk.injEq] at h
  obtain ⟨-, hact, _, -, epoch, hepoch, -, rfl, -⟩ := h
  exact ⟨rfl, rfl, hact, hepoch⟩

/-- What a request is granted over the row of a lease. -/
theorem nextEpoch_row (lib : Externals) (ledger : Database) (request : ScheduleLeaseRequest)
    (a : ScheduleLease) : nextEpoch lib ledger request (some a.row) =
      if (a.revisionId = request.revisionId ∧ a.occurrenceId = request.occurrenceId ∧
          a.ordinal = request.ordinal ∧ a.ownerId = request.ownerId ∧ a.leaseId = request.leaseId) ∧
          request.nowMs < a.expiresAtMs then .ok a.epoch
      else if request.nowMs < a.expiresAtMs ∧ a.revisionId = request.revisionId then do
        let handled ← occurrenceHandled lib ledger request a.revisionId a.occurrenceId a.ordinal
        if handled then okOr (checkedAddU64 a.epoch 1) .storage else .error .alreadyHeld
      else okOr (checkedAddU64 a.epoch 1) .storage := by
  have hord : decodeCounter a.row.ordinal = some a.ordinal := decodeCounter_encodeCounter _
  have hepoch : decodeCounter a.row.epoch = some a.epoch := decodeCounter_encodeCounter _
  have hexpires : decodeCounter a.row.expiresAtMs = some a.expiresAtMs :=
    decodeCounter_encodeCounter _
  rw [nextEpoch, hord, hepoch, hexpires]
  rfl

/-- Over the row of a lease, a grant renews it or counts its epoch up. -/
theorem epoch_of_nextEpoch {ledger : Database} {epoch : UInt64}
    (h : nextEpoch lib ledger request (some a.row) = .ok epoch) :
    request.leaseId = a.leaseId ∧ epoch = a.epoch ∨ a.epoch < epoch := by
  rw [nextEpoch_row] at h
  split at h
  · rename_i hexact
    cases h
    exact .inl ⟨hexact.1.2.2.2.2.symm, rfl⟩
  · right
    split at h
    · simp only [bind_eq_ok_iff] at h
      obtain ⟨handled, -, h⟩ := h
      cases handled
      · cases h
      · exact lt_of_checkedAddU64 (okOr_eq_ok_iff.mp h)
    · exact lt_of_checkedAddU64 (okOr_eq_ok_iff.mp h)

/-- A call leaves the row of a schedule, removes it, or grants a lease of it. -/
theorem row_step (lib : Externals) (sqlite : Sqlite) (store : LeaseStore) (input : LeaseInput)
    (key : ScheduleKey) :
    (step lib sqlite store input).2.scheduleLeases[key]? = store.scheduleLeases[key]? ∨
    (step lib sqlite store input).2.scheduleLeases[key]? = none ∨
    ∃ request lease, input.call = .acquireScheduleLease request ∧ lease.key = key ∧
      acquire lib store request = .ok (lease, (step lib sqlite store input).2) ∧
      (step lib sqlite store input).2.scheduleLeases[key]? = some lease.row := by
  have heffect := effect_step lib sqlite store input
  generalize (step lib sqlite store input).2 = next at heffect
  generalize input.call = call at heffect
  cases heffect with
  | rolledBack => exact .inl rfl
  | committed h => exact .inl (by rw [(commitTransaction_eq_ok h).2.2])
  | executionGranted h => exact .inl (by rw [ExecutionLease.eq_of_acquire h])
  | executionReleased h => exact .inl (by rw [ExecutionLease.eq_of_release h])
  | @scheduleGranted request lease _ h =>
    by_cases hkey : lease.key = key
    · refine .inr (.inr ⟨request, lease, rfl, hkey, h, ?_⟩)
      rw [eq_of_acquire h, ← hkey]
      exact Map.get?_insert_self ..
    · exact .inl (by rw [eq_of_acquire h]; exact Map.get?_insert_of_ne hkey)
  | @scheduleReleased lease _ h =>
    by_cases hkey : lease.key = key
    · exact .inr (.inl (by rw [eq_of_release h, Map.get?_erase, if_pos hkey]))
    · exact .inl (by rw [eq_of_release h, Map.get?_erase, if_neg hkey])

/-! ## Identities of their own -/

/-- Some request asked for the lease identity. -/
def Asked (inputs : List LeaseInput) (leaseId : String) : Prop :=
  ∃ input ∈ inputs, ∃ request : ScheduleLeaseRequest,
    input.call = .acquireScheduleLease request ∧ request.leaseId = leaseId

/-- Every request brings a lease identity of its own, unless it renews the lease of its schedule. -/
def FreshLeases (lib : Externals) (sqlite : Sqlite) (inputs : List LeaseInput) : Prop :=
  ∀ before input after, inputs = before ++ input :: after → ∀ request : ScheduleLeaseRequest,
    input.call = .acquireScheduleLease request → ¬Asked before request.leaseId ∨
      Held ((machine lib sqlite).run before).2 (request.sessionId, request.scheduleId) request.leaseId

theorem Asked.mono {leaseId : String} (h : Asked before leaseId) : Asked (before ++ rest) leaseId := by
  obtain ⟨input, hmem, hreq⟩ := h
  exact ⟨input, List.mem_append_left _ hmem, hreq⟩

/-- A lease that a schedule has was asked for. -/
theorem asked_of_held {inputs : List LeaseInput} {key : ScheduleKey} {leaseId : String}
    (h : Held ((machine lib sqlite).run inputs).2 key leaseId) : Asked inputs leaseId := by
  induction inputs using List.reverseRecOn with
  | nil =>
    obtain ⟨row, hrow, -⟩ := h
    simp [Machine.run, machine] at hrow
  | append_singleton inputs input ih =>
    obtain ⟨row, hrow, hid⟩ := h
    rw [Machine.run_concat] at hrow
    rcases row_step lib sqlite ((machine lib sqlite).run inputs).2 input key with
      hsame | hnone | ⟨request, lease, hcall, -, hacquire, hgranted⟩
    · exact (ih ⟨row, hsame ▸ hrow, hid⟩).mono
    · exact absurd (hnone.symm.trans hrow) (by simp)
    · refine ⟨input, by simp, request, hcall, ?_⟩
      have hlease : lease.row = row := Option.some.inj (hgranted.symm.trans hrow)
      rw [← (granted_of_acquire hacquire).2.1, ← hid, ← hlease]
      rfl

/-- A lease identity that was asked for and is not held is not held again. -/
theorem not_held_again {key : ScheduleKey} {leaseId : String}
    (hfresh : FreshLeases lib sqlite (before ++ rest)) (hasked : Asked before leaseId)
    (hlost : ¬Held ((machine lib sqlite).run before).2 key leaseId) :
    ¬Held ((machine lib sqlite).run (before ++ rest)).2 key leaseId := by
  induction rest generalizing before with
  | nil => simpa using hlost
  | cons input rest ih =>
    rw [List.append_cons] at hfresh ⊢
    refine ih hfresh hasked.mono ?_
    rw [Machine.run_concat]
    rintro ⟨row, hrow, hid⟩
    rcases row_step lib sqlite ((machine lib sqlite).run before).2 input key with
      hsame | hnone | ⟨request, lease, hcall, hkey, hacquire, hgranted⟩
    · exact hlost ⟨row, hsame ▸ hrow, hid⟩
    · exact absurd (hnone.symm.trans hrow) (by simp)
    · -- The request would repeat the identity without holding it.
      obtain ⟨hreqKey, hreqId, -⟩ := granted_of_acquire hacquire
      have hlease : lease.row = row := Option.some.inj (hgranted.symm.trans hrow)
      have hreq : request.leaseId = leaseId := by
        rw [← hreqId, ← hid, ← hlease]
        rfl
      rcases hfresh before input rest (by simp) request hcall with hunasked | hheld
      · exact hunasked (hreq ▸ hasked)
      · rw [← hreqKey, hkey, hreq] at hheld
        exact hlost hheld

/-! ## Epochs -/

/-- While the row stays, its epoch counts up from holder to holder. -/
theorem epoch_lt_of_next {key : ScheduleKey}
    (hrow : ((machine lib sqlite).run before).2.scheduleLeases[key]? = some a.row)
    (hkept : ∀ n, ((machine lib sqlite).run (before ++ rest.take n)).2.scheduleLeases[key]? ≠ none) :
    ∃ b : ScheduleLease,
      ((machine lib sqlite).run (before ++ rest)).2.scheduleLeases[key]? = some b.row ∧
      (b.leaseId = a.leaseId ∧ b.epoch = a.epoch ∨ a.epoch < b.epoch) := by
  induction rest generalizing before a with
  | nil => exact ⟨a, by simpa using hrow, .inl ⟨rfl, rfl⟩⟩
  | cons input rest ih =>
    have hrest : ∀ n, ((machine lib sqlite).run
        (before ++ [input] ++ rest.take n)).2.scheduleLeases[key]? ≠ none := by
      intro n
      simpa using hkept (n + 1)
    have hone := hrest 0
    rw [List.take_zero, List.append_nil, Machine.run_concat] at hone
    rw [List.append_cons]
    rcases row_step lib sqlite ((machine lib sqlite).run before).2 input key with
      hsame | hnone | ⟨request, lease, -, hkey, hacquire, hgranted⟩
    · exact ih (by rw [Machine.run_concat]; exact hsame.trans hrow) hrest
    · exact absurd hnone hone
    · obtain ⟨-, hid, -, hepoch⟩ := granted_of_acquire hacquire
      rw [hkey, hrow] at hepoch
      obtain ⟨b, hb, hnext⟩ := ih (a := lease) (by rw [Machine.run_concat]; exact hgranted) hrest
      refine ⟨b, hb, ?_⟩
      rcases epoch_of_nextEpoch hepoch with ⟨hsameId, hsame⟩ | hlt
      · rw [← hsame, ← hsameId, ← hid]
        exact hnext
      · rcases hnext with ⟨-, hequal⟩ | hmore
        · exact .inr (hequal ▸ hlt)
        · exact .inr (UInt64.lt_trans hlt hmore)

/-! ## Fencing -/

/-- The revision that the events of a schedule leave active. -/
def ActiveRevision (lib : Externals) (ledger : Database) (key : ScheduleKey) (revision : String) :
    Prop :=
  ∃ events, scheduleEvents lib ledger key.1 key.2 = .ok events ∧
    events.foldl nextActive none = some revision

/-- An unexpired lease with an unhandled occurrence of the active revision keeps others out. -/
theorem acquire_ne_ok (hrow : store.scheduleLeases[a.key]? = some a.row)
    (hkey : (request.sessionId, request.scheduleId) = a.key)
    (hother : request.ownerId ≠ a.ownerId ∨ request.leaseId ≠ a.leaseId)
    (hunexpired : request.nowMs < a.expiresAtMs)
    (hact : ActiveRevision lib store.ledger a.key a.revisionId)
    (hunhandled : occurrenceHandledRaw lib store.ledger a = .ok false) :
    acquire lib store request ≠ .ok (lease, next) := by
  intro h
  obtain ⟨hgrantedKey, -, hrev, hepoch⟩ := granted_of_acquire h
  obtain ⟨_, hevents, hfold⟩ := hact
  obtain ⟨hsess, hsched⟩ := Prod.mk.injEq .. ▸ hkey
  have hsame : request.revisionId = a.revisionId := by
    simp only [requireActiveRevision, hsess, hsched, ok_iff] at hrev
    obtain ⟨_, hfound, hrequested⟩ := hrev
    cases hevents.symm.trans hfound
    exact Option.some.inj (hrequested.symm.trans hfold)
  have hhandled : occurrenceHandled lib store.ledger request a.revisionId a.occurrenceId a.ordinal
      = .ok false := by
    rw [occurrenceHandled, hsess, hsched]
    exact hunhandled
  rw [hgrantedKey, hkey, hrow, nextEpoch_row,
    if_neg (fun hexact ↦ hother.elim (· hexact.1.2.2.2.1.symm) (· hexact.1.2.2.2.2.symm)),
    if_pos ⟨hunexpired, hsame.symm⟩, hhandled] at hepoch
  cases hepoch

/-- A request of a worker with the given lease identity. -/
def workerRequest (leaseId : String) : LeaseInput where
  call := .acquireScheduleLease
    { sessionId := ⟨"schedule-session", by simp⟩, scheduleId := "schedule-1"
      revisionId := "revision-1", occurrenceId := "occurrence-1", ordinal := 1
      ownerId := "owner-1", leaseId, nowMs := 0, durationMs := 1000 }
  completed := true

/-- The requests of two workers for one schedule, under identities of their own. -/
def twoWorkers : List LeaseInput := [workerRequest "lease-1", workerRequest "lease-2"]

theorem freshLeases_twoWorkers : FreshLeases reference SqliteLedger.referenceSqlite twoWorkers := by
  intro before input after heq request hcall
  left
  rintro ⟨_, hearlier, _, hother, hid⟩
  rcases before with _ | ⟨only, _ | ⟨_, _⟩⟩
  · cases hearlier
  · simp only [twoWorkers, List.cons_append, List.nil_append, List.cons.injEq] at heq
    obtain ⟨rfl, rfl, -⟩ := heq
    rw [List.mem_singleton.mp hearlier] at hother
    cases hother
    cases hcall
    exact absurd hid (by decide)
  · simp [twoWorkers] at heq

end ScheduleLease

end Garive
