import Garive.Sqlite.ScheduleLease

/-!
# The persistent lease clock

Plan claims are leased on a logical clock that survives reboots. One row keeps where the current boot
started, on the machine's ticks and on the logical ones, the last tick that was read, and the tick up
to which leases were reserved. Within a boot the clock follows the machine; the first reading of
another boot starts past everything that was reserved before it.

A call says whether SQLite completed its transaction; one it did not complete leaves the row alone.
-/

namespace Garive

open UInt64

/-- The single row of the clock table. -/
structure MonotonicClockRow where
  bootRevision : String
  bootOriginTick : List UInt8
  logicalOriginTick : List UInt8
  lastTick : List UInt8
  reservedUntilTick : List UInt8

structure PersistentMonotonicReading where
  clockRevision : String
  nowMs : UInt64

/-- A call of the clock. -/
structure ReserveCall where
  bootRevision : String
  bootTickMs : UInt64
  leaseDurationMs : UInt64
  /-- Whether SQLite completes the transaction. -/
  completes : Bool

/-- `u64::checked_sub`. -/
def checkedSubU64 (a b : UInt64) : Option UInt64 := if b ≤ a then some (a - b) else none

/-- A counter of the row. -/
def decodeTick (value : List UInt8) (field : String) : Except SqliteLedgerError UInt64 :=
  okOr (decodeCounter value) (.invalidStoredValue field)

/-- The origins of the boot, the tick that is read, and what was reserved before. -/
def readTick (row : Option MonotonicClockRow) (call : ReserveCall) :
    Except SqliteLedgerError (UInt64 × UInt64 × UInt64 × UInt64) :=
  match row with
  | none => .ok (call.bootTickMs, 1, 1, 0)
  | some row => do
    let bootOrigin ← decodeTick row.bootOriginTick "monotonic_boot_origin"
    let logicalOrigin ← decodeTick row.logicalOriginTick "monotonic_logical_origin"
    let last ← decodeTick row.lastTick "monotonic_last_tick"
    let reserved ← decodeTick row.reservedUntilTick "monotonic_reserved_until"
    if row.bootRevision = call.bootRevision then
      let elapsed ← okOr (checkedSubU64 call.bootTickMs bootOrigin)
        (.invalidStoredValue "monotonic_boot_tick")
      let candidate ← okOr (checkedAddU64 logicalOrigin elapsed)
        (.invalidStoredValue "monotonic_logical_tick")
      return (bootOrigin, logicalOrigin, max candidate last, reserved)
    else
      let successor ← okOr (checkedAddU64 reserved 1) (.invalidStoredValue "monotonic_boot_fence")
      return (call.bootTickMs, successor, successor, reserved)

/-- Reserves one lease interval: the reading and the row that is written for it. -/
def reserveMonotonicLease (row : Option MonotonicClockRow) (call : ReserveCall) :
    Except SqliteLedgerError (PersistentMonotonicReading × MonotonicClockRow) := do
  ensure (call.bootRevision ≠ "" ∧ call.leaseDurationMs ≠ 0)
    (.invalidStoredValue "monotonic_clock_input")
  let (bootOrigin, logicalOrigin, nowMs, priorReserved) ← readTick row call
  let reserved ← okOr (checkedAddU64 nowMs call.leaseDurationMs)
    (.invalidStoredValue "monotonic_reservation")
  ensure (call.completes = true) .storage
  return (⟨"garive-persistent-monotonic-v1", nowMs⟩, {
    bootRevision := call.bootRevision
    bootOriginTick := encodeCounter bootOrigin
    logicalOriginTick := encodeCounter logicalOrigin
    lastTick := encodeCounter nowMs
    reservedUntilTick := encodeCounter (max reserved priorReserved) })

/-- The clock of a new store under a sequence of calls. -/
def monotonicClock : Machine (Option MonotonicClockRow) ReserveCall
    (Except SqliteLedgerError PersistentMonotonicReading) where
  init := none
  step row call :=
    match reserveMonotonicLease row call with
    | .ok (reading, next) => (.ok reading, some next)
    | .error e => (.error e, row)

/-! ## What a reading does to the row -/

/-- The row of a clock that was last read at `last` and has reserved up to `reserved`. -/
structure MonotonicClockRow.Keeps (row : MonotonicClockRow) (bootRevision : String)
    (last reserved : UInt64) : Prop where
  boot_eq : row.bootRevision = bootRevision
  last_eq : decodeCounter row.lastTick = some last
  reserved_eq : decodeCounter row.reservedUntilTick = some reserved

variable {row next : MonotonicClockRow} {call : ReserveCall} {reading : PersistentMonotonicReading}
  {boot : String} {a b sum last reserved bootOrigin logicalOrigin now prior : UInt64}

theorem toNat_checkedAddU64 (h : checkedAddU64 a b = some sum) :
    sum.toNat = a.toNat + b.toNat := by
  simp only [checkedAddU64, Option.map_eq_some_iff, checkedAdd_eq_some_iff] at h
  obtain ⟨_, ⟨rfl, hlt⟩, rfl⟩ := h
  exact toNat_ofNat_of_lt' hlt

theorem le_maxU64 (a b : UInt64) : a ≤ max a b ∧ b ≤ max a b := by
  rw [show max a b = if a ≤ b then b else a from rfl]
  split
  · exact ⟨‹a ≤ b›, UInt64.le_refl b⟩
  · exact ⟨UInt64.le_refl a, UInt64.le_of_lt (UInt64.not_le.mp ‹_›)⟩

/-- A reading of a stored clock does not go back, and one of another boot is past what was
reserved. -/
theorem readTick_spec (hrow : row.Keeps boot last reserved)
    (h : readTick (some row) call = .ok (bootOrigin, logicalOrigin, now, prior)) :
    prior = reserved ∧ (boot = call.bootRevision → last ≤ now) ∧
      (boot ≠ call.bootRevision → reserved < now) := by
  simp only [readTick, decodeTick, hrow.boot_eq, hrow.last_eq, hrow.reserved_eq, okOr_some,
    ok_bind] at h
  split at h
  · rename_i hboot
    simp only [ok_iff, Prod.mk.injEq] at h
    obtain ⟨_, _, _, _, _, _, _, _, rfl, rfl, rfl, rfl⟩ := h
    exact ⟨rfl, fun _ ↦ (le_maxU64 ..).2, fun hne ↦ absurd hboot hne⟩
  · rename_i hboot
    simp only [ok_iff, Prod.mk.injEq] at h
    obtain ⟨_, _, _, _, _, hsum, rfl, rfl, rfl, rfl⟩ := h
    exact ⟨rfl, fun heq ↦ absurd heq hboot, fun _ ↦ lt_of_checkedAddU64 hsum⟩

/-- The row a successful call writes keeps its reading and reserves its whole lease. -/
theorem reserveMonotonicLease_spec {row : Option MonotonicClockRow}
    (h : reserveMonotonicLease row call = .ok (reading, next)) :
    ∃ reserved prior bootOrigin logicalOrigin, next.Keeps call.bootRevision reading.nowMs reserved ∧
      readTick row call = .ok (bootOrigin, logicalOrigin, reading.nowMs, prior) ∧
      prior ≤ reserved ∧
      reading.nowMs.toNat + call.leaseDurationMs.toNat ≤ reserved.toNat := by
  simp only [reserveMonotonicLease, ok_iff, Prod.exists, Prod.mk.injEq] at h
  obtain ⟨-, bootOrigin, logicalOrigin, _, prior, htick, sum, hsum, -, rfl, rfl⟩ := h
  refine ⟨max sum prior, prior, bootOrigin, logicalOrigin, ⟨rfl, by simp, by simp⟩, htick,
    (le_maxU64 ..).2, ?_⟩
  rw [← toNat_checkedAddU64 hsum, ← le_iff_toNat_le]
  exact (le_maxU64 ..).1

/-! ## Runs of the clock -/

/-- A call that succeeded. -/
structure Reservation where
  bootRevision : String
  leaseDurationMs : UInt64
  nowMs : UInt64

/-- The successful calls of a run. -/
def reservations (answers : List (ReserveCall × Except SqliteLedgerError PersistentMonotonicReading)) :
    List Reservation :=
  answers.filterMap fun
    | (call, .ok reading) => some ⟨call.bootRevision, call.leaseDurationMs, reading.nowMs⟩
    | (_, .error _) => none

/-- Readings do not go back, and one under another boot than the reading before it is past every
lease that was reserved before. -/
def Fenced : List Reservation → Prop :=
  EachAfter fun before next ↦ (∀ earlier ∈ before, earlier.nowMs ≤ next.nowMs) ∧
    ∀ previous, before.getLast? = some previous → previous.bootRevision ≠ next.bootRevision →
      ∀ earlier ∈ before,
        earlier.nowMs.toNat + earlier.leaseDurationMs.toNat < next.nowMs.toNat

/-- What the row says of the calls so far: it keeps the last of them and covers all. -/
def Covers (granted : List Reservation) : Option MonotonicClockRow → Prop
  | none => granted = []
  | some row => ∃ last reserved, granted.getLast? = some last ∧
      row.Keeps last.bootRevision last.nowMs reserved ∧ ∀ earlier ∈ granted,
        earlier.nowMs ≤ last.nowMs ∧
          earlier.nowMs.toNat + earlier.leaseDurationMs.toNat ≤ reserved.toNat

/-- A successful call. -/
theorem Covers.reserve {granted : List Reservation} {row : Option MonotonicClockRow}
    (hfenced : Fenced granted) (hcovers : Covers granted row)
    (h : reserveMonotonicLease row call = .ok (reading, next)) :
    Fenced (granted ++ [⟨call.bootRevision, call.leaseDurationMs, reading.nowMs⟩]) ∧
      Covers (granted ++ [⟨call.bootRevision, call.leaseDurationMs, reading.nowMs⟩]) (some next) := by
  obtain ⟨reserved, _, _, _, hkeeps, htick, hprior, hlease⟩ := reserveMonotonicLease_spec h
  cases row with
  | none =>
    obtain rfl : granted = [] := hcovers
    exact ⟨eachAfter_concat.mpr ⟨hfenced, by simp⟩, _, reserved, rfl, hkeeps, by simpa using hlease⟩
  | some row =>
    obtain ⟨last, _, hlast, hrow, hall⟩ := hcovers
    obtain ⟨rfl, hsame, hother⟩ := readTick_spec hrow htick
    -- Under the same boot the reading is no smaller; under another it is past every reservation.
    have hnow : last.nowMs ≤ reading.nowMs := by
      by_cases hboot : last.bootRevision = call.bootRevision
      · exact hsame hboot
      · have hpast := lt_iff_toNat_lt.mp (hother hboot)
        have hcovered := (hall last (List.mem_of_getLast? hlast)).2
        exact le_iff_toNat_le.mpr (by omega)
    refine ⟨eachAfter_concat.mpr ⟨hfenced, fun earlier hmem ↦
      UInt64.le_trans (hall earlier hmem).1 hnow, fun previous hprevious hne earlier hmem ↦ ?_⟩, ?_⟩
    · obtain rfl : last = previous := Option.some.inj (hlast.symm.trans hprevious)
      exact Nat.lt_of_le_of_lt (hall earlier hmem).2 (lt_iff_toNat_lt.mp (hother hne))
    · refine ⟨_, reserved, List.getLast?_concat, hkeeps, fun earlier hmem ↦ ?_⟩
      rcases List.mem_append.mp hmem with hmem | hmem
      · exact ⟨UInt64.le_trans (hall earlier hmem).1 hnow,
          Nat.le_trans (hall earlier hmem).2 (le_iff_toNat_le.mp hprior)⟩
      · obtain rfl := List.mem_singleton.mp hmem
        exact ⟨UInt64.le_refl _, hlease⟩

/-- **The persistent clock.** Under any calls, with any boots, ticks, durations and failures, the
readings do not go back and every reboot is fenced. -/
theorem monotonicClock_fenced (calls : List ReserveCall) :
    Fenced (reservations (monotonicClock.run calls).1) := by
  refine (monotonicClock.run_induction (P := fun answers row ↦
    Fenced (reservations answers) ∧ Covers (reservations answers) row) ⟨eachAfter_nil, rfl⟩
    (fun answers row call ⟨hfenced, hcovers⟩ ↦ ?_) calls).1
  simp only [monotonicClock]
  cases h : reserveMonotonicLease row call with
  | error e => simpa [reservations] using ⟨hfenced, hcovers⟩
  | ok result => simpa [reservations] using hcovers.reserve hfenced h

end Garive
