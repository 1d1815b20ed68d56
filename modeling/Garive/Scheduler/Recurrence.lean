import Garive.Json.Build
import Garive.Ledger.Types
import Mathlib.Logic.Equiv.Nat
import Mathlib.Tactic.Linarith

/-!
# Recurrence of schedules

A schedule is reduced against an explicit clock: given the ordinals that have been handled, the next
occurrence is not due, due, too late, or does not exist. An occurrence that is too late is fired all
the same, ends the schedule, or is skipped together with all others that are too late, as the policy
asks. `nextOccurrence_cases` says what each decision means in terms of the instants at which the
ordinals are due.

The range of a skip is computed by one division, and is exact (`nextOccurrence_skip`). Applying a
decision and reducing again at the same clock settles a backlog in one decision when the policy is to
skip; when it is to fire once, a backlog is fired occurrence by occurrence (`lateDecisions_le_one_iff`).
-/

namespace Garive

open Option

/-! ## Instants -/

/-- Instants, as numbers of nanoseconds, and how `chrono` reads, writes and bounds them. -/
structure Chrono where
  /-- `DateTime::parse_from_rfc3339`, in UTC. -/
  parseFromRfc3339 : String → Option Int
  /-- `DateTime::to_rfc3339_opts` with the shortest exact fraction and `Z`. -/
  toRfc3339 : Int → String
  minUtc : Int
  maxUtc : Int

namespace Chrono

variable (c : Chrono)

/-- Different instants are written differently. -/
def Documented : Prop := Function.Injective c.toRfc3339

/-- The instant of a text that is its canonical rendering. -/
def canonicalUtc (value : String) : Option Int :=
  (c.parseFromRfc3339 value).filter fun time ↦ c.toRfc3339 time == value

def checkedAddSigned (time delta : Int) : Option Int :=
  if c.minUtc ≤ time + delta ∧ time + delta ≤ c.maxUtc then some (time + delta) else none

variable {c}

theorem canonicalUtc_eq_some {value : String} {time : Int} (h : c.canonicalUtc value = some time) :
    c.toRfc3339 time = value := by
  simpa using (filter_eq_some_iff.mp h).2

theorem checkedAddSigned_eq_some {time delta sum : Int} (h : c.checkedAddSigned time delta = some sum) :
    sum = time + delta := by
  rw [checkedAddSigned, ite_none_right_eq_some] at h
  exact (some.inj h.2).symm

end Chrono

/-- `u64` multiplication that fails on overflow. -/
def checkedMul (a b : Nat) : Option Nat :=
  if a * b < 2 ^ 64 then some (a * b) else none

theorem checkedMul_eq_some {a b product : Nat} (h : checkedMul a b = some product) :
    product = a * b := by
  rw [checkedMul, ite_none_right_eq_some] at h
  exact (some.inj h.2).symm

/-! ## Intents -/

/-- Failures of recurrence. -/
inductive ScheduleErrorCode where
  | invalidSchedule
  | clockInvalid
  | occurrenceOverflow
deriving DecidableEq

/-- When the occurrences of a schedule are due. -/
inductive ScheduleTiming where
  /-- Once, at one instant. -/
  | atInstant (dueAtUtc : String)
  /-- Repeatedly, from one instant by a delay in milliseconds. -/
  | fixedDelay (firstDueAtUtc : String) (delayMs : UInt64) (maxOccurrences : Option UInt64)

/-- What happens to an occurrence that is too late. -/
inductive MisfirePolicy where
  | fireOnce
  | skip
  | fail
deriving DecidableEq

def validTiming (c : Chrono) : ScheduleTiming → Bool
  | .atInstant dueAtUtc => (c.canonicalUtc dueAtUtc).isSome
  | .fixedDelay firstDueAtUtc delayMs maxOccurrences =>
    (c.canonicalUtc firstDueAtUtc).isSome && delayMs != 0 && maxOccurrences.all (· != 0)

/-- The part of a validated intent that recurrence reads. -/
structure ScheduleIntent (c : Chrono) where
  scheduleId : String
  revisionId : String
  timing : ScheduleTiming
  misfirePolicy : MisfirePolicy
  maxLatenessMs : UInt64
  timing_valid : validTiming c timing = true
  lateness_ne_zero : maxLatenessMs ≠ 0

/-- One due occurrence with its durable identities. -/
structure DueOccurrence where
  ordinal : Nat
  dueAtUtc : String
  occurrenceId : String
  runtimeCommandId : String
deriving DecidableEq

/-- A range of occurrences that are skipped. -/
structure SkippedOccurrences where
  firstOrdinal : Nat
  lastOrdinal : Nat
  firstDueAtUtc : String
  lastDueAtUtc : String
  /-- The first occurrence after the range, unless the schedule is exhausted. -/
  nextDue : Option DueOccurrence
deriving DecidableEq

/-- What to do at one clock value. -/
inductive ScheduleDecision where
  | notDue (next : DueOccurrence)
  | due (next : DueOccurrence)
  | skipped (range : SkippedOccurrences)
  | exhausted
  | failMisfire (next : DueOccurrence)
deriving DecidableEq

/-! ## The reduction -/

namespace Recurrence

section Reduction

variable (lib : Externals) {c : Chrono} (intent : ScheduleIntent c)

/-- A span of milliseconds. -/
def milliseconds (value : Nat) : Except ScheduleErrorCode Int := do
  ensure (value < 2 ^ 63) .occurrenceOverflow
  return value * 1000000

/-- An identity that is derived from the semantics of an occurrence. -/
def identity (contract tag : String) (semantic : List (String × Value)) :
    Except ScheduleErrorCode String := do
  let text ← (encode (json (semantic ++ [("contract", .string contract)]))).mapError
    fun _ ↦ .invalidSchedule
  return tag ++ lib.sha256Hex text

/-- The instant at which an ordinal is due, unless there is no such ordinal. -/
def dueInstant (ordinal : Nat) : Except ScheduleErrorCode (Option Int) :=
  match intent.timing with
  | .atInstant dueAtUtc =>
    if ordinal ≠ 1 then .ok none
    else do
      -- The texts of a valid intent are canonical, so that reading them never fails.
      let due ← okOr (c.canonicalUtc dueAtUtc) .invalidSchedule
      return some due
  | .fixedDelay firstDueAtUtc delayMs maxOccurrences =>
    if maxOccurrences.any (·.toNat < ordinal) = true then .ok none
    else do
      ensure (1 ≤ ordinal) .occurrenceOverflow
      let offset ← okOr (checkedMul (ordinal - 1) delayMs.toNat) .occurrenceOverflow
      let first ← okOr (c.canonicalUtc firstDueAtUtc) .invalidSchedule
      let delta ← milliseconds offset
      let due ← okOr (c.checkedAddSigned first delta) .occurrenceOverflow
      return some due

/-- What the identities of an occurrence are derived from. -/
def semantics (ordinal : Nat) (dueAtUtc : String) : List (String × Value) :=
  [("version", .number (.posInt 1)), ("schedule_id", .string intent.scheduleId),
    ("revision_id", .string intent.revisionId), ("ordinal", .number (.posInt ordinal)),
    ("due_at_utc", .string dueAtUtc)]

/-- The occurrence of an ordinal. -/
def scheduleOccurrence (ordinal : Nat) : Except ScheduleErrorCode (Option DueOccurrence) := do
  match ← dueInstant intent ordinal with
  | none => return none
  | some due => do
    let dueAtUtc := c.toRfc3339 due
    let semantic := semantics intent ordinal dueAtUtc
    let occurrenceId ← identity lib "garive.schedule-occurrence" "occurrence-" semantic
    let runtimeCommandId ← identity lib "garive.schedule-command" "schedule-command-" semantic
    return some { ordinal, dueAtUtc, occurrenceId, runtimeCommandId }

/-- The last ordinal that a skip may reach. -/
def maxOrdinal : Nat :=
  match intent.timing with
  | .atInstant _ => 1
  | .fixedDelay _ _ maxOccurrences => maxOccurrences.elim (2 ^ 64 - 1) (·.toNat)

/-- The last ordinal that is too late when an earlier one is. -/
def lastOverdue (firstOrdinal : Nat) (firstDue now lateness : Int) : Except ScheduleErrorCode Nat :=
  match intent.timing with
  | .atInstant _ => .ok 1
  | .fixedDelay _ delayMs _ => do
    let cutoff ← okOr (c.checkedAddSigned now (-lateness)) .occurrenceOverflow
    let deltaNs := cutoff - firstDue
    ensure (-2 ^ 63 ≤ deltaNs ∧ deltaNs < 2 ^ 63) .occurrenceOverflow
    let delayNs ← okOr (checkedMul delayMs.toNat 1000000) .occurrenceOverflow
    ensure (delayNs < 2 ^ 63) .occurrenceOverflow
    let additional := (deltaNs - 1).tdiv delayNs
    ensure (0 ≤ additional) .occurrenceOverflow
    let last ← okOr (checkedAdd firstOrdinal additional.toNat) .occurrenceOverflow
    return min last (maxOrdinal intent)

/-- The occurrence after a range. -/
def following (lastOrdinal : Nat) : Except ScheduleErrorCode (Option DueOccurrence) :=
  if lastOrdinal = maxOrdinal intent then .ok none
  else do
    let ordinal ← okOr (checkedAdd lastOrdinal 1) .occurrenceOverflow
    scheduleOccurrence lib intent ordinal

/-- Skips every occurrence that is too late. -/
def skipOverdue (first : DueOccurrence) (firstDue now lateness : Int) :
    Except ScheduleErrorCode ScheduleDecision := do
  let lastOrdinal ← lastOverdue intent first.ordinal firstDue now lateness
  let found ← scheduleOccurrence lib intent lastOrdinal
  let last ← okOr found .occurrenceOverflow
  let nextDue ← following lib intent lastOrdinal
  return .skipped {
    firstOrdinal := first.ordinal
    lastOrdinal
    firstDueAtUtc := first.dueAtUtc
    lastDueAtUtc := last.dueAtUtc
    nextDue }

/-- Decides about an occurrence that is too late. -/
def misfire (next : DueOccurrence) (due now lateness : Int) :
    Except ScheduleErrorCode ScheduleDecision :=
  match intent.misfirePolicy with
  | .fireOnce => .ok (.due next)
  | .fail => .ok (.failMisfire next)
  | .skip => skipOverdue lib intent next due now lateness

/-- Decides about the next occurrence at an instant. -/
def reduce (next : DueOccurrence) (now : Int) : Except ScheduleErrorCode ScheduleDecision := do
  let due ← okOr (c.canonicalUtc next.dueAtUtc) .occurrenceOverflow
  if now < due then .ok (.notDue next)
  else do
    let lateness ← milliseconds intent.maxLatenessMs.toNat
    let latest ← okOr (c.checkedAddSigned due lateness) .occurrenceOverflow
    if now ≤ latest then .ok (.due next)
    else misfire lib intent next due now lateness

/-- The ordinal after the handled ones. -/
def unhandled : Option Nat → Except ScheduleErrorCode Nat
  | some value => okOr (checkedAdd value 1) .occurrenceOverflow
  | none => .ok 1

/-- Reduces an intent and the handled ordinals against a clock. -/
def nextOccurrence (lastHandledOrdinal : Option Nat) (observedNowUtc : String) :
    Except ScheduleErrorCode ScheduleDecision := do
  let now ← okOr (c.canonicalUtc observedNowUtc) .clockInvalid
  let ordinal ← unhandled lastHandledOrdinal
  match ← scheduleOccurrence lib intent ordinal with
  | none => return .exhausted
  | some next => reduce lib intent next now

end Reduction

/-! ## When ordinals are due -/

variable {lib : Externals} {c : Chrono} {intent : ScheduleIntent c} {now : Int}

/-- The schedule has the ordinal. -/
def HasOrdinal (intent : ScheduleIntent c) (ordinal : Nat) : Prop :=
  0 < ordinal ∧ match intent.timing with
    | .atInstant _ => ordinal = 1
    | .fixedDelay _ _ maxOccurrences => ∀ bound ∈ maxOccurrences, ordinal ≤ bound.toNat

theorem HasOrdinal.of_le {intent : ScheduleIntent c} {m n : Nat} (h : HasOrdinal intent n)
    (hpos : 0 < m) (hle : m ≤ n) : HasOrdinal intent m := by
  obtain ⟨-, hthere⟩ := h
  refine ⟨hpos, ?_⟩
  cases htiming : intent.timing with
  | atInstant =>
    rw [htiming] at hthere
    exact (show m = 1 by have hone : n = 1 := hthere; omega)
  | fixedDelay =>
    rw [htiming] at hthere
    exact fun bound hmem ↦ hle.trans (hthere bound hmem)

/-- The instant of the first occurrence. -/
def firstDue (intent : ScheduleIntent c) : Int :=
  match intent.timing with
  | .atInstant text | .fixedDelay text _ _ => (c.canonicalUtc text).getD 0

/-- The nanoseconds between two occurrences. -/
def delayNs (intent : ScheduleIntent c) : Int :=
  match intent.timing with
  | .atInstant _ => 0
  | .fixedDelay _ delayMs _ => delayMs.toNat * 1000000

/-- The instant at which an ordinal is due. -/
def dueAt (intent : ScheduleIntent c) (ordinal : Nat) : Int :=
  firstDue intent + (ordinal - 1) * delayNs intent

/-- The nanoseconds by which an occurrence may be late. -/
def latenessNs (intent : ScheduleIntent c) : Int := intent.maxLatenessMs.toNat * 1000000

/-- The occurrence of an ordinal is past its lateness. -/
def TooLate (intent : ScheduleIntent c) (now : Int) (ordinal : Nat) : Prop :=
  HasOrdinal intent ordinal ∧ dueAt intent ordinal + latenessNs intent < now

/-- The instant of an ordinal, computed step by step. -/
theorem dueInstant_fixedDelay {text : String} {delay : UInt64} {bound : Option UInt64}
    {ordinal offset : Nat} {first delta due : Int} (htiming : intent.timing = .fixedDelay text delay bound)
    (hbound : bound.any (·.toNat < ordinal) = false) (hpos : 1 ≤ ordinal)
    (hoffset : checkedMul (ordinal - 1) delay.toNat = some offset)
    (hfirst : c.canonicalUtc text = some first) (hdelta : milliseconds offset = .ok delta)
    (hdue : c.checkedAddSigned first delta = some due) :
    dueInstant intent ordinal = .ok (some due) := by
  simp [dueInstant, htiming, hbound, ensure_of hpos, hoffset, hfirst, hdelta, hdue]

theorem delayNs_nonneg (intent : ScheduleIntent c) : 0 ≤ delayNs intent := by
  rw [delayNs]
  split <;> omega

theorem dueAt_mono {a b : Nat} (h : a ≤ b) : dueAt intent a ≤ dueAt intent b := by
  have hle : ((a : Int) - 1) * delayNs intent ≤ (b - 1) * delayNs intent :=
    mul_le_mul_of_nonneg_right (by omega) (delayNs_nonneg intent)
  rw [dueAt, dueAt]
  omega

variable {ordinal : Nat}

theorem milliseconds_eq_ok {value : Nat} {span : Int} (h : milliseconds value = .ok span) :
    value < 2 ^ 63 ∧ span = value * 1000000 := by
  simp only [milliseconds, ok_iff] at h
  exact ⟨h.1, h.2.symm⟩

/-- The ordinals below the bound are due by their delay. -/
theorem dueInstant_eq_some {due : Int} (h : dueInstant intent ordinal = .ok (some due)) :
    HasOrdinal intent ordinal ∧ due = dueAt intent ordinal ∧ ordinal ≤ 2 ^ 63 := by
  have hvalid := intent.timing_valid
  simp only [dueInstant, HasOrdinal, dueAt, firstDue, delayNs] at h ⊢
  split at h
  · rename_i text htiming
    simp only [ite_not] at h ⊢
    split at h
    · rename_i hone
      simp only [ok_iff, some.injEq] at h
      obtain ⟨_, hread, rfl⟩ := h
      subst hone
      simp [hread]
    · cases h
  · rename_i text delayMs maxOccurrences htiming
    simp only [htiming, validTiming, Bool.and_eq_true, bne_iff_ne] at h hvalid ⊢
    split at h
    · cases h
    · rename_i hbound
      simp only [ok_iff, some.injEq] at h
      obtain ⟨hpos, _, hoffset, _, hread, _, hdelta, _, hdue, rfl⟩ := h
      obtain ⟨hlt, rfl⟩ := milliseconds_eq_ok hdelta
      have hdelay : 1 ≤ delayMs.toNat := Nat.one_le_iff_ne_zero.mpr fun hzero ↦
        hvalid.1.2 (UInt64.toNat_inj.mp hzero)
      rw [checkedMul_eq_some hoffset] at hlt hdue
      refine ⟨⟨hpos, fun bound hmem ↦ ?_⟩, ?_, ?_⟩
      · rw [mem_def.mp hmem] at hbound
        simpa using hbound
      · rw [Chrono.checkedAddSigned_eq_some hdue, hread]
        simp only [getD_some]
        push_cast [hpos]
        rw [mul_assoc]
      · have hle : ordinal - 1 ≤ (ordinal - 1) * delayMs.toNat := Nat.le_mul_of_pos_right _ hdelay
        omega

theorem dueInstant_eq_none (h : dueInstant intent ordinal = .ok none) :
    ¬HasOrdinal intent ordinal := by
  rintro ⟨-, hhas⟩
  rw [dueInstant] at h
  split at h
  · rename_i text htiming
    rw [htiming] at hhas
    simp [show ordinal = 1 from hhas, ok_iff] at h
  · rename_i text delayMs maxOccurrences htiming
    rw [htiming] at hhas
    have hbound : maxOccurrences.any (·.toNat < ordinal) = false := by
      cases maxOccurrences with
      | none => rfl
      | some bound => simpa using hhas bound rfl
    simp [hbound, ok_iff] at h

/-- An occurrence carries its ordinal and the text of its instant. -/
theorem scheduleOccurrence_eq_some {next : DueOccurrence}
    (h : scheduleOccurrence lib intent ordinal = .ok (some next)) :
    next.ordinal = ordinal ∧ HasOrdinal intent ordinal ∧
      next.dueAtUtc = c.toRfc3339 (dueAt intent ordinal) ∧ ordinal ≤ 2 ^ 63 := by
  simp only [scheduleOccurrence, bind_eq_ok_iff] at h
  obtain ⟨due, hdue, h⟩ := h
  cases due with
  | none => cases h
  | some due =>
    simp only [ok_iff, some.injEq] at h
    obtain ⟨_, -, _, -, rfl⟩ := h
    obtain ⟨hhas, rfl, hle⟩ := dueInstant_eq_some hdue
    exact ⟨rfl, hhas, rfl, hle⟩

theorem dueInstant_of_scheduleOccurrence {next : DueOccurrence}
    (h : scheduleOccurrence lib intent ordinal = .ok (some next)) :
    dueInstant intent ordinal = .ok (some (dueAt intent ordinal)) := by
  simp only [scheduleOccurrence, bind_eq_ok_iff] at h
  obtain ⟨due, hdue, h⟩ := h
  cases due with
  | none => cases h
  | some due => rw [hdue, ← (dueInstant_eq_some hdue).2.1]

/-- An ordinal that is due at an instant has an occurrence. -/
theorem exists_scheduleOccurrence {due : Int} (lib : Externals)
    (h : dueInstant intent ordinal = .ok (some due)) :
    ∃ next, scheduleOccurrence lib intent ordinal = .ok (some next) ∧ next.ordinal = ordinal ∧
      next.dueAtUtc = c.toRfc3339 due := by
  have hidentity : ∀ contract tag : String, ∃ id, identity lib contract tag
      (semantics intent ordinal (c.toRfc3339 due)) = .ok id := by
    intro contract tag
    have hplain : ∀ entry ∈ semantics intent ordinal (c.toRfc3339 due) ++
        [("contract", Value.string contract)], entry.2.Exact := by
      simp [semantics, Value.Exact]
    have hexact : (json (semantics intent ordinal (c.toRfc3339 due) ++
        [("contract", .string contract)])).Exact := by
      rw [json, Value.Exact, Value.exactMembers_iff]
      exact fun entry hentry ↦ hplain entry (Object.mem_ofFields hentry)
    obtain ⟨text, htext⟩ := exists_encode hexact
    exact ⟨tag ++ lib.sha256Hex text, by rw [identity, htext]; rfl⟩
  obtain ⟨occurrenceId, hoccurrence⟩ := hidentity "garive.schedule-occurrence" "occurrence-"
  obtain ⟨commandId, hcommand⟩ := hidentity "garive.schedule-command" "schedule-command-"
  refine ⟨⟨ordinal, c.toRfc3339 due, occurrenceId, commandId⟩, ?_, rfl, rfl⟩
  rw [scheduleOccurrence, h]
  simp [hoccurrence, hcommand]

theorem scheduleOccurrence_eq_none (h : scheduleOccurrence lib intent ordinal = .ok none) :
    ¬HasOrdinal intent ordinal := by
  simp only [scheduleOccurrence, bind_eq_ok_iff] at h
  obtain ⟨due, hdue, h⟩ := h
  cases due with
  | none => exact dueInstant_eq_none hdue
  | some due => simp [ok_iff] at h

/-! ## Skipped ranges -/

/-- The ordinals of a schedule are those up to the last one, as long as they are in range. -/
theorem hasOrdinal_iff (hpos : 0 < ordinal) (hle : ordinal ≤ 2 ^ 64 - 1) :
    HasOrdinal intent ordinal ↔ ordinal ≤ maxOrdinal intent := by
  rw [HasOrdinal, maxOrdinal]
  cases intent.timing with
  | atInstant => simp only; omega
  | fixedDelay _ _ maxOccurrences =>
    cases maxOccurrences with
    | none => simpa [hpos] using hle
    | some bound => simp [hpos]

/-- The last ordinal of a skip is the last one that is too late. -/
theorem le_lastOverdue_iff {first last n : Nat}
    (hlate : dueAt intent first + latenessNs intent < now)
    (h : lastOverdue intent first (dueAt intent first) now (latenessNs intent) = .ok last) :
    n ≤ last ↔ n ≤ maxOrdinal intent ∧ dueAt intent n + latenessNs intent < now := by
  have hstep : dueAt intent n = dueAt intent first + (n - first) * delayNs intent := by
    rw [dueAt, dueAt, add_assoc, ← add_mul]
    congr 2
    omega
  rw [hstep]
  rw [lastOverdue] at h
  split at h
  · rename_i text htiming
    cases h
    rw [maxOrdinal, delayNs, htiming, mul_zero, add_zero]
    exact (and_iff_left hlate).symm
  · rename_i text delayMs maxOccurrences htiming
    have hvalid := intent.timing_valid
    simp only [htiming, validTiming, Bool.and_eq_true, bne_iff_ne] at hvalid
    have hdelay : 1 ≤ delayMs.toNat := Nat.one_le_iff_ne_zero.mpr fun hzero ↦
      hvalid.1.2 (UInt64.toNat_inj.mp hzero)
    simp only [ok_iff, checkedAdd_eq_some_iff] at h
    obtain ⟨_, hcutoff, -, delay, hmul, -, -, _, ⟨rfl, -⟩, rfl⟩ := h
    have hdelayNs : delayNs intent = delay := by
      rw [delayNs, htiming, checkedMul_eq_some hmul]
      push_cast
      rfl
    have hpositive : (0 : Int) < delay := by
      rw [checkedMul_eq_some hmul]
      omega
    rw [Chrono.checkedAddSigned_eq_some hcutoff, hdelayNs, Int.tdiv_eq_ediv_of_nonneg (by omega),
      le_min_iff, and_comm]
    refine and_congr_right fun _ ↦ ?_
    -- A multiple of the delay is below the distance exactly when the quotient admits it.
    have hquot := Int.le_ediv_iff_mul_le (a := (n : Int) - first)
      (b := now + -latenessNs intent - dueAt intent first - 1) hpositive
    have hnonneg : 0 ≤ (now + -latenessNs intent - dueAt intent first - 1) / (delay : Int) :=
      Int.ediv_nonneg (by omega) hpositive.le
    omega

/-- What a skipped range says. -/
structure Skips (lib : Externals) (intent : ScheduleIntent c) (now : Int) (first : Nat)
    (range : SkippedOccurrences) : Prop where
  first_eq : range.firstOrdinal = first
  /-- The range has exactly the ordinals from the first one on that are too late. -/
  mem_iff : ∀ n, first ≤ n ∧ n ≤ range.lastOrdinal ↔ first ≤ n ∧ TooLate intent now n
  firstDue_eq : range.firstDueAtUtc = c.toRfc3339 (dueAt intent first)
  lastDue_eq : range.lastDueAtUtc = c.toRfc3339 (dueAt intent range.lastOrdinal)
  nextDue_eq : ∀ next, range.nextDue = some next →
    scheduleOccurrence lib intent (range.lastOrdinal + 1) = .ok (some next)
  nextDue_none : range.nextDue = none ↔ ¬HasOrdinal intent (range.lastOrdinal + 1)

theorem skips_of_skipOverdue {first : DueOccurrence} {decision : ScheduleDecision}
    (hfirst : scheduleOccurrence lib intent ordinal = .ok (some first))
    (hlate : dueAt intent ordinal + latenessNs intent < now)
    (h : skipOverdue lib intent first (dueAt intent ordinal) now (latenessNs intent) = .ok decision) :
    ∃ range, decision = .skipped range ∧ Skips lib intent now ordinal range := by
  obtain ⟨hordinal, hhas, htext, -⟩ := scheduleOccurrence_eq_some hfirst
  simp only [skipOverdue, ok_iff, hordinal] at h
  obtain ⟨lastOrdinal, hlast, _, hfound, _, rfl, nextDue, hnext, rfl⟩ := h
  obtain ⟨-, hlastHas, hlastText, _⟩ := scheduleOccurrence_eq_some hfound
  have hmax : ∀ {n : Nat}, 0 < n → n ≤ 2 ^ 63 + 1 → (HasOrdinal intent n ↔ n ≤ maxOrdinal intent) :=
    fun hpos hle ↦ hasOrdinal_iff hpos (by omega)
  have hlastMax := (hmax hlastHas.1 (by omega)).mp hlastHas
  have hfollows : HasOrdinal intent (lastOrdinal + 1) ↔ lastOrdinal + 1 ≤ maxOrdinal intent :=
    hmax (by omega) (by omega)
  have hcases : nextDue = none ∧ ¬HasOrdinal intent (lastOrdinal + 1) ∨ ∃ next, nextDue = some next ∧
      scheduleOccurrence lib intent (lastOrdinal + 1) = .ok (some next) := by
    rw [following] at hnext
    split at hnext
    · cases hnext
      exact .inl ⟨rfl, by rw [hfollows]; omega⟩
    · simp only [ok_iff, checkedAdd_eq_some_iff] at hnext
      obtain ⟨_, ⟨rfl, -⟩, hnext⟩ := hnext
      cases nextDue with
      | none => exact absurd (hfollows.mpr (by omega)) (scheduleOccurrence_eq_none hnext)
      | some next => exact .inr ⟨next, rfl, hnext⟩
  have hmem : ∀ n, ordinal ≤ n → (n ≤ lastOrdinal ↔ TooLate intent now n) := by
    intro n hn
    constructor
    · intro hle
      have hlater := (le_lastOverdue_iff hlate hlast).mp hle
      exact ⟨(hmax (Nat.lt_of_lt_of_le hhas.1 hn) (by omega)).mpr hlater.1, hlater.2⟩
    · rintro ⟨hthere, hlater⟩
      by_contra hlt
      -- Otherwise the ordinal after the range would be too late as well.
      have hnextHas := hthere.of_le (Nat.succ_pos lastOrdinal) (by omega)
      have hdue : dueAt intent (lastOrdinal + 1) ≤ dueAt intent n := dueAt_mono (by omega)
      have hle := (le_lastOverdue_iff hlate hlast).mpr ⟨hfollows.mp hnextHas, by omega⟩
      omega
  refine ⟨_, rfl, rfl, fun n ↦ and_congr_right (hmem n), htext, hlastText, ?_, ?_⟩
  · rintro next rfl
    rcases hcases with ⟨hnone, -⟩ | ⟨_, hsome, hfound⟩
    · cases hnone
    · cases hsome
      exact hfound
  · rcases hcases with ⟨rfl, hnot⟩ | ⟨next, rfl, hfound⟩
    · simp [hnot]
    · simp [(scheduleOccurrence_eq_some hfound).2.1]

/-! ## What a decision says -/

/-- The next ordinal that has not been handled. -/
def nextOrdinal (handled : Option Nat) : Nat := handled.getD 0 + 1

@[simp] theorem nextOrdinal_some (last : Nat) : nextOrdinal (some last) = last + 1 := rfl

/-- The occurrence of an ordinal is too late, and its instants can be represented. -/
structure Overdue (intent : ScheduleIntent c) (now : Int) (ordinal : Nat) : Prop where
  tooLate : TooLate intent now ordinal
  due : dueInstant intent ordinal = .ok (some (dueAt intent ordinal))
  canonical : c.canonicalUtc (c.toRfc3339 (dueAt intent ordinal)) = some (dueAt intent ordinal)
  lateness : milliseconds intent.maxLatenessMs.toNat = .ok (latenessNs intent)
  latest : c.checkedAddSigned (dueAt intent ordinal) (latenessNs intent) =
    some (dueAt intent ordinal + latenessNs intent)

/-- What a decision says about the next ordinal. -/
inductive Decides (lib : Externals) (intent : ScheduleIntent c) (now : Int) (ordinal : Nat) :
    ScheduleDecision → Prop
  | exhausted (h : ¬HasOrdinal intent ordinal) : Decides lib intent now ordinal .exhausted
  | notDue {next : DueOccurrence} (hnext : scheduleOccurrence lib intent ordinal = .ok (some next))
      (h : now < dueAt intent ordinal) : Decides lib intent now ordinal (.notDue next)
  | due {next : DueOccurrence} (hnext : scheduleOccurrence lib intent ordinal = .ok (some next))
      (hdue : dueAt intent ordinal ≤ now) (h : now ≤ dueAt intent ordinal + latenessNs intent) :
      Decides lib intent now ordinal (.due next)
  | late {next : DueOccurrence} (hnext : scheduleOccurrence lib intent ordinal = .ok (some next))
      (hpolicy : intent.misfirePolicy = .fireOnce) (h : Overdue intent now ordinal) :
      Decides lib intent now ordinal (.due next)
  | fail {next : DueOccurrence} (hnext : scheduleOccurrence lib intent ordinal = .ok (some next))
      (hpolicy : intent.misfirePolicy = .fail) (h : Overdue intent now ordinal) :
      Decides lib intent now ordinal (.failMisfire next)
  | skipped {range : SkippedOccurrences} (hpolicy : intent.misfirePolicy = .skip)
      (h : Overdue intent now ordinal) (hskips : Skips lib intent now ordinal range) :
      Decides lib intent now ordinal (.skipped range)

variable {handled : Option Nat} {text : String} {decision : ScheduleDecision}

/-- Every decision is about the next ordinal and means what it says. -/
theorem nextOccurrence_cases (hc : c.Documented) (hnow : c.canonicalUtc text = some now)
    (h : nextOccurrence lib intent handled text = .ok decision) :
    Decides lib intent now (nextOrdinal handled) decision := by
  simp only [nextOccurrence, hnow, okOr_some, ok_bind, bind_eq_ok_iff] at h
  obtain ⟨ordinal, hordinal, found, hfound, h⟩ := h
  have hnext : ordinal = nextOrdinal handled := by
    cases handled with
    | none => exact (Except.ok.inj hordinal).symm
    | some value =>
      simp only [unhandled, okOr_eq_ok_iff, checkedAdd_eq_some_iff] at hordinal
      exact hordinal.1.symm
  subst hnext
  cases found with
  | none =>
    cases h
    exact .exhausted (scheduleOccurrence_eq_none hfound)
  | some next =>
    obtain ⟨-, hhas, htext, -⟩ := scheduleOccurrence_eq_some hfound
    have hinstant := dueInstant_of_scheduleOccurrence hfound
    simp only [reduce, bind_eq_ok_iff, okOr_eq_ok_iff] at h
    obtain ⟨due, hdue, h⟩ := h
    obtain rfl : due = dueAt intent (nextOrdinal handled) :=
      hc ((Chrono.canonicalUtc_eq_some hdue).trans htext)
    split at h
    · rename_i hearly
      cases h
      exact .notDue hfound hearly
    · rename_i hreached
      simp only [bind_eq_ok_iff, okOr_eq_ok_iff] at h
      obtain ⟨lateness, hlateness, _, hlatest, h⟩ := h
      obtain rfl : lateness = latenessNs intent := (milliseconds_eq_ok hlateness).2
      obtain rfl := Chrono.checkedAddSigned_eq_some hlatest
      split at h
      · rename_i hwithin
        cases h
        exact .due hfound (by omega) hwithin
      · rename_i hlate
        have htoo : Overdue intent now (nextOrdinal handled) :=
          ⟨⟨hhas, by omega⟩, hinstant, htext ▸ hdue, hlateness, hlatest⟩
        cases hpolicy : intent.misfirePolicy with
        | fireOnce =>
          rw [misfire, hpolicy] at h
          cases h
          exact .late hfound hpolicy htoo
        | fail =>
          rw [misfire, hpolicy] at h
          cases h
          exact .fail hfound hpolicy htoo
        | skip =>
          rw [misfire, hpolicy] at h
          obtain ⟨_, rfl, hskips⟩ := skips_of_skipOverdue hfound htoo.tooLate.2 h
          exact .skipped hpolicy htoo hskips

/-- The handled ordinals after a decision has been recorded, if there is anything to record. -/
def recorded : ScheduleDecision → Option Nat
  | .due next => some next.ordinal
  | .skipped range => some range.lastOrdinal
  | _ => none

/-- The decisions at one clock value, each of which is recorded before the next one. -/
def catchUp (lib : Externals) (intent : ScheduleIntent c) (text : String) :
    Nat → Option Nat → List ScheduleDecision
  | 0, _ => []
  | calls + 1, handled =>
    match nextOccurrence lib intent handled text with
    | .error _ => []
    | .ok decision => decision :: (recorded decision).elim [] fun last ↦
      catchUp lib intent text calls (some last)

/-- The decision is about occurrences that are too late. -/
def isLate (intent : ScheduleIntent c) (now : Int) : ScheduleDecision → Bool
  | .due next | .notDue next | .failMisfire next =>
    dueAt intent next.ordinal + latenessNs intent < now
  | .skipped range => dueAt intent range.firstOrdinal + latenessNs intent < now
  | .exhausted => false

/-- The number of decisions about occurrences that are too late. -/
def lateDecisions (lib : Externals) (intent : ScheduleIntent c) (text : String) (now : Int)
    (calls : Nat) (handled : Option Nat) : Nat :=
  (catchUp lib intent text calls handled).countP (isLate intent now)

theorem TooLate.of_le {m n : Nat} (h : TooLate intent now n) (hpos : 0 < m) (hle : m ≤ n) :
    TooLate intent now m := by
  have hdue : dueAt intent m ≤ dueAt intent n := dueAt_mono hle
  exact ⟨h.1.of_le hpos hle, by have hlate := h.2; omega⟩

/-- A decision is late exactly when the next ordinal is. -/
theorem Decides.isLate_iff (h : Decides lib intent now ordinal decision) :
    isLate intent now decision ↔ TooLate intent now ordinal := by
  have hlateness : 0 ≤ latenessNs intent := by rw [latenessNs]; omega
  cases h with
  | exhausted hnot => simp [isLate, TooLate, hnot]
  | notDue hnext _ | due hnext _ _ | late hnext _ _ | fail hnext _ _ =>
    obtain ⟨hordinal, hhas, -⟩ := scheduleOccurrence_eq_some hnext
    simp [isLate, TooLate, hordinal, hhas]
  | skipped _ hlate hskips => simp [isLate, hskips.first_eq, hlate.tooLate, hlate.tooLate.2]

/-- Nothing is decided about an occurrence that is too late unless its instants can be represented. -/
theorem Decides.overdue (h : Decides lib intent now ordinal decision)
    (hlate : TooLate intent now ordinal) : Overdue intent now ordinal := by
  have hlateness : 0 ≤ latenessNs intent := by rw [latenessNs]; omega
  have hpast := hlate.2
  cases h with
  | exhausted hnot => exact absurd hlate.1 hnot
  | notDue _ hearly => omega
  | due _ _ hwithin => omega
  | late _ _ hover | fail _ _ hover | skipped _ hover _ => exact hover

/-- Once a decision is recorded, the next ordinal is not too late unless the one before was, and was
fired all the same. -/
theorem Decides.not_tooLate (h : Decides lib intent now ordinal decision) {last : Nat}
    (hlast : recorded decision = some last)
    (hcond : ¬TooLate intent now ordinal ∨ intent.misfirePolicy = .skip) :
    ¬TooLate intent now (last + 1) := by
  intro hnext
  cases h with
  | exhausted | notDue | fail => cases hlast
  | due hocc _ hwithin =>
    obtain ⟨hordinal, hhas, -⟩ := scheduleOccurrence_eq_some hocc
    cases hlast
    rw [hordinal] at hnext
    have hthis := (hnext.of_le hhas.1 (Nat.le_succ _)).2
    omega
  | late _ hpolicy hlate =>
    rcases hcond with hnot | hskip
    · exact hnot hlate.tooLate
    · rw [hpolicy] at hskip
      cases hskip
  | skipped _ hlate hskips =>
    cases hlast
    have hstart := (hskips.mem_iff _).mpr ⟨le_refl _, hlate.tooLate⟩
    have hbeyond := (hskips.mem_iff _).mpr ⟨by omega, hnext⟩
    omega

variable (hc : c.Documented) (hnow : c.canonicalUtc text = some now)

include hc hnow

/-- As long as the next ordinal is not overdue, no decision is late. -/
theorem lateDecisions_eq_zero (calls : Nat) (handled : Option Nat)
    (h : ¬Overdue intent now (nextOrdinal handled)) :
    lateDecisions lib intent text now calls handled = 0 := by
  induction calls generalizing handled with
  | zero => rfl
  | succ calls ih =>
    rw [lateDecisions, catchUp]
    split
    · rfl
    · rename_i decision hdecision
      have hdecides := nextOccurrence_cases hc hnow hdecision
      have hnot : ¬TooLate intent now (nextOrdinal handled) := fun hlate ↦ h (hdecides.overdue hlate)
      have hfirst : isLate intent now decision ≠ true := hdecides.isLate_iff.not.mpr hnot
      rw [List.countP_cons_of_neg hfirst]
      cases hlast : recorded decision with
      | none => rfl
      | some last =>
        exact ih (some last) fun hover ↦ hdecides.not_tooLate hlast (.inl hnot) hover.tooLate

/-- At most one decision is late when every decision about the next ordinal leads past the backlog. -/
theorem lateDecisions_le_one (calls : Nat) (handled : Option Nat)
    (h : ∀ decision last, Decides lib intent now (nextOrdinal handled) decision →
      recorded decision = some last → ¬Overdue intent now (last + 1)) :
    lateDecisions lib intent text now calls handled ≤ 1 := by
  cases calls with
  | zero => exact Nat.zero_le 1
  | succ calls =>
    rw [lateDecisions, catchUp]
    split
    · exact Nat.zero_le 1
    · rename_i decision hdecision
      have hdecides := nextOccurrence_cases hc hnow hdecision
      have hrest : ((recorded decision).elim [] fun last ↦
          catchUp lib intent text calls (some last)).countP (isLate intent now) = 0 := by
        cases hlast : recorded decision with
        | none => rfl
        | some last => exact lateDecisions_eq_zero hc hnow calls (some last) (h _ _ hdecides hlast)
      rw [List.countP_cons, hrest]
      split <;> omega

omit hc in
/-- What happens to an overdue occurrence is up to the policy. -/
theorem nextOccurrence_overdue (lib : Externals) (h : Overdue intent now (nextOrdinal handled)) :
    ∃ next, next.ordinal = nextOrdinal handled ∧ nextOccurrence lib intent handled text =
      misfire lib intent next (dueAt intent (nextOrdinal handled)) now (latenessNs intent) := by
  obtain ⟨next, hocc, hordinal, htext⟩ := exists_scheduleOccurrence lib h.due
  have hunhandled : unhandled handled = .ok (nextOrdinal handled) := by
    have hle := (dueInstant_eq_some h.due).2.2
    cases handled with
    | none => rfl
    | some last =>
      rw [nextOrdinal_some] at hle
      rw [unhandled, nextOrdinal_some, checkedAdd, if_pos (by omega), okOr_some]
  have hdue := h.tooLate.2
  have hlateness : 0 ≤ latenessNs intent := by rw [latenessNs]; omega
  refine ⟨next, hordinal, ?_⟩
  rw [nextOccurrence, hnow, okOr_some, ok_bind, hunhandled, ok_bind, hocc, ok_bind]
  simp only [reduce, htext, h.canonical, okOr_some, ok_bind, h.lateness, h.latest]
  rw [if_neg (by omega), if_neg (by omega)]

omit hc in
/-- Under the policy to fire once, two overdue occurrences are fired one after the other. -/
theorem lateDecisions_two (lib : Externals) (hpolicy : intent.misfirePolicy = .fireOnce)
    (hfirst : Overdue intent now (nextOrdinal handled))
    (hsecond : Overdue intent now (nextOrdinal handled + 1)) :
    lateDecisions lib intent text now 2 handled = 2 := by
  obtain ⟨first, hfirstOrdinal, hone⟩ := nextOccurrence_overdue hnow lib hfirst
  rw [← nextOrdinal_some] at hsecond
  obtain ⟨second, hsecondOrdinal, htwo⟩ := nextOccurrence_overdue hnow lib hsecond
  rw [misfire, hpolicy] at hone htwo
  have hlate : isLate intent now (.due first) ∧ isLate intent now (.due second) := by
    simp only [isLate, hfirstOrdinal, hsecondOrdinal, decide_eq_true_eq]
    exact ⟨hfirst.tooLate.2, hsecond.tooLate.2⟩
  simp [lateDecisions, catchUp, hone, recorded, hfirstOrdinal, htwo, hlate]

omit hc hnow

/-! ## A schedule that fell behind -/

/-- A clock that writes an instant as tally marks. -/
def tallyClock : Chrono where
  parseFromRfc3339 text := some (Equiv.intEquivNat.symm text.length)
  toRfc3339 time := String.ofList (List.replicate (Equiv.intEquivNat time) '|')
  minUtc := -8000000000000000000000
  maxUtc := 8000000000000000000000

@[simp] theorem canonicalUtc_tallyClock (time : Int) :
    tallyClock.canonicalUtc (tallyClock.toRfc3339 time) = some time := by
  simp [Chrono.canonicalUtc, tallyClock]

theorem documented_tallyClock : tallyClock.Documented := by
  intro a b h
  have hread := congrArg tallyClock.canonicalUtc h
  simpa using hread

/-- Three occurrences, one a second, which may be late by a millisecond. -/
def everySecond (policy : MisfirePolicy) : ScheduleIntent tallyClock where
  scheduleId := "schedule-1"
  revisionId := "revision-1"
  timing := .fixedDelay (tallyClock.toRfc3339 0) 1000 (some 3)
  misfirePolicy := policy
  maxLatenessMs := 1
  timing_valid := by simp [validTiming]
  lateness_ne_zero := by decide

/-- Ten seconds after the first occurrence was due. -/
def muchLater : Int := 10000000000

theorem dueAt_everySecond (policy : MisfirePolicy) (ordinal : Nat) :
    dueAt (everySecond policy) ordinal = (ordinal - 1) * 1000000000 := by
  simp [dueAt, firstDue, delayNs, everySecond]

theorem latenessNs_everySecond (policy : MisfirePolicy) :
    latenessNs (everySecond policy) = 1000000 := by
  simp [latenessNs, everySecond]

theorem overdue_everySecond (policy : MisfirePolicy) {ordinal : Nat} (hpos : 0 < ordinal)
    (hle : ordinal ≤ 3) : Overdue (everySecond policy) muchLater ordinal := by
  have hdue := dueAt_everySecond policy ordinal
  have hlateness := latenessNs_everySecond policy
  have hmul : checkedMul (ordinal - 1) (1000 : UInt64).toNat = some ((ordinal - 1) * 1000) := by
    simp only [UInt64.reduceToNat, checkedMul]
    exact if_pos (by omega)
  have hspan : milliseconds ((ordinal - 1) * 1000) =
      .ok ((((ordinal - 1) * 1000 : Nat) : Int) * 1000000) := by
    rw [milliseconds, ensure_of (by omega)]
    rfl
  constructor
  case tooLate => exact ⟨⟨hpos, by simpa [everySecond] using hle⟩, by rw [hdue, hlateness, muchLater]; omega⟩
  case canonical => exact canonicalUtc_tallyClock _
  case lateness => rfl
  case latest =>
    rw [hdue, hlateness]
    exact if_pos (by simp only [tallyClock]; omega)
  case due =>
    have hat : tallyClock.checkedAddSigned 0 ((((ordinal - 1) * 1000 : Nat) : Int) * 1000000) =
        some (dueAt (everySecond policy) ordinal) := by
      rw [Chrono.checkedAddSigned, if_pos (by simp only [tallyClock]; omega), hdue]
      simp only [some.injEq]
      omega
    exact dueInstant_fixedDelay rfl (by simpa using hle) hpos hmul (canonicalUtc_tallyClock 0) hspan
      hat

end Recurrence

end Garive
