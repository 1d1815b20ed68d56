import Garive.Lib.BigEndian
import Garive.Lib.Except
import Garive.Lib.Machine
import Mathlib.Data.Option.Basic

/-!
# The lifecycle of a guest process

A reducer owns one dispatch of a process: its start is consumed once, the process goes from starting to
running to a retained receipt, and it ends absent. A reducer whose start was consumed and whose process
is absent is spent: no call moves it any more. A termination before the start leaves the start to be
made. A receipt is admitted under the rules for its digest, which check the identity more closely than
the creation of the reducer does.
-/

namespace Garive

/-! ## Messages -/

structure ProcessIdentityV1 where
  protocolRevision : String
  invocationId : String
  dispatchAttemptId : String
  executorRevision : String
  preparedDigest : List UInt8
  vmConfigurationDigest : List UInt8
  workloadDigest : List UInt8
deriving DecidableEq

inductive Classification where
  | code (value : Int32)
  | signal (value : Int32)
  | timedOut (value : Bool)

structure ProcessExitV1 where
  classification : Option Classification

structure ProcessTerminalReceiptV1 where
  identity : Option ProcessIdentityV1
  exit : Option ProcessExitV1
  stdout : List UInt8
  stderr : List UInt8
  truncated : Bool
  processTreeTerminated : Bool
  receiptDigest : List UInt8

inductive ProcessServiceStateV1 where
  | absent
  | starting
  | running
  | terminalRetained

structure ProcessStatusV1 where
  identity : Option ProcessIdentityV1
  state : ProcessServiceStateV1
  terminal : Option ProcessTerminalReceiptV1

/-! ## The digest of a receipt -/

def asBytes (text : String) : List UInt8 := text.toUTF8.toList

def validIdentityText (value : String) : Bool :=
  1 ≤ value.utf8ByteSize && value.utf8ByteSize ≤ 256 &&
    (asBytes value).all (fun byte ↦ 0x20 ≤ byte && byte ≤ 0x7e) && value.toList.head? != some ' ' &&
    value.toList.getLast? != some ' '

def validIdentity (value : ProcessIdentityV1) : Bool :=
  value.protocolRevision == "guest-v1.0" &&
    [value.invocationId, value.dispatchAttemptId, value.executorRevision].all validIdentityText &&
    value.preparedDigest.length == 32 && value.vmConfigurationDigest.length == 32 &&
    (value.workloadDigest.length == 0 || value.workloadDigest.length == 32)

/-- Bytes below their length. -/
def digestField (value : List UInt8) : List UInt8 := bigEndian 8 value.length ++ value

/-- The bytes of an exit. A signal must be positive and a timeout marked. -/
def exitBytes : Classification → Option (List UInt8)
  | .code value => some (0 :: bigEndian 4 value.toUInt32.toNat)
  | .signal value => if 0 < value then some (1 :: bigEndian 4 value.toUInt32.toNat) else none
  | .timedOut value => if value then some [2] else none

/-- Validates a terminal receipt and computes its digest; `none` is `InvalidReceipt`. -/
def processReceiptDigest (sha256 : List UInt8 → List UInt8) (receipt : ProcessTerminalReceiptV1) :
    Option (List UInt8) := do
  let identity ← receipt.identity
  guard (validIdentity identity ∧ identity.workloadDigest.length = 32)
  guard (receipt.processTreeTerminated ∧ receipt.stdout.length + receipt.stderr.length ≤ 1048576)
  let exit ← (receipt.exit.bind (·.classification)).bind exitBytes
  let digest := sha256 (asBytes "garive.macos-process-receipt.v1" ++
    digestField identity.workloadDigest ++ exit ++ digestField receipt.stdout ++
    digestField receipt.stderr ++ [if receipt.truncated then 1 else 0, 1])
  guard (receipt.receiptDigest = [] ∨ receipt.receiptDigest = digest)
  return digest

/-! ## The reducer -/

inductive ProcessStateError where
  | identityMismatch
  | stateConflict
  | invalidTerminal

inductive OwnedState where
  | absent
  | starting
  | running
  | terminalRetained (receipt : ProcessTerminalReceiptV1)

structure ProcessStateReducer where
  identity : ProcessIdentityV1
  state : OwnedState
  startConsumed : Bool

inductive ProcessCall where
  | start (identity : ProcessIdentityV1)
  | markRunning (identity : ProcessIdentityV1)
  | retainTerminal (receipt : ProcessTerminalReceiptV1)
  | query (identity : ProcessIdentityV1)
  | terminate (identity : ProcessIdentityV1)
  | acknowledge (identity : ProcessIdentityV1) (receiptDigest : List UInt8)

abbrev ProcessAnswers := List (ProcessCall × Except ProcessStateError (Option ProcessStatusV1))

namespace ProcessStateReducer

variable (sha256 : List UInt8 → List UInt8) (self : ProcessStateReducer)
  (identity : ProcessIdentityV1)

def new : Except ProcessStateError ProcessStateReducer := do
  ensure (identity.workloadDigest.length = 32 ∧ identity.preparedDigest.length = 32 ∧
    identity.vmConfigurationDigest.length = 32) .identityMismatch
  return { identity, state := .absent, startConsumed := false }

def requireIdentity : Except ProcessStateError Unit :=
  ensure (identity = self.identity) .identityMismatch

/-- Moves the state of the exact identity. -/
def transition (next : OwnedState → Except ProcessStateError OwnedState) :
    Except ProcessStateError ProcessStateReducer := do
  self.requireIdentity identity
  let state ← next self.state
  return { self with state }

def start : Except ProcessStateError ProcessStateReducer := do
  let moved ← self.transition identity fun
    | .absent => if self.startConsumed then .error .stateConflict else .ok .starting
    | _ => .error .stateConflict
  return { moved with startConsumed := true }

def markRunning : Except ProcessStateError ProcessStateReducer :=
  self.transition identity fun
    | .starting => .ok .running
    | _ => .error .stateConflict

/-- Validates and retains terminal evidence only after running. -/
def retainTerminal (receipt : ProcessTerminalReceiptV1) :
    Except ProcessStateError ProcessStateReducer := do
  let identity ← okOr receipt.identity .invalidTerminal
  self.transition identity fun
    | .running => do
      let digest ← okOr (processReceiptDigest sha256 receipt) .invalidTerminal
      return .terminalRetained { receipt with receiptDigest := digest }
    | _ => .error .stateConflict

def query : Except ProcessStateError ProcessStatusV1 := do
  self.requireIdentity identity
  return match self.state with
    | .absent => ⟨some self.identity, .absent, none⟩
    | .starting => ⟨some self.identity, .starting, none⟩
    | .running => ⟨some self.identity, .running, none⟩
    | .terminalRetained receipt => ⟨some self.identity, .terminalRetained, some receipt⟩

def terminate : Except ProcessStateError ProcessStateReducer :=
  self.transition identity fun
    | .terminalRetained _ => .error .stateConflict
    | _ => .ok .absent

/-- Erases a retained receipt only for its exact digest. -/
def acknowledge (receiptDigest : List UInt8) : Except ProcessStateError ProcessStateReducer :=
  self.transition identity fun
    | .terminalRetained receipt =>
      if receiptDigest.length = 32 ∧ receipt.receiptDigest = receiptDigest then .ok .absent
      else .error .identityMismatch
    | _ => .error .stateConflict

/-- A call: what it answers, and the reducer after it. -/
def call (given : ProcessCall) :
    Except ProcessStateError (Option ProcessStatusV1 × ProcessStateReducer) := do
  match given with
  | .start identity => return (none, ← self.start identity)
  | .markRunning identity => return (none, ← self.markRunning identity)
  | .retainTerminal receipt => return (none, ← self.retainTerminal sha256 receipt)
  | .query identity => return (some (← self.query identity), self)
  | .terminate identity => return (none, ← self.terminate identity)
  | .acknowledge identity digest => return (none, ← self.acknowledge identity digest)

/-- The reducer under a sequence of calls; one that fails leaves it as it was. -/
def calls (init : ProcessStateReducer) : Machine ProcessStateReducer ProcessCall
    (Except ProcessStateError (Option ProcessStatusV1)) where
  init
  step self given :=
    match self.call sha256 given with
    | .ok (answer, next) => (.ok answer, next)
    | .error e => (.error e, self)

/-! ## What a call can do -/

/-- The calls that succeed, and what they do. -/
inductive Moves : ProcessCall → ProcessStateReducer → Prop
  | start (hstate : self.state = .absent) (hfresh : self.startConsumed = false) :
      Moves (.start self.identity) { self with state := .starting, startConsumed := true }
  | markRunning (hstate : self.state = .starting) :
      Moves (.markRunning self.identity) { self with state := .running }
  | retain {receipt retained} (hstate : self.state = .running) :
      Moves (.retainTerminal receipt) { self with state := .terminalRetained retained }
  | query {asked} : Moves (.query asked) self
  | terminate (hstate : ∀ receipt, self.state ≠ .terminalRetained receipt) :
      Moves (.terminate self.identity) { self with state := .absent }
  | acknowledge {receipt} (hstate : self.state = .terminalRetained receipt) :
      Moves (.acknowledge self.identity receipt.receiptDigest) { self with state := .absent }

variable {sha256 self identity} {given : ProcessCall} {answer : Option ProcessStatusV1}
  {next init : ProcessStateReducer}

theorem moves_call (h : self.call sha256 given = .ok (answer, next)) : self.Moves given next := by
  cases given <;>
    simp only [call, start, markRunning, retainTerminal, terminate, acknowledge, transition,
      requireIdentity, ok_iff, Prod.mk.injEq] at h
  case start =>
    obtain ⟨_, ⟨_, ⟨rfl, _, h, rfl⟩, rfl⟩, -, rfl⟩ := h
    split at h
    · split at h <;> cases h
      exact .start ‹_› (by simpa using ‹¬self.startConsumed = true›)
    · cases h
  case markRunning =>
    obtain ⟨_, ⟨rfl, _, h, rfl⟩, -, rfl⟩ := h
    split at h <;> cases h
    exact .markRunning ‹_›
  case retainTerminal =>
    obtain ⟨_, ⟨_, -, -, _, h, rfl⟩, -, rfl⟩ := h
    split at h
    · simp only [ok_iff] at h
      obtain ⟨_, -, rfl⟩ := h
      exact .retain ‹_›
    · cases h
  case query =>
    obtain ⟨_, -, -, rfl⟩ := h
    exact .query
  case terminate =>
    obtain ⟨_, ⟨rfl, _, h, rfl⟩, -, rfl⟩ := h
    split at h <;> cases h
    exact .terminate ‹_›
  case acknowledge =>
    obtain ⟨_, ⟨rfl, _, h, rfl⟩, -, rfl⟩ := h
    split at h
    · split at h <;> cases h
      rename_i hdigest
      exact hdigest.2 ▸ .acknowledge ‹_›
    · cases h

/-! ## Runs of calls -/

def isStart : ProcessCall → Bool
  | .start _ => true
  | _ => false

def isRetain : ProcessCall → Bool
  | .retainTerminal _ => true
  | _ => false

/-- How many of the calls of a kind succeeded. -/
def succeeded (kind : ProcessCall → Bool) (answers : ProcessAnswers) : Nat :=
  answers.countP fun entry ↦ kind entry.1 && entry.2.isOk

variable {kind : ProcessCall → Bool} {answers : ProcessAnswers}

theorem succeeded_ok : succeeded kind (answers ++ [(given, .ok answer)]) =
    succeeded kind answers + if kind given then 1 else 0 := by
  cases hkind : kind given <;> simp [succeeded, hkind, Except.isOk, Except.toBool]

theorem succeeded_error {e : ProcessStateError} :
    succeeded kind (answers ++ [(given, .error e)]) = succeeded kind answers := by
  simp [succeeded, Except.isOk, Except.toBool]

/-- The call leaves a started process behind absent: an acknowledgement, or a termination after the
start. -/
def Ends (before : ProcessAnswers) : ProcessCall → Prop
  | .acknowledge .. => True
  | .terminate _ => 0 < succeeded isStart before
  | _ => False

def Ended (answers : ProcessAnswers) : Prop :=
  ∃ before entry after, answers = before ++ entry :: after ∧ Ends before entry.1 ∧ entry.2.isOk

theorem ended_concat {entry} :
    Ended (answers ++ [entry]) ↔ Ended answers ∨ Ends answers entry.1 ∧ entry.2.isOk := by
  have hiff (answers : ProcessAnswers) : Ended answers ↔
      ¬EachAfter (fun before entry ↦ ¬(Ends before entry.1 ∧ entry.2.isOk)) answers := by
    simp only [Ended, EachAfter, not_forall, not_not, exists_prop]
  rw [hiff, hiff, eachAfter_concat, not_and_or, not_not]

/-- What the calls so far say of the reducer. -/
structure Ran (init : ProcessStateReducer) (answers : ProcessAnswers) (self : ProcessStateReducer) :
    Prop where
  identity : self.identity = init.identity
  starts : succeeded isStart answers = if self.startConsumed then 1 else 0
  owned : self.state ≠ .absent → self.startConsumed = true
  retains : succeeded isRetain answers ≤ 1
  fresh : self.startConsumed = false ∨ self.state = .starting ∨ self.state = .running →
    succeeded isRetain answers = 0
  ended : Ended answers → self.startConsumed = true ∧ self.state = .absent

theorem Ran.step (h : Ran init answers self) (hmove : self.Moves given next) :
    Ran init (answers ++ [(given, .ok answer)]) next := by
  obtain ⟨hidentity, hstarts, howned, hretains, hfresh, hended⟩ := h
  cases hstarted : self.startConsumed <;> cases hmove <;> constructor <;>
    simp_all [succeeded_ok, ended_concat, isStart, isRetain, Ends]

theorem ran (h : new identity = .ok init) (given : List ProcessCall) :
    Ran init ((calls sha256 init).run given).1 ((calls sha256 init).run given).2 := by
  simp only [new, ok_iff] at h
  obtain ⟨-, rfl⟩ := h
  refine (calls sha256 _).run_induction (by constructor <;> simp [calls, succeeded, Ended]) ?_ given
  intro answers self given ih
  simp only [calls]
  cases hcall : self.call sha256 given with
  | ok result => exact ih.step (moves_call hcall)
  | error e =>
    obtain ⟨hidentity, hstarts, howned, hretains, hfresh, hended⟩ := ih
    constructor <;> simp_all [succeeded_error, ended_concat, Except.isOk, Except.toBool]

/-- One start and one receipt are admitted, a receipt is retained only from running and erased only by
its digest, a process that has ended is reported as absent, and a running process whose identity is
valid retains every complete receipt. -/
theorem run_lifecycle (h : new identity = .ok init) (given : List ProcessCall) :
    let answers := ((calls sha256 init).run given).1
    let self := ((calls sha256 init).run given).2
    succeeded isStart answers ≤ 1 ∧ succeeded isRetain answers ≤ 1 ∧
    (∀ given answer next, self.call sha256 given = .ok (answer, next) →
      (isRetain given → self.state = .running) ∧
      (∀ receipt, next.state = .terminalRetained receipt →
        isRetain given ∨ self.state = .terminalRetained receipt) ∧
      ∀ receipt, self.state = .terminalRetained receipt → next.state = .terminalRetained receipt ∨
        given = .acknowledge identity receipt.receiptDigest) ∧
    (Ended answers → ∀ asked status, self.query asked = .ok status →
      status = ⟨some identity, .absent, none⟩) ∧
    (self.state = .running → validIdentity identity → ∀ receipt, receipt.identity = some identity →
      receipt.processTreeTerminated → ((receipt.exit.bind (·.classification)).bind exitBytes).isSome →
      receipt.stdout.length + receipt.stderr.length ≤ 1048576 → receipt.receiptDigest = [] →
      ∃ digest, self.call sha256 (.retainTerminal receipt) =
        .ok (none, { self with state := .terminalRetained { receipt with receiptDigest := digest } })) := by
  intro answers self
  have hran : Ran init answers self := ran h given
  obtain ⟨hidentity, hstarts, -, hretains, -, hended⟩ := hran
  simp only [new, ok_iff] at h
  obtain ⟨⟨hworkload, -, -⟩, rfl⟩ := h
  change self.identity = identity at hidentity
  refine ⟨?_, hretains, fun given answer next hcall ↦ ?_, fun hend asked status hquery ↦ ?_, ?_⟩
  · rw [hstarts]
    split <;> decide
  · cases moves_call hcall <;> simp_all [isRetain]
  · simp only [query, ok_iff] at hquery
    obtain ⟨-, rfl⟩ := hquery
    have habsent : self.state = .absent := (hended hend).2
    simp only [habsent, hidentity]
  · intro hrunning hvalid receipt hreceipt htree hexit hbound hdigest
    obtain ⟨exit, hexit⟩ := Option.isSome_iff_exists.mp hexit
    simp [call, retainTerminal, transition, requireIdentity, processReceiptDigest, hrunning, hvalid,
      hreceipt, htree, hexit, hbound, hdigest, hidentity, hworkload, okOr, ensure]

/-- An identity of the protocol revision that receipts are checked for. -/
def known : ProcessIdentityV1 :=
  ⟨"guest-v1.0", "call", "attempt", "executor", .replicate 32 0, .replicate 32 0, .replicate 32 0⟩

def other : ProcessIdentityV1 := { known with protocolRevision := "guest-v2.0" }

/-- The receipt of a process that exited at once. -/
def exited (identity : ProcessIdentityV1) : ProcessTerminalReceiptV1 :=
  ⟨some identity, some ⟨some (.code 0)⟩, [], [], false, true, []⟩

/-- A process terminated before its start is reported as running, and a running one of another
protocol revision retains no receipt. -/
theorem running_after_terminate :
    (calls id ⟨known, .absent, false⟩).run [.terminate known, .start known, .markRunning known] =
      ([(.terminate known, .ok none), (.start known, .ok none), (.markRunning known, .ok none)],
        ⟨known, .running, true⟩) ∧
    query ⟨known, .running, true⟩ known = .ok ⟨some known, .running, none⟩ ∧
    new other = .ok ⟨other, .absent, false⟩ ∧
    ((calls id ⟨other, .absent, false⟩).run [.start other, .markRunning other]).2 =
      ⟨other, .running, true⟩ ∧
    retainTerminal id ⟨other, .running, true⟩ (exited other) = .error .invalidTerminal :=
  ⟨rfl, rfl, rfl, rfl, rfl⟩

/-- A running process retains its receipt. -/
theorem run_lifecycle_exited : ∃ digest,
    call id ⟨known, .running, true⟩ (.retainTerminal (exited known)) = .ok (none,
      ⟨known, .terminalRetained { exited known with receiptDigest := digest }, true⟩) :=
  (@run_lifecycle id known ⟨known, .absent, false⟩ rfl [.start known, .markRunning known]).2.2.2.2 rfl
    (by decide +kernel) _ rfl rfl rfl (by decide) rfl

end ProcessStateReducer

end Garive
