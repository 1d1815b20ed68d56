import Garive.Ledger.Projection.Frame
import Garive.Lib.Latest

/-!
# What a session's facts say last

The projection keeps, for every turn, execution, model request and tool invocation, what the last
fact about it said. A fact writes to at most one entry of each table, and what it writes can be told
from the fact alone; `SessionProjection.apply_registers` says so for every accepted fact. The tables
of a session are therefore the writes of its history (`Registers.ofHistory`), and a lookup is the
value that was written last.
-/

namespace Garive

/-! ## What facts write -/

/-- A text field of a fact's payload, if it can be read. -/
def payloadText? (lib : Externals) (fact : FactDraft) (key : String) : Option String := do
  let payload ← (payloadOf lib fact).toOption
  (textOf payload key).toOption

/-- A number field of a fact's payload, if it can be read. -/
def payloadNumber? (lib : Externals) (fact : FactDraft) (key : String) : Option Nat := do
  let payload ← (payloadOf lib fact).toOption
  (unsignedOf payload key).toOption

/-- The state a kind moves its turn to. -/
def turnStateOf (kind : FactKind) : Option TurnState :=
  match roleOf kind with
  | .turn state => some state
  | _ => none

def turnWrite (fact : FactDraft) : Option (TurnId × TurnState) := do
  let state ← turnStateOf fact.kind
  let turn ← fact.turnId
  return (turn, state)

def executionWrite (fact : FactDraft) : Option (ExecutionId × (TurnId × ExecutionState)) :=
  match roleOf fact.kind with
  | .execution state => do
    let execution ← fact.executionId
    let turn ← fact.turnId
    return (execution, turn, state)
  | _ => none

def modelWrite (fact : FactDraft) : Option (ModelRequestId × (ExecutionId × InvocationState)) :=
  match roleOf fact.kind with
  | .model state => do
    let request ← fact.modelRequestId
    let execution ← fact.executionId
    return (request, execution, state)
  | _ => none

/-- The request digest a model request's fact repeats. -/
def modelDigestWrite (lib : Externals) (fact : FactDraft) : Option (ModelRequestId × String) :=
  match roleOf fact.kind with
  | .model _ => do
    let request ← fact.modelRequestId
    let digest ← payloadText? lib fact "request_digest"
    return (request, digest)
  | _ => none

def toolWrite (fact : FactDraft) : Option (ToolInvocationId × (ExecutionId × InvocationState)) :=
  match roleOf fact.kind with
  | .tool state => do
    let tool ← fact.toolInvocationId
    let execution ← fact.executionId
    return (tool, execution, state)
  | _ => none

/-- The prepared digest a tool invocation's fact repeats. -/
def toolDigestWrite (lib : Externals) (fact : FactDraft) : Option (ToolInvocationId × String) :=
  match roleOf fact.kind with
  | .tool _ => do
    let tool ← fact.toolInvocationId
    let digest ← payloadText? lib fact "prepared_digest"
    return (tool, digest)
  | _ => none

/-- The receipt a tool invocation's receipt fact brings. -/
def toolReceiptWrite (lib : Externals) (fact : FactDraft) : Option (ToolInvocationId × String) :=
  match roleOf fact.kind with
  | .tool .receipt => do
    let tool ← fact.toolInvocationId
    let receipt ← payloadText? lib fact "receipt_id"
    return (tool, receipt)
  | _ => none

/-! ## The registers of a projection -/

/-- The tables after one more fact. -/
def Registers.write (lib : Externals) (r : Registers) (fact : FactDraft) : Registers where
  turns := r.turns.write (turnWrite fact)
  executions := r.executions.write (executionWrite fact)
  models := r.models.write (modelWrite fact)
  modelDigests := r.modelDigests.write (modelDigestWrite lib fact)
  tools := r.tools.write (toolWrite fact)
  toolDigests := r.toolDigests.write (toolDigestWrite lib fact)
  toolReceipts := r.toolReceipts.write (toolReceiptWrite lib fact)

/-- The tables a history leaves. -/
def Registers.ofHistory (lib : Externals) (history : List FactDraft) : Registers :=
  history.foldl (Registers.write lib) {}

namespace SessionProjection

variable {lib : Externals} {p p' : SessionProjection} {fact : FactDraft}

/-! ### The writes of each role -/

variable {r : Registers}

theorem write_other (hrole : roleOf fact.kind = .other) : r.write lib fact = r := by
  unfold Registers.write turnWrite turnStateOf executionWrite modelWrite modelDigestWrite toolWrite
    toolDigestWrite toolReceiptWrite
  rw [hrole]
  simp [Map.write]

variable {turn : TurnId}

theorem write_turn {state : TurnState} (hrole : roleOf fact.kind = .turn state)
    (hturn : fact.turnId = some turn) :
    r.write lib fact = { r with turns := r.turns.insert turn state } := by
  unfold Registers.write turnWrite turnStateOf executionWrite modelWrite modelDigestWrite toolWrite
    toolDigestWrite toolReceiptWrite
  rw [hrole]
  simp [Map.write, hturn]

variable {execution : ExecutionId}

theorem write_execution {state : ExecutionState} (hrole : roleOf fact.kind = .execution state)
    (hexec : fact.executionId = some execution) (hturn : fact.turnId = some turn) :
    r.write lib fact = { r with executions := r.executions.insert execution (turn, state) } := by
  unfold Registers.write turnWrite turnStateOf executionWrite modelWrite modelDigestWrite toolWrite
    toolDigestWrite toolReceiptWrite
  rw [hrole]
  simp [Map.write, hexec, hturn]

variable {state : InvocationState} {digest : String}

theorem write_model {request : ModelRequestId} (hrole : roleOf fact.kind = .model state)
    (hreq : fact.modelRequestId = some request) (hexec : fact.executionId = some execution)
    (hdig : payloadText? lib fact "request_digest" = some digest) : r.write lib fact = { r with
      models := r.models.insert request (execution, state)
      modelDigests := r.modelDigests.insert request digest } := by
  unfold Registers.write turnWrite turnStateOf executionWrite modelWrite modelDigestWrite toolWrite
    toolDigestWrite toolReceiptWrite
  rw [hrole]
  simp [Map.write, hreq, hexec, hdig]

variable {tool : ToolInvocationId}

theorem write_tool (hrole : roleOf fact.kind = .tool state)
    (htool : fact.toolInvocationId = some tool) (hexec : fact.executionId = some execution)
    (hdig : payloadText? lib fact "prepared_digest" = some digest) : r.write lib fact = { r with
      tools := r.tools.insert tool (execution, state)
      toolDigests := r.toolDigests.insert tool digest
      toolReceipts := r.toolReceipts.write (toolReceiptWrite lib fact) } := by
  unfold Registers.write turnWrite turnStateOf executionWrite modelWrite modelDigestWrite toolWrite
    toolDigestWrite
  rw [hrole]
  simp [Map.write, htool, hexec, hdig]

/-! ### The writes of each operation -/

variable {payload : Object} {key : String}

theorem payloadText?_eq {text : String} (hpay : payloadOf lib fact = .ok payload)
    (htext : textOf payload key = .ok text) : payloadText? lib fact key = some text := by
  simp [payloadText?, hpay, htext, Except.toOption]

theorem payloadNumber?_eq {n : Nat} (hpay : payloadOf lib fact = .ok payload)
    (hnumber : unsignedOf payload key = .ok n) : payloadNumber? lib fact key = some n := by
  simp [payloadNumber?, hpay, hnumber, Except.toOption]

/-- A text field that need not be there. -/
theorem payloadText?_eq_bind (hpay : payloadOf lib fact = .ok payload) :
    payloadText? lib fact key = (payload.get? key).bind Value.asStr := by
  simp only [payloadText?, hpay, Except.toOption, textOf, Option.bind_eq_bind, Option.bind_some]
  cases (payload.get? key).bind Value.asStr <;> rfl

/-- A number field that need not be there. -/
theorem payloadNumber?_eq_bind (hpay : payloadOf lib fact = .ok payload) :
    payloadNumber? lib fact key = (payload.get? key).bind Value.asU64 := by
  simp only [payloadNumber?, hpay, Except.toOption, unsignedOf, Option.bind_eq_bind,
    Option.bind_some]
  cases (payload.get? key).bind Value.asU64 <;> rfl

theorem startTurn_registers (hrole : roleOf fact.kind = .turn .open)
    (h : p.startTurn lib fact = .ok p') : p'.registers = p.registers.write lib fact := by
  simp only [startTurn, ok_iff, required_eq_ok_iff] at h
  obtain ⟨turn, hturn, _, -, kind, -, -, h⟩ := h
  rw [write_turn hrole hturn]
  split at h
  · simp only [ok_iff] at h
    obtain ⟨_, -, _, -, rfl⟩ := h
    rfl
  · cases h
    rfl

theorem suspendTurn_registers (hrole : roleOf fact.kind = .turn .suspended)
    (h : p.suspendTurn lib fact = .ok p') : p'.registers = p.registers.write lib fact := by
  simp only [suspendTurn, ok_iff, required_eq_ok_iff] at h
  obtain ⟨turn, hturn, _, -, _, -, -, _, hmoved, _, -, _, -, rfl⟩ := h
  obtain ⟨-, -, -, rfl⟩ := transitionTurn_eq_ok_iff.mp hmoved
  rw [write_turn hrole hturn]
  rfl

theorem terminalTurn_registers {next : TurnState} (hrole : roleOf fact.kind = .turn next)
    (h : p.terminalTurn lib fact next = .ok p') : p'.registers = p.registers.write lib fact := by
  simp only [terminalTurn, ok_iff, required_eq_ok_iff] at h
  obtain ⟨turn, hturn, _, -, _, -, _, -, -, _, hmoved, rfl⟩ := h
  obtain ⟨-, -, -, rfl⟩ := transitionTurn_eq_ok_iff.mp hmoved
  rw [write_turn hrole hturn]
  rfl

theorem startExecution_registers (hrole : roleOf fact.kind = .execution .active)
    (h : p.startExecution lib fact = .ok p') : p'.registers = p.registers.write lib fact := by
  simp only [startExecution, ok_iff, required_eq_ok_iff] at h
  obtain ⟨_, hturn, -, execution, hexec, -, _, -, _, -, rfl⟩ := h
  rw [write_execution hrole hexec hturn]
  rfl

theorem transitionExecution_registers {next : ExecutionState}
    (hrole : roleOf fact.kind = .execution next) (h : p.transitionExecution fact next = .ok p') :
    p'.registers = p.registers.write lib fact := by
  obtain ⟨execution, _, hexec, hturn, -, -, -, -, rfl⟩ :=
    transitionExecution_eq_ok_iff.mp h
  rw [write_execution hrole hexec hturn]
  rfl

theorem prepareModel_registers (hrole : roleOf fact.kind = .model .prepared)
    (h : p.prepareModel lib fact = .ok p') : p'.registers = p.registers.write lib fact := by
  simp only [prepareModel, ok_iff, required_eq_ok_iff] at h
  obtain ⟨-, _, hreq, _, hexec, -, _, hpay, _, hdig,
    rfl⟩ := h
  rw [write_model hrole hreq hexec (payloadText?_eq hpay hdig)]
  rfl

variable {next : InvocationState}

theorem transitionModel_registers (hrole : roleOf fact.kind = .model next)
    (h : p.transitionModel lib fact next = .ok p') : p'.registers = p.registers.write lib fact := by
  simp only [transitionModel, ok_iff, required_eq_ok_iff] at h
  obtain ⟨-, request, hreq, _, hexec, _, -, -, _, hpay, digest,
    hdig, hsame, -, rfl⟩ := h
  have hwritten : p.registers.modelDigests.insert request digest = p.registers.modelDigests :=
    Map.insert_eq_self hsame
  rw [write_model hrole hreq hexec (payloadText?_eq hpay hdig), hwritten]
  rfl

theorem toolReceiptWrite_eq_none (hrole : roleOf fact.kind = .tool state)
    (hstate : state ≠ .receipt) : toolReceiptWrite lib fact = none := by
  cases state <;> simp_all [toolReceiptWrite]

theorem prepareTool_registers (hrole : roleOf fact.kind = .tool .prepared)
    (h : p.prepareTool lib fact = .ok p') : p'.registers = p.registers.write lib fact := by
  simp only [prepareTool, ok_iff, required_eq_ok_iff] at h
  obtain ⟨-, tool, htool, _, hexec, -, _, hpay, _, hdig, _, -,
    _, -, h⟩ := h
  rw [prepareToolExtras_eq h, write_tool hrole htool hexec (payloadText?_eq hpay hdig),
    toolReceiptWrite_eq_none hrole (by decide)]
  rfl

/-- The evidence of a move: of the registers, only a receipt is among it. -/
theorem validateEffectBinding_registers {current : InvocationState}
    (hrole : roleOf fact.kind = .tool next) (htool : fact.toolInvocationId = some tool)
    (hpay : payloadOf lib fact = .ok payload)
    (h : p.validateEffectBinding tool current next payload = .ok p') :
    p'.registers = { p.registers with
      toolReceipts := p.toolReceipts.write (toolReceiptWrite lib fact) } := by
  unfold validateEffectBinding at h
  split at h
  · simp only [bind_eq_ok_iff, pure_eq_ok, Except.ok.injEq] at h
    obtain ⟨-, -, grant, -, rfl⟩ := h
    rw [toolReceiptWrite_eq_none hrole (by decide)]
    rfl
  · simp only [bind_eq_ok_iff, pure_eq_ok, Except.ok.injEq] at h
    obtain ⟨grant, -, -, -, -, -, executor, -, revision, -, rfl⟩ := h
    rw [toolReceiptWrite_eq_none hrole (by decide)]
    rfl
  · simp only [bind_eq_ok_iff, pure_eq_ok, Except.ok.injEq] at h
    obtain ⟨grant, -, -, -, executor, -, revision, -, -, -, receipt, hrcpt, rfl⟩ := h
    have hwrite : toolReceiptWrite lib fact = some (tool, receipt) := by
      simp [toolReceiptWrite, hrole, htool, payloadText?_eq hpay hrcpt]
    rw [hwrite]
    rfl
  · simp only [bind_eq_ok_iff, pure_eq_ok, Except.ok.injEq] at h
    obtain ⟨receipt, -, -, -, rfl⟩ := h
    rw [toolReceiptWrite_eq_none hrole (by decide)]
    rfl
  · simp only [bind_eq_ok_iff, pure_eq_ok, Except.ok.injEq] at h
    obtain ⟨-, -, rfl⟩ := h
    rw [toolReceiptWrite_eq_none hrole (by decide)]
    rfl
  · cases h
    rw [toolReceiptWrite_eq_none hrole (by rintro rfl; simp_all)]
    rfl

theorem transitionTool_registers (hrole : roleOf fact.kind = .tool next)
    (h : p.transitionTool lib fact next = .ok p') : p'.registers = p.registers.write lib fact := by
  simp only [transitionTool, ok_iff, required_eq_ok_iff] at h
  obtain ⟨-, tool, htool, _, hexec, _, hpay, digest, hdig, hsame, _,
    -, -, -, -, -, _, hbound, rfl⟩ := h
  have hregisters := validateEffectBinding_registers hrole htool hpay hbound
  have hwritten : p.registers.toolDigests.insert tool digest = p.registers.toolDigests :=
    Map.insert_eq_self hsame
  rw [write_tool hrole htool hexec (payloadText?_eq hpay hdig), hwritten]
  have hfields := Registers.ext_iff.mp hregisters
  simp only [registers] at hfields ⊢
  simp [hfields]

theorem reconcileTool_registers (hrole : roleOf fact.kind = .tool .reconciled)
    (h : p.reconcileTool lib fact = .ok p') : p'.registers = p.registers.write lib fact := by
  simp only [reconcileTool, ok_iff, required_eq_ok_iff] at h
  obtain ⟨-, tool, htool, _, hexec, _, hpay, digest, hdig, ⟨hsame, -⟩,
    _, -, rfl⟩ := h
  have hwritten : p.registers.toolDigests.insert tool digest = p.registers.toolDigests :=
    Map.insert_eq_self hsame
  rw [write_tool hrole htool hexec (payloadText?_eq hpay hdig), hwritten,
    toolReceiptWrite_eq_none hrole (by decide)]
  rfl

theorem observeTool_registers (hrole : roleOf fact.kind = .tool .observed)
    (h : p.observeTool lib fact = .ok p') : p'.registers = p.registers.write lib fact := by
  simp only [observeTool, ok_iff, required_eq_ok_iff] at h
  obtain ⟨tool, htool, _, hexec, _, hpay, _, -, -, -, digest, hdig,
    hsame, rfl⟩ := h
  have hwritten : p.registers.toolDigests.insert tool digest = p.registers.toolDigests :=
    Map.insert_eq_self hsame
  rw [write_tool hrole htool hexec (payloadText?_eq hpay hdig), hwritten,
    toolReceiptWrite_eq_none hrole (by decide)]
  rfl

/-! ### Every fact -/

/-- The operation of a kind writes what its facts write. -/
theorem applyKind_registers {kind : RuntimeKind} (hkind : fact.kind = .known kind)
    (h : p.applyKind lib fact kind = .ok p') : p'.registers = p.registers.write lib fact := by
  by_cases hrole : roleOf (.known kind) = .other
  · rw [(applyKind_confined p' h).registers_eq hrole, write_other (hkind ▸ hrole)]
  have hsame := congrArg roleOf hkind
  cases kind
  case turnStarted => exact startTurn_registers hsame h
  case turnSuspended => exact suspendTurn_registers hsame h
  case turnCompleted | turnStopped | turnFailed => exact terminalTurn_registers hsame h
  case executionStarted => exact startExecution_registers hsame h
  case executionAbandoned | executionCompleted | executionSuspended | executionStopped |
      executionFailed => exact transitionExecution_registers hsame h
  case modelPrepared => exact prepareModel_registers hsame h
  case modelStarted | modelCompleted | modelRejected | modelInterrupted | modelUnavailable |
      modelUncertain => exact transitionModel_registers hsame h
  case effectPrepared => exact prepareTool_registers hsame h
  case effectAuthorized | effectStarted | effectReceipt | effectCompleted | effectFailed |
      effectDenied | effectUncertain => exact transitionTool_registers hsame h
  case effectReconciled => exact reconcileTool_registers hsame h
  case effectObservation => exact observeTool_registers hsame h
  all_goals exact absurd rfl hrole

/-- An accepted fact writes its entries to the registers and leaves the others. -/
theorem apply_registers (h : p.apply lib fact = .ok p') :
    p'.registers = p.registers.write lib fact := by
  obtain ⟨-, ⟨hkind, -, -, rfl⟩ | ⟨-, -, -, ⟨kind, hkind, happly⟩ | ⟨hother, rfl⟩⟩⟩ :=
    apply_eq_ok_iff.mp h
  · rw [write_other (by rw [hkind]; rfl)]
    rfl
  · exact applyKind_registers hkind happly
  · rw [write_other]
    cases hkind : fact.kind with
    | known kind => exact absurd hkind (hother kind)
    | other text nonempty unknown => rfl

/-- A batch writes its facts in order. -/
theorem applyAll_registers {batch : List FactDraft} (h : p.applyAll lib batch = .ok p') :
    p'.registers = batch.foldl (Registers.write lib) p.registers := by
  induction batch generalizing p with
  | nil =>
    cases h
    rfl
  | cons fact rest ih =>
    simp only [applyAll, bind_eq_ok_iff] at h
    obtain ⟨_, hnext, hrest⟩ := h
    rw [List.foldl_cons, ← apply_registers hnext]
    exact ih hrest

end SessionProjection

/-! ## Lookups -/

namespace Registers

variable (lib : Externals) (history : List FactDraft)

/-- The tables of a history are the writes to each of them. -/
theorem ofHistory_eq : ofHistory lib history =
    { turns := history.foldl (fun m fact ↦ m.write (turnWrite fact)) ∅
      executions := history.foldl (fun m fact ↦ m.write (executionWrite fact)) ∅
      models := history.foldl (fun m fact ↦ m.write (modelWrite fact)) ∅
      modelDigests := history.foldl (fun m fact ↦ m.write (modelDigestWrite lib fact)) ∅
      tools := history.foldl (fun m fact ↦ m.write (toolWrite fact)) ∅
      toolDigests := history.foldl (fun m fact ↦ m.write (toolDigestWrite lib fact)) ∅
      toolReceipts := history.foldl (fun m fact ↦ m.write (toolReceiptWrite lib fact)) ∅ } := by
  induction history using List.reverseRecOn with
  | nil => rfl
  | append_singleton history fact ih =>
    rw [ofHistory, List.foldl_append, ← ofHistory, ih]
    simp [Registers.write]

end Registers

end Garive
