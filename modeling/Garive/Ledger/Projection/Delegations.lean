import Garive.Ledger.Projection.Trace

/-!
# How turns and delegations move

Every fact that writes the tables of turns and delegations, with what it asks for and what it writes.
As for tool invocations, `TurnMove` has one case per kind of move and `apply_turnMove` says that an
accepted fact is one of them.
-/

namespace Garive

/-- The turn has ended. -/
def TurnState.isTerminal : TurnState → Bool
  | .open | .suspended => false
  | .completed | .stopped | .failed => true

/-- The kinds that end a turn, with the state they end it in. -/
def RuntimeKind.ending? : RuntimeKind → Option TurnState
  | .turnCompleted => some .completed
  | .turnStopped => some .stopped
  | .turnFailed => some .failed
  | _ => none

namespace SessionProjection

/-- The fact is the delegation result that the delegation waits for. -/
structure ResultOf (lib : Externals) (fact : FactDraft) (record : DelegationRecord) : Prop where
  turn : fact.turnId = some record.parentTurn
  input : payloadText? lib fact "input_kind" = some "delegation_result"
  suspension : payloadText? lib fact "suspension_id" = record.suspensionId
  digest : ∃ payload : Object, payloadOf lib fact = .ok payload ∧
    (contentDigest payload "content").toOption = record.resultDigest

/-- The moves of turns and delegations. -/
inductive TurnMove (lib : Externals) (p : SessionProjection) (fact : FactDraft) : TurnTables → Prop
  | start {turn : TurnId} (hkind : fact.kind = .known .turnStarted) (hturn : fact.turnId = some turn)
    (hstart : payloadText? lib fact "kind" = some "start") (hnew : p.turns[turn]? = none) :
    TurnMove lib p fact { p.turnTables with
      turns := p.turns.insert turn .open
      turnsStartedInCommit := p.turnsStartedInCommit.insert turn
      suspensions := p.suspensions.erase turn }
  | reopen {turn : TurnId} (hkind : fact.kind = .known .turnStarted)
    (hturn : fact.turnId = some turn) (hcontinue : payloadText? lib fact "kind" = some "continue")
    (hsusp : p.turns[turn]? = some .suspended)
    (hready : ∀ (id : String) (record : DelegationRecord), p.delegations[id]? = some record →
      record.parentTurn = turn → record.suspensionId = p.suspensions[turn]? →
      record.state = .observed ∧ record.inputAdmitted = true) :
    TurnMove lib p fact { p.turnTables with
      turns := p.turns.insert turn .open
      suspensions := p.suspensions.erase turn }
  | suspend {turn : TurnId} {suspension : String} {marked : SetOf TurnId}
    (hkind : fact.kind = .known .turnSuspended) (hturn : fact.turnId = some turn)
    (hopen : p.turns[turn]? = some .open) :
    TurnMove lib p fact { p.turnTables with
      turns := p.turns.insert turn .suspended
      suspensions := p.suspensions.insert turn suspension
      turnsSuspendedInCommit := marked }
  | finish {turn : TurnId} {kind : RuntimeKind} {current next : TurnState}
    (hkind : fact.kind = .known kind) (hending : kind.ending? = some next)
    (hturn : fact.turnId = some turn) (hcur : p.turns[turn]? = some current)
    (hlive : current.isTerminal = false) :
    TurnMove lib p fact { p.turnTables with
      turns := p.turns.insert turn next
      turnsTerminalInCommit := p.turnsTerminalInCommit.insert turn }
  | input (hkind : fact.kind = .known .turnInput) : TurnMove lib p fact p.turnTables
  | admitResult {id : String} {record : DelegationRecord} (hkind : fact.kind = .known .turnInput)
    (hrec : p.delegations[id]? = some record) (hstate : record.state = .observed)
    (hres : ResultOf lib fact record) :
    TurnMove lib p fact { p.turnTables with
      delegations := p.delegations.insert id { record with inputAdmitted := true } }
  | request {turn : TurnId} {id : String} {record : DelegationRecord}
    (hkind : fact.kind = .known .delegationRequested) (hturn : fact.turnId = some turn)
    (hid : payloadText? lib fact "delegation_id" = some id) (hnew : p.delegations[id]? = none)
    (hsettled : ∀ (other : String) (found : DelegationRecord), p.delegations[other]? = some found →
      found.parentTurn = turn → found.state.isSettled = true)
    (hpar : record.parentTurn = turn) (hstate : record.state = .requested)
    (hchild : record.childTurn = none) (hinput : record.inputAdmitted = false) :
    TurnMove lib p fact { p.turnTables with delegations := p.delegations.insert id record }
  | answer {id : String} {record next : DelegationRecord}
    (hkind : fact.kind = .known .delegationAuthorized ∧ next.state = .authorized ∨
      fact.kind = .known .delegationDenied ∧ next.state = .denied)
    (hid : payloadText? lib fact "delegation_id" = some id)
    (hrec : p.delegations[id]? = some record) (hstate : record.state = .requested)
    (hnext : next = { record with grantId := next.grantId, state := next.state }) :
    TurnMove lib p fact { p.turnTables with delegations := p.delegations.insert id next }
  | startChild {id suspension : String} {record : DelegationRecord} {child : TurnId}
    (hkind : fact.kind = .known .delegationChildStarted)
    (hturn : fact.turnId = some record.parentTurn)
    (hid : payloadText? lib fact "delegation_id" = some id)
    (hchild : (payloadText? lib fact "child_turn_id").bind LedgerIdentity.tryFrom = some child)
    (hrec : p.delegations[id]? = some record) (hstate : record.state = .authorized)
    (hpar : p.turnsSuspendedInCommit.contains record.parentTurn = true)
    (hstarted : p.turnsStartedInCommit.contains child = true)
    (hsuspn : p.suspensions[record.parentTurn]? = some suspension) :
    TurnMove lib p fact { p.turnTables with
      delegations := p.delegations.insert id { record with
        suspensionId := some suspension, childTurn := some child, state := .started } }
  | finishChild {id result digest : String} {record : DelegationRecord} {child : TurnId}
    (hkind : fact.kind = .known .delegationChildTerminal)
    (hid : payloadText? lib fact "delegation_id" = some id)
    (hrec : p.delegations[id]? = some record) (hstate : record.state = .started)
    (hchild : record.childTurn = some child)
    (hterm : p.turnsTerminalInCommit.contains child = true) :
    TurnMove lib p fact { p.turnTables with
      delegations := p.delegations.insert id { record with
        resultId := some result, resultDigest := some digest, state := .terminal } }
  | observe {id : String} {record : DelegationRecord}
    (hkind : fact.kind = .known .delegationObserved)
    (hid : payloadText? lib fact "delegation_id" = some id)
    (hrec : p.delegations[id]? = some record) (hstate : record.state = .terminal) :
    TurnMove lib p fact { p.turnTables with
      delegations := p.delegations.insert id { record with state := .observed } }

variable {lib : Externals} {p p' : SessionProjection} {fact : FactDraft}

/-! ### Turns -/

theorem delegationContinuationReady_iff {turn : TurnId} {suspension : Option String} :
    p.delegationContinuationReady turn suspension ↔
      ∀ (id : String) (record : DelegationRecord), p.delegations[id]? = some record →
        record.parentTurn = turn → record.suspensionId = suspension →
        record.state = .observed ∧ record.inputAdmitted := by
  simp only [delegationContinuationReady, Bool.not_eq_true', Map.any_eq_false_iff,
    Bool.and_eq_false_iff, beq_eq_false_iff_ne, ne_eq, Bool.not_eq_false', Bool.and_eq_true,
    beq_iff_eq]
  refine forall_congr' fun id ↦ forall_congr' fun record ↦ forall_congr' fun _ ↦ ?_
  tauto

theorem startTurn_turnMove (hkind : fact.kind = .known .turnStarted)
    (h : p.startTurn lib fact = .ok p') : TurnMove lib p fact p'.turnTables := by
  simp only [startTurn, ok_iff, required_eq_ok_iff] at h
  obtain ⟨_, hturn, _, hpay, kind, htext, hvalid, h⟩ := h
  unfold startTurnValid at hvalid
  split at hvalid
  · -- A turn that is not there can only be started.
    rename_i hnew
    obtain rfl : kind = "start" := by simpa using (Bool.and_eq_true_iff.mp hvalid).1
    rw [if_pos rfl] at h
    simp only [ok_iff] at h
    obtain ⟨_, -, _, -, rfl⟩ := h
    exact .start hkind hturn (payloadText?_eq hpay htext) hnew
  · -- A suspended turn can only be continued.
    rename_i hsusp
    simp only [Bool.and_eq_true, beq_iff_eq] at hvalid
    obtain ⟨⟨⟨rfl, hprior⟩, -⟩, hready⟩ := hvalid
    rw [if_neg (by decide)] at h
    cases h
    rw [← hprior] at hready
    exact .reopen hkind hturn (payloadText?_eq hpay htext) hsusp
      (delegationContinuationReady_iff.mp hready)
  · cases hvalid

theorem suspendTurn_turnMove (hkind : fact.kind = .known .turnSuspended)
    (h : p.suspendTurn lib fact = .ok p') : TurnMove lib p fact p'.turnTables := by
  simp only [suspendTurn, ok_iff, required_eq_ok_iff] at h
  obtain ⟨_, hturn, _, -, _, -, -, _, hmoved, _, -, _, -, rfl⟩ := h
  obtain ⟨⟨current, hcur, hmoves⟩, -, -, rfl⟩ := transitionTurn_eq_ok_iff.mp hmoved
  have hopen : current = .open := by simpa [turnMoves] using hmoves
  exact .suspend hkind hturn (hopen ▸ hcur)

theorem terminalTurn_turnMove {kind : RuntimeKind} {next : TurnState}
    (hkind : fact.kind = .known kind) (hending : kind.ending? = some next)
    (h : p.terminalTurn lib fact next = .ok p') : TurnMove lib p fact p'.turnTables := by
  simp only [terminalTurn, ok_iff, required_eq_ok_iff] at h
  obtain ⟨_, hturn, _, -, _, -, _, -, -, _, hmoved, rfl⟩ := h
  obtain ⟨⟨current, hcur, hmoves⟩, -, -, rfl⟩ := transitionTurn_eq_ok_iff.mp hmoved
  refine .finish hkind hending hturn hcur ?_
  cases current <;> cases next <;> first | rfl | cases hmoves

theorem admitTurnInput_turnMove (hkind : fact.kind = .known .turnInput)
    (h : p.admitTurnInput lib fact = .ok p') : TurnMove lib p fact p'.turnTables := by
  simp only [admitTurnInput, bind_eq_ok_iff, required_eq_ok_iff] at h
  obtain ⟨_, hturn, payload, hpay, kind, hinput, h⟩ := h
  split at h
  · rename_i hres
    subst hres
    simp only [ok_iff] at h
    obtain ⟨_, hsuspn, _, hcont, _, hdig, ⟨id, record⟩, hfound, rfl⟩ := h
    obtain ⟨hrec, htest⟩ := Map.get?_of_find? hfound
    simp only [Bool.and_eq_true, beq_iff_eq] at htest
    obtain ⟨⟨⟨rfl, hstate⟩, hsame⟩, hresDig⟩ := htest
    refine .admitResult hkind hrec hstate ⟨hturn, payloadText?_eq hpay hinput, ?_, payload, hpay, ?_⟩
    · rw [payloadText?_eq hpay hsuspn, hsame]
    · simp [contentDigest, hcont, hdig, hresDig, Except.toOption]
  · have hsame : p' = p := by
      split at h
      all_goals
        simp only [ok_iff] at h
        exact h.2.symm
    rw [hsame]
    exact .input hkind

/-! ### Delegations -/

theorem requestDelegation_turnMove (hkind : fact.kind = .known .delegationRequested)
    (h : p.requestDelegation lib fact = .ok p') : TurnMove lib p fact p'.turnTables := by
  simp only [requestDelegation, ok_iff, required_eq_ok_iff] at h
  obtain ⟨-, _, hturn, _, -, _, hpay, _, hid, ⟨hnew, hnone⟩, _, -, -,
    _, -, rfl⟩ := h
  refine .request hkind hturn (payloadText?_eq hpay hid) hnew (fun other found hfound hpar ↦ ?_)
    rfl rfl rfl rfl
  have htest := Map.any_eq_false_iff.mp (Bool.not_eq_true _ ▸ hnone) other found hfound
  simpa [hpar] using htest

theorem authorizeDelegation_turnMove (hkind : fact.kind = .known .delegationAuthorized)
    (h : p.authorizeDelegation lib fact = .ok p') : TurnMove lib p fact p'.turnTables := by
  simp only [authorizeDelegation, ok_iff, Prod.exists] at h
  obtain ⟨-, _, hpay, _, _, howned, _, -, -, _, -, rfl⟩ := h
  obtain ⟨hid, hrec, hstate, -⟩ := ownedDelegation_eq_ok howned
  exact .answer (.inl ⟨hkind, rfl⟩) (payloadText?_eq hpay hid) hrec hstate rfl

theorem denyDelegation_turnMove (hkind : fact.kind = .known .delegationDenied)
    (h : p.denyDelegation lib fact = .ok p') : TurnMove lib p fact p'.turnTables := by
  simp only [denyDelegation, ok_iff, Prod.exists] at h
  obtain ⟨-, _, hpay, _, _, howned, _, -, -, rfl⟩ := h
  obtain ⟨hid, hrec, hstate, -⟩ := ownedDelegation_eq_ok howned
  exact .answer (.inr ⟨hkind, rfl⟩) (payloadText?_eq hpay hid) hrec hstate rfl

theorem startDelegationChild_turnMove (hkind : fact.kind = .known .delegationChildStarted)
    (h : p.startDelegationChild lib fact = .ok p') : TurnMove lib p fact p'.turnTables := by
  simp only [startDelegationChild, childTurnOf, ok_iff, Prod.exists] at h
  obtain ⟨_, hpay, _, ⟨_, htext, hchild⟩, _, _, howned, _, -,
    ⟨-, hpar, hstarted⟩, _, -, -, _, -, -, _, -, hsuspn, rfl⟩ := h
  obtain ⟨hid, hrec, hstate, hturn⟩ := ownedDelegation_eq_ok howned
  refine .startChild hkind hturn (payloadText?_eq hpay hid) ?_ hrec hstate hpar hstarted hsuspn
  rw [payloadText?_eq hpay htext, Option.bind_some, hchild]

theorem terminalDelegationChild_turnMove (hkind : fact.kind = .known .delegationChildTerminal)
    (h : p.terminalDelegationChild lib fact = .ok p') : TurnMove lib p fact p'.turnTables := by
  simp only [terminalDelegationChild, ok_iff, Prod.exists] at h
  obtain ⟨_, hpay, _, -, _, _, howned, _, -, -, _, -,
    ⟨-, hchild, hterm⟩, _, -, _, -, rfl⟩ := h
  obtain ⟨hid, hrec, hstate, -⟩ := ownedDelegation_eq_ok howned
  exact .finishChild hkind (payloadText?_eq hpay hid) hrec hstate hchild hterm

theorem observeDelegation_turnMove (hkind : fact.kind = .known .delegationObserved)
    (h : p.observeDelegation lib fact = .ok p') : TurnMove lib p fact p'.turnTables := by
  simp only [observeDelegation, ok_iff, Prod.exists] at h
  obtain ⟨_, hpay, _, _, howned, _, -, -, _, -, -, _, -, -, _,
    -, -, rfl⟩ := h
  obtain ⟨hid, hrec, hstate, -⟩ := ownedDelegation_eq_ok howned
  exact .observe hkind (payloadText?_eq hpay hid) hrec hstate

/-- An accepted fact that writes the tables of turns and delegations is one of the moves. -/
theorem apply_turnMove (hwr : fact.kind.writes = .turns) (h : p.apply lib fact = .ok p') :
    TurnMove lib p fact p'.turnTables := by
  obtain ⟨kind, hkind, hwr, happly⟩ := applyKind_of_apply hwr nofun h
  cases kind with
  | turnStarted => exact startTurn_turnMove hkind happly
  | turnSuspended => exact suspendTurn_turnMove hkind happly
  | turnCompleted | turnStopped | turnFailed => exact terminalTurn_turnMove hkind rfl happly
  | turnInput => exact admitTurnInput_turnMove hkind happly
  | delegationRequested => exact requestDelegation_turnMove hkind happly
  | delegationAuthorized => exact authorizeDelegation_turnMove hkind happly
  | delegationDenied => exact denyDelegation_turnMove hkind happly
  | delegationChildStarted => exact startDelegationChild_turnMove hkind happly
  | delegationChildTerminal => exact terminalDelegationChild_turnMove hkind happly
  | delegationObserved => exact observeDelegation_turnMove hkind happly
  | _ => cases hwr

end SessionProjection

end Garive
