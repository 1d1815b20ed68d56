import Garive.Sqlite.Leases
import Garive.Sqlite.Restart
import Garive.Sqlite.Rows

/-!
# Who may write for a turn

The row of a turn in the lease table and the facts of the turn in the ledger are written by different
calls. What joins them is the end of an execution: a fact that ends it is never taken back, no lease
is granted to an ended execution, and the row leaves an execution only after its end. So a lease that
was lost stays lost, whoever calls what in between.
-/

namespace Garive

open LedgerIdentity List

namespace SqliteLedger

variable {lib : Externals} {row : StoredFact} {draft : FactDraft}

theorem identity_eq_ok_iff {label value field : String} {found : LedgerIdentity label} :
    identity value field = .ok found ↔ found.text = value := by
  rw [identity, okOr_eq_ok_iff, tryFrom_eq_some_iff]

/-- An optional identity reads back the text it was stored as. -/
theorem map_text_of_optionalIdentity {label field : String} {value : Option String}
    {found : Option (LedgerIdentity label)} (h : optionalIdentity value field = .ok found) :
    found.map (·.text) = value := by
  cases value with
  | none =>
    cases h
    rfl
  | some text =>
    simp only [optionalIdentity, ok_iff] at h
    obtain ⟨_, hidentity, rfl⟩ := h
    rw [Option.map_some, identity_eq_ok_iff.mp hidentity]

/-- The columns of a row that decodes. -/
theorem columns_of_decodeDraft (h : decodeDraft lib row = .ok draft) :
    draft.turnId.map (·.text) = row.turnId ∧ draft.executionId.map (·.text) = row.executionId ∧
      FactKind.new row.kind = some draft.kind := by
  simp only [decodeDraft, ok_iff] at h
  obtain ⟨_, -, _, -, _, -, turnId, hturn, executionId, hexec, _, -, _, -, kind, hkind, rfl⟩ := h
  exact ⟨map_text_of_optionalIdentity hturn, map_text_of_optionalIdentity hexec, hkind⟩

end SqliteLedger

namespace ExecutionLease

variable {lib : Externals} {sqlite : Sqlite} {ledger : Database} {turn : TurnId}
  {execution : ExecutionId} {store next : LeaseStore} {lease : ExecutionLease}
  {request : ExecutionLeaseRequest}

/-- A stored fact of the turn ends the execution. -/
def Ended (ledger : Database) (turn : TurnId) (execution : ExecutionId) : Prop :=
  ∃ row ∈ ledger.facts, row.turnId = some turn.text ∧ row.executionId = some execution.text ∧
    ∃ kind, FactKind.new row.kind = some kind ∧ endsExecution kind = true

/-- The execution is the one its turn started last, and no stored fact ends it. -/
def LatestActive (lib : Externals) (sqlite : Sqlite) (ledger : Database) (turn : TurnId)
    (execution : ExecutionId) : Prop :=
  (∃ (state : LedgerState) (sessionId : SessionId) (session : SessionLedger) (fact : DurableFact),
    SqliteLedger.loadStateSnapshot lib sqlite ledger = .ok state ∧
    state.sessions[sessionId]? = some session ∧
    rfind? (RuntimeTurn.hasKind .executionStarted) (LedgerState.turnFacts session turn) = some fact ∧
    fact.executionId = some execution) ∧ ¬Ended ledger turn execution

/-! ## The checks -/

section

variable {state : LedgerState} {sessionId : SessionId} {session : SessionLedger}

/-- The facts of a loaded turn end the execution exactly when a stored fact does. -/
theorem hasEnded_iff (h : SqliteLedger.Loaded lib ledger state)
    (hsess : state.sessions[sessionId]? = some session)
    (hfacts : LedgerState.turnFacts session turn ≠ []) :
    hasEnded (LedgerState.turnFacts session turn) execution ↔ Ended ledger turn execution := by
  rw [hasEnded, any_eq_true]
  constructor
  · rintro ⟨fact, hfact, hends⟩
    obtain ⟨hmem, hturn⟩ := mem_filter.mp hfact
    obtain ⟨row, hrow, -, hdecode⟩ := (h.mem_facts_iff sessionId fact.toDraft).mp
      (LedgerState.session_of_get? hsess ▸ mem_map_of_mem hmem)
    obtain ⟨hrowTurn, hrowExec, hkind⟩ := SqliteLedger.columns_of_decodeDraft hdecode
    simp only [beq_iff_eq, Bool.and_eq_true] at hturn hends
    exact ⟨row, hrow, by rw [← hrowTurn]; exact congrArg (·.map (·.text)) hturn,
      by rw [← hrowExec]; exact congrArg (·.map (·.text)) hends.1, _, hkind, hends.2⟩
  · rintro ⟨row, hrow, hrowTurn, hrowExec, kind, hkind, hends⟩
    obtain ⟨owner, draft, hrowOf⟩ := h.read row hrow
    obtain ⟨hdraftTurn, hdraftExec, hdraftKind⟩ := SqliteLedger.columns_of_decodeDraft hrowOf.2
    obtain ⟨fact, hmem, rfl⟩ := mem_map.mp ((h.mem_facts_iff owner draft).mpr ⟨row, hrow, hrowOf⟩)
    have hsome : ∀ {label : String} {found : Option (LedgerIdentity label)}
        {identity : LedgerIdentity label}, found.map (·.text) = some identity.text →
          found = some identity := by
      rintro label (_ | found) identity hmap
      · cases hmap
      · rw [ext_text (Option.some.inj hmap)]
    have hturn : fact.turnId = some turn := hsome (hdraftTurn.trans hrowTurn)
    have hexec : fact.executionId = some execution := hsome (hdraftExec.trans hrowExec)
    obtain rfl : kind = fact.kind := Option.some.inj (hkind.symm.trans hdraftKind)
    -- The row's session has a fact of the turn, so it is the session the turn was loaded from.
    have howner : state.sessions[owner]? = some (state.session owner) := by
      cases hget : state.sessions[owner]? with
      | none => simp [LedgerState.session, hget] at hmem
      | some found => rw [LedgerState.session_of_get? hget]
    obtain ⟨_, hfirst⟩ := exists_mem_of_ne_nil _ hfacts
    obtain ⟨hfirstMem, hfirstTurn⟩ := mem_filter.mp hfirst
    have hsame : owner = sessionId := by
      by_contra hne
      exact (h.reachable.wellFormed.unrelated hne howner hsess hmem hfirstMem).1 turn
        ⟨hturn, by simpa using hfirstTurn⟩
    subst hsame
    rw [LedgerState.session_of_get? hsess] at hmem
    exact ⟨fact, mem_filter.mpr ⟨hmem, by simp [hturn]⟩, by simp [hexec, hends]⟩

end

/-- A lease is granted to the latest execution of its turn, which has not ended. -/
theorem latestActive_of_requireLatestActive (hsqlite : sqlite.Documented)
    (h : requireLatestActive lib sqlite ledger turn execution = .ok ()) :
    LatestActive lib sqlite ledger turn execution := by
  simp only [requireLatestActive, ok_iff] at h
  obtain ⟨state, hload, _, hturn, hlatest, hact⟩ := h
  obtain ⟨sessionId, session, hsess, hfacts⟩ := LedgerState.exists_of_loadTurn hturn
  rw [hfacts] at hlatest hact
  obtain ⟨fact, hfind, hexec⟩ := Option.bind_eq_some_iff.mp hlatest
  refine ⟨⟨state, sessionId, session, fact, hload, hsess, hfind, hexec⟩, fun hended ↦ ?_⟩
  have hloaded := SqliteLedger.loaded_of_loadStateSnapshot hsqlite hload
  rw [← hasEnded_iff hloaded hsess (ne_nil_of_mem (mem_of_rfind? hfind))] at hended
  rw [hended] at hact
  cases hact

/-- An execution that is found to be over has a stored fact that ends it. -/
theorem ended_of_requireTerminal (hsqlite : sqlite.Documented)
    (h : requireTerminal lib sqlite ledger turn execution.text = .ok ()) :
    Ended ledger turn execution := by
  simp only [requireTerminal, ok_iff] at h
  obtain ⟨found, hfound, _, hload, _, hturn, hended⟩ := h
  obtain rfl : found = execution :=
    ext_text (tryFrom_eq_some_iff.mp hfound)
  obtain ⟨_, session, hsess, hfacts⟩ := LedgerState.exists_of_loadTurn hturn
  rw [hfacts] at hended
  have hnonempty : LedgerState.turnFacts session turn ≠ [] := by
    rintro hnil
    rw [hnil] at hended
    cases hended
  exact (hasEnded_iff (SqliteLedger.loaded_of_loadStateSnapshot hsqlite hload) hsess
    hnonempty).mp hended

/-! ## What a call does to a lease -/

/-- What a grant depends on. -/
structure Grants (lib : Externals) (sqlite : Sqlite) (store : LeaseStore)
    (request : ExecutionLeaseRequest) (lease : ExecutionLease) : Prop where
  latestActive : LatestActive lib sqlite store.ledger request.turnId request.executionId
  /-- The row there was, if any, was the holder's own, or that of another execution, now over. -/
  handed : ∀ row : ExecutionLeaseRow, store.executionLeases[request.turnId]? = some row →
    (row.executionId = request.executionId.text ∧ row.ownerId = request.ownerId
      ∧ row.leaseToken = request.leaseToken) ∨
    row.executionId ≠ request.executionId.text ∧ ∀ execution : ExecutionId,
      execution.text = row.executionId → Ended store.ledger request.turnId execution
  turnId_eq : lease.turnId = request.turnId
  executionId_eq : lease.executionId = request.executionId
  ownerId_eq : lease.ownerId = request.ownerId
  leaseToken_eq : lease.leaseToken = request.leaseToken

theorem grants_of_acquire (hsqlite : sqlite.Documented)
    (h : acquire lib sqlite store request = .ok (lease, next)) :
    Grants lib sqlite store request lease := by
  simp only [acquire, ok_iff, Prod.mk.injEq] at h
  obtain ⟨-, _, -, hact, _, hgen, -, rfl, rfl⟩ := h
  refine ⟨latestActive_of_requireLatestActive hsqlite hact, fun row hrow ↦ ?_, rfl, rfl, rfl, rfl⟩
  rw [hrow] at hgen
  simp only [nextGeneration, bind_eq_ok_iff] at hgen
  obtain ⟨_, -, _, -, hgen⟩ := hgen
  split at hgen
  · rename_i hsame
    exact .inl hsame
  · split at hgen
    · rename_i hother
      simp only [ok_iff] at hgen
      have hterm := hgen.1
      refine .inr ⟨hother, fun execution hexec ↦ ?_⟩
      rw [← hexec] at hterm
      exact ended_of_requireTerminal hsqlite hterm
    · split at hgen <;> cases hgen

theorem ended_of_release (hsqlite : sqlite.Documented)
    (h : release lib sqlite store lease = .ok ((), next)) :
    requireOwned store lease = .ok () ∧ Ended store.ledger lease.turnId lease.executionId := by
  simp only [release, ok_iff] at h
  exact ⟨h.1, ended_of_requireTerminal hsqlite h.2.1⟩

end ExecutionLease

namespace LeaseStore

open ExecutionLease

variable {lib : Externals} {sqlite : Sqlite} {store : LeaseStore} {turn : TurnId}
  {execution : ExecutionId} {lease : ExecutionLease}

/-- What the ledger says is over stays over. -/
theorem ended_step (h : Ended store.ledger turn execution) (input : LeaseInput) :
    Ended (step lib sqlite store input).2.ledger turn execution := by
  obtain ⟨row, hrow, hrest⟩ := h
  obtain ⟨_, hrows⟩ := (effect_step lib sqlite store input).facts
  exact ⟨row, hrows ▸ mem_append_left _ hrow, hrest⟩

/-- What a call does to the row of a turn. -/
inductive TurnEffect (lib : Externals) (sqlite : Sqlite) (store : LeaseStore) (turn : TurnId) :
    LeaseCall → Option ExecutionLeaseRow → Prop where
  | kept {call : LeaseCall} : TurnEffect lib sqlite store turn call store.executionLeases[turn]?
  | granted {request : ExecutionLeaseRequest} {lease : ExecutionLease}
      (hturn : request.turnId = turn) (h : Grants lib sqlite store request lease) :
      TurnEffect lib sqlite store turn (.acquireExecutionLease request) (some lease.row)
  | released {lease : ExecutionLease} (hturn : lease.turnId = turn)
      (howned : requireOwned store lease = .ok ())
      (hended : Ended store.ledger turn lease.executionId) :
      TurnEffect lib sqlite store turn (.releaseExecutionLease lease) none

theorem turnEffect_step (lib : Externals) (hsqlite : sqlite.Documented) (store : LeaseStore)
    (input : LeaseInput) (turn : TurnId) : TurnEffect lib sqlite store turn input.call
      (step lib sqlite store input).2.executionLeases[turn]? := by
  have heffect := effect_step lib sqlite store input
  generalize (step lib sqlite store input).2 = next, input.call = call at heffect ⊢
  cases heffect with
  | rolledBack => exact .kept
  | committed h =>
    rw [(commitTransaction_eq_ok h).2.1]
    exact .kept
  | executionGranted h =>
    rename_i request lease
    rw [ExecutionLease.eq_of_acquire h, Map.get?_insert]
    split
    · rename_i hturn
      exact .granted hturn (grants_of_acquire hsqlite h)
    · exact .kept
  | executionReleased h =>
    rename_i lease
    obtain ⟨howned, hended⟩ := ended_of_release hsqlite h
    rw [ExecutionLease.eq_of_release h, Map.get?_erase]
    split
    · rename_i hturn
      exact .released hturn howned (hturn ▸ hended)
    · exact .kept
  | scheduleGranted h =>
    rw [ScheduleLease.eq_of_acquire h]
    exact .kept
  | scheduleReleased h =>
    rw [ScheduleLease.eq_of_release h]
    exact .kept

/-- A lease is lost only after its execution has ended. -/
theorem ended_of_lost (hsqlite : sqlite.Documented) {input : LeaseInput}
    (howned : requireOwned store lease = .ok ())
    (hlost : requireOwned (step lib sqlite store input).2 lease ≠ .ok ()) :
    Ended store.ledger lease.turnId lease.executionId := by
  obtain ⟨row, hrow, hexec, howner, htoken⟩ := requireOwned_iff.mp howned
  rw [ne_eq, requireOwned_iff] at hlost
  have heffect := turnEffect_step lib hsqlite store input lease.turnId
  generalize (step lib sqlite store input).2.executionLeases[lease.turnId]? = found,
    input.call = call at heffect hlost
  cases heffect with
  | kept => exact absurd ⟨row, hrow, hexec, howner, htoken⟩ hlost
  | @granted request granted hturn h =>
    rcases h.handed row (hturn ▸ hrow) with ⟨hsameExec, hsameOwner, hsameToken⟩ | ⟨-, hended⟩
    · -- A renewal writes the same holder again.
      refine absurd ⟨_, rfl, ?_, ?_, ?_⟩ hlost
      · rw [ExecutionLease.row, h.executionId_eq, ← hsameExec, hexec]
      · rw [ExecutionLease.row, h.ownerId_eq, ← hsameOwner, howner]
      · rw [ExecutionLease.row, h.leaseToken_eq, ← hsameToken, htoken]
    · exact hturn ▸ hended lease.executionId hexec.symm
  | @released released hturn hreleased hended =>
    obtain ⟨_, hother, hreleasedExec, -⟩ := requireOwned_iff.mp hreleased
    rw [hturn, hrow, Option.some.injEq] at hother
    subst hother
    rwa [ext_text (hreleasedExec.symm.trans hexec)] at hended

/-- No lease is given to an execution that has ended. -/
theorem not_given_of_ended (hsqlite : sqlite.Documented) {input : LeaseInput}
    (hended : Ended store.ledger lease.turnId lease.executionId)
    (hnot : requireOwned store lease ≠ .ok ()) :
    requireOwned (step lib sqlite store input).2 lease ≠ .ok () := by
  rw [ne_eq, requireOwned_iff] at hnot ⊢
  have heffect := turnEffect_step lib hsqlite store input lease.turnId
  generalize (step lib sqlite store input).2.executionLeases[lease.turnId]? = found,
    input.call = call at heffect ⊢
  cases heffect with
  | kept => exact hnot
  | @granted request granted hturn h =>
    rintro ⟨row, hrow, hexec, -⟩
    cases hrow
    rw [ExecutionLease.row, h.executionId_eq] at hexec
    refine h.latestActive.2 ?_
    rwa [hturn, ext_text hexec]
  | released => simp

/-- A lease is handed over at the end of its execution. -/
theorem handover (hsqlite : sqlite.Documented) (lease : ExecutionLease) :
    (machine lib sqlite).Handover (fun _ _ ↦ True) (fun store ↦ requireOwned store lease = .ok ())
      (fun store ↦ Ended store.ledger lease.turnId lease.executionId) where
  retired_of_lost _ input _ howned hlost := ended_step (ended_of_lost hsqlite howned hlost) input
  retired_step _ input _ hended := ended_step hended input
  not_given _ _ _ hended hnot := not_given_of_ended hsqlite hended hnot

/-! ## Tokens -/

/-- Some lease of the turn passes with the token. -/
def TokenPasses (store : LeaseStore) (turn : TurnId) (token : String) : Prop :=
  ∃ lease : ExecutionLease, lease.turnId = turn ∧ lease.leaseToken = token ∧
    requireOwned store lease = .ok ()

/-- A token is used for one execution of a turn. -/
def DistinctTokens (inputs : List LeaseInput) : Prop :=
  ∀ a ∈ inputs, ∀ b ∈ inputs, ∀ r r' : ExecutionLeaseRequest,
    a.call = .acquireExecutionLease r → b.call = .acquireExecutionLease r' → r.turnId = r'.turnId →
      r.leaseToken = r'.leaseToken → r.executionId = r'.executionId

/-- The row of a turn was written for some request of the run. -/
theorem exists_request_of_owned (hsqlite : sqlite.Documented) (inputs : List LeaseInput)
    (howned : requireOwned ((machine lib sqlite).run inputs).2 lease = .ok ()) :
    ∃ input ∈ inputs, ∃ request : ExecutionLeaseRequest,
      input.call = .acquireExecutionLease request ∧ request.turnId = lease.turnId ∧
        request.executionId = lease.executionId ∧ request.leaseToken = lease.leaseToken := by
  have hrows : ∀ row : ExecutionLeaseRow,
      ((machine lib sqlite).run inputs).2.executionLeases[lease.turnId]? = some row →
      ∃ input ∈ ((machine lib sqlite).run inputs).1.map Prod.fst, ∃ request : ExecutionLeaseRequest,
        input.call = .acquireExecutionLease request ∧ request.turnId = lease.turnId ∧
          request.executionId.text = row.executionId ∧ request.leaseToken = row.leaseToken := by
    refine (machine lib sqlite).run_induction (P := fun answers store ↦ ∀ row : ExecutionLeaseRow,
      store.executionLeases[lease.turnId]? = some row → ∃ input ∈ answers.map Prod.fst,
        ∃ request : ExecutionLeaseRequest, input.call = .acquireExecutionLease request ∧
          request.turnId = lease.turnId ∧ request.executionId.text = row.executionId ∧
          request.leaseToken = row.leaseToken) (by simp [machine]) ?_ inputs
    intro answers store input ih row hrow
    rw [map_append]
    have heffect := turnEffect_step lib hsqlite store input lease.turnId
    rw [show ((machine lib sqlite).step store input).2 = (step lib sqlite store input).2 from rfl]
      at hrow
    rw [hrow] at heffect
    generalize hcall : input.call = call at heffect
    generalize hfound : some row = found at heffect
    cases heffect with
    | kept =>
      obtain ⟨earlier, hmem, hreq⟩ := ih row hfound.symm
      exact ⟨earlier, mem_append_left _ hmem, hreq⟩
    | @granted request granted hturn h =>
      cases hfound
      exact ⟨input, mem_append_right _ (mem_singleton_self _), request, hcall, hturn,
        congrArg (·.text) h.executionId_eq.symm, h.leaseToken_eq.symm⟩
    | released => cases hfound
  obtain ⟨row, hrow, hexec, -, htoken⟩ := requireOwned_iff.mp howned
  obtain ⟨input, hmem, request, hcall, hturn, hreq, hreqToken⟩ := hrows row hrow
  rw [Machine.run, Machine.map_fst_runFrom] at hmem
  exact ⟨input, hmem, request, hcall, hturn, ext_text (hreq.trans hexec),
    hreqToken.trans htoken⟩

/-- At most one holder passes for a turn. -/
theorem holder_unique {a b : ExecutionLease} (hturn : a.turnId = b.turnId)
    (ha : requireOwned store a = .ok ()) (hb : requireOwned store b = .ok ()) :
    a.leaseToken = b.leaseToken ∧ a.executionId = b.executionId ∧ a.ownerId = b.ownerId := by
  obtain ⟨_, hrow, hexec, howner, htoken⟩ := requireOwned_iff.mp ha
  obtain ⟨_, hother, hexec', howner', htoken'⟩ := requireOwned_iff.mp hb
  rw [← hturn, hrow, Option.some.injEq] at hother
  subst hother
  exact ⟨htoken.symm.trans htoken', ext_text (hexec.symm.trans hexec'),
    howner.symm.trans howner'⟩

/-- For any interleaving of commits, leased commits, acquisitions and releases: at most one token
passes for a turn at any time; a lease is granted only to the execution its turn started last, which
no stored fact ends; a lease is lost only after a stored fact has ended its execution; a lease that
was lost never passes again, and neither does its token when tokens are used for one execution
each. -/
theorem execution_leases_exclusive (hsqlite : sqlite.Documented)
    (first second third : List LeaseInput) :
    let early := ((machine lib sqlite).run first).2
    let middle := ((machine lib sqlite).run (first ++ second)).2
    let late := ((machine lib sqlite).run (first ++ second ++ third)).2
    (∀ a b : ExecutionLease, a.turnId = b.turnId → requireOwned early a = .ok () →
      requireOwned early b = .ok () →
        a.leaseToken = b.leaseToken ∧ a.executionId = b.executionId ∧ a.ownerId = b.ownerId) ∧
    (∀ (request : ExecutionLeaseRequest) (completed : Bool) (lease : ExecutionLease),
      (step lib sqlite early ⟨.acquireExecutionLease request, completed⟩).1
          = .executionLease (.ok lease) →
        lease.turnId = request.turnId ∧ lease.executionId = request.executionId ∧
        LatestActive lib sqlite early.ledger lease.turnId lease.executionId) ∧
    (∀ (lease : ExecutionLease) (input : LeaseInput), requireOwned early lease = .ok () →
      requireOwned (step lib sqlite early input).2 lease ≠ .ok () →
        Ended early.ledger lease.turnId lease.executionId) ∧
    (∀ lease : ExecutionLease, requireOwned early lease = .ok () →
      requireOwned middle lease ≠ .ok () →
        Ended middle.ledger lease.turnId lease.executionId ∧ requireOwned late lease ≠ .ok ()) ∧
    (DistinctTokens (first ++ second ++ third) → ∀ (turn : TurnId) (token : String),
      TokenPasses early turn token → ¬TokenPasses middle turn token →
        ¬TokenPasses late turn token) := by
  have hmiddle : ((machine lib sqlite).run (first ++ second)).2 =
      ((machine lib sqlite).runFrom ((machine lib sqlite).run first).2 second).2 := by
    rw [Machine.run_append]
  have hlate : ((machine lib sqlite).run (first ++ second ++ third)).2 =
      ((machine lib sqlite).runFrom ((machine lib sqlite).run (first ++ second)).2 third).2 := by
    rw [Machine.run_append]
  have halong : ∀ store inputs, (machine lib sqlite).Along (fun _ _ ↦ True) store inputs :=
    Machine.along_of_forall fun _ _ ↦ trivial
  -- A lease that passes early and not in between has been handed over.
  have hover : ∀ lease : ExecutionLease,
      requireOwned ((machine lib sqlite).run first).2 lease = .ok () →
      requireOwned ((machine lib sqlite).run (first ++ second)).2 lease ≠ .ok () →
      Ended ((machine lib sqlite).run (first ++ second)).2.ledger lease.turnId lease.executionId := by
    intro lease howned hlost
    rw [hmiddle] at hlost ⊢
    exact ((handover hsqlite lease).holds_or_retired howned (halong _ _)).resolve_left hlost
  intro early middle late
  refine ⟨fun a b ↦ holder_unique, fun request completed lease hanswer ↦ ?_,
    fun lease input ↦ ended_of_lost hsqlite, fun lease howned hlost ↦ ?_,
    fun hdistinct turn token ↦ ?_⟩
  · have hacquire : ∃ next, acquire lib sqlite early request = .ok (lease, next) := by
      refine ⟨(transact completed .storage early (acquire lib sqlite early request)).2, ?_⟩
      exact body_of_transact (Prod.ext (LeaseAnswer.executionLease.inj hanswer) rfl)
    obtain ⟨next, hacquire⟩ := hacquire
    have hgrants := grants_of_acquire hsqlite hacquire
    refine ⟨hgrants.turnId_eq, hgrants.executionId_eq, ?_⟩
    rw [hgrants.turnId_eq, hgrants.executionId_eq]
    exact hgrants.latestActive
  · have hended := hover lease howned hlost
    refine ⟨hended, ?_⟩
    change requireOwned ((machine lib sqlite).run (first ++ second ++ third)).2 lease ≠ .ok ()
    rw [hlate]
    exact (handover hsqlite lease).not_regained hended hlost (halong _ _)
  · rintro ⟨a, rfl, rfl, hearly⟩ hnone ⟨b, hturn, htoken, hpasses⟩
    have hlost : ∀ c : ExecutionLease, c.turnId = a.turnId → c.leaseToken = a.leaseToken →
        requireOwned middle c ≠ .ok () := fun c hc hct hmid ↦ hnone ⟨c, hc, hct, hmid⟩
    -- Both leases were granted to one execution, since they carry one token.
    obtain ⟨i, hi, r, hr, hrTurn, hrExecution, hrToken⟩ := exists_request_of_owned hsqlite first hearly
    obtain ⟨j, hj, r', hr', hrTurn', hrExecution', hrToken'⟩ :=
      exists_request_of_owned hsqlite _ hpasses
    have hsame : a.executionId = b.executionId := by
      rw [← hrExecution, ← hrExecution']
      refine hdistinct i ?_ j hj r r' hr hr' ?_ ?_
      · exact mem_append_left _ (mem_append_left _ hi)
      · rw [hrTurn, hrTurn', hturn]
      · rw [hrToken, hrToken', htoken]
    have hended := hover a hearly (hlost a rfl rfl)
    rw [← hturn, hsame] at hended
    change requireOwned ((machine lib sqlite).run (first ++ second ++ third)).2 b = .ok () at hpasses
    rw [hlate] at hpasses
    exact (handover hsqlite b).not_regained hended (hlost b hturn htoken) (halong _ _) hpasses

/-! ## A concrete run -/

/-- The start of the concrete turn. -/
def startCall : CommitCall :=
  ⟨LedgerState.runSession, 1, [LedgerState.turnStart, LedgerState.executionStart]⟩

/-- The concrete execution asks for the lease of its turn. -/
def leaseRequest : ExecutionLeaseRequest where
  turnId := LedgerState.runTurn
  executionId := LedgerState.runExecution
  ownerId := "owner-1"
  leaseToken := "token-1"
  nowMs := 0
  durationMs := 1000

/-- A session is opened, a turn is started in it, and its execution acquires the lease. -/
def leasedRun : List LeaseInput :=
  [⟨.commit SqliteLedger.openingCall.toCommitCall, true⟩, ⟨.commit startCall, true⟩,
    ⟨.acquireExecutionLease leaseRequest, true⟩]

/-- The tables after the start. -/
theorem exists_started : ∃ opened started p, SqliteLedger.commitTransaction reference
      SqliteLedger.referenceSqlite {} SqliteLedger.openingCall.toCommitCall
        = .ok (⟨.committed, 1, [1]⟩, opened) ∧
    SqliteLedger.commitTransaction reference SqliteLedger.referenceSqlite opened startCall
      = .ok (⟨.committed, 2, [2, 3]⟩, started) ∧
    SqliteLedger.Keeps reference SqliteLedger.referenceSqlite started LedgerState.runSession
      [[LedgerState.openingFact], [LedgerState.turnStart, LedgerState.executionStart]] p := by
  obtain ⟨opened, hopened, hfacts, hkeeps⟩ := SqliteLedger.exists_opened
  have hfits : opened.facts.length + 2 ≤ SqliteLedger.referenceSqlite.maxRows := by
    rw [hfacts]
    decide
  obtain ⟨p, hfollows, hadm⟩ := LedgerState.exists_follows_start
  have hrestores : ∀ fact ∈ [LedgerState.turnStart, LedgerState.executionStart],
      SqliteLedger.Restores reference fact := by
    intro fact hfact
    obtain ⟨_, _, hwritten, -⟩ := hadm fact hfact
    exact SqliteLedger.restores_written hwritten
  obtain ⟨started, hstarted, -, hkept⟩ := hkeeps.commit SqliteLedger.referenceSqlite_documented
    hfollows hrestores hfits
  exact ⟨opened, started, p, hopened, hstarted, hkept⟩

/-- The started execution may acquire the lease. -/
theorem requireLatestActive_started {db : Database} {p : SessionProjection}
    (h : SqliteLedger.Keeps reference SqliteLedger.referenceSqlite db LedgerState.runSession
      [[LedgerState.openingFact], [LedgerState.turnStart, LedgerState.executionStart]] p) :
    requireLatestActive reference SqliteLedger.referenceSqlite db LedgerState.runTurn
      LedgerState.runExecution = .ok () := by
  obtain ⟨state, hload, hholds⟩ := h.load SqliteLedger.referenceSqlite_documented
  have hsess := hholds.get?_sessions (cons_ne_nil _ _)
  have hfacts := hholds.facts_eq
  have hturn : LedgerState.turnFacts (state.session LedgerState.runSession) LedgerState.runTurn =
      [.ofDraft LedgerState.runSession 2 LedgerState.turnStart,
        .ofDraft LedgerState.runSession 3 LedgerState.executionStart] := by
    rw [LedgerState.turnFacts, hfacts]
    rfl
  have hmem : DurableFact.ofDraft LedgerState.runSession 2 LedgerState.turnStart ∈
      (state.session LedgerState.runSession).facts := by
    rw [hfacts]
    simp [numbered]
  have hsnap := hholds.reachable.wellFormed.loadTurn_eq hsess hmem rfl
  simp only [requireLatestActive, hload, hsnap, Except.mapError, ok_bind,
    LedgerState.turnSnapshot, hturn]
  exact ensure_of ⟨rfl, rfl⟩

/-- The lease the execution is given. -/
def grantedLease : ExecutionLease where
  turnId := LedgerState.runTurn
  executionId := LedgerState.runExecution
  ownerId := "owner-1"
  leaseToken := "token-1"
  generation := 1
  expiresAtMs := 1000

/-- The lease is held after the run. -/
theorem owned_leasedRun :
    requireOwned ((machine reference SqliteLedger.referenceSqlite).run leasedRun).2 grantedLease
      = .ok () := by
  obtain ⟨_, started, _, hopened, hstarted, hkeeps⟩ := exists_started
  have hacquire : acquire reference SqliteLedger.referenceSqlite { ledger := started } leaseRequest
      = .ok (grantedLease, { ledger := started
                             executionLeases := (∅ : Map TurnId ExecutionLeaseRow).insert
                               LedgerState.runTurn grantedLease.row }) := by
    have hact := requireLatestActive_started hkeeps
    simp [acquire, leaseRequest, hact, checkedAddU64, checkedAdd, nextGeneration, grantedLease,
      Map.any, okOr]
  have hrun : ((machine reference SqliteLedger.referenceSqlite).run leasedRun).2 =
      { ledger := started
        executionLeases := (∅ : Map TurnId ExecutionLeaseRow).insert LedgerState.runTurn
          grantedLease.row } := by
    simp only [leasedRun, Machine.run, Machine.runFrom_cons, Machine.runFrom_nil, machine, step,
      commitTransaction, hopened, hstarted, hacquire, Except.mapError, ok_bind, pure_eq_ok, transact,
      if_true, Prod.map, id]
  rw [hrun, requireOwned_iff]
  exact ⟨grantedLease.row, Map.get?_insert_self .., rfl, rfl, rfl⟩

/-- The lease of the run is held, and no other token passes for its turn. -/
theorem leasedRun_exclusive :
    requireOwned ((machine reference SqliteLedger.referenceSqlite).run leasedRun).2 grantedLease
      = .ok () ∧
    ∀ other : ExecutionLease, grantedLease.turnId = other.turnId →
      requireOwned ((machine reference SqliteLedger.referenceSqlite).run leasedRun).2 other
        = .ok () → grantedLease.leaseToken = other.leaseToken :=
  ⟨owned_leasedRun, fun other hturn hother ↦
    ((execution_leases_exclusive SqliteLedger.referenceSqlite_documented leasedRun [] []).1
      grantedLease other hturn owned_leasedRun hother).1⟩

end LeaseStore

end Garive
