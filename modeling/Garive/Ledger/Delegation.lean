import Garive.Ledger.Course
import Garive.Ledger.Projection.Delegations
import Garive.Ledger.Writers

/-!
# The delegation protocol

A parent turn hands work to a child turn: it is suspended in the commit that starts the child, the
child's result is recorded in the commit that ends the child, and the parent goes on after the result
was observed and admitted as input. The checks are spread over the operations of turns and of
delegations and over the check at the end of a commit, and they rely on what happened earlier in the
same commit. The invariant `Delegated` therefore speaks about the middle of a commit: a running
delegation has a child that is live or has ended in this very commit.
-/

namespace Garive

open SessionProjection Map

/-! ## The invariant -/

namespace TurnTables

/-- The turn is open or suspended. -/
def Live (t : TurnTables) (turn : TurnId) : Prop :=
  ∃ state, t.turns[turn]? = some state ∧ state.isTerminal = false

/-- The turn has ended. -/
def Ended (t : TurnTables) (turn : TurnId) : Prop :=
  ∃ state, t.turns[turn]? = some state ∧ state.isTerminal = true

/-- The turn is live, or it has ended in the current commit. -/
def Accounted (t : TurnTables) (turn : TurnId) : Prop :=
  t.Live turn ∨ t.turnsTerminalInCommit.contains turn = true

end TurnTables

/-- The delegations agree with the turns and with the facts. -/
structure Delegated (lib : Externals) (history : List FactDraft) (t : TurnTables) : Prop where
  single : ∀ (id other : String) (record found : DelegationRecord),
    t.delegations[id]? = some record → t.delegations[other]? = some found →
    record.parentTurn = found.parentTurn → record.state.isSettled = false →
    found.state.isSettled = false → id = other
  running : ∀ (id : String) (record : DelegationRecord), t.delegations[id]? = some record →
    record.state = .started → ∃ child, record.childTurn = some child ∧ t.Accounted child
  unbound : ∀ (id : String) (record : DelegationRecord), t.delegations[id]? = some record →
    record.state = .requested ∨ record.state = .authorized → record.childTurn = none
  fresh : ∀ turn : TurnId, t.turnsStartedInCommit.contains turn = true → t.Accounted turn
  ended : ∀ turn : TurnId, t.turnsTerminalInCommit.contains turn = true → t.Ended turn
  observed : ∀ (id : String) (record : DelegationRecord), t.delegations[id]? = some record →
    record.state = .observed → ∃ fact ∈ history, fact.kind = .known .delegationObserved ∧
      payloadText? lib fact "delegation_id" = some id
  admitted : ∀ (id : String) (record : DelegationRecord), t.delegations[id]? = some record →
    record.inputAdmitted = true → record.state = .observed ∧
      ∃ fact ∈ history, fact.kind = .known .turnInput ∧ ResultOf lib fact record

variable {lib : Externals} {history : List FactDraft} {fact : FactDraft} {p p' : SessionProjection}
  {t t' : TurnTables} {turn : TurnId}

theorem delegated_empty (lib : Externals) : Delegated lib [] ({} : SessionProjection).turnTables := by
  constructor <;> simp [turnTables]

variable {record : DelegationRecord} {id : String}

namespace Delegated

/-- A longer history. -/
theorem mono (h : Delegated lib history t) (fact : FactDraft) :
    Delegated lib (history ++ [fact]) t where
  single := h.single
  running := h.running
  unbound := h.unbound
  fresh := h.fresh
  ended := h.ended
  observed id record hrec hstate := by
    obtain ⟨found, hfound, hrest⟩ := h.observed id record hrec hstate
    exact ⟨found, List.mem_append_left _ hfound, hrest⟩
  admitted id record hrec hinput := by
    obtain ⟨hstate, found, hfound, hrest⟩ := h.admitted id record hrec hinput
    exact ⟨hstate, found, List.mem_append_left _ hfound, hrest⟩

/-- A move of a turn keeps every turn accounted for. -/
theorem moveTurn (h : Delegated lib history t) (hdelegs : t'.delegations = t.delegations)
    (haccounted : ∀ other, t.Accounted other → t'.Accounted other)
    (hfresh : ∀ other : TurnId, t'.turnsStartedInCommit.contains other →
      t.turnsStartedInCommit.contains other ∨ t'.Accounted other)
    (hended : ∀ other : TurnId, t'.turnsTerminalInCommit.contains other → t'.Ended other) :
    Delegated lib history t' where
  single := hdelegs ▸ h.single
  running id record hrec hstate := by
    obtain ⟨child, hchild, haccount⟩ := h.running id record (hdelegs ▸ hrec) hstate
    exact ⟨child, hchild, haccounted child haccount⟩
  unbound := hdelegs ▸ h.unbound
  fresh other hother := (hfresh other hother).elim (fun hold ↦ haccounted other (h.fresh other hold)) id
  ended := hended
  observed := hdelegs ▸ h.observed
  admitted := hdelegs ▸ h.admitted

variable {next : DelegationRecord}

/-- A delegation is written; turns stay as they are. -/
theorem write (h : Delegated lib history p.turnTables)
    (hsingle : next.state.isSettled = false → ∀ (other : String) (found : DelegationRecord), p.delegations[other]? = some found → found.parentTurn = next.parentTurn → found.state.isSettled = false → id = other)
    (hrunning : next.state = .started → ∃ child, next.childTurn = some child ∧ p.turnTables.Accounted child)
    (hunbound : next.state = .requested ∨ next.state = .authorized → next.childTurn = none)
    (hobs : next.state = .observed → ∃ found ∈ history ++ [fact], found.kind = .known .delegationObserved ∧ payloadText? lib found "delegation_id" = some id)
    (hadm : next.inputAdmitted → next.state = .observed ∧ ∃ found ∈ history ++ [fact], found.kind = .known .turnInput ∧ ResultOf lib found next) :
    Delegated lib (history ++ [fact])
      { p.turnTables with delegations := p.delegations.insert id next } := by
  have hlong := h.mono fact
  refine ⟨?_, ?_, ?_, hlong.fresh, hlong.ended, ?_, ?_⟩
  · intro first second record found hrec hfound hpar hopen hopen'
    rcases of_get?_insert hrec with ⟨rfl, rfl⟩ | hold
    · rcases of_get?_insert hfound with ⟨rfl, -⟩ | hold
      · rfl
      · exact hsingle hopen second found hold hpar.symm hopen'
    · rcases of_get?_insert hfound with ⟨rfl, rfl⟩ | hold'
      · exact (hsingle hopen' first record hold hpar hopen).symm
      · exact h.single first second record found hold hold' hpar hopen hopen'
  · intro other record hrec hstate
    rcases of_get?_insert hrec with ⟨-, rfl⟩ | hrec
    · exact hrunning hstate
    · exact h.running other record hrec hstate
  · intro other record hrec hstate
    rcases of_get?_insert hrec with ⟨-, rfl⟩ | hrec
    · exact hunbound hstate
    · exact h.unbound other record hrec hstate
  · intro other record hrec hstate
    rcases of_get?_insert hrec with ⟨rfl, rfl⟩ | hrec
    · exact hobs hstate
    · exact hlong.observed other record hrec hstate
  · intro other record hrec hinput
    rcases of_get?_insert hrec with ⟨-, rfl⟩ | hrec
    · exact hadm hinput
    · exact hlong.admitted other record hrec hinput

/-- A record whose input was admitted has been observed. -/
theorem inputAdmitted_eq_false (h : Delegated lib history t)
    (hrec : t.delegations[id]? = some record) (hstate : record.state ≠ .observed) :
    record.inputAdmitted = false := by
  by_contra hinput
  exact hstate (h.admitted id record hrec (Bool.not_eq_false _ ▸ hinput)).1

/-- An unsettled delegation moves on without a rival. -/
theorem advance (h : Delegated lib history p.turnTables)
    (hrec : p.delegations[id]? = some record) (hopen : record.state.isSettled = false)
    (hpar : next.parentTurn = record.parentTurn)
    (hinput : next.inputAdmitted = record.inputAdmitted)
    (hrunning : next.state = .started → ∃ child, next.childTurn = some child ∧ p.turnTables.Accounted child)
    (hunbound : next.state = .requested ∨ next.state = .authorized → next.childTurn = none)
    (hobs : next.state = .observed → fact.kind = .known .delegationObserved ∧ payloadText? lib fact "delegation_id" = some id) :
    Delegated lib (history ++ [fact])
      { p.turnTables with delegations := p.delegations.insert id next } := by
  refine h.write (fun _ other found hfound hsame hopen' ↦ ?_) hrunning hunbound
    (fun hstate ↦ ⟨fact, by simp, hobs hstate⟩) fun hadm ↦ ?_
  · exact h.single id other record found hrec hfound (hpar.symm.trans hsame.symm) hopen hopen'
  · have hstate : record.state ≠ .observed := by
      intro hstate
      rw [hstate] at hopen
      cases hopen
    rw [hinput, h.inputAdmitted_eq_false hrec hstate] at hadm
    cases hadm

end Delegated

/-! ## Turns stay accounted for -/

variable {other : TurnId}

/-- A turn is written with a live state. -/
theorem accounted_insert {state : TurnState} (hlive : state.isTerminal = false)
    (hturns : t'.turns = t.turns.insert turn state)
    (hmarks : t'.turnsTerminalInCommit = t.turnsTerminalInCommit) (h : t.Accounted other) :
    t'.Accounted other := by
  rcases h with ⟨found, hfound, hfoundLive⟩ | hmarked
  · left
    rw [TurnTables.Live, hturns, get?_insert]
    split
    · exact ⟨state, rfl, hlive⟩
    · exact ⟨found, hfound, hfoundLive⟩
  · exact .inr (hmarks ▸ hmarked)

/-- A turn that has not ended is written; those that have stay ended. -/
theorem ended_insert {state : TurnState}
    (hbef : ∀ found, t.turns[turn]? = some found → found.isTerminal = false)
    (hturns : t'.turns = t.turns.insert turn state) (h : t.Ended other) : t'.Ended other := by
  obtain ⟨found, hfound, hterm⟩ := h
  have hne : turn ≠ other := by
    rintro rfl
    rw [hbef found hfound] at hterm
    cases hterm
  exact ⟨found, by rw [hturns, get?_insert_of_ne hne, hfound], hterm⟩

/-- The state of a turn, if it is known to be live. -/
theorem forall_live {current : TurnState} (hcur : p.turns[turn]? = some current)
    (hlive : current.isTerminal = false) :
    ∀ found, p.turnTables.turns[turn]? = some found → found.isTerminal = false := by
  intro found hfound
  rw [← Option.some.inj (hcur.symm.trans hfound)]
  exact hlive

theorem forall_live_of_new (hnew : p.turns[turn]? = none) :
    ∀ found, p.turnTables.turns[turn]? = some found → found.isTerminal = false :=
  fun _ hfound ↦ absurd (hnew.symm.trans hfound) (by simp)

theorem isTerminal_of_ending {kind : RuntimeKind} {state : TurnState}
    (h : kind.ending? = some state) : state.isTerminal := by
  cases kind with
  | turnCompleted | turnStopped | turnFailed =>
    cases h
    rfl
  | _ => cases h

/-- Every move keeps the delegations in agreement with the turns and the facts. -/
theorem Delegated.step (h : Delegated lib history p.turnTables) (hmove : TurnMove lib p fact t') :
    Delegated lib (history ++ [fact]) t' := by
  have hlong := h.mono fact
  cases hmove with
  | @start turn _ _ _ hnew =>
    refine hlong.moveTurn rfl (fun other ↦ accounted_insert rfl rfl rfl) (fun other hother ↦ ?_)
      fun other hother ↦ ended_insert (forall_live_of_new hnew) rfl (h.ended other hother)
    rw [SetOf.contains_insert, Bool.or_eq_true, decide_eq_true_eq] at hother
    rcases hother with rfl | hother
    · exact .inr (.inl ⟨.open, get?_insert_self .., rfl⟩)
    · exact .inl hother
  | @reopen turn _ _ _ hsusp =>
    exact hlong.moveTurn rfl (fun other ↦ accounted_insert rfl rfl rfl) (fun other ↦ .inl)
      fun other hother ↦ ended_insert (forall_live hsusp rfl) rfl (h.ended other hother)
  | @suspend turn _ _ _ _ hopen =>
    exact hlong.moveTurn rfl (fun other ↦ accounted_insert rfl rfl rfl) (fun other ↦ .inl)
      fun other hother ↦ ended_insert (forall_live hopen rfl) rfl (h.ended other hother)
  | @finish turn _ current next _ hending _ hcur hlive =>
    refine hlong.moveTurn rfl (fun other haccounted ↦ ?_) (fun other ↦ .inl) fun other hother ↦ ?_
    · by_cases heq : turn = other
      · exact .inr (by simp [heq])
      · rcases haccounted with ⟨found, hfound, hfoundLive⟩ | hmarked
        · exact .inl ⟨found, (get?_insert_of_ne heq).trans hfound, hfoundLive⟩
        · exact .inr ((SetOf.contains_insert _ _ _).trans (by
            rw [show p.turnsTerminalInCommit.contains other from hmarked, Bool.or_true]))
    · rw [SetOf.contains_insert, Bool.or_eq_true, decide_eq_true_eq] at hother
      rcases hother with rfl | hother
      · exact ⟨next, get?_insert_self .., isTerminal_of_ending hending⟩
      · exact ended_insert (forall_live hcur hlive) rfl (h.ended other hother)
  | input => exact hlong
  | @admitResult id record hkind hrec hstate hres =>
    refine h.write (fun hopen ↦ ?_) (fun hstarted ↦ ?_)
      (h.unbound id record hrec) (fun _ ↦ ?_)
      fun _ ↦ ⟨hstate, fact, by simp, hkind, ?_⟩
    · rw [show ({ record with inputAdmitted := true } : DelegationRecord).state = .observed from hstate]
        at hopen
      cases hopen
    · exact absurd (hstarted.symm.trans hstate) (by decide)
    · obtain ⟨found, hfound, hrest⟩ := h.observed id record hrec hstate
      exact ⟨found, List.mem_append_left _ hfound, hrest⟩
    · exact ⟨hres.turn, hres.input, hres.suspension, hres.digest⟩
  | @request turn id record _ _ _ hnew hsettled hpar hstate hchild hinput =>
    refine h.write (fun _ other found hfound hsame hopen ↦ ?_) (fun hstarted ↦ ?_) (fun _ ↦ hchild)
      (fun hobs ↦ ?_) fun hadm ↦ ?_
    · rw [hsettled other found hfound (hsame.trans hpar)] at hopen
      cases hopen
    · exact absurd (hstate.symm.trans hstarted) (by decide)
    · exact absurd (hstate.symm.trans hobs) (by decide)
    · rw [hinput] at hadm
      cases hadm
  | @answer id record next hkind hid hrec hstate hnext =>
    have hunbound : next.childTurn = none := by
      rw [hnext]
      exact h.unbound id record hrec (.inl hstate)
    refine h.advance hrec (by rw [hstate]; rfl) (by rw [hnext]) (by rw [hnext]) (fun hstarted ↦ ?_)
      (fun _ ↦ hunbound) fun hobs ↦ ?_
    all_goals rcases hkind with ⟨-, hnextState⟩ | ⟨-, hnextState⟩
    · exact absurd (hnextState.symm.trans hstarted) (by decide)
    · exact absurd (hnextState.symm.trans hstarted) (by decide)
    · exact absurd (hnextState.symm.trans hobs) (by decide)
    · exact absurd (hnextState.symm.trans hobs) (by decide)
  | @startChild id suspension record child _ _ _ _ hrec hstate _ hstarted =>
    exact h.advance hrec (by rw [hstate]; rfl) rfl rfl
      (fun _ ↦ ⟨child, rfl, h.fresh child hstarted⟩) (fun hearly ↦ by rcases hearly with h | h <;> cases h)
      fun hobs ↦ by cases hobs
  | @finishChild id _ _ record child _ _ hrec hstate =>
    exact h.advance hrec (by rw [hstate]; rfl) rfl rfl (fun hstarted ↦ by cases hstarted)
      (fun hearly ↦ by rcases hearly with h | h <;> cases h) fun hobs ↦ by cases hobs
  | @observe id record hkind hid hrec hstate =>
    exact h.advance hrec (by rw [hstate]; rfl) rfl rfl (fun hstarted ↦ by cases hstarted)
      (fun hearly ↦ by rcases hearly with h | h <;> cases h) fun _ ↦ ⟨hkind, hid⟩

/-- At the end of a commit, the child of a running delegation is live. -/
theorem live_of_boundary (h : Delegated lib history p.turnTables)
    (hbdry : p.validateCommitBoundary = .ok ()) (hrec : p.delegations[id]? = some record)
    (hstate : record.state = .started) :
    ∃ child, record.childTurn = some child ∧ p.turnTables.Live child := by
  obtain ⟨child, hchild, hlive | hmarked⟩ := h.running id record hrec hstate
  · exact ⟨child, hchild, hlive⟩
  · -- The check at the end of the commit rejects a child that ended without its result.
    exact absurd ⟨hmarked, hstate⟩
      ((validateCommitBoundary_eq_ok_iff.mp hbdry).2 id record hrec |>.2 child hchild)

/-- Along every course, the delegations agree with the turns and the facts. -/
theorem Leads.delegated {condition : StepCondition} (h : Leads lib condition history p) :
    Delegated lib history p.turnTables := by
  induction h with
  | empty => exact delegated_empty lib
  | @commit history p _ hbdry ih =>
    refine ⟨ih.single, fun id record hrec hstate ↦ ?_, ih.unbound, ?_, ?_, ih.observed,
      ih.admitted⟩
    · obtain ⟨child, hchild, hlive⟩ := live_of_boundary ih hbdry hrec hstate
      exact ⟨child, hchild, .inl hlive⟩
    · simp [turnTables, beginCommit]
    · simp [turnTables, beginCommit]
  | @fact history p p' fact _ _ happly ih =>
    by_cases hwr : fact.kind.writes = .turns
    · exact ih.step (apply_turnMove hwr happly)
    · rw [(apply_keeps happly).turnTables_eq hwr]
      exact ih.mono fact

/-! ## Within a commit -/

/-- The fact ends the turn. -/
def FactDraft.Ends (fact : FactDraft) (turn : TurnId) : Prop :=
  fact.turnId = some turn ∧ ∃ kind state, fact.kind = .known kind ∧ kind.ending? = some state

/-- The turns that the facts of a commit have ended so far. -/
structure EndsWithin (before : SessionProjection) (first : List FactDraft) (t : TurnTables) : Prop where
  kept : ∀ turn, before.turnTables.Ended turn → t.Ended turn
  marked : ∀ turn : TurnId, t.turnsTerminalInCommit.contains turn = true →
    (∃ fact ∈ first, fact.Ends turn) ∧ ¬before.turnTables.Ended turn

/-- A turn that has ended stays ended. -/
theorem SessionProjection.TurnMove.ended (h : TurnMove lib p fact t') (hended : p.turnTables.Ended turn) :
    t'.Ended turn := by
  cases h with
  | start _ _ _ hnew => exact ended_insert (forall_live_of_new hnew) rfl hended
  | reopen _ _ _ hsusp => exact ended_insert (forall_live hsusp rfl) rfl hended
  | suspend _ _ hopen => exact ended_insert (forall_live hopen rfl) rfl hended
  | finish _ _ _ hcur hlive => exact ended_insert (forall_live hcur hlive) rfl hended
  | _ => exact hended

theorem ended_of_apply (h : p.apply lib fact = .ok p') (hended : p.turnTables.Ended turn) :
    p'.turnTables.Ended turn := by
  by_cases hwr : fact.kind.writes = .turns
  · exact (apply_turnMove hwr h).ended hended
  · rwa [(apply_keeps h).turnTables_eq hwr]

variable {batch : List FactDraft}

theorem ended_of_applyAll (h : p.applyAll lib batch = .ok p') (hended : p.turnTables.Ended turn) :
    p'.turnTables.Ended turn := by
  induction batch generalizing p with
  | nil =>
    cases h
    exact hended
  | cons fact rest ih =>
    simp only [applyAll, bind_eq_ok_iff] at h
    obtain ⟨_, hnext, hrest⟩ := h
    exact ih hrest (ended_of_apply hnext hended)

/-- A move within a commit. -/
theorem EndsWithin.step (h : EndsWithin before first p.turnTables) (hmove : TurnMove lib p fact t') :
    EndsWithin before (first ++ [fact]) t' := by
  refine ⟨fun turn hended ↦ hmove.ended (h.kept turn hended), fun turn hmarked ↦ ?_⟩
  have hold : p.turnsTerminalInCommit.contains turn →
      (∃ found ∈ first ++ [fact], found.Ends turn) ∧ ¬before.turnTables.Ended turn := by
    intro hcontains
    obtain ⟨⟨found, hfound, hends⟩, hbef⟩ := h.marked turn hcontains
    exact ⟨⟨found, List.mem_append_left _ hfound, hends⟩, hbef⟩
  cases hmove with
  | @finish ending kind current next hkind hending hturn hcur hlive =>
    rw [SetOf.contains_insert, Bool.or_eq_true, decide_eq_true_eq] at hmarked
    rcases hmarked with rfl | hmarked
    · refine ⟨⟨fact, by simp, hturn, kind, next, hkind, hending⟩, fun hended ↦ ?_⟩
      obtain ⟨_, hstate, hterm⟩ := h.kept ending hended
      rw [← Option.some.inj (hcur.symm.trans hstate), hlive] at hterm
      cases hterm
    · exact hold hmarked
  | _ => exact hold hmarked

/-- The facts of a commit, one after the other. -/
theorem endsWithin_of_applyAll (h : before.beginCommit.applyAll lib first = .ok p) :
    EndsWithin before first p.turnTables := by
  induction first using List.reverseRecOn generalizing p with
  | nil =>
    cases h
    exact ⟨fun turn hended ↦ hended, fun turn hmarked ↦ by simp [turnTables, beginCommit] at hmarked⟩
  | append_singleton first fact ih =>
    obtain ⟨_, hq, happly⟩ := applyAll_concat_eq_ok_iff.mp h
    by_cases hwr : fact.kind.writes = .turns
    · exact (ih hq).step (apply_turnMove hwr happly)
    · rw [(apply_keeps happly).turnTables_eq hwr]
      refine ⟨(ih hq).kept, fun turn hmarked ↦ ?_⟩
      obtain ⟨⟨found, hfound, hends⟩, hbef⟩ := (ih hq).marked turn hmarked
      exact ⟨⟨found, List.mem_append_left _ hfound, hends⟩, hbef⟩

/-- A running delegation goes on, unless its child has ended in the same commit. -/
theorem SessionProjection.TurnMove.running (h : TurnMove lib p fact t')
    (hrec : p.delegations[id]? = some record) (hstate : record.state = .started) :
    (∃ found, t'.delegations[id]? = some found ∧ found.state = .started) ∨
      ∃ child, record.childTurn = some child ∧ p.turnsTerminalInCommit.contains child := by
  -- A move that writes a delegation in another state writes another one.
  have hother : ∀ (other : String) (old next : DelegationRecord), p.delegations[other]? = some old →
      old.state ≠ .started → ∃ found, (p.delegations.insert other next)[id]? = some found ∧
        found.state = .started := by
    intro other old next hold hne
    have hids : other ≠ id := by
      rintro rfl
      exact hne (Option.some.inj (hold.symm.trans hrec) ▸ hstate)
    exact ⟨record, by rw [get?_insert_of_ne hids, hrec], hstate⟩
  cases h with
  | start | reopen | suspend | finish | input => exact .inl ⟨record, hrec, hstate⟩
  | admitResult _ hfound hfoundState => exact .inl (hother _ _ _ hfound (by rw [hfoundState]; decide))
  | answer _ _ hfound hfoundState => exact .inl (hother _ _ _ hfound (by rw [hfoundState]; decide))
  | startChild _ _ _ _ hfound hfoundState =>
    exact .inl (hother _ _ _ hfound (by rw [hfoundState]; decide))
  | observe _ _ hfound hfoundState => exact .inl (hother _ _ _ hfound (by rw [hfoundState]; decide))
  | @request _ other _ _ _ _ hnew =>
    have hids : other ≠ id := by
      rintro rfl
      exact absurd (hnew.symm.trans hrec) (by simp)
    exact .inl ⟨record, (get?_insert_of_ne hids).trans hrec, hstate⟩
  | @finishChild other _ _ found child _ _ hfound _ hchild hterm =>
    by_cases hids : other = id
    · subst hids
      have hsame : found = record := Option.some.inj (hfound.symm.trans hrec)
      exact .inr ⟨child, hsame ▸ hchild, hterm⟩
    · exact .inl ⟨record, (get?_insert_of_ne hids).trans hrec, hstate⟩

/-! ## Sessions -/

/-- What a commit does to delegations and to the turns that wait for them. -/
structure DelegationStep (lib : Externals) (before : SessionLedger) (batch : List FactDraft)
    (after : SessionProjection) : Prop where
  /-- A delegation stops running only in a commit that has ended its child. -/
  leaves : ∀ (first rest : List FactDraft) (fact : FactDraft) (q q' : SessionProjection) (id : String)
    (record : DelegationRecord), batch = first ++ fact :: rest →
    before.projection.beginCommit.applyAll lib first = .ok q → q.apply lib fact = .ok q' →
    q.delegations[id]? = some record → record.state = .started →
    (∀ found : DelegationRecord, q'.delegations[id]? = some found → found.state ≠ .started) →
    ∃ child, record.childTurn = some child ∧ (∃ ended ∈ first, ended.Ends child) ∧
      ¬before.projection.turnTables.Ended child ∧ after.turnTables.Ended child
  /-- A turn whose suspension is bound by a delegation goes on only after the delegation was observed
  and its result was admitted. -/
  reopens : ∀ (first rest : List FactDraft) (fact : FactDraft) (q q' : SessionProjection)
    (turn : TurnId) (suspension id : String) (record : DelegationRecord),
    batch = first ++ fact :: rest → before.projection.beginCommit.applyAll lib first = .ok q →
    q.apply lib fact = .ok q' → fact.kind = .known .turnStarted → fact.turnId = some turn →
    payloadText? lib fact "kind" = some "continue" → q.suspensions[turn]? = some suspension →
    q.delegations[id]? = some record → record.parentTurn = turn →
    record.suspensionId = some suspension →
    record.state = .observed ∧ record.inputAdmitted = true ∧
      (∃ observed ∈ before.facts.map (·.toDraft) ++ first,
        observed.kind = .known .delegationObserved ∧
        payloadText? lib observed "delegation_id" = some id) ∧
      ∃ input ∈ before.facts.map (·.toDraft) ++ first,
        input.kind = .known .turnInput ∧ ResultOf lib input record

theorem delegationStep_of_leads {before : SessionLedger} {after : SessionProjection}
    (h : Leads lib .any (before.facts.map (·.toDraft)) before.projection)
    (hbdry : before.projection.validateCommitBoundary = .ok ())
    (happly : before.projection.beginCommit.applyAll lib batch = .ok after) :
    DelegationStep lib before batch after := by
  constructor
  · intro first rest fact q q' id record hbatch hq hq' hrec hstate hleft
    have hwr : fact.kind.writes = .turns := by
      by_contra hwr
      have hsame : q'.delegations = q.delegations :=
        congrArg (·.delegations) ((apply_keeps hq').turnTables_eq hwr)
      exact hleft record (hsame ▸ hrec) hstate
    rcases (apply_turnMove hwr hq').running hrec hstate with ⟨found, hfound, hrunning⟩ |
      ⟨child, hchild, hterm⟩
    · exact absurd hrunning (hleft found hfound)
    · obtain ⟨hends, hnot⟩ := (endsWithin_of_applyAll hq).marked child hterm
      refine ⟨child, hchild, hends, hnot, ?_⟩
      have hended := (((h.commit hbdry).applyAll hq).delegated).ended child hterm
      rw [hbatch, applyAll_append_eq_ok_iff] at happly
      obtain ⟨_, hq₁, hrest⟩ := happly
      rw [Except.ok.inj (hq₁.symm.trans hq)] at hrest
      exact ended_of_applyAll hrest hended
  · intro first rest fact q q' turn suspension id record hbatch hq hq' hkind hturn hcontinue hcur
      hrec hpar hsuspn
    have hdelegated := ((h.commit hbdry).applyAll hq).delegated
    have hmove := apply_turnMove (by rw [hkind]; rfl) hq'
    generalize q'.turnTables = t' at hmove
    obtain ⟨hobs, hinput⟩ : record.state = .observed ∧ record.inputAdmitted := by
      cases hmove with
      | start _ _ hstart => exact absurd (hstart.symm.trans hcontinue) (by decide)
      | reopen _ hfound _ _ hready =>
        obtain rfl : turn = _ := Option.some.inj (hturn.symm.trans hfound)
        exact hready id record hrec hpar (hsuspn.trans hcur.symm)
      | finish hother hending =>
        rw [hkind, FactKind.known.injEq] at hother
        subst hother
        cases hending
      | answer hother =>
        rw [hkind] at hother
        rcases hother with ⟨hother, -⟩ | ⟨hother, -⟩ <;> cases hother
      | suspend hother | input hother | admitResult hother | request hother | startChild hother
      | finishChild hother | observe hother =>
        rw [hkind] at hother
        cases hother
    exact ⟨hobs, hinput, hdelegated.observed id record hrec hobs,
      (hdelegated.admitted id record hrec hinput).2⟩

/-- A turn that is live is open or suspended. -/
theorem TurnTables.Live.open_or_suspended (h : t.Live turn) :
    t.turns[turn]? = some .open ∨ t.turns[turn]? = some .suspended := by
  obtain ⟨state, hstate, hlive⟩ := h
  cases state with
  | «open» => exact .inl hstate
  | suspended => exact .inr hstate
  | completed | stopped | failed => cases hlive

namespace LedgerState

variable {state : LedgerState}

/-- **The delegation protocol.** In every reachable ledger a turn waits for one delegation at most, a
running delegation has a child that is open or suspended, and every commit respects the protocol. -/
theorem delegation_protocol (h : Reachable lib state) :
    (∀ (sessionId : SessionId) (session : SessionLedger),
      state.sessions[sessionId]? = some session →
      (∀ (id other : String) (record found : DelegationRecord),
        session.projection.delegations[id]? = some record →
        session.projection.delegations[other]? = some found → record.parentTurn = found.parentTurn →
        record.state ≠ .denied → record.state ≠ .observed → found.state ≠ .denied →
        found.state ≠ .observed → id = other) ∧
      ∀ (id : String) (record : DelegationRecord),
        session.projection.delegations[id]? = some record → record.state = .started →
        ∃ child, record.childTurn = some child ∧ (session.projection.turns[child]? = some .open ∨
          session.projection.turns[child]? = some .suspended)) ∧
    ∀ (sessionId : SessionId) (version : Nat) (batch : List FactDraft) (result : CommitResult)
      (after : LedgerState), state.commit lib sessionId version batch = (.ok result, after) →
      result.disposition = .committed →
      DelegationStep lib (state.session sessionId) batch (after.session sessionId).projection := by
  have hunsettled : ∀ state : DelegationState, state ≠ .denied → state ≠ .observed →
      state.isSettled = false := by
    intro state hdenied hobserved
    cases state <;> first | rfl | exact absurd rfl hdenied | exact absurd rfl hobserved
  refine ⟨fun sessionId session hsession ↦ ?_,
    fun sessionId version batch result after hcommit hcommitted ↦ ?_⟩
  · obtain ⟨hleads, hboundary⟩ := Reachable.leads h hsession
    refine ⟨fun id other record found hrecord hfound hparent hd ho hd' ho' ↦
      hleads.delegated.single id other record found hrecord hfound hparent (hunsettled _ hd ho)
        (hunsettled _ hd' ho'), fun id record hrecord hstate ↦ ?_⟩
    obtain ⟨child, hchild, hlive⟩ := live_of_boundary hleads.delegated hboundary hrecord hstate
    exact ⟨child, hchild, hlive.open_or_suspended⟩
  · obtain ⟨hleads, hboundary⟩ := Reachable.leads_session h sessionId
    exact delegationStep_of_leads hleads hboundary (applyAll_of_commit hcommit hcommitted)

/-- The fields with which a turn hands work over and waits. -/
def waitFields : List (List (String × Value)) :=
  [turnStartFields, executionStartFields, requestDelegationFields, authorizeDelegationFields,
    suspendExecutionFields, suspendTurnFields runExecution]

/-- A turn waits for another one. -/
def otherRun : WrittenRun :=
  [(waitBatch ++ [startOther, startRunChild otherTurn],
    waitFields ++ [turnStartFields, startChildFields otherTurn])]

/-- The delegation of the turn runs, with the given child. -/
def runsChild (child : TurnId) (p : SessionProjection) : Bool :=
  p.delegations["delegation-1"]?.any fun record ↦
    decide (record.state = .started ∧ record.parentTurn = runTurn ∧ record.childTurn = some child)

instance : Replayed otherRun (runsChild otherTurn) := ⟨by repeat constructor, by decide +kernel⟩

theorem record_of_runsChild {child : TurnId} {p : SessionProjection} (h : runsChild child p) :
    ∃ record, p.delegations["delegation-1"]? = some record ∧ record.state = .started ∧
      record.parentTurn = runTurn ∧ record.childTurn = some child := by
  obtain ⟨record, hrec, hchecked⟩ := (Option.any_eq_true ..).mp h
  exact ⟨record, hrec, of_decide_eq_true hchecked⟩

/-- In the ledger of that run the waiting turn's delegation runs, and its child is live. -/
theorem delegation_protocol_other : ∃ (state : LedgerState) (session : SessionLedger)
    (record : DelegationRecord) (child : TurnId), Reachable reference state ∧
    state.sessions[runSession]? = some session ∧
    session.projection.delegations["delegation-1"]? = some record ∧ record.state = .started ∧
    record.parentTurn = runTurn ∧ record.childTurn = some child ∧
    (session.projection.turns[child]? = some .open ∨
      session.projection.turns[child]? = some .suspended) := by
  obtain ⟨-, state, _, hholds, hcheck⟩ := exists_holds_of_replayed otherRun (runsChild otherTurn)
  obtain ⟨record, hrecord, hstarted, hparent, -⟩ := record_of_runsChild hcheck
  rw [← hholds.projection_eq] at hrecord
  have hsession := hholds.get?_sessions (List.cons_ne_nil _ _)
  obtain ⟨child, hchild, hlive⟩ :=
    ((delegation_protocol hholds.reachable).1 runSession _ hsession).2 _ _ hrecord hstarted
  exact ⟨state, _, _, child, hholds.reachable, hsession, hrecord, hstarted, hparent, hchild, hlive⟩

end LedgerState

end Garive
