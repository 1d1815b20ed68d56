import Garive.Effects.Dispatcher
import Mathlib.Data.List.Pairwise

/-!
# What the dispatcher starts and publishes

A run of the dispatcher settles what it starts exactly when every refusal it meets, of a permit or
of the executor's preparation, comes before anything of the same step is started
(`execute_settles_iff`). A refusal later in a group makes the dispatcher return at once, and the
members of the group that are started are then neither polled nor published.

The parts of a run are followed through `Logged`: the members published, started and refused so far.
-/

namespace Garive

open Program BatchCall EffectBatchStep List

/-! ## Reading the log -/

namespace BatchCall

/-- The member a call commits as started. -/
def started? : BatchCall → Option Nat
  | commitStarted index _ _ => some index
  | _ => none

/-- The member a call publishes. -/
def published? : BatchCall → Option Nat
  | publishTerminal index _ _ _ => some index
  | _ => none

/-- The member that got no permit or that the executor did not prepare. -/
def refused? : (call : BatchCall) → call.Answer → Option Nat
  | acquirePermit index, .timedOut => some index
  | acquirePermit index, .closed => some index
  | prepare index _, .error _ => some index
  | _, _ => none

/-- The publisher did not commit. -/
def publisherFails : (call : BatchCall) → call.Answer → Bool
  | commitStarted .., .error _ => true
  | publishTerminal .., .error _ => true
  | _, _ => false

end BatchCall

def startedMembers (log : List BatchEvent) : List Nat :=
  log.filterMap fun event ↦ started? event.call

def publishedMembers (log : List BatchEvent) : List Nat :=
  log.filterMap fun event ↦ published? event.call

def refusedMembers (log : List BatchEvent) : List Nat :=
  log.filterMap fun event ↦ refused? event.call event.answer

/-- Every call of the publisher succeeded. -/
def PublisherSucceeds (log : List BatchEvent) : Prop :=
  ∀ event ∈ log, publisherFails event.call event.answer = false

/-- The result is within the bound of the call. -/
def ExecutionFact.Within (lib : Preparing) (fact : ExecutionFact) (maxResultBytes : Option Nat) : Prop :=
  ∃ bytes ∈ fact.resultBytes? lib, ∃ maximum ∈ maxResultBytes, bytes ≤ maximum

/-- Everything started is published once, in the order of the model and within the bounds. -/
structure Settled (lib : Preparing) (log : List BatchEvent) : Prop where
  once : ∀ index ∈ startedMembers log, (publishedMembers log).count index = 1
  ordered : (publishedMembers log).Pairwise (· < ·)
  bounded : ∀ event ∈ log, ∀ index invocation execution fact,
    event.call = publishTerminal index invocation execution (.execution fact) →
      fact.Within lib invocation.prepared.maxResultBytes

/-- The member is the first of its step. -/
def EffectBatchPlanV1.Leads (plan : EffectBatchPlanV1) (index : Nat) : Prop :=
  ∃ step ∈ plan.steps, step.indexes.head? = some index

/-! ## Sizes -/

theorem within_of_measuredTerminal {lib : Preparing} {fact other : ExecutionFact}
    {maxResultBytes : Option Nat} (h : measuredTerminal lib other maxResultBytes = .execution fact)
    (hsome : (other.resultBytes? lib).isSome) :
    fact.Within lib maxResultBytes := by
  unfold measuredTerminal at h
  split at h
  · cases h
  · rename_i hgreater
    cases h
    obtain ⟨bytes, hbytes⟩ := Option.isSome_iff_exists.mp hsome
    rw [hbytes] at hgreater
    cases maxResultBytes with
    | none => simp [optionGreater] at hgreater
    | some maximum => exact ⟨bytes, hbytes, maximum, rfl, by simpa [optionGreater] using hgreater⟩

section Sizes

variable {lib : Preparing} (hjcs : ∀ value, (lib.jcs value).isSome)
  {invocation : AuthorizedBatchInvocation} {execution : PreparedExecution} {fact : ExecutionFact}
include hjcs

theorem canonicalLength_isSome (value : Value) : (canonicalLength lib value).isSome := by
  simpa [canonicalLength] using hjcs value

theorem within_of_normalize {result : Except ExecutorDispatchError ExecutionFact}
    (h : normalize lib result invocation execution = .execution fact) :
    fact.Within lib invocation.prepared.maxResultBytes := by
  unfold normalize at h
  split at h
  · cases h
  · split at h
    · split at h
      · exact within_of_measuredTerminal h (canonicalLength_isSome hjcs _)
      · rename_i receipt code details partialContent _
        cases partialContent with
        | none => exact within_of_measuredTerminal h rfl
        | some value => exact within_of_measuredTerminal h (canonicalLength_isSome hjcs value)
      · cases h
    · cases h

theorem within_of_terminalAfterCancel {unfinished : BatchTerminal} {grace : GraceCourse}
    (hunfin : unfinished ≠ .execution fact)
    (h : terminalAfterCancel lib invocation execution unfinished grace = .execution fact) :
    fact.Within lib invocation.prepared.maxResultBytes := by
  unfold terminalAfterCancel at h
  split at h
  · exact within_of_normalize hjcs h
  · exact within_of_normalize hjcs h
  · exact absurd h hunfin
  · cases h

/-- Whatever the course of a dispatch, a result it is settled with is within the bound. -/
theorem within_of_runInvocation {course : InvocationCourse}
    (h : runInvocation lib invocation execution course = .execution fact) :
    fact.Within lib invocation.prepared.maxResultBytes := by
  cases course with
  | returned result => exact within_of_normalize hjcs h
  | timedOut grace =>
    exact within_of_terminalAfterCancel hjcs (by simp) h
  | cancelled grace =>
    exact within_of_terminalAfterCancel hjcs (by simp) h

end Sizes

/-! ## What is logged -/

/-- The members published, started and refused so far. -/
structure Logged (published started refused : List Nat) (log : List BatchEvent) : Prop where
  published_eq : publishedMembers log = published
  started_eq : startedMembers log = started
  refused_eq : refusedMembers log = refused

section Logs

variable {published started refused : List Nat} {log : List BatchEvent}

theorem logged_nil : Logged [] [] [] [] := ⟨rfl, rfl, rfl⟩

theorem Logged.concat (h : Logged published started refused log) (event : BatchEvent) :
    Logged (published ++ (published? event.call).toList)
      (started ++ (started? event.call).toList)
      (refused ++ (refused? event.call event.answer).toList) (log ++ [event]) where
  published_eq := by
    rw [publishedMembers, filterMap_append, ← h.published_eq]
    cases hshow : published? event.call <;> simp [publishedMembers, hshow]
  started_eq := by
    rw [startedMembers, filterMap_append, ← h.started_eq]
    cases hshow : started? event.call <;> simp [startedMembers, hshow]
  refused_eq := by
    rw [refusedMembers, filterMap_append, ← h.refused_eq]
    cases hshow : refused? event.call event.answer <;> simp [refusedMembers, hshow]

variable {event : BatchEvent} {index : Nat}

/-- A call that publishes, starts and refuses nothing. -/
theorem Logged.quiet (h : Logged published started refused log)
    (hpub : published? event.call = none)
    (hstarted : started? event.call = none)
    (hrefused : refused? event.call event.answer = none) :
    Logged published started refused (log ++ [event]) := by
  simpa [hpub, hstarted, hrefused] using h.concat event

theorem Logged.start (h : Logged published started refused log)
    (hpub : published? event.call = none)
    (hstarted : started? event.call = some index)
    (hrefused : refused? event.call event.answer = none) :
    Logged published (started ++ [index]) refused (log ++ [event]) := by
  simpa [hpub, hstarted, hrefused] using h.concat event

theorem Logged.publish (h : Logged published started refused log)
    (hpub : published? event.call = some index)
    (hstarted : started? event.call = none)
    (hrefused : refused? event.call event.answer = none) :
    Logged (published ++ [index]) started refused (log ++ [event]) := by
  simpa [hpub, hstarted, hrefused] using h.concat event

theorem Logged.refuse (h : Logged published started [] log)
    (hpub : published? event.call = none)
    (hstarted : started? event.call = none)
    (hrefused : refused? event.call event.answer = some index) :
    Logged published started [index] (log ++ [event]) := by
  simpa [hpub, hstarted, hrefused] using h.concat event

theorem not_publisherSucceeds_concat
    (h : publisherFails event.call event.answer) :
    ¬PublisherSucceeds (log ++ [event]) := by
  intro hsucceeds
  simpa [h] using hsucceeds event (by simp)

end Logs

/-! ## The parts of a run -/

/-- A published result is within the bound of its call. -/
def Measured (lib : Preparing) (_log : List BatchEvent) (call : BatchCall) : Prop :=
  ∀ index invocation execution fact,
    call = .publishTerminal index invocation execution (.execution fact) →
      fact.Within lib invocation.prepared.maxResultBytes

/-- The run ended at a refusal in a step, with everything of the step that was started unsettled. -/
def Abandoned (plan : EffectBatchPlanV1) (log : List BatchEvent) : Prop :=
  ∃ before begun index after, ∃ step ∈ plan.steps, step.indexes = begun ++ index :: after ∧
    (before ++ begun).Pairwise (· < ·) ∧ Logged before (before ++ begun) [index] log

/-- Nothing was refused, and exactly what was started is published, in the order of the model. -/
def Finished (log : List BatchEvent) : Prop :=
  ∃ settled, settled.Pairwise (· < ·) ∧ Logged settled settled [] log

/-- How a run leaves early. -/
def Leaves (plan : EffectBatchPlanV1) (log : List BatchEvent) (_ : BatchRuntimeError) : Prop :=
  PublisherSucceeds log → Finished log ∨ Abandoned plan log

variable {report : EffectBatchReport} {running : List RunningInvocation} {step : EffectBatchStep}
  {rest : List Nat}

namespace Dispatch

variable {lib : Preparing} {plan : EffectBatchPlanV1} {invocations : List AuthorizedBatchInvocation}
  {published started before begun : List Nat} {log : List BatchEvent} {index : Nat}

theorem measured_of_published?_eq_none {call : BatchCall} (h : call.published? = none) :
    Measured lib log call := by
  rintro _ _ _ _ rfl
  cases h

variable {exit : List BatchEvent → BatchRuntimeError → Prop}

theorem ensuresOr_awaitPermit (hlog : Logged published started [] log)
    (hexit : ∀ log e, Logged published started [index] log → exit log e) :
    EnsuresOr (Measured lib) log (awaitPermit index)
      (fun log _ ↦ Logged published started [] log) exit := by
  refine ⟨measured_of_published?_eq_none rfl, ?_⟩
  rintro (_ | _ | _)
  · exact hlog.quiet rfl rfl rfl
  · exact hexit _ _ (hlog.refuse rfl rfl rfl)
  · exact hexit _ _ (hlog.refuse rfl rfl rfl)

variable {invocation : AuthorizedBatchInvocation}

theorem ensuresOr_prepare
    (hlog : Logged published started [] log)
    (hexit : ∀ log e, Logged published started [index] log → exit log e) :
    EnsuresOr (Measured lib) log (prepare index invocation)
      (fun log _ ↦ Logged published started [] log) exit := by
  refine ⟨measured_of_published?_eq_none rfl, ?_⟩
  rintro (_ | _)
  · exact hexit _ _ (hlog.refuse rfl rfl rfl)
  · exact hlog.quiet rfl rfl rfl

variable {execution : PreparedExecution}

theorem ensuresOr_commitStarted
    (hlog : Logged published started [] log)
    (hexit : ∀ log e, ¬PublisherSucceeds log → exit log e) :
    EnsuresOr (Measured lib) log (commitStarted index invocation execution)
      (fun log _ ↦ Logged published (started ++ [index]) [] log) exit := by
  refine ⟨measured_of_published?_eq_none rfl, ?_⟩
  rintro (_ | _)
  · exact hexit _ _ (not_publisherSucceeds_concat rfl)
  · exact hlog.start rfl rfl rfl

theorem ensuresOr_publishTerminal
    {terminal : BatchTerminal}
    (hlog : Logged published started [] log)
    (hterm : ∀ fact, terminal = .execution fact →
      fact.Within lib invocation.prepared.maxResultBytes)
    (hexit : ∀ log e, ¬PublisherSucceeds log → exit log e) :
    EnsuresOr (Measured lib) log (publishTerminal index invocation execution terminal)
      (fun log _ ↦ Logged (published ++ [index]) started [] log) exit := by
  refine ⟨?_, ?_⟩
  · rintro _ _ _ fact ⟨⟩
    exact hterm fact rfl
  · rintro (_ | _)
    · exact hexit _ _ (not_publisherSucceeds_concat rfl)
    · exact hlog.publish rfl rfl rfl

theorem ensuresOr_invocationAt
    (hinvoc : invocations[index]? = some invocation) :
    EnsuresOr (Measured lib) log (invocationAt invocations index)
      (fun log' found ↦ log' = log ∧ found = invocation) exit := by
  unfold invocationAt
  rw [hinvoc]
  exact ⟨rfl, rfl⟩

/-- A member is started, or refused before that. -/
theorem ensuresOr_startMember (hlog : Logged published started [] log)
    (hidx : index < invocations.length)
    (hrefused : ∀ log e, Logged published started [index] log → exit log e)
    (hfailed : ∀ log e, ¬PublisherSucceeds log → exit log e) :
    EnsuresOr (Measured lib) log (startMember invocations index)
      (fun log member ↦ Logged published (started ++ [index]) [] log ∧ member.index = index ∧
        invocations[index]? = some member.invocation) exit := by
  have hinvoc := getElem?_eq_getElem hidx
  refine (ensuresOr_awaitPermit hlog hrefused).bind fun log _ hlog ↦ ?_
  refine (ensuresOr_invocationAt hinvoc).bind ?_
  rintro _ _ ⟨rfl, rfl⟩
  refine (ensuresOr_prepare hlog hrefused).bind fun log execution hlog ↦ ?_
  refine (ensuresOr_commitStarted hlog hfailed).bind fun log _ hlog ↦ ?_
  exact ⟨hlog, rfl, hinvoc⟩

/-- The members of a step are started up to the first refusal or to cancellation. -/
theorem ensuresOr_startMembers (hstep : step ∈ plan.steps)
    (hordered : (before ++ step.indexes).Pairwise (· < ·))
    (hidxs : ∀ index ∈ step.indexes, index < invocations.length)
    (hrest : step.indexes = begun ++ rest) (hlog : Logged before (before ++ begun) [] log)
    (hreport : report.startedIndexes = before ++ begun) (hrunning : running.map (·.index) = begun)
    (hfound : ∀ member ∈ running, invocations[member.index]? = some member.invocation) :
    EnsuresOr (Measured lib) log (startMembers invocations rest report running)
      (fun log result ↦ ∃ begun, begun <+: step.indexes ∧ Logged before (before ++ begun) [] log ∧
        result.1.startedIndexes = before ++ begun ∧ result.1.terminals = report.terminals ∧
        result.2.map (·.index) = begun ∧
        ∀ member ∈ result.2, invocations[member.index]? = some member.invocation)
      (Leaves plan) := by
  induction rest generalizing begun report running log with
  | nil =>
    rw [append_nil] at hrest
    exact ⟨begun, hrest ▸ prefix_rfl, hlog, hreport, rfl, hrunning, hfound⟩
  | cons index rest ih =>
    refine ⟨measured_of_published?_eq_none rfl, ?_⟩
    rintro (_ | _)
    · refine (ensuresOr_startMember (hlog.quiet rfl rfl rfl) (hidxs index (by simp [hrest]))
        ?_ fun log e hfails hsucceeds ↦ absurd hsucceeds hfails).bind ?_
      · intro log e hlog _
        refine .inr ⟨before, begun, index, rest, step, hstep, hrest, ?_, hlog⟩
        rw [hrest, ← append_assoc] at hordered
        exact (pairwise_append.mp hordered).1
      · rintro log member ⟨hlog, hmember, hinvoc⟩
        have hnext : Logged before (before ++ (begun ++ [index])) [] log := by simpa using hlog
        refine ih (by simp [hrest]) hnext (by simp [hreport]) (by simp [hrunning, hmember]) ?_
        intro other hother
        rcases mem_append.mp hother with hother | hother
        · exact hfound other hother
        · rw [mem_singleton.mp hother, hmember]
          exact hinvoc
    · exact ⟨begun, hrest ▸ prefix_append _ _, hlog.quiet rfl rfl rfl, hreport, rfl, hrunning,
        hfound⟩

end Dispatch

/-! ## Buffered terminals -/

/-- The terminal buffered for a member. -/
def Buffered.at? (buffered : Buffered) (index : Nat) : Option (PreparedExecution × BatchTerminal) :=
  buffered[index]?.join

/-- Every terminal buffered is within the bound of the call it is for. -/
def Buffered.Proper (lib : Preparing) (invocations : List AuthorizedBatchInvocation)
    (buffered : Buffered) : Prop :=
  ∀ index entry, buffered.at? index = some entry → ∃ invocation,
    invocations[index]? = some invocation ∧ ∀ fact, entry.2 = .execution fact →
      fact.Within lib invocation.prepared.maxResultBytes

theorem Buffered.at?_replicate (count index : Nat) :
    Buffered.at? (replicate count none) index = none := by
  rw [Buffered.at?, getElem?_replicate]
  split <;> rfl

theorem Buffered.at?_set {buffered : Buffered} {index : Nat} (hidx : index < buffered.length)
    (entry : Option (PreparedExecution × BatchTerminal)) (other : Nat) :
    Buffered.at? (buffered.set index entry) other =
      if index = other then entry else buffered.at? other := by
  rw [Buffered.at?, getElem?_set]
  split
  · rename_i heq
    subst heq
    rfl
  · rfl

namespace Dispatch

variable {lib : Preparing} {plan : EffectBatchPlanV1} {invocations : List AuthorizedBatchInvocation}
  {published started before begun : List Nat} {log : List BatchEvent} {index : Nat}
  {buffered : Buffered}

/-- Everything that runs is buffered, whatever the order in which it ends. -/
theorem ensures_drain (hjcs : ∀ value, (lib.jcs value).isSome)
    (hlog : Logged published started [] log)
    (hfound : ∀ member ∈ running, invocations[member.index]? = some member.invocation)
    (hlen : buffered.length = invocations.length) (hproper : buffered.Proper lib invocations) :
    Ensures (Measured lib) log (drain lib running buffered) fun log result ↦
      Logged published started [] log ∧ result.length = invocations.length ∧
      result.Proper lib invocations ∧
      ∀ index, index ∈ running.map (·.index) ∨ (buffered.at? index).isSome →
        (result.at? index).isSome := by
  -- by the number of dispatches that run: one of them ends at each call
  induction hcount : running.length generalizing running buffered log with
  | zero =>
    rw [length_eq_zero_iff] at hcount
    subst hcount
    rw [drain, if_pos rfl]
    exact ⟨hlog, hlen, hproper, fun index h ↦ h.resolve_left (by simp)⟩
  | succ count ih =>
    have hne : running ≠ [] := by
      rintro rfl
      cases hcount
    rw [drain, if_neg hne]
    refine ⟨measured_of_published?_eq_none rfl, ?_⟩
    rintro ⟨choice, _⟩
    have hmem : running.get choice ∈ running := running.get_mem choice
    have hget := hfound _ hmem
    have hlt : (running.get choice).index < buffered.length := by
      rw [hlen]
      exact (List.getElem?_eq_some_iff.mp hget).1
    refine (ih (hlog.quiet rfl rfl rfl)
      (fun member hmember ↦ hfound member (mem_of_mem_eraseIdx hmember))
      (by rw [length_set, hlen]) ?_ ?_).mono ?_
    · intro index entry hentry
      rw [Buffered.at?_set hlt] at hentry
      split at hentry
      · rename_i heq
        cases hentry
        exact ⟨_, heq ▸ hget, fun fact hfact ↦ within_of_runInvocation hjcs hfact⟩
      · exact hproper index entry hentry
    · rw [length_eraseIdx_of_lt choice.isLt, hcount]
      rfl
    · rintro log result ⟨hlog, hlen, hproper, hholds⟩
      refine ⟨hlog, hlen, hproper, fun index h ↦ hholds index ?_⟩
      rw [Buffered.at?_set hlt]
      split
      · exact .inr rfl
      · rename_i hother
        refine h.imp_left fun hidx ↦ ?_
        obtain ⟨member, hmember, rfl⟩ := mem_map.mp hidx
        obtain ⟨i, hi, rfl⟩ := getElem_of_mem hmember
        refine mem_map.mpr ⟨running[i], mem_eraseIdx_iff_getElem.mpr ⟨i, hi, ?_, rfl⟩, rfl⟩
        rintro rfl
        exact hother rfl

theorem publishBuffered_append_of_published {done : List Nat}
    (hdone : ∀ index ∈ done, index ∈ report.terminals.map Prod.fst) :
    publishBuffered invocations (done ++ rest) report buffered =
      publishBuffered invocations rest report buffered := by
  induction done with
  | nil => rfl
  | cons index done ih =>
    have hidx : report.terminals.any (·.1 = index) := by
      simpa using hdone index mem_cons_self
    rw [cons_append, publishBuffered, if_pos hidx]
    exact ih fun other hother ↦ hdone other (mem_cons_of_mem index hother)

/-- The started members of a step are published in their order. -/
theorem ensuresOr_publishBuffered (hlog : Logged published started [] log)
    (hterms : report.terminals.map Prod.fst = published) (hnodup : (published ++ rest).Nodup)
    (hproper : buffered.Proper lib invocations)
    (hholds : ∀ index ∈ rest, (buffered.at? index).isSome)
    (hlen : buffered.length = invocations.length) :
    EnsuresOr (Measured lib) log (publishBuffered invocations rest report buffered)
      (fun log result ↦ Logged (published ++ rest) started [] log ∧
        result.startedIndexes = report.startedIndexes ∧
        result.terminals.map Prod.fst = published ++ rest) (Leaves plan) := by
  induction rest generalizing published report buffered log with
  | nil => exact ⟨by simpa using hlog, rfl, by simpa using hterms⟩
  | cons index rest ih =>
    obtain ⟨⟨_, _⟩, hentry⟩ := Option.isSome_iff_exists.mp
      (hholds index mem_cons_self)
    obtain ⟨_, hinvoc, hterm⟩ := hproper index _ hentry
    have hfresh : ¬report.terminals.any (·.1 = index) := by
      intro hany
      have hmem : index ∈ report.terminals.map Prod.fst := by simpa using hany
      rw [hterms] at hmem
      exact (disjoint_of_nodup_append hnodup) hmem mem_cons_self
    have hidx : index < buffered.length := by
      rw [hlen]
      exact (List.getElem?_eq_some_iff.mp hinvoc).1
    rw [publishBuffered, if_neg hfresh]
    rw [Buffered.at?] at hentry
    rw [hentry]
    refine (ensuresOr_invocationAt hinvoc).bind ?_
    rintro _ _ ⟨rfl, rfl⟩
    refine (ensuresOr_publishTerminal hlog hterm
      fun log e hfails hsucceeds ↦ absurd hsucceeds hfails).bind fun log _ hlog ↦ ?_
    have hnodup' : (published ++ [index] ++ rest).Nodup := by simpa using hnodup
    have hne : ∀ other ∈ rest, index ≠ other := by
      rintro other hother rfl
      exact (nodup_cons.mp hnodup.of_append_right).1 hother
    rw [append_cons published index rest]
    refine ih hlog ?_ hnodup' ?_ ?_ ?_
    · rw [map_append, hterms]
      rfl
    · intro other entry hother
      rw [Buffered.at?_set hidx] at hother
      split at hother
      · cases hother
      · exact hproper other entry hother
    · intro other hother
      rw [Buffered.at?_set hidx, if_neg (hne other hother)]
      exact hholds other (mem_cons_of_mem index hother)
    · rw [length_set, hlen]

/-- The steps of a plan are run until cancellation, or to a refusal. -/
theorem ensuresOr_runSteps (hjcs : ∀ value, (lib.jcs value).isSome) {steps : List EffectBatchStep}
    (hsteps : ∀ step ∈ steps, step ∈ plan.steps)
    (hordered : (started ++ steps.flatMap indexes).Pairwise (· < ·))
    (hidxs : ∀ index ∈ steps.flatMap indexes, index < invocations.length)
    (hlog : Logged started started [] log) (hreport : report.startedIndexes = started)
    (hterms : report.terminals.map Prod.fst = started) :
    EnsuresOr (Measured lib) log (runSteps lib invocations steps report)
      (fun log _ ↦ Finished log) (Leaves plan) := by
  induction steps generalizing started report log with
  | nil => exact ⟨started, by simpa using hordered, hlog⟩
  | cons step rest ih =>
    rw [flatMap_cons, ← append_assoc] at hordered
    rw [flatMap_cons, forall_mem_append] at hidxs
    obtain ⟨hstep, -, -⟩ := pairwise_append.mp hordered
    refine ⟨measured_of_published?_eq_none rfl, ?_⟩
    rintro (_ | _)
    · have hlog' : Logged started (started ++ []) [] (log ++ [⟨isCancelled, false⟩]) := by
        simpa using hlog.quiet rfl rfl rfl
      refine (ensuresOr_startMembers (hsteps step mem_cons_self) hstep hidxs.1 rfl hlog'
        (by simpa using hreport) rfl (by simp)).bind ?_
      rintro log ⟨_, _⟩ ⟨begun, hbegun, hlog, hstarted, hsame, hrunning, hfound⟩
      have hfront : started ++ begun <+: started ++ step.indexes :=
        (prefix_append_right_inj started).mpr hbegun
      have hordered' : (started ++ begun).Pairwise (· < ·) := hstep.sublist hfront.sublist
      refine ((ensures_drain hjcs hlog hfound (by simp) fun index entry hentry ↦ ?_).lift).bind ?_
      · rw [Buffered.at?_replicate] at hentry
        cases hentry
      rintro log _ ⟨hlog, hlen, hproper, hholds⟩
      rw [hstarted, publishBuffered_append_of_published]
      · refine (ensuresOr_publishBuffered hlog (by rw [hsame, hterms]) hordered'.nodup hproper
          (fun index hidx ↦ hholds index (.inl (hrunning ▸ hidx))) hlen).bind ?_
        rintro log _ ⟨hlog, hres, hpub⟩
        refine ih (fun other hother ↦ hsteps other (mem_cons_of_mem step hother)) ?_ hidxs.2 hlog
          (hres.trans hstarted) hpub
        exact hordered.sublist (hfront.sublist.append_right _)
      · intro index hidx
        rw [hsame, hterms]
        exact hidx
    · exact ⟨started, (pairwise_append.mp hstep).1, hlog.quiet rfl rfl rfl⟩

theorem ensuresOr_check {result : Except BatchRuntimeError Unit}
    {exit : List BatchEvent → BatchRuntimeError → Prop} (hexit : ∀ e, exit log e) :
    EnsuresOr (Measured lib) log (check result) (fun log' _ ↦ log' = log ∧ result = .ok ()) exit := by
  cases result with
  | error e => exact hexit e
  | ok u => exact ⟨rfl, rfl⟩

end Dispatch

/-! ## Runs -/

section Runs

variable {lib : Preparing} {plan : EffectBatchPlanV1} {log : List BatchEvent}

/-- Every run of a plan finishes or is abandoned. -/
theorem ensuresOr_execute (hjcs : ∀ value, (lib.jcs value).isSome) (dispatcher : EffectBatchDispatcher)
    (invocations : List AuthorizedBatchInvocation) (limits : EffectBatchRuntimeLimits)
    (hplan : plan.steps.flatMap indexes = range plan.orderedPreparedDigests.length) :
    EnsuresOr (Measured lib) [] (dispatcher.execute lib plan invocations limits)
      (fun log _ ↦ Finished log) (Leaves plan) := by
  have hnothing : ∀ e, Leaves plan [] e := fun e _ ↦ .inl ⟨[], List.Pairwise.nil, logged_nil⟩
  refine (Dispatch.ensuresOr_check hnothing).bind ?_
  rintro _ _ ⟨rfl, -⟩
  refine (Dispatch.ensuresOr_check hnothing).bind ?_
  rintro _ _ ⟨rfl, hvalid⟩
  simp only [validateInputs, ok_iff] at hvalid
  obtain ⟨⟨hlen, -⟩, -⟩ := hvalid
  refine Dispatch.ensuresOr_runSteps hjcs (fun step hstep ↦ hstep) ?_ ?_ logged_nil rfl rfl
  · rw [hplan]
    exact pairwise_lt_range
  · intro index hidx
    rw [hplan, mem_range] at hidx
    rw [hlen]
    exact hidx

/-- A member leads its step exactly when nothing of the step comes before it. -/
theorem leads_iff (hnodup : (plan.steps.flatMap indexes).Nodup)
    (hstep : step ∈ plan.steps) {begun after : List Nat} {index : Nat}
    (hidxs : step.indexes = begun ++ index :: after) : plan.Leads index ↔ begun = [] := by
  obtain ⟨hwithin, hacross⟩ := nodup_flatMap.mp hnodup
  have : Std.Symm (Function.onFun List.Disjoint indexes) := ⟨fun _ _ h _ hb ha ↦ h ha hb⟩
  constructor
  · rintro ⟨other, hother, hhead⟩
    have hmem : index ∈ other.indexes := mem_of_head? hhead
    have hsame : other = step := by
      by_contra hne
      exact hacross.forall hother hstep hne hmem (by simp [hidxs])
    subst hsame
    have hnodup := hwithin other hstep
    cases begun with
    | nil => rfl
    | cons first rest =>
      rw [hidxs] at hhead hnodup
      cases hhead
      simp at hnodup
  · rintro rfl
    exact ⟨step, hstep, by simp [hidxs]⟩

theorem once_of_pairwise {published : List Nat} (h : published.Pairwise (· < ·)) {index : Nat}
    (hidx : index ∈ published) : published.count index = 1 :=
  count_eq_one_of_mem h.nodup hidx

theorem within_of_atEach (h : AtEach (Measured lib) log) {event : BatchEvent} (hevent : event ∈ log)
    {index : Nat}
    {fact : ExecutionFact}
    (hcall : event.call = publishTerminal index invocation execution (.execution fact)) :
    fact.Within lib invocation.prepared.maxResultBytes := by
  obtain ⟨before, after, rfl⟩ := append_of_mem hevent
  exact h before event after rfl index invocation execution fact hcall

/-- What is abandoned is settled exactly when nothing of its step was started. -/
theorem Abandoned.settled_iff (h : Abandoned plan log)
    (hnodup : (plan.steps.flatMap indexes).Nodup) (hbounded : AtEach (Measured lib) log) :
    Settled lib log ↔ ∀ index ∈ refusedMembers log, plan.Leads index := by
  obtain ⟨before, begun, index, _, _, hstep, hidxs, hordered, hlog⟩ := h
  have hleads := leads_iff hnodup hstep hidxs
  rw [hlog.refused_eq]
  constructor
  · intro hsettled other hother
    rw [mem_singleton.mp hother, hleads]
    by_contra hne
    obtain ⟨member, hmember⟩ := exists_mem_of_ne_nil begun hne
    have hcount := hsettled.once member (by rw [hlog.started_eq]; exact mem_append_right _ hmember)
    rw [hlog.published_eq] at hcount
    have hbef : member ∈ before := count_pos_iff.mp (by omega)
    exact disjoint_of_nodup_append hordered.nodup hbef hmember
  · intro hrefused
    have hbegun := hleads.mp (hrefused index (by simp))
    subst hbegun
    rw [append_nil] at hordered hlog
    refine ⟨?_, ?_, fun event hevent _ _ _ _ ↦ within_of_atEach hbounded hevent⟩
    · rw [hlog.started_eq, hlog.published_eq]
      exact fun index hidx ↦ once_of_pairwise hordered hidx
    · rw [hlog.published_eq]
      exact hordered

theorem Finished.settled (h : Finished log) (hbounded : AtEach (Measured lib) log) :
    Settled lib log := by
  obtain ⟨settled, hordered, hlog⟩ := h
  refine ⟨?_, ?_, fun event hevent _ _ _ _ ↦ within_of_atEach hbounded hevent⟩
  · rw [hlog.started_eq, hlog.published_eq]
    exact fun index hidx ↦ once_of_pairwise hordered hidx
  · rw [hlog.published_eq]
    exact hordered

end Runs

/-! ## Two runs -/

/-- A call that reads one file. -/
def oneRead : PreparedToolCall where
  modelCallId := "read"
  toolName := "read"
  toolRevision := "1"
  normalizedArguments := "null"
  inputDigest := "digest"
  requirements := { capabilities := [.filesystemRead], maxDurationMs := 1, maxOutputBytes := 4 }
  replayClass := .readOnly
  contractVersion := 2
  invocationAccesses := some [{ accessNamespace := .filesystem, resourceKey := "file", mode := .read }]
  maxResultBytes := some 4

def twoByTwo : EffectBatchLimitsV1 where
  maxIntents := 2
  maxAccessesPerIntent := 2
  maxTotalAccesses := 2
  maxParallelReads := 2
  maxBufferedResultBytes := 8
  positive := by decide

def readInvocation : AuthorizedBatchInvocation where
  invocationId := ⟨"read-invocation", by simp⟩
  prepared := oneRead
  grant := {
    grantId := ⟨"read-grant", by simp⟩
    invocationId := ⟨"read-invocation", by simp⟩
    preparedDigest := "digest" }
  receiptId := "receipt"

def twoAtOnce : EffectBatchRuntimeLimits :=
  { maxParallelReads := 2, queueTimeout := 1, invocationTimeout := 1, cancellationGrace := 1 }

def readExecution : PreparedExecution :=
  { executorId := "executor", executorRevision := "1", dispatchAttemptId := "attempt" }

/-- The run of one read, whose executor loses track of it. -/
def lostReadLog : List BatchEvent :=
  [⟨.isCancelled, false⟩, ⟨.isCancelled, false⟩, ⟨.acquirePermit 0, .granted⟩,
    ⟨.prepare 0 readInvocation, .ok readExecution⟩,
    ⟨.commitStarted 0 readInvocation readExecution, .ok ()⟩,
    ⟨.next [⟨0, readInvocation, readExecution⟩], ((⟨0, Nat.zero_lt_one⟩ : Fin 1),
      InvocationCourse.returned (.error .executorStateUnknown))⟩,
    ⟨.publishTerminal 0 readInvocation readExecution .uncertain, .ok ()⟩]

theorem reaches_drain_singleton (lib : Preparing) (member : RunningInvocation) (buffered : Buffered)
    (course : InvocationCourse) :
    Reaches (Dispatch.drain lib [member] buffered)
      [⟨next [member], ((⟨0, Nat.zero_lt_one⟩ : Fin [member].length), course)⟩]
      (.done (buffered.set member.index
        (some (member.execution, runInvocation lib member.invocation member.execution course)))) := by
  rw [Dispatch.drain, if_neg (cons_ne_nil _ _)]
  refine .step ?_
  rw [Dispatch.drain]
  exact .refl _

/-- Two reads in one group, the second of which gets no permit in time. -/
def abandonedLog : List BatchEvent :=
  [⟨.isCancelled, false⟩, ⟨.isCancelled, false⟩, ⟨.acquirePermit 0, .granted⟩,
    ⟨.prepare 0 readInvocation, .ok readExecution⟩,
    ⟨.commitStarted 0 readInvocation readExecution, .ok ()⟩,
    ⟨.isCancelled, false⟩, ⟨.acquirePermit 1, .timedOut⟩]

end Garive
