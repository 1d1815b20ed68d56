import Garive.Runtime.Recovery
import Mathlib.Data.List.Find

/-!
# What the positions say

The positions recovery derives, told from the facts: which last facts of a turn's requests,
invocations and interactions let a position be derived, and which position they give.
-/

namespace Garive

/-- The elements of a list with at most one element are equal. -/
theorem eq_of_length_le_one {α : Type} {l : List α} (h : l.length ≤ 1) {a b : α} (ha : a ∈ l)
    (hb : b ∈ l) : a = b := by
  match l, h with
  | [_], _ => rw [List.mem_singleton.mp ha, List.mem_singleton.mp hb]

/-- A list without repetitions has at most one element if all its elements are equal. -/
theorem length_le_one_iff_of_nodup {α : Type} {l : List α} (h : l.Nodup) :
    l.length ≤ 1 ↔ ∀ a ∈ l, ∀ b ∈ l, a = b := by
  refine ⟨fun hlen a ha b hb ↦ eq_of_length_le_one hlen ha hb, fun hall ↦ ?_⟩
  match l, h with
  | [], _ => simp
  | [_], _ => simp
  | a :: b :: _, h =>
    have hab : a = b := hall a (by simp) b (by simp)
    simp [hab] at h

namespace RuntimeTurn

/-! ## One unfinished position -/

section Positions

variable {β κ α T : Type} [DecidableEq T] {absent terminal v w : T}

/-- A position that is neither absent nor final. -/
def unfinished (absent terminal : T) (r : Except RuntimeCommandError T) : Bool :=
  match r with
  | .ok t => t ≠ absent ∧ t ≠ terminal
  | .error _ => false

theorem unfinished_eq_true_iff {r : Except RuntimeCommandError T} :
    unfinished absent terminal r ↔ ∃ t, r = .ok t ∧ t ≠ absent ∧ t ≠ terminal := by
  cases r <;> simp [unfinished]

/-- The position of a list, from the positions of its entries. -/
theorem positions_eq_ok_iff {l : List β} {f : β → Except RuntimeCommandError T} :
    positions (l.map f) absent terminal = .ok v ↔
      (∀ b ∈ l, ∃ t, f b = .ok t) ∧
      (l.filter fun b ↦ unfinished absent terminal (f b)).length ≤ 1 ∧
      ((l = [] ∧ v = absent) ∨
        (∃ b ∈ l, unfinished absent terminal (f b) ∧ f b = .ok v) ∨
        (l ≠ [] ∧ (∀ b ∈ l, unfinished absent terminal (f b) = false) ∧ v = terminal)) := by
  by_cases hlisted : ∀ b ∈ l, ∃ t, f b = .ok t
  swap
  · refine iff_of_false (fun h ↦ hlisted ?_) (fun h ↦ hlisted h.1)
    simp only [positions, bind_eq_ok_iff, collect_eq_ok_iff] at h
    obtain ⟨values, hvalues, -⟩ := h
    intro b hb
    have hmem : f b ∈ values.map .ok := hvalues ▸ List.mem_map_of_mem hb
    obtain ⟨t, -, ht⟩ := List.mem_map.mp hmem
    exact ⟨t, ht.symm⟩
  -- Each entry has a value, so the values are those of a function on the entries.
  have hchoice : ∀ b, ∃ t, b ∈ l → f b = .ok t := by
    intro b
    by_cases hb : b ∈ l
    · obtain ⟨t, ht⟩ := hlisted b hb
      exact ⟨t, fun _ ↦ ht⟩
    · exact ⟨absent, fun hmem ↦ absurd hmem hb⟩
  choose g hg using hchoice
  have hcollect : collect (l.map f) = .ok (l.map g) := by
    rw [collect_eq_ok_iff, List.map_map]
    exact List.map_congr_left hg
  have hunfin : ∀ b ∈ l, unfinished absent terminal (f b) = decide (g b ≠ absent ∧ g b ≠ terminal) := by
    intro b hb
    rw [hg b hb]
    rfl
  have hfilter : ((l.map g).filter fun t ↦ t ≠ absent ∧ t ≠ terminal).length
      = (l.filter fun b ↦ unfinished absent terminal (f b)).length := by
    rw [List.filter_map, List.length_map, List.filter_congr hunfin]
    rfl
  have hfind : (l.map g).find? (fun t ↦ t ≠ absent ∧ t ≠ terminal)
      = (l.find? fun b ↦ unfinished absent terminal (f b)).map g := by
    rw [List.find?_map, List.find?_congr hunfin]
    rfl
  simp only [positions, hcollect, ok_bind, List.map_eq_nil_iff, hfilter, hfind]
  by_cases hnil : l = []
  · subst hnil
    simpa using eq_comm
  simp only [if_neg hnil, ok_iff]
  rw [and_iff_right hlisted]
  refine and_congr_right fun hlen ↦ ?_
  cases hfirst : l.find? fun b ↦ unfinished absent terminal (f b) with
  | none =>
    have hnone : ∀ b ∈ l, unfinished absent terminal (f b) = false := by
      simpa using hfirst
    constructor
    · intro hv
      exact .inr (.inr ⟨hnil, hnone, hv.symm⟩)
    · rintro (⟨hempty, -⟩ | ⟨b, hb, hopen, -⟩ | ⟨-, -, hv⟩)
      · exact absurd hempty hnil
      · rw [hnone b hb] at hopen
        cases hopen
      · exact hv.symm
  | some first =>
    have hmem : first ∈ l := List.mem_of_find?_eq_some hfirst
    have hopen : unfinished absent terminal (f first) :=
      List.find?_some (p := fun b ↦ unfinished absent terminal (f b)) hfirst
    constructor
    · rintro rfl
      exact .inr (.inl ⟨first, hmem, hopen, hg first hmem⟩)
    · rintro (⟨hempty, -⟩ | ⟨b, hb, hbopen, hv⟩ | ⟨-, hnone, -⟩)
      · exact absurd hempty hnil
      · have hsame : b = first :=
          eq_of_length_le_one hlen (List.mem_filter.mpr ⟨hb, hbopen⟩)
            (List.mem_filter.mpr ⟨hmem, hopen⟩)
        rw [hsame, hg first hmem, Except.ok.injEq] at hv
        exact hv
      · rw [hnone first hmem] at hopen
        cases hopen

/-- The last fact with a key. -/
def IsLast (key : DurableFact → Option κ) [DecidableEq κ] (facts : List DurableFact) (k : κ)
    (fact : DurableFact) : Prop :=
  rfind? (key · = some k) facts = some fact

theorem IsLast.unique [DecidableEq κ] {key : DurableFact → Option κ} {facts : List DurableFact}
    {k : κ} {fact fact' : DurableFact} (h : IsLast key facts k fact)
    (h' : IsLast key facts k fact') : fact = fact' :=
  Option.some.inj (h.symm.trans h')

variable [Ord κ] [Std.TransOrd κ] [Std.LawfulEqOrd κ] [DecidableEq κ]
  {key : DurableFact → Option κ} {facts : List DurableFact}
  {f : DurableFact → Except RuntimeCommandError T}

theorem mem_toList_latestBy_iff {entry : κ × DurableFact} :
    entry ∈ (latestBy key facts).toList ↔ IsLast key facts entry.1 entry.2 := by
  rw [IsLast, ← get?_latestBy]
  exact Std.ExtTreeMap.mem_toList_iff_getElem?_eq_some

/-- The last facts by key tell a position: each stands for one, and at most one of them is
unfinished. -/
@[mk_iff tells_def]
structure Tells (key : DurableFact → Option κ) (facts : List DurableFact)
    (f : DurableFact → Except RuntimeCommandError T) (absent terminal : T) : Prop where
  listed : ∀ k fact, IsLast key facts k fact → ∃ t, f fact = .ok t
  single : ∀ k k' fact fact', IsLast key facts k fact → IsLast key facts k' fact' →
    unfinished absent terminal (f fact) = true → unfinished absent terminal (f fact') = true → k = k'

theorem tells_iff : Tells key facts f absent terminal ↔
    (∀ entry ∈ (latestBy key facts).toList, ∃ t, f entry.2 = .ok t) ∧
      ∀ a ∈ (latestBy key facts).toList.filter (fun b ↦ unfinished absent terminal (f b.2)),
        ∀ b ∈ (latestBy key facts).toList.filter (fun b ↦ unfinished absent terminal (f b.2)),
          a = b := by
  simp only [List.mem_filter, mem_toList_latestBy_iff, Prod.forall, Prod.mk.injEq, and_imp]
  constructor
  · rintro ⟨hlisted, hsingle⟩
    refine ⟨hlisted, fun k fact hlast hopen k' fact' hlast' hopen' ↦ ?_⟩
    obtain rfl := hsingle k k' fact fact' hlast hlast' hopen hopen'
    exact ⟨rfl, hlast.unique hlast'⟩
  · rintro ⟨hlisted, hall⟩
    exact ⟨hlisted, fun k k' fact fact' hlast hlast' hopen hopen' ↦
      (hall k fact hlast hopen k' fact' hlast' hopen').1⟩

/-- The position that the last facts by key give. -/
theorem positions_latestBy_iff :
    positions ((latestBy key facts).toList.map fun entry ↦ f entry.2) absent terminal = .ok v ↔
      Tells key facts f absent terminal ∧
      (((∀ k fact, ¬IsLast key facts k fact) ∧ v = absent) ∨
        (∃ k fact, IsLast key facts k fact ∧ unfinished absent terminal (f fact) ∧
          f fact = .ok v) ∨
        ((∃ k fact, IsLast key facts k fact) ∧
          (∀ k fact, IsLast key facts k fact → unfinished absent terminal (f fact) = false) ∧
          v = terminal)) := by
  rw [positions_eq_ok_iff, length_le_one_iff_of_nodup ((Map.nodup_toList _).filter _)]
  have hnil : (latestBy key facts).toList = [] ↔ ∀ k fact, ¬IsLast key facts k fact := by
    rw [List.eq_nil_iff_forall_not_mem, Prod.forall]
    simp only [mem_toList_latestBy_iff]
  rw [tells_iff, ← hnil, and_assoc]
  refine and_congr_right fun _ ↦ and_congr_right fun _ ↦ or_congr_right ?_
  rw [Ne, hnil]
  simp only [Prod.exists, Prod.forall, mem_toList_latestBy_iff, not_forall, not_not]

/-- A position can be derived exactly when the last facts tell one. -/
theorem exists_positions_latestBy_iff :
    (∃ v, positions ((latestBy key facts).toList.map fun entry ↦ f entry.2) absent terminal = .ok v)
      ↔ Tells key facts f absent terminal := by
  simp only [positions_latestBy_iff, exists_and_left, and_iff_left_iff_imp]
  intro htells
  by_cases hopen : ∃ k fact, IsLast key facts k fact ∧ unfinished absent terminal (f fact)
  · obtain ⟨k, fact, hlast, hunfin⟩ := hopen
    obtain ⟨t, ht⟩ := htells.listed k fact hlast
    exact ⟨t, .inr (.inl ⟨k, fact, hlast, hunfin, ht⟩)⟩
  · have hclosed : ∀ k fact, IsLast key facts k fact → unfinished absent terminal (f fact) = false :=
      fun k fact hlast ↦ Bool.eq_false_iff.mpr fun h ↦ hopen ⟨k, fact, hlast, h⟩
    by_cases hany : ∃ k fact, IsLast key facts k fact
    · exact ⟨terminal, .inr (.inr ⟨hany, hclosed, rfl⟩)⟩
    · refine ⟨absent, .inl ⟨fun k fact hlast ↦ hany ⟨k, fact, hlast⟩, rfl⟩⟩

/-- The derived position is an unfinished one when some last fact stands for it. -/
theorem positions_latestBy_eq_iff
    (h : positions ((latestBy key facts).toList.map fun entry ↦ f entry.2) absent terminal = .ok v)
    (habsent : w ≠ absent) (hterm : w ≠ terminal) :
    v = w ↔ ∃ k fact, IsLast key facts k fact ∧ f fact = .ok w := by
  obtain ⟨htells, hv⟩ := positions_latestBy_iff.mp h
  have hopen : ∀ {fact}, f fact = .ok w → unfinished absent terminal (f fact) :=
    fun hw ↦ unfinished_eq_true_iff.mpr ⟨w, hw, habsent, hterm⟩
  constructor
  · rintro rfl
    rcases hv with ⟨-, hv⟩ | ⟨k, fact, hlast, -, hv⟩ | ⟨-, -, hv⟩
    · exact absurd hv habsent
    · exact ⟨k, fact, hlast, hv⟩
    · exact absurd hv hterm
  · rintro ⟨k, fact, hlast, hw⟩
    rcases hv with ⟨hnone, -⟩ | ⟨k', fact', hlast', hopen', hv⟩ | ⟨-, hclosed, -⟩
    · exact absurd hlast (hnone k fact)
    · obtain rfl := htells.single k k' fact fact' hlast hlast' (hopen hw) hopen'
      obtain rfl := hlast.unique hlast'
      rw [hw, Except.ok.injEq] at hv
      exact hv.symm
    · have hfalse := hclosed k fact hlast
      rw [hopen hw] at hfalse
      cases hfalse

end Positions

/-! ## Interactions -/

section Interactions

variable {lib : Externals} {execution : ExecutionId} {facts : List DurableFact}

/-- The interaction a fact of the execution opens or closes, if it can be read. -/
def interactionId? (lib : Externals) (execution : ExecutionId) (fact : DurableFact) :
    Option String :=
  (interactionOf lib execution fact).toOption.join

/-- Every fact about an interaction of the execution names it. -/
def Named (lib : Externals) (execution : ExecutionId) (facts : List DurableFact) : Prop :=
  ∀ fact ∈ facts, ∃ id, interactionOf lib execution fact = .ok id

/-- The last fact about the interaction asks for an answer. -/
def Pending (lib : Externals) (execution : ExecutionId) (facts : List DurableFact) (id : String) :
    Prop :=
  ∃ fact, IsLast (interactionId? lib execution) facts id fact ∧
    hasKind .interactionRequested fact = true

theorem interactions_eq_ok_iff {start found : Map String Bool} :
    interactions lib execution start facts = .ok found ↔ Named lib execution facts ∧
      found = facts.foldl (fun found fact ↦ found.write ((interactionId? lib execution fact).map
        (·, hasKind .interactionRequested fact))) start := by
  induction facts generalizing start with
  | nil => simp [interactions, Named, eq_comm]
  | cons fact rest ih =>
    simp only [interactions, bind_eq_ok_iff, ih, Named, List.forall_mem_cons, List.foldl_cons]
    cases hid : interactionOf lib execution fact with
    | error e => simp
    | ok id =>
      have hread : interactionId? lib execution fact = id := by
        rw [interactionId?, hid]
        rfl
      rw [hread]
      cases id with
      | none => simp [Map.write]
      | some id => simp [Map.write]

/-- The interactions of the execution, with whether they still await an answer. -/
def interactionTable (lib : Externals) (execution : ExecutionId) (facts : List DurableFact) :
    Map String Bool :=
  facts.foldl (fun found fact ↦ found.write ((interactionId? lib execution fact).map
    (·, hasKind .interactionRequested fact))) ∅

theorem get?_interactionTable_iff {id : String} :
    (interactionTable lib execution facts)[id]? = some true ↔ Pending lib execution facts id := by
  rw [interactionTable, get?_foldl_write, lastWrite_eq_some_iff]
  have htest : (fun fact ↦ ((interactionId? lib execution fact).map
      (·, hasKind .interactionRequested fact)).any (·.1 == id))
      = (fun fact ↦ decide (interactionId? lib execution fact = some id)) := by
    funext fact
    cases interactionId? lib execution fact with
    | none => rfl
    | some found => simp [beq_eq_decide]
  rw [htest]
  refine exists_congr fun fact ↦ and_congr_right fun hlast ↦ ?_
  have hid : interactionId? lib execution fact = some id := by simpa using rfind?_some hlast
  simp [hid]

theorem mem_pending_iff {entry : String × Bool} :
    entry ∈ (interactionTable lib execution facts).toList.filter (·.2) ↔
      entry.2 ∧ Pending lib execution facts entry.1 := by
  rw [List.mem_filter, and_comm, ← get?_interactionTable_iff]
  refine and_congr_right fun hpend ↦ ?_
  rw [← hpend]
  exact Std.ExtTreeMap.mem_toList_iff_getElem?_eq_some

/-- The effect position: a pending interaction comes before the invocations. -/
theorem effectPosition_eq_ok_iff {v : EffectRecoveryPosition} :
    effectPosition lib facts execution = .ok v ↔
      Named lib execution facts ∧
      (∀ id id', Pending lib execution facts id → Pending lib execution facts id' → id = id') ∧
      (((∃ id, Pending lib execution facts id) ∧ v = .interactionRequested) ∨
        ((∀ id, ¬Pending lib execution facts id) ∧
          positions ((latestBy (toolOf execution) facts).toList.map fun entry ↦
            effectKindPosition facts entry.2) .none .terminal = .ok v)) := by
  simp only [effectPosition, ok_iff, interactions_eq_ok_iff]
  rw [← interactionTable]
  have hsingle : ((interactionTable lib execution facts).toList.filter (·.2)).length ≤ 1 ↔
      ∀ id id', Pending lib execution facts id → Pending lib execution facts id' → id = id' := by
    rw [length_le_one_iff_of_nodup ((Map.nodup_toList _).filter _)]
    simp only [mem_pending_iff, Prod.forall, Prod.mk.injEq]
    constructor
    · intro h id id' hid hid'
      exact (h id true ⟨rfl, hid⟩ id' true ⟨rfl, hid'⟩).1
    · rintro h id _ ⟨rfl, hid⟩ id' _ ⟨rfl, hid'⟩
      exact ⟨h id id' hid hid', rfl⟩
  have hnil : (interactionTable lib execution facts).toList.filter (·.2) = [] ↔
      ∀ id, ¬Pending lib execution facts id := by
    simp only [List.eq_nil_iff_forall_not_mem, mem_pending_iff, Prod.forall, not_and,
      Bool.forall_bool, forall_const, reduceCtorEq, false_imp_iff, true_and]
  constructor
  · rintro ⟨_, ⟨hnamed, rfl⟩, hlen, hrest⟩
    refine ⟨hnamed, hsingle.mp hlen, ?_⟩
    by_cases hpend : (interactionTable lib execution facts).toList.filter (·.2) = []
    · rw [if_neg (by simpa using hpend)] at hrest
      exact .inr ⟨hnil.mp hpend, hrest⟩
    · rw [if_pos hpend, Except.ok.injEq] at hrest
      exact .inl ⟨not_forall_not.mp (mt hnil.mpr hpend), hrest.symm⟩
  · rintro ⟨hnamed, hids, hrest⟩
    refine ⟨_, ⟨hnamed, rfl⟩, hsingle.mpr hids, ?_⟩
    rcases hrest with ⟨⟨id, hid⟩, rfl⟩ | ⟨hnone, hrest⟩
    · rw [if_pos fun hempty ↦ hnil.mp hempty id hid]
    · rw [if_neg (by simpa using hnil.mpr hnone), hrest]

end Interactions

/-! ## The derivation -/

/-- What the derivation reads off the facts of a turn, for the execution that started last. -/
structure Derived (lib : Externals) (facts : List DurableFact) (execution : ExecutionId)
    (recovery : RuntimeRecoverySnapshot) : Prop where
  started : ∃ fact value, rfind? (hasKind .executionStarted) facts = some fact ∧
    fact.executionId = some execution ∧ payload lib fact = .ok value ∧
    unsigned value "recovery_ordinal" = .ok recovery.recoveryOrdinal
  position : ∃ turn latest, rfind? (fun fact ↦ isTurnLifecycle fact.kind) facts = some turn ∧
    rfind? (fun fact ↦ ofExecution execution fact && fact.kind.ns? == some .execution) facts
      = some latest ∧ executionKindPosition turn.kind latest.kind = .ok recovery.execution
  model : modelPosition facts execution = .ok recovery.model
  effect : effectPosition lib facts execution = .ok recovery.effect
  dispatch : dispatchPending recovery.model recovery.effect ≤ 1

theorem deriveRuntimeRecovery_eq_ok_iff {lib : Externals} {turn : TurnSnapshot}
    {maxRecoveries : Nat} {recovery : RuntimeRecoverySnapshot} :
    deriveRuntimeRecovery lib turn maxRecoveries = .ok recovery ↔
      maxRecoveries ≠ 0 ∧ recovery.maxRecoveries = maxRecoveries ∧
        ∃ execution, Derived lib turn.facts execution recovery := by
  simp only [deriveRuntimeRecovery, latestExecution, executionPosition, ok_iff,
    Option.bind_eq_some_iff]
  -- The start of the execution that started last is the last start of any.
  have hsame : ∀ {fact : DurableFact} {execution : ExecutionId},
      rfind? (hasKind .executionStarted) turn.facts = some fact → fact.executionId = some execution →
      rfind? (fun fact ↦ hasKind .executionStarted fact && ofExecution execution fact) turn.facts
        = some fact := by
    intro fact execution hfact hexec
    refine rfind?_of_imp (fun other _ hother ↦ (Bool.and_eq_true_iff.mp hother).1) hfact ?_
    simpa [ofExecution, hexec] using rfind?_some hfact
  constructor
  · rintro ⟨hnonempty, execution, ⟨fact, hfact, hexec⟩, position, ⟨lifecycle, hlife, latest,
      hlatest, hposition⟩, model, hmodel, effect, heffect, hdispatch, started, hstarted, value,
      hvalue, _, hord, rfl⟩
    rw [hsame hfact hexec, Option.some.injEq] at hstarted
    subst hstarted
    exact ⟨fun hzero ↦ hnonempty (.inl hzero), rfl, execution,
      ⟨fact, value, hfact, hexec, hvalue, hord⟩,
      ⟨lifecycle, latest, hlife, hlatest, hposition⟩, hmodel, heffect, hdispatch⟩
  · rintro ⟨hmax, rfl, execution, h⟩
    obtain ⟨fact, value, hfact, hexec, hvalue, hord⟩ := h.started
    obtain ⟨lifecycle, latest, hlife, hlatest, hposition⟩ := h.position
    have hne : turn.facts ≠ [] := List.ne_nil_of_mem (mem_of_rfind? hfact)
    exact ⟨not_or.mpr ⟨hmax, hne⟩, execution, ⟨fact, hfact, hexec⟩, _,
      ⟨lifecycle, hlife, latest, hlatest, hposition⟩, _, h.model, _, h.effect, h.dispatch,
      fact, hsame hfact hexec, value, hvalue, _, hord, rfl⟩

end RuntimeTurn

end Garive
