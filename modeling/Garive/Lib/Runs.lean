import Garive.Lib.Calls

/-!
# Programs in a world

A world says what a call may answer in a state and what it leaves behind. In a given world a program
has runs (`Runs`), and a program that may leave early has runs that succeed and runs that fail. The
lemmas take the runs of a program apart along its steps, in both directions, so that one description
of the runs of a part serves to bound what can happen and to show that something does.
-/

namespace Garive

/-- The answers and next states a call may have in a state. -/
abbrev World (I : Interface) (σ : Type) := σ → (c : I.Call) → I.Answer c → σ → Prop

namespace Program

variable {I : Interface} {σ α β ε δ : Type} {world : World I σ} {s t : σ} {a : α} {b : β} {e : ε}

/-- A run from a state returns the value and leaves the state. -/
inductive Runs (world : World I σ) : σ → Program I α → α → σ → Prop
  | done (s : σ) (a : α) : Runs world s (done a) a s
  | call {s mid last : σ} {c : I.Call} {next : I.Answer c → Program I α} {answer : I.Answer c} {a : α}
    (hcall : world s c answer mid) (hnext : Runs world mid (next answer) a last) :
    Runs world s (call c next) a last

theorem runs_done_iff {a' : α} : Runs world s (done a') a t ↔ a = a' ∧ t = s := by
  constructor
  · rintro ⟨⟩
    exact ⟨rfl, rfl⟩
  · rintro ⟨rfl, rfl⟩
    exact .done _ _

theorem runs_call_iff {c : I.Call} {next : I.Answer c → Program I α} :
    Runs world s (call c next) a t ↔ ∃ answer mid, world s c answer mid ∧
      Runs world mid (next answer) a t := by
  constructor
  · rintro ⟨⟩
    exact ⟨_, _, ‹_›, ‹_›⟩
  · rintro ⟨answer, mid, hcall, hnext⟩
    exact .call hcall hnext

theorem runs_ask_iff {c : I.Call} {answer : I.Answer c} :
    Runs world s (ask c) answer t ↔ world s c answer t := by
  rw [ask, runs_call_iff]
  constructor
  · rintro ⟨_, _, hcall, hdone⟩
    obtain ⟨rfl, rfl⟩ := runs_done_iff.mp hdone
    exact hcall
  · intro hcall
    exact ⟨answer, t, hcall, .done _ _⟩

theorem runs_bind_iff {p : Program I α} {f : α → Program I β} :
    Runs world s (p >>= f) b t ↔ ∃ a mid, Runs world s p a mid ∧ Runs world mid (f a) b t := by
  induction p generalizing s with
  | done a => simp [runs_done_iff]
  | call c next ih =>
    simp only [call_bind, runs_call_iff, ih]
    constructor
    · rintro ⟨answer, mid, hcall, a, last, hnext, hf⟩
      exact ⟨a, last, ⟨answer, mid, hcall, hnext⟩, hf⟩
    · rintro ⟨a, last, ⟨answer, mid, hcall, hnext⟩, hf⟩
      exact ⟨answer, mid, hcall, a, last, hnext, hf⟩

/-! ## Programs that may leave early -/

/-- A run that does not leave early. -/
def Succeeds (world : World I σ) (s : σ) (p : ExceptT ε (Program I) α) (a : α) (t : σ) : Prop :=
  Runs world s p.run (.ok a) t

/-- A run that leaves early. -/
def Fails (world : World I σ) (s : σ) (p : ExceptT ε (Program I) α) (e : ε) (t : σ) : Prop :=
  Runs world s p.run (.error e) t

section Early

variable {p : ExceptT ε (Program I) α} {f : α → ExceptT ε (Program I) β}

@[simp] theorem succeeds_pure {a' : α} :
    Succeeds world s (pure a' : ExceptT ε (Program I) α) a t ↔ a = a' ∧ t = s := by
  refine runs_done_iff.trans ?_
  simp

@[simp] theorem fails_pure {a' : α} : ¬Fails world s (pure a' : ExceptT ε (Program I) α) e t :=
  fun h ↦ nomatch (runs_done_iff.mp h).1

@[simp] theorem succeeds_throw {e : ε} :
    ¬Succeeds world s (throw e : ExceptT ε (Program I) α) a t :=
  fun h ↦ nomatch (runs_done_iff.mp h).1

@[simp] theorem fails_throw {e' : ε} :
    Fails world s (throw e' : ExceptT ε (Program I) α) e t ↔ e = e' ∧ t = s := by
  refine runs_done_iff.trans ?_
  simp

theorem succeeds_bind : Succeeds world s (p >>= f) b t ↔ ∃ a mid, Succeeds world s p a mid ∧
    Succeeds world mid (f a) b t := by
  unfold Succeeds
  rw [ExceptT.run_bind, runs_bind_iff]
  constructor
  · rintro ⟨_ | a, mid, hp, hf⟩
    · exact absurd hf succeeds_throw
    · exact ⟨a, mid, hp, hf⟩
  · rintro ⟨a, mid, hp, hf⟩
    exact ⟨.ok a, mid, hp, hf⟩

theorem fails_bind : Fails world s (p >>= f) e t ↔ Fails world s p e t ∨
    ∃ a mid, Succeeds world s p a mid ∧ Fails world mid (f a) e t := by
  unfold Fails Succeeds
  rw [ExceptT.run_bind, runs_bind_iff]
  constructor
  · rintro ⟨_ | a, mid, hp, hf⟩
    · obtain ⟨rfl, rfl⟩ := fails_throw.mp hf
      exact .inl hp
    · exact .inr ⟨a, mid, hp, hf⟩
  · rintro (hp | ⟨a, mid, hp, hf⟩)
    · exact ⟨.error e, t, hp, fails_throw.mpr ⟨rfl, rfl⟩⟩
    · exact ⟨.ok a, mid, hp, hf⟩

theorem run_lift (p : Program I α) :
    (monadLift p : ExceptT ε (Program I) α).run = p >>= fun a ↦ done (Except.ok a) := rfl

theorem succeeds_lift {p : Program I α} :
    Succeeds world s (monadLift p : ExceptT ε (Program I) α) a t ↔ Runs world s p a t := by
  rw [Succeeds, run_lift, runs_bind_iff]
  simp [runs_done_iff]

theorem fails_lift {p : Program I α} : ¬Fails world s (monadLift p : ExceptT ε (Program I) α) e t := by
  rw [Fails, run_lift, runs_bind_iff]
  simp [runs_done_iff]

/-- Replaces the error of a program that leaves early. -/
def mapFailure (g : ε → δ) (p : ExceptT ε (Program I) α) : ExceptT δ (Program I) α := do
  match ← (monadLift p.run : ExceptT δ (Program I) (Except ε α)) with
  | .ok a => pure a
  | .error e => throw (g e)

theorem succeeds_mapFailure {g : ε → δ} :
    Succeeds world s (mapFailure g p) a t ↔ Succeeds world s p a t := by
  simp only [mapFailure, succeeds_bind, succeeds_lift]
  constructor
  · rintro ⟨_ | _, _, hp, h⟩
    · exact absurd h succeeds_throw
    · obtain ⟨rfl, rfl⟩ := succeeds_pure.mp h
      exact hp
  · intro hp
    exact ⟨.ok a, t, hp, succeeds_pure.mpr ⟨rfl, rfl⟩⟩

theorem fails_mapFailure {g : ε → δ} {d : δ} :
    Fails world s (mapFailure g p) d t ↔ ∃ e, Fails world s p e t ∧ d = g e := by
  simp only [mapFailure, fails_bind, succeeds_lift, fails_lift, false_or]
  constructor
  · rintro ⟨e | _, _, hp, h⟩
    · obtain ⟨rfl, rfl⟩ := fails_throw.mp h
      exact ⟨e, hp, rfl⟩
    · exact absurd h fails_pure
  · rintro ⟨e, hp, rfl⟩
    exact ⟨.error e, t, hp, fails_throw.mpr ⟨rfl, rfl⟩⟩

end Early

end Program

end Garive
