import Mathlib.Data.List.Induction

/-!
# Machines, runs and simulations

A machine answers each input and moves to a next state. A run feeds it a list of inputs; what holds
initially and survives every step holds after every run, and two machines that answer related states
alike and move to related states stay related along every run.

The rules are stated with the answers of the run so far, because what a state means is often a
statement about its history: a counter counts the answers of a certain kind.
-/

namespace Garive

section EachAfter

variable {α : Type} {P : List α → α → Prop} {xs : List α} {x : α}

/-- Each element of a list stands in a relation to the elements before it. -/
def EachAfter (P : List α → α → Prop) (xs : List α) : Prop :=
  ∀ before x after, xs = before ++ x :: after → P before x

theorem eachAfter_nil : EachAfter P [] := by
  intro before x after h
  simp at h

theorem eachAfter_concat : EachAfter P (xs ++ [x]) ↔ EachAfter P xs ∧ P xs x := by
  constructor
  · intro h
    exact ⟨fun before y after heq ↦ h before y (after ++ [x]) (by simp [heq]), h xs x [] rfl⟩
  · rintro ⟨hbef, hlast⟩ before y after heq
    rcases List.eq_nil_or_concat after with rfl | ⟨rest, last, rfl⟩
    · obtain ⟨rfl, hx⟩ := List.append_inj' heq rfl
      cases hx
      exact hlast
    · rw [List.concat_eq_append, ← List.cons_append, ← List.append_assoc] at heq
      obtain ⟨heq, -⟩ := List.append_inj' heq rfl
      exact hbef before y rest heq

end EachAfter

/-- A deterministic machine with inputs and answers. -/
structure Machine (σ ι ο : Type) where
  init : σ
  step : σ → ι → ο × σ

namespace Machine

variable {σ τ ι ο : Type} (m : Machine σ ι ο)

/-- The answers to a list of inputs, each with its input, and the state they lead to. -/
def runFrom (s : σ) : List ι → List (ι × ο) × σ
  | [] => ([], s)
  | i :: rest =>
    let answered := m.step s i
    let tail := runFrom answered.2 rest
    ((i, answered.1) :: tail.1, tail.2)

/-- The answers and the state of a run from the initial state. -/
def run (inputs : List ι) : List (ι × ο) × σ := m.runFrom m.init inputs

/-- The states some run leads to. -/
def Reachable (s : σ) : Prop := ∃ inputs, (m.run inputs).2 = s

@[simp] theorem runFrom_nil (s : σ) : m.runFrom s [] = ([], s) := rfl

@[simp] theorem runFrom_cons (s : σ) (i : ι) (rest : List ι) :
    m.runFrom s (i :: rest) = ((i, (m.step s i).1) :: (m.runFrom (m.step s i).2 rest).1,
      (m.runFrom (m.step s i).2 rest).2) := rfl

/-- A run in two parts. -/
theorem runFrom_append (s : σ) (first second : List ι) :
    m.runFrom s (first ++ second) = ((m.runFrom s first).1 ++
      (m.runFrom (m.runFrom s first).2 second).1, (m.runFrom (m.runFrom s first).2 second).2) := by
  induction first generalizing s with
  | nil => simp
  | cons i rest ih => simp [ih]

theorem run_append (first second : List ι) :
    m.run (first ++ second) = ((m.run first).1 ++ (m.runFrom (m.run first).2 second).1,
      (m.runFrom (m.run first).2 second).2) :=
  m.runFrom_append m.init first second

theorem run_concat (inputs : List ι) (i : ι) :
    (m.run (inputs ++ [i])).2 = (m.step (m.run inputs).2 i).2 := by
  rw [run_append]
  rfl

/-- Every input is answered once, in order. -/
theorem map_fst_runFrom (s : σ) (inputs : List ι) : (m.runFrom s inputs).1.map Prod.fst = inputs := by
  induction inputs generalizing s with
  | nil => rfl
  | cons i rest ih => simp [ih]

variable {P : σ → Prop} {s : σ}

/-- What holds of a state and survives every step holds after every run from that state. -/
theorem runFrom_induction (hinit : P s) (hstep : ∀ s i, P s → P (m.step s i).2) (inputs : List ι) :
    P (m.runFrom s inputs).2 := by
  induction inputs generalizing s with
  | nil => exact hinit
  | cons i rest ih => exact ih (hstep s i hinit)

/-- What holds initially and survives every step holds of every reachable state. -/
theorem reachable_induction (hinit : P m.init) (hstep : ∀ s i, P s → P (m.step s i).2)
    (h : m.Reachable s) : P s := by
  obtain ⟨inputs, rfl⟩ := h
  exact m.runFrom_induction hinit hstep inputs

/-- The state after a run from a reachable state is reachable. -/
theorem Reachable.runFrom {m : Machine σ ι ο} (h : m.Reachable s) (inputs : List ι) :
    m.Reachable (m.runFrom s inputs).2 := by
  obtain ⟨before, rfl⟩ := h
  exact ⟨before ++ inputs, by rw [run_append]⟩

theorem reachable_init : m.Reachable m.init := ⟨[], rfl⟩

theorem Reachable.step {m : Machine σ ι ο} (h : m.Reachable s) (i : ι) :
    m.Reachable (m.step s i).2 := by
  simpa using h.runFrom [i]

/-- A rule for statements about a state and the answers that led to it. -/
theorem run_induction {P : List (ι × ο) → σ → Prop} (hinit : P [] m.init)
    (hstep : ∀ answers s i, P answers s → P (answers ++ [(i, (m.step s i).1)]) (m.step s i).2)
    (inputs : List ι) : P (m.run inputs).1 (m.run inputs).2 := by
  induction inputs using List.reverseRecOn with
  | nil => exact hinit
  | append_singleton inputs i ih =>
    rw [run_append]
    exact hstep _ _ i ih

/-- Every input of a run meets a condition in the state it arrives in. -/
def EachStep (C : σ → ι → Prop) (inputs : List ι) : Prop :=
  ∀ before input after, inputs = before ++ input :: after → C (m.run before).2 input

theorem eachStep_nil (C : σ → ι → Prop) : m.EachStep C [] :=
  eachAfter_nil (P := fun before input ↦ C (m.run before).2 input)

variable {C : σ → ι → Prop} {inputs : List ι}

theorem eachStep_concat {i : ι} :
    m.EachStep C (inputs ++ [i]) ↔ m.EachStep C inputs ∧ C (m.run inputs).2 i :=
  eachAfter_concat (P := fun before input ↦ C (m.run before).2 input)

/-- What holds initially and survives every step that meets a condition holds after every run whose
steps all meet it. -/
theorem run_induction_of (hinit : P m.init) (hstep : ∀ s i, P s → C s i → P (m.step s i).2)
    (h : m.EachStep C inputs) : P (m.run inputs).2 := by
  induction inputs using List.reverseRecOn with
  | nil => exact hinit
  | append_singleton inputs i ih =>
    obtain ⟨hbef, hlast⟩ := m.eachStep_concat.mp h
    rw [run_append]
    exact hstep _ i (ih hbef) hlast

end Machine

end Garive
