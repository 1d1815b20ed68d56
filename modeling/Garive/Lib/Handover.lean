import Garive.Lib.Machine

/-!
# Handing over

A party holds something until it loses it. If losing it retires the party, retirement lasts, and a
retired party that does not hold it is never given it, then what was lost once is lost for good.

The steps of a run may be subject to a condition on the state an input comes to; the rules are stated
for the runs whose inputs all meet it.
-/

namespace Garive

namespace Machine

variable {σ ι ο : Type} (m : Machine σ ι ο)

/-- Every input of a run from a state meets a condition in the state it comes to. -/
def Along (C : σ → ι → Prop) : σ → List ι → Prop
  | _, [] => True
  | s, i :: rest => C s i ∧ Along C (m.step s i).2 rest

variable {m} {C : σ → ι → Prop} {s : σ}

/-- A condition that every input meets everywhere is met along every run. -/
theorem along_of_forall (h : ∀ s i, C s i) (s : σ) (inputs : List ι) : m.Along C s inputs := by
  induction inputs generalizing s with
  | nil => trivial
  | cons i rest ih => exact ⟨h s i, ih _⟩

/-- What survives every step that meets the condition holds after every run that meets it. -/
theorem Along.induction {P : σ → Prop} {inputs : List ι} (h : m.Along C s inputs) (hinit : P s)
    (hstep : ∀ s i, C s i → P s → P (m.step s i).2) : P (m.runFrom s inputs).2 := by
  induction inputs generalizing s with
  | nil => exact hinit
  | cons i rest ih => exact ih h.2 (hstep s i h.1 hinit)

/-- The rules of handing over. -/
structure Handover (m : Machine σ ι ο) (C : σ → ι → Prop) (Holds Retired : σ → Prop) : Prop where
  retired_of_lost : ∀ s i, C s i → Holds s → ¬Holds (m.step s i).2 → Retired (m.step s i).2
  retired_step : ∀ s i, C s i → Retired s → Retired (m.step s i).2
  not_given : ∀ s i, C s i → Retired s → ¬Holds s → ¬Holds (m.step s i).2

variable {Holds Retired : σ → Prop} {inputs : List ι}

/-- Who held and holds no longer is retired. -/
theorem Handover.holds_or_retired (h : m.Handover C Holds Retired) (hs : Holds s)
    (halong : m.Along C s inputs) :
    Holds (m.runFrom s inputs).2 ∨ Retired (m.runFrom s inputs).2 := by
  refine halong.induction (P := fun s ↦ Holds s ∨ Retired s) (.inl hs) fun s i hcond hheld ↦ ?_
  rcases hheld with hholds | hretired
  · by_cases hkept : Holds (m.step s i).2
    · exact .inl hkept
    · exact .inr (h.retired_of_lost s i hcond hholds hkept)
  · exact .inr (h.retired_step s i hcond hretired)

/-- What a retired party does not hold it never holds again. -/
theorem Handover.not_regained (h : m.Handover C Holds Retired) (hretired : Retired s)
    (hs : ¬Holds s) (halong : m.Along C s inputs) : ¬Holds (m.runFrom s inputs).2 :=
  (halong.induction (P := fun s ↦ Retired s ∧ ¬Holds s) ⟨hretired, hs⟩
    fun s i hcond ⟨hretired, hnot⟩ ↦
      ⟨h.retired_step s i hcond hretired, h.not_given s i hcond hretired hnot⟩).2

end Machine

end Garive
