import Mathlib.Algebra.GroupWithZero.Nat
import Mathlib.Data.List.Induction

/-!
# Taking fallible computations apart

A successful computation in `Except` determines the value of each of its steps. The lemmas here
turn "the whole succeeded" into the successes of the parts, so that a proof about a long checked
computation never unfolds the monad. Where only the result matters, a postcondition is carried
through the steps instead.
-/

namespace Garive

variable {ε α β : Type}

variable {b : β}

variable {x : Except ε α}

/-- A sequence succeeds exactly when its first step does and the rest does on that step's result. -/
theorem bind_eq_ok_iff {f : α → Except ε β} :
    x >>= f = .ok b ↔ ∃ a, x = .ok a ∧ f a = .ok b := by
  cases x with
  | error e => simp [Bind.bind, Except.bind]
  | ok a => simp [Bind.bind, Except.bind]

/-- A step that does the same on whatever it is given. -/
theorem bind_congr_ok {f g : α → Except ε β} (h : ∀ a, x = .ok a → f a = g a) :
    (x >>= f) = x >>= g := by
  cases x with
  | error e => rfl
  | ok a => exact h a rfl

/-- The result of a step that only checks. -/
@[simp] theorem exists_unit {P : Unit → Prop} : (∃ u, P u) ↔ P () :=
  ⟨fun ⟨_, h⟩ ↦ h, fun h ↦ ⟨(), h⟩⟩

@[simp] theorem ok_bind (a : α) (f : α → Except ε β) : Except.ok a >>= f = f a := rfl

@[simp] theorem error_bind (e : ε) (f : α → Except ε β) :
    (Except.error e : Except ε α) >>= f = .error e := rfl

@[simp] theorem pure_eq_ok (a : α) : (pure a : Except ε α) = .ok a := rfl

/-- A checked precondition: `ok` when it holds, the given error otherwise. -/
def ensure (condition : Prop) [Decidable condition] (e : ε) : Except ε Unit :=
  if condition then .ok () else .error e

variable {u : Unit} {e : ε}

@[simp] theorem ensure_eq_ok_iff {condition : Prop} [Decidable condition] :
    ensure condition e = .ok u ↔ condition := by
  simp [ensure]

theorem ensure_of {condition : Prop} [Decidable condition] (h : condition) :
    ensure condition e = .ok () := by
  simp [h]

theorem ensure_of_not {condition : Prop} [Decidable condition] (h : ¬condition) :
    ensure condition e = .error e := by
  simp [ensure, h]

@[simp] theorem ensure_true [Decidable True] (e : ε) : ensure True e = .ok () :=
  ensure_of trivial

@[simp] theorem ensure_false [Decidable False] (e : ε) : ensure False e = .error e :=
  ensure_of_not not_false

/-- The value of an option, or the given error in its absence. -/
def okOr (value : Option α) (e : ε) : Except ε α :=
  match value with
  | some a => .ok a
  | none => .error e

@[simp] theorem okOr_some (a : α) (e : ε) : okOr (some a) e = .ok a := rfl

@[simp] theorem okOr_none (e : ε) : okOr (none : Option α) e = .error e := rfl

variable {a : α}

@[simp] theorem okOr_eq_ok_iff {value : Option α} : okOr value e = .ok a ↔ value = some a := by
  cases value <;> simp [okOr]

/-- A result that passes a check. -/
theorem any_toOption {check : α → Bool} :
    x.toOption.any check ↔ ∃ a, x = .ok a ∧ check a := by
  cases x <;> simp [Except.toOption]

theorem mapError_eq_ok_iff {δ : Type} {g : ε → δ} :
    x.mapError g = .ok a ↔ x = .ok a := by
  cases x <;> simp [Except.mapError]

/-- What the success of a sequence says about its steps: the rules that take one apart. -/
theorem ok_iff :
    (∀ {ε α β : Type} {x : Except ε α} {f : α → Except ε β} {b : β},
      x >>= f = .ok b ↔ ∃ a, x = .ok a ∧ f a = .ok b) ∧
    (∀ {P : Unit → Prop}, (∃ u, P u) ↔ P ()) ∧
    (∀ {ε : Type} {condition : Prop} [Decidable condition] {e : ε} {u : Unit},
      ensure condition e = .ok u ↔ condition) ∧
    (∀ {ε α : Type} {value : Option α} {e : ε} {a : α}, okOr value e = .ok a ↔ value = some a) ∧
    (∀ {ε δ α : Type} {x : Except ε α} {g : ε → δ} {a : α}, x.mapError g = .ok a ↔ x = .ok a) ∧
    (∀ {ε α : Type} (a : α), (pure a : Except ε α) = .ok a) ∧
    ∀ {ε α : Type} {a b : α}, (.ok a : Except ε α) = .ok b ↔ a = b :=
  ⟨bind_eq_ok_iff, exists_unit, ensure_eq_ok_iff, okOr_eq_ok_iff, mapError_eq_ok_iff, pure_eq_ok,
    by simp⟩

/-- Runs a check on every element, stopping at the first failure. -/
def checkAll (check : α → Except ε Unit) : List α → Except ε Unit
  | [] => .ok ()
  | a :: rest => do
    check a
    checkAll check rest

@[simp] theorem checkAll_nil (check : α → Except ε Unit) : checkAll check [] = .ok () := rfl

variable {check : α → Except ε Unit}

@[simp] theorem checkAll_cons_eq_ok_iff {rest : List α} :
    checkAll check (a :: rest) = .ok u ↔ check a = .ok () ∧ checkAll check rest = .ok u := by
  simp [checkAll, bind_eq_ok_iff]

variable {items : List α}

theorem checkAll_eq_ok_iff : checkAll check items = .ok u ↔ ∀ a ∈ items, check a = .ok () := by
  induction items with
  | nil => simp
  | cons a rest ih => simp [ih]

/-- The values of computations, if all of them succeed. -/
def collect : List (Except ε α) → Except ε (List α)
  | [] => .ok []
  | x :: rest => do
    let a ← x
    let values ← collect rest
    return a :: values

theorem collect_eq_ok_iff {xs : List (Except ε α)} {values : List α} :
    collect xs = .ok values ↔ xs = values.map .ok := by
  induction xs generalizing values with
  | nil => simp [collect, eq_comm]
  | cons x rest ih =>
    simp only [collect, bind_eq_ok_iff, ih, pure_eq_ok, Except.ok.injEq]
    cases values with
    | nil => simp
    | cons a values => simp

/-- What holds before a loop and survives each of its steps holds of the elements done so far, and
at the end of all of them. -/
theorem foldlM_induction {f : β → α → Except ε β} {P : List α → β → Prop} {init : β}
    (hinit : P [] init)
    (hstep : ∀ done a b next, P done b → f b a = .ok next → P (done ++ [a]) next)
    (h : items.foldlM f init = .ok b) : P items b := by
  induction items using List.reverseRecOn generalizing b with
  | nil =>
    cases h
    exact hinit
  | append_singleton done a ih =>
    rw [List.foldlM_append, bind_eq_ok_iff] at h
    obtain ⟨before, hbef, hlast⟩ := h
    rw [List.foldlM_cons, bind_eq_ok_iff] at hlast
    obtain ⟨next, hnext, heq⟩ := hlast
    rw [← Except.ok.inj heq]
    exact hstep done a before next (ih hbef) hnext

/-! ## Postconditions -/

/-- Whatever the computation returns satisfies the postcondition. -/
def Yields (x : Except ε α) (post : α → Prop) : Prop := ∀ a, x = .ok a → post a

variable {x : Except ε α} {f : α → Except ε β} {mid : α → Prop} {post : β → Prop}

theorem yields_pure (h : post b) : Yields (pure b : Except ε β) post := by
  rintro _ ⟨⟩
  exact h

/-- A step whose result does not matter. -/
theorem yields_bind (h : ∀ a, Yields (f a) post) : Yields (x >>= f) post := by
  intro b hb
  obtain ⟨a, -, hfa⟩ := bind_eq_ok_iff.mp hb
  exact h a b hfa

/-- A step whose postcondition the rest relies on. -/
theorem Yields.bind (hx : Yields x mid) (h : ∀ a, mid a → Yields (f a) post) :
    Yields (x >>= f) post := by
  intro b hb
  obtain ⟨a, ha, hfa⟩ := bind_eq_ok_iff.mp hb
  exact h a (hx a ha) b hfa

end Garive
