import Mathlib.Data.List.Induction

/-!
# Programs that call ports

A program that reaches the outside only through calls is a tree: it has returned, or it makes a call
and goes on with whatever is answered. Nothing is assumed about the answers, so a statement about
every log of a program is a statement about every behaviour of whatever answers it, and since the
tree is well founded every such program comes to an end.

What a program may call is said by a condition on the calls made so far and the next one
(`AtEach`). `Ensures` is the rule for it: it walks through the program once, call by call, and what
it establishes holds in every log (`atEach_of_ensures`).
-/

namespace Garive

open List

/-- The calls of a family of ports, each with the type of its answers. -/
structure Interface where
  Call : Type
  Answer : Call → Type

/-- A call and its answer. -/
structure Interface.Event (I : Interface) where
  call : I.Call
  answer : I.Answer call

/-- A program over the ports. -/
inductive Program (I : Interface) (α : Type) where
  | done (result : α)
  | call (c : I.Call) (next : I.Answer c → Program I α)

namespace Program

variable {I : Interface} {α β ε : Type}

/-- One program after another. -/
def bind : Program I α → (α → Program I β) → Program I β
  | done a, f => f a
  | call c next, f => call c fun answer ↦ (next answer).bind f

/-- The program that makes one call and returns its answer. -/
def ask (c : I.Call) : Program I (I.Answer c) := call c done

instance : Monad (Program I) where
  pure := done
  bind := bind

@[simp] theorem pure_eq_done (a : α) : (pure a : Program I α) = done a := rfl

@[simp] theorem done_bind (a : α) (f : α → Program I β) : done a >>= f = f a := rfl

@[simp] theorem call_bind (c : I.Call) (next : I.Answer c → Program I α) (f : α → Program I β) :
    call c next >>= f = call c fun answer ↦ next answer >>= f := rfl

/-! ## Logs -/

/-- The calls and answers of a run so far lead the program to what is left of it. -/
inductive Reaches : Program I α → List I.Event → Program I α → Prop
  | refl (p : Program I α) : Reaches p [] p
  | step {c : I.Call} {next : I.Answer c → Program I α} {answer : I.Answer c} {log : List I.Event}
    {rest : Program I α} (h : Reaches (next answer) log rest) :
    Reaches (call c next) (⟨c, answer⟩ :: log) rest

/-- The log belongs to a run of the program, finished or not. -/
def Possible (p : Program I α) (log : List I.Event) : Prop := ∃ rest, Reaches p log rest

theorem Reaches.trans {p q r : Program I α} {first second : List I.Event} (hpq : Reaches p first q)
    (hqr : Reaches q second r) : Reaches p (first ++ second) r := by
  induction hpq with
  | refl p => exact hqr
  | step h ih => exact .step (ih hqr)

/-- A run of the first of two programs is a run of both. -/
theorem Reaches.bind {p q : Program I α} {log : List I.Event} (h : Reaches p log q)
    (f : α → Program I β) : Reaches (p >>= f) log (q >>= f) := by
  induction h with
  | refl p => exact .refl _
  | step h ih => exact .step ih

/-! ## What some run does -/

/-- Some run of the program returns the value. -/
def Returns (p : Program I α) (a : α) : Prop := ∃ log, Reaches p log (done a)

/-- Some run of the program makes the call and gets the answer. -/
def Makes (p : Program I α) (event : I.Event) : Prop := ∃ log, Possible p (log ++ [event])

theorem returns_done (a : α) : Returns (done a : Program I α) a := ⟨[], .refl _⟩

variable {p : Program I α}

variable {a : α}

variable {f : α → Program I β}

theorem Returns.bind {b : β} (h : Returns p a)
    (hnext : Returns (f a) b) : Returns (p >>= f) b := by
  obtain ⟨first, h⟩ := h
  obtain ⟨second, hnext⟩ := hnext
  exact ⟨first ++ second, (h.bind f).trans hnext⟩

theorem returns_call {c : I.Call} {next : I.Answer c → Program I α} (answer : I.Answer c)
    (h : Returns (next answer) a) : Returns (call c next) a := by
  obtain ⟨log, h⟩ := h
  exact ⟨⟨c, answer⟩ :: log, .step h⟩

theorem makes_call {c : I.Call} {next : I.Answer c → Program I α} (answer : I.Answer c) :
    Makes (call c next) ⟨c, answer⟩ := ⟨[], next answer, .step (.refl _)⟩

theorem Makes.bind {event : I.Event} (h : Makes p event) (f : α → Program I β) :
    Makes (p >>= f) event := by
  obtain ⟨log, _, h⟩ := h
  exact ⟨log, _, h.bind f⟩

theorem Returns.makes_bind {event : I.Event}
    (h : Returns p a) (hnext : Makes (f a) event) : Makes (p >>= f) event := by
  obtain ⟨first, h⟩ := h
  obtain ⟨second, rest, hnext⟩ := hnext
  exact ⟨first ++ second, rest, by rw [append_assoc]; exact (h.bind f).trans hnext⟩

/-- Some run of a program that may leave early returns the value instead. -/
def Goes (p : ExceptT ε (Program I) α) (a : α) : Prop := Returns p.run (.ok a)

theorem goes_pure (a : α) : Goes (pure a : ExceptT ε (Program I) α) a := returns_done _

theorem goes_ask (c : I.Call) (answer : I.Answer c) :
    Goes (ask c : ExceptT ε (Program I) (I.Answer c)) answer :=
  returns_call answer (returns_done _)

variable {p : ExceptT ε (Program I) α}

variable {f : α → ExceptT ε (Program I) β}

theorem Goes.bind {b : β}
    (h : Goes p a) (hnext : Goes (f a) b) : Goes (p >>= f) b := by
  unfold Goes
  rw [ExceptT.run_bind]
  exact Returns.bind h hnext

theorem Goes.makes_bind
    {event : I.Event} (h : Goes p a) (hnext : Makes (f a).run event) : Makes (p >>= f).run event := by
  rw [ExceptT.run_bind]
  exact Returns.makes_bind h hnext

end Program

/-! ## Conditions on the calls of a log -/

section AtEach

variable {I : Interface} {α β : Type}

/-- Every call of the log meets the condition on what was called before it. -/
def AtEach (allows : List I.Event → I.Call → Prop) (log : List I.Event) : Prop :=
  ∀ before event after, log = before ++ event :: after → allows before event.call

variable {allows : List I.Event → I.Call → Prop} {log : List I.Event} {event : I.Event}

theorem atEach_nil : AtEach allows [] := by
  intro before event after h
  simp at h

theorem atEach_concat : AtEach allows (log ++ [event]) ↔ AtEach allows log ∧ allows log event.call := by
  constructor
  · intro h
    refine ⟨fun before e after heq ↦ h before e (after ++ [event]) (by simp [heq]), ?_⟩
    exact h log event [] rfl
  · rintro ⟨hbef, hlast⟩ before e after heq
    rcases eq_nil_or_concat after with rfl | ⟨rest, last, rfl⟩
    · obtain ⟨rfl, he⟩ := append_inj' heq rfl
      cases he
      exact hlast
    · rw [concat_eq_append, ← cons_append, ← append_assoc] at heq
      obtain ⟨heq, -⟩ := append_inj' heq rfl
      exact hbef before e rest heq

theorem AtEach.mono {others : List I.Event → I.Call → Prop} (h : AtEach allows log)
    (himp : ∀ before c, allows before c → others before c) : AtEach others log :=
  fun before event after heq ↦ himp _ _ (h before event after heq)

/-- A property of what the calls of a log show, in order, that every call keeps. -/
theorem AtEach.filterMap {show? : I.Event → Option β} {Q : List β → Prop} (h : AtEach allows log)
    (hnil : Q []) (hkeep : ∀ before event b, allows before event.call → show? event = some b →
      Q (before.filterMap show?) → Q (before.filterMap show? ++ [b])) :
    Q (log.filterMap show?) := by
  induction log using reverseRecOn with
  | nil => exact hnil
  | append_singleton log event ih =>
    obtain ⟨hbef, hlast⟩ := atEach_concat.mp h
    rw [filterMap_append]
    cases hshow : show? event with
    | none => simpa [hshow] using ih hbef
    | some b => simpa [hshow] using hkeep log event b hlast hshow (ih hbef)

/-- Every call meets a condition on each call before it: a condition on the pairs of a log. -/
theorem AtEach.pairwise {R : I.Event → I.Event → Prop} (h : AtEach allows log)
    (hpair : ∀ before event, allows before event.call → ∀ e ∈ before, R e event) :
    log.Pairwise R := by
  induction log using reverseRecOn with
  | nil => exact List.Pairwise.nil
  | append_singleton log event ih =>
    obtain ⟨hbef, hlast⟩ := atEach_concat.mp h
    rw [pairwise_append]
    refine ⟨ih hbef, pairwise_singleton _ _, ?_⟩
    intro e he last hmem
    rw [mem_singleton.mp hmem]
    exact hpair log event hlast e he

end AtEach

namespace Program

variable {I : Interface} {α β ε : Type} {allows : List I.Event → I.Call → Prop}

/-- Every call the program makes after the log is allowed, and what it returns meets the
postcondition on the log it leaves. -/
def Ensures (allows : List I.Event → I.Call → Prop) :
    List I.Event → Program I α → (List I.Event → α → Prop) → Prop
  | log, done a, post => post log a
  | log, call c next, post =>
    allows log c ∧ ∀ answer, Ensures allows (log ++ [⟨c, answer⟩]) (next answer) post

variable {log : List I.Event} {post : List I.Event → α → Prop}

@[simp] theorem ensures_done : Ensures allows log (done a) post ↔ post log a := Iff.rfl

variable {weaker : List I.Event → α → Prop}

theorem Ensures.mono (h : Ensures allows log p post)
    (himp : ∀ log a, post log a → weaker log a) : Ensures allows log p weaker := by
  induction p generalizing log with
  | done a => exact himp log a h
  | call c next ih => exact ⟨h.1, fun answer ↦ ih answer (h.2 answer)⟩

variable {mid : List I.Event → α → Prop}

theorem Ensures.bind {post : List I.Event → β → Prop}
    (hp : Ensures allows log p mid) (hf : ∀ log a, mid log a → Ensures allows log (f a) post) :
    Ensures allows log (p >>= f) post := by
  induction p generalizing log with
  | done a => exact hf log a hp
  | call c next ih => exact ⟨hp.1, fun answer ↦ ih answer (hp.2 answer)⟩

/-- Where everything is allowed there is nothing to establish. -/
theorem ensures_of_forall (h : ∀ log c, allows log c) (p : Program I α) :
    Ensures allows log p fun _ _ ↦ True := by
  induction p generalizing log with
  | done a => trivial
  | call c next ih => exact ⟨h log c, fun answer ↦ ih answer⟩

/-- What is established along the program holds of every log of it. -/
theorem atEach_of_ensures (h : Ensures allows [] p post) {log : List I.Event}
    (hlog : Possible p log) : AtEach allows log := by
  -- the log so far is a parameter of the rule: generalize it from the empty one
  suffices H : ∀ before, AtEach allows before → Ensures allows before p post →
      AtEach allows (before ++ log) from H [] atEach_nil h
  clear h
  obtain ⟨_, hreaches⟩ := hlog
  induction hreaches with
  | refl p =>
    intro before hbef _
    simpa using hbef
  | step hnext ih =>
    intro before hbef hensures
    rw [append_cons]
    exact ih _ (atEach_concat.mpr ⟨hbef, hensures.1⟩) (hensures.2 _)

/-- What a program returns meets the postcondition on the whole log. -/
theorem post_of_ensures (h : Ensures allows [] p post)
    {log : List I.Event} (hlog : Reaches p log (done a)) : post log a := by
  suffices H : ∀ before, Ensures allows before p post → post (before ++ log) a from H [] h
  clear h
  generalize hrest : done a = rest at hlog
  induction hlog with
  | refl p =>
    subst hrest
    intro before hensures
    simpa using hensures
  | step hnext ih =>
    intro before hensures
    rw [append_cons]
    exact ih hrest _ (hensures.2 _)

/-! ## Programs that may leave early -/

/-- `Ensures` for a program that may leave early: one condition for the results, one for the ways
out. -/
def EnsuresOr (allows : List I.Event → I.Call → Prop) (log : List I.Event)
    (p : ExceptT ε (Program I) α) (post : List I.Event → α → Prop)
    (exit : List I.Event → ε → Prop) : Prop :=
  Ensures allows log p.run fun log result ↦
    match result with
    | .ok a => post log a
    | .error e => exit log e

variable {exit : List I.Event → ε → Prop}

/-- A program that cannot leave early, among those that may. -/
theorem Ensures.lift (h : Ensures allows log p post) :
    EnsuresOr allows log (monadLift p : ExceptT ε (Program I) α) post exit :=
  Ensures.bind h fun _ _ hpost ↦ hpost

theorem EnsuresOr.bind
    {post : List I.Event → β → Prop} (hp : EnsuresOr allows log p mid exit)
    (hf : ∀ log a, mid log a → EnsuresOr allows log (f a) post exit) :
    EnsuresOr allows log (p >>= f) post exit := by
  unfold EnsuresOr
  rw [ExceptT.run_bind]
  refine Ensures.bind hp ?_
  rintro log (_ | a) h
  · exact h
  · exact hf log a h

theorem EnsuresOr.mono (h : EnsuresOr allows log p post exit)
    (himp : ∀ log a, post log a → weaker log a) : EnsuresOr allows log p weaker exit := by
  refine Ensures.mono h ?_
  rintro log (_ | a) hr
  · exact hr
  · exact himp log a hr

end Program

end Garive
