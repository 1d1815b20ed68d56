import Mathlib.Data.Finset.Card

/-!
# Growing a forest edge by edge

A relation is acyclic when no path returns to its start. A forest is given by labelled edges: no two
labels lead to the same node, and the edges are acyclic. Adding one edge to a forest leaves a forest
exactly when its end is a node without an edge into it from which its start cannot be reached.
-/

namespace Garive

open Relation

variable {α ι : Type} {r : α → α → Prop} {a b x y : α}

/-- No path returns to its start. -/
def Acyclic (r : α → α → Prop) : Prop := ∀ x, ¬TransGen r x x

/-- A node whose paths all end is on no cycle. -/
theorem not_transGen_of_acc (h : Acc r a) : ¬TransGen r a a := by
  have hpaths : Acc (TransGen r) a := h.transGen
  induction hpaths with
  | intro a _ ih => exact fun hcycle ↦ ih a hcycle (h := h) hcycle

/-- A relation into finitely many nodes is acyclic exactly when its nodes can be ranked so that every
edge leads to a smaller rank. -/
theorem acyclic_iff_exists_rank {nodes : Finset α} (hnodes : ∀ x y, r x y → y ∈ nodes) :
    Acyclic r ↔ ∃ rank : α → Nat, ∀ x y, r x y → rank y < rank x := by
  classical
  constructor
  · intro hacyclic
    -- The rank of a node is the number of nodes it leads to; the end of an edge is not among its own.
    refine ⟨fun x ↦ {z ∈ nodes | TransGen r x z}.card, fun x y hedge ↦ Finset.card_lt_card ?_⟩
    refine (Finset.ssubset_iff_of_subset fun z hz ↦ ?_).mpr ⟨y, ?_, ?_⟩
    · rw [Finset.mem_filter] at hz ⊢
      exact ⟨hz.1, .head hedge hz.2⟩
    · exact Finset.mem_filter.mpr ⟨hnodes x y hedge, .single hedge⟩
    · exact fun hy ↦ hacyclic y (Finset.mem_filter.mp hy).2
  · rintro ⟨rank, hrank⟩ x hcycle
    have hlt : ∀ y, TransGen r x y → rank y < rank x := by
      intro y hpath
      induction hpath with
      | single hedge => exact hrank _ _ hedge
      | tail _ hedge ih => exact (hrank _ _ hedge).trans ih
    exact lt_irrefl _ (hlt x hcycle)

/-- The relation with one more edge. -/
def AddEdge (r : α → α → Prop) (a b x y : α) : Prop := r x y ∨ x = a ∧ y = b

/-- A path over the new edge splits into what comes before its first use and after its last. -/
theorem transGen_addEdge (h : TransGen (AddEdge r a b) x y) :
    TransGen r x y ∨ ReflTransGen r x a ∧ ReflTransGen r b y := by
  induction h with
  | single hstep =>
    rcases hstep with hstep | ⟨rfl, rfl⟩
    · exact .inl (.single hstep)
    · exact .inr ⟨.refl, .refl⟩
  | tail _ hstep ih =>
    rcases ih with hpath | ⟨hfirst, hlast⟩
    · rcases hstep with hstep | ⟨rfl, rfl⟩
      · exact .inl (hpath.tail hstep)
      · exact .inr ⟨hpath.to_reflTransGen, .refl⟩
    · rcases hstep with hstep | ⟨rfl, rfl⟩
      · exact .inr ⟨hfirst, hlast.tail hstep⟩
      · exact .inr ⟨hfirst, .refl⟩

/-- One more edge closes a cycle exactly when its start can be reached from its end. -/
theorem acyclic_addEdge_iff (h : Acyclic r) : Acyclic (AddEdge r a b) ↔ ¬ReflTransGen r b a := by
  constructor
  · intro hnew hpath
    refine hnew a (TransGen.head' (.inr ⟨rfl, rfl⟩) ?_)
    exact ReflTransGen.mono (fun _ _ hstep ↦ Or.inl hstep) _ _ hpath
  · intro hpath x hcycle
    rcases transGen_addEdge hcycle with hold | ⟨hfirst, hlast⟩
    · exact h x hold
    · exact hpath (hlast.trans hfirst)

/-- Labelled edges that form a forest. -/
structure IsForest (edge : ι → α → α → Prop) : Prop where
  unique : ∀ i j x y z, edge i x z → edge j y z → i = j
  acyclic : Acyclic fun x y ↦ ∃ i, edge i x y

/-- Adding an edge under a new label. -/
theorem isForest_add_iff {edge : ι → α → α → Prop} {k : ι} (h : IsForest edge)
    (hnew : ∀ x y, ¬edge k x y) :
    IsForest (fun i x y ↦ edge i x y ∨ i = k ∧ x = a ∧ y = b) ↔
      (∀ i x, ¬edge i x b) ∧ ¬ReflTransGen (fun x y ↦ ∃ i, edge i x y) b a := by
  have hsame : (fun x y ↦ ∃ i, edge i x y ∨ i = k ∧ x = a ∧ y = b)
      = AddEdge (fun x y ↦ ∃ i, edge i x y) a b := by
    funext x y
    simp [AddEdge, exists_or]
  rw [← acyclic_addEdge_iff h.acyclic, ← hsame]
  constructor
  · refine fun hforest ↦ ⟨fun i x hedge ↦ ?_, hforest.acyclic⟩
    have heq := hforest.unique i k x a b (.inl hedge) (.inr ⟨rfl, rfl, rfl⟩)
    exact hnew x b (heq ▸ hedge)
  · rintro ⟨hleaf, hacyclic⟩
    refine ⟨?_, hacyclic⟩
    rintro i j x y z (hi | ⟨hi, -, hz⟩) (hj | ⟨hj, -, hz'⟩)
    · exact h.unique i j x y z hi hj
    · exact absurd (hz' ▸ hi) (hleaf i x)
    · exact absurd (hz ▸ hj) (hleaf j y)
    · exact hi.trans hj.symm

end Garive
