import Garive.Lib.Map

/-!
# Settling a dependency graph in rounds

Nodes wait for the nodes they depend on. In each round every node whose dependencies are all settled
is settled too; the rounds end when nothing more can be settled. Everything is settled in the end
exactly when the waiting nodes can be ranked so that each depends, beyond what was settled at the
start, on waiting nodes of smaller rank only: the graph has no cycle and no dependency outside it.
-/

namespace Garive

open Std.ExtTreeMap

namespace Kahn

variable {κ : Type} [Ord κ] [Std.TransOrd κ]

/-- The keys, in the given order, whose node still waits and depends on settled nodes only. -/
def ready (keys : List κ) (remaining : Map κ (SetOf κ)) (completed : SetOf κ) : List κ :=
  keys.filter fun k ↦ (remaining[k]?).any fun dependencies ↦ SetOf.isSubset dependencies completed

variable {remaining : Map κ (SetOf κ)}

theorem mem_ready_iff {keys : List κ} {completed : SetOf κ} {k : κ} :
    k ∈ ready keys remaining completed ↔ k ∈ keys ∧ ∃ dependencies : SetOf κ,
      remaining[k]? = some dependencies ∧ SetOf.isSubset dependencies completed := by
  simp [ready, List.mem_filter, Option.any_eq_true]

theorem size_foldl_erase_le (keys : List κ) (m : Map κ (SetOf κ)) :
    (keys.foldl (fun m k ↦ m.erase k) m).size ≤ m.size := by
  induction keys generalizing m with
  | nil => exact Nat.le_refl _
  | cons k keys ih => exact Nat.le_trans (ih _) size_erase_le

theorem size_foldl_erase_lt {k : κ} (rest : List κ)
    (h : k ∈ remaining) :
    ((k :: rest).foldl (fun m k ↦ m.erase k) remaining).size < remaining.size := by
  have hpos : remaining.size ≠ 0 := fun hzero ↦
    ne_empty_of_mem h (eq_empty_iff_size_eq_zero.mpr hzero)
  have herase : (remaining.erase k).size = remaining.size - 1 := by
    rw [size_erase, if_pos (contains_iff_mem.mpr h)]
  have := size_foldl_erase_le rest (remaining.erase k)
  rw [List.foldl_cons]
  omega

/-- The nodes that still wait when no round settles anything any more. -/
def settle (keys : List κ) (remaining : Map κ (SetOf κ)) (completed : SetOf κ) :
    Map κ (SetOf κ) :=
  match _h : ready keys remaining completed with
  | [] => remaining
  | k :: rest =>
    settle keys ((k :: rest).foldl (fun m k ↦ m.erase k) remaining)
      ((k :: rest).foldl (fun s k ↦ s.insert k) completed)
termination_by remaining.size
decreasing_by
  obtain ⟨-, _, hget, -⟩ := mem_ready_iff.mp (_h ▸ List.mem_cons_self (a := k) (l := rest))
  exact size_foldl_erase_lt rest (mem_iff_isSome_getElem?.mpr (by simp [hget]))

/-- The waiting nodes can be ranked: each depends on settled nodes and on waiting nodes of smaller
rank. -/
def Ranked (remaining : Map κ (SetOf κ)) (completed : SetOf κ) (rank : κ → Nat) : Prop :=
  ∀ (k : κ) (dependencies : SetOf κ), remaining[k]? = some dependencies →
    ∀ x : κ, dependencies.contains x = true →
      completed.contains x = true ∨ (remaining[x]?).isSome = true ∧ rank x < rank k

variable [Std.LawfulEqOrd κ]

section Round

variable {keys : List κ} {remaining : Map κ (SetOf κ)} {completed : SetOf κ}

/-- Where no node is ready, a ranking leaves no node waiting: one of least rank would be ready. -/
theorem Ranked.isEmpty {rank : κ → Nat} (hranked : Ranked remaining completed rank)
    (hkeys : ∀ k : κ, (remaining[k]?).isSome → k ∈ keys)
    (hready : ready keys remaining completed = []) : remaining.isEmpty := by
  rw [Map.isEmpty_iff_get?]
  -- Strong induction on the rank: dependencies of smaller rank do not wait, so all are settled.
  have hnone : ∀ (n : Nat) (k : κ), rank k = n → remaining[k]? = none := by
    intro n
    induction n using Nat.strongRecOn with
    | ind n ih =>
      intro k hrank
      by_contra hwaits
      obtain ⟨dependencies, hget⟩ := Option.ne_none_iff_exists'.mp hwaits
      have hmem : k ∈ ready keys remaining completed := by
        refine mem_ready_iff.mpr ⟨hkeys k (by simp [hget]), dependencies, hget, ?_⟩
        refine SetOf.isSubset_iff.mpr fun x hx ↦ ?_
        rcases hranked k dependencies hget x hx with hdone | ⟨hwaiting, hlt⟩
        · exact hdone
        · rw [ih (rank x) (hrank ▸ hlt) x rfl] at hwaiting
          simp at hwaiting
      rw [hready] at hmem
      simp at hmem
  exact fun k ↦ hnone (rank k) k rfl

variable [DecidableEq κ]

/-- A ranking survives a round. -/
theorem Ranked.round {rank : κ → Nat} (hranked : Ranked remaining completed rank) (settled : List κ) :
    Ranked (settled.foldl (fun m k ↦ m.erase k) remaining)
      (settled.foldl (fun s k ↦ s.insert k) completed) rank := by
  intro k dependencies hget x hx
  rw [Map.get?_foldl_erase] at hget
  obtain ⟨hk, hget⟩ : k ∉ settled ∧ remaining[k]? = some dependencies := by
    by_cases hk : k ∈ settled <;> simp_all
  rw [SetOf.contains_foldl_insert, Map.get?_foldl_erase]
  by_cases hsettled : x ∈ settled
  · simp [hsettled]
  · simpa [hsettled] using hranked k dependencies hget x hx

/-- A ranking of what a round leaves gives one of what it found: the nodes the round settles come
first. -/
theorem Ranked.unround {rank : κ → Nat}
    (hranked : Ranked ((ready keys remaining completed).foldl (fun m k ↦ m.erase k) remaining)
      ((ready keys remaining completed).foldl (fun s k ↦ s.insert k) completed) rank) :
    Ranked remaining completed
      fun k ↦ if k ∈ ready keys remaining completed then 0 else rank k + 1 := by
  intro k dependencies hget x hx
  by_cases hk : k ∈ ready keys remaining completed
  · obtain ⟨-, found, hfound, hsubset⟩ := mem_ready_iff.mp hk
    rw [hget, Option.some.injEq] at hfound
    exact .inl (SetOf.isSubset_iff.mp (hfound ▸ hsubset) x hx)
  · have hleft := hranked k dependencies (by rw [Map.get?_foldl_erase, if_neg hk, hget]) x hx
    rw [SetOf.contains_foldl_insert, Map.get?_foldl_erase] at hleft
    by_cases hsettled : x ∈ ready keys remaining completed
    · obtain ⟨-, found, hfound, -⟩ := mem_ready_iff.mp hsettled
      exact .inr ⟨by simp [hfound], by simp [hsettled, hk]⟩
    · simpa [hsettled, hk] using hleft

end Round

/-- **Every node is settled exactly when the nodes can be ranked.** -/
theorem isEmpty_settle_iff [DecidableEq κ] {keys : List κ} {completed : SetOf κ}
    (hkeys : ∀ k : κ, (remaining[k]?).isSome → k ∈ keys) :
    (settle keys remaining completed).isEmpty ↔
      ∃ rank, Ranked remaining completed rank := by
  fun_induction settle keys remaining completed with
  | case1 remaining completed hready =>
    refine ⟨fun hempty ↦ ⟨fun _ ↦ 0, fun k dependencies hget ↦ ?_⟩,
      fun ⟨rank, hranked⟩ ↦ hranked.isEmpty hkeys hready⟩
    rw [(Map.isEmpty_iff_get? remaining).mp hempty k] at hget
    simp at hget
  | case2 remaining completed k rest hready ih =>
    rw [← hready] at ih
    rw [← hready, ih]
    · exact ⟨fun ⟨rank, hranked⟩ ↦ ⟨_, hranked.unround⟩,
        fun ⟨rank, hranked⟩ ↦ ⟨rank, hranked.round _⟩⟩
    · intro a ha
      refine hkeys a ?_
      rw [Map.get?_foldl_erase] at ha
      by_cases hmem : a ∈ ready keys remaining completed <;> simp_all

end Kahn

end Garive
