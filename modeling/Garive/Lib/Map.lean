import Mathlib.Data.List.Nodup

/-!
# Ordered maps and sets

Finite maps and sets over a type with a lawful total order, read through lookup: two maps with the
same lookups are equal. What a program asks of the entries as a whole is asked through `Map.any`,
which is characterized by lookups again, so that proofs never see the tree.
-/

namespace Garive

open List

/-- A finite map ordered by its keys. -/
abbrev Map (κ ν : Type) [Ord κ] := Std.ExtTreeMap κ ν compare

/-- A finite set ordered by its elements. -/
abbrev SetOf (κ : Type) [Ord κ] := Std.ExtTreeSet κ compare

variable {κ ν : Type} [Ord κ] [Std.TransOrd κ]

variable {keys : List κ}

namespace Map

@[simp] theorem get?_empty (k : κ) : (∅ : Map κ ν)[k]? = none := Std.ExtTreeMap.getElem?_empty

@[simp] theorem get?_insert_self (m : Map κ ν) (k : κ) (v : ν) : (m.insert k v)[k]? = some v :=
  Std.ExtTreeMap.getElem?_insert_self

theorem contains_eq (m : Map κ ν) (k : κ) : m.contains k = m[k]?.isSome :=
  Std.ExtTreeMap.contains_eq_isSome_getElem?

theorem isEmpty_iff_get? (m : Map κ ν) : m.isEmpty ↔ ∀ k : κ, m[k]? = none := by
  rw [Std.ExtTreeMap.isEmpty_iff, Std.ExtTreeMap.eq_empty_iff_forall_not_mem]
  simp only [Std.ExtTreeMap.mem_iff_isSome_getElem?, Bool.not_eq_true, Option.isSome_eq_false_iff,
    Option.isNone_iff_eq_none]

/-- Whether some entry satisfies a test. -/
def any (m : Map κ ν) (p : κ → ν → Bool) : Bool :=
  m.toList.any fun entry ↦ p entry.1 entry.2

/-- The first entry, in key order, that satisfies a test. -/
def find? (m : Map κ ν) (p : κ → ν → Bool) : Option (κ × ν) :=
  m.toList.find? fun entry ↦ p entry.1 entry.2

variable [Std.LawfulEqOrd κ]

/-- Lookup after an insertion. -/
theorem get?_insert [DecidableEq κ] (m : Map κ ν) (k a : κ) (v : ν) :
    (m.insert k v)[a]? = if k = a then some v else m[a]? := by
  rw [Std.ExtTreeMap.getElem?_insert]
  by_cases h : k = a
  · subst h
    simp
  · have hne : compare k a ≠ .eq := fun hc ↦ h (Std.LawfulEqCmp.eq_of_compare hc)
    simp [h, hne]

variable {m : Map κ ν} {k : κ} {v : ν}

theorem get?_insert_of_ne {a : κ} (h : k ≠ a) : (m.insert k v)[a]? = m[a]? := by
  classical
  rw [get?_insert, if_neg h]

/-- An entry after an insertion is the new one or was there before. -/
theorem of_get?_insert {a : κ} {w : ν} (h : (m.insert k v)[a]? = some w) :
    k = a ∧ v = w ∨ m[a]? = some w := by
  classical
  rw [get?_insert] at h
  split at h
  · exact .inl ⟨‹_›, Option.some.inj h⟩
  · exact .inr h

/-- Lookup after a removal. -/
theorem get?_erase [DecidableEq κ] (m : Map κ ν) (k a : κ) :
    (m.erase k)[a]? = if k = a then none else m[a]? := by
  rw [Std.ExtTreeMap.getElem?_erase]
  by_cases h : k = a
  · subst h
    simp
  · have hne : compare k a ≠ .eq := fun hc ↦ h (Std.LawfulEqCmp.eq_of_compare hc)
    simp [h, hne]

/-- Writing an entry that is already there changes nothing. -/
theorem insert_eq_self (h : m[k]? = some v) : m.insert k v = m := by
  classical
  apply Std.ExtTreeMap.ext_getElem?
  intro a
  rw [get?_insert]
  split
  · rename_i heq
    rw [← heq, h]
  · rfl

variable {p : κ → ν → Bool}

theorem any_eq_true_iff : Map.any m p ↔ ∃ k v, m[k]? = some v ∧ p k v := by
  simp only [any, any_eq_true, Prod.exists]
  exact ⟨fun ⟨k, v, hmem, hp⟩ ↦ ⟨k, v, Std.ExtTreeMap.mem_toList_iff_getElem?_eq_some.mp hmem, hp⟩,
    fun ⟨k, v, hget, hp⟩ ↦ ⟨k, v, Std.ExtTreeMap.mem_toList_iff_getElem?_eq_some.mpr hget, hp⟩⟩

theorem any_eq_false_iff : Map.any m p = false ↔ ∀ k v, m[k]? = some v → p k v = false := by
  rw [← Bool.not_eq_true, any_eq_true_iff]
  simp

theorem get?_of_find? (h : Map.find? m p = some (k, v)) : m[k]? = some v ∧ p k v :=
  ⟨Std.ExtTreeMap.mem_toList_iff_getElem?_eq_some.mp (mem_of_find?_eq_some h),
    find?_some (p := fun entry : κ × ν ↦ p entry.1 entry.2) h⟩

/-- Lookup after writing one value under a list of keys. -/
theorem get?_foldl_insert [DecidableEq κ] (keys : List κ) (value : ν) (m : Map κ ν) (a : κ) :
    (keys.foldl (fun m k ↦ m.insert k value) m)[a]? =
      if a ∈ keys then some value else m[a]? := by
  induction keys generalizing m with
  | nil => simp
  | cons k rest ih =>
    rw [foldl_cons, ih, get?_insert]
    by_cases hrest : a ∈ rest
    · simp [hrest]
    · by_cases hk : k = a
      · simp [hk]
      · simp [hk, hrest, show a ≠ k from fun h ↦ hk h.symm]

/-- Lookup after removing a list of keys. -/
theorem get?_foldl_erase [DecidableEq κ] (keys : List κ) (m : Map κ ν) (a : κ) :
    (keys.foldl (fun m k ↦ m.erase k) m)[a]? = if a ∈ keys then none else m[a]? := by
  induction keys generalizing m with
  | nil => simp
  | cons k rest ih =>
    rw [foldl_cons, ih, get?_erase]
    by_cases hrest : a ∈ rest
    · simp [hrest]
    · by_cases hk : k = a
      · simp [hk]
      · simp [hk, hrest, show a ≠ k from fun h ↦ hk h.symm]

theorem nodup_toList (m : Map κ ν) : m.toList.Nodup :=
  Std.ExtTreeMap.distinct_keys_toList.imp fun {a b} hne heq ↦ hne (by rw [heq, Std.ReflOrd.compare_self])

/-- A test that some entry passes has a first entry that passes it. -/
theorem exists_find? (hget : m[k]? = some v) (hp : p k v) :
    ∃ found, Map.find? m p = some found := by
  rw [← Option.isSome_iff_exists, find?, find?_isSome]
  exact ⟨(k, v), Std.ExtTreeMap.mem_toList_iff_getElem?_eq_some.mpr hget, hp⟩

/-- The entries are those found under any list of keys that has them all, each once. -/
theorem toList_perm_filterMap (m : Map κ ν) (hnodup : keys.Nodup)
    (hkeys : ∀ k (v : ν), m[k]? = some v → k ∈ keys) :
    m.toList.Perm (keys.filterMap fun k ↦ m[k]?.map fun v ↦ (k, v)) := by
  rw [perm_ext_iff_of_nodup m.nodup_toList]
  · rintro ⟨k, v⟩
    rw [Std.ExtTreeMap.mem_toList_iff_getElem?_eq_some, mem_filterMap]
    constructor
    · exact fun h ↦ ⟨k, hkeys k v h, by simp [h]⟩
    · rintro ⟨a, -, ha⟩
      obtain ⟨_, hw, heq⟩ := Option.map_eq_some_iff.mp ha
      cases heq
      exact hw
  · refine List.Nodup.filterMap (fun a b entry ha hb ↦ ?_) hnodup
    obtain ⟨_, -, rfl⟩ := Option.map_eq_some_iff.mp ha
    obtain ⟨_, -, heq⟩ := Option.map_eq_some_iff.mp hb
    exact (Prod.mk.inj heq).1.symm

/-- An entry and the others. -/
theorem toList_perm_cons_erase (h : m[k]? = some v) :
    m.toList.Perm ((k, v) :: (m.erase k).toList) := by
  classical
  have hmem : ∀ {m : Map κ ν} {entry : κ × ν}, entry ∈ m.toList ↔ m[entry.1]? = some entry.2 :=
    fun {_ _} ↦ Std.ExtTreeMap.mem_toList_iff_getElem?_eq_some
  refine (perm_ext_iff_of_nodup m.nodup_toList (nodup_cons.mpr ⟨?_, nodup_toList _⟩)).mpr ?_
  · rw [hmem, get?_erase, if_pos rfl]
    simp
  · rintro ⟨a, _⟩
    rw [mem_cons, hmem, hmem, get?_erase, Prod.mk.injEq]
    by_cases heq : k = a
    · subst heq
      simp [h, eq_comm]
    · simp [heq, Ne.symm heq]

/-- The entries after an insertion: the new one and the others. -/
theorem toList_insert_perm (m : Map κ ν) (k : κ) (v : ν) :
    (m.insert k v).toList.Perm ((k, v) :: (m.erase k).toList) := by
  classical
  have herase : (m.insert k v).erase k = m.erase k := by
    apply Std.ExtTreeMap.ext_getElem?
    intro a
    rw [get?_erase, get?_erase, get?_insert]
    split <;> rfl
  rw [← herase]
  exact toList_perm_cons_erase (get?_insert_self m k v)

theorem erase_eq_self (h : m[k]? = none) : m.erase k = m := by
  classical
  apply Std.ExtTreeMap.ext_getElem?
  intro a
  rw [get?_erase]
  split
  · rename_i heq
    rw [← heq, h]
  · rfl

/-- Two maps whose values look alike have entries that look alike. -/
theorem map_toList_perm {ν' α : Type} {n : Map κ ν'} {f : ν → α} {g : ν' → α}
    (h : ∀ k : κ, m[k]?.map f = n[k]?.map g) : (m.toList.map fun entry ↦ (entry.1, f entry.2)).Perm
      (n.toList.map fun entry ↦ (entry.1, g entry.2)) := by
  have hkeys : ∀ {ν : Type} {f : ν → α} (m : Map κ ν),
      (m.toList.map fun entry ↦ (entry.1, f entry.2)).Nodup := fun m ↦ by
    have hnodup : m.keys.Nodup := Std.ExtTreeMap.nodup_keys
    rw [← Std.ExtTreeMap.map_fst_toList_eq_keys] at hnodup
    refine List.Nodup.of_map Prod.fst ?_
    rw [map_map]
    exact hnodup
  have hmem : ∀ {ν : Type} {f : ν → α} (m : Map κ ν) (k : κ) (a : α),
      (k, a) ∈ (m.toList.map fun entry ↦ (entry.1, f entry.2)) ↔ m[k]?.map f = some a := by
    intro ν f m k a
    rw [mem_map, Option.map_eq_some_iff]
    constructor
    · rintro ⟨⟨_, v⟩, hmem, heq⟩
      cases heq
      exact ⟨v, Std.ExtTreeMap.mem_toList_iff_getElem?_eq_some.mp hmem, rfl⟩
    · rintro ⟨v, hv, rfl⟩
      exact ⟨(k, v), Std.ExtTreeMap.mem_toList_iff_getElem?_eq_some.mpr hv, rfl⟩
  refine (perm_ext_iff_of_nodup (hkeys m) (hkeys n)).mpr ?_
  rintro ⟨k, a⟩
  rw [hmem, hmem, h]

end Map

namespace SetOf

theorem contains_insert [Std.LawfulEqOrd κ] [DecidableEq κ] (s : SetOf κ) (k a : κ) :
    (s.insert k).contains a = (decide (k = a) || s.contains a) := by
  rw [Std.ExtTreeSet.contains_insert]
  by_cases h : k = a
  · subst h
    simp
  · have hne : compare k a ≠ .eq := fun hc ↦ h (Std.LawfulEqCmp.eq_of_compare hc)
    simp [h, hne]

/-- Membership after adding a list of elements. -/
theorem contains_foldl_insert [Std.LawfulEqOrd κ] [DecidableEq κ] (keys : List κ) (s : SetOf κ)
    (a : κ) : (keys.foldl (fun s k ↦ s.insert k) s).contains a =
      (decide (a ∈ keys) || s.contains a) := by
  induction keys generalizing s with
  | nil => simp
  | cons k rest ih =>
    rw [foldl_cons, ih, contains_insert]
    by_cases hrest : a ∈ rest
    · simp [hrest]
    · by_cases hk : k = a
      · simp [hk]
      · simp [hk, hrest, show a ≠ k from fun h ↦ hk h.symm]

/-- The set of the elements of a list. -/
def ofList (keys : List κ) : SetOf κ := keys.foldl (fun s k ↦ s.insert k) ∅

@[simp] theorem contains_ofList [Std.LawfulEqOrd κ] [DecidableEq κ] (keys : List κ) (a : κ) :
    (ofList keys).contains a = decide (a ∈ keys) := by
  rw [ofList, contains_foldl_insert]
  simp

/-- A set is the set of its own elements. -/
theorem ofList_toList [Std.LawfulEqOrd κ] [DecidableEq κ] (s : SetOf κ) : ofList s.toList = s := by
  apply Std.ExtTreeSet.ext_mem
  intro k
  rw [← Std.ExtTreeSet.contains_iff_mem, contains_ofList, decide_eq_true_iff,
    Std.ExtTreeSet.mem_toList]

theorem size_foldl_insert_le (keys : List κ) (s : SetOf κ) :
    (keys.foldl (fun s k ↦ s.insert k) s).size ≤ s.size + keys.length := by
  induction keys generalizing s with
  | nil => simp
  | cons k rest ih =>
    have hinsert : (s.insert k).size ≤ s.size + 1 := Std.ExtTreeSet.size_insert_le
    have := ih (s.insert k)
    simp only [foldl_cons, length_cons]
    omega

variable {s : SetOf κ}

/-- A list that adds one element for each of its members repeats none, and none was there before. -/
theorem nodup_of_size_foldl_insert [Std.LawfulEqOrd κ] [DecidableEq κ]
    (h : (keys.foldl (fun s k ↦ s.insert k) s).size = s.size + keys.length) :
    keys.Nodup ∧ ∀ k ∈ keys, s.contains k = false := by
  induction keys generalizing s with
  | nil => simp
  | cons k rest ih =>
    simp only [foldl_cons, length_cons] at h
    have hsize : (s.insert k).size = if s.contains k then s.size else s.size + 1 :=
      Std.ExtTreeSet.size_insert
    have hle := size_foldl_insert_le rest (s.insert k)
    have hfresh : s.contains k = false := by
      by_contra hcontains
      rw [Bool.not_eq_false] at hcontains
      rw [hcontains, if_pos rfl] at hsize
      omega
    rw [hfresh, if_neg (by simp)] at hsize
    obtain ⟨hnodup, hrest⟩ := ih (s := s.insert k) (by omega)
    have hsplit : ∀ a ∈ rest, k ≠ a ∧ s.contains a = false := fun a ha ↦ by
      simpa [contains_insert] using hrest a ha
    refine ⟨nodup_cons.mpr ⟨fun hmem ↦ (hsplit k hmem).1 rfl, hnodup⟩, ?_⟩
    rintro a (_ | ⟨_, ha⟩)
    · exact hfresh
    · exact (hsplit a ha).2

theorem size_foldl_insert_of_nodup [Std.LawfulEqOrd κ] [DecidableEq κ] (hnodup : keys.Nodup)
    (hfresh : ∀ k ∈ keys, s.contains k = false) :
    (keys.foldl (fun s k ↦ s.insert k) s).size = s.size + keys.length := by
  induction keys generalizing s with
  | nil => simp
  | cons k rest ih =>
    obtain ⟨hnot, hrest⟩ := nodup_cons.mp hnodup
    have hk := hfresh k mem_cons_self
    have hsize : (s.insert k).size = s.size + 1 := by
      rw [Std.ExtTreeSet.size_insert, hk]
      rfl
    rw [foldl_cons, ih hrest, hsize, length_cons]
    · omega
    · intro a ha
      have hne : k ≠ a := fun h ↦ hnot (h ▸ ha)
      simpa [contains_insert, hne] using hfresh a (mem_cons_of_mem _ ha)

/-- Counting the elements tells whether a list repeats one. -/
theorem size_ofList_eq_iff [Std.LawfulEqOrd κ] [DecidableEq κ] :
    (ofList keys).size = keys.length ↔ keys.Nodup := by
  have hempty : (∅ : SetOf κ).size = 0 := Std.ExtTreeSet.size_empty
  constructor
  · exact fun h ↦ (nodup_of_size_foldl_insert (s := ∅) (by rw [hempty, Nat.zero_add]; exact h)).1
  · intro h
    have := size_foldl_insert_of_nodup (s := (∅ : SetOf κ)) h (by simp)
    rw [hempty, Nat.zero_add] at this
    exact this

/-- Whether every element of a set is in another one. -/
def isSubset (s t : SetOf κ) : Bool := s.toList.all fun k ↦ t.contains k

theorem isSubset_iff [Std.LawfulEqOrd κ] {t : SetOf κ} :
    SetOf.isSubset s t ↔ ∀ k, s.contains k → t.contains k := by
  simp only [isSubset, all_eq_true, Std.ExtTreeSet.mem_toList, Std.ExtTreeSet.contains_iff_mem]

end SetOf

end Garive
