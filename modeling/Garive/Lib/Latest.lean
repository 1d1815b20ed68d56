import Garive.Lib.Map
import Mathlib.Data.List.Induction

/-!
# The last entry of a history

What a history says last about something: the last entry that passes a test, and the last entry for
each key. Both are read off as an append-only history grows at its end. Where a thing may be said
only once, its sole entry is asked for instead.
-/

namespace Garive

open List

variable {α κ : Type}

/-- The last element that passes a test. -/
def rfind? (p : α → Bool) (l : List α) : Option α := l.reverse.find? p

@[simp] theorem rfind?_nil (p : α → Bool) : rfind? p [] = none := rfl

theorem rfind?_append (p : α → Bool) (l m : List α) :
    rfind? p (l ++ m) = (rfind? p m).or (rfind? p l) := by
  rw [rfind?, reverse_append, find?_append]
  rfl

theorem rfind?_concat (p : α → Bool) (l : List α) (a : α) :
    rfind? p (l ++ [a]) = if p a then some a else rfind? p l := by
  rw [rfind?_append]
  by_cases h : p a
  · simp [rfind?, h]
  · simp [rfind?, h]

variable {l : List α} {p : α → Bool}

theorem rfind?_eq_none_iff : rfind? p l = none ↔ ∀ a ∈ l, ¬p a := by
  simp [rfind?]

variable {a : α}

theorem mem_of_rfind? (h : rfind? p l = some a) : a ∈ l :=
  mem_reverse.mp (mem_of_find?_eq_some h)

theorem rfind?_some (h : rfind? p l = some a) : p a :=
  find?_some h

/-- Elements that are not kept leave the kept ones as they are. -/
theorem filter_append_of_forall_false {added : List α} (h : ∀ a ∈ added, p a = false) :
    (l ++ added).filter p = l.filter p := by
  rw [filter_append, (filter_eq_nil_iff (l := added)).mpr (by simpa using h),
    append_nil]

/-- An element that is not kept leaves the kept ones as they are. -/
theorem filterMap_concat_none {β : Type} {f : α → Option β} (h : f a = none) (l : List α) :
    (l ++ [a]).filterMap f = l.filterMap f := by
  rw [filterMap_append, filterMap_cons_none h, filterMap_nil, append_nil]

/-- An element that is kept comes last. -/
theorem filterMap_concat_some {β : Type} {f : α → Option β} {b : β} (h : f a = some b) (l : List α) :
    (l ++ [a]).filterMap f = l.filterMap f ++ [b] := by
  rw [filterMap_append, filterMap_cons_some h, filterMap_nil]

/-- A test that some element passes has a last element that passes it. -/
theorem exists_rfind? (ha : a ∈ l) (hp : p a) : ∃ b, rfind? p l = some b := by
  rw [← Option.ne_none_iff_exists']
  intro hnone
  exact rfind?_eq_none_iff.mp hnone a ha hp

/-- The last element that passes a weaker test, if it passes the stronger one too. -/
theorem rfind?_of_imp {q : α → Bool} (himp : ∀ b ∈ l, q b → p b)
    (h : rfind? p l = some a) (hq : q a) : rfind? q l = some a := by
  induction l using reverseRecOn with
  | nil => cases h
  | append_singleton l b ih =>
    rw [rfind?_concat] at h ⊢
    by_cases hpb : p b
    · rw [if_pos hpb, Option.some.injEq] at h
      rw [h, if_pos hq]
    · have hqb : ¬q b := fun hqb ↦ hpb (himp b (by simp) hqb)
      rw [if_neg hpb] at h
      rw [if_neg hqb]
      exact ih (fun c hc ↦ himp c (mem_append_left _ hc)) h

theorem rfind?_filter (p q : α → Bool) (l : List α) :
    rfind? p (l.filter q) = rfind? (fun a ↦ q a && p a) l := by
  rw [rfind?, rfind?, ← filter_reverse, find?_filter]
  congr
  funext a
  simp

theorem rfind?_map {β : Type} (p : β → Bool) (f : α → β) (l : List α) :
    rfind? p (l.map f) = (rfind? (fun a ↦ p (f a)) l).map f := by
  rw [rfind?, rfind?, ← map_reverse, find?_map]
  rfl

/-! ## The sole entry -/

/-- The element of a list that has exactly one. -/
def sole? : List α → Option α
  | [a] => some a
  | _ => none

theorem sole?_eq_some_iff : sole? l = some a ↔ l = [a] := by
  rcases l with _ | ⟨b, _ | ⟨c, rest⟩⟩ <;> simp [sole?]

/-- The order of the elements does not matter. -/
theorem sole?_of_perm {m : List α} (h : l.Perm m) : sole? l = sole? m := by
  ext a
  rw [sole?_eq_some_iff, sole?_eq_some_iff]
  constructor
  · rintro rfl
    exact singleton_perm.mp h |>.symm
  · rintro rfl
    exact perm_singleton.mp h

/-! ## The last entries by key -/

variable {k : κ}

section Writes

variable {ν : Type} [DecidableEq κ]

/-- What a history wrote last under a key. -/
def lastWrite (write : α → Option (κ × ν)) (l : List α) (k : κ) : Option ν :=
  (rfind? (fun a ↦ (write a).any (·.1 == k)) l).bind fun a ↦ (write a).map (·.2)

theorem lastWrite_eq_some_iff {write : α → Option (κ × ν)} {v : ν} : lastWrite write l k = some v ↔
      ∃ a, rfind? (fun a ↦ (write a).any (·.1 == k)) l = some a ∧ write a = some (k, v) := by
  rw [lastWrite, Option.bind_eq_some_iff]
  refine exists_congr fun a ↦ and_congr_right fun ha ↦ ?_
  have hkey := rfind?_some ha
  cases hwrite : write a with
  | none => simp [hwrite] at hkey
  | some entry =>
    obtain ⟨key, _⟩ := entry
    have hk : key = k := by simpa [hwrite] using hkey
    simp [hk]

end Writes

section Keyed

variable [Ord κ] [Std.TransOrd κ] [Std.LawfulEqOrd κ] [DecidableEq κ]

/-- The last element for each key. -/
def latestBy (key : α → Option κ) (l : List α) : Map κ α :=
  l.foldl (fun found a ↦ match key a with
    | some k => found.insert k a
    | none => found) ∅

theorem get?_latestBy (key : α → Option κ) (l : List α) (k : κ) :
    (latestBy key l)[k]? = rfind? (key · = some k) l := by
  induction l using reverseRecOn with
  | nil => rfl
  | append_singleton l a ih =>
    rw [rfind?_concat, ← ih, latestBy, foldl_append, ← latestBy]
    cases hkey : key a with
    | none => simp [hkey]
    | some found => simp [hkey, Map.get?_insert]

variable {key : α → κ}

/-- Where no key repeats, every element is the last one for its key. -/
theorem get?_latestBy_eq_some_iff (hnodup : (l.map key).Nodup) :
    (latestBy (fun a ↦ some (key a)) l)[k]? = some a ↔ a ∈ l ∧ key a = k := by
  rw [get?_latestBy]
  constructor
  · intro h
    exact ⟨mem_of_rfind? h, by simpa using rfind?_some h⟩
  · rintro ⟨hmem, rfl⟩
    have hpass : decide (some (key a) = some (key a)) := by simp
    obtain ⟨b, hb⟩ := exists_rfind? (p := fun c ↦ decide (some (key c) = some (key a))) hmem hpass
    have hkey : key b = key a := by simpa using rfind?_some hb
    rw [hb, inj_on_of_nodup_map hnodup (mem_of_rfind? hb) hmem hkey]

/-- Where no key repeats, the values of the map are the elements. -/
theorem values_latestBy_perm (hnodup : (l.map key).Nodup) :
    ((latestBy (fun a ↦ some (key a)) l).toList.map (·.2)).Perm l := by
  have hmem : ∀ entry : κ × α, entry ∈ (latestBy (fun a ↦ some (key a)) l).toList ↔
      entry.2 ∈ l ∧ key entry.2 = entry.1 := fun entry ↦ by
    rw [← get?_latestBy_eq_some_iff hnodup]
    exact Std.ExtTreeMap.mem_toList_iff_getElem?_eq_some
  have hinj : ∀ a ∈ (latestBy (fun a ↦ some (key a)) l).toList,
      ∀ b ∈ (latestBy (fun a ↦ some (key a)) l).toList, a.2 = b.2 → a = b := by
    intro a ha b hb heq
    exact Prod.ext (by rw [← ((hmem a).mp ha).2, ← ((hmem b).mp hb).2, heq]) heq
  refine (perm_ext_iff_of_nodup ((Map.nodup_toList _).map_on hinj) hnodup.of_map).mpr fun a ↦ ?_
  rw [mem_map]
  constructor
  · rintro ⟨entry, hentry, rfl⟩
    exact ((hmem entry).mp hentry).1
  · exact fun ha ↦ ⟨(key a, a), (hmem _).mpr ⟨ha, rfl⟩, rfl⟩

variable {ν : Type}

/-- Writes an entry, if there is one to write. -/
def Map.write (m : Map κ ν) : Option (κ × ν) → Map κ ν
  | some (k, v) => m.insert k v
  | none => m

/-- A map that a history was written to holds what was written last. -/
theorem get?_foldl_write (write : α → Option (κ × ν)) (l : List α) (k : κ) :
    (l.foldl (fun (m : Map κ ν) a ↦ m.write (write a)) ∅)[k]? = lastWrite write l k := by
  induction l using reverseRecOn with
  | nil => simp [lastWrite]
  | append_singleton l a ih =>
    rw [lastWrite, rfind?_concat, foldl_append, foldl_cons, foldl_nil]
    cases hwrite : write a with
    | none =>
      rw [lastWrite] at ih
      simpa [Map.write] using ih
    | some entry =>
      obtain ⟨key, _⟩ := entry
      rw [Map.write, Map.get?_insert, ih, lastWrite]
      by_cases h : key = k
      · simp [h, hwrite]
      · simp [h]

end Keyed

end Garive
