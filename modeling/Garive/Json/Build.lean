import Garive.Json.Value
import Mathlib.Data.String.Basic

/-!
# Objects as they are written

An object is written as a list of fields and stored as a map: a `BTreeMap` keeps its keys in order
whatever the order of the fields. What is read from such an object, and whether it can be stored and
read back, is told here from the fields.
-/

namespace Garive

open List

variable {fields : List (String × Value)}

namespace Object

/-- Puts a member where its key belongs, over the member that was there. -/
def insert (members : Object) (key : String) (value : Value) : Object :=
  match members with
  | [] => [(key, value)]
  | (k, v) :: rest =>
    if key < k then (key, value) :: (k, v) :: rest
    else if key = k then (key, value) :: rest
    else (k, v) :: insert rest key value

/-- The members that fields with different keys make. -/
def ofFields : List (String × Value) → Object
  | [] => []
  | (key, value) :: rest => insert (ofFields rest) key value

@[simp] theorem get?_insert (members : Object) (key other : String) (value : Value) :
    (members.insert key value).get? other =
      if key = other then some value else members.get? other := by
  induction members with
  | nil => simp [insert]
  | cons entry rest ih =>
    obtain ⟨k, _⟩ := entry
    rw [insert]
    split
    · simp
    · split
      · rename_i hkey
        simp only [get?_cons, ← hkey]
        split <;> rfl
      · rename_i hkey
        rw [get?_cons, get?_cons, ih]
        by_cases hk : k = other
        · simp [hk, show key ≠ other from fun h ↦ hkey (h.trans hk.symm)]
        · simp [hk]

@[simp] theorem get?_ofFields (fields : List (String × Value)) (key : String) :
    (ofFields fields).get? key = Object.get? fields key := by
  induction fields with
  | nil => rfl
  | cons entry rest ih => rw [ofFields, get?_insert, get?_cons, ih]

@[simp] theorem containsKey_ofFields (fields : List (String × Value)) (key : String) :
    (ofFields fields).containsKey key = Object.containsKey fields key := by
  rw [containsKey, get?_ofFields, containsKey]

@[simp] theorem containsKey_nil (key : String) : containsKey [] key = false := rfl

@[simp] theorem containsKey_cons (entry : String × Value) (members : Object) (key : String) :
    containsKey (entry :: members) key = (decide (entry.1 = key) || containsKey members key) := by
  rw [containsKey, get?_cons, containsKey]
  by_cases h : entry.1 = key <;> simp [h]

variable {key : String} {value : Value}

variable {members : Object}

theorem mem_keys_insert {other : String} :
    other ∈ (members.insert key value).map (·.1) ↔ other = key ∨ other ∈ members.map (·.1) := by
  induction members with
  | nil => simp [insert]
  | cons entry rest ih =>
    obtain ⟨_, _⟩ := entry
    rw [insert]
    split
    · simp
    · split
      · rename_i hkey
        simp [hkey]
      · rw [map_cons, mem_cons, ih, map_cons, mem_cons, or_left_comm]

theorem mem_keys_ofFields : key ∈ (ofFields fields).map (·.1) ↔ key ∈ fields.map (·.1) := by
  induction fields with
  | nil => rfl
  | cons entry rest ih => rw [ofFields, mem_keys_insert, ih, map_cons, mem_cons]

variable {entry : String × Value}

theorem mem_insert (h : entry ∈ members.insert key value) :
    entry = (key, value) ∨ entry ∈ members := by
  induction members with
  | nil => simpa [insert] using h
  | cons first rest ih =>
    obtain ⟨_, _⟩ := first
    rw [insert] at h
    split at h
    · simpa using h
    · split at h
      · rcases mem_cons.mp h with h | h
        · exact .inl h
        · exact .inr (mem_cons_of_mem _ h)
      · rcases mem_cons.mp h with h | h
        · exact .inr (h ▸ mem_cons_self)
        · exact (ih h).imp_right (mem_cons_of_mem _)

theorem mem_ofFields (h : entry ∈ ofFields fields) : entry ∈ fields := by
  induction fields with
  | nil => cases h
  | cons first rest ih =>
    rcases mem_insert h with rfl | h
    · exact mem_cons_self
    · exact mem_cons_of_mem _ (ih h)

/-- Keys stay in order. -/
theorem pairwise_insert (h : members.Pairwise fun a b ↦ a.1 < b.1) :
    (members.insert key value).Pairwise fun a b ↦ a.1 < b.1 := by
  induction members with
  | nil => simp [insert]
  | cons first rest ih =>
    obtain ⟨_, _⟩ := first
    obtain ⟨hfirst, hrest⟩ := pairwise_cons.mp h
    rw [insert]
    split
    · rename_i hlt
      refine pairwise_cons.mpr ⟨fun entry hentry ↦ ?_, h⟩
      rcases mem_cons.mp hentry with rfl | hentry
      · exact hlt
      · exact lt_trans hlt (hfirst entry hentry)
    · split
      · rename_i hkey
        subst hkey
        exact pairwise_cons.mpr ⟨hfirst, hrest⟩
      · rename_i hnlt hne
        refine pairwise_cons.mpr ⟨fun entry hentry ↦ ?_, ih hrest⟩
        rcases mem_insert hentry with rfl | hentry
        · exact lt_of_le_of_ne (not_lt.mp hnlt) (Ne.symm hne)
        · exact hfirst entry hentry

theorem pairwise_ofFields (fields : List (String × Value)) :
    (ofFields fields).Pairwise fun a b ↦ a.1 < b.1 := by
  induction fields with
  | nil => exact List.Pairwise.nil
  | cons entry rest ih => exact pairwise_insert ih

-- Reading goes through the lemmas above and never through the order of the keys.
attribute [irreducible] ofFields

end Object

/-! ## Values that can be read back -/

/-- A value that is stored as it is, with a bound on its depth. -/
structure Value.Plain (n : Nat) (value : Value) : Prop where
  wellFormed : value.WellFormed
  depth_le : value.depth ≤ n
  exact : value.Exact

/-- An object written as fields. -/
def json (fields : List (String × Value)) : Value := .object (Object.ofFields fields)

namespace Value

variable {n : Nat}

variable {members : List (String × Value)}

theorem wellFormedMembers_iff :
    WellFormedMembers members ↔ ∀ entry ∈ members, entry.2.WellFormed := by
  induction members with
  | nil => simp [WellFormedMembers]
  | cons entry rest ih => simp [WellFormedMembers, ih]

theorem depthMembers_le_iff : depthMembers members ≤ n ↔ ∀ entry ∈ members, entry.2.depth ≤ n := by
  induction members with
  | nil => simp [depthMembers]
  | cons entry rest ih => simp [depthMembers, ih]

theorem exactMembers_iff : ExactMembers members ↔ ∀ entry ∈ members, entry.2.Exact := by
  induction members with
  | nil => simp [ExactMembers]
  | cons entry rest ih => simp [ExactMembers, ih]

variable {elements : List Value}

theorem wellFormedElements_iff :
    WellFormedElements elements ↔ ∀ value ∈ elements, value.WellFormed := by
  induction elements with
  | nil => simp [WellFormedElements]
  | cons entry rest ih => simp [WellFormedElements, ih]

theorem depthElements_le_iff :
    depthElements elements ≤ n ↔ ∀ value ∈ elements, value.depth ≤ n := by
  induction elements with
  | nil => simp [depthElements]
  | cons entry rest ih => simp [depthElements, ih]

theorem exactElements_iff : ExactElements elements ↔ ∀ value ∈ elements, value.Exact := by
  induction elements with
  | nil => simp [ExactElements]
  | cons entry rest ih => simp [ExactElements, ih]

@[simp] theorem plain_null : null.Plain n := ⟨trivial, Nat.zero_le n, trivial⟩

@[simp] theorem plain_bool (b : Bool) : (bool b).Plain n := ⟨trivial, Nat.zero_le n, trivial⟩

@[simp] theorem plain_string (text : String) : (string text).Plain n :=
  ⟨trivial, Nat.zero_le n, trivial⟩

theorem plain_posInt {i : Nat} (h : i < 2 ^ 64) : (number (.posInt i)).Plain n :=
  ⟨h, Nat.zero_le n, trivial⟩

/-- An object of plain members, in key order. -/
theorem plain_object (horder : members.Pairwise fun a b ↦ a.1 < b.1)
    (h : ∀ entry ∈ members, entry.2.Plain n) : (object members).Plain (n + 1) where
  wellFormed := ⟨horder, wellFormedMembers_iff.mpr fun entry hentry ↦ (h entry hentry).wellFormed⟩
  depth_le := by
    rw [depth, Nat.add_le_add_iff_right, depthMembers_le_iff]
    exact fun entry hentry ↦ (h entry hentry).depth_le
  exact := exactMembers_iff.mpr fun entry hentry ↦ (h entry hentry).exact

/-- An object of plain fields. -/
theorem plain_json (h : ∀ entry ∈ fields, entry.2.Plain n) : (json fields).Plain (n + 1) :=
  plain_object (Object.pairwise_ofFields fields) fun entry hentry ↦
    h entry (Object.mem_ofFields hentry)

theorem plain_array (h : ∀ value ∈ elements, value.Plain n) : (array elements).Plain (n + 1) where
  wellFormed := wellFormedElements_iff.mpr fun value hvalue ↦ (h value hvalue).wellFormed
  depth_le := by
    rw [depth, Nat.add_le_add_iff_right, depthElements_le_iff]
    exact fun value hvalue ↦ (h value hvalue).depth_le
  exact := exactElements_iff.mpr fun value hvalue ↦ (h value hvalue).exact

/-! ### Deciding it -/

mutual

/-- Whether the value is stored as it is: it has no fractions, no negative numbers, and its keys are
in order. -/
def isStored : Value → Bool
  | .null => true
  | .bool _ => true
  | .string _ => true
  | .number (.posInt i) => decide (i < 2 ^ 64)
  | .number _ => false
  | .array elements => isStoredElements elements
  | .object members => decide (members.Pairwise fun a b ↦ a.1 < b.1) && isStoredMembers members

/-- `isStored` for every element of an array. -/
def isStoredElements : List Value → Bool
  | [] => true
  | value :: rest => isStored value && isStoredElements rest

/-- `isStored` for every member of an object. -/
def isStoredMembers : List (String × Value) → Bool
  | [] => true
  | (_, value) :: rest => isStored value && isStoredMembers rest

end

mutual

theorem stored_of_isStored : (value : Value) → value.isStored → value.WellFormed ∧ value.Exact
  | .null, _ => ⟨trivial, trivial⟩
  | .bool _, _ => ⟨trivial, trivial⟩
  | .string _, _ => ⟨trivial, trivial⟩
  | .number (.posInt i), h => ⟨of_decide_eq_true (p := i < 2 ^ 64) h, trivial⟩
  | .array elements, h => storedElements_of_isStored elements h
  | .object members, h => by
    rw [isStored, Bool.and_eq_true, decide_eq_true_eq] at h
    have hmembers := storedMembers_of_isStored members h.2
    exact ⟨⟨h.1, hmembers.1⟩, hmembers.2⟩

theorem storedElements_of_isStored : (elements : List Value) → isStoredElements elements →
    WellFormedElements elements ∧ ExactElements elements
  | [], _ => ⟨trivial, trivial⟩
  | value :: rest, h => by
    rw [isStoredElements, Bool.and_eq_true] at h
    have hvalue := stored_of_isStored value h.1
    have hrest := storedElements_of_isStored rest h.2
    exact ⟨⟨hvalue.1, hrest.1⟩, hvalue.2, hrest.2⟩

theorem storedMembers_of_isStored : (members : List (String × Value)) →
    isStoredMembers members → WellFormedMembers members ∧ ExactMembers members
  | [], _ => ⟨trivial, trivial⟩
  | (_, value) :: rest, h => by
    rw [isStoredMembers, Bool.and_eq_true] at h
    have hvalue := stored_of_isStored value h.1
    have hrest := storedMembers_of_isStored rest h.2
    exact ⟨⟨hvalue.1, hrest.1⟩, hvalue.2, hrest.2⟩

end

end Value

end Garive
