import Garive.Json.Build

/-!
# Records as JSON

How a typed record is written as a value and read back. Machine integers become numbers, sequences
become arrays, and an absent option becomes `null`; a reader takes a missing field for an absent
option. A writer and a reader fit when the reader returns what the writer was given, and the fit of a
record follows from the fit of its fields.
-/

namespace Garive

variable {α : Type}

/-- The reader returns what the writer was given. -/
def ReadsBack (write : α → Value) (read : Value → Option α) : Prop :=
  ∀ a, read (write a) = some a

namespace Value

/-! ## Writing -/

def ofU32 (n : UInt32) : Value := .number (.posInt n.toNat)

def ofU64 (n : UInt64) : Value := .number (.posInt n.toNat)

/-- An option; absence is `null`. -/
def ofOption (write : α → Value) : Option α → Value
  | none => .null
  | some a => write a

def ofList (write : α → Value) (items : List α) : Value := .array (items.map write)

/-! ## Reading -/

def toU32 (value : Value) : Option UInt32 := do
  let n ← value.asU64
  if n < 2 ^ 32 then some (.ofNat n) else none

def toU64 (value : Value) : Option UInt64 := do
  let n ← value.asU64
  if n < 2 ^ 64 then some (.ofNat n) else none

def toOption (read : Value → Option α) : Value → Option (Option α)
  | .null => some none
  | value => (read value).map some

def toList (read : Value → Option α) (value : Value) : Option (List α) :=
  value.asArray.bind fun elements ↦ elements.mapM read

/-! ## Reading back -/

theorem readsBack_string : ReadsBack .string asStr := fun _ ↦ rfl

theorem readsBack_ofU32 : ReadsBack ofU32 toU32 := by
  intro n
  have h := n.toNat_lt
  simp [ofU32, toU32, Number.asU64, h]

theorem readsBack_ofU64 : ReadsBack ofU64 toU64 := by
  intro n
  have h := n.toNat_lt
  simp [ofU64, toU64, Number.asU64, h]

variable {read : Value → Option α} {write : α → Value}

/-- An option reads back when its values do and none of them is written as `null`. -/
theorem readsBack_ofOption (h : ReadsBack write read) (hnull : ∀ a, write a ≠ .null) :
    ReadsBack (ofOption write) (toOption read) := by
  rintro (_ | a)
  · rfl
  · rw [ofOption, toOption, h a]
    · rfl
    · exact hnull a

theorem mapM_map (h : ReadsBack write read) (items : List α) :
    (items.map write).mapM read = some items := by
  induction items with
  | nil => rfl
  | cons a rest ih => simp [h a, ih]

theorem readsBack_ofList (h : ReadsBack write read) :
    ReadsBack (ofList write) (toList read) := fun items ↦ mapM_map h items

/-! ## Depth -/

variable {n : Nat}

@[simp] theorem plain_ofU32 (i : UInt32) : (ofU32 i).Plain n :=
  plain_posInt (Nat.lt_of_lt_of_le i.toNat_lt (by decide))

@[simp] theorem plain_ofU64 (i : UInt64) : (ofU64 i).Plain n := plain_posInt i.toNat_lt

theorem plain_ofOption (h : ∀ a, (write a).Plain n) (value : Option α) :
    (ofOption write value).Plain n := by
  cases value with
  | none => exact plain_null
  | some a => exact h a

theorem plain_ofList {items : List α} (h : ∀ a ∈ items, (write a).Plain n) :
    (ofList write items).Plain (n + 1) :=
  plain_array fun value hvalue ↦ by
    obtain ⟨a, ha, rfl⟩ := List.mem_map.mp hvalue
    exact h a ha

end Value

namespace Object

/-- A field that must be there. -/
def field? (members : Object) (read : Value → Option α) (key : String) : Option α :=
  (members.get? key).bind read

/-- A field that may be missing. -/
def optionalField? (members : Object) (read : Value → Option α) (key : String) :
    Option (Option α) :=
  match members.get? key with
  | none => some none
  | some value => value.toOption read

end Object

end Garive
