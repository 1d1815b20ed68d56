import Garive.Lib.Except
import Mathlib.Algebra.Group.Int.Defs

/-!
# JSON values and their canonical text

The values a payload is made of, and the canonical text the ledger stores for them: no whitespace,
object members in key order, integers only, and one fixed escape for every character that needs
one. Objects are kept as the list of their members. A parsed object is a `BTreeMap`, so its keys
are strictly increasing; `Value.WellFormed` says so at every depth, together with the range of the
numbers.

## Failure

Encoding fails on one kind of value only, a number that is not an integer. The failure is reported
for the first such number in document order, and nothing else about a value can make encoding fail.
-/

namespace Garive

/-- A JSON number: a non-negative or a negative machine integer, or a float given by its bits. -/
inductive Number where
  | posInt (n : Nat)
  | negInt (n : Int)
  | float (bits : Nat)
deriving DecidableEq

/-- A JSON value. The members of an object are listed in the order the map iterates them. -/
inductive Value where
  | null
  | bool (b : Bool)
  | number (n : Number)
  | string (text : String)
  | array (elements : List Value)
  | object (members : List (String × Value))

/-- The members of a JSON object. -/
abbrev Object := List (String × Value)

namespace Number

/-- The integer a number denotes as a `u64`. -/
def asU64 : Number → Option Nat
  | posInt n => some n
  | _ => none

/-- A number lies in the range of the machine type that holds it. -/
def WellFormed : Number → Prop
  | posInt n => n < 2 ^ 64
  | negInt n => -2 ^ 63 ≤ n ∧ n < 0
  | float bits => bits < 2 ^ 64

end Number

variable {members : Object}

namespace Object

/-- The value stored under `key`. -/
def get? (members : Object) (key : String) : Option Value :=
  (members.find? fun entry ↦ entry.1 == key).map (·.2)

/-- Whether `key` names a member. -/
def containsKey (members : Object) (key : String) : Bool :=
  (get? members key).isSome

@[simp] theorem get?_nil (key : String) : get? [] key = none := rfl

@[simp] theorem get?_cons (entry : String × Value) (members : Object) (key : String) :
    get? (entry :: members) key = if entry.1 = key then some entry.2 else get? members key := by
  by_cases h : entry.1 = key <;> simp [get?, h]

theorem get?_eq_none_iff {key : String} :
    get? members key = none ↔ ∀ entry ∈ members, entry.1 ≠ key := by
  simp [get?]

end Object

variable {value : Value}

namespace Value

/-- The text of a string value. -/
def asStr : Value → Option String
  | string text => some text
  | _ => none

/-- The number of an unsigned integer value. -/
def asU64 : Value → Option Nat
  | number n => n.asU64
  | _ => none

/-- The truth value of a Boolean value. -/
def asBool : Value → Option Bool
  | bool b => some b
  | _ => none

/-- The elements of an array value. -/
def asArray : Value → Option (List Value)
  | array elements => some elements
  | _ => none

/-- The members of an object value. -/
def asObject : Value → Option Object
  | object members => some members
  | _ => none

/-- The member of an object value stored under `key`; other values have no members. -/
def get? (value : Value) (key : String) : Option Value :=
  value.asObject.bind fun members ↦ members.get? key

@[simp] theorem asStr_string (text : String) : (string text).asStr = some text := rfl
@[simp] theorem asU64_number (n : Number) : (number n).asU64 = n.asU64 := rfl
@[simp] theorem asObject_object (members : Object) : (object members).asObject = some members := rfl
@[simp] theorem asArray_array (elements : List Value) : (array elements).asArray = some elements :=
  rfl

@[simp] theorem get?_object (members : Object) (key : String) :
    (object members).get? key = Object.get? members key := rfl

theorem asStr_eq_some_iff {text : String} : value.asStr = some text ↔ value = string text := by
  cases value <;> simp [asStr]

theorem asU64_eq_some_iff {n : Nat} : value.asU64 = some n ↔ value = number (.posInt n) := by
  rcases value with _ | _ | n | _ | _ | _ <;> try simp [asU64]
  cases n <;> simp [Number.asU64]

theorem asArray_eq_some_iff {elements : List Value} :
    value.asArray = some elements ↔ value = array elements := by
  cases value <;> simp [asArray]

theorem asObject_eq_some_iff : value.asObject = some members ↔ value = object members := by
  cases value <;> simp [asObject]

mutual

/-- Numbers are in range and the keys of every object are strictly increasing. -/
def WellFormed : Value → Prop
  | null => True
  | bool _ => True
  | number n => n.WellFormed
  | string _ => True
  | array elements => WellFormedElements elements
  | object members => members.Pairwise (fun a b ↦ a.1 < b.1) ∧ WellFormedMembers members

/-- `WellFormed` for every element of an array. -/
def WellFormedElements : List Value → Prop
  | [] => True
  | value :: rest => WellFormed value ∧ WellFormedElements rest

/-- `WellFormed` for every member of an object. -/
def WellFormedMembers : List (String × Value) → Prop
  | [] => True
  | (_, value) :: rest => WellFormed value ∧ WellFormedMembers rest

end

mutual

/-- The nesting depth of arrays and objects. -/
def depth : Value → Nat
  | array elements => depthElements elements + 1
  | object members => depthMembers members + 1
  | _ => 0

/-- The largest depth among the elements of an array. -/
def depthElements : List Value → Nat
  | [] => 0
  | value :: rest => max (depth value) (depthElements rest)

/-- The largest depth among the members of an object. -/
def depthMembers : List (String × Value) → Nat
  | [] => 0
  | (_, value) :: rest => max (depth value) (depthMembers rest)

end

end Value

/-! ## Equality of values -/

namespace Value

mutual

/-- Structural comparison of values. -/
def beq : Value → Value → Bool
  | null, null => true
  | bool a, bool b => a == b
  | number a, number b => a == b
  | string a, string b => a == b
  | array a, array b => beqElements a b
  | object a, object b => beqMembers a b
  | _, _ => false

/-- `beq` for the elements of two arrays. -/
def beqElements : List Value → List Value → Bool
  | [], [] => true
  | a :: as, b :: bs => beq a b && beqElements as bs
  | _, _ => false

/-- `beq` for the members of two objects. -/
def beqMembers : List (String × Value) → List (String × Value) → Bool
  | [], [] => true
  | (k, a) :: as, (l, b) :: bs => k == l && beq a b && beqMembers as bs
  | _, _ => false

end

mutual

theorem beq_iff : (a b : Value) → (beq a b ↔ a = b)
  | null, b => by cases b <;> simp [beq]
  | bool a, b => by cases b <;> simp [beq]
  | number a, b => by cases b <;> simp [beq]
  | string a, b => by cases b <;> simp [beq]
  | array as, b => by
    cases b with
    | array bs => simp [beq, beqElements_iff as bs]
    | _ => simp [beq]
  | object as, b => by
    cases b with
    | object bs => simp [beq, beqMembers_iff as bs]
    | _ => simp [beq]

theorem beqElements_iff : (as bs : List Value) → (beqElements as bs ↔ as = bs)
  | [], bs => by cases bs <;> simp [beqElements]
  | a :: as, bs => by
    cases bs with
    | nil => simp [beqElements]
    | cons b bs => simp [beqElements, beq_iff a b, beqElements_iff as bs]

theorem beqMembers_iff : (as bs : List (String × Value)) → (beqMembers as bs ↔ as = bs)
  | [], bs => by cases bs <;> simp [beqMembers]
  | (k, a) :: as, bs => by
    cases bs with
    | nil => simp [beqMembers]
    | cons b bs =>
      obtain ⟨_, b⟩ := b
      simp [beqMembers, beq_iff a b, beqMembers_iff as bs]

end

instance : DecidableEq Value := fun a b ↦ decidable_of_iff (beq a b = true) (beq_iff a b)

end Value

/-! ## Canonical text -/

/-- Failure while canonicalizing or validating a persisted payload. -/
inductive CanonicalPayloadError where
  /-- Stored bytes are not valid JSON. -/
  | invalidJson
  /-- The JSON number is outside the admitted integer-only surface. -/
  | unsupportedNumber
  /-- Stored JSON is valid but not in the required canonical representation. -/
  | nonCanonical
  /-- Stored or in-memory payload bytes do not match the bound digest. -/
  | digestMismatch
deriving DecidableEq

/-- The lowercase hexadecimal digit of a number below sixteen. -/
def hexDigit (n : Nat) : Char :=
  if n < 10 then Char.ofNat ('0'.toNat + n) else Char.ofNat ('a'.toNat + (n - 10))

/-- The canonical escape of one character of a string. -/
def encodeChar (character : Char) : List Char :=
  if character = '"' then ['\\', '"']
  else if character = '\\' then ['\\', '\\']
  else if character = Char.ofNat 0x08 then ['\\', 'b']
  else if character = Char.ofNat 0x0c then ['\\', 'f']
  else if character = '\n' then ['\\', 'n']
  else if character = '\r' then ['\\', 'r']
  else if character = '\t' then ['\\', 't']
  else if character.toNat ≤ 0x1f then
    ['\\', 'u', '0', '0', hexDigit (character.toNat / 16), hexDigit (character.toNat % 16)]
  else [character]

/-- The canonical text of a string, with its quotes. -/
def encodeString (text : String) : List Char :=
  '"' :: text.toList.flatMap encodeChar ++ ['"']

/-- The decimal text of an integer; floats have no canonical text. -/
def encodeNumber : Number → Except CanonicalPayloadError (List Char)
  | .posInt n => .ok (Nat.toDigits 10 n)
  | .negInt n => .ok ('-' :: Nat.toDigits 10 n.natAbs)
  | .float _ => .error .unsupportedNumber

mutual

/-- The canonical text of a value. -/
def encodeValue : Value → Except CanonicalPayloadError (List Char)
  | .null => .ok "null".toList
  | .bool b => .ok (if b then "true".toList else "false".toList)
  | .number n => encodeNumber n
  | .string text => .ok (encodeString text)
  | .array elements => do
    let body ← encodeElements elements
    return '[' :: body ++ [']']
  | .object members => do
    let body ← encodeMembers members
    return '{' :: body ++ ['}']

/-- The elements of an array, separated by commas. -/
def encodeElements : List Value → Except CanonicalPayloadError (List Char)
  | [] => .ok []
  | [value] => encodeValue value
  | value :: next :: rest => do
    let head ← encodeValue value
    let tail ← encodeElements (next :: rest)
    return head ++ ',' :: tail

/-- The members of an object, separated by commas. -/
def encodeMembers : List (String × Value) → Except CanonicalPayloadError (List Char)
  | [] => .ok []
  | [(key, value)] => do
    let body ← encodeValue value
    return encodeString key ++ ':' :: body
  | (key, value) :: next :: rest => do
    let body ← encodeValue value
    let tail ← encodeMembers (next :: rest)
    return encodeString key ++ ':' :: body ++ ',' :: tail

end

mutual

/-- A value without floats. -/
def Value.Exact : Value → Prop
  | .number (.float _) => False
  | .array elements => Value.ExactElements elements
  | .object members => Value.ExactMembers members
  | _ => True

/-- `Exact` for every element of an array. -/
def Value.ExactElements : List Value → Prop
  | [] => True
  | value :: rest => Exact value ∧ ExactElements rest

/-- `Exact` for every member of an object. -/
def Value.ExactMembers : List (String × Value) → Prop
  | [] => True
  | (_, value) :: rest => Exact value ∧ ExactMembers rest

end

mutual

/-- A value without floats has a canonical text. -/
theorem exists_encodeValue : (value : Value) → value.Exact → ∃ text, encodeValue value = .ok text
  | .null, _ | .bool _, _ | .string _, _ => ⟨_, rfl⟩
  | .number (.posInt _), _ | .number (.negInt _), _ => ⟨_, rfl⟩
  | .array elements, h => by
    obtain ⟨body, hbody⟩ := exists_encodeElements elements h
    exact ⟨'[' :: body ++ [']'], by rw [encodeValue, hbody]; rfl⟩
  | .object members, h => by
    obtain ⟨body, hbody⟩ := exists_encodeMembers members h
    exact ⟨'{' :: body ++ ['}'], by rw [encodeValue, hbody]; rfl⟩

theorem exists_encodeElements : (elements : List Value) → Value.ExactElements elements →
    ∃ body, encodeElements elements = .ok body
  | [], _ => ⟨[], rfl⟩
  | [value], h => exists_encodeValue value h.1
  | value :: next :: rest, h => by
    obtain ⟨head, hhead⟩ := exists_encodeValue value h.1
    obtain ⟨tail, htail⟩ := exists_encodeElements (next :: rest) h.2
    exact ⟨head ++ ',' :: tail, by rw [encodeElements, hhead, ok_bind, htail]; rfl⟩

theorem exists_encodeMembers : (members : List (String × Value)) → Value.ExactMembers members →
    ∃ body, encodeMembers members = .ok body
  | [], _ => ⟨[], rfl⟩
  | [(key, value)], h => by
    obtain ⟨body, hbody⟩ := exists_encodeValue value h.1
    exact ⟨encodeString key ++ ':' :: body, by rw [encodeMembers, hbody]; rfl⟩
  | (key, value) :: next :: rest, h => by
    obtain ⟨body, hbody⟩ := exists_encodeValue value h.1
    obtain ⟨tail, htail⟩ := exists_encodeMembers (next :: rest) h.2
    exact ⟨encodeString key ++ ':' :: body ++ ',' :: tail,
      by rw [encodeMembers, hbody, ok_bind, htail]; rfl⟩

end

/-- The canonical text of a value, or the number that has none. -/
def encode (value : Value) : Except CanonicalPayloadError String := do
  let chars ← encodeValue value
  return String.ofList chars

theorem exists_encode (h : value.Exact) : ∃ text, encode value = .ok text := by
  obtain ⟨chars, hchars⟩ := exists_encodeValue value h
  exact ⟨.ofList chars, by rw [encode, hchars]; rfl⟩

end Garive
