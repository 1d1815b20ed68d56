import Garive.Ledger.Types

/-!
# Field checks of runtime payloads

The checks the payload rules are built from. Each reads one field of an object and fails with
`invalidFact` when the field is missing or has the wrong shape; none of them changes anything, and
all of them report the same error, so a rule's outcome does not depend on the order of its checks.
-/

namespace Garive.RuntimeFacts

open Value

/-- The members of a payload that has to be an object. -/
def object (value : Value) : Except LedgerError Object :=
  okOr value.asObject .invalidFact

@[simp] theorem object_eq_ok_iff {value : Value} {members : Object} :
    object value = .ok members ↔ value = .object members := by
  rw [object, okOr_eq_ok_iff, asObject_eq_some_iff]

/-- Every required field is present and every field present is required or optional. -/
def fields (value : Object) (required optional : List String) : Except LedgerError Unit :=
  if required.any (fun key ↦ !value.containsKey key)
      || value.any (fun entry ↦ !required.contains entry.1 && !optional.contains entry.1) then
    .error .invalidFact
  else .ok ()

variable {value : Object} {u : Unit}

/-- The fields of an object are complete and admitted. -/
theorem fields_eq_ok_iff {required optional : List String} :
    fields value required optional = .ok u ↔ (∀ key ∈ required, value.containsKey key) ∧
      ∀ key ∈ value.map (·.1), key ∈ required ∨ key ∈ optional := by
  rw [fields]
  split
  · rename_i h
    simp only [reduceCtorEq, false_iff, not_and]
    intro hrequired
    rcases Bool.or_eq_true_iff.mp h with h | h
    · obtain ⟨key, hkey, hmissing⟩ := List.any_eq_true.mp h
      rw [hrequired key hkey] at hmissing
      cases hmissing
    · obtain ⟨entry, hentry, _⟩ := List.any_eq_true.mp h
      intro hadm
      have := hadm entry.1 (List.mem_map_of_mem hentry)
      simp_all
  · rename_i h
    simp only [Bool.or_eq_true, not_or, Bool.not_eq_true, List.any_eq_false] at h
    refine iff_of_true rfl ⟨fun key hkey ↦ by simpa using h.1 key hkey, fun key hkey ↦ ?_⟩
    obtain ⟨entry, hentry, rfl⟩ := List.mem_map.mp hkey
    simpa [or_iff_not_imp_left] using h.2 entry hentry

/-- The text of a string field. -/
def string (value : Object) (key : String) : Except LedgerError String :=
  okOr ((value.get? key).bind asStr) .invalidFact

variable {key text : String}

@[simp] theorem string_eq_ok_iff :
    string value key = .ok text ↔ value.get? key = some (.string text) := by
  rw [string, okOr_eq_ok_iff, Option.bind_eq_some_iff]
  simp [asStr_eq_some_iff]

/-- A string field with a non-empty text. -/
def nonEmpty (value : Object) (key : String) : Except LedgerError Unit := do
  let text ← string value key
  ensure (text ≠ "") .invalidFact

@[simp] theorem nonEmpty_eq_ok_iff :
    nonEmpty value key = .ok u ↔ ∃ text, value.get? key = some (.string text) ∧ text ≠ "" := by
  simp [nonEmpty, bind_eq_ok_iff]

/-- `nonEmpty`, when the field is present. -/
def optionalNonEmpty (value : Object) (key : String) : Except LedgerError Unit :=
  if value.containsKey key then nonEmpty value key else .ok ()

@[simp] theorem optionalNonEmpty_eq_ok_iff : optionalNonEmpty value key = .ok u ↔
      (value.containsKey key → nonEmpty value key = .ok ()) := by
  rw [optionalNonEmpty]
  split <;> simp_all

/-- The text of a string field that must be one of the allowed texts. -/
def enumeration (value : Object) (key : String) (allowed : List String) :
    Except LedgerError String := do
  let found ← string value key
  if allowed.contains found then .ok found else .error .invalidFact

@[simp] theorem enumeration_eq_ok_iff {allowed : List String} :
    enumeration value key allowed = .ok text ↔
      value.get? key = some (.string text) ∧ text ∈ allowed := by
  simp only [enumeration, bind_eq_ok_iff, string_eq_ok_iff]
  constructor
  · rintro ⟨_, hfound, h⟩
    split at h
    · rename_i hallowed
      cases h
      exact ⟨hfound, List.contains_iff_mem.mp hallowed⟩
    · cases h
  · rintro ⟨hfound, hallowed⟩
    exact ⟨text, hfound, if_pos (List.contains_iff_mem.mpr hallowed)⟩

/-- An unsigned field, optionally required to be non-zero. -/
def unsigned (value : Object) (key : String) (nonzero : Bool) : Except LedgerError Unit := do
  let found ← okOr ((value.get? key).bind asU64) .invalidFact
  ensure (¬(nonzero = true ∧ found = 0)) .invalidFact

@[simp] theorem unsigned_eq_ok_iff {nonzero : Bool} : unsigned value key nonzero = .ok u ↔
      ∃ n, value.get? key = some (.number (.posInt n)) ∧ (nonzero → n ≠ 0) := by
  simp [unsigned, bind_eq_ok_iff, Option.bind_eq_some_iff, asU64_eq_some_iff]

/-- `unsigned`, when the field is present. -/
def optionalUnsigned (value : Object) (key : String) : Except LedgerError Unit :=
  if value.containsKey key then unsigned value key false else .ok ()

/-- A lowercase hexadecimal digit. -/
def isLowerHexDigit (c : Char) : Bool :=
  ('0' ≤ c && c ≤ '9') || ('a' ≤ c && c ≤ 'f')

/-- Sixty-four lowercase hexadecimal digits. -/
def isDigest (text : String) : Bool :=
  text.utf8ByteSize == 64 && text.toList.all isLowerHexDigit

/-- Hexadecimal digits take one byte each. -/
theorem utf8ByteSize_ofList {cs : List Char} (h : cs.all isLowerHexDigit) :
    (String.ofList cs).utf8ByteSize = cs.length := by
  induction cs with
  | nil => simp
  | cons c cs ih =>
    rw [List.all_cons, Bool.and_eq_true] at h
    have hsize : c.utf8Size = 1 := by
      simp only [isLowerHexDigit, Bool.or_eq_true, Bool.and_eq_true, decide_eq_true_eq,
        Char.le_def, UInt32.le_iff_toNat_le] at h
      simp only [Char.utf8Size_eq_one_iff, UInt32.le_iff_toNat_le]
      have h9 : ('9' : Char).val.toNat = 57 := rfl
      have hf : ('f' : Char).val.toNat = 102 := rfl
      have h127 : (127 : UInt32).toNat = 127 := rfl
      omega
    rw [String.ofList_cons, String.utf8ByteSize_append, String.utf8ByteSize_singleton, hsize,
      ih h.2, List.length_cons, Nat.add_comm]

/-- A digest is exactly sixty-four hexadecimal digits. -/
theorem isDigest_iff :
    isDigest text ↔ text.toList.length = 64 ∧ text.toList.all isLowerHexDigit := by
  rw [isDigest, Bool.and_eq_true, beq_iff_eq]
  constructor
  · rintro ⟨hsize, hall⟩
    have hbytes := utf8ByteSize_ofList hall
    rw [String.ofList_toList] at hbytes
    exact ⟨hbytes ▸ hsize, hall⟩
  · rintro ⟨hlen, hall⟩
    have hbytes := utf8ByteSize_ofList hall
    rw [String.ofList_toList] at hbytes
    exact ⟨hbytes.trans hlen, hall⟩

/-- A field that holds a digest. -/
def digest (value : Object) (key : String) : Except LedgerError Unit := do
  let found ← string value key
  ensure (isDigest found = true) .invalidFact

@[simp] theorem digest_eq_ok_iff :
    digest value key = .ok u ↔ ∃ text, value.get? key = some (.string text) ∧ isDigest text := by
  simp [digest, bind_eq_ok_iff]

/-- A content binding: a digest with either the text it is the digest of or a reference. -/
def content (lib : Externals) (value : Object) (key : String) : Except LedgerError Unit := do
  let binding ← okOr (value.get? key) .invalidFact
  let binding ← object binding
  fields binding ["digest"] ["inline_utf8", "reference"]
  digest binding "digest"
  match binding.get? "inline_utf8", binding.get? "reference" with
  | some (.string text), none => do
    let expected ← string binding "digest"
    ensure (lib.sha256Hex text = expected) .invalidFact
  | none, some (.string reference) => ensure (reference ≠ "") .invalidFact
  | _, _ => .error .invalidFact

/-- Content is kept inline, under its digest, or elsewhere. -/
theorem content_eq_ok_iff {lib : Externals} :
    content lib value key = .ok u ↔ ∃ (binding : Object) (digest : String),
      value.get? key = some (.object binding) ∧
      fields binding ["digest"] ["inline_utf8", "reference"] = .ok () ∧
      binding.get? "digest" = some (.string digest) ∧ isDigest digest ∧
      ((∃ text, binding.get? "inline_utf8" = some (.string text) ∧
          binding.get? "reference" = none ∧ lib.sha256Hex text = digest) ∨
        ∃ reference, binding.get? "inline_utf8" = none ∧
          binding.get? "reference" = some (.string reference) ∧ reference ≠ "") := by
  simp only [content, ok_iff, object_eq_ok_iff, digest_eq_ok_iff]
  constructor
  · rintro ⟨_, hbinding, binding, rfl, hfields, ⟨found, hfound, hdig⟩, hcont⟩
    refine ⟨binding, found, hbinding, hfields, hfound, hdig, ?_⟩
    split at hcont
    · rename_i text hinline href
      simp only [ok_iff, string_eq_ok_iff, hfound, Option.some.injEq, string.injEq,
        exists_eq_left'] at hcont
      exact .inl ⟨text, hinline, href, hcont⟩
    · rename_i reference hinline href
      exact .inr ⟨reference, hinline, href, ensure_eq_ok_iff.mp hcont⟩
    · cases hcont
  · rintro ⟨binding, found, hbinding, hfields, hfound, hdig, hcont⟩
    refine ⟨_, hbinding, binding, rfl, hfields, ⟨found, hfound, hdig⟩, ?_⟩
    rcases hcont with ⟨text, hinline, href, hsha⟩ | ⟨reference, hinline, href, hne⟩
    · rw [hinline, href]
      simp [bind_eq_ok_iff, hfound, hsha]
    · rw [hinline, href]
      simp [hne]

/-- `content`, when the field is present. -/
def optionalContent (lib : Externals) (value : Object) (key : String) :
    Except LedgerError Unit :=
  if value.containsKey key then content lib value key else .ok ()

/-- A token count: unknown, or known with its value. -/
def tokenCount (value : Object) : Except LedgerError Unit :=
  match (value.get? "kind").bind asStr with
  | some "unknown" => fields value ["kind"] []
  | some "known" => do
    fields value ["kind", "value"] []
    unsigned value "value" false
  | _ => .error .invalidFact

/-- Token usage with its source. -/
def usage (value : Object) (key : String) : Except LedgerError Unit := do
  let usage ← okOr (value.get? key) .invalidFact
  let usage ← object usage
  fields usage ["input_tokens", "output_tokens", "source"]
    ["cache_read_tokens", "cache_write_tokens"]
  checkAll (fun name ↦ match usage.get? name with
    | some count => do
      let count ← object count
      tokenCount count
    | none => .ok ())
    ["input_tokens", "output_tokens", "cache_read_tokens", "cache_write_tokens"]
  let _ ← enumeration usage "source" ["provider_reported", "estimated"]
  return ()

/-- Execution limits: a non-zero iteration bound and optional non-zero budgets. -/
def limits (value : Object) (key : String) : Except LedgerError Unit := do
  let limits ← okOr (value.get? key) .invalidFact
  let limits ← object limits
  fields limits ["max_iterations"] ["max_input_tokens", "max_output_tokens", "deadline_budget_ms"]
  checkAll (fun name ↦ if limits.containsKey name then unsigned limits name true else .ok ())
    ["max_iterations", "max_input_tokens", "max_output_tokens", "deadline_budget_ms"]

/-- Every listed field is a non-empty text. -/
def identities (value : Object) (keys : List String) : Except LedgerError Unit :=
  checkAll (nonEmpty value) keys

/-- Every listed field is a digest. -/
def digests (value : Object) (keys : List String) : Except LedgerError Unit :=
  checkAll (digest value) keys

/-- `value[key]` on a JSON value: a missing member reads as `null`. -/
def indexed (value : Object) (key : String) : Value :=
  (value.get? key).getD .null

/-- The `digest` member of an indexed content binding. -/
def indexedDigest (value : Object) (key : String) : Value :=
  ((indexed value key).get? "digest").getD .null

/-- A Boolean field, with its value. -/
def flag (value : Object) (key : String) : Except LedgerError Bool :=
  okOr ((value.get? key).bind asBool) .invalidFact

/-- A field that holds a timestamp in canonical UTC form. -/
def timestamp (lib : Externals) (value : Object) (key : String) : Except LedgerError Unit := do
  let raw ← okOr ((value.get? key).bind asStr) .invalidFact
  ensure (lib.canonicalUtc raw = true) .invalidFact

/-- An array field, with its elements. -/
def elements (value : Object) (key : String) : Except LedgerError (List Value) :=
  okOr ((value.get? key).bind asArray) .invalidFact

/-- Two counters in succession: the second is the first plus one, without overflow. -/
def successor (value : Object) (previous next : String) : Except LedgerError Unit :=
  ensure (((value.get? previous).bind asU64).bind (checkedAdd · 1)
    = (value.get? next).bind asU64) .invalidFact

end Garive.RuntimeFacts
