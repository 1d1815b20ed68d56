import Garive.Ledger.Projection.State
import Garive.Ledger.Reference

/-!
# Facts written from fields

A writer builds a payload as an object of fields and stores its canonical text. What the ledger
reads back from such a fact are the same fields, so that a written fact is validated by looking at
the fields it was written from.
-/

namespace Garive

/-- Fields that include the required ones and otherwise are optional, in any order. -/
theorem fields_ofFields_of_mem {fields : List (String × Value)} {required optional : List String}
    (hrequired : ∀ key ∈ required, key ∈ fields.map (·.1))
    (hkeys : ∀ key ∈ fields.map (·.1), key ∈ required ∨ key ∈ optional) :
    RuntimeFacts.fields (.ofFields fields) required optional = .ok () := by
  rw [RuntimeFacts.fields_eq_ok_iff]
  simp only [Object.mem_keys_ofFields]
  refine ⟨fun key hkey ↦ ?_, hkeys⟩
  rw [Object.containsKey_ofFields, Object.containsKey, Option.isSome_iff_ne_none, ne_eq,
    Object.get?_eq_none_iff]
  obtain ⟨entry, hentry, rfl⟩ := List.mem_map.mp (hrequired key hkey)
  exact fun hnone ↦ hnone entry hentry rfl

/-- Fields that are the required ones, with some of the optional ones after them. -/
theorem fields_ofFields {fields : List (String × Value)} {required optional : List String}
    (present : List String) (hkeys : fields.map (·.1) = required ++ present)
    (hpresent : ∀ key ∈ present, key ∈ optional) :
    RuntimeFacts.fields (.ofFields fields) required optional = .ok () := by
  refine fields_ofFields_of_mem (fun key hkey ↦ ?_) fun key hkey ↦ ?_
  · rw [hkeys]
    exact List.mem_append_left _ hkey
  · rw [hkeys] at hkey
    exact (List.mem_append.mp hkey).imp_right (hpresent key)

/-! ## Values that writers use -/

/-- A token usage that nobody reported. -/
def unknownUsage : Value :=
  json [("input_tokens", json [("kind", .string "unknown")]),
    ("output_tokens", json [("kind", .string "unknown")]), ("source", .string "estimated")]

/-- Content that is kept inline. -/
def inlineContent (lib : Externals) (text : String) : Value :=
  json [("digest", .string (lib.sha256Hex text)), ("inline_utf8", .string text)]

theorem plain_inlineContent (lib : Externals) (text : String) :
    (inlineContent lib text).Plain 126 :=
  Value.plain_json (n := 125) (by simp)

theorem content_inlineContent {lib : Externals} (hlib : lib.Documented) {value : Object}
    {key text : String} (h : value.get? key = some (inlineContent lib text)) :
    RuntimeFacts.content lib value key = .ok () := by
  refine RuntimeFacts.content_eq_ok_iff.mpr ⟨_, lib.sha256Hex text, h,
    fields_ofFields ["inline_utf8"] rfl (by simp), ?_, hlib.isDigest_sha256Hex text,
    .inl ⟨text, ?_, ?_, rfl⟩⟩ <;> simp

/-! ## Written facts -/

/-- The fact's payload was written from the fields. -/
structure Written (lib : Externals) (fact : FactDraft) (fields : List (String × Value)) : Prop where
  payload_eq : CanonicalPayload.fromValue lib (json fields) = .ok fact.payload
  plain : ∀ entry ∈ fields, entry.2.Plain 126

namespace Written

variable {lib : Externals} {fact : FactDraft} {fields : List (String × Value)}

theorem fromStr_eq (h : Written lib fact fields) (hlib : lib.Documented) :
    lib.fromStr fact.payload.json = some (json fields) :=
  CanonicalPayload.fromStr_of_fromValue hlib (Value.plain_json h.plain) h.payload_eq

theorem payloadOf_eq (h : Written lib fact fields) (hlib : lib.Documented) :
    payloadOf lib fact = .ok (.ofFields fields) := by
  rw [payloadOf, h.fromStr_eq hlib]
  rfl

/-- A written fact with a schema version and a time is valid. -/
theorem validate_eq (h : Written lib fact fields) (hver : fact.schemaVersion ≠ 0)
    (htime : lib.parseFromRfc3339 fact.recordedAt) : fact.validate lib = .ok () := by
  have hverify := CanonicalPayload.verify_of_fromValue h.payload_eq
  rw [FactDraft.validate, if_neg (by simp [hver, htime]), hverify]
  rfl

/-- A written fact is admitted when its fields pass the rule of its kind. -/
theorem validateRuntimeFact_eq (h : Written lib fact fields) (hlib : lib.Documented)
    {disposition : RuntimeFactDisposition} (hruntime : fact.kind.isRuntime)
    (hver : fact.kind.admittedVersion? fact.schemaVersion = some disposition)
    (henv : fact.envelopeMatches)
    (hpay : RuntimeFacts.validatePayload lib fact.kind fact.schemaVersion (.ofFields fields)
      = .ok ()) : validateRuntimeFact lib fact = .ok disposition := by
  rw [validateRuntimeFact, if_pos hruntime, hver, h.fromStr_eq hlib]
  simp only [ensure_of henv, ok_bind, okOr_some, RuntimeFacts.object, json,
    Value.asObject_object, hpay, pure_eq_ok]

end Written

end Garive
