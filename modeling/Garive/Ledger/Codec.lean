import Garive.Ledger.Reference

/-!
# The canonical payload codec

Payloads are written from values and restored from their stored text and digest. Writing knows no
limit on nesting, reading does: a payload is restored, with the value it was written from, exactly
when the value nests at most 127 deep. Different values have different texts at any depth, and
whatever is restored was written from a value within the limit.

The JSON reader is the one of RFC 8259 here; SHA-256 is any function.
-/

namespace Garive

/-- The libraries, with a JSON reader that reads floats in a given way. -/
def Externals.withJsonReader (lib : Externals) (decimal : List Char → Option UInt64) : Externals :=
  { lib with fromStr := JsonReader.fromStr decimal }

namespace CanonicalPayload

variable {lib : Externals}

variable {payload : CanonicalPayload} {value : Value}

section Codec

variable (lib) (decimal : List Char → Option UInt64)

/-- What the reader makes of the text of a payload. -/
theorem fromStr_json (hwf : value.WellFormed)
    (h : fromValue (lib.withJsonReader decimal) value = .ok payload) :
    (lib.withJsonReader decimal).fromStr payload.json =
      if value.depth ≤ 127 then some value else none :=
  JsonReader.fromStr_encode decimal hwf (fromValue_eq_ok_iff.mp h).1

/-- **The codec.** A payload is restored from its own text and digest, and its text reads as the
value it was written from, exactly when that value is within the reader's limit; texts determine
values; and a text and a digest are accepted exactly when they are the payload of some value within
the limit. -/
theorem codec_within_limit :
    (∀ (value : Value) (payload : CanonicalPayload), value.WellFormed →
      fromValue (lib.withJsonReader decimal) value = .ok payload →
        (fromCanonicalParts (lib.withJsonReader decimal) payload.json payload.sha256 = .ok payload ∧
          (lib.withJsonReader decimal).fromStr payload.json = some value ↔ value.depth ≤ 127)) ∧
    (∀ (value other : Value) (payload otherPayload : CanonicalPayload), value.WellFormed →
      other.WellFormed → fromValue (lib.withJsonReader decimal) value = .ok payload →
      fromValue (lib.withJsonReader decimal) other = .ok otherPayload →
        payload.json = otherPayload.json → value = other) ∧
    (∀ (json sha256 : String) (payload : CanonicalPayload),
      fromCanonicalParts (lib.withJsonReader decimal) json sha256 = .ok payload ↔
        payload = ⟨json, sha256⟩ ∧ ∃ value : Value, value.WellFormed ∧ value.depth ≤ 127 ∧
          fromValue (lib.withJsonReader decimal) value = .ok payload) := by
  refine ⟨fun value payload hwf h ↦ ?_, fun value other payload otherPayload hwf hother h hotherPayload
    hjson ↦ ?_, fun json sha256 payload ↦ ?_⟩
  · have hread := fromStr_json lib decimal hwf h
    constructor
    · rintro ⟨-, hvalue⟩
      by_contra hdepth
      rw [hread, if_neg hdepth] at hvalue
      cases hvalue
    · intro hdepth
      rw [if_pos hdepth] at hread
      exact ⟨fromCanonicalParts_eq_ok_iff.mpr ⟨rfl, value, hread, h⟩, hread⟩
  · have hencode := (fromValue_eq_ok_iff.mp h).1
    rw [hjson] at hencode
    exact JsonReader.encode_injective hwf hother hencode (fromValue_eq_ok_iff.mp hotherPayload).1
  · rw [fromCanonicalParts_eq_ok_iff]
    refine and_congr_right fun hparts ↦ ⟨?_, ?_⟩
    · rintro ⟨value, hread, h⟩
      obtain ⟨hwf, hdepth⟩ := JsonReader.fromStr_sound hread
      exact ⟨value, hwf, hdepth, h⟩
    · rintro ⟨value, hwf, hdepth, h⟩
      have hread := fromStr_json lib decimal hwf h
      rw [if_pos hdepth, hparts] at hread
      exact ⟨value, hread, h⟩

end Codec

/-- An array in an array, so many times. -/
def nested : Nat → Value
  | 0 => .array []
  | n + 1 => .array [nested n]

theorem depth_nested (n : Nat) : (nested n).depth = n + 1 := by
  induction n with
  | zero => rfl
  | succ n ih => simp [nested, Value.depth, Value.depthElements, ih]

theorem wellFormed_nested (n : Nat) : (nested n).WellFormed ∧ (nested n).Exact := by
  induction n with
  | zero => exact ⟨trivial, trivial⟩
  | succ n ih => exact ⟨⟨ih.1, trivial⟩, ⟨ih.2, trivial⟩⟩

/-- Arrays nested 127 deep are restored. -/
theorem nested_within_limit : ∃ payload,
    fromValue (reference.withJsonReader fun _ ↦ none) (nested 126) = .ok payload ∧
      fromCanonicalParts (reference.withJsonReader fun _ ↦ none) payload.json payload.sha256 =
        .ok payload ∧
      (reference.withJsonReader fun _ ↦ none).fromStr payload.json = some (nested 126) := by
  obtain ⟨hwf, hexact⟩ := wellFormed_nested 126
  obtain ⟨payload, hpayload⟩ := exists_fromValue (reference.withJsonReader fun _ ↦ none) hexact
  exact ⟨payload, hpayload, ((codec_within_limit reference fun _ ↦ none).1 _ payload hwf hpayload).mpr
    (by rw [depth_nested])⟩

/-- Arrays nested 128 deep are written, and rejected when they are read back. -/
theorem nested_beyond_limit : ∃ payload,
    fromValue (reference.withJsonReader fun _ ↦ none) (nested 127) = .ok payload ∧
      fromCanonicalParts (reference.withJsonReader fun _ ↦ none) payload.json payload.sha256 =
        .error .invalidJson := by
  obtain ⟨hwf, hexact⟩ := wellFormed_nested 127
  obtain ⟨payload, hpayload⟩ := exists_fromValue (reference.withJsonReader fun _ ↦ none) hexact
  refine ⟨payload, hpayload, ?_⟩
  rw [fromCanonicalParts, fromStr_json reference _ hwf hpayload, depth_nested, if_neg (by decide)]

end CanonicalPayload

end Garive
