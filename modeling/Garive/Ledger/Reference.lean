import Garive.Json.Rfc8259
import Garive.Ledger.RuntimeFacts.Values

/-!
# What the libraries promise, and a reference instance

`Externals.Documented` lists what the ledger relies on about the libraries it calls. `reference` is
an instance that keeps the promises: a JSON reader, SHA-256, and readers of RFC 3339
timestamps. Concrete runs of the ledger are stated over it.

## Main definitions

* `Externals.Documented` : the promises.
* `Sha256.hex` : SHA-256 of a text in lowercase hexadecimal.
* `Rfc3339.accepts`, `Rfc3339.isCanonicalUtc` : the timestamp readers.
* `reference` : the instance, with `reference_documented`.
-/

namespace Garive

open CanonicalPayload

/-- What the libraries promise. -/
structure Externals.Documented (lib : Externals) : Prop where
  /-- The reader returns a value from its own canonical text, up to its recursion limit. -/
  fromStr_encode {value : Value} {text : String} : value.WellFormed → value.depth ≤ 127 →
    encode value = .ok text → lib.fromStr text = some value
  /-- A digest in hexadecimal has sixty-four lowercase digits. -/
  isDigest_sha256Hex (text : String) : RuntimeFacts.isDigest (lib.sha256Hex text) = true
  /-- The digest of the empty text. -/
  sha256Hex_empty : lib.sha256Hex "" =
    "e3b0c44298fc1c149afbf4c8996fb92427ae41e4649b934ca495991b7852b855"

/-- A value that the reader returns from its own canonical text. -/
abbrev Value.Readable (value : Value) : Prop := value.Plain 127

namespace CanonicalPayload

variable {lib : Externals} {value : Value} {payload : CanonicalPayload}

theorem fromValue_eq_ok_iff : fromValue lib value = .ok payload ↔
      encode value = .ok payload.json ∧ payload.sha256 = lib.sha256Hex payload.json := by
  simp only [fromValue, ok_iff]
  constructor
  · rintro ⟨json, hjson, rfl⟩
    exact ⟨hjson, rfl⟩
  · rintro ⟨hjson, hsha⟩
    exact ⟨payload.json, hjson, by rw [← hsha]⟩

/-- A payload is restored from what some value's payload consists of, if the reader reads that
value. -/
theorem fromCanonicalParts_eq_ok_iff {json sha256 : String} :
    fromCanonicalParts lib json sha256 = .ok payload ↔
      payload = ⟨json, sha256⟩ ∧
        ∃ value, lib.fromStr json = some value ∧ fromValue lib value = .ok payload := by
  unfold fromCanonicalParts
  cases lib.fromStr json with
  | none => simp
  | some value =>
    simp only [bind_eq_ok_iff, Option.some.injEq, exists_eq_left']
    constructor
    · rintro ⟨_, hvalue, h⟩
      split at h
      · cases h
      · split at h
        · cases h
        · rename_i hjson hsha
          cases h
          rw [ne_eq, Decidable.not_not] at hjson hsha
          exact ⟨by rw [← hjson, ← hsha], hvalue⟩
    · rintro ⟨rfl, hvalue⟩
      exact ⟨_, hvalue, by simp⟩

/-- A readable value has a payload. -/
theorem exists_fromValue (lib : Externals) (h : value.Exact) :
    ∃ payload, fromValue lib value = .ok payload := by
  obtain ⟨text, htext⟩ := exists_encode h
  exact ⟨⟨text, lib.sha256Hex text⟩, by rw [fromValue, htext]; rfl⟩

/-- A payload's digest is the digest of its text. -/
theorem verify_of_fromValue (h : fromValue lib value = .ok payload) :
    payload.verify lib = .ok () := by
  simp only [fromValue, ok_iff] at h
  obtain ⟨_, -, rfl⟩ := h
  simp [verify]

/-- A payload reads back as its value. -/
theorem fromStr_of_fromValue (hlib : lib.Documented) (hvalue : value.Readable)
    (h : fromValue lib value = .ok payload) : lib.fromStr payload.json = some value := by
  simp only [fromValue, ok_iff] at h
  obtain ⟨_, htext, rfl⟩ := h
  exact hlib.fromStr_encode hvalue.wellFormed hvalue.depth_le htext

/-- A payload is restored from its own text and digest. -/
theorem fromCanonicalParts_of_fromValue (hlib : lib.Documented) (hvalue : value.Readable)
    (h : fromValue lib value = .ok payload) :
    fromCanonicalParts lib payload.json payload.sha256 = .ok payload := by
  rw [fromCanonicalParts, fromStr_of_fromValue hlib hvalue h]
  simp [h]

end CanonicalPayload

/-! ## SHA-256 -/

namespace Sha256

/-- The round constants. -/
def roundConstants : List UInt32 :=
  [0x428a2f98, 0x71374491, 0xb5c0fbcf, 0xe9b5dba5, 0x3956c25b, 0x59f111f1, 0x923f82a4, 0xab1c5ed5,
   0xd807aa98, 0x12835b01, 0x243185be, 0x550c7dc3, 0x72be5d74, 0x80deb1fe, 0x9bdc06a7, 0xc19bf174,
   0xe49b69c1, 0xefbe4786, 0x0fc19dc6, 0x240ca1cc, 0x2de92c6f, 0x4a7484aa, 0x5cb0a9dc, 0x76f988da,
   0x983e5152, 0xa831c66d, 0xb00327c8, 0xbf597fc7, 0xc6e00bf3, 0xd5a79147, 0x06ca6351, 0x14292967,
   0x27b70a85, 0x2e1b2138, 0x4d2c6dfc, 0x53380d13, 0x650a7354, 0x766a0abb, 0x81c2c92e, 0x92722c85,
   0xa2bfe8a1, 0xa81a664b, 0xc24b8b70, 0xc76c51a3, 0xd192e819, 0xd6990624, 0xf40e3585, 0x106aa070,
   0x19a4c116, 0x1e376c08, 0x2748774c, 0x34b0bcb5, 0x391c0cb3, 0x4ed8aa4a, 0x5b9cca4f, 0x682e6ff3,
   0x748f82ee, 0x78a5636f, 0x84c87814, 0x8cc70208, 0x90befffa, 0xa4506ceb, 0xbef9a3f7, 0xc67178f2]

/-- The eight working words. -/
structure Words where
  a : UInt32
  b : UInt32
  c : UInt32
  d : UInt32
  e : UInt32
  f : UInt32
  g : UInt32
  h : UInt32

/-- The words before the first block. -/
def initial : Words :=
  ⟨0x6a09e667, 0xbb67ae85, 0x3c6ef372, 0xa54ff53a, 0x510e527f, 0x9b05688c, 0x1f83d9ab, 0x5be0cd19⟩

/-- Rotation to the right. -/
def rotateRight (word count : UInt32) : UInt32 :=
  (word >>> count) ||| (word <<< (32 - count))

/-- One round, with the sum of the round constant and the schedule word. -/
def round (s : Words) (input : UInt32) : Words :=
  let s1 := rotateRight s.e 6 ^^^ rotateRight s.e 11 ^^^ rotateRight s.e 25
  let choice := (s.e &&& s.f) ^^^ (~~~s.e &&& s.g)
  let t1 := s.h + s1 + choice + input
  let s0 := rotateRight s.a 2 ^^^ rotateRight s.a 13 ^^^ rotateRight s.a 22
  let majority := (s.a &&& s.b) ^^^ (s.a &&& s.c) ^^^ (s.b &&& s.c)
  ⟨t1 + s0 + majority, s.a, s.b, s.c, s.d + t1, s.e, s.f, s.g⟩

/-- Extends a message schedule, latest word first, by some words. -/
def extendSchedule : Nat → List UInt32 → List UInt32
  | 0, words => words
  | count + 1, words =>
    let w2 := words.getD 1 0
    let w15 := words.getD 14 0
    let s0 := rotateRight w15 7 ^^^ rotateRight w15 18 ^^^ (w15 >>> 3)
    let s1 := rotateRight w2 17 ^^^ rotateRight w2 19 ^^^ (w2 >>> 10)
    extendSchedule count ((words.getD 15 0 + s0 + words.getD 6 0 + s1) :: words)

/-- Folds one block of sixteen words into the state. -/
def compress (state : Words) (block : List UInt32) : Words :=
  let schedule := (extendSchedule 48 block.reverse).reverse
  let s := (List.zipWith (· + ·) roundConstants schedule).foldl round state
  ⟨state.a + s.a, state.b + s.b, state.c + s.c, state.d + s.d,
    state.e + s.e, state.f + s.f, state.g + s.g, state.h + s.h⟩

/-- Big-endian words of a byte sequence. -/
def toWords : List UInt8 → List UInt32
  | b0 :: b1 :: b2 :: b3 :: rest =>
    ((b0.toUInt32 <<< 24) ||| (b1.toUInt32 <<< 16) ||| (b2.toUInt32 <<< 8) ||| b3.toUInt32)
      :: toWords rest
  | _ => []

/-- The bytes with their end mark, zeros and bit length: a whole number of blocks. -/
def pad (bytes : List UInt8) : List UInt8 :=
  let bits := 8 * bytes.length
  let length := (List.range 8).map fun i ↦ UInt8.ofNat (bits >>> (8 * (7 - i)))
  bytes ++ [0x80] ++ List.replicate ((119 - bytes.length % 64) % 64) 0 ++ length

/-- The eight lowercase hexadecimal digits of a word. -/
def hexWord (word : UInt32) : List Char :=
  (List.range 8).map fun i ↦ hexDigit ((word.toNat >>> (4 * (7 - i))) % 16)

/-- The lowercase hexadecimal digest of a text's UTF-8 bytes. -/
def hex (text : String) : String :=
  let words := toWords (pad text.toByteArray.toList)
  let s := (words.toChunks 16).foldl compress initial
  .ofList ([s.a, s.b, s.c, s.d, s.e, s.f, s.g, s.h].flatMap hexWord)

theorem isLowerHexDigit_hexDigit : ∀ n < 16, RuntimeFacts.isLowerHexDigit (hexDigit n) := by
  decide

theorem hexWord_digits (word : UInt32) :
    (hexWord word).all RuntimeFacts.isLowerHexDigit := by
  simp only [hexWord, List.all_map, List.all_eq_true, Function.comp_apply]
  intro i _
  exact isLowerHexDigit_hexDigit _ (Nat.mod_lt _ (by decide))

theorem isDigest_hex (text : String) : RuntimeFacts.isDigest (hex text) := by
  rw [RuntimeFacts.isDigest_iff, hex, String.toList_ofList]
  constructor
  · simp [hexWord]
  · simp [hexWord_digits]

-- A digest is never computed while a proof is elaborated.
attribute [irreducible] hex

end Sha256

/-! ## Timestamps -/

namespace Rfc3339

/-- The number a sequence of digits stands for. -/
def digits? (cs : List Char) : Option Nat :=
  if cs.all Char.isDigit then some (Nat.ofDigitChars 10 cs 0) else none

/-- A number of digits within bounds. -/
def within (cs : List Char) (low high : Nat) : Bool :=
  (digits? cs).any fun n ↦ low ≤ n && n ≤ high

/-- The days of a month. -/
def daysInMonth (year month : Nat) : Nat :=
  if month = 2 then if year % 4 = 0 ∧ (year % 100 ≠ 0 ∨ year % 400 = 0) then 29 else 28
  else if month = 4 ∨ month = 6 ∨ month = 9 ∨ month = 11 then 30
  else 31

/-- A calendar date. -/
def isDate (year month day : List Char) : Bool :=
  match digits? year, digits? month with
  | some y, some m => 1 ≤ m && m ≤ 12 && within day 1 (daysInMonth y m)
  | _, _ => false

/-- The offset from UTC at the end of a timestamp. -/
def isOffset : List Char → Bool
  | ['Z'] | ['z'] => true
  | [sign, h1, h2, ':', m1, m2] =>
    (sign = '+' || sign = '-') && within [h1, h2] 0 23 && within [m1, m2] 0 59
  | _ => false

/-- The fraction of a second, and the offset after it. -/
def splitFraction : List Char → List Char × List Char
  | '.' :: rest => (rest.takeWhile Char.isDigit, rest.dropWhile Char.isDigit)
  | rest => ([], rest)

/-- Whether a text is an RFC 3339 timestamp whose separator, fraction and offset pass a test. -/
def check (test : Char → List Char → List Char → Bool) (text : String) : Bool :=
  match text.toList with
  | y1 :: y2 :: y3 :: y4 :: '-' :: mo1 :: mo2 :: '-' :: d1 :: d2 :: separator :: h1 :: h2 :: ':'
      :: mi1 :: mi2 :: ':' :: s1 :: s2 :: rest =>
    isDate [y1, y2, y3, y4] [mo1, mo2] [d1, d2] && within [h1, h2] 0 23 && within [mi1, mi2] 0 59
      && within [s1, s2] 0 60
      && test separator (splitFraction rest).1 (splitFraction rest).2
  | _ => false

/-- RFC 3339 timestamps: `T`, `t` or a blank between date and time, any fraction and offset. -/
def accepts (text : String) : Bool :=
  check (fun separator fraction offset ↦
    (separator = 'T' || separator = 't' || separator = ' ')
      && (fraction != [] || !text.toList.contains '.') && isOffset offset) text

/-- Timestamps in UTC with the shortest fraction of zero, three, six or nine digits. -/
def isCanonicalUtc (text : String) : Bool :=
  check (fun separator fraction offset ↦
    separator = 'T' && offset = ['Z']
      && (fraction = [] && !text.toList.contains '.'
        || (fraction.length = 3 || fraction.length = 6 || fraction.length = 9)
          && fraction.drop (fraction.length - 3) != ['0', '0', '0'])) text

end Rfc3339

/-- The reference instance. -/
def reference : Externals where
  fromStr := JsonReader.fromStr fun _ ↦ none
  sha256Hex := Sha256.hex
  parseFromRfc3339 := Rfc3339.accepts
  canonicalUtc := Rfc3339.isCanonicalUtc

theorem reference_documented : reference.Documented where
  fromStr_encode hwf hdepth h := by
    have hread := JsonReader.fromStr_encode (fun _ ↦ none) hwf h
    rwa [if_pos hdepth] at hread
  isDigest_sha256Hex := Sha256.isDigest_hex
  sha256Hex_empty := by decide +kernel

/-! ## Facts of concrete runs -/

/-- The payload the reference instance makes of a value; empty when there is none. -/
def referencePayload (value : Value) : CanonicalPayload :=
  match fromValue reference value with
  | .ok payload => payload
  | .error _ => ⟨"", ""⟩

theorem fromValue_referencePayload {value : Value} (h : value.Exact) :
    fromValue reference value = .ok (referencePayload value) := by
  obtain ⟨_, hpay⟩ := exists_fromValue reference h
  rw [referencePayload, hpay]

theorem fromStr_referencePayload {value : Value} (h : value.Readable) :
    reference.fromStr (referencePayload value).json = some value :=
  fromStr_of_fromValue reference_documented h (fromValue_referencePayload h.exact)

/-- A fact of a concrete run, with schema version 1 and a fixed time. -/
def referenceFact (id : FactId) (kind : RuntimeKind) (value : Value) : FactDraft where
  factId := id
  turnId := none
  executionId := none
  modelRequestId := none
  toolInvocationId := none
  kind := .known kind
  schemaVersion := 1
  payload := referencePayload value
  recordedAt := "2026-01-01T00:00:00Z"

theorem parseFromRfc3339_reference : reference.parseFromRfc3339 "2026-01-01T00:00:00Z" := by
  decide

/-- A fact with a payload of the reference instance and the fixed time is valid. -/
theorem validate_reference {fact : FactDraft} {value : Value} (hver : fact.schemaVersion ≠ 0)
    (hvalue : value.Exact) (hpay : fact.payload = referencePayload value)
    (htime : fact.recordedAt = "2026-01-01T00:00:00Z") : fact.validate reference = .ok () := by
  have hverify := verify_of_fromValue (fromValue_referencePayload hvalue)
  rw [FactDraft.validate, if_neg (by simp [hver, htime, parseFromRfc3339_reference]), hpay,
    hverify]
  rfl

end Garive
