import Garive.Json.Build

/-!
# A reader of JSON texts

RFC 8259 as `serde_json::from_str` reads it into a value: blanks between tokens, every escape of a
string, integers kept exactly while they fit a machine integer and everything else a float, objects
as maps in which the last of several equal keys wins, and a limit on the nesting of arrays and
objects. Which float a decimal text denotes is a parameter; nothing here depends on it.

The reader takes fuel. One unit is spent on every value and on every element or member, and each of
them takes at least one character, so it is given the length of the text.

## Main results

* `readValue_encode` : canonical text reads back as its value within the limit, and not at all
  beyond it.
* `readValue_sound` : what is read is a well-formed value within the limit.
-/

namespace Garive

open List Option Nat

variable {rest : List Char} {value : Value} {text : String}

/-! ## Fuel -/

namespace Value

mutual

/-- The fuel a value takes to read. -/
def readingSize : Value → Nat
  | array elements => readingSizeElements elements + 1
  | object members => readingSizeMembers members + 1
  | _ => 1

/-- The fuel the elements of an array take. -/
def readingSizeElements : List Value → Nat
  | [] => 0
  | value :: rest => readingSize value + readingSizeElements rest + 1

/-- The fuel the members of an object take. -/
def readingSizeMembers : List (String × Value) → Nat
  | [] => 0
  | (_, value) :: rest => readingSize value + readingSizeMembers rest + 1

end

mutual

/-- A value's text is at least as long as the fuel it takes to read. -/
theorem readingSize_le : (value : Value) → {text : List Char} → encodeValue value = .ok text →
    value.readingSize ≤ text.length
  | null, _, h => by
    cases h
    decide
  | bool b, _, h => by
    cases b <;> cases h <;> decide
  | number n, _, h => by
    cases n with
    | posInt n =>
      cases h
      exact length_toDigits_pos
    | negInt n =>
      cases h
      exact succ_le_succ (zero_le _)
    | float bits => cases h
  | string text, _, h => by
    cases h
    simp [encodeString, readingSize]
  | array elements, _, h => by
    simp only [encodeValue, ok_iff] at h
    obtain ⟨body, hbody, rfl⟩ := h
    have := readingSizeElements_le elements hbody
    simp only [readingSize, length_cons, length_append, length_nil]
    omega
  | object members, _, h => by
    simp only [encodeValue, ok_iff] at h
    obtain ⟨body, hbody, rfl⟩ := h
    have := readingSizeMembers_le members hbody
    simp only [readingSize, length_cons, length_append, length_nil]
    omega

theorem readingSizeElements_le : (elements : List Value) → {body : List Char} →
    encodeElements elements = .ok body → readingSizeElements elements ≤ body.length + 1
  | [], _, h => by
    cases h
    decide
  | [value], _, h => by
    have := readingSize_le value h
    simp only [readingSizeElements]
    omega
  | value :: next :: rest, _, h => by
    simp only [encodeElements, ok_iff] at h
    obtain ⟨_, hhead, _, htail, rfl⟩ := h
    have := readingSize_le value hhead
    have := readingSizeElements_le (next :: rest) htail
    rw [readingSizeElements]
    simp only [length_cons, length_append]
    omega

theorem readingSizeMembers_le : (members : List (String × Value)) → {body : List Char} →
    encodeMembers members = .ok body → readingSizeMembers members ≤ body.length + 1
  | [], _, h => by
    cases h
    decide
  | [(key, value)], _, h => by
    simp only [encodeMembers, ok_iff] at h
    obtain ⟨text, htext, rfl⟩ := h
    have := readingSize_le value htext
    simp only [readingSizeMembers, length_cons, length_append]
    omega
  | (key, value) :: next :: rest, _, h => by
    simp only [encodeMembers, ok_iff] at h
    obtain ⟨text, htext, _, htail, rfl⟩ := h
    have := readingSize_le value htext
    have := readingSizeMembers_le (next :: rest) htail
    rw [readingSizeMembers]
    simp only [length_cons, length_append]
    omega

end

end Value

namespace JsonReader

/-! ## Tokens -/

/-- Insignificant whitespace. -/
def isBlank (c : Char) : Bool := c = ' ' || c = '\t' || c = '\n' || c = '\r'

def skipBlanks (cs : List Char) : List Char := cs.dropWhile isBlank

/-- The value of a hexadecimal digit of either case. -/
def hexDigitValue (c : Char) : Option Nat :=
  if '0' ≤ c ∧ c ≤ '9' then some (c.toNat - '0'.toNat)
  else if 'a' ≤ c ∧ c ≤ 'f' then some (c.toNat - 'a'.toNat + 10)
  else if 'A' ≤ c ∧ c ≤ 'F' then some (c.toNat - 'A'.toNat + 10)
  else none

/-- The UTF-16 code unit that four hexadecimal digits name. -/
def codeUnit (a b c d : Char) : Option Nat := do
  let a ← hexDigitValue a
  let b ← hexDigitValue b
  let c ← hexDigitValue c
  let d ← hexDigitValue d
  return ((a * 16 + b) * 16 + c) * 16 + d

/-- The character a two-character escape stands for. -/
def unescape? (c : Char) : Option Char :=
  if c = '"' then some '"'
  else if c = '\\' then some '\\'
  else if c = 'b' then some (Char.ofNat 0x08)
  else if c = 'f' then some (Char.ofNat 0x0c)
  else if c = 'n' then some '\n'
  else if c = 'r' then some '\r'
  else if c = 't' then some '\t'
  else none

/-- The character a two-character escape stands for. -/
def unescape (c : Char) : Option Char := if c = '/' then some '/' else unescape? c

/-- Adds a character in front of what the rest of a string holds. -/
def push (c : Char) (rest : Option (List Char × List Char)) : Option (List Char × List Char) :=
  rest.map fun found ↦ (c :: found.1, found.2)

/-- Reads the rest of a string up to its closing quote. -/
def readString : List Char → Option (List Char × List Char)
  | [] => none
  | '"' :: rest => some ([], rest)
  | '\\' :: 'u' :: a :: b :: c :: d :: rest =>
    match codeUnit a b c d with
    | none => none
    | some unit =>
      -- A trailing surrogate must follow a leading one, and the other way round.
      if 0xdc00 ≤ unit ∧ unit ≤ 0xdfff then none
      else if 0xd800 ≤ unit ∧ unit ≤ 0xdbff then
        match rest with
        | '\\' :: 'u' :: e :: f :: g :: h :: rest =>
          match codeUnit e f g h with
          | none => none
          | some low =>
            if 0xdc00 ≤ low ∧ low ≤ 0xdfff then
              push (Char.ofNat (0x10000 + (unit - 0xd800) * 0x400 + (low - 0xdc00))) (readString rest)
            else none
        | _ => none
      else push (Char.ofNat unit) (readString rest)
  | '\\' :: c :: rest =>
    match unescape c with
    | none => none
    | some found => push found (readString rest)
  | c :: rest => if c.toNat < 0x20 then none else push c (readString rest)

/-- The fraction of a number and what follows it. -/
def readFraction : List Char → Option (List Char × List Char)
  | '.' :: rest =>
    if rest.takeWhile Char.isDigit = [] then none
    else some ('.' :: rest.takeWhile Char.isDigit, rest.dropWhile Char.isDigit)
  | cs => some ([], cs)

/-- The sign of an exponent, if there is one, and what follows it. -/
def splitSign : List Char → List Char × List Char
  | '+' :: rest => (['+'], rest)
  | '-' :: rest => (['-'], rest)
  | rest => ([], rest)

/-- The exponent after its mark: an optional sign and at least one digit. -/
def readSigned (mark : Char) (cs : List Char) : Option (List Char × List Char) :=
  let digits := (splitSign cs).2.takeWhile Char.isDigit
  if digits = [] then none
  else some (mark :: (splitSign cs).1 ++ digits, (splitSign cs).2.dropWhile Char.isDigit)

/-- The exponent of a number and what follows it. -/
def readExponent : List Char → Option (List Char × List Char)
  | 'e' :: rest => readSigned 'e' rest
  | 'E' :: rest => readSigned 'E' rest
  | cs => some ([], cs)

section Reader

/- The float a decimal text denotes, by its bits; none when it is out of range. -/
variable (decimal : List Char → Option UInt64)

/-- The number an integer text denotes: a machine integer if it fits, a float otherwise. Negative
zero is a float. -/
def integer (negative : Bool) (digits : List Char) : Option Number :=
  let n := ofDigitChars 10 digits 0
  if negative = true then
    if n ≠ 0 ∧ n ≤ 2 ^ 63 then some (.negInt (-(n : Int)))
    else (decimal ('-' :: digits)).map fun bits ↦ .float bits.toNat
  else if n < 2 ^ 64 then some (.posInt n)
  else (decimal digits).map fun bits ↦ .float bits.toNat

/-- Reads the part of a number after its sign. -/
def readUnsigned (negative : Bool) (cs : List Char) : Option (Number × List Char) := do
  let digits := cs.takeWhile Char.isDigit
  if digits = [] ∨ (digits.head? = some '0' ∧ digits.length ≠ 1) then none
  else
    let (fraction, rest) ← readFraction (cs.dropWhile Char.isDigit)
    let (exponent, rest) ← readExponent rest
    if fraction = [] ∧ exponent = [] then
      let number ← integer decimal negative digits
      return (number, rest)
    else
      let bits ← decimal ((if negative then ['-'] else []) ++ digits ++ fraction ++ exponent)
      return (.float bits.toNat, rest)

/-- Reads a literal or a number. -/
def readScalar : List Char → Option (Value × List Char)
  | 'n' :: 'u' :: 'l' :: 'l' :: rest => some (.null, rest)
  | 't' :: 'r' :: 'u' :: 'e' :: rest => some (.bool true, rest)
  | 'f' :: 'a' :: 'l' :: 's' :: 'e' :: rest => some (.bool false, rest)
  | '-' :: rest => (readUnsigned decimal true rest).map fun found ↦ (.number found.1, found.2)
  | cs => (readUnsigned decimal false cs).map fun found ↦ (.number found.1, found.2)

/-- The map that members make; of several with one key the last one stays. -/
def lastWins (members : List (String × Value)) : Object :=
  members.foldl (fun found entry ↦ Object.insert found entry.1 entry.2) []

mutual

/-- Reads one value that nests arrays and objects up to `limit` deep. -/
def readValue : (fuel limit : Nat) → List Char → Option (Value × List Char)
  | 0, _, _ => none
  | fuel + 1, limit, cs =>
    match skipBlanks cs with
    | '"' :: rest => (readString rest).map fun found ↦ (.string (.ofList found.1), found.2)
    | '[' :: rest =>
      match limit with
      | 0 => none
      | limit + 1 =>
        match skipBlanks rest with
        | ']' :: rest => some (.array [], rest)
        | _ => (readItems fuel limit rest).map fun found ↦ (.array found.1, found.2)
    | '{' :: rest =>
      match limit with
      | 0 => none
      | limit + 1 =>
        match skipBlanks rest with
        | '}' :: rest => some (.object [], rest)
        | _ => (readPairs fuel limit rest).map fun found ↦ (.object (lastWins found.1), found.2)
    | cs => readScalar decimal cs

/-- Reads the elements of a non-empty array up to its closing bracket. -/
def readItems : (fuel limit : Nat) → List Char → Option (List Value × List Char)
  | 0, _, _ => none
  | fuel + 1, limit, cs =>
    match readValue fuel limit cs with
    | none => none
    | some (value, rest) =>
      match skipBlanks rest with
      | ']' :: rest => some ([value], rest)
      | ',' :: rest => (readItems fuel limit rest).map fun found ↦ (value :: found.1, found.2)
      | _ => none

/-- Reads the members of a non-empty object up to its closing brace. -/
def readPairs : (fuel limit : Nat) → List Char → Option (List (String × Value) × List Char)
  | 0, _, _ => none
  | fuel + 1, limit, cs =>
    match skipBlanks cs with
    | '"' :: cs =>
      match readString cs with
      | none => none
      | some (key, rest) =>
        match skipBlanks rest with
        | ':' :: rest =>
          match readValue fuel limit rest with
          | none => none
          | some (value, rest) =>
            match skipBlanks rest with
            | '}' :: rest => some ([(.ofList key, value)], rest)
            | ',' :: rest =>
              (readPairs fuel limit rest).map fun found ↦ ((.ofList key, value) :: found.1, found.2)
            | _ => none
        | _ => none
    | _ => none

end

/-- `serde_json::from_str` at type `Value`: one value, within the recursion limit, and nothing but
blanks around it. -/
def fromStr (text : String) : Option Value :=
  match readValue decimal text.toList.length 127 text.toList with
  | some (value, rest) => if skipBlanks rest = [] then some value else none
  | none => none

end Reader

/-! ## Canonical tokens -/

theorem skipBlanks_cons {c : Char} (h : isBlank c = false) (cs : List Char) :
    skipBlanks (c :: cs) = c :: cs := by
  simp [skipBlanks, h]

theorem hexDigitValue_hexDigit {n : Nat} (h : n < 16) : hexDigitValue (hexDigit n) = some n := by
  revert n
  decide

/-- One escaped character reads back. -/
theorem readString_encodeChar (c : Char) (rest : List Char) :
    readString (encodeChar c ++ rest) = push c (readString rest) := by
  unfold encodeChar
  split_ifs with h₁ h₂ h₃ h₄ h₅ h₆ h₇ h₈
  all_goals try subst_vars
  iterate 7 simp [readString, unescape, unescape?]
  · have hhigh : c.toNat / 16 < 16 := by omega
    have hlow : c.toNat % 16 < 16 := by omega
    have hzero : hexDigitValue '0' = some 0 := by decide
    have hunit : codeUnit '0' '0' (hexDigit (c.toNat / 16)) (hexDigit (c.toNat % 16)) =
        some c.toNat := by
      simp only [codeUnit, hzero, hexDigitValue_hexDigit hhigh, hexDigitValue_hexDigit hlow,
        Option.bind_eq_bind, Option.bind_some, Option.pure_def, Option.some.injEq]
      omega
    simp only [cons_append, nil_append, readString, hunit]
    rw [if_neg (by omega), if_neg (by omega), Char.ofNat_toNat]
  · have hprintable : ¬c.toNat < 0x20 := by omega
    simp [readString, h₂, hprintable]

/-- The body of a string reads back up to its closing quote. -/
theorem readString_encode (chars rest : List Char) :
    readString (chars.flatMap encodeChar ++ '"' :: rest) = some (chars, rest) := by
  induction chars with
  | nil => simp [readString]
  | cons c chars ih =>
    rw [flatMap_cons, append_assoc, readString_encodeChar, ih]
    rfl

/-- A text that does not continue a number. -/
def Ends (rest : List Char) : Prop :=
  ∀ c ∈ rest.head?, c.isDigit = false ∧ c ≠ '.' ∧ c ≠ 'e' ∧ c ≠ 'E'

theorem ends_nil : Ends [] := by
  simp [Ends]

variable {c : Char}

theorem ends_cons (h : c.isDigit = false ∧ c ≠ '.' ∧ c ≠ 'e' ∧ c ≠ 'E') (rest : List Char) :
    Ends (c :: rest) := by
  simpa [Ends] using h

theorem span_digits {digits rest : List Char} (hdigits : ∀ c ∈ digits, c.isDigit)
    (hrest : Ends rest) : (digits ++ rest).takeWhile Char.isDigit = digits ∧
      (digits ++ rest).dropWhile Char.isDigit = rest := by
  induction digits with
  | nil =>
    cases rest with
    | nil => simp
    | cons c rest =>
      have hc : c.isDigit = false := (hrest c rfl).1
      simp [hc]
  | cons c digits ih =>
    have hc : c.isDigit := hdigits c (mem_cons_self ..)
    have htail := ih fun d hd ↦ hdigits d (mem_cons_of_mem _ hd)
    simp [hc, htail]

/-- A decimal text starts with a zero only if it is that zero. -/
theorem head?_toDigits (n : Nat) (h : (toDigits 10 n).head? = some '0') :
    (toDigits 10 n).length = 1 := by
  induction n using Nat.strongRecOn with
  | ind n ih =>
    by_cases hlt : n < 10
    · rw [toDigits_of_lt_base hlt]
      rfl
    · have hsplit := toDigits_of_base_le (b := 10) (n := n) (by decide) (by omega)
      have hne : toDigits 10 (n / 10) ≠ [] := toDigits_ne_nil
      rw [hsplit, head?_append_of_ne_nil _ hne] at h
      -- The leading part is the text of a smaller positive number, so it does not start with zero.
      have hlen := ih (n / 10) (by omega) h
      have hsmall : n / 10 < 10 := by
        by_contra hge
        have hlong := toDigits_of_base_le (b := 10) (n := n / 10) (by decide) (by omega)
        have hpos := length_toDigits_pos (b := 10) (n := n / 10 / 10)
        rw [hlong, length_append, length_singleton] at hlen
        omega
      rw [toDigits_of_lt_base hsmall, head?_cons, some.injEq] at h
      have hzero : n / 10 = 0 := by
        revert h
        generalize n / 10 = m at hsmall ⊢
        revert m
        decide
      omega

theorem readFraction_of_ends (h : Ends rest) : readFraction rest = some ([], rest) := by
  unfold readFraction
  split
  · exact absurd rfl (h '.' rfl).2.1
  · rfl

theorem readExponent_of_ends (h : Ends rest) : readExponent rest = some ([], rest) := by
  unfold readExponent
  split
  · exact absurd rfl (h 'e' rfl).2.2.1
  · exact absurd rfl (h 'E' rfl).2.2.2
  · rfl

section Canonical

variable {decimal : List Char → Option UInt64}

/-- The decimal text of a number is read as an integer. -/
theorem readUnsigned_toDigits (negative : Bool) (n : Nat) (hrest : Ends rest) :
    readUnsigned decimal negative (toDigits 10 n ++ rest) =
      (integer decimal negative (toDigits 10 n)).map fun number ↦ (number, rest) := by
  have hdigits : ∀ c ∈ toDigits 10 n, c.isDigit := fun c hc ↦
    isDigit_of_mem_toDigits (by decide) (by decide) hc
  obtain ⟨htake, hdrop⟩ := span_digits hdigits hrest
  have hwhole : ¬(toDigits 10 n = [] ∨
      ((toDigits 10 n).head? = some '0' ∧ (toDigits 10 n).length ≠ 1)) := by
    rintro (hnil | ⟨hzero, hlen⟩)
    · exact toDigits_ne_nil hnil
    · exact hlen (head?_toDigits n hzero)
  unfold readUnsigned
  simp only [htake, hdrop]
  rw [if_neg hwhole, readFraction_of_ends hrest]
  simp only [bind_eq_bind, bind_some, readExponent_of_ends hrest, and_self, if_true]
  cases integer decimal negative (toDigits 10 n) <;> rfl

/-- A number that starts with a digit is not a literal and has no sign. -/
theorem readScalar_digit (h : c.isDigit) (cs : List Char) : readScalar decimal (c :: cs) =
      (readUnsigned decimal false (c :: cs)).map fun found ↦ (.number found.1, found.2) := by
  have hne : ∀ d : Char, d.isDigit = false → c ≠ d := by
    rintro d hd rfl
    rw [h] at hd
    cases hd
  rw [readScalar]
  all_goals
    intros
    rename_i heq
    exact hne _ (by decide) (cons.inj heq).1

/-- Canonical numbers read back exactly. -/
theorem readScalar_number {n : Number} {text : List Char} (hwf : n.WellFormed)
    (h : encodeNumber n = .ok text) (hrest : Ends rest) :
    readScalar decimal (text ++ rest) = some (.number n, rest) := by
  cases n with
  | posInt n =>
    cases h
    obtain ⟨c, _, hcs⟩ := exists_cons_of_ne_nil (toDigits_ne_nil (n := n) (b := 10))
    have hdigit : c.isDigit := isDigit_of_mem_toDigits (b := 10) (n := n) (by decide)
      (by decide) (hcs ▸ mem_cons_self ..)
    have hread : readUnsigned decimal false (toDigits 10 n ++ rest) = _ :=
      readUnsigned_toDigits false n hrest
    rw [hcs, cons_append] at hread ⊢
    have hfits : n < 2 ^ 64 := hwf
    rw [readScalar_digit hdigit, hread, ← hcs]
    simp only [integer, ofDigitChars_ten_toDigits, Bool.false_eq_true, if_false, if_pos hfits,
      map_some]
  | negInt n =>
    cases h
    obtain ⟨_, _⟩ := hwf
    rw [cons_append, readScalar, readUnsigned_toDigits true _ hrest]
    have hrange : n.natAbs ≠ 0 ∧ n.natAbs ≤ 2 ^ 63 := by omega
    simp only [integer, ofDigitChars_ten_toDigits, if_true, if_pos hrange, map_some,
      some.injEq, Prod.mk.injEq, Value.number.injEq, Number.negInt.injEq, and_true]
    omega
  | float bits => cases h

/-- A value that is neither a string, an array nor an object is a scalar. -/
theorem readValue_scalar {fuel limit : Nat} {c : Char} {cs : List Char} (hblank : isBlank c = false)
    (hquote : c ≠ '"') (hbracket : c ≠ '[') (hbrace : c ≠ '{') :
    readValue decimal (fuel + 1) limit (c :: cs) = readScalar decimal (c :: cs) := by
  rw [readValue, skipBlanks_cons hblank]
  split
  · rename_i heq
    exact absurd (cons.inj heq).1 hquote
  · rename_i heq
    exact absurd (cons.inj heq).1 hbracket
  · rename_i heq
    exact absurd (cons.inj heq).1 hbrace
  · rfl

/-- The canonical text of a number starts with a digit or a sign. -/
theorem exists_head_number {n : Number} {text : List Char} (h : encodeNumber n = .ok text) :
    ∃ c cs, text = c :: cs ∧ (c.isDigit ∨ c = '-') := by
  cases n with
  | posInt n =>
    cases h
    obtain ⟨c, cs, hcs⟩ := exists_cons_of_ne_nil (toDigits_ne_nil (n := n) (b := 10))
    exact ⟨c, cs, hcs, .inl (isDigit_of_mem_toDigits (b := 10) (n := n) (by decide) (by decide)
      (hcs ▸ mem_cons_self ..))⟩
  | negInt n =>
    cases h
    exact ⟨'-', _, rfl, .inr rfl⟩
  | float bits => cases h

theorem ne_of_digit_or_sign {c d : Char} (h : c.isDigit ∨ c = '-')
    (hd : d.isDigit = false ∧ d ≠ '-') : c ≠ d := by
  rintro rfl
  rcases h with h | h
  · rw [hd.1] at h
    cases h
  · exact hd.2 h

theorem not_blank_of_digit_or_sign {c : Char} (h : c.isDigit ∨ c = '-') :
    isBlank c = false := by
  simp only [isBlank, Bool.or_eq_false_iff, decide_eq_false_iff_not]
  exact ⟨⟨⟨ne_of_digit_or_sign h (by decide), ne_of_digit_or_sign h (by decide)⟩,
    ne_of_digit_or_sign h (by decide)⟩, ne_of_digit_or_sign h (by decide)⟩

/-- Canonical text starts with a character that is neither a blank nor a closing bracket. -/
theorem exists_head_encodeValue {value : Value} {text : List Char}
    (h : encodeValue value = .ok text) :
    ∃ c cs, text = c :: cs ∧ isBlank c = false ∧ c ≠ ']' := by
  cases value with
  | null =>
    cases h
    exact ⟨'n', _, rfl, by decide, by decide⟩
  | bool b =>
    cases b
    · cases h
      exact ⟨'f', _, rfl, by decide, by decide⟩
    · cases h
      exact ⟨'t', _, rfl, by decide, by decide⟩
  | number n =>
    obtain ⟨c, cs, rfl, hc⟩ := exists_head_number h
    exact ⟨c, cs, rfl, not_blank_of_digit_or_sign hc, ne_of_digit_or_sign hc (by decide)⟩
  | string text =>
    cases h
    exact ⟨'"', _, rfl, by decide, by decide⟩
  | array elements =>
    simp only [encodeValue, ok_iff] at h
    obtain ⟨body, -, rfl⟩ := h
    exact ⟨'[', _, rfl, by decide, by decide⟩
  | object members =>
    simp only [encodeValue, ok_iff] at h
    obtain ⟨body, -, rfl⟩ := h
    exact ⟨'{', _, rfl, by decide, by decide⟩

variable {body : List Char}

theorem exists_head_encodeElements {others : List Value}
    (h : encodeElements (value :: others) = .ok body) :
    ∃ c cs, body = c :: cs ∧ isBlank c = false ∧ c ≠ ']' := by
  cases others with
  | nil => exact exists_head_encodeValue h
  | cons next others =>
    simp only [encodeElements, ok_iff] at h
    obtain ⟨_, hhead, tail, -, rfl⟩ := h
    obtain ⟨c, cs, rfl, hc⟩ := exists_head_encodeValue hhead
    exact ⟨c, cs ++ ',' :: tail, rfl, hc⟩

theorem exists_head_encodeMembers {key : String} {others : List (String × Value)}
    (h : encodeMembers ((key, value) :: others) = .ok body) : ∃ cs, body = '"' :: cs := by
  cases others with
  | nil =>
    simp only [encodeMembers, ok_iff] at h
    obtain ⟨text, -, rfl⟩ := h
    exact ⟨_, rfl⟩
  | cons next others =>
    simp only [encodeMembers, ok_iff] at h
    obtain ⟨text, -, _, -, rfl⟩ := h
    exact ⟨_, rfl⟩

/-- A member read from the canonical text of its key. -/
theorem readPairs_key {fuel limit : Nat} {key : String} {rest : List Char} :
    readPairs decimal (fuel + 1) limit (encodeString key ++ ':' :: rest) =
      match readValue decimal fuel limit rest with
      | none => none
      | some (value, rest) =>
        match skipBlanks rest with
        | '}' :: rest => some ([(key, value)], rest)
        | ',' :: rest =>
          (readPairs decimal fuel limit rest).map fun found ↦ ((key, value) :: found.1, found.2)
        | _ => none := by
  rw [encodeString, append_assoc, cons_append, singleton_append, readPairs,
    skipBlanks_cons (by decide)]
  simp only [readString_encode, skipBlanks_cons (show isBlank ':' = false by decide),
    String.ofList_toList]

/-- Members in key order are the map they make. -/
theorem lastWins_of_pairwise {members : List (String × Value)}
    (h : members.Pairwise fun a b ↦ a.1 < b.1) : lastWins members = members := by
  have hfold : ∀ (found : List (String × Value)),
      (found ++ members).Pairwise (fun a b ↦ a.1 < b.1) →
      members.foldl (fun found entry ↦ Object.insert found entry.1 entry.2) found =
        found ++ members := by
    clear h
    induction members with
    | nil => simp
    | cons entry rest ih =>
      intro found hfound
      have hlast : Object.insert found entry.1 entry.2 = found ++ [entry] := by
        have hlt : ∀ other ∈ found, other.1 < entry.1 := fun other hother ↦
          (pairwise_append.mp hfound).2.2 other hother entry mem_cons_self
        clear ih hfound
        induction found with
        | nil => rfl
        | cons first found ih =>
          have hfirst := hlt first mem_cons_self
          rw [Object.insert, if_neg (not_lt_of_gt hfirst), if_neg (ne_of_gt hfirst),
            ih fun other hother ↦ hlt other (mem_cons_of_mem _ hother)]
          rfl
      rw [foldl_cons, hlast, ih _ (by simpa using hfound)]
      simp
  exact hfold [] (by simpa using h)

end Canonical

/-! ## Canonical text reads back -/

section RoundTrip

variable {decimal : List Char → Option UInt64}

mutual

/-- **Round trip.** The canonical text of a well-formed value reads back as that value if the value
nests no deeper than the limit, and does not read at all otherwise. -/
theorem readValue_encode : (value : Value) → value.WellFormed → {text : List Char} →
    encodeValue value = .ok text → {fuel limit : Nat} → {rest : List Char} →
    value.readingSize ≤ fuel → Ends rest →
    readValue decimal fuel limit (text ++ rest) =
      if value.depth ≤ limit then some (value, rest) else none
  | _, _, _, _, 0, _, _, hfuel, _ => by
    exact absurd hfuel (by cases ‹Value› <;> simp [Value.readingSize])
  | .null, _, _, h, fuel + 1, limit, rest, _, _ => by
    cases h
    simp [readValue_scalar (show isBlank 'n' = false by decide), readScalar, Value.depth]
  | .bool b, _, _, h, fuel + 1, limit, rest, _, _ => by
    cases b
    · cases h
      simp [readValue_scalar (show isBlank 'f' = false by decide), readScalar, Value.depth]
    · cases h
      simp [readValue_scalar (show isBlank 't' = false by decide), readScalar, Value.depth]
  | .number n, hwf, _, h, fuel + 1, limit, rest, _, hrest => by
    have hread : readScalar decimal (_ ++ rest) = _ := readScalar_number hwf h hrest
    obtain ⟨c, cs, rfl, hc⟩ := exists_head_number h
    rw [cons_append] at hread ⊢
    rw [readValue_scalar (not_blank_of_digit_or_sign hc) (ne_of_digit_or_sign hc (by decide))
      (ne_of_digit_or_sign hc (by decide)) (ne_of_digit_or_sign hc (by decide)), hread,
      if_pos (show (Value.number n).depth ≤ limit from zero_le _)]
  | .string text, _, _, h, fuel + 1, limit, rest, _, _ => by
    cases h
    rw [encodeString, append_assoc, cons_append, singleton_append, readValue,
      skipBlanks_cons (by decide)]
    simp [readString_encode, Value.depth]
  | .array elements, hwf, _, h, fuel + 1, 0, rest, _, _ => by
    simp only [encodeValue, ok_iff] at h
    obtain ⟨body, -, rfl⟩ := h
    rw [cons_append, cons_append, readValue, skipBlanks_cons (by decide)]
    simp [Value.depth]
  | .array [], _, _, h, fuel + 1, limit + 1, rest, _, _ => by
    cases h
    rw [append_assoc, cons_append, readValue, skipBlanks_cons (by decide)]
    simp [skipBlanks_cons (show isBlank ']' = false by decide), Value.depth, Value.depthElements]
  | .array (value :: others), hwf, _, h, fuel + 1, limit + 1, rest, hfuel, _ => by
    simp only [encodeValue, ok_iff] at h
    obtain ⟨body, hbody, rfl⟩ := h
    simp only [Value.readingSize] at hfuel
    have hread : readItems decimal fuel limit (body ++ ']' :: rest) =
        if Value.depthElements (value :: others) ≤ limit then some (value :: others, rest)
        else none :=
      readItems_encode (value :: others) (cons_ne_nil _ _) hwf hbody (by omega)
    obtain ⟨c, cs, rfl, hblank, hbracket⟩ := exists_head_encodeElements hbody
    simp only [cons_append, append_assoc, nil_append] at hread ⊢
    rw [readValue, skipBlanks_cons (by decide)]
    simp only [skipBlanks_cons hblank]
    rw [hread, Value.depth]
    split
    · rename_i heq
      exact absurd (cons.inj heq).1 hbracket
    · by_cases hdepth : Value.depthElements (value :: others) ≤ limit
      · simp [hdepth]
      · simp [hdepth]
  | .object members, hwf, _, h, fuel + 1, 0, rest, _, _ => by
    simp only [encodeValue, ok_iff] at h
    obtain ⟨body, -, rfl⟩ := h
    rw [cons_append, cons_append, readValue, skipBlanks_cons (by decide)]
    simp [Value.depth]
  | .object [], _, _, h, fuel + 1, limit + 1, rest, _, _ => by
    cases h
    rw [append_assoc, cons_append, readValue, skipBlanks_cons (by decide)]
    simp [skipBlanks_cons (show isBlank '}' = false by decide), Value.depth, Value.depthMembers]
  | .object ((key, value) :: others), hwf, _, h, fuel + 1, limit + 1, rest, hfuel, _ => by
    simp only [encodeValue, ok_iff] at h
    obtain ⟨body, hbody, rfl⟩ := h
    simp only [Value.readingSize] at hfuel
    have hread : readPairs decimal fuel limit (body ++ '}' :: rest) =
        if Value.depthMembers ((key, value) :: others) ≤ limit
        then some ((key, value) :: others, rest) else none :=
      readPairs_encode ((key, value) :: others) (cons_ne_nil _ _) hwf.2 hbody (by omega)
    obtain ⟨cs, rfl⟩ := exists_head_encodeMembers hbody
    simp only [cons_append, append_assoc, nil_append] at hread ⊢
    rw [readValue, skipBlanks_cons (by decide)]
    simp only [skipBlanks_cons (show isBlank '"' = false by decide)]
    rw [hread, Value.depth]
    by_cases hdepth : Value.depthMembers ((key, value) :: others) ≤ limit
    · simp [hdepth, lastWins_of_pairwise hwf.1]
    · simp [hdepth]

theorem readItems_encode : (elements : List Value) → elements ≠ [] →
    Value.WellFormedElements elements → {body : List Char} → encodeElements elements = .ok body →
    {fuel limit : Nat} → {rest : List Char} → Value.readingSizeElements elements ≤ fuel →
    readItems decimal fuel limit (body ++ ']' :: rest) =
      if Value.depthElements elements ≤ limit then some (elements, rest) else none
  | [], hne, _, _, _, _, _, _, _ => absurd rfl hne
  | value :: others, _, _, _, _, 0, _, _, hfuel => by
    simp [Value.readingSizeElements] at hfuel
  | [value], _, hwf, _, h, fuel + 1, limit, rest, hfuel => by
    simp only [Value.readingSizeElements] at hfuel
    rw [readItems, readValue_encode value hwf.1 h (by omega) (ends_cons (by decide) _)]
    by_cases hdepth : value.depth ≤ limit
    · simp [hdepth, Value.depthElements, skipBlanks_cons (show isBlank ']' = false by decide)]
    · simp [hdepth, Value.depthElements]
  | value :: next :: others, _, hwf, _, h, fuel + 1, limit, rest, hfuel => by
    simp only [encodeElements, ok_iff] at h
    obtain ⟨_, hhead, tail, htail, rfl⟩ := h
    rw [Value.readingSizeElements] at hfuel
    have hrest : readItems decimal fuel limit (tail ++ ']' :: rest) = _ :=
      readItems_encode (next :: others) (cons_ne_nil _ _) hwf.2 htail (by omega)
    rw [append_assoc, cons_append, readItems,
      readValue_encode value hwf.1 hhead (by omega) (ends_cons (by decide) _), Value.depthElements]
    by_cases hdepth : value.depth ≤ limit
    · simp only [hdepth, if_true, skipBlanks_cons (show isBlank ',' = false by decide), hrest,
        Nat.max_le, true_and]
      by_cases htaildepth : Value.depthElements (next :: others) ≤ limit
      · simp [htaildepth]
      · simp [htaildepth]
    · simp [hdepth]

theorem readPairs_encode : (members : List (String × Value)) → members ≠ [] →
    Value.WellFormedMembers members → {body : List Char} → encodeMembers members = .ok body →
    {fuel limit : Nat} → {rest : List Char} → Value.readingSizeMembers members ≤ fuel →
    readPairs decimal fuel limit (body ++ '}' :: rest) =
      if Value.depthMembers members ≤ limit then some (members, rest) else none
  | [], hne, _, _, _, _, _, _, _ => absurd rfl hne
  | (key, value) :: others, _, _, _, _, 0, _, _, hfuel => by
    simp [Value.readingSizeMembers] at hfuel
  | [(key, value)], _, hwf, _, h, fuel + 1, limit, rest, hfuel => by
    simp only [encodeMembers, ok_iff] at h
    obtain ⟨text, htext, rfl⟩ := h
    simp only [Value.readingSizeMembers] at hfuel
    rw [append_assoc, cons_append, readPairs_key,
      readValue_encode value hwf.1 htext (by omega) (ends_cons (by decide) _)]
    by_cases hdepth : value.depth ≤ limit
    · simp [hdepth, Value.depthMembers, skipBlanks_cons (show isBlank '}' = false by decide)]
    · simp [hdepth, Value.depthMembers]
  | (key, value) :: next :: others, _, hwf, _, h, fuel + 1, limit, rest, hfuel => by
    simp only [encodeMembers, ok_iff] at h
    obtain ⟨text, htext, tail, htail, rfl⟩ := h
    rw [Value.readingSizeMembers] at hfuel
    have hrest : readPairs decimal fuel limit (tail ++ '}' :: rest) = _ :=
      readPairs_encode (next :: others) (cons_ne_nil _ _) hwf.2 htail (by omega)
    simp only [append_assoc, cons_append]
    rw [readPairs_key, readValue_encode value hwf.1 htext (by omega) (ends_cons (by decide) _),
      Value.depthMembers]
    by_cases hdepth : value.depth ≤ limit
    · simp only [hdepth, if_true, skipBlanks_cons (show isBlank ',' = false by decide), hrest,
        Nat.max_le, true_and]
      by_cases htaildepth : Value.depthMembers (next :: others) ≤ limit
      · simp [htaildepth]
      · simp [htaildepth]
    · simp [hdepth]

end

/-- Canonical text is read exactly within the recursion limit. -/
theorem fromStr_encode (decimal : List Char → Option UInt64) (hwf : value.WellFormed)
    (h : encode value = .ok text) :
    fromStr decimal text = if value.depth ≤ 127 then some value else none := by
  simp only [encode, ok_iff] at h
  obtain ⟨_, hchars, rfl⟩ := h
  have hread : readValue decimal _ 127 _ = _ :=
    readValue_encode value hwf hchars (value.readingSize_le hchars) ends_nil
  rw [append_nil] at hread
  rw [fromStr, String.toList_ofList, hread]
  by_cases hdepth : value.depth ≤ 127
  · simp [hdepth, skipBlanks]
  · simp [hdepth]

/-- Different values have different canonical texts, at any depth. -/
theorem encode_injective {a b : Value} (ha : a.WellFormed) (hb : b.WellFormed)
    (hencode : encode a = .ok text) (hother : encode b = .ok text) : a = b := by
  simp only [encode, ok_iff] at hencode hother
  obtain ⟨chars, hchars, rfl⟩ := hencode
  obtain ⟨others, hothers, heq⟩ := hother
  obtain rfl : others = chars := String.ofList_injective heq
  -- Both are what a reader without a limit reads from the text.
  have hreadA : readValue (fun _ ↦ none) _ (a.depth + b.depth) _ = _ :=
    readValue_encode a ha hchars (a.readingSize_le hchars) ends_nil
  have hreadB : readValue (fun _ ↦ none) _ (a.depth + b.depth) _ = _ :=
    readValue_encode b hb hothers (b.readingSize_le hothers) ends_nil
  rw [if_pos (by omega)] at hreadA hreadB
  rw [hreadA, some.injEq, Prod.mk.injEq] at hreadB
  exact hreadB.1

end RoundTrip

/-! ## What is read is well formed -/

section Sound

variable {decimal : List Char → Option UInt64}

variable {number : Number} {negative : Bool}

theorem wellFormed_integer {digits : List Char} (h : integer decimal negative digits = some number) :
    number.WellFormed := by
  have hfloat : ∀ bits : UInt64, (Number.float bits.toNat).WellFormed := fun bits ↦ bits.toNat_lt
  unfold integer at h
  dsimp only at h
  split at h
  · split at h
    · rename_i hrange
      cases h
      exact ⟨by omega, by omega⟩
    · obtain ⟨bits, -, rfl⟩ := map_eq_some_iff.mp h
      exact hfloat bits
  · split at h
    · rename_i hfits
      cases h
      exact hfits
    · obtain ⟨bits, -, rfl⟩ := map_eq_some_iff.mp h
      exact hfloat bits

variable {cs : List Char}

theorem wellFormed_readUnsigned (h : readUnsigned decimal negative cs = some (number, rest)) :
    number.WellFormed := by
  unfold readUnsigned at h
  dsimp only at h
  split at h
  · cases h
  · simp only [bind_eq_bind, bind_eq_some_iff, Prod.exists] at h
    obtain ⟨_, _, -, _, _, -, h⟩ := h
    split at h
    · simp only [Option.bind_eq_some_iff, Option.pure_def, Option.some.injEq, Prod.mk.injEq] at h
      obtain ⟨_, hinteger, rfl, -⟩ := h
      exact wellFormed_integer hinteger
    · simp only [Option.bind_eq_some_iff, Option.pure_def, Option.some.injEq, Prod.mk.injEq] at h
      obtain ⟨bits, -, rfl, -⟩ := h
      exact bits.toNat_lt

theorem wellFormed_readScalar (h : readScalar decimal cs = some (value, rest)) :
    value.WellFormed ∧ value.depth = 0 := by
  unfold readScalar at h
  split at h
  · cases h
    exact ⟨trivial, rfl⟩
  · cases h
    exact ⟨trivial, rfl⟩
  · cases h
    exact ⟨trivial, rfl⟩
  · obtain ⟨⟨number, after⟩, hread, heq⟩ := map_eq_some_iff.mp h
    cases heq
    exact ⟨wellFormed_readUnsigned hread, rfl⟩
  · obtain ⟨⟨number, after⟩, hread, heq⟩ := map_eq_some_iff.mp h
    cases heq
    exact ⟨wellFormed_readUnsigned hread, rfl⟩

theorem lastWins_spec (members : List (String × Value)) :
    (lastWins members).Pairwise (fun a b ↦ a.1 < b.1) ∧
      ∀ entry ∈ lastWins members, entry ∈ members := by
  have hfold : ∀ (rest : List (String × Value)) (found : Object),
      found.Pairwise (fun a b ↦ a.1 < b.1) →
      (rest.foldl (fun found entry ↦ Object.insert found entry.1 entry.2) found).Pairwise
          (fun a b ↦ a.1 < b.1) ∧
        ∀ entry ∈ rest.foldl (fun found entry ↦ Object.insert found entry.1 entry.2) found,
          entry ∈ found ∨ entry ∈ rest := by
    intro rest
    induction rest with
    | nil => exact fun found hfound ↦ ⟨hfound, fun entry hentry ↦ .inl hentry⟩
    | cons first rest ih =>
      intro found hfound
      obtain ⟨horder, hmem⟩ := ih (Object.insert found first.1 first.2)
        (Object.pairwise_insert hfound)
      refine ⟨horder, fun entry hentry ↦ ?_⟩
      rcases hmem entry hentry with hinserted | hrest
      · rcases Object.mem_insert hinserted with rfl | hbef
        · exact .inr mem_cons_self
        · exact .inl hbef
      · exact .inr (mem_cons_of_mem _ hrest)
  obtain ⟨horder, hmem⟩ := hfold members [] List.Pairwise.nil
  exact ⟨horder, fun entry hentry ↦ (hmem entry hentry).resolve_left (by simp)⟩

/-- A value that could have been read with a nesting limit. -/
def Within (limit : Nat) (value : Value) : Prop := value.WellFormed ∧ value.depth ≤ limit

variable {limit : Nat}

theorem within_array {elements : List Value} (h : ∀ value ∈ elements, Within limit value) :
    Within (limit + 1) (.array elements) := by
  refine ⟨Value.wellFormedElements_iff.mpr fun value hvalue ↦ (h value hvalue).1, ?_⟩
  rw [Value.depth, add_le_add_iff_right]
  exact Value.depthElements_le_iff.mpr fun value hvalue ↦ (h value hvalue).2

theorem within_object {members : List (String × Value)}
    (h : ∀ entry ∈ members, Within limit entry.2) :
    Within (limit + 1) (.object (lastWins members)) := by
  obtain ⟨horder, hmem⟩ := lastWins_spec members
  refine ⟨⟨horder, Value.wellFormedMembers_iff.mpr fun entry hentry ↦
    (h entry (hmem entry hentry)).1⟩, ?_⟩
  rw [Value.depth, add_le_add_iff_right]
  exact Value.depthMembers_le_iff.mpr fun entry hentry ↦ (h entry (hmem entry hentry)).2

mutual

/-- **Soundness.** Whatever is read is well formed and within the limit. -/
theorem readValue_sound : (fuel : Nat) → {limit : Nat} → {cs rest : List Char} → {value : Value} →
    readValue decimal fuel limit cs = some (value, rest) → Within limit value
  | 0, _, _, _, _, h => by simp [readValue] at h
  | fuel + 1, limit, cs, rest, value, h => by
    rw [readValue] at h
    split at h
    · obtain ⟨_, -, heq⟩ := map_eq_some_iff.mp h
      cases heq
      exact ⟨trivial, zero_le _⟩
    · split at h
      · cases h
      · split at h
        · cases h
          exact within_array (by simp)
        · obtain ⟨⟨_, after⟩, hread, heq⟩ := map_eq_some_iff.mp h
          cases heq
          exact within_array (readItems_sound fuel hread)
    · split at h
      · cases h
      · split at h
        · cases h
          exact within_object (fun entry hentry ↦ absurd hentry not_mem_nil)
        · obtain ⟨⟨_, after⟩, hread, heq⟩ := map_eq_some_iff.mp h
          cases heq
          exact within_object (readPairs_sound fuel hread)
    · obtain ⟨hwf, _⟩ := wellFormed_readScalar h
      exact ⟨hwf, by omega⟩

theorem readItems_sound : (fuel : Nat) → {limit : Nat} → {cs rest : List Char} →
    {elements : List Value} → readItems decimal fuel limit cs = some (elements, rest) →
    ∀ value ∈ elements, Within limit value
  | 0, _, _, _, _, h => by simp [readItems] at h
  | fuel + 1, limit, cs, rest, elements, h => by
    rw [readItems] at h
    split at h
    · cases h
    · rename_i value after hread
      have hvalue := readValue_sound fuel hread
      split at h
      · cases h
        simpa using hvalue
      · obtain ⟨⟨_, _⟩, hothers, heq⟩ := map_eq_some_iff.mp h
        cases heq
        simpa using ⟨hvalue, readItems_sound fuel hothers⟩
      · cases h

theorem readPairs_sound : (fuel : Nat) → {limit : Nat} → {cs rest : List Char} →
    {members : List (String × Value)} → readPairs decimal fuel limit cs = some (members, rest) →
    ∀ entry ∈ members, Within limit entry.2
  | 0, _, _, _, _, h => by simp [readPairs] at h
  | fuel + 1, limit, cs, rest, members, h => by
    rw [readPairs] at h
    split at h
    · split at h
      · cases h
      · split at h
        · split at h
          · cases h
          · rename_i value after hread
            have hvalue := readValue_sound fuel hread
            split at h
            · cases h
              simpa using hvalue
            · obtain ⟨⟨_, _⟩, hothers, heq⟩ := map_eq_some_iff.mp h
              cases heq
              simpa using ⟨hvalue, fun key value hmem ↦ readPairs_sound fuel hothers (key, value) hmem⟩
            · cases h
        · cases h
    · cases h

end

theorem fromStr_sound (h : fromStr decimal text = some value) :
    value.WellFormed ∧ value.depth ≤ 127 := by
  unfold fromStr at h
  split at h
  · rename_i found rest hread
    split at h
    · cases h
      exact readValue_sound _ hread
    · cases h
  · cases h

end Sound

end JsonReader

end Garive
