import ModuleLoader.Text.Identifier

/-!
# JSON tokens

The lexemes of JSON: marks, literals, numbers and strings, with the four blank characters between
them.  A string may spell half of a surrogate pair by an escape; such a string is well formed but
is no text.  Main statement: `length_stringBody_lt`, a string consumes characters.
-/

set_option autoImplicit false

namespace ModuleLoader

/-- The lexemes of JSON. -/
inductive JsonToken where
  | openArray
  | closeArray
  | openObject
  | closeObject
  | comma
  | colon
  | null
  | boolean (value : Bool)
  /-- A number as it is spelled. -/
  | number (spelling : String)
  /-- A string; it has no text when an escape in it spells half of a surrogate pair. -/
  | string (text : Option String)
deriving DecidableEq, Repr

namespace JsonToken

/-- Whether a character is blank between tokens. -/
def isBlank (c : Char) : Bool := c == ' ' || c == '\n' || c == '\t' || c == '\r'

/-- The value of a hexadecimal digit, in either case. -/
def hexDigit? (c : Char) : Option Nat :=
  let n := c.val.toNat
  if 48 ≤ n ∧ n ≤ 57 then some (n - 48)
  else if 65 ≤ n ∧ n ≤ 70 then some (n - 55)
  else if 97 ≤ n ∧ n ≤ 102 then some (n - 87)
  else none

/-- The number four hexadecimal digits denote. -/
def hexQuad? (a b c d : Char) : Option Nat :=
  match hexDigit? a, hexDigit? b, hexDigit? c, hexDigit? d with
  | some a, some b, some c, some d => some (((a * 16 + b) * 16 + c) * 16 + d)
  | _, _, _, _ => none

/-- The character a one-letter escape stands for. -/
def escape? (c : Char) : Option Char :=
  if c = '"' ∨ c = '\\' ∨ c = '/' then some c
  else if c = 'b' then some '\x08'
  else if c = 'f' then some '\x0c'
  else if c = 'n' then some '\n'
  else if c = 'r' then some '\r'
  else if c = 't' then some '\t'
  else none

/-- The code units a string spells, after its opening quote, and what follows the closing one. -/
def stringBody : List Char → Option (List Nat × List Char)
  | [] => none
  | '"' :: r => some ([], r)
  | '\\' :: 'u' :: a :: b :: c :: d :: r =>
    match hexQuad? a b c d with
    | none => none
    | some n => (stringBody r).map fun s => (n :: s.1, s.2)
  | '\\' :: c :: r =>
    match escape? c with
    | none => none
    | some e => (stringBody r).map fun s => (e.val.toNat :: s.1, s.2)
  | c :: r =>
    if c.val.toNat < 32 ∨ c = '\\' then none
    else (stringBody r).map fun s => (c.val.toNat :: s.1, s.2)

/-- Whether a code unit is the first half of a surrogate pair. -/
def isHighHalf (n : Nat) : Bool := 0xD800 ≤ n && n ≤ 0xDBFF

/-- Whether a code unit is the second half of a surrogate pair. -/
def isLowHalf (n : Nat) : Bool := 0xDC00 ≤ n && n ≤ 0xDFFF

/-- The characters that code units denote, if every half of a pair has its other half. -/
def charsOf : List Nat → Option (List Char)
  | [] => some []
  | [n] => if isHighHalf n || isLowHalf n then none else some [Char.ofNat n]
  | n :: m :: r =>
    if isHighHalf n then
      if isLowHalf m then
        (charsOf r).map (Char.ofNat (0x10000 + (n - 0xD800) * 0x400 + (m - 0xDC00)) :: ·)
      else none
    else if isLowHalf n then none
    else (charsOf (m :: r)).map (Char.ofNat n :: ·)

/-- Whether a character can stand in a number. -/
def isNumberChar (c : Char) : Bool :=
  Text.isAsciiDigit c || c == '-' || c == '+' || c == '.' || c == 'e' || c == 'E'

/-- Whether a text is a number's exponent, or nothing. -/
def isExponent : List Char → Bool
  | [] => true
  | e :: r =>
    let digits := match r with
      | '+' :: ds | '-' :: ds => ds
      | ds => ds
    (e == 'e' || e == 'E') && !digits.isEmpty && digits.all Text.isAsciiDigit

/-- Whether a text is a number's fraction and exponent, or nothing. -/
def isFraction : List Char → Bool
  | '.' :: r =>
    !(r.takeWhile Text.isAsciiDigit).isEmpty && isExponent (r.dropWhile Text.isAsciiDigit)
  | r => isExponent r

/-- Whether a text is a number without a sign: no leading zero, digits on both sides of a point. -/
def isUnsigned : List Char → Bool
  | '0' :: r => isFraction r
  | c :: r => Text.isAsciiDigit c && isFraction (r.dropWhile Text.isAsciiDigit)
  | [] => false

/-- Whether a text is a number, with or without a sign. -/
def isNumber : List Char → Bool
  | '-' :: r => isUnsigned r
  | r => isUnsigned r

/-- The token that a word is. -/
def ofWord? (word : List Char) : Option JsonToken :=
  if word = "null".toList then some .null
  else if word = "true".toList then some (.boolean true)
  else if word = "false".toList then some (.boolean false)
  else none

/-- The token that a mark is. -/
def ofMark? (c : Char) : Option JsonToken :=
  if c = '[' then some .openArray
  else if c = ']' then some .closeArray
  else if c = '\x7b' then some .openObject
  else if c = '\x7d' then some .closeObject
  else if c = ',' then some .comma
  else if c = ':' then some .colon
  else none

/-- The lexeme that begins with a character that is not blank, and what follows it. -/
def lexeme? (c : Char) (r : List Char) : Option (JsonToken × List Char) :=
  match ofMark? c with
  | some mark => some (mark, r)
  | none =>
    if c = '"' then (stringBody r).map fun s => (.string ((charsOf s.1).map String.ofList), s.2)
    else if Text.isAsciiLetter c then
      (ofWord? (c :: r.takeWhile Text.isAsciiLetter)).map fun t => (t, r.dropWhile Text.isAsciiLetter)
    else if isNumber (c :: r.takeWhile isNumberChar) then
      some (.number (String.ofList (c :: r.takeWhile isNumberChar)), r.dropWhile isNumberChar)
    else none

/-- What stands behind a string is shorter than the string with it. -/
theorem length_stringBody_lt {cs : List Char} {units : List Nat} {rest : List Char}
    (h : stringBody cs = some (units, rest)) : rest.length < cs.length := by
  fun_induction stringBody cs generalizing units rest <;>
    simp_all only [List.length_cons, Option.map_eq_some_iff, Prod.exists, Prod.mk.injEq,
      reduceCtorEq, Option.some.injEq]
  case case2 => omega
  case case4 ih =>
    obtain ⟨_, _, h, _, rfl⟩ := h
    have := ih h
    omega
  case case6 ih =>
    obtain ⟨_, _, h, _, rfl⟩ := h
    have := ih h
    omega
  case case8 ih =>
    obtain ⟨_, _, h, _, rfl⟩ := h
    have := ih h
    omega

/-- A lexeme leaves no more than what follows its first character. -/
theorem length_lexeme?_le {c : Char} {r rest : List Char} {t : JsonToken}
    (h : lexeme? c r = some (t, rest)) : rest.length ≤ r.length := by
  unfold lexeme? at h
  split at h
  · cases h
    exact Nat.le_refl _
  · split at h
    · obtain ⟨⟨units, rest'⟩, hs, he⟩ := Option.map_eq_some_iff.1 h
      cases he
      exact Nat.le_of_lt (length_stringBody_lt hs)
    · split at h
      · obtain ⟨t', _, he⟩ := Option.map_eq_some_iff.1 h
        cases he
        exact (List.dropWhile_sublist _).length_le
      · split at h
        · cases h
          exact (List.dropWhile_sublist _).length_le
        · cases h

/-- The lexemes of a text, if it is made of lexemes and blanks. -/
def all? : List Char → Option (List JsonToken)
  | [] => some []
  | c :: r =>
    if isBlank c then all? r
    else
      match _h : lexeme? c r with
      | none => none
      | some (t, rest) => (all? rest).map (t :: ·)
termination_by cs => cs.length
decreasing_by
  · simp
  · have := length_lexeme?_le _h
    simp only [List.length_cons]
    omega

end JsonToken

end ModuleLoader
