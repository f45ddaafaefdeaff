import ModuleLoader.Text.Identifier

/-!
# Percent encoding

Which characters stand for themselves in which part of a URL, and the encoding of all others: a
percent sign and two digits for each byte.
-/

set_option autoImplicit false

namespace ModuleLoader.Url

/-- The control characters, of which no part of a URL holds any. -/
def isControl (c : Char) : Bool := c.val.toNat < 32 || c.val.toNat == 127

/-- Whether a character is escaped in a fragment. -/
def inFragmentSet (c : Char) : Bool :=
  isControl c || c == ' ' || c == '"' || c == '<' || c == '>' || c == '`'

/-- Whether a character is escaped in a path. -/
def inPathSet (c : Char) : Bool :=
  inFragmentSet c || c == '#' || c == '?' || c == '\x7b' || c == '\x7d'

/-- What is encoded in a user name or password. -/
def inUserSet (c : Char) : Bool :=
  inPathSet c || c == '/' || c == ':' || c == ';' || c == '=' || c == '@' || c == '[' ||
    c == '\\' || c == ']' || c == '^' || c == '|'

/-- What is encoded in a query; a special scheme also encodes the apostrophe. -/
def inQuerySet (special : Bool) (c : Char) : Bool :=
  isControl c || c == ' ' || c == '"' || c == '#' || c == '<' || c == '>' || (special && c == '\'')

/-- A hexadecimal digit, in capitals. -/
def hexDigit (n : Nat) : Char := Char.ofNat (if n < 10 then 48 + n else 55 + n)

/-- A byte in its escaped form. -/
def percentByte (b : UInt8) : List Char := ['%', hexDigit (b.toNat / 16), hexDigit (b.toNat % 16)]

/-- A character as it is written where some are encoded; those outside ASCII always are. -/
def encodeChar (encoded : Char → Bool) (c : Char) : List Char :=
  if c.val.toNat < 128 && !encoded c then [c] else (String.utf8EncodeChar c).flatMap percentByte

/-- A text as it is written where some characters are encoded. -/
def encode (encoded : Char → Bool) (cs : List Char) : String :=
  String.ofList (cs.flatMap (encodeChar encoded))

/-- The value of a hexadecimal digit of either case. -/
def hexValue? (c : Char) : Option Nat :=
  let n := c.val.toNat
  if 48 ≤ n ∧ n ≤ 57 then some (n - 48)
  else if 65 ≤ n ∧ n ≤ 70 then some (n - 55)
  else if 97 ≤ n ∧ n ≤ 102 then some (n - 87)
  else none

/-- The byte a percent sign and two digits stand for. -/
def percentValue? (a b : Char) : Option UInt8 :=
  match hexValue? a, hexValue? b with
  | some h, some l => some (UInt8.ofNat (h * 16 + l))
  | _, _ => none

/-- The bytes of a text, encoded ones decoded; a percent sign before anything else is itself. -/
def decodeBytes : List Char → List UInt8
  | '%' :: a :: b :: r =>
    match percentValue? a b with
    | some byte => byte :: decodeBytes r
    | none => 37 :: decodeBytes (a :: b :: r)
  | c :: r => String.utf8EncodeChar c ++ decodeBytes r
  | [] => []

/-- The text that encoded characters stand for, if their bytes are one. -/
def decode? (cs : List Char) : Option String := String.fromUTF8? ⟨(decodeBytes cs).toArray⟩

end ModuleLoader.Url
