import ModuleLoader.Toml.Scalar

/-!
# Reading TOML values

Strings in their four forms, keys, and values.  A reader takes a value off the front of a text and
answers with it and what follows.  Arrays and inline tables may be nested up to a fixed depth.
-/

set_option autoImplicit false

namespace ModuleLoader.Toml

open ModuleLoader.Text

/-- Reads something at the front of a text and leaves the rest. -/
abbrev Reader (α : Type) := List Char → Option (α × List Char)

/-- Whether a character is blank within a line. -/
def isLineBlank (c : Char) : Bool := c == ' ' || c == '\t'

/-- A text without the blanks at its front that end no line. -/
def dropLineBlanks (cs : List Char) : List Char := cs.dropWhile isLineBlank

/-- What may stand in a comment, or in a string besides its delimiters and escapes. -/
def isPlain (c : Char) : Bool := !isControl c || c == '\t'

/-- A text without the comment at its front. -/
def dropComment : List Char → List Char
  | '#' :: r => r.dropWhile isPlain
  | r => r

/-- What stands behind a line break. -/
def afterBreak? : List Char → Option (List Char)
  | '\n' :: r => some r
  | '\r' :: '\n' :: r => some r
  | _ => none

/-- What follows the end of a line, with blanks and a comment before it. -/
def lineEnd? (cs : List Char) : Option (List Char) :=
  match dropComment (dropLineBlanks cs) with
  | [] => some []
  | r => afterBreak? r

/-- A text without the blanks, line breaks and comments at its front. -/
def dropFiller (inComment : Bool) : List Char → List Char
  | [] => []
  | ['\r'] => ['\r']
  | '\r' :: c :: r => if c = '\n' then dropFiller false r else '\r' :: c :: r
  | c :: r =>
    if c = '\n' then dropFiller false r
    else if inComment then (if isPlain c then dropFiller true r else c :: r)
    else if isLineBlank c then dropFiller false r
    else if c = '#' then dropFiller true r
    else c :: r

/-! ### Strings -/

/-- The character that hexadecimal digits name. -/
def namedChar? (ds : List Char) : Option Char :=
  if ds.all (isDigitOf 16) then
    let n := valueIn 16 ds
    if n.isValidChar then some (Char.ofNat n) else none
  else none

/-- The character a one-letter escape stands for. -/
def escape? (c : Char) : Option Char :=
  if c = '"' ∨ c = '\\' then some c
  else if c = 'b' then some '\x08'
  else if c = 'f' then some '\x0c'
  else if c = 'n' then some '\n'
  else if c = 'r' then some '\r'
  else if c = 't' then some '\t'
  else none

/-- Put a character, if there is one, before what is read next. -/
def withChar (c : Option Char) (next : Option (List Char × List Char)) :
    Option (List Char × List Char) :=
  match c, next with
  | some c, some (cs, rest) => some (c :: cs, rest)
  | _, _ => none

/-- The rest of a string between double quotes. -/
def basicBody : Reader (List Char)
  | [] => none
  | '"' :: r => some ([], r)
  | '\\' :: 'u' :: a :: b :: c :: d :: r => withChar (namedChar? [a, b, c, d]) (basicBody r)
  | '\\' :: 'U' :: a :: b :: c :: d :: e :: f :: g :: h :: r =>
    withChar (namedChar? [a, b, c, d, e, f, g, h]) (basicBody r)
  | '\\' :: c :: r => withChar (escape? c) (basicBody r)
  | c :: r => if isPlain c && c != '\\' then withChar (some c) (basicBody r) else none

/-- The rest of a string between three double quotes.  Up to two more quotes may come right before
its end; after a backslash at the end of a line all blanks and line breaks are skipped. -/
def longBasicBody (skipping : Bool) : Reader (List Char)
  | [] => none
  | '"' :: '"' :: '"' :: '"' :: '"' :: r => some (['"', '"'], r)
  | '"' :: '"' :: '"' :: '"' :: r => some (['"'], r)
  | '"' :: '"' :: '"' :: r => some ([], r)
  | '\\' :: 'u' :: a :: b :: c :: d :: r =>
    withChar (namedChar? [a, b, c, d]) (longBasicBody false r)
  | '\\' :: 'U' :: a :: b :: c :: d :: e :: f :: g :: h :: r =>
    withChar (namedChar? [a, b, c, d, e, f, g, h]) (longBasicBody false r)
  | '\r' :: '\n' :: r =>
    if skipping then longBasicBody true r else withChar (some '\n') (longBasicBody false r)
  | '\\' :: c :: r =>
    if isLineBlank c || c == '\n' || c == '\r' then
      if (afterBreak? (dropLineBlanks (c :: r))).isSome then longBasicBody true (c :: r) else none
    else withChar (escape? c) (longBasicBody false r)
  | c :: r =>
    if skipping && (isLineBlank c || c == '\n') then longBasicBody true r
    else if (isPlain c || c == '\n') && c != '\\' then withChar (some c) (longBasicBody false r)
    else none

/-- The rest of a literal string, up to its quote. -/
def literalBody : Reader (List Char)
  | [] => none
  | c :: r =>
    if c = '\'' then some ([], r)
    else if isPlain c then withChar (some c) (literalBody r)
    else none

/-- The rest of a string between three apostrophes. -/
def longLiteralBody : Reader (List Char)
  | [] => none
  | '\'' :: '\'' :: '\'' :: '\'' :: '\'' :: r => some (['\'', '\''], r)
  | '\'' :: '\'' :: '\'' :: '\'' :: r => some (['\''], r)
  | '\'' :: '\'' :: '\'' :: r => some ([], r)
  | '\r' :: '\n' :: r => withChar (some '\n') (longLiteralBody r)
  | c :: r => if isPlain c || c == '\n' then withChar (some c) (longLiteralBody r) else none

/-- What follows an opening delimiter of three, without a line break right behind it. -/
def dropFirstBreak (cs : List Char) : List Char := (afterBreak? cs).getD cs

/-- A string on one line, basic or literal. -/
def shortString : Reader String
  | '"' :: r => (basicBody r).map fun s => (String.ofList s.1, s.2)
  | '\'' :: r => (literalBody r).map fun s => (String.ofList s.1, s.2)
  | _ => none

/-- A string of any kind. -/
def anyString : Reader String
  | '"' :: '"' :: '"' :: r =>
    (longBasicBody false (dropFirstBreak r)).map fun s => (String.ofList s.1, s.2)
  | '\'' :: '\'' :: '\'' :: r =>
    (longLiteralBody (dropFirstBreak r)).map fun s => (String.ofList s.1, s.2)
  | r => shortString r

/-! ### Keys -/

/-- How deep values may stand in one another. -/
def depthLimit : Nat := 80

/-- One part of a key, bare or quoted. -/
def keyPart : Reader String
  | c :: r =>
    if c = '"' ∨ c = '\'' then shortString (c :: r)
    else if isBareKeyChar c then
      some (String.ofList ((c :: r).takeWhile isBareKeyChar), (c :: r).dropWhile isBareKeyChar)
    else none
  | [] => none

/-- The parts of a key from the front of a text on, at most as many as there is fuel for. -/
def keyParts : Nat → Reader (List String)
  | 0, _ => none
  | fuel + 1, cs => do
    let (part, r) ← keyPart (dropLineBlanks cs)
    match dropLineBlanks r with
    | '.' :: r' =>
      let (parts, rest) ← keyParts fuel r'
      return (part :: parts, rest)
    | rest => return ([part], rest)

/-- A key, with the blanks on both sides of it. -/
def key : Reader (List String) := keyParts (depthLimit - 1)

/-! ### Values -/

/-- Whether a character may stand in a value that is one word. -/
def isWordChar (c : Char) : Bool :=
  isAsciiLetter c || isAsciiDigit c || c == '+' || c == '-' || c == '.' || c == '_' || c == ':'

/-- A value that is one word; between a date and a time a blank may stand. -/
def word : Reader TomlValue := fun cs =>
  let first := cs.takeWhile isWordChar
  let rest := cs.dropWhile isWordChar
  match rest with
  | ' ' :: r =>
    match if isDate first then timeAndOffset? (r.takeWhile isWordChar) else none with
    | some time =>
      (date? first).map fun d =>
        (.datetime (String.ofList (d.1 ++ 'T' :: time)), r.dropWhile isWordChar)
    | none => (scalar? first).map fun v => (v, rest)
  | _ => (scalar? first).map fun v => (v, rest)

/-- The items of an array after its opening bracket, at most as many as there is fuel for. -/
def arrayItems (item : Reader TomlValue) : Nat → Reader (List TomlValue)
  | 0, _ => none
  | fuel + 1, cs =>
    match dropFiller false cs with
    | ']' :: rest => some ([], rest)
    | cs' => do
      let (v, r) ← item cs'
      match dropFiller false r with
      | ',' :: r' =>
        let (vs, rest) ← arrayItems item fuel r'
        return (v :: vs, rest)
      | ']' :: rest => return ([v], rest)
      | _ => none

/-- A key with its value. -/
structure Pair where
  path : List String
  value : TomlValue

/-- A key with its value. -/
def pair (item : Reader TomlValue) : Reader Pair := fun cs => do
  let (path, r) ← key cs
  match r with
  | '=' :: r' =>
    let (value, rest) ← item (dropLineBlanks r')
    return (⟨path, value⟩, rest)
  | _ => none

/-- The pairs of an inline table from the first on, at most as many as there is fuel for. -/
def inlinePairs (item : Reader TomlValue) : Nat → Reader (List Pair)
  | 0, _ => none
  | fuel + 1, cs => do
    let (p, r) ← pair item cs
    match dropLineBlanks r with
    | ',' :: r' =>
      let (ps, rest) ← inlinePairs item fuel r'
      return (p :: ps, rest)
    | '\x7d' :: rest => return ([p], rest)
    | _ => none

end ModuleLoader.Toml
