import ModuleLoader.Script.Token
import ModuleLoader.Text.Identifier

/-!
# From characters to tokens

Every lexical rule cuts a piece off the front of a text; `Cut` holds the piece's meaning, its
characters and what is left.  `nextToken` skips blanks and comments and cuts one token, and
`tokens` is the whole token list of a source, closed by one token for the end.  Main statement:
`nextToken_shorter`, every token but the end consumes a character.
-/

set_option autoImplicit false

namespace ModuleLoader.Script

open ModuleLoader.Text

/-- A piece cut off the front of a text. -/
structure Cut (α : Type) where
  value : α
  taken : List Char
  rest : List Char

namespace Cut

variable {α β : Type}

/-- A cut with characters in front of those taken. -/
def extend (cs : List Char) (k : Cut α) : Cut α := { k with taken := cs ++ k.taken }

/-- A cut whose value is changed. -/
def map (f : α → β) (k : Cut α) : Cut β := ⟨f k.value, k.taken, k.rest⟩

/-- The text that was cut. -/
def whole (k : Cut α) : List Char := k.taken ++ k.rest

/-- A cut with characters in front is one of the longer text. -/
@[simp] theorem whole_extend (cs : List Char) (k : Cut α) :
    (k.extend cs).whole = cs ++ k.whole := by
  simp [extend, whole]

end Cut

/-! ### Blanks and comments -/

/-- The characters that may stand between tokens outside a comment. -/
def isSpace (c : Char) : Bool := c = ' ' || c = '\t' || c = '\r' || c = '\n'

/-- Where the scan for the next token stands: in code, in a comment up to the line break, or in
a comment up to its closing mark, `star` when the last character was an asterisk. -/
inductive TriviaMode where
  | code
  | line
  | block (star : Bool)

/-- The longest run of blanks and comments; an unclosed comment reaches to the end. -/
def trivia : TriviaMode → List Char → Cut Unit
  | _, [] => ⟨(), [], []⟩
  | .line, c :: r => (trivia (if c = '\n' then .code else .line) r).extend [c]
  | .block star, c :: r =>
    (trivia (if star && c = '/' then .code else .block (c = '*')) r).extend [c]
  | .code, [c] => if isSpace c then ⟨(), [c], []⟩ else ⟨(), [], [c]⟩
  | .code, c :: d :: r =>
    if isSpace c then (trivia .code (d :: r)).extend [c]
    else if c = '/' && d = '/' then (trivia .line r).extend [c, d]
    else if c = '/' && d = '*' then (trivia (.block false) r).extend [c, d]
    else ⟨(), [], c :: d :: r⟩

/-- Blanks and comments and what follows them are the text. -/
theorem whole_trivia (mode : TriviaMode) (cs : List Char) : (trivia mode cs).whole = cs := by
  fun_induction trivia mode cs <;> simp_all [Cut.whole, Cut.extend]

/-! ### Strings -/

/-- The character an escape stands for; an unknown escape stands for itself. -/
def unescape (c : Char) : Char :=
  if c = 'n' then '\n' else if c = 't' then '\t' else if c = 'r' then '\r'
  else if c = '0' then '\x00' else c

/-- The rest of a string literal after its opening quote: its characters, or nothing when a raw
line break or the end of the text comes first. -/
def stringBody (quote : Char) : List Char → Cut (Option (List Char))
  | [] => ⟨none, [], []⟩
  | [c] =>
    if c = '\n' then ⟨none, [], [c]⟩
    else if c = quote then ⟨some [], [c], []⟩
    else ⟨none, [c], []⟩
  | c :: d :: r =>
    if c = '\n' then ⟨none, [], c :: d :: r⟩
    else if c = quote then ⟨some [], [c], d :: r⟩
    else if c = '\\' then
      ((stringBody quote r).map (Option.map (unescape d :: ·))).extend [c, d]
    else ((stringBody quote (d :: r)).map (Option.map (c :: ·))).extend [c]

/-- A string literal and what follows it are the text. -/
theorem whole_stringBody (quote : Char) (cs : List Char) : (stringBody quote cs).whole = cs := by
  fun_induction stringBody quote cs <;> simp_all [Cut.whole, Cut.extend, Cut.map]

/-! ### Numbers -/

/-- The rest of a number after its first digit: digits, underscores and at most one point, which
a digit must follow. -/
def numberBody (seenPoint : Bool) : List Char → Cut Unit
  | [] => ⟨(), [], []⟩
  | c :: r =>
    if isAsciiDigit c || c = '_' then (numberBody seenPoint r).extend [c]
    else if c = '.' && !seenPoint && (r.head?.any isAsciiDigit) then
      (numberBody true r).extend [c]
    else ⟨(), [], c :: r⟩

/-- A number and what follows it are the text. -/
theorem whole_numberBody (seen : Bool) (cs : List Char) : (numberBody seen cs).whole = cs := by
  fun_induction numberBody seen cs <;> simp_all [Cut.whole, Cut.extend]

/-- The whole number a list of digits denotes in base ten. -/
def digitsValue (cs : List Char) : Nat :=
  cs.foldl (fun n c => 10 * n + (c.val.toNat - 48)) 0

/-- The number a numeral denotes; underscores are ignored. -/
def numeralValue (cs : List Char) : Binary64 :=
  let plain := cs.filter (· != '_')
  let whole := plain.takeWhile (· != '.')
  let fraction := (plain.dropWhile (· != '.')).drop 1
  Binary64.ofDecimal (digitsValue (whole ++ fraction)) (-(fraction.length : Int))

/-! ### Words -/

variable [XidClasses]

/-- What follows `declare` in the two-part keyword. -/
def rootSuffix : List Char := ['-', 'r', 'o', 'o', 't']

/-- Whether a text goes on with the second part of `declare-root` and the word ends there. -/
def continuesDeclareRoot (cs : List Char) : Bool :=
  rootSuffix.isPrefixOf cs && !((cs.drop rootSuffix.length).head?.any isIdContinue)

/-- A word: an identifier, a reserved word or `declare-root`. -/
def word (first : Char) (cs : List Char) : Cut TokenKind :=
  let tail := cs.takeWhile isIdContinue
  let rest := cs.dropWhile isIdContinue
  let name := String.ofList (first :: tail)
  if name = "declare" && continuesDeclareRoot rest then
    ⟨.declareRoot, first :: tail ++ rootSuffix, rest.drop rootSuffix.length⟩
  else
    match Keyword.ofSpelling? name with
    | some k => ⟨.keyword k, first :: tail, rest⟩
    | none => ⟨.identifier name, first :: tail, rest⟩

/-! ### Tokens -/

/-- The token of a string literal, or of one that lacks its end. -/
def stringToken : Option (List Char) → TokenKind
  | some cs => .string (String.ofList cs)
  | none => .unterminated

/-- The token that begins with a character. -/
def lexemeAt (c : Char) (r : List Char) : Cut TokenKind :=
  match Mark.ofChar? c with
  | some m => ⟨.mark m, [c], r⟩
  | none =>
    if c = '"' || c = '\'' then ((stringBody c r).map stringToken).extend [c]
    else if isAsciiDigit c then
      ⟨.number (numeralValue (c :: (numberBody false r).taken)), c :: (numberBody false r).taken,
        (numberBody false r).rest⟩
    else if isIdStart c then word c r
    else ⟨.invalid c, [c], r⟩

/-- The token at the front of a text, which is the finish where nothing is left. -/
def lexeme : List Char → Cut TokenKind
  | [] => ⟨.finish, [], []⟩
  | c :: r => lexemeAt c r

/-- What is left to scan, and the place where it begins. -/
structure Cursor where
  rest : List Char
  place : Place

/-- The cursor at the start of a source. -/
def Cursor.ofSource (source : String) : Cursor := ⟨source.toList, Place.start⟩

/-- The next token with its place, behind blanks and comments, and the cursor behind it. -/
def nextToken (c : Cursor) : Token × Cursor :=
  let gap := trivia .code c.rest
  let start := c.place.after gap.taken
  let piece := lexeme gap.rest
  let finish := start.after piece.taken
  (⟨piece.value, ⟨start, finish.offset⟩, gap.taken.contains '\n'⟩, ⟨piece.rest, finish⟩)

/-- A word and what follows it are the text. -/
theorem whole_word (first : Char) (cs : List Char) : (word first cs).whole = first :: cs := by
  unfold word Cut.whole
  simp only
  split
  · rename_i h
    simp only [Bool.and_eq_true, continuesDeclareRoot, List.isPrefixOf_iff_prefix] at h
    obtain ⟨t, ht⟩ := h.2.1
    have hsplit := List.takeWhile_append_dropWhile (p := isIdContinue) (l := cs)
    rw [← ht] at hsplit ⊢
    simpa using hsplit
  · split <;> simp [List.takeWhile_append_dropWhile]

/-- A word begins with its first character. -/
theorem taken_word (first : Char) (cs : List Char) :
    ∃ tail, (word first cs).taken = first :: tail := by
  unfold word
  simp only
  split
  · exact ⟨_, rfl⟩
  · split <;> exact ⟨_, rfl⟩

/-- The characters of a token and what follows them are the text. -/
theorem whole_lexeme (cs : List Char) : (lexeme cs).whole = cs := by
  cases cs with
  | nil => rfl
  | cons c r =>
    simp only [lexeme, lexemeAt]
    split
    · rfl
    · split
      · rw [Cut.whole_extend]
        exact congrArg (c :: ·) (whole_stringBody c r)
      · split
        · simpa [Cut.whole] using whole_numberBody false r
        · split
          · exact whole_word c r
          · rfl

/-- The token that begins with a character has that character as its first. -/
theorem taken_lexemeAt (c : Char) (r : List Char) :
    ∃ tail, (lexemeAt c r).taken = c :: tail := by
  simp only [lexemeAt]
  split
  · exact ⟨_, rfl⟩
  · split
    · exact ⟨_, rfl⟩
    · split
      · exact ⟨_, rfl⟩
      · split
        · exact taken_word c r
        · exact ⟨_, rfl⟩

/-- Every token but the end of the source consumes at least one character. -/
theorem nextToken_shorter (c : Cursor) (h : (nextToken c).1.kind ≠ .finish) :
    (nextToken c).2.rest.length < c.rest.length := by
  have hgap := congrArg List.length (whole_trivia .code c.rest)
  have hpiece := congrArg List.length (whole_lexeme (trivia .code c.rest).rest)
  simp only [Cut.whole, List.length_append] at hgap hpiece
  have hpos : 0 < (lexeme (trivia .code c.rest).rest).taken.length := by
    cases hr : (trivia .code c.rest).rest with
    | nil => simp [nextToken, hr, lexeme] at h
    | cons d r =>
      obtain ⟨tail, ht⟩ := taken_lexemeAt d r
      simp [lexeme, ht]
  simp only [nextToken]
  omega

/-- The tokens from a cursor on, up to and including the end of the source. -/
def tokensFrom (c : Cursor) : List Token :=
  if _h : (nextToken c).1.kind = .finish then [(nextToken c).1]
  else (nextToken c).1 :: tokensFrom (nextToken c).2
termination_by c.rest.length
decreasing_by exact nextToken_shorter c _h

/-- The tokens of a source, up to and including its end. -/
def tokens (source : String) : List Token := tokensFrom (Cursor.ofSource source)

end ModuleLoader.Script
