import ModuleLoader.Number.Shortest

/-!
# Tokens of a script

A script is a flat list of statements made of numbers, strings, identifiers, six keywords, the
word `declare-root` and nine punctuation marks.  Each token knows where it stands and whether a
line break precedes it, because a line break may end a statement.
-/

set_option autoImplicit false

namespace ModuleLoader.Script

/-- A place in a source: bytes before it, and its line and column counted from one, columns in
characters. -/
structure Place where
  offset : Nat
  line : Nat
  column : Nat
deriving DecidableEq, Repr, Inhabited

namespace Place

/-- The place of the first character. -/
def start : Place := ⟨0, 1, 1⟩

/-- The place behind one character. -/
def step (p : Place) (c : Char) : Place :=
  if c = '\n' then ⟨p.offset + c.utf8Size, p.line + 1, 1⟩
  else ⟨p.offset + c.utf8Size, p.line, p.column + 1⟩

/-- The place behind a text. -/
def after (p : Place) (cs : List Char) : Place := cs.foldl step p

/-- Moving past two runs in turn is moving past both at once. -/
theorem after_append (p : Place) (as bs : List Char) :
    p.after (as ++ bs) = (p.after as).after bs := by
  simp [after]

end Place

/-- The bytes a token covers, with the place of the first one. -/
structure Span where
  place : Place
  finish : Nat
deriving DecidableEq, Repr, Inhabited

/-- The reserved words. -/
inductive Keyword where
  | var
  | throw
  | true
  | false
  | null
  | undefined
deriving DecidableEq, Repr

/-- How a keyword is written. -/
def Keyword.spelling : Keyword → String
  | .var => "var"
  | .throw => "throw"
  | .true => "true"
  | .false => "false"
  | .null => "null"
  | .undefined => "undefined"

/-- The keywords. -/
def Keyword.all : List Keyword := [.var, .throw, .true, .false, .null, .undefined]

/-- The reserved word with a spelling, if there is one. -/
def Keyword.ofSpelling? (name : String) : Option Keyword :=
  Keyword.all.find? fun k => k.spelling == name

/-- Whether a name is reserved and so cannot be bound. -/
def isKeyword (name : String) : Bool := (Keyword.ofSpelling? name).isSome

/-- The punctuation marks. -/
inductive Mark where
  | dot
  | equal
  | semicolon
  | comma
  | leftParen
  | rightParen
  | leftBrace
  | rightBrace
  | minus
deriving DecidableEq, Repr

/-- The character that a mark is. -/
def Mark.char : Mark → Char
  | .dot => '.'
  | .equal => '='
  | .semicolon => ';'
  | .comma => ','
  | .leftParen => '('
  | .rightParen => ')'
  | .leftBrace => '\x7b'
  | .rightBrace => '\x7d'
  | .minus => '-'

/-- The marks. -/
def Mark.all : List Mark :=
  [.dot, .equal, .semicolon, .comma, .leftParen, .rightParen, .leftBrace, .rightBrace, .minus]

/-- The mark written with a character, if there is one. -/
def Mark.ofChar? (c : Char) : Option Mark := Mark.all.find? fun m => m.char == c

/-- What a token is. -/
inductive TokenKind where
  | number (value : Binary64)
  | string (value : String)
  | identifier (name : String)
  | keyword (word : Keyword)
  | declareRoot
  | mark (symbol : Mark)
  /-- A string literal cut off by a line break or by the end of the source. -/
  | unterminated
  /-- A character the language does not know. -/
  | invalid (char : Char)
  /-- The end of the source. -/
  | finish
deriving DecidableEq, Repr

/-- What a token is called in messages. -/
def TokenKind.describe : TokenKind → String
  | .number value => "number " ++ value.text
  | .string value => "string \"" ++ value ++ "\""
  | .identifier name => "identifier '" ++ name ++ "'"
  | .keyword word => "'" ++ word.spelling ++ "'"
  | .declareRoot => "'declare-root'"
  | .mark symbol => "'" ++ symbol.char.toString ++ "'"
  | .unterminated => "unterminated string"
  | .invalid char => "'" ++ char.toString ++ "'"
  | .finish => "end of input"

/-- A token with its span; `newlineBefore` tells whether a line break lies between it and the
token before. -/
structure Token where
  kind : TokenKind
  span : Span
  newlineBefore : Bool
deriving DecidableEq, Repr

end ModuleLoader.Script
