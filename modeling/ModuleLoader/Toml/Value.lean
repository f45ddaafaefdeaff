import ModuleLoader.Number.Whole
import ModuleLoader.Table
import ModuleLoader.Text.Identifier

/-!
# TOML values

The values of TOML and how they are written on one line.  A date or time is kept as it is written.
-/

set_option autoImplicit false

namespace ModuleLoader

/-- A TOML value; the entries of a table come in ascending order of their keys. -/
inductive TomlValue where
  | string (text : String)
  | integer (value : Int)
  | float (value : Binary64)
  | boolean (value : Bool)
  | datetime (text : String)
  | array (items : List TomlValue)
  | table (entries : List (String × TomlValue))

namespace Toml

/-- The characters of a key that needs no quotes. -/
def isBareKeyChar (c : Char) : Bool :=
  Text.isAsciiLetter c || Text.isAsciiDigit c || c == '_' || c == '-'

/-- Whether a character cannot be written without an escape. -/
def isControl (c : Char) : Bool := c.val.toNat < 32 || c.val.toNat == 127

/-- The four hexadecimal digits of a number, in capitals. -/
def fourDigits (n : Nat) : List Char :=
  let ds := (Nat.toDigits 16 n).map Char.toUpper
  List.replicate (4 - ds.length) '0' ++ ds

/-- How a character is written in a basic string. -/
def escaped (keepBreaks : Bool) (c : Char) : List Char :=
  if c = '\x08' then ['\\', 'b']
  else if c = '\t' then ['\\', 't']
  else if c = '\n' then (if keepBreaks then ['\n'] else ['\\', 'n'])
  else if c = '\x0c' then ['\\', 'f']
  else if c = '\r' then ['\\', 'r']
  else if c = '"' then ['\\', '"']
  else if c = '\\' then ['\\', '\\']
  else if isControl c then '\\' :: 'u' :: fourDigits c.val.toNat
  else [c]

/-- A text between three double quotes, given how many quotes stand right before it: line breaks
stay, and of double quotes in a row each third has an escape. -/
def escapedLong (quotes : Nat) : List Char → List Char
  | [] => []
  | c :: r =>
    if c = '"' ∧ quotes < 2 then '"' :: escapedLong (quotes + 1) r
    else escaped true c ++ escapedLong 0 r

/-- The length of the longest run of a character, given the length of the one just before. -/
def longestRun (mark : Char) (run : Nat) : List Char → Nat
  | [] => run
  | c :: r => if c = mark then longestRun mark (run + 1) r else max run (longestRun mark 0 r)

/-- A text between two marks. -/
def enclosed (mark : Char) (body : List Char) : String := String.ofList (mark :: body ++ [mark])

/-- A string between three marks on each side; if it has line breaks it starts on a line of its
own. -/
def enclosedLong (mark : Char) (breaks : Bool) (body : List Char) : String :=
  let delimiter := List.replicate 3 mark
  String.ofList (delimiter ++ (if breaks then ['\n'] else []) ++ body ++ delimiter)

/-- A string as it is written.  Of the forms that need no escapes the first that can hold it is
taken: between double quotes, apostrophes, three double quotes, three apostrophes; else it has
escapes between double quotes, three of them if it has line breaks. -/
def quoted (s : String) : String :=
  let cs := s.toList
  let breaks := cs.contains '\n'
  let controls := cs.any fun c => isControl c && c != '\t' && c != '\n'
  let quotes := longestRun '"' 0 cs
  let apostrophes := longestRun '\'' 0 cs
  let backslash := cs.contains '\\'
  if !controls && !breaks && !backslash && quotes = 0 then enclosed '"' (cs.flatMap (escaped false))
  else if !controls && !breaks && apostrophes = 0 then enclosed '\'' cs
  else if !controls && !backslash && quotes ≤ 2 then
    enclosedLong '"' breaks (escapedLong 0 cs)
  else if !controls && apostrophes ≤ 2 then enclosedLong '\'' breaks cs
  else if breaks then enclosedLong '"' breaks (escapedLong 0 cs)
  else enclosed '"' (cs.flatMap (escaped false))

/-- A key as it is written: bare if it can be, else quoted on one line. -/
def keyText (key : String) : String :=
  let cs := key.toList
  if !cs.isEmpty && cs.all isBareKeyChar then key
  else if (cs.contains '"' || cs.contains '\\') &&
      cs.all (fun c => (!isControl c || c == '\t') && c != '\'') then
    "'" ++ key ++ "'"
  else "\"" ++ String.ofList (cs.flatMap (escaped false)) ++ "\""

/-- A float as it is written; a whole one ends in a point and a zero. -/
def floatText (x : Binary64) : String :=
  match x.reading with
  | .nan => "nan"
  | .infinite _ => x.text
  | .finite .. => if x.whole?.isSome then x.text ++ ".0" else x.text

end Toml

namespace TomlValue

mutual

/-- A value as it is written out. -/
def text : TomlValue → String
  | .string s => Toml.quoted s
  | .integer n => intText n
  | .float x => Toml.floatText x
  | .boolean b => if b then "true" else "false"
  | .datetime s => s
  | .array items => "[" ++ ", ".intercalate (itemTexts items) ++ "]"
  | .table [] => "\x7b\x7d"
  | .table (e :: es) => "\x7b " ++ ", ".intercalate (entryTexts (e :: es)) ++ " \x7d"

/-- The items of an array as they are written out. -/
def itemTexts : List TomlValue → List String
  | [] => []
  | v :: vs => text v :: itemTexts vs

/-- The entries of a table as they are written out. -/
def entryTexts : List (String × TomlValue) → List String
  | [] => []
  | (key, v) :: es => (Toml.keyText key ++ " = " ++ text v) :: entryTexts es

end

end TomlValue

end ModuleLoader
