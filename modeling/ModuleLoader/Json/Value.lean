import ModuleLoader.Json.Token

/-!
# JSON values

The value that a list of JSON lexemes spells.  Reading keeps the containers that are still open on
a stack, so that every step consumes a lexeme.
-/

set_option autoImplicit false

namespace ModuleLoader

/-- A JSON value; members of an object stay in the order in which they are spelled. -/
inductive JsonValue where
  | null
  | boolean (value : Bool)
  /-- A number as it is spelled. -/
  | number (spelling : String)
  /-- A string; nothing when it is no text. -/
  | string (text : Option String)
  | array (items : List JsonValue)
  | object (members : List (Option String × JsonValue))

namespace JsonValue

/-- A container that is not closed yet; what it holds so far comes last first. -/
inductive Frame where
  | array (items : List JsonValue)
  /-- An object, with the key of the member that is being read. -/
  | object (members : List (Option String × JsonValue)) (key : Option String)

/-- The value of a token that is one by itself. -/
def scalar? : JsonToken → Option JsonValue
  | .null => some .null
  | .boolean b => some (.boolean b)
  | .number s => some (.number s)
  | .string s => some (.string s)
  | _ => none

mutual

/-- Go on after a value: at the end, or in the innermost open container. -/
def readAfter (value : JsonValue) (frames : List Frame) (tokens : List JsonToken) :
    Option JsonValue :=
  match frames, tokens with
  | [], [] => some value
  | .array items :: frames, .comma :: rest => readValue (.array (value :: items) :: frames) rest
  | .array items :: frames, .closeArray :: rest =>
    readAfter (.array (value :: items).reverse) frames rest
  | .object members key :: frames, .comma :: .string next :: .colon :: rest =>
    readValue (.object ((key, value) :: members) next :: frames) rest
  | .object members key :: frames, .closeObject :: rest =>
    readAfter (.object ((key, value) :: members).reverse) frames rest
  | _, _ => none
termination_by tokens.length

/-- Read a value inside arrays and objects that are still open, innermost first. -/
def readValue (frames : List Frame) (tokens : List JsonToken) : Option JsonValue :=
  match tokens with
  | .openArray :: .closeArray :: rest => readAfter (.array []) frames rest
  | .openArray :: rest => readValue (.array [] :: frames) rest
  | .openObject :: .closeObject :: rest => readAfter (.object []) frames rest
  | .openObject :: .string key :: .colon :: rest => readValue (.object [] key :: frames) rest
  | token :: rest =>
    match scalar? token with
    | some value => readAfter value frames rest
    | none => none
  | [] => none
termination_by tokens.length

end

/-- The value that a text describes. -/
def parse? (text : String) : Option JsonValue :=
  (JsonToken.all? text.toList).bind (readValue [])

/-- The natural number a numeral of digits alone denotes. -/
def naturalOf? (spelling : String) : Option Nat :=
  if spelling.toList.all Text.isAsciiDigit && !spelling.isEmpty then
    some (spelling.toList.foldl (fun n c => 10 * n + (c.val.toNat - 48)) 0)
  else none

/-- A natural number that fits a word of sixty-four bits. -/
def word? : JsonValue → Option Nat
  | .number spelling => (naturalOf? spelling).filter (· < Nat.pow 2 64)
  | _ => none

/-- The truth value of a value. -/
def boolean? : JsonValue → Option Bool
  | .boolean b => some b
  | _ => none

/-- The text of a value that is a string of whole characters. -/
def text? : JsonValue → Option String
  | .string s => s
  | _ => none

/-- The values of an array, each read in one way. -/
def listOf? {α : Type} (read : JsonValue → Option α) : JsonValue → Option (List α)
  | .array items => items.mapM read
  | _ => none

/-- The one value among the members with a key; nothing if there are several. -/
def member? (members : List (Option String × JsonValue)) (name : String) :
    Option (Option JsonValue) :=
  match members.filter fun m => m.1 = some name with
  | [] => some none
  | [m] => some (some m.2)
  | _ => none

/-- The values of named fields.  An object gives each field at most once and may give others; an
array gives the fields in order and may stop early. -/
def fields? (names : List String) : JsonValue → Option (List (Option JsonValue))
  | .object members =>
    if members.all fun m => m.1.isSome then names.mapM (member? members) else none
  | .array items =>
    if items.length ≤ names.length then
      some (items.map some ++ List.replicate (names.length - items.length) none)
    else none
  | _ => none

/-- A field that may be missing, with the value it has then. -/
def fieldOr? {α : Type} (read : JsonValue → Option α) (fallback : α) :
    Option JsonValue → Option α
  | none => some fallback
  | some v => read v

/-- A value that may be missing. -/
def nullable? {α : Type} (read : JsonValue → Option α) : JsonValue → Option (Option α)
  | .null => some none
  | v => (read v).map some

end JsonValue

end ModuleLoader
