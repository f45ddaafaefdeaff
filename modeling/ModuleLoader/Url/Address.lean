import ModuleLoader.Number.Shortest
import ModuleLoader.Text.Segments
import ModuleLoader.Url.Percent

/-!
# Network addresses

A host that ends in a number is an address of four bytes, whose parts may be decimal, octal or
hexadecimal and of which the last fills all bytes left; a host in brackets is one of eight groups.
-/

set_option autoImplicit false

namespace ModuleLoader.Url

open ModuleLoader.Text

/-- The value of digits in a base. -/
def digitsIn? (base : Nat) (cs : List Char) : Option Nat :=
  cs.foldlM (fun n c => (hexValue? c).bind fun d => if d < base then some (n * base + d) else none) 0

/-- One part of an address, in the base that its front tells. -/
def addressPart? : List Char → Option Nat
  | [] => none
  | ['0'] => some 0
  | '0' :: 'x' :: r => digitsIn? 16 r
  | '0' :: 'X' :: r => digitsIn? 16 r
  | '0' :: r => digitsIn? 8 r
  | r => digitsIn? 10 r

/-- The parts of a host between its dots, without an empty one at its end. -/
def hostParts (host : List Char) : List (List Char) :=
  let parts := splitChars '.' host
  if 1 < parts.length ∧ parts.getLast? = some [] then parts.dropLast else parts

/-- Whether the last part of a host is a number, which makes the host an address. -/
def endsInNumber (host : List Char) : Bool :=
  match (hostParts host).getLast? with
  | none | some [] => false
  | some last => last.all isAsciiDigit || (addressPart? last).isSome

/-- The number that the parts of an address denote; every part but the last is a byte. -/
def addressOf? (parts : List Nat) : Option Nat :=
  match parts.reverse with
  | [] => none
  | last :: front =>
    if 4 < parts.length ∨ Nat.pow 256 (5 - parts.length) ≤ last ∨ front.any (255 < ·) then none
    else
      let high := front.reverse.foldl (fun n b => n * 256 + b) 0
      some (high * Nat.pow 256 (5 - parts.length) + last)

/-- The address that a host is, if its parts are numbers. -/
def fourBytes? (host : List Char) : Option Nat := ((hostParts host).mapM addressPart?).bind addressOf?

/-- An address of four bytes, written with dots. -/
def fourBytesText (n : Nat) : String :=
  ".".intercalate ([n / Nat.pow 256 3, n / Nat.pow 256 2 % 256, n / 256 % 256, n % 256].map fun b =>
    String.ofList (digits b))

/-- A group of one to four hexadecimal digits. -/
def group? (cs : List Char) : Option Nat :=
  if cs.isEmpty ∨ 4 < cs.length then none else digitsIn? 16 cs

/-- One of four decimal bytes, which has no needless zero. -/
def byte? (cs : List Char) : Option Nat :=
  if cs.isEmpty ∨ 3 < cs.length ∨ (1 < cs.length ∧ cs.head? = some '0') then none
  else (digitsIn? 10 cs).filter (· < 256)

/-- The two groups that four decimal bytes fill. -/
def dotted? (cs : List Char) : Option (List Nat) := do
  match ← (splitChars '.' cs).mapM byte? with
  | [a, b, c, d] => return [a * 256 + b, c * 256 + d]
  | _ => none

/-- Groups between colons; the last piece may be four decimal bytes. -/
def groupsOf? : List (List Char) → Option (List Nat)
  | [] => some []
  | [piece] => if piece.contains '.' then dotted? piece else (group? piece).map ([·])
  | piece :: pieces => do return (← group? piece) :: (← groupsOf? pieces)

/-- What comes before and after the first two colons in a row. -/
def splitDoubleColon : List Char → Option (List Char × List Char)
  | ':' :: ':' :: r => some ([], r)
  | c :: r => (splitDoubleColon r).map fun s => (c :: s.1, s.2)
  | [] => none

/-- The groups of a part of an address, which may be empty. -/
def sideGroups? (cs : List Char) : Option (List Nat) :=
  if cs.isEmpty then some [] else groupsOf? (splitChars ':' cs)

/-- The eight groups of an address; two colons in a row stand for groups of zero. -/
def eightGroups? (cs : List Char) : Option (List Nat) :=
  match splitDoubleColon cs with
  | none => (groupsOf? (splitChars ':' cs)).filter (·.length == 8)
  | some (front, back) => do
    if front.contains '.' then none
    let f ← sideGroups? front
    let b ← sideGroups? back
    if f.length + b.length ≤ 7 then
      return f ++ List.replicate (8 - f.length - b.length) 0 ++ b
    else none

/-- How many groups at the front are zero. -/
def zeroRun (groups : List Nat) : Nat := (groups.takeWhile (· == 0)).length

/-- Where the first of the longest runs of zeros begins, and its length. -/
def longestRun (groups : List Nat) : Nat × Nat :=
  (List.range groups.length).foldl
    (fun best i => if best.2 < zeroRun (groups.drop i) then (i, zeroRun (groups.drop i)) else best)
    (0, 0)

/-- A group in hexadecimal digits. -/
def groupText (n : Nat) : String := String.ofList (Nat.toDigits 16 n)

/-- Groups with colons between them. -/
def groupsText (groups : List Nat) : String := ":".intercalate (groups.map groupText)

/-- An address of eight groups; the first of the longest runs of at least two zeros is left out. -/
def eightGroupsText (groups : List Nat) : String :=
  let run := longestRun groups
  if run.2 < 2 then groupsText groups
  else groupsText (groups.take run.1) ++ "::" ++ groupsText (groups.drop (run.1 + run.2))

end ModuleLoader.Url
