import ModuleLoader.Number.Binary64
import ModuleLoader.Toml.Value

/-!
# Numbers, dates and times of TOML

A value that is no string, array or table is one word, and every form of word is told by its
characters: the integers in four bases, the floats, and the dates and times.
-/

set_option autoImplicit false

namespace ModuleLoader.Toml

open ModuleLoader.Text

/-! ### Numbers -/

/-- Digits with single underscores between them, without the underscores. -/
def spacedDigits? (isDigit : Char → Bool) : List Char → Option (List Char)
  | [] => none
  | [c] => if isDigit c then some [c] else none
  | c :: '_' :: r => if isDigit c then (spacedDigits? isDigit r).map (c :: ·) else none
  | c :: d :: r => if isDigit c then (spacedDigits? isDigit (d :: r)).map (c :: ·) else none

/-- The digits of a decimal number without needless zeros in front. -/
def wholeDigits? (cs : List Char) : Option (List Char) :=
  match cs with
  | '0' :: _ :: _ => none
  | _ => spacedDigits? isAsciiDigit cs

/-- The value of digits in a base. -/
def valueIn (base : Nat) (cs : List Char) : Nat :=
  cs.foldl (fun n c =>
    let d := c.val.toNat
    n * base + (if d < 58 then d - 48 else if d < 97 then d - 55 else d - 87)) 0

/-- Whether a character is a digit in a base. -/
def isDigitOf (base : Nat) (c : Char) : Bool :=
  (isAsciiDigit c || (65 ≤ c.val.toNat && c.val.toNat ≤ 70) ||
    (97 ≤ c.val.toNat && c.val.toNat ≤ 102)) && valueIn base [c] < base

/-- A number that fits a signed word of sixty-four bits. -/
def signedWord? (n : Int) : Option Int :=
  if -Int.pow 2 63 ≤ n ∧ n < Int.pow 2 63 then some n else none

/-- The sign of a number and what stands behind it. -/
def splitSign : List Char → Bool × List Char
  | '-' :: r => (true, r)
  | '+' :: r => (false, r)
  | r => (false, r)

/-- An integer; a base other than ten is named in front and takes no sign. -/
def integer? (word : List Char) : Option Int :=
  let inBase (base : Nat) (r : List Char) : Option Int :=
    (spacedDigits? (isDigitOf base) r).bind fun ds => signedWord? (valueIn base ds)
  match word with
  | '0' :: 'x' :: r => inBase 16 r
  | '0' :: 'o' :: r => inBase 8 r
  | '0' :: 'b' :: r => inBase 2 r
  | _ =>
    let (negative, r) := splitSign word
    (wholeDigits? r).bind fun ds => signedWord? (signedInt negative (valueIn 10 ds))

/-- The exponent of a number, with its sign. -/
def exponent? (cs : List Char) : Option Int :=
  let (negative, r) := splitSign cs
  (spacedDigits? isAsciiDigit r).map fun ds => signedInt negative (valueIn 10 ds)

/-- Whether a character begins an exponent. -/
def isExponentMark (c : Char) : Bool := c == 'e' || c == 'E'

/-- The largest exponent that makes a difference to a float of any length. -/
def clampExponent (length : Nat) (e : Int) : Int :=
  max (-(length + 400 : Int)) (min (length + 400 : Int) e)

/-- A number with a fraction, an exponent or both. -/
def decimalFloat? (cs : List Char) : Option Binary64 := do
  let mantissa := cs.takeWhile fun c => !isExponentMark c
  let exponent ← match cs.dropWhile fun c => !isExponentMark c with
    | [] => some 0
    | _ :: r => exponent? r
  let whole ← wholeDigits? (mantissa.takeWhile (· != '.'))
  let fraction ← match mantissa.dropWhile (· != '.') with
    | [] => if mantissa.length < cs.length then some [] else none
    | _ :: r => spacedDigits? isAsciiDigit r
  let length := whole.length + fraction.length
  return .ofDecimal (valueIn 10 (whole ++ fraction)) (clampExponent length exponent - fraction.length)

/-- A float.  A number too large for one is refused, unless it is negative. -/
def float? (word : List Char) : Option Binary64 :=
  let (negative, r) := splitSign word
  if r = ['i', 'n', 'f'] then some (if negative then Binary64.infinity.negate else .infinity)
  else if r = ['n', 'a', 'n'] then some .notANumber
  else
    match decimalFloat? r with
    | none => none
    | some x =>
      match x.reading, negative with
      | .infinite _, false => none
      | _, true => some x.negate
      | _, false => some x

/-! ### Dates and times -/

/-- The number two digits denote, if it lies between two bounds. -/
def twoDigits? (low high : Nat) (a b : Char) : Option Nat :=
  if isAsciiDigit a && isAsciiDigit b then
    (some (valueIn 10 [a, b])).filter fun n => low ≤ n && n ≤ high
  else none

/-- The days of a month. -/
def daysIn (year month : Nat) : Nat :=
  if month = 2 then
    if year % 4 = 0 ∧ (year % 100 ≠ 0 ∨ year % 400 = 0) then 29 else 28
  else if month = 4 ∨ month = 6 ∨ month = 9 ∨ month = 11 then 30
  else 31

/-- A date at the front of a word: its text, and what follows it. -/
def date? : List Char → Option (List Char × List Char)
  | a :: b :: c :: d :: '-' :: e :: f :: '-' :: g :: h :: r => do
    if [a, b, c, d].any (fun c => !isAsciiDigit c) then none
    let month ← twoDigits? 1 12 e f
    let _ ← twoDigits? 1 (daysIn (valueIn 10 [a, b, c, d]) month) g h
    return ([a, b, c, d, '-', e, f, '-', g, h], r)
  | _ => none

/-- A fraction of a second: nine digits at most, without zeros at the end. -/
def fractionText (ds : List Char) : List Char :=
  match ((ds.take 9).reverse.dropWhile (· == '0')).reverse with
  | [] => []
  | kept => '.' :: kept

/-- A time at the front of a word: its text, and what follows it. -/
def time? : List Char → Option (List Char × List Char)
  | a :: b :: ':' :: c :: d :: ':' :: e :: f :: r => do
    let _ ← twoDigits? 0 23 a b
    let _ ← twoDigits? 0 59 c d
    let _ ← twoDigits? 0 60 e f
    let text := [a, b, ':', c, d, ':', e, f]
    match r with
    | '.' :: r' =>
      if (r'.takeWhile isAsciiDigit).isEmpty then none
      else
        return (text ++ fractionText (r'.takeWhile isAsciiDigit), r'.dropWhile isAsciiDigit)
    | _ => return (text, r)
  | _ => none

/-- An offset that fills the rest of a word; the offset of zero has a plus sign. -/
def offset? : List Char → Option (List Char)
  | [] => some []
  | ['Z'] | ['z'] => some ['Z']
  | [sign, a, b, ':', c, d] => do
    if sign ≠ '+' ∧ sign ≠ '-' then none
    let _ ← twoDigits? 0 23 a b
    let _ ← twoDigits? 0 59 c d
    let sign := if [a, b, c, d].all (· == '0') then '+' else sign
    return [sign, a, b, ':', c, d]
  | _ => none

/-- A time with its offset. -/
def timeAndOffset? (word : List Char) : Option (List Char) := do
  let (time, rest) ← time? word
  return time ++ (← offset? rest)

/-- A date, a time or both, as they are written out. -/
def datetime? (word : List Char) : Option (List Char) :=
  match date? word with
  | some (date, []) => some date
  | some (date, mark :: rest) =>
    if mark = 'T' ∨ mark = 't' then (timeAndOffset? rest).map fun t => date ++ 'T' :: t else none
  | none =>
    match time? word with
    | some (time, []) => some time
    | _ => none

/-- Whether a word is a date and nothing more. -/
def isDate (word : List Char) : Bool := (date? word).any fun d => d.2.isEmpty

/-- The value that a word is. -/
def scalar? (word : List Char) : Option TomlValue :=
  if word = "true".toList then some (.boolean true)
  else if word = "false".toList then some (.boolean false)
  else
    match datetime? word with
    | some text => some (.datetime (String.ofList text))
    | none =>
      match integer? word with
      | some n => some (.integer n)
      | none => (float? word).map .float

end ModuleLoader.Toml
