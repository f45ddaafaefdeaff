import ModuleLoader.Number.Binary64

/-!
# The shortest decimal of a number

The reals that round to a positive number `m · 2 ^ q` form an interval around it.  The decimal
written for the number is the point nearest to it (of two, the larger) on the coarsest grid of
powers of ten that has a point in the interval.  `positional` writes such a decimal without an
exponent, and `Binary64.text` is the text of a number.
-/

set_option autoImplicit false

namespace ModuleLoader

namespace Shortest

/-- The interval that rounds to a number and the step of a decimal grid, in one common unit. -/
structure Frame where
  low : Nat
  value : Nat
  high : Nat
  step : Nat
  closed : Bool

/-- The interval of `m · 2 ^ q` and the grid `10 ^ e`, both in quarters of the last place times
whatever makes them whole; below a power of two the interval reaches down only half as far. -/
def frame (m : Nat) (q e : Int) : Frame :=
  let unit := Nat.pow 2 (q - 2).toNat * Nat.pow 10 (-e).toNat
  let below := if m = Nat.pow 2 52 && -1074 < q then 1 else 2
  { low := (4 * m - below) * unit
    value := 4 * m * unit
    high := (4 * m + 2) * unit
    step := Nat.pow 10 e.toNat * Nat.pow 2 (2 - q).toNat
    closed := m % 2 = 0 }

/-- Whether a point of the unit line lies in the interval; the ends count when it is closed. -/
def Frame.holds (f : Frame) (x : Nat) : Bool :=
  if f.closed then f.low ≤ x && x ≤ f.high else f.low < x && x < f.high

/-- The grid point nearest to the value among its two neighbours inside the interval; a tie goes
up. -/
def Frame.nearest? (f : Frame) : Option Nat :=
  let d := f.value / f.step
  let lower := f.holds (d * f.step)
  let upper := f.holds ((d + 1) * f.step)
  if lower && upper then
    some (if f.value - d * f.step < (d + 1) * f.step - f.value then d else d + 1)
  else if lower then some d
  else if upper then some (d + 1)
  else none

/-- The coarsest grid with a point in the interval, searched downwards from `10 ^ e`. -/
def search (m : Nat) (q : Int) : Nat → Int → Nat × Int
  | 0, e => ((frame m q e).value / (frame m q e).step, e)
  | fuel + 1, e =>
    match (frame m q e).nearest? with
    | some d => (d, e)
    | none => search m q fuel (e - 1)

/-- The digits and the power of ten of the shortest decimal of `m · 2 ^ q`, for positive `m`.
The search starts above the value and ends within the next twenty-five grids, because the
interval is wider than the value times two to the minus fifty-four. -/
def decimal (m : Nat) (q : Int) : Nat × Int :=
  search m q 25 ((((m.log2 : Int) + q) * 30103) / 100000 + 2)

end Shortest

/-- The decimal digits of a natural number. -/
def digits (n : Nat) : List Char := Nat.toDigits 10 n

/-- The decimal `d · 10 ^ e` written without an exponent. -/
def positional (d : Nat) (e : Int) : List Char :=
  let ds := digits d
  if 0 ≤ e then ds ++ List.replicate e.toNat '0'
  else
    let places := (-e).toNat
    if places < ds.length then
      ds.take (ds.length - places) ++ '.' :: ds.drop (ds.length - places)
    else '0' :: '.' :: (List.replicate (places - ds.length) '0' ++ ds)

/-- A minus mark, if it is needed. -/
def signChars (negative : Bool) : List Char := if negative then ['-'] else []

/-- The text of a number: the shortest decimal that reads back, never with an exponent. -/
def Binary64.text (x : Binary64) : String :=
  match x.reading with
  | .nan => "NaN"
  | .infinite negative => String.ofList (signChars negative ++ ['i', 'n', 'f'])
  | .finite negative 0 _ => String.ofList (signChars negative ++ ['0'])
  | .finite negative m q =>
    let (d, e) := Shortest.decimal m q
    String.ofList (signChars negative ++ positional d e)

end ModuleLoader
