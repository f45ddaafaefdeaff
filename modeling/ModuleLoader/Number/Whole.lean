import ModuleLoader.Number.Shortest

/-!
# Whole numbers

The whole value of a number that has one, and the text of such a value as a signed word of
sixty-four bits, which stops at the two ends of the word.
-/

set_option autoImplicit false

namespace ModuleLoader

/-- A natural number with a sign. -/
def signedInt (negative : Bool) (n : Nat) : Int := if negative then -(n : Int) else n

namespace Binary64

/-- The value of a number that is finite and has no fraction. -/
def whole? (x : Binary64) : Option Int :=
  match x.reading with
  | .finite negative m q =>
    if 0 ≤ q then some (signedInt negative (m * Nat.pow 2 q.toNat))
    else if m % Nat.pow 2 (-q).toNat = 0 then
      some (signedInt negative (m / Nat.pow 2 (-q).toNat))
    else none
  | _ => none

end Binary64

/-- The nearest integer that a signed word of sixty-four bits holds. -/
def clampWord (n : Int) : Int := max (-Int.pow 2 63) (min (Int.pow 2 63 - 1) n)

/-- An integer in decimal digits. -/
def intText (n : Int) : String := String.ofList (signChars (n < 0) ++ digits n.natAbs)

end ModuleLoader
