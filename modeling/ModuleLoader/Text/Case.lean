import ModuleLoader.Text.CaseTable

/-!
# Letter case

Lower-casing, of ASCII alone and of all scripts.  Characters without a small form stay.
-/

set_option autoImplicit false

namespace ModuleLoader.Text

/-- A capital letter of ASCII becomes the small one; any other character stays. -/
def asciiLowerChar (c : Char) : Char :=
  if 65 ≤ c.val.toNat ∧ c.val.toNat ≤ 90 then Char.ofNat (c.val.toNat + 32) else c

/-- A text with its ASCII capitals made small. -/
def asciiLower (s : String) : String := String.ofList (s.toList.map asciiLowerChar)

/-- The small letter that a run gives for a code point in it. -/
def CaseRun.small? (r : CaseRun) (n : Nat) : Option Nat :=
  if r.first ≤ n ∧ n ≤ r.last ∧ (n - r.first) % r.step = 0 then some (r.image + (n - r.first))
  else none

/-- The small form of a character; that of the dotted capital I is two characters. -/
def lowerChar (c : Char) : List Char :=
  if c.val.toNat < 128 then [asciiLowerChar c]
  else if c.val.toNat = 0x130 then ['i', '\u0307']
  else
    match caseRuns.findSome? fun r => r.small? c.val.toNat with
    | some n => [Char.ofNat n]
    | none => [c]

/-- A text in small letters. -/
def lower (s : String) : String := String.ofList (s.toList.flatMap lowerChar)

/-- A text with every occurrence of one character replaced by another. -/
def replaceChar (old new : Char) (s : String) : String :=
  String.ofList (s.toList.map fun c => if c = old then new else c)

end ModuleLoader.Text
