/-!
# Punycode

The ASCII form of a label of a domain: first its ASCII characters, then for all others, in
ascending order, how far to go on, as numerals of variable length whose thresholds adapt.
-/

set_option autoImplicit false

namespace ModuleLoader.Url.Punycode

/-- The letter or decimal digit for a digit below thirty-six. -/
def digitChar (n : Nat) : Char := Char.ofNat (if n < 26 then 97 + n else 22 + n)

/-- The least value of a digit at a position that is not its last. -/
def threshold (k bias : Nat) : Nat :=
  if k ≤ bias then 1 else if bias + 26 ≤ k then 26 else k - bias

/-- The threshold is positive, so what a digit leaves of a distance is smaller. -/
theorem threshold_pos (k bias : Nat) : 0 < threshold k bias := by
  unfold threshold
  split
  · omega
  · split <;> omega

/-- The numeral of a distance, from a digit position on. -/
def numeral (q k bias : Nat) : List Char :=
  let t := threshold k bias
  if _h : q < t then [digitChar q]
  else digitChar (t + (q - t) % (36 - t)) :: numeral ((q - t) / (36 - t)) (k + 36) bias
termination_by q
decreasing_by
  have hpos := threshold_pos k bias
  have hle := Nat.div_le_self (q - threshold k bias) (36 - threshold k bias)
  show (q - threshold k bias) / (36 - threshold k bias) < q
  have : ¬ q < threshold k bias := _h
  omega

/-- The bias for a delta that has been scaled. -/
def biasOf (delta k : Nat) : Nat :=
  if 455 < delta then biasOf (delta / 35) (k + 36) else k + 36 * delta / (delta + 38)
termination_by delta
decreasing_by exact Nat.div_lt_self (by omega) (by omega)

/-- The bias that follows a delta. -/
def adapt (delta count : Nat) (first : Bool) : Nat :=
  let scaled := if first then delta / 700 else delta / 2
  biasOf (scaled + scaled / count) 0

/-- The encoder between two characters. -/
structure State where
  /-- The least code point not encoded yet. -/
  next : Nat
  /-- How far the decoder has to go on. -/
  delta : Nat
  bias : Nat
  /-- How many characters are encoded. -/
  handled : Nat
  output : List Char

/-- Pass one character of the label while a code point is encoded. -/
def pass (basics m : Nat) (s : State) (c : Char) : State :=
  if c.val.toNat < m then { s with delta := s.delta + 1 }
  else if c.val.toNat = m then
    { s with
      delta := 0
      bias := adapt s.delta (s.handled + 1) (s.handled = basics)
      handled := s.handled + 1
      output := s.output ++ numeral s.delta 36 s.bias }
  else s

/-- Encode all places of one code point, and go on to the next. -/
def encodePoint (label : List Char) (basics : Nat) (s : State) (m : Nat) : State :=
  let start := { s with delta := s.delta + (m - s.next) * (s.handled + 1) }
  let done := label.foldl (pass basics m) start
  { done with delta := done.delta + 1, next := m + 1 }

/-- A list of code points in order with one more, once. -/
def insertPoint (n : Nat) : List Nat → List Nat
  | [] => [n]
  | m :: ms => if n < m then n :: m :: ms else if n = m then m :: ms else m :: insertPoint n ms

/-- The code points outside ASCII in a label, ascending and each once. -/
def points (label : List Char) : List Nat :=
  ((label.map (·.val.toNat)).filter (128 ≤ ·)).foldr insertPoint []

/-- The ASCII form of a label without its mark. -/
def encode (label : List Char) : List Char :=
  let basic := label.filter (·.val.toNat < 128)
  let front := if basic.isEmpty then [] else basic ++ ['-']
  ((points label).foldl (encodePoint label basic.length) ⟨128, 0, 72, basic.length, front⟩).output

end ModuleLoader.Url.Punycode
