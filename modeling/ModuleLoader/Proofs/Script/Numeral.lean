import Mathlib.Data.List.TakeWhile
import ModuleLoader.Proofs.Number.Whole
import ModuleLoader.Proofs.Script.Scanning
import ModuleLoader.Script.Value

/-!
# Numerals of whole numbers

A whole number below the limit of positional notation is written by way of a signed word, which stops
at its two ends, and is read back through a minus mark, digits and the nearest number.  Main statement:
`Value.text_whole`, which of these numbers are written exactly, told apart by their texts, and read
back.
-/

set_option autoImplicit false

namespace ModuleLoader

open ModuleLoader.Text

/-! ## Digits -/

/-- The text of a whole number is its decimal numeral. -/
theorem intText_eq_repr (n : Int) : intText n = n.repr := by
  cases n with
  | ofNat n =>
    show String.ofList ([] ++ Nat.toDigits 10 n) = n.repr
    rw [List.nil_append, Nat.repr_eq_ofList_toDigits]
  | negSucc n =>
    rw [intText, decide_eq_true (Int.negSucc_lt_zero n)]
    show String.ofList (['-'] ++ Nat.toDigits 10 (n + 1)) = "-" ++ (n + 1).repr
    rw [String.ofList_append, Nat.repr_eq_ofList_toDigits]

/-- The digits of a number are digits of ASCII. -/
theorem isAsciiDigit_of_mem_digits {n : Nat} {c : Char} (h : c ∈ digits n) :
    isAsciiDigit c = true := by
  have hdigit := Nat.isDigit_of_mem_toDigits (by decide) (by decide) h
  simpa [isAsciiDigit, Char.isDigit, UInt32.le_iff_toNat_le] using hdigit

namespace Script

/-- The digits of a number have its value. -/
theorem digitsValue_digits (n : Nat) : digitsValue (digits n) = n :=
  Nat.ofDigitChars_toDigits (by decide) (by decide)

/-- Digits alone denote a whole number. -/
theorem numeralValue_digits (n : Nat) : numeralValue (digits n) = Binary64.ofDecimal n 0 := by
  have hplain : (digits n).filter (· != '_') = digits n := by
    apply List.filter_eq_self.2
    intro c hc
    simpa using ne_of_class (isAsciiDigit_of_mem_digits hc) (d := '_') (by decide)
  have hpoint : ∀ c ∈ digits n, (c != '.') = true := by
    intro c hc
    simpa using ne_of_class (isAsciiDigit_of_mem_digits hc) (d := '.') (by decide)
  unfold numeralValue
  simp only [hplain, List.takeWhile_eq_self_iff.2 hpoint, List.dropWhile_eq_nil_iff.2 hpoint,
    List.drop_nil, List.append_nil, digitsValue_digits]
  rfl

/-- Digits are read to their end. -/
theorem numberBody_digits {cs : List Char} (h : ∀ c ∈ cs, isAsciiDigit c = true) :
    numberBody false cs = ⟨(), cs, []⟩ := by
  induction cs with
  | nil => rfl
  | cons c cs ih =>
    obtain ⟨hc, hcs⟩ := List.forall_mem_cons.1 h
    simp only [numberBody, hc, Bool.true_or, if_true, ih hcs, Cut.extend]
    rfl

/-- The digits of a number are read as the number nearest to it. -/
theorem lexes_digits (n : Nat) :
    Lexes (digits n) [.number (Binary64.ofDecimal n 0)] [] := by
  obtain ⟨c, r, hdigits⟩ : ∃ c r, digits n = c :: r :=
    List.exists_cons_of_ne_nil Nat.toDigits_ne_nil
  have hall : ∀ d ∈ c :: r, isAsciiDigit d = true := by
    rw [← hdigits]
    exact fun d => isAsciiDigit_of_mem_digits
  obtain ⟨hc, hr⟩ := List.forall_mem_cons.1 hall
  obtain ⟨hspace, hslash⟩ := isSpace_of_isAsciiDigit hc
  have hpiece : lexeme (digits n ++ []) = ⟨.number (Binary64.ofDecimal n 0), digits n, []⟩ := by
    rw [List.append_nil, ← numeralValue_digits n, hdigits, lexeme, lexemeAt_of_isAsciiDigit hc,
      numberBody_digits hr]
  have htrivia : trivia .code (digits n ++ []) = ⟨(), [], digits n ++ []⟩ := by
    rw [List.append_nil, hdigits]
    exact trivia_code hspace hslash r
  have hlexes := Lexes.cons skips_nil htrivia hpiece (by simp) (.done [])
  rwa [List.nil_append, List.append_nil] at hlexes

/-! ## Reading an expression -/

/-- An expression is read from the tokens of its whole source. -/
theorem parseExpression_of_lexes {source : String} {kinds : List TokenKind}
    (h : Lexes source.toList kinds []) : ∃ finish ts, ts.map Token.kind = kinds ∧
      parseExpression source = (expression finish ts).map (·.1) := by
  obtain ⟨consumed, ts, -, hkinds, htokens⟩ := h.tokensFrom Place.start
  obtain ⟨finish, hfinish⟩ : ∃ finish, tokensFrom ⟨[], Place.start.after consumed⟩ = [finish] :=
    ⟨_, (tokensFrom_cons _).trans (by rw [if_pos (by rfl)])⟩
  refine ⟨finish, ts, hkinds, ?_⟩
  have hall : tokens source = ts ++ [finish] := by rw [← hfinish, ← htokens]; rfl
  unfold parseExpression splitFinish
  simp only [hall, List.getLast?_concat, List.dropLast_concat, Option.getD_some]

/-- The text of a whole number is read as the number nearest to it. -/
theorem parseExpression_intText (n : Int) :
    parseExpression (intText n) = .ok (.number (Binary64.ofWhole n)) := by
  by_cases hn : n < 0
  · have hlexes : Lexes (intText n).toList
        [.mark .minus, .number (Binary64.ofDecimal n.natAbs 0)] [] := by
      rw [intText, String.toList_ofList, decide_eq_true hn]
      exact .mark skips_nil .minus (lexes_digits n.natAbs)
    obtain ⟨finish, ts, hkinds, hparse⟩ := parseExpression_of_lexes hlexes
    obtain ⟨t, u, rfl, ht, hu⟩ : ∃ t u, ts = [t, u] ∧ t.kind = .mark .minus ∧
        u.kind = .number (Binary64.ofDecimal n.natAbs 0) := by
      obtain ⟨t, more, rfl, ht, hmore⟩ := List.map_eq_cons_iff.1 hkinds
      obtain ⟨u, rfl, hu⟩ := List.map_eq_singleton_iff.1 hmore
      exact ⟨t, u, rfl, ht, hu⟩
    rw [hparse, Binary64.ofWhole, if_pos hn]
    simp only [expression, ht, current, List.headD_cons, hu]
    rfl
  · have hlexes : Lexes (intText n).toList [.number (Binary64.ofDecimal n.natAbs 0)] [] := by
      rw [intText, String.toList_ofList, decide_eq_false hn]
      exact lexes_digits n.natAbs
    obtain ⟨finish, ts, hkinds, hparse⟩ := parseExpression_of_lexes hlexes
    obtain ⟨t, rfl, ht⟩ := List.map_eq_singleton_iff.1 hkinds
    rw [hparse, Binary64.ofWhole, if_neg hn]
    simp only [expression, ht]
    rfl

/-! ## Texts of numbers -/

/-- The text of a whole number below the limit is that of its value brought into a signed word. -/
theorem Value.text_of_whole {x : Binary64} {n : Int} (hx : x.whole? = some n)
    (hn : n.natAbs < 10 ^ 21) : (Value.number x).text = intText (clampWord n) := by
  show Value.numberText x = _
  unfold Value.numberText
  rw [hx]
  exact if_pos hn

/-- A minus is written for negative numbers only. -/
theorem mem_toList_intText (n : Int) : '-' ∈ (intText n).toList ↔ n < 0 := by
  have hdigits : '-' ∉ digits n.natAbs := fun h => by cases isAsciiDigit_of_mem_digits h
  rw [intText, String.toList_ofList, List.mem_append, or_iff_left hdigits]
  by_cases hn : n < 0 <;> simp [signChars, hn]

/-- Whole numbers are told apart by their numerals. -/
theorem intText_inj {n k : Int} : intText n = intText k ↔ n = k := by
  refine ⟨fun h => ?_, congrArg intText⟩
  have hsign : n < 0 ↔ k < 0 := by rw [← mem_toList_intText n, h, mem_toList_intText]
  have hchars := congrArg String.toList h
  rw [intText, intText, String.toList_ofList, String.toList_ofList, decide_eq_decide.2 hsign,
    List.append_cancel_left_eq] at hchars
  have hmagnitude := congrArg digitsValue hchars
  rw [digitsValue_digits, digitsValue_digits] at hmagnitude
  omega

/-- The greatest value of a signed word is not that of a number: the nearest number is one more. -/
theorem ne_greatestWord {x : Binary64} {n : Int} (hx : x.whole? = some n) : n ≠ 2 ^ 63 - 1 := by
  rintro rfl
  have hnearest : (Binary64.ofWhole (2 ^ 63 - 1)).whole? = some (2 ^ 63) := by decide +kernel
  cases (Binary64.whole?_ofWhole hx).symm.trans hnearest

/-- What is read for a whole number brought into a signed word is brought between the two numbers next
to the ends of the word. -/
theorem whole?_ofWhole_clampWord {x : Binary64} {n : Int} (hx : x.whole? = some n) :
    (Binary64.ofWhole (clampWord n)).whole? = some (max (-2 ^ 63) (min (2 ^ 63) n)) := by
  have hclamp : clampWord n = max (-2 ^ 63) (min (2 ^ 63 - 1) n) := rfl
  by_cases hlow : n < -2 ^ 63
  · rw [hclamp, max_eq_left (by omega), max_eq_left (by omega)]
    decide +kernel
  · by_cases hhigh : 2 ^ 63 ≤ n
    · rw [hclamp, min_eq_left (by omega), min_eq_left hhigh]
      decide +kernel
    · have hkept : clampWord n = n := by omega
      rw [hkept, Binary64.whole?_ofWhole hx]
      congr 1
      omega

/-- A whole number below the limit has the text of its value just when a signed word holds the value;
two of them have one text just when their values are the same or lie beyond the same end of the word;
and the text is read as a number, whose value is that of the number between minus and plus `2 ^ 63` and
the nearer of these two elsewhere, so that it equals the number just when the value is one of those. -/
theorem Value.text_whole {x : Binary64} {n : Int} (hx : x.whole? = some n)
    (hn : n.natAbs < 10 ^ 21) :
    ((Value.number x).text = n.repr ↔ -2 ^ 63 ≤ n ∧ n < 2 ^ 63) ∧
      (∀ (y : Binary64) (k : Int), y.whole? = some k → k.natAbs < 10 ^ 21 →
        ((Value.number x).text = (Value.number y).text ↔
          n = k ∨ 2 ^ 63 ≤ n ∧ 2 ^ 63 ≤ k ∨ n ≤ -2 ^ 63 ∧ k ≤ -2 ^ 63)) ∧
      ∃ y, parseExpression (Value.number x).text = .ok (.number y) ∧
        y.whole? = some (max (-2 ^ 63) (min (2 ^ 63) n)) ∧
        (y.equals x = true ↔ -2 ^ 63 ≤ n ∧ n ≤ 2 ^ 63) := by
  have hclamp : ∀ k, clampWord k = max (-2 ^ 63) (min (2 ^ 63 - 1) k) := fun _ => rfl
  have hread := whole?_ofWhole_clampWord hx
  rw [Value.text_of_whole hx hn]
  refine ⟨?exact, fun y k hy hk => ?distinct, ?readBack⟩
  case exact =>
    rw [← intText_eq_repr, intText_inj, hclamp]
    omega
  case distinct =>
    have hnot := ne_greatestWord hx
    have hnot' := ne_greatestWord hy
    rw [Value.text_of_whole hy hk, intText_inj, hclamp, hclamp]
    omega
  case readBack =>
    refine ⟨_, parseExpression_intText _, hread, ?_⟩
    rw [Binary64.equals_iff_of_whole hread hx]
    omega

/-- The numbers `10 ^ 20` and `2 · 10 ^ 20` are both written as the greatest signed word, and the first
is not read back. -/
theorem Value.text_whole_beyond :
    let x : Binary64 := ⟨0x4415AF1D78B58C40⟩
    let y : Binary64 := ⟨0x4425AF1D78B58C40⟩
    x.whole? = some (10 ^ 20) ∧ y.whole? = some (2 * 10 ^ 20) ∧
      ((10 : Int) ^ 20).natAbs < 10 ^ 21 ∧ (2 * (10 : Int) ^ 20).natAbs < 10 ^ 21 ∧
      (Value.number x).text ≠ (10 ^ 20 : Int).repr ∧ (Value.number x).text = (Value.number y).text ∧
      ∃ z, parseExpression (Value.number x).text = .ok (.number z) ∧ z.whole? = some (2 ^ 63) ∧
        z.equals x ≠ true := by
  intro x y
  have hx : x.whole? = some (10 ^ 20) := by decide +kernel +revert
  have hy : y.whole? = some (2 * 10 ^ 20) := by decide +kernel +revert
  have hbelow : ((10 : Int) ^ 20).natAbs < 10 ^ 21 := by decide
  have hbelow' : (2 * (10 : Int) ^ 20).natAbs < 10 ^ 21 := by decide
  obtain ⟨hexact, hdistinct, z, hparse, hvalue, hequals⟩ := Value.text_whole hx hbelow
  refine ⟨hx, hy, hbelow, hbelow', ?_, ?_, z, hparse, hvalue, ?_⟩
  · rw [ne_eq, hexact]
    omega
  · rw [hdistinct y _ hy hbelow']
    omega
  · rw [ne_eq, hequals]
    omega

end Script

end ModuleLoader
