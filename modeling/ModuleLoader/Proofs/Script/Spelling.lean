import ModuleLoader.Proofs.Script.Remainder

/-!
# How a root declaration may be written

Between the word, the parentheses and the path of a root declaration there may be blanks and
comments, and characters of the path may be escaped.  Main statement: `exists_spelling`, a statement
of a program that declares a root is one of these ways of writing it, standing in the source.
-/

set_option autoImplicit false

namespace ModuleLoader.Script

open ModuleLoader.Text

/-! ## Gaps -/

/-- What is passed over between tokens begins with a blank or a comment. -/
theorem Skips.head {c : Char} {gap : List Char} (h : Skips (c :: gap)) :
    isSpace c = true ∨ c = '/' := by
  by_contra hnot
  rw [not_or, Bool.not_eq_true] at hnot
  have hnothing := h []
  rw [List.cons_append, trivia_code hnot.1 hnot.2] at hnothing
  cases congrArg Cut.taken hnothing

/-- What is passed over is so without the blank at its front. -/
theorem Skips.of_cons {c : Char} {gap : List Char} (h : Skips (c :: gap))
    (hc : isSpace c = true) : Skips gap := by
  intro cs
  have hwhole : (trivia .code (gap ++ cs)).extend [c] = (trivia .code cs).extend (c :: gap) :=
    (skips_space hc (gap ++ cs)).symm.trans (h cs)
  simp only [Cut.extend, List.cons_append, List.nil_append, Cut.mk.injEq, List.cons.injEq,
    true_and] at hwhole
  obtain ⟨htaken, hrest⟩ := hwhole
  show Cut.mk () (trivia .code (gap ++ cs)).taken (trivia .code (gap ++ cs)).rest = _
  rw [htaken, hrest]
  rfl

/-- No identifier holds a blank. -/
theorem not_isIdContinue_of_isSpace {c : Char} (h : isSpace c = true) : isIdContinue c = false := by
  simp only [isSpace, Bool.or_eq_true, decide_eq_true_eq] at h
  rcases h with ((rfl | rfl) | rfl) | rfl <;> decide

/-! ## Literals -/

/-- What may stand between two quotes, and the text it is read as. -/
inductive Literal (quote : Char) : List Char → List Char → Prop where
  | nil : Literal quote [] []
  | plain {c : Char} {raw text : List Char} (hbreak : c ≠ '\n') (hquote : c ≠ quote)
      (hescape : c ≠ '\\') (next : Literal quote raw text) : Literal quote (c :: raw) (c :: text)
  | escaped (c : Char) {raw text : List Char} (next : Literal quote raw text) :
      Literal quote ('\\' :: c :: raw) (unescape c :: text)

/-- A string that ends was written as a literal of its text. -/
theorem literal_of_stringBody {quote : Char} {cs text : List Char}
    (h : (stringBody quote cs).value = some text) :
    ∃ raw, (stringBody quote cs).taken = raw ++ [quote] ∧ Literal quote raw text := by
  fun_induction stringBody quote cs generalizing text with
  | case1 => cases h
  | case2 => cases h
  | case3 =>
    cases h
    exact ⟨[], rfl, .nil⟩
  | case4 => cases h
  | case5 => cases h
  | case6 =>
    cases h
    exact ⟨[], rfl, .nil⟩
  | case7 d r hc hend ih =>
    obtain ⟨text, hvalue, rfl⟩ := Option.map_eq_some_iff.1 h
    obtain ⟨raw, htaken, hliteral⟩ := ih hvalue
    refine ⟨'\\' :: d :: raw, ?_, .escaped d hliteral⟩
    simp [Cut.extend, Cut.map, htaken]
  | case8 c d r hc hend hescape ih =>
    obtain ⟨text, hvalue, rfl⟩ := Option.map_eq_some_iff.1 h
    obtain ⟨raw, htaken, hliteral⟩ := ih hvalue
    refine ⟨c :: raw, ?_, .plain hc hend hescape hliteral⟩
    simp [Cut.extend, Cut.map, htaken]

/-- A literal is read as its text, up to its quote. -/
theorem stringBody_of_literal {quote : Char} {raw text : List Char} (h : Literal quote raw text)
    (hbreak : quote ≠ '\n') (hescape : quote ≠ '\\') (cs : List Char) :
    stringBody quote (raw ++ quote :: cs) = ⟨some text, raw ++ [quote], cs⟩ := by
  induction h with
  | nil => cases cs <;> simp [stringBody, hbreak]
  | @plain c raw text hc hquote hplain _ ih =>
    obtain ⟨d, r, hmore⟩ : ∃ d r, raw ++ quote :: cs = d :: r :=
      List.exists_cons_of_ne_nil (List.append_ne_nil_of_right_ne_nil _ (List.cons_ne_nil _ _))
    rw [List.cons_append, hmore, stringBody, if_neg hc, if_neg hquote, if_neg hplain, ← hmore, ih]
    rfl
  | escaped c _ ih =>
    rw [List.cons_append, List.cons_append, stringBody, if_neg (by decide), if_neg (Ne.symm hescape),
      if_pos rfl, ih]
    rfl

/-- A character that an escape leaves as it is and that begins none is read as itself. -/
theorem Literal.mem {quote c : Char} {raw text : List Char} (h : Literal quote raw text)
    (hc : c ∈ raw) (hescape : c ≠ '\\') (hkept : unescape c = c) : c ∈ text := by
  induction h with
  | nil => cases hc
  | plain _ _ _ _ ih =>
    rcases List.mem_cons.1 hc with rfl | hc
    · exact List.mem_cons_self
    · exact List.mem_cons_of_mem _ (ih hc)
  | escaped d _ ih =>
    rcases List.mem_cons.1 hc with he | hc
    · exact absurd he hescape
    · rcases List.mem_cons.1 hc with rfl | hc
      · rw [hkept]
        exact List.mem_cons_self
      · exact List.mem_cons_of_mem _ (ih hc)

/-- Up to a point that is no escape, characters without a backslash are read as themselves. -/
theorem Literal.takeWhile_eq {quote : Char} {raw text : List Char} (h : Literal quote raw text)
    {p : Char → Bool} (hplain : '\\' ∉ raw.takeWhile p) (hp : p '\\' = true) :
    text.takeWhile p = raw.takeWhile p := by
  induction h with
  | nil => rfl
  | @plain c raw text _ _ _ _ ih =>
    cases hc : p c with
    | false => simp [hc]
    | true =>
      rw [List.takeWhile_cons_of_pos hc, List.mem_cons, not_or] at hplain
      rw [List.takeWhile_cons_of_pos hc, List.takeWhile_cons_of_pos hc, ih hplain.2]
  | escaped d _ _ =>
    rw [List.takeWhile_cons_of_pos hp] at hplain
    exact absurd List.mem_cons_self hplain

/-! ## Tokens -/

/-- The characters that tokens of the kinds of a root declaration are made of. -/
def Spells : TokenKind → List Char → Prop
  | .declareRoot, taken => taken = "declare-root".toList
  | .mark m, taken => taken = [m.char]
  | .string text, taken => ∃ quote raw, (quote = '"' ∨ quote = '\'') ∧
      taken = quote :: (raw ++ [quote]) ∧ Literal quote raw text.toList
  | _, _ => True

/-- A word is spelled by the characters taken for it. -/
theorem spells_word (first : Char) (cs : List Char) :
    Spells (word first cs).value (word first cs).taken := by
  unfold word
  simp only
  split
  · rename_i h
    simp only [Bool.and_eq_true, decide_eq_true_eq] at h
    have hname := congrArg String.toList h.1
    rw [String.toList_ofList] at hname
    show first :: _ ++ rootSuffix = _
    rw [hname]
    rfl
  · split
    · trivial
    · trivial

/-- A token is spelled by the characters taken for it. -/
theorem spells_lexeme (cs : List Char) : Spells (lexeme cs).value (lexeme cs).taken := by
  cases cs with
  | nil => trivial
  | cons c r =>
    simp only [lexeme, lexemeAt]
    split
    · rename_i m hm
      have hchar : m.char = c := by simpa using List.find?_some hm
      show [c] = [m.char]
      rw [hchar]
    · split
      · rename_i hquote
        show Spells (stringToken (stringBody c r).value) (c :: (stringBody c r).taken)
        cases hvalue : (stringBody c r).value with
        | none => trivial
        | some text =>
          obtain ⟨raw, htaken, hliteral⟩ := literal_of_stringBody hvalue
          rw [← @String.toList_ofList text] at hliteral
          rw [htaken]
          exact ⟨c, raw, by simpa using hquote, rfl, hliteral⟩
      · split
        · trivial
        · split
          · exact spells_word c r
          · trivial

/-- The word is read as one token where it ends. -/
theorem lexeme_declareRoot {cs : List Char} (h : cs.head?.any isIdContinue = false) :
    lexeme ("declare-root".toList ++ cs) = ⟨.declareRoot, "declare-root".toList, cs⟩ := by
  have hall : ∀ c ∈ ['e', 'c', 'l', 'a', 'r', 'e'], isIdContinue c = true :=
    List.all_eq_true.1 (by decide)
  have hword : "declare-root".toList = 'd' :: (['e', 'c', 'l', 'a', 'r', 'e'] ++ rootSuffix) := rfl
  have hname : String.ofList ['d', 'e', 'c', 'l', 'a', 'r', 'e'] = "declare" := rfl
  have hstart : isIdStart 'd' = true := by decide
  have hroot : continuesDeclareRoot (rootSuffix ++ cs) = true := by
    have hfront : rootSuffix.isPrefixOf (rootSuffix ++ cs) = true :=
      List.isPrefixOf_iff_prefix.2 (List.prefix_append _ _)
    rw [continuesDeclareRoot, hfront, List.drop_left, h]
    rfl
  obtain ⟨rest, hrest⟩ : ∃ rest, rootSuffix ++ cs = '-' :: rest := ⟨_, rfl⟩
  have hhyphen : isIdContinue '-' = false := by decide
  obtain ⟨htake, hdrop⟩ := takeWhile_stop hall hhyphen rest
  rw [← hrest] at htake hdrop
  rw [hword, List.cons_append, List.append_assoc, lexeme, lexemeAt_of_isIdStart hstart, word]
  simp only [htake, hdrop, hname, hroot, List.drop_left]
  rfl

/-! ## Root declarations -/

/-- A way to write the declaration of a path. -/
structure Spelling (path : String) where
  /-- What stands between the word and the opening parenthesis. -/
  gap : List Char
  /-- What stands between the opening parenthesis and the literal. -/
  inner : List Char
  quote : Char
  /-- The path as it is written between the quotes. -/
  raw : List Char
  /-- What stands between the literal and the closing parenthesis. -/
  outer : List Char
  skips_gap : Skips gap
  skips_inner : Skips inner
  skips_outer : Skips outer
  quote_eq : quote = '"' ∨ quote = '\''
  literal : Literal quote raw path.toList

/-- A root declaration as it is written. -/
def Spelling.text {path : String} (d : Spelling path) : List Char :=
  "declare-root".toList ++ (d.gap ++ '(' :: (d.inner ++ d.quote :: (d.raw ++ d.quote ::
    (d.outer ++ [')']))))

/-- A root declaration, part by part, with a text behind it. -/
theorem Spelling.text_append {path : String} (d : Spelling path) (cs : List Char) :
    d.text ++ cs = "declare-root".toList ++ (d.gap ++ '(' :: (d.inner ++ d.quote ::
      (d.raw ++ d.quote :: (d.outer ++ ')' :: cs)))) := by
  unfold Spelling.text
  -- The word stays whole, not taken apart into its characters.
  generalize "declare-root".toList = chars
  simp

/-- A statement of a program that declares a root is some spelling of its path, and stands where
that begins. -/
theorem exists_spelling {source : String} {program : Program} {s : Statement} {path : String}
    (h : parseProgram source = .ok program) (hs : s ∈ program)
    (haction : s.action = .declareRoot path) :
    isDeclarable path = true ∧ ∃ (before after : List Char) (d : Spelling path),
      source.toList = before ++ (d.text ++ after) ∧ s.span.place = Place.start.after before := by
  obtain ⟨ts, finish, htokens, hfinish, -⟩ := tokensFrom_concat ⟨source.toList, Place.start⟩
  rw [parseProgram_eq, programFrom_of_tokens htokens] at h
  obtain ⟨us, left, hus, hstatement⟩ := statement_of_mem hfinish h hs
  obtain ⟨d, l, p, r, us, rfl, hd, hl, hp, hr, hdeclarable, hspan⟩ :=
    eq_of_statement_declareRoot hfinish hstatement haction
  obtain ⟨before, rest, hsource, htokens⟩ := tokensFrom_of_suffix htokens hus
  -- The four tokens with what stands before each of them.
  obtain ⟨lead, word, c₁, -, hword, h₁, hplace, -, htokens⟩ := tokensFrom_cut htokens nofun
  obtain ⟨gap, left, c₂, hgap, hleft, h₂, -, -, htokens⟩ := tokensFrom_cut htokens nofun
  obtain ⟨inner, path', c₃, hinner, hpath, h₃, -, -, htokens⟩ := tokensFrom_cut htokens nofun
  obtain ⟨outer, right, c₄, houter, hright, h₄, -⟩ := tokensFrom_cut htokens (by simp)
  have hwordText := spells_lexeme word
  have hleftText := spells_lexeme left
  have hpathText := spells_lexeme path'
  have hrightText := spells_lexeme right
  rw [hword, hd] at hwordText
  rw [hleft, hl] at hleftText
  rw [hpath, hp] at hpathText
  rw [hright, hr] at hrightText
  obtain ⟨quote, raw, hquote, hliteralText, hliteral⟩ := hpathText
  refine ⟨hdeclarable, before ++ lead, c₄.rest,
    ⟨gap, inner, quote, raw, outer, hgap, hinner, houter, hquote, hliteral⟩, ?_, ?_⟩
  · change (lexeme word).taken = "declare-root".toList at hwordText
    change (lexeme left).taken = [Mark.leftParen.char] at hleftText
    change (lexeme right).taken = [Mark.rightParen.char] at hrightText
    simp only at hsource h₁
    rw [hsource, h₁, h₂, h₃, h₄, hwordText, hleftText, hliteralText, hrightText,
      Spelling.text_append]
    generalize "declare-root".toList = chars
    simp [Mark.char]
  · rw [hspan, hplace, Place.after_append]

end ModuleLoader.Script
