import Mathlib.Data.List.TakeWhile
import ModuleLoader.Proofs.Script.Spelling

/-!
# Writing tokens again

What a source says is the kinds of its tokens and the line breaks between them.  The characters of a
token are read as that token again wherever a blank follows them, so what a source says can be written
anew, one token after the other, and other tokens can be put in their places.  Main statement:
`exists_source`, whatever can be written token by token is what some source says.
-/

set_option autoImplicit false

namespace ModuleLoader.Script

open ModuleLoader.Text

/-- What a token says to a reader: its kind, and whether it is on a new line. -/
def Token.said (t : Token) : TokenKind × Bool := (t.kind, t.newlineBefore)

/-- A kind of token for which there are characters that are read as it wherever a blank follows. -/
def Writable (kind : TokenKind) : Prop :=
  kind ≠ .finish ∧ ∃ piece, ∀ stop v, isSpace stop = true →
    trivia .code (piece ++ stop :: v) = ⟨(), [], piece ++ stop :: v⟩ ∧
      lexeme (piece ++ stop :: v) = ⟨kind, piece, stop :: v⟩

/-! ## Kinds that can be written -/

/-- A token can be written if some characters are read as it before any blank. -/
theorem writable_of_lexeme {kind : TokenKind} (hkind : kind ≠ .finish) {c : Char}
    (hspace : isSpace c = false) (hslash : c ≠ '/') (tail : List Char)
    (h : ∀ stop v, isSpace stop = true →
      lexeme (c :: tail ++ stop :: v) = ⟨kind, c :: tail, stop :: v⟩) : Writable kind :=
  ⟨hkind, c :: tail, fun stop v hstop => ⟨trivia_code hspace hslash _, h stop v hstop⟩⟩

/-- Every mark can be written. -/
theorem writable_mark (m : Mark) : Writable (.mark m) := by
  have hmark : Mark.ofChar? m.char = some m := by cases m <;> rfl
  have hspace : isSpace m.char = false := by cases m <;> decide
  have hslash : m.char ≠ '/' := by cases m <;> decide
  refine writable_of_lexeme nofun hspace hslash [] fun stop v _ => ?_
  show lexemeAt m.char (stop :: v) = _
  simp only [lexemeAt, hmark]

/-- A string can be written that has a literal. -/
theorem writable_string {quote : Char} (hquote : quote = '"' ∨ quote = '\'') {raw text : List Char}
    (h : Literal quote raw text) : Writable (.string (String.ofList text)) := by
  have hspace : isSpace quote = false := by rcases hquote with rfl | rfl <;> decide
  have hslash : quote ≠ '/' := by rcases hquote with rfl | rfl <;> decide
  have hmark : Mark.ofChar? quote = none := by rcases hquote with rfl | rfl <;> rfl
  have hbreak : quote ≠ '\n' := by rcases hquote with rfl | rfl <;> decide
  have hescape : quote ≠ '\\' := by rcases hquote with rfl | rfl <;> decide
  refine writable_of_lexeme nofun hspace hslash (raw ++ [quote]) fun stop v _ => ?_
  have hbody := stringBody_of_literal h hbreak hescape (stop :: v)
  have hopen : (quote = '"' || quote = '\'') = true := by simpa using hquote
  show lexemeAt quote ((raw ++ [quote]) ++ stop :: v) = _
  rw [List.append_assoc, List.singleton_append]
  simp only [lexemeAt, hmark, hopen, if_true, hbody]
  rfl

/-- A number is read up to the same place where a character follows that no number holds. -/
theorem numberBody_taken (seen : Bool) (cs : List Char) {stop : Char}
    (hdigit : isAsciiDigit stop = false) (hline : stop ≠ '_') (hpoint : stop ≠ '.') (v : List Char) :
    numberBody seen ((numberBody seen cs).taken ++ stop :: v) =
      ⟨(), (numberBody seen cs).taken, stop :: v⟩ := by
  have hstop : ∀ seen, numberBody seen (stop :: v) = ⟨(), [], stop :: v⟩ := by
    intro seen
    simp [numberBody, hdigit, hline, hpoint]
  fun_induction numberBody seen cs with
  | case1 seen => exact hstop seen
  | case2 seen c r hc ih =>
    simp only [Cut.extend, List.cons_append, List.nil_append, numberBody, hc, if_true, ih]
  | case3 seen c r hc hmore ih =>
    have hmore' : (c = '.' && !seen &&
        ((numberBody true r).taken ++ stop :: v).head?.any isAsciiDigit) = true := by
      cases r with
      | nil => simp at hmore
      | cons d r =>
        simp only [List.head?_cons, Option.any_some, Bool.and_eq_true] at hmore
        simp [numberBody, hmore.2, Cut.extend, hmore.1]
    simp only [Cut.extend, List.cons_append, List.nil_append, numberBody, hc, hmore', if_true, ih]
    rfl
  | case4 seen c r hc hmore => exact hstop seen

/-- A number that is read can be written. -/
theorem writable_number {c : Char} (hc : isAsciiDigit c = true) (r : List Char) :
    Writable (.number (numeralValue (c :: (numberBody false r).taken))) := by
  obtain ⟨hspace, hslash⟩ := isSpace_of_isAsciiDigit hc
  refine writable_of_lexeme (by simp) hspace hslash
    (numberBody false r).taken fun stop v hstop => ?_
  have hends : isAsciiDigit stop = false ∧ stop ≠ '_' ∧ stop ≠ '.' := by
    simp only [isSpace, Bool.or_eq_true, decide_eq_true_eq] at hstop
    rcases hstop with ((rfl | rfl) | rfl) | rfl <;> decide
  have hbody := numberBody_taken false r hends.1 hends.2.1 hends.2.2 v
  show lexemeAt c (_ ++ stop :: v) = _
  rw [lexemeAt_of_isAsciiDigit hc, hbody]

/-- A word that is read can be written. -/
theorem writable_word {c : Char} (hc : isIdStart c = true) (r : List Char) :
    Writable (word c r).value := by
  obtain ⟨hspace, hslash⟩ := isSpace_of_isIdStart hc
  have hstops : ∀ stop, isSpace stop = true → stop ≠ '-' := by
    rintro _ hstop rfl
    cases hstop
  have hplain : Writable (wordKind (String.ofList (c :: r.takeWhile isIdContinue))) := by
    refine writable_of_lexeme (wordKind_ne_finish _) hspace hslash (r.takeWhile isIdContinue)
      fun stop v hstop => ?_
    rw [List.cons_append, lexeme, lexemeAt_of_isIdStart hc]
    exact word_eq c v (fun d hd => List.mem_takeWhile_imp hd) (not_isIdContinue_of_isSpace hstop)
      (hstops stop hstop)
  unfold word
  simp only
  split
  · refine ⟨(by simp), "declare-root".toList, fun stop v hstop => ⟨?_, ?_⟩⟩
    · exact trivia_code (by decide) (by decide) _
    · exact lexeme_declareRoot (by simp [not_isIdContinue_of_isSpace hstop])
  · unfold wordKind at hplain
    split <;> simp_all

/-- A token of a source can be written, unless it is its end, a literal that was cut off or a
character that means nothing. -/
theorem writable_lexeme (cs : List Char) : Writable (lexeme cs).value ∨
    (lexeme cs).value = .finish ∨ (lexeme cs).value = .unterminated ∨
      ∃ c, (lexeme cs).value = .invalid c := by
  cases cs with
  | nil => exact .inr (.inl rfl)
  | cons c r =>
    simp only [lexeme, lexemeAt]
    split
    · exact .inl (writable_mark _)
    · split
      · rename_i hquote
        show Writable (stringToken (stringBody c r).value) ∨ _
        cases hvalue : (stringBody c r).value with
        | none =>
          refine .inr (.inr (.inl ?_))
          show stringToken (stringBody c r).value = _
          rw [hvalue]
          rfl
        | some text =>
          obtain ⟨raw, -, hliteral⟩ := literal_of_stringBody hvalue
          exact .inl (writable_string (by simpa using hquote) hliteral)
      · split
        · rename_i hdigit
          exact .inl (writable_number hdigit r)
        · split
          · rename_i hstart
            exact .inl (writable_word hstart r)
          · exact .inr (.inr (.inr ⟨c, rfl⟩))

/-! ## Sources -/

/-- The tokens of a source can be written, but for the finish and what is cut off or unknown. -/
theorem writable_tokensFrom (c : Cursor) : ∀ t ∈ tokensFrom c, Writable t.kind ∨
    t.kind = .finish ∨ t.kind = .unterminated ∨ ∃ c, t.kind = .invalid c := by
  fun_induction tokensFrom c with
  | case1 c hfinish =>
    intro t ht
    rw [List.mem_singleton.1 ht]
    exact .inr (.inl hfinish)
  | case2 c hmore ih =>
    intro t ht
    rcases List.mem_cons.1 ht with rfl | ht
    · exact writable_lexeme _
    · exact ih t ht

/-- Tokens that can be written are those of a text that begins with a blank. -/
theorem exists_text {said : List (TokenKind × Bool)} (h : ∀ s ∈ said, Writable s.1) :
    ∃ blank v, isSpace blank = true ∧ ∀ p, (tokensFrom ⟨blank :: v, p⟩).map Token.said =
      said ++ [(.finish, false)] := by
  induction said with
  | nil =>
    refine ⟨' ', [], rfl, fun p => ?_⟩
    rw [tokensFrom_cons]
    rfl
  | cons s said ih =>
    obtain ⟨stop, v, hstop, htokens⟩ := ih fun s hs => h s (List.mem_cons_of_mem _ hs)
    obtain ⟨hkind, piece, hpiece⟩ := h s List.mem_cons_self
    obtain ⟨htrivia, hlexeme⟩ := hpiece stop v hstop
    obtain ⟨blank, hblank, hline⟩ : ∃ blank, isSpace blank = true ∧
        [blank].contains '\n' = s.2 := by
      cases s.2 with
      | true => exact ⟨'\n', rfl, rfl⟩
      | false => exact ⟨' ', rfl, rfl⟩
    refine ⟨blank, piece ++ stop :: v, hblank, fun p => ?_⟩
    have hgap : trivia .code (blank :: (piece ++ stop :: v)) = ⟨(), [blank], piece ++ stop :: v⟩ := by
      rw [← List.singleton_append, skips_space hblank, htrivia]
      rfl
    have hnext : nextToken ⟨blank :: (piece ++ stop :: v), p⟩ =
        (⟨s.1, ⟨p.after [blank], ((p.after [blank]).after piece).offset⟩, s.2⟩,
          ⟨stop :: v, (p.after [blank]).after piece⟩) := by
      simp only [nextToken, hgap, hlexeme, hline]
    rw [tokensFrom_cons, hnext]
    simp only [hkind, if_false, List.map_cons, htokens]
    rfl

/-- Whatever can be written token by token is what some source says. -/
theorem exists_source {said : List (TokenKind × Bool)} (h : ∀ s ∈ said, Writable s.1) :
    ∃ source, (tokens source).map Token.said = said ++ [(.finish, false)] := by
  obtain ⟨blank, v, -, htokens⟩ := exists_text h
  refine ⟨String.ofList (blank :: v), ?_⟩
  rw [tokens, Cursor.ofSource, String.toList_ofList]
  exact htokens Place.start

end ModuleLoader.Script
