import ModuleLoader.Proofs.Script.Scanning

/-!
# A text with lines behind it

A text may end in one of three ways: so that a line break closes whatever stands before it, in a
comment that has not been closed, or behind a backslash in a string.  Lines behind the text are
scanned accordingly.  Where they add no token to those of the text, the text and its continuation
are read alike, statement by statement and error by error, but for the errors found at the end of
the text, which then stand at the end of the lines.  Main statements: `kinds_lineBreak`, the three
ways, and `parseProgram_passedOver`.
-/

set_option autoImplicit false

namespace ModuleLoader.Script

open ModuleLoader.Text

/-! ## Pieces of a text before a line break -/

/-- Blanks and comments that stop before the end of a text stop there whatever lines follow. -/
theorem trivia_lineBreak_of_rest {mode : TriviaMode} {cs : List Char}
    (h : (trivia mode cs).rest ≠ []) (v : List Char) :
    trivia mode (cs ++ '\n' :: v) =
      ⟨(), (trivia mode cs).taken, (trivia mode cs).rest ++ '\n' :: v⟩ := by
  fun_induction trivia mode cs with
  | case1 mode => exact absurd rfl h
  | case2 c r ih => simp only [List.cons_append, trivia, ih h, Cut.extend]
  | case3 star c r ih => simp only [List.cons_append, trivia, ih h, Cut.extend]
  | case4 c hspace => exact absurd rfl h
  | case5 c hspace => simp [trivia, hspace]
  | case6 c d r hspace ih =>
    simp only [List.cons_append, trivia, hspace, if_true] at ih ⊢
    rw [ih h]
    rfl
  | case7 c d r hspace hline ih =>
    simp only [List.cons_append, trivia, hspace, hline, if_true, ih h]
    rfl
  | case8 c d r hspace hline hblock ih =>
    simp only [List.cons_append, trivia, hspace, hline, hblock, if_true, ih h]
    rfl
  | case9 c d r hspace hline hblock =>
    simp only [List.cons_append, trivia, hspace, hline, hblock]
    rfl

/-- Where a text is not passed over to its end, it is not with lines behind it. -/
theorem rest_trivia_lineBreak {mode : TriviaMode} {cs : List Char} (h : (trivia mode cs).rest ≠ [])
    (v : List Char) : (trivia mode (cs ++ '\n' :: v)).rest ≠ [] := by
  rw [trivia_lineBreak_of_rest h]
  exact List.append_ne_nil_of_right_ne_nil _ (List.cons_ne_nil _ _)

/-- Blanks and comments that reach the end of a text go on behind a line break in code, or in a
comment that has not been closed. -/
theorem trivia_lineBreak_of_done {mode : TriviaMode} {cs : List Char}
    (h : (trivia mode cs).rest = []) :
    (∀ v, (trivia mode (cs ++ '\n' :: v)).rest = (trivia .code v).rest) ∨
      ∀ v, (trivia mode (cs ++ '\n' :: v)).rest = (trivia (.block false) v).rest := by
  have hbreak : ∀ v, (trivia .code ('\n' :: v)).rest = (trivia .code v).rest := skips_lineBreak.rest
  fun_induction trivia mode cs with
  | case1 mode =>
    cases mode with
    | code => exact .inl hbreak
    | line =>
      left
      intro v
      rw [List.nil_append, trivia]
      rfl
    | block star =>
      right
      intro v
      rw [List.nil_append, trivia]
      simp [Cut.extend]
  | case2 c r ih =>
    simp only [List.cons_append, trivia]
    exact ih h
  | case3 star c r ih =>
    simp only [List.cons_append, trivia]
    exact ih h
  | case4 c hspace =>
    left
    intro v
    rw [(skips_space hspace).rest, hbreak]
  | case5 c hspace => cases h
  | case6 c d r hspace ih =>
    simp only [List.cons_append, trivia, hspace, if_true] at ih ⊢
    exact ih h
  | case7 c d r hspace hline ih =>
    simp only [List.cons_append, trivia, hspace, hline, if_true]
    exact ih h
  | case8 c d r hspace hline hblock ih =>
    simp only [List.cons_append, trivia, hspace, hline, hblock, if_true]
    exact ih h
  | case9 c d r hspace hline hblock => cases h

/-- A number ends before a line break. -/
theorem numberBody_lineBreak (seen : Bool) (cs v : List Char) :
    numberBody seen (cs ++ '\n' :: v) =
      ⟨(), (numberBody seen cs).taken, (numberBody seen cs).rest ++ '\n' :: v⟩ := by
  have hdigit : isAsciiDigit '\n' = false := by decide
  fun_induction numberBody seen cs with
  | case1 seen => simp [numberBody, hdigit]
  | case2 seen c r hc ih => simp only [List.cons_append, numberBody, hc, if_true, ih, Cut.extend]
  | case3 seen c r hc hpoint ih =>
    have hpoint' : (c = '.' && !seen && (r ++ '\n' :: v).head?.any isAsciiDigit) = true := by
      cases r with
      | nil => simp at hpoint
      | cons d r => exact hpoint
    simp only [List.cons_append, numberBody, hc, hpoint', if_true, ih, Cut.extend]
    rfl
  | case4 seen c r hc hpoint =>
    have hpoint' : ¬(c = '.' && !seen && (r ++ '\n' :: v).head?.any isAsciiDigit) = true := by
      cases r with
      | nil => simp [hdigit]
      | cons d r => exact hpoint
    simp only [List.cons_append, numberBody, hc, hpoint']
    rfl

/-- A text without line breaks is the front of another just when it is with lines behind that. -/
theorem isPrefixOf_lineBreak {l : List Char} (h : '\n' ∉ l) (cs v : List Char) :
    l.isPrefixOf (cs ++ '\n' :: v) = l.isPrefixOf cs := by
  induction l generalizing cs with
  | nil => simp
  | cons c l ih =>
    rw [List.mem_cons, not_or] at h
    cases cs with
    | nil =>
      have hne : (c == '\n') = false := by simpa using Ne.symm h.1
      simp [List.isPrefixOf, hne]
    | cons d cs => simp only [List.cons_append, List.isPrefixOf, ih h.2]

/-- The word `declare-root` does not go on over a line break. -/
theorem continuesDeclareRoot_lineBreak (cs v : List Char) :
    continuesDeclareRoot (cs ++ '\n' :: v) = continuesDeclareRoot cs := by
  have hsuffix : '\n' ∉ rootSuffix := by decide
  have hstop : isIdContinue '\n' = false := by decide
  unfold continuesDeclareRoot
  rw [isPrefixOf_lineBreak hsuffix]
  cases hprefix : rootSuffix.isPrefixOf cs with
  | false => rfl
  | true =>
    obtain ⟨rest, rfl⟩ := List.isPrefixOf_iff_prefix.1 hprefix
    rw [List.append_assoc, List.drop_left, List.drop_left]
    cases rest with
    | nil => simp [hstop]
    | cons c rest => rfl

/-- An identifier ends before a line break. -/
theorem identifier_lineBreak (cs v : List Char) :
    (cs ++ '\n' :: v).takeWhile isIdContinue = cs.takeWhile isIdContinue ∧
      (cs ++ '\n' :: v).dropWhile isIdContinue = cs.dropWhile isIdContinue ++ '\n' :: v := by
  have hstop : isIdContinue '\n' = false := by decide
  induction cs with
  | nil => simp [hstop]
  | cons c cs ih =>
    cases hc : isIdContinue c with
    | false => simp [hc]
    | true => simp [hc, ih.1, ih.2]

/-- A word ends before a line break. -/
theorem word_lineBreak (first : Char) (cs v : List Char) :
    word first (cs ++ '\n' :: v) =
      ⟨(word first cs).value, (word first cs).taken, (word first cs).rest ++ '\n' :: v⟩ := by
  obtain ⟨htake, hdrop⟩ := identifier_lineBreak cs v
  unfold word
  simp only [htake, hdrop, continuesDeclareRoot_lineBreak]
  split
  · rename_i h
    simp only [Bool.and_eq_true, continuesDeclareRoot, List.isPrefixOf_iff_prefix] at h
    obtain ⟨rest, hrest⟩ := h.2.1
    rw [← hrest, List.append_assoc, List.drop_left, List.drop_left]
  · split <;> rfl

/-- What a string literal is cut to with lines behind a text, `whole`, given what it is cut to in the
text, `alone`, and what the lines are cut to, `behind`: the same, or the lines are part of the literal. -/
def ReachesInto (alone : Cut (Option (List Char))) (whole behind : List Char → Cut (Option (List Char))) :
    Prop :=
  (∀ v, whole v = ⟨alone.value, alone.taken, alone.rest ++ '\n' :: v⟩) ∨
    alone.value = none ∧ alone.rest = [] ∧
      ∀ v, (whole v).rest = (behind v).rest ∧ ((behind v).value = none → (whole v).value = none)

/-- Lines reach into a literal whatever stands at its front. -/
theorem ReachesInto.extend {alone : Cut (Option (List Char))}
    {whole behind : List Char → Cut (Option (List Char))} (h : ReachesInto alone whole behind)
    (front : List Char) (f : List Char → List Char) :
    ReachesInto ((alone.map (Option.map f)).extend front)
      (fun v => ((whole v).map (Option.map f)).extend front) behind := by
  rcases h with hall | ⟨hvalue, hrest, hall⟩
  · left
    intro v
    simp only [hall v]
    rfl
  · right
    refine ⟨?_, hrest, fun v => ⟨(hall v).1, fun hnone => ?_⟩⟩
    · simp [Cut.extend, Cut.map, hvalue]
    · simp [Cut.extend, Cut.map, (hall v).2 hnone]

/-- A string ends before the lines behind a text, unless a backslash at the end of the text takes
the line break into the string. -/
theorem stringBody_lineBreak (quote : Char) (cs : List Char) :
    ReachesInto (stringBody quote cs) (fun v => stringBody quote (cs ++ '\n' :: v))
      (stringBody quote) := by
  have hbreak : ∀ v, stringBody quote ('\n' :: v) = ⟨none, [], '\n' :: v⟩ := by
    intro v
    cases v <;> simp [stringBody]
  fun_induction stringBody quote cs with
  | case1 => exact .inl hbreak
  | case2 =>
    left
    intro v
    simp [stringBody]
  | case3 hc =>
    left
    intro v
    simp [stringBody, hc]
  | case4 c hc hend =>
    by_cases hescape : c = '\\'
    · right
      refine ⟨rfl, rfl, fun v => ?_⟩
      simp only [List.singleton_append, stringBody, hc, hend, if_false, if_pos hescape]
      refine ⟨rfl, fun hnone => ?_⟩
      simp [Cut.extend, Cut.map, hnone]
    · left
      intro v
      simp only [List.singleton_append, stringBody, hc, hend, hescape, if_false, hbreak]
      rfl
  | case5 d r =>
    left
    intro v
    simp [stringBody]
  | case6 d r hc =>
    left
    intro v
    simp [stringBody, hc]
  | case7 d r hc hend ih =>
    simp only [List.cons_append, stringBody, hc, hend, if_true, if_false]
    exact ih.extend ['\\', d] _
  | case8 c d r hc hend hescape ih =>
    simp only [List.cons_append, stringBody, hc, hend, hescape, if_false] at ih ⊢
    exact ih.extend [c] _

/-- A token ends before the lines behind a text, unless it is a string that takes them in: then it
goes on as the string with its quote does. -/
theorem lexeme_lineBreak {cs : List Char} (hne : cs ≠ []) :
    (∀ v, lexeme (cs ++ '\n' :: v) =
      ⟨(lexeme cs).value, (lexeme cs).taken, (lexeme cs).rest ++ '\n' :: v⟩) ∨
      (lexeme cs).value = .unterminated ∧ (lexeme cs).rest = [] ∧
        ∃ quote, (quote = '"' ∨ quote = '\'') ∧
          ∀ v, (lexeme (cs ++ '\n' :: v)).rest = (stringBody quote v).rest ∧
            ((stringBody quote v).value = none →
              (lexeme (cs ++ '\n' :: v)).value = .unterminated) := by
  obtain ⟨c, r, rfl⟩ := List.exists_cons_of_ne_nil hne
  simp only [List.cons_append, lexeme, lexemeAt]
  split
  · exact .inl fun v => rfl
  · split
    · rename_i hquote
      rcases stringBody_lineBreak c r with hall | ⟨hvalue, hrest, hall⟩
      · left
        intro v
        have hcut : stringBody c (r ++ '\n' :: v) = _ := hall v
        rw [hcut]
        rfl
      · right
        refine ⟨?_, hrest, c, ?_, fun v => ⟨(hall v).1, fun hnone => ?_⟩⟩
        · show stringToken (stringBody c r).value = .unterminated
          rw [hvalue]
          rfl
        · simpa using hquote
        · show stringToken (stringBody c (r ++ '\n' :: v)).value = .unterminated
          rw [(hall v).2 hnone]
          rfl
    · left
      intro v
      rw [numberBody_lineBreak, word_lineBreak]
      split
      · rfl
      · split <;> rfl

/-! ## Kinds of tokens -/

/-- The kinds of the tokens of a text, up to and including its end. -/
def kinds (cs : List Char) : List TokenKind := (tokensFrom ⟨cs, Place.start⟩).map (·.kind)

/-- The kinds of tokens do not depend on where a text begins. -/
theorem map_kind_tokensFrom (cs : List Char) (p : Place) :
    (tokensFrom ⟨cs, p⟩).map (·.kind) = kinds cs := by
  suffices h : ∀ n (cs : List Char), cs.length = n → ∀ p q,
      (tokensFrom ⟨cs, p⟩).map (·.kind) = (tokensFrom ⟨cs, q⟩).map (·.kind) from
    h _ cs rfl p Place.start
  intro n
  induction n using Nat.strongRecOn with
  | ind n ih =>
    intro cs hn p q
    rw [tokensFrom_cons, tokensFrom_cons ⟨cs, q⟩, List.map_cons, List.map_cons]
    have hkind : (nextToken ⟨cs, q⟩).1.kind = (nextToken ⟨cs, p⟩).1.kind := rfl
    rw [hkind]
    split
    · rfl
    · rename_i hmore
      have hshorter : (nextToken ⟨cs, p⟩).2.rest.length < cs.length :=
        nextToken_shorter ⟨cs, p⟩ hmore
      have hrest := ih _ (by omega) (nextToken ⟨cs, p⟩).2.rest rfl (nextToken ⟨cs, p⟩).2.place
        (nextToken ⟨cs, q⟩).2.place
      exact congrArg _ hrest

/-- A text that is passed over has no tokens but the finish. -/
theorem kinds_of_done {cs : List Char} (h : (trivia .code cs).rest = []) : kinds cs = [.finish] := by
  have hfinish : (nextToken ⟨cs, Place.start⟩).1.kind = .finish := value_lexeme_eq_finish.2 h
  rw [kinds, tokensFrom, dif_pos hfinish, List.map_singleton, hfinish]

/-- The tokens of a text that is not passed over are the first and those behind it. -/
theorem kinds_of_rest {cs : List Char} (h : (trivia .code cs).rest ≠ []) :
    kinds cs = (lexeme (trivia .code cs).rest).value :: kinds (lexeme (trivia .code cs).rest).rest := by
  have hmore : (nextToken ⟨cs, Place.start⟩).1.kind ≠ .finish := fun hfinish =>
    h (value_lexeme_eq_finish.1 hfinish)
  rw [kinds, tokensFrom, dif_neg hmore, List.map_cons]
  exact congrArg _ (map_kind_tokensFrom _ _)

/-- With lines behind it, such a text has the first token that its rest has with them, and the
tokens behind that. -/
theorem kinds_lineBreak_of_rest {cs : List Char} (h : (trivia .code cs).rest ≠ []) (v : List Char) :
    kinds (cs ++ '\n' :: v) = (lexeme ((trivia .code cs).rest ++ '\n' :: v)).value ::
      kinds (lexeme ((trivia .code cs).rest ++ '\n' :: v)).rest := by
  rw [kinds_of_rest (rest_trivia_lineBreak h v), trivia_lineBreak_of_rest h]

/-- The kinds of tokens depend on what is left behind blanks and comments. -/
theorem kinds_congr {cs ds : List Char} (h : (trivia .code cs).rest = (trivia .code ds).rest) :
    kinds cs = kinds ds := by
  by_cases hdone : (trivia .code ds).rest = []
  · rw [kinds_of_done hdone, kinds_of_done (h.trans hdone)]
  · have hdone' : (trivia .code cs).rest ≠ [] := by
      rw [h]
      exact hdone
    rw [kinds_of_rest hdone, kinds_of_rest hdone', h]

/-- There is at least one token, the finish. -/
theorem kinds_ne_nil (cs : List Char) : kinds cs ≠ [] := by
  by_cases hdone : (trivia .code cs).rest = []
  · rw [kinds_of_done hdone]
    exact List.cons_ne_nil _ _
  · rw [kinds_of_rest hdone]
    exact List.cons_ne_nil _ _

/-- What is left behind blanks and comments begins with a token. -/
theorem rest_trivia_rest (mode : TriviaMode) (cs : List Char) :
    (trivia .code (trivia mode cs).rest).rest = (trivia mode cs).rest := by
  fun_induction trivia mode cs with
  | case1 mode => rfl
  | case2 c r ih => exact ih
  | case3 star c r ih => exact ih
  | case4 c hspace => rfl
  | case5 c hspace => simp [trivia, hspace]
  | case6 c d r hspace ih => exact ih
  | case7 c d r hspace hline ih => exact ih
  | case8 c d r hspace hline hblock ih => exact ih
  | case9 c d r hspace hline hblock => simp [trivia, hspace, hline, hblock]

/-! ## The end of a text -/

/-- How a text ends: what the tokens are when a line break and more characters stand behind it. -/
inductive Ending (cs : List Char) : Prop where
  /-- The line break closes what stands before it. -/
  | closed (h : ∀ v, kinds (cs ++ '\n' :: v) = (kinds cs).dropLast ++ kinds v)
  /-- The text ends in a comment that goes on. -/
  | comment (h : ∀ v, kinds (cs ++ '\n' :: v) =
      (kinds cs).dropLast ++ kinds (trivia (.block false) v).rest)
  /-- The text ends behind a backslash in a string that goes on. -/
  | string (front : List TokenKind) (quote : Char) (hquote : quote = '"' ∨ quote = '\'')
      (hkinds : kinds cs = front ++ [.unterminated, .finish])
      (h : ∀ v, ∃ kind, kinds (cs ++ '\n' :: v) = front ++ kind :: kinds (stringBody quote v).rest ∧
        ((stringBody quote v).value = none → kind = .unterminated))

/-- A text behind a token ends as the text with the token does. -/
theorem Ending.cons {cs rest : List Char} {kind : TokenKind} (hkinds : kinds cs = kind :: kinds rest)
    (hall : ∀ v, kinds (cs ++ '\n' :: v) = kind :: kinds (rest ++ '\n' :: v)) (h : Ending rest) :
    Ending cs := by
  have hlast : (kinds cs).dropLast = kind :: (kinds rest).dropLast := by
    rw [hkinds, List.dropLast_cons_of_ne_nil (kinds_ne_nil rest)]
  cases h with
  | closed h =>
    apply Ending.closed
    intro v
    rw [hall, h, hlast, List.cons_append]
  | comment h =>
    apply Ending.comment
    intro v
    rw [hall, h, hlast, List.cons_append]
  | string front quote hquote hfront h =>
    refine .string (kind :: front) quote hquote ?_ fun v => ?_
    · rw [hkinds, hfront, List.cons_append]
    · obtain ⟨last, hlast, hnone⟩ := h v
      refine ⟨last, ?_, hnone⟩
      rw [hall, hlast, List.cons_append]

/-- Every text ends in one of the three ways. -/
theorem kinds_lineBreak (cs : List Char) : Ending cs := by
  induction hn : cs.length using Nat.strongRecOn generalizing cs with
  | ind n ih =>
  by_cases hdone : (trivia .code cs).rest = []
  · have hlast : (kinds cs).dropLast = [] := by rw [kinds_of_done hdone, List.dropLast_singleton]
    rcases trivia_lineBreak_of_done hdone with hcode | hblock
    · apply Ending.closed
      intro v
      rw [hlast, List.nil_append]
      exact kinds_congr (hcode v)
    · apply Ending.comment
      intro v
      rw [hlast, List.nil_append]
      apply kinds_congr
      rw [hblock, rest_trivia_rest]
  · have hkinds := kinds_lineBreak_of_rest hdone
    rcases lexeme_lineBreak hdone with hall | ⟨hvalue, hrest, quote, hquote, hall⟩
    · have hshorter : (lexeme (trivia .code cs).rest).rest.length < cs.length :=
        nextToken_shorter ⟨cs, Place.start⟩ fun hfinish => hdone (value_lexeme_eq_finish.1 hfinish)
      refine .cons (kinds_of_rest hdone) (fun v => ?_) (ih _ (by omega) _ rfl)
      rw [hkinds, hall]
    · refine .string [] quote hquote ?_ fun v => ⟨_, ?_, (hall v).2⟩
      · have hend : kinds [] = [.finish] := kinds_of_done rfl
        rw [kinds_of_rest hdone, hvalue, hrest, hend, List.nil_append]
      · rw [hkinds, (hall v).1, List.nil_append]

/-- The finish is the last token. -/
theorem kinds_concat (cs : List Char) : kinds cs = (kinds cs).dropLast ++ [.finish] := by
  obtain ⟨ts, finish, htokens, hfinish, -⟩ := tokensFrom_concat ⟨cs, Place.start⟩
  rw [kinds, htokens, List.map_append, List.map_singleton, hfinish, List.dropLast_concat]

/-- A source after which no comment and no string is left open: a semicolon on a line of its own
behind it is read as that. -/
def LeavesNothingOpen (source : String) : Prop :=
  (tokens (source ++ "\n;")).map (·.kind) =
    ((tokens source).map (·.kind)).dropLast ++ [.mark .semicolon, .finish]

instance (source : String) : Decidable (LeavesNothingOpen source) :=
  inferInstanceAs (Decidable (_ = _))

/-- Lines without tokens add none to a source that leaves nothing open. -/
theorem kinds_lineBreak_of_closed {source : String} (hsource : LeavesNothingOpen source)
    {v : List Char} (hv : kinds v = [.finish]) :
    kinds (source.toList ++ '\n' :: v) = kinds source.toList := by
  generalize hcs : source.toList = cs
  have hclosed : kinds (cs ++ ['\n', ';']) = (kinds cs).dropLast ++ [.mark .semicolon, .finish] := by
    have hprobe : (source ++ "\n;").toList = cs ++ ['\n', ';'] := by
      rw [String.toList_append, hcs]
      rfl
    rw [← hprobe, ← hcs]
    exact hsource
  have hend : kinds [] = [.finish] := kinds_of_done rfl
  cases kinds_lineBreak cs with
  | closed h => rw [h, hv, ← kinds_concat]
  | comment h =>
    have hrest : (trivia (.block false) [';']).rest = [] := rfl
    rw [h [';'], hrest, hend] at hclosed
    cases List.append_cancel_left hclosed
  | string front quote hquote hkinds h =>
    exfalso
    obtain ⟨kind, hsemicolon, -⟩ := h [';']
    have hrest : (stringBody quote [';']).rest = [] := by
      rcases hquote with rfl | rfl <;> rfl
    have hlength := congrArg List.length (hsemicolon.symm.trans hclosed)
    rw [hrest, hend, hkinds] at hlength
    simp at hlength

-- A string that lacks its closing quote is left open by a backslash only.
example : LeavesNothingOpen "throw 'a" ∧ ¬LeavesNothingOpen "throw 'a\\" ∧
    ¬LeavesNothingOpen "a /* b" := by decide +kernel

/-- Lines that are quiet in every state add no token to any text. -/
theorem kinds_lineBreak_of_quiet {v : List Char} (hcode : kinds v = [.finish])
    (hblock : (trivia (.block false) v).rest = [])
    (hstring : ∀ quote, quote = '"' ∨ quote = '\'' →
      (stringBody quote v).value = none ∧ kinds (stringBody quote v).rest = [.finish])
    (cs : List Char) : kinds (cs ++ '\n' :: v) = kinds cs := by
  cases kinds_lineBreak cs with
  | closed h => rw [h, hcode, ← kinds_concat]
  | comment h =>
    have hend : kinds [] = [.finish] := kinds_of_done rfl
    rw [h, hblock, hend, ← kinds_concat]
  | string front quote hquote hkinds h =>
    obtain ⟨hnone, hrest⟩ := hstring quote hquote
    obtain ⟨kind, hwhole, hkind⟩ := h v
    rw [hwhole, hkind hnone, hrest, hkinds]

/-- A comment goes on to the end of characters that hold no asterisk. -/
theorem trivia_block {cs : List Char} (h : '*' ∉ cs) : (trivia (.block false) cs).rest = [] := by
  induction cs with
  | nil => rfl
  | cons c cs ih =>
    rw [List.mem_cons, not_or] at h
    have hc : decide (c = '*') = false := by simpa using Ne.symm h.1
    simp only [trivia, Bool.false_and, Bool.false_eq_true, if_false, hc]
    exact ih h.2

/-- A string without its closing quote is none, and goes on to a line break or to the end. -/
theorem stringBody_open {quote : Char} {cs : List Char} (h : quote ∉ cs) :
    (stringBody quote cs).value = none ∧
      ((stringBody quote cs).rest = [] ∨ ∃ r, (stringBody quote cs).rest = '\n' :: r) := by
  fun_induction stringBody quote cs with
  | case1 => exact ⟨rfl, .inl rfl⟩
  | case2 => exact ⟨rfl, .inr ⟨_, rfl⟩⟩
  | case3 hc => exact absurd (List.mem_singleton.2 rfl) h
  | case4 c hc hend => exact ⟨rfl, .inl rfl⟩
  | case5 d r => exact ⟨rfl, .inr ⟨_, rfl⟩⟩
  | case6 d r hc => exact absurd List.mem_cons_self h
  | case7 d r hc hend ih =>
    obtain ⟨hnone, hrest⟩ := ih fun hmem => h (List.mem_cons_of_mem _ (List.mem_cons_of_mem _ hmem))
    exact ⟨by simp [Cut.extend, Cut.map, hnone], hrest⟩
  | case8 c d r hc hend hescape ih =>
    obtain ⟨hnone, hrest⟩ := ih fun hmem => h (List.mem_cons_of_mem _ hmem)
    exact ⟨by simp [Cut.extend, Cut.map, hnone], hrest⟩

/-! ## Reading a text with lines behind it -/

/-- The first token of a text stands where it stood when lines stand behind the text, and leaves what
it left with the lines behind it, unless it was the last one. -/
theorem nextToken_lineBreak {cs : List Char} (h : (trivia .code cs).rest ≠ []) (v : List Char)
    (p : Place) :
    (nextToken ⟨cs ++ '\n' :: v, p⟩).1.newlineBefore = (nextToken ⟨cs, p⟩).1.newlineBefore ∧
      (nextToken ⟨cs ++ '\n' :: v, p⟩).1.span.place = (nextToken ⟨cs, p⟩).1.span.place ∧
      ((nextToken ⟨cs ++ '\n' :: v, p⟩).2 =
          ⟨(nextToken ⟨cs, p⟩).2.rest ++ '\n' :: v, (nextToken ⟨cs, p⟩).2.place⟩ ∨
        (nextToken ⟨cs, p⟩).2.rest = []) := by
  have hgap := trivia_lineBreak_of_rest h v
  refine ⟨by simp only [nextToken, hgap], by simp only [nextToken, hgap], ?_⟩
  rcases lexeme_lineBreak h with hall | ⟨-, hnil, -⟩
  · left
    simp only [nextToken, hgap, hall]
  · exact .inr hnil

/-- A token of a text with lines behind it, `t'`, is that of the text, `t`; a string that the end of the
text cuts off begins where it began. -/
structure Token.Kept (t t' : Token) : Prop where
  alike : t.Alike (fun s s' => s'.place = s.place) t'
  same : t.kind ≠ .unterminated → t' = t

/-- The first token of a text is kept when lines behind the text do not change its kind. -/
theorem kept_nextToken {cs : List Char} (h : (trivia .code cs).rest ≠ []) {v : List Char}
    (hkind : (lexeme ((trivia .code cs).rest ++ '\n' :: v)).value =
      (lexeme (trivia .code cs).rest).value) (p : Place) :
    (nextToken ⟨cs, p⟩).1.Kept (nextToken ⟨cs ++ '\n' :: v, p⟩).1 := by
  have hgap := trivia_lineBreak_of_rest h v
  obtain ⟨hbreak, hplace, -⟩ := nextToken_lineBreak h v p
  refine ⟨⟨?_, hbreak, hplace⟩, fun hclosed => ?_⟩
  · simp only [nextToken, hgap]
    exact hkind
  · rcases lexeme_lineBreak h with hall | ⟨hopen, -, -⟩
    · simp only [nextToken, hgap, hall]
    · exact absurd hopen hclosed

/-- The first tokens of a text are kept when lines that do not change their kinds stand behind it. -/
theorem tokensFrom_kept {cs v : List Char} {front more more' : List TokenKind}
    (h : kinds cs = front ++ more) (h' : kinds (cs ++ '\n' :: v) = front ++ more')
    (hfront : TokenKind.finish ∉ front) (p : Place) :
    ∃ ts us ts' us', tokensFrom ⟨cs, p⟩ = ts ++ us ∧ tokensFrom ⟨cs ++ '\n' :: v, p⟩ = ts' ++ us' ∧
      ts.map (·.kind) = front ∧ List.Forall₂ Token.Kept ts ts' := by
  induction front generalizing cs p with
  | nil => exact ⟨[], _, [], _, rfl, rfl, rfl, .nil⟩
  | cons kind front ih =>
    rw [List.mem_cons, not_or] at hfront
    have hrest : (trivia .code cs).rest ≠ [] := by
      intro hnil
      rw [kinds_of_done hnil] at h
      exact hfront.1 (List.cons.inj h).1
    rw [kinds_of_rest hrest, List.cons_append, List.cons.injEq] at h
    rw [kinds_lineBreak_of_rest hrest, List.cons_append, List.cons.injEq] at h'
    have hkept := kept_nextToken hrest (h'.1.trans h.1.symm) p
    have hmore : (nextToken ⟨cs, p⟩).1.kind ≠ .finish := fun hfinish =>
      hrest (value_lexeme_eq_finish.1 hfinish)
    have hmore' : (nextToken ⟨cs ++ '\n' :: v, p⟩).1.kind ≠ .finish := by
      rw [hkept.alike.kind]
      exact hmore
    rw [tokensFrom_cons, if_neg hmore, tokensFrom_cons ⟨cs ++ '\n' :: v, p⟩, if_neg hmore']
    have hbehind : (nextToken ⟨cs ++ '\n' :: v, p⟩).2.rest =
        (lexeme ((trivia .code cs).rest ++ '\n' :: v)).rest := by
      simp only [nextToken, trivia_lineBreak_of_rest hrest v]
    rcases (nextToken_lineBreak hrest v p).2.2 with hnext | hnil
    · rw [← hbehind, hnext] at h'
      obtain ⟨ts, us, ts', us', htokens, htokens', hkinds, hall⟩ :=
        ih h.2 h'.2 hfront.2 (nextToken ⟨cs, p⟩).2.place
      refine ⟨(nextToken ⟨cs, p⟩).1 :: ts, us, (nextToken ⟨cs ++ '\n' :: v, p⟩).1 :: ts', us', ?_, ?_,
        ?_, .cons hkept hall⟩
      · exact congrArg _ htokens
      · rw [hnext]
        exact congrArg _ htokens'
      · rw [List.map_cons, hkinds]
        exact congrArg (· :: front) h.1
    · -- A string reached the end of the text, so there are no further tokens to keep.
      have hend : kinds (lexeme (trivia .code cs).rest).rest = [.finish] := by
        rw [show (lexeme (trivia .code cs).rest).rest = [] from hnil]
        exact kinds_of_done rfl
      have hlast : front = [] := by
        cases front with
        | nil => rfl
        | cons kind front =>
          rw [hend, List.cons_append] at h
          exact absurd List.mem_cons_self ((List.cons.inj h.2).1 ▸ hfront.2)
      rw [hlast]
      exact ⟨[_], _, [_], _, rfl, rfl, congrArg (fun k => [k]) h.1, .cons hkept .nil⟩

/-- The tokens of a text are kept when lines that add no token stand behind it. -/
theorem tokensFrom_kept_of_kinds {cs v : List Char} (h : kinds (cs ++ '\n' :: v) = kinds cs) {p : Place}
    {ts ts' : List Token} {finish finish' : Token} (htokens : tokensFrom ⟨cs, p⟩ = ts ++ [finish])
    (htokens' : tokensFrom ⟨cs ++ '\n' :: v, p⟩ = ts' ++ [finish']) :
    List.Forall₂ Token.Kept ts ts' := by
  have hkinds : kinds cs = ts.map (·.kind) ++ [finish.kind] := by
    rw [← map_kind_tokensFrom cs p, htokens, List.map_append, List.map_singleton]
  have hkinds' : kinds cs = ts'.map (·.kind) ++ [finish'.kind] := by
    rw [← h, ← map_kind_tokensFrom _ p, htokens', List.map_append, List.map_singleton]
  have hfront : TokenKind.finish ∉ ts.map (·.kind) := by
    obtain ⟨us, last, hconcat, -, -, hinside⟩ := tokensFrom_concat ⟨cs, p⟩
    obtain ⟨rfl, -⟩ := List.append_inj' (htokens.symm.trans hconcat) rfl
    intro hmem
    obtain ⟨t, ht, hfinish⟩ := List.mem_map.1 hmem
    exact (hinside t ht).1 hfinish
  obtain ⟨us, rest, us', rest', hus, hus', hmap, hkept⟩ :=
    tokensFrom_kept hkinds (h.trans hkinds) hfront p
  have hlength : us.length = ts.length := by simpa using congrArg List.length hmap
  have hlength' : ts'.length = ts.length := by
    simpa using congrArg List.length (hkinds'.symm.trans hkinds)
  obtain ⟨rfl, -⟩ := List.append_inj (hus.symm.trans htokens) hlength
  obtain ⟨rfl, -⟩ := List.append_inj (hus'.symm.trans htokens') (hkept.length_eq.symm.trans hlength'.symm)
  exact hkept

/-- The tokens of a text stand where they stood when lines that add no token stand behind it. -/
theorem tokensFrom_alike {cs v : List Char} (h : kinds (cs ++ '\n' :: v) = kinds cs) {p : Place}
    {ts ts' : List Token} {finish finish' : Token} (htokens : tokensFrom ⟨cs, p⟩ = ts ++ [finish])
    (htokens' : tokensFrom ⟨cs ++ '\n' :: v, p⟩ = ts' ++ [finish']) :
    TokensAlike (fun s s' => s'.place = s.place) ts ts' :=
  (tokensFrom_kept_of_kinds h htokens htokens').imp fun _ _ hkept => hkept.alike

/-- Two texts whose tokens say the same and stand at the same places, up to their ends, are read
alike: statements and errors stand at the same places, or the errors at the two ends. -/
theorem programFrom_alike {c c' : Cursor}
    (h : ∀ ts ts' finish finish', tokensFrom c = ts ++ [finish] → tokensFrom c' = ts' ++ [finish'] →
      TokensAlike (fun s s' => s'.place = s.place) ts ts') :
    ResultsAlike
      (fun s s' => Place.Within c.place c.rest s.place ∧ s'.place = s.place ∨
        s.place = c.place.after c.rest ∧ s'.place = c'.place.after c'.rest)
      (List.Forall₂ (Statement.Alike fun s s' =>
        Place.Within c.place c.rest s.place ∧ s'.place = s.place))
      (programFrom c) (programFrom c') := by
  obtain ⟨ts, finish, htokens, hfinish, hplace, hinside⟩ := tokensFrom_concat c
  obtain ⟨ts', finish', htokens', hfinish', hplace', -⟩ := tokensFrom_concat c'
  have halike := h ts ts' finish finish' htokens htokens'
  rw [programFrom_of_tokens htokens, programFrom_of_tokens htokens']
  apply statements_alike
  · exact ⟨hfinish, hfinish', .inr ⟨hplace, hplace'⟩, fun _ _ => .inl⟩
  · have hboth := (List.forall₂_and_left ts ts').2 ⟨fun t ht => (hinside t ht).2, halike⟩
    exact hboth.imp fun t t' ht => ⟨ht.2.kind, ht.2.newlineBefore, ht.1, ht.2.span⟩

/-- The place behind the last character of a source. -/
def endOf (source : String) : Place := Place.start.after source.toList

/-- The number of lines of a source; a line break at its end begins a line. -/
def lineCount (source : String) : Nat := source.toList.count '\n' + 1

/-- A source ends on its last line. -/
theorem line_endOf (source : String) : (endOf source).line = lineCount source := by
  unfold endOf lineCount
  rw [Place.line_after, Nat.add_comm]
  rfl

/-- Lines behind a source end beyond its lines. -/
theorem lineCount_lt_line_endOf {source lines : String} {v : List Char}
    (hlines : lines.toList = '\n' :: v) : lineCount source < (endOf (source ++ lines)).line := by
  rw [line_endOf]
  unfold lineCount
  rw [String.toList_append, hlines, List.count_append, List.count_cons_self]
  omega

/-- The lines of the places in a source are counted from one to its last line. -/
theorem Place.Within.line_le {source : String} {p : Place}
    (h : Place.Within Place.start source.toList p) : 1 ≤ p.line ∧ p.line ≤ lineCount source := by
  obtain ⟨before, rest, hsource, -, rfl⟩ := h
  unfold lineCount
  rw [Place.line_after, hsource, List.count_append]
  show 1 ≤ 1 + _ ∧ 1 + _ ≤ _
  omega

/-- A place within a source is not its end. -/
theorem Place.Within.ne_endOf {source : String} {p : Place}
    (h : Place.Within Place.start source.toList p) : p ≠ endOf source := by
  obtain ⟨before, rest, hsource, hrest, rfl⟩ := h
  intro he
  have hoffset : (Place.start.after before).offset = (endOf source).offset := by rw [he]
  rw [endOf, hsource, Place.after_append, Place.offset_after _ rest] at hoffset
  have hsize : (String.ofList rest).utf8ByteSize = 0 := by omega
  have hempty := congrArg String.toList (String.utf8ByteSize_eq_zero_iff.1 hsize)
  rw [String.toList_ofList] at hempty
  exact hrest hempty

/-- A source that stops where a program must go on: the reader fails at its end. -/
def StopsShort (source : String) : Prop :=
  ∃ cause, parseProgram source = .error ⟨cause, endOf source⟩

/-- A source is read from places of its own. -/
theorem parseProgram_places (source : String) :
    ResultsAlike
      (fun s s' => Place.Within Place.start source.toList s.place ∧ s'.place = s.place ∨
        s.place = endOf source ∧ s'.place = endOf source)
      (List.Forall₂ (Statement.Alike fun s s' =>
        Place.Within Place.start source.toList s.place ∧ s'.place = s.place))
      (parseProgram source) (parseProgram source) := by
  apply programFrom_alike
  intro ts ts' finish finish' htokens htokens'
  obtain ⟨rfl, -⟩ := List.append_inj' (htokens.symm.trans htokens') rfl
  exact List.forall₂_same.2 fun t _ => ⟨rfl, rfl, rfl⟩

/-- Lines behind a source add no token to its tokens and change the kind of none. -/
def PassedOver (source lines : String) : Prop :=
  (tokens (source ++ lines)).map (·.kind) = (tokens source).map (·.kind)

instance (source lines : String) : Decidable (PassedOver source lines) :=
  inferInstanceAs (Decidable (_ = _))

/-- A source with lines behind it that are passed over is read as by itself, but for errors at its
end, which stand at the end of the lines. -/
theorem parseProgram_passedOver {source lines : String} {v : List Char}
    (hlines : lines.toList = '\n' :: v) (h : PassedOver source lines) :
    ResultsAlike
      (fun s s' => Place.Within Place.start source.toList s.place ∧ s'.place = s.place ∨
        s.place = endOf source ∧ s'.place = endOf (source ++ lines))
      (List.Forall₂ (Statement.Alike fun s s' =>
        Place.Within Place.start source.toList s.place ∧ s'.place = s.place))
      (parseProgram source) (parseProgram (source ++ lines)) := by
  have hwhole : (source ++ lines).toList = source.toList ++ '\n' :: v := by
    rw [String.toList_append, hlines]
  have hkinds : kinds (source.toList ++ '\n' :: v) = kinds source.toList := by
    rw [← hwhole]
    exact h
  apply programFrom_alike
  intro ts ts' finish finish' htokens htokens'
  rw [Cursor.ofSource, hwhole] at htokens'
  exact tokensFrom_alike hkinds htokens htokens'

end ModuleLoader.Script
