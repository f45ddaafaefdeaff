import ModuleLoader.Proofs.Script.Reading

/-!
# Scanning part of a text

A text is scanned from its front, so what its first part holds can be told without its place and
without knowing where the rest leads.  This module says which kinds of tokens lie between a text and
a rest of it, what the scan does at a line break, and how the tokens of a text move with the place
where it begins.  Main statements: `Lexes.tokensFrom`, the tokens of a text are those up to a rest and
those of the rest, and `programFrom_moved`, a program moves with its text.
-/

set_option autoImplicit false

namespace ModuleLoader.Script

open ModuleLoader.Text

/-! ## Places -/

namespace Place

/-- The place some bytes and some lines further on, in the same column. -/
def moved (bytes lines : Nat) (p : Place) : Place := ⟨p.offset + bytes, p.line + lines, p.column⟩

/-- A character moves a place that was moved as it moves the place. -/
theorem step_moved (bytes lines : Nat) (p : Place) (c : Char) :
    (p.moved bytes lines).step c = (p.step c).moved bytes lines := by
  unfold step
  split
  · simp only [moved, mk.injEq, and_true]
    omega
  · simp only [moved, mk.injEq, and_true]
    omega

/-- A text moves a place that was moved as it moves the place. -/
theorem after_moved (bytes lines : Nat) (p : Place) (cs : List Char) :
    (p.moved bytes lines).after cs = (p.after cs).moved bytes lines := by
  induction cs generalizing p with
  | nil => rfl
  | cons c cs ih =>
    show ((p.moved bytes lines).step c).after cs = ((p.step c).after cs).moved bytes lines
    rw [step_moved, ih]

/-- A text moves a place character by character. -/
theorem after_cons (p : Place) (c : Char) (cs : List Char) :
    p.after (c :: cs) = (p.step c).after cs := rfl

/-- The line goes up with each line break. -/
theorem line_after (p : Place) (cs : List Char) :
    (p.after cs).line = p.line + cs.count '\n' := by
  induction cs generalizing p with
  | nil => rfl
  | cons c cs ih =>
    rw [after_cons, ih]
    by_cases hc : c = '\n'
    · rw [hc, List.count_cons_self]
      show p.line + 1 + _ = _
      omega
    · rw [List.count_cons_of_ne hc, step, if_neg hc]

/-- The offset goes up with the bytes. -/
theorem offset_after (p : Place) (cs : List Char) :
    (p.after cs).offset = p.offset + (String.ofList cs).utf8ByteSize := by
  induction cs generalizing p with
  | nil => simp [after]
  | cons c cs ih =>
    have hsize : (String.ofList (c :: cs)).utf8ByteSize =
        c.utf8Size + (String.ofList cs).utf8ByteSize := by
      rw [← List.singleton_append, String.ofList_append, String.utf8ByteSize_append,
        ← String.singleton_eq_ofList, String.utf8ByteSize_singleton]
    have hstep : (p.step c).offset = p.offset + c.utf8Size := by
      unfold step
      split <;> rfl
    rw [after_cons, ih, hsize, hstep]
    omega

/-- Behind a line break a place has moved on from the start by bytes and lines only. -/
theorem after_lineBreak (cs : List Char) :
    start.after (cs ++ ['\n']) =
      start.moved (String.ofList (cs ++ ['\n'])).utf8ByteSize ((cs ++ ['\n']).count '\n') := by
  have hoffset := start.offset_after (cs ++ ['\n'])
  have hline := start.line_after (cs ++ ['\n'])
  have hcolumn : (start.after (cs ++ ['\n'])).column = 1 := by
    rw [after_append]
    rfl
  generalize start.after (cs ++ ['\n']) = p at hoffset hline hcolumn
  cases p
  simp only at hoffset hline hcolumn
  rw [hoffset, hline, hcolumn]
  rfl

end Place

/-! ## Moving a text -/

/-- The span some bytes and some lines further on, in the same column. -/
def Span.moved (bytes lines : Nat) (s : Span) : Span :=
  ⟨s.place.moved bytes lines, s.finish + bytes⟩

/-- A token some bytes and some lines further on. -/
def Token.moved (bytes lines : Nat) (t : Token) : Token :=
  ⟨t.kind, t.span.moved bytes lines, t.newlineBefore⟩

/-- A statement some bytes and some lines further on. -/
def Statement.moved (bytes lines : Nat) (s : Statement) : Statement :=
  ⟨s.action, s.span.moved bytes lines⟩

/-- An error some bytes and some lines further on. -/
def SyntaxError.moved (bytes lines : Nat) (e : SyntaxError) : SyntaxError :=
  ⟨e.cause, e.place.moved bytes lines⟩

/-- A cursor some bytes and some lines further on, with the same text before it. -/
def Cursor.moved (bytes lines : Nat) (c : Cursor) : Cursor := ⟨c.rest, c.place.moved bytes lines⟩

/-- The next token of a cursor that was moved is the token, moved. -/
theorem nextToken_moved (bytes lines : Nat) (c : Cursor) :
    nextToken (c.moved bytes lines) =
      ((nextToken c).1.moved bytes lines, (nextToken c).2.moved bytes lines) := by
  simp only [nextToken, Cursor.moved, Place.after_moved]
  rfl

/-- The tokens of a text move with it. -/
theorem tokensFrom_moved (bytes lines : Nat) (c : Cursor) :
    tokensFrom (c.moved bytes lines) = (tokensFrom c).map (Token.moved bytes lines) := by
  fun_induction tokensFrom c with
  | case1 c hfinish =>
    have hfinish' : (nextToken (c.moved bytes lines)).1.kind = .finish := by
      rw [nextToken_moved]
      exact hfinish
    rw [tokensFrom, dif_pos hfinish', nextToken_moved]
    rfl
  | case2 c hmore ih =>
    have hmore' : (nextToken (c.moved bytes lines)).1.kind ≠ .finish := by
      rw [nextToken_moved]
      exact hmore
    rw [tokensFrom, dif_neg hmore', nextToken_moved, List.map_cons, ← ih]

/-! ## Where the tokens of a text stand -/

/-- A place in a text that begins at an origin, before some character of it. -/
def Place.Within (origin : Place) (cs : List Char) (p : Place) : Prop :=
  ∃ before rest, cs = before ++ rest ∧ rest ≠ [] ∧ p = origin.after before

/-- A place within the rest of a text is within the text. -/
theorem Place.Within.behind {origin p : Place} {cs : List Char} (front : List Char)
    (h : Place.Within (origin.after front) cs p) : Place.Within origin (front ++ cs) p := by
  obtain ⟨before, rest, hcs, hrest, hp⟩ := h
  refine ⟨front ++ before, rest, ?_, hrest, ?_⟩
  · rw [hcs, List.append_assoc]
  · rw [hp, Place.after_append]

/-- The end of a text is read only where nothing is left of it. -/
theorem value_lexeme_eq_finish {cs : List Char} : (lexeme cs).value = .finish ↔ cs = [] := by
  constructor
  · intro h
    cases cs with
    | nil => rfl
    | cons c r =>
      exfalso
      simp only [lexeme, lexemeAt] at h
      split at h
      · cases h
      · split at h
        · change stringToken (stringBody c r).value = .finish at h
          unfold stringToken at h
          split at h <;> cases h
        · split at h
          · cases h
          · split at h
            · unfold word at h
              simp only at h
              split at h
              · cases h
              · split at h <;> cases h
            · cases h
  · intro h
    rw [h]
    rfl

/-- The characters between a cursor and the next token, those of the token, and the rest. -/
theorem rest_eq_nextToken (c : Cursor) : c.rest = (trivia .code c.rest).taken ++
    ((lexeme (trivia .code c.rest).rest).taken ++ (nextToken c).2.rest) := by
  have hgap : (trivia .code c.rest).taken ++ (trivia .code c.rest).rest = c.rest :=
    whole_trivia .code c.rest
  have hpiece : (lexeme (trivia .code c.rest).rest).taken ++
      (lexeme (trivia .code c.rest).rest).rest = (trivia .code c.rest).rest := whole_lexeme _
  show c.rest = _ ++ (_ ++ (lexeme (trivia .code c.rest).rest).rest)
  rw [hpiece, hgap]

/-- The place behind a token is that behind the blanks before it and its characters. -/
theorem place_nextToken (c : Cursor) : (nextToken c).2.place = c.place.after
    ((trivia .code c.rest).taken ++ (lexeme (trivia .code c.rest).rest).taken) := by
  rw [Place.after_append]
  rfl

/-- The tokens of a text are some that are not its end and stand within it, and its end. -/
theorem tokensFrom_concat (c : Cursor) : ∃ ts finish, tokensFrom c = ts ++ [finish] ∧
    finish.kind = .finish ∧ finish.span.place = c.place.after c.rest ∧
    ∀ t ∈ ts, t.kind ≠ .finish ∧ Place.Within c.place c.rest t.span.place := by
  fun_induction tokensFrom c with
  | case1 c hfinish =>
    refine ⟨[], _, rfl, hfinish, ?_, nofun⟩
    have hgap : (trivia .code c.rest).taken ++ (trivia .code c.rest).rest = c.rest :=
      whole_trivia .code c.rest
    rw [value_lexeme_eq_finish.1 hfinish, List.append_nil] at hgap
    show c.place.after (trivia .code c.rest).taken = c.place.after c.rest
    rw [hgap]
  | case2 c hmore ih =>
    obtain ⟨ts, finish, heq, hfinish, hplace, hrest⟩ := ih
    have hwhole := rest_eq_nextToken c
    have hnext := place_nextToken c
    refine ⟨_ :: ts, finish, by rw [heq]; rfl, hfinish, ?_, ?_⟩
    · rw [hplace, hnext, ← Place.after_append, List.append_assoc, ← hwhole]
    · intro t ht
      rcases List.mem_cons.1 ht with rfl | ht
      · refine ⟨hmore, (trivia .code c.rest).taken, (trivia .code c.rest).rest, ?_, ?_, rfl⟩
        · exact (whole_trivia .code c.rest).symm
        · intro hnil
          exact hmore (value_lexeme_eq_finish.2 hnil)
      · obtain ⟨hkind, hwithin⟩ := hrest t ht
        refine ⟨hkind, ?_⟩
        rw [hwhole, ← List.append_assoc]
        apply Place.Within.behind
        rw [← hnext]
        exact hwithin

/-- The program that begins at a cursor. -/
def programFrom (c : Cursor) : Except SyntaxError Program :=
  statements ((tokensFrom c).getLast?.getD ⟨.finish, ⟨Place.start, 0⟩, false⟩) (tokensFrom c).dropLast

/-- What sources are read as can be compared, so that readings of given sources can be checked. -/
instance {α : Type} [DecidableEq α] : DecidableEq (Except SyntaxError α)
  | .ok a, .ok b => decidable_of_iff (a = b) ⟨congrArg _, Except.ok.inj⟩
  | .error e, .error e' => decidable_of_iff (e = e') ⟨congrArg _, Except.error.inj⟩
  | .ok _, .error _ => isFalse fun h => by cases h
  | .error _, .ok _ => isFalse fun h => by cases h

/-- A source is read from its start on. -/
theorem parseProgram_eq (source : String) :
    parseProgram source = programFrom ⟨source.toList, Place.start⟩ := rfl

/-- A program is read from the tokens up to their finish. -/
theorem programFrom_of_tokens {c : Cursor} {ts : List Token} {finish : Token}
    (h : tokensFrom c = ts ++ [finish]) : programFrom c = statements finish ts := by
  rw [programFrom, h, List.getLast?_concat, List.dropLast_concat]
  rfl

/-- A program whose spans are all moved is the program, moved. -/
theorem eq_map_of_alike {bytes lines : Nat} {program program' : Program}
    (h : List.Forall₂ (Statement.Alike fun s s' => s' = s.moved bytes lines) program program') :
    program' = program.map (Statement.moved bytes lines) := by
  induction h with
  | nil => rfl
  | @cons s s' rest rest' hs _ ih =>
    obtain ⟨haction, hspan⟩ := hs
    cases s'
    simp only at haction hspan
    rw [List.map_cons, ← ih, haction, hspan]
    rfl

/-- The program or the error that a text leads to moves with it. -/
theorem programFrom_moved (bytes lines : Nat) (c : Cursor) :
    programFrom (c.moved bytes lines) =
      match programFrom c with
      | .ok program => .ok (program.map (Statement.moved bytes lines))
      | .error e => .error (e.moved bytes lines) := by
  obtain ⟨ts, finish, htokens, hfinish, -⟩ := tokensFrom_concat c
  have htokens' : tokensFrom (c.moved bytes lines) =
      ts.map (Token.moved bytes lines) ++ [finish.moved bytes lines] := by
    rw [tokensFrom_moved, htokens, List.map_append]
    rfl
  rw [programFrom_of_tokens htokens, programFrom_of_tokens htokens']
  have hends : EndsAlike (fun s s' => s' = s.moved bytes lines)
      (fun s s' => s' = s.moved bytes lines) finish (finish.moved bytes lines) :=
    ⟨hfinish, hfinish, rfl, fun _ _ h => h⟩
  have halike : TokensAlike (fun s s' => s' = s.moved bytes lines) ts
      (ts.map (Token.moved bytes lines)) := by
    apply List.forall₂_map_right_iff.2
    exact List.forall₂_same.2 fun t _ => ⟨rfl, rfl, rfl⟩
  rcases statements_alike hends halike with
    ⟨program, program', hok, hok', hprogram⟩ | ⟨e, e', he, he', hcause, s, s', rfl, hplace, hplace'⟩
  · rw [hok, hok']
    rw [eq_map_of_alike hprogram]
  · rw [he, he']
    cases e'
    simp only at hcause hplace'
    rw [hcause, hplace']
    simp only [SyntaxError.moved, hplace]
    rfl

/-! ## A text up to a rest -/

/-- Some characters that the scan passes over between tokens, whatever follows them. -/
def Skips (gap : List Char) : Prop := ∀ cs, trivia .code (gap ++ cs) = (trivia .code cs).extend gap

/-- Nothing is passed over. -/
theorem skips_nil : Skips [] := by
  intro cs
  rfl

/-- A blank is passed over. -/
theorem skips_space {c : Char} (h : isSpace c = true) : Skips [c] := by
  intro cs
  cases cs with
  | nil => simp [trivia, h, Cut.extend]
  | cons d r => simp [trivia, h]

/-- A line break is passed over. -/
theorem skips_lineBreak : Skips ['\n'] := skips_space (by decide)

/-- Behind what is passed over the scan goes on as by itself. -/
theorem Skips.rest {gap : List Char} (h : Skips gap) (cs : List Char) :
    (trivia .code (gap ++ cs)).rest = (trivia .code cs).rest := by
  rw [h]
  rfl

/-- What is passed over in two parts is passed over. -/
theorem Skips.append {gap more : List Char} (h : Skips gap) (h' : Skips more) :
    Skips (gap ++ more) := by
  intro cs
  rw [List.append_assoc, h, h']
  simp [Cut.extend]

/-- A line comment goes on over characters that are no line break. -/
theorem trivia_line {text : List Char} (h : '\n' ∉ text) (cs : List Char) :
    trivia .line (text ++ cs) = (trivia .line cs).extend text := by
  induction text with
  | nil => rfl
  | cons c text ih =>
    rw [List.mem_cons, not_or] at h
    rw [List.cons_append, trivia, if_neg (Ne.symm h.1), ih h.2]
    rfl

/-- A comment up to its line break is passed over. -/
theorem skips_comment {text : List Char} (h : '\n' ∉ text) : Skips ('/' :: '/' :: text ++ ['\n']) := by
  intro cs
  have hslash : isSpace '/' = false := by decide
  simp only [List.cons_append, List.append_assoc, trivia, hslash, Bool.false_eq_true, if_false,
    decide_true, Bool.and_self, if_true, trivia_line h]
  simp [Cut.extend]

/-- A token begins at once at a character that is neither blank nor a slash. -/
theorem trivia_code {c : Char} (hspace : isSpace c = false) (hslash : c ≠ '/') (cs : List Char) :
    trivia .code (c :: cs) = ⟨(), [], c :: cs⟩ := by
  cases cs with
  | nil => simp [trivia, hspace]
  | cons d r => simp [trivia, hspace, hslash]

/-- Tokens of some kinds lie between a text and a rest of it. -/
inductive Lexes : List Char → List TokenKind → List Char → Prop where
  | done (cs : List Char) : Lexes cs [] cs
  | token {cs rest : List Char} {kinds : List TokenKind}
      (more : (lexeme (trivia .code cs).rest).value ≠ .finish)
      (next : Lexes (lexeme (trivia .code cs).rest).rest kinds rest) :
      Lexes cs ((lexeme (trivia .code cs).rest).value :: kinds) rest

/-- The tokens of a text are those up to a rest of it, and those of the rest. -/
theorem Lexes.tokensFrom {cs rest : List Char} {kinds : List TokenKind} (h : Lexes cs kinds rest)
    (p : Place) : ∃ consumed ts, cs = consumed ++ rest ∧ ts.map (·.kind) = kinds ∧
      Script.tokensFrom ⟨cs, p⟩ = ts ++ Script.tokensFrom ⟨rest, p.after consumed⟩ := by
  induction h generalizing p with
  | done cs => exact ⟨[], [], rfl, rfl, rfl⟩
  | @token cs rest kinds more next ih =>
    obtain ⟨consumed, ts, hcs, hkinds, htokens⟩ := ih (nextToken ⟨cs, p⟩).2.place
    have hgap : (trivia .code cs).taken ++ (trivia .code cs).rest = cs := whole_trivia .code cs
    have hpiece : (lexeme (trivia .code cs).rest).taken ++ (lexeme (trivia .code cs).rest).rest =
        (trivia .code cs).rest := whole_lexeme _
    refine ⟨(trivia .code cs).taken ++ ((lexeme (trivia .code cs).rest).taken ++ consumed),
      (nextToken ⟨cs, p⟩).1 :: ts, ?_, ?_, ?_⟩
    · rw [List.append_assoc, List.append_assoc, ← hcs, hpiece, hgap]
    · rw [List.map_cons, hkinds]
      rfl
    · have hmore : (nextToken ⟨cs, p⟩).1.kind ≠ .finish := more
      rw [Script.tokensFrom, dif_neg hmore, List.cons_append, Place.after_append,
        Place.after_append]
      exact congrArg _ htokens

/-- A token stands behind characters that are passed over. -/
theorem Lexes.cons {gap piece cs rest : List Char} {kind : TokenKind} {kinds : List TokenKind}
    (hgap : Skips gap) (htrivia : trivia .code (piece ++ cs) = ⟨(), [], piece ++ cs⟩)
    (hpiece : lexeme (piece ++ cs) = ⟨kind, piece, cs⟩) (hkind : kind ≠ .finish)
    (next : Lexes cs kinds rest) : Lexes (gap ++ (piece ++ cs)) (kind :: kinds) rest := by
  have hrest : (trivia .code (gap ++ (piece ++ cs))).rest = piece ++ cs := by
    rw [hgap, htrivia]
    rfl
  have htoken := @Lexes.token (gap ++ (piece ++ cs)) rest kinds
  rw [hrest, hpiece] at htoken
  exact htoken hkind next

/-! ## Words -/

/-- The kind of a word that is not `declare-root`. -/
def wordKind (name : String) : TokenKind :=
  match Keyword.ofSpelling? name with
  | some k => .keyword k
  | none => .identifier name

/-- A word is not the finish. -/
theorem wordKind_ne_finish (name : String) : wordKind name ≠ .finish := by
  unfold wordKind
  intro h
  split at h
  · cases h
  · cases h

/-- Characters of a class end at the first that is not in it. -/
theorem takeWhile_stop {p : Char → Bool} {cs : List Char} {stop : Char}
    (h : ∀ c ∈ cs, p c = true) (hstop : p stop = false) (rest : List Char) :
    (cs ++ stop :: rest).takeWhile p = cs ∧ (cs ++ stop :: rest).dropWhile p = stop :: rest := by
  constructor
  · rw [List.takeWhile_append_of_pos h, List.takeWhile_cons_of_neg (by simp [hstop]),
      List.append_nil]
  · rw [List.dropWhile_append_of_pos h, List.dropWhile_cons_of_neg (by simp [hstop])]

/-! ### Classes of characters -/

/-- Characters that a class tells apart are not the same. -/
theorem ne_of_class {p : Char → Bool} {c d : Char} (hc : p c = true) (hd : p d = false) : c ≠ d := by
  rintro rfl
  rw [hc] at hd
  cases hd

/-- A token begins at once at a character of a class that holds no blank and no slash. -/
theorem isSpace_of_class {p : Char → Bool} {c : Char} (hc : p c = true)
    (h : [' ', '\t', '\r', '\n', '/'].any p = false) : isSpace c = false ∧ c ≠ '/' := by
  simp only [List.any_cons, List.any_nil, Bool.or_eq_false_iff] at h
  obtain ⟨hblank, htab, hreturn, hline, hslash, -⟩ := h
  refine ⟨?_, ne_of_class hc hslash⟩
  simp [isSpace, ne_of_class hc hblank, ne_of_class hc htab, ne_of_class hc hreturn,
    ne_of_class hc hline]

/-- A digit is no blank and begins no comment. -/
theorem isSpace_of_isAsciiDigit {c : Char} (h : isAsciiDigit c = true) :
    isSpace c = false ∧ c ≠ '/' := isSpace_of_class h (by decide)

/-! ### Words -/

section

variable [XidClasses]

/-- A word ends before a text: no character of an identifier stands at its front, nor the second part
of `declare-root`. -/
def EndsWord (cs : List Char) : Prop :=
  cs.head?.any isIdContinue = false ∧ continuesDeclareRoot cs = false

/-- A word ends at the end of a text. -/
theorem endsWord_nil : EndsWord [] := ⟨rfl, rfl⟩

/-- A word ends before a character that no identifier holds and that is no hyphen. -/
theorem endsWord_cons {stop : Char} (hstop : isIdContinue stop = false) (hhyphen : stop ≠ '-')
    (cs : List Char) : EndsWord (stop :: cs) := by
  refine ⟨hstop, ?_⟩
  simp [continuesDeclareRoot, rootSuffix, Ne.symm hhyphen]

/-- A word is read up to where it ends. -/
theorem word_of_endsWord (first : Char) {tail behind : List Char}
    (htail : ∀ c ∈ tail, isIdContinue c = true) (h : EndsWord behind) :
    word first (tail ++ behind) =
      ⟨wordKind (String.ofList (first :: tail)), first :: tail, behind⟩ := by
  have hread : (tail ++ behind).takeWhile isIdContinue = tail ∧
      (tail ++ behind).dropWhile isIdContinue = behind := by
    cases behind with
    | nil =>
      rw [List.takeWhile_append_of_pos htail, List.dropWhile_append_of_pos htail]
      exact ⟨List.append_nil tail, rfl⟩
    | cons stop rest => exact takeWhile_stop htail h.1 rest
  unfold word wordKind
  simp only [hread.1, hread.2, h.2, Bool.and_false, Bool.false_eq_true, if_false]
  cases Keyword.ofSpelling? (String.ofList (first :: tail)) <;> rfl

/-- A word ends before a character that no identifier holds; only a hyphen may continue it. -/
theorem word_eq (first : Char) {stop : Char} {tail : List Char} (rest : List Char)
    (htail : ∀ c ∈ tail, isIdContinue c = true) (hstop : isIdContinue stop = false)
    (hhyphen : stop ≠ '-') :
    word first (tail ++ stop :: rest) =
      ⟨wordKind (String.ofList (first :: tail)), first :: tail, stop :: rest⟩ :=
  word_of_endsWord first htail (endsWord_cons hstop hhyphen rest)

/-- What begins with a character of a class that holds no mark and no quote is a number, a word or
nothing the language knows. -/
theorem lexemeAt_of_class {p : Char → Bool} {c : Char} (hc : p c = true)
    (hmarks : ∀ m : Mark, p m.char = false) (hdouble : p '"' = false) (hsingle : p '\'' = false)
    (r : List Char) : lexemeAt c r =
      if isAsciiDigit c then
        ⟨.number (numeralValue (c :: (numberBody false r).taken)), c :: (numberBody false r).taken,
          (numberBody false r).rest⟩
      else if isIdStart c then word c r
      else ⟨.invalid c, [c], r⟩ := by
  have hmark : Mark.ofChar? c = none := by
    apply List.find?_eq_none.2
    intro m _
    simpa using (ne_of_class hc (hmarks m)).symm
  have hquote : (c = '"' || c = '\'') = false := by
    simp [ne_of_class hc hdouble, ne_of_class hc hsingle]
  simp only [lexemeAt, hmark, hquote, Bool.false_eq_true, if_false]

/-- A character that begins an identifier begins a word, and no other token. -/
theorem lexemeAt_of_isIdStart {c : Char} (h : isIdStart c = true) (r : List Char) :
    lexemeAt c r = word c r := by
  have hmarks : ∀ m : Mark, isIdStart m.char = false := fun m =>
    isIdStart_of_mem_separators (by cases m <;> decide)
  have hdigit : ¬ isAsciiDigit c = true := by
    intro hd
    rw [isIdStart_of_isAsciiDigit hd] at h
    cases h
  rw [lexemeAt_of_class h hmarks (isIdStart_of_mem_separators (by decide))
    (isIdStart_of_mem_separators (by decide)), if_neg hdigit, if_pos h]

/-- A digit begins a number, and no other token. -/
theorem lexemeAt_of_isAsciiDigit {c : Char} (h : isAsciiDigit c = true) (r : List Char) :
    lexemeAt c r = ⟨.number (numeralValue (c :: (numberBody false r).taken)),
      c :: (numberBody false r).taken, (numberBody false r).rest⟩ := by
  have hmarks : ∀ m : Mark, isAsciiDigit m.char = false := by
    intro m
    cases m <;> decide
  rw [lexemeAt_of_class h hmarks (by decide) (by decide), if_pos h]

/-- The first character of an identifier is no blank and begins no comment. -/
theorem isSpace_of_isIdStart {c : Char} (h : isIdStart c = true) : isSpace c = false ∧ c ≠ '/' := by
  apply isSpace_of_class h
  rw [List.any_eq_false]
  intro d hd
  have hseparator : d ∈ separators := by
    simp only [List.mem_cons, List.not_mem_nil, or_false] at hd
    rcases hd with rfl | rfl | rfl | rfl | rfl <;> decide
  rw [isIdStart_of_mem_separators hseparator]
  exact Bool.false_ne_true

/-! ### Words in a text -/

/-- An identifier is a first character and others of its class. -/
theorem exists_of_isIdentifier {name : String} (h : isIdentifier name = true) :
    ∃ first tail, name.toList = first :: tail ∧ isIdStart first = true ∧
      ∀ c ∈ tail, isIdContinue c = true := by
  unfold isIdentifier at h
  cases hchars : name.toList with
  | nil =>
    rw [hchars] at h
    cases h
  | cons first tail =>
    rw [hchars, isIdentifierChars, Bool.and_eq_true, List.all_eq_true] at h
    exact ⟨first, tail, rfl, h.1, h.2⟩

/-- An identifier at the front of a text is read as a word, at once and up to where it ends. -/
theorem lexeme_of_isIdentifier {name : String} (hname : isIdentifier name = true)
    {behind : List Char} (h : EndsWord behind) :
    trivia .code (name.toList ++ behind) = ⟨(), [], name.toList ++ behind⟩ ∧
      lexeme (name.toList ++ behind) = ⟨wordKind name, name.toList, behind⟩ := by
  obtain ⟨first, tail, hchars, hfirst, htail⟩ := exists_of_isIdentifier hname
  obtain ⟨hspace, hslash⟩ := isSpace_of_isIdStart hfirst
  have hspelled : name = String.ofList (first :: tail) := by rw [← hchars, String.ofList_toList]
  have hword := word_of_endsWord first htail h
  rw [← hspelled] at hword
  rw [hchars, List.cons_append, lexeme, lexemeAt_of_isIdStart hfirst]
  exact ⟨trivia_code hspace hslash _, hword⟩

/-- The tokens from a cursor on are the next one and those behind it. -/
theorem tokensFrom_cons (c : Cursor) : tokensFrom c = (nextToken c).1 ::
    if (nextToken c).1.kind = .finish then [] else tokensFrom (nextToken c).2 := by
  rw [tokensFrom]
  split <;> rfl

end

/-- A word may be read where it ends. -/
theorem Lexes.word {gap cs rest : List Char} {kinds : List TokenKind} {name : String} {stop : Char}
    (hgap : Skips gap) (hname : isIdentifier name = true) (hstop : isIdContinue stop = false)
    (hhyphen : stop ≠ '-') (next : Lexes (stop :: cs) kinds rest) :
    Lexes (gap ++ (name.toList ++ stop :: cs)) (wordKind name :: kinds) rest := by
  obtain ⟨htrivia, hpiece⟩ := lexeme_of_isIdentifier hname (endsWord_cons hstop hhyphen cs)
  exact .cons hgap htrivia hpiece (wordKind_ne_finish _) next

/-- A mark, behind what is passed over, is a token. -/
theorem Lexes.mark {gap cs rest : List Char} {kinds : List TokenKind} (hgap : Skips gap)
    (m : Mark) (next : Lexes cs kinds rest) :
    Lexes (gap ++ m.char :: cs) (.mark m :: kinds) rest := by
  have hmark : Mark.ofChar? m.char = some m := by cases m <;> rfl
  have hspace : isSpace m.char = false := by cases m <;> decide
  have hslash : m.char ≠ '/' := by cases m <;> decide
  have hpiece : lexeme ([m.char] ++ cs) = ⟨.mark m, [m.char], cs⟩ := by
    show lexemeAt m.char cs = _
    simp only [lexemeAt, hmark]
  have hkind : TokenKind.mark m ≠ .finish := by
    intro h
    cases h
  exact .cons hgap (trivia_code hspace hslash cs) hpiece hkind next

/-- A word that is no keyword is a name. -/
theorem wordKind_of_not_isKeyword {name : String} (h : isKeyword name = false) :
    wordKind name = .identifier name := by
  rw [isKeyword, Option.isSome_eq_false_iff, Option.isNone_iff_eq_none] at h
  rw [wordKind, h]

/-! ## Programs behind what is passed over -/

/-- Only the first token sees what is passed over before it, and whether a line break precedes it
means nothing. -/
theorem programFrom_skip {gap : List Char} (h : Skips gap) (cs : List Char) (p : Place) :
    programFrom ⟨gap ++ cs, p⟩ = programFrom ⟨cs, p.after gap⟩ := by
  obtain ⟨b, hfirst⟩ : ∃ b, nextToken ⟨gap ++ cs, p⟩ =
      (⟨(nextToken ⟨cs, p.after gap⟩).1.kind, (nextToken ⟨cs, p.after gap⟩).1.span, b⟩,
        (nextToken ⟨cs, p.after gap⟩).2) := by
    refine ⟨(nextToken ⟨gap ++ cs, p⟩).1.newlineBefore, ?_⟩
    simp only [nextToken, h cs, Cut.extend, Place.after_append]
  obtain ⟨ts, finish, htokens, -, -⟩ := tokensFrom_concat ⟨cs, p.after gap⟩
  rw [programFrom_of_tokens htokens]
  rw [tokensFrom_cons] at htokens
  have hskipped := tokensFrom_cons ⟨gap ++ cs, p⟩
  simp only [hfirst] at hskipped
  cases ts with
  | nil =>
    simp only [List.nil_append, List.cons.injEq] at htokens
    rw [htokens.2, ← List.nil_append [_]] at hskipped
    rw [programFrom_of_tokens hskipped, statements, statements]
  | cons t ts =>
    simp only [List.cons_append, List.cons.injEq] at htokens
    rw [htokens.2, htokens.1, ← List.cons_append] at hskipped
    rw [programFrom_of_tokens hskipped]
    exact statements_newlineBefore finish t ts b

end ModuleLoader.Script
