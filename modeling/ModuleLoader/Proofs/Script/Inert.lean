import ModuleLoader.Proofs.Script.Trailing
import ModuleLoader.Proofs.Script.Unterminated

/-!
# Text that changes nothing of a source

A text behind a source is inert if the source is read with it as by itself: as the same program, or
with the same message.  Whether lines of text are inert depends on the state in which the source ends,
in code, in a comment or in a string, and on whether the lines leave that state as it is.  Main
statement: `inert_iff_quiet`, lines are inert behind all sources that end in a state just when they are
quiet in that state.
-/

set_option autoImplicit false

namespace ModuleLoader.Script

open ModuleLoader.Text

/-- Two results of reading: the same program, or errors with the same message. -/
def SameReading : Except SyntaxError Program → Except SyntaxError Program → Prop
  | .ok program, .ok program' => program' = program
  | .error e, .error e' => e'.cause.message = e.cause.message
  | _, _ => False

/-- A source is read with more text behind it, `whole`, as by itself. -/
def Inert (source whole : String) : Prop := SameReading (parseProgram source) (parseProgram whole)

/-! ## States -/

/-- The states in which a text can end. -/
inductive EndState where
  /-- Between tokens, or in a token that a line break ends. -/
  | code
  | comment
  /-- Behind a backslash in a string with a quote. -/
  | string (quote : Char) (h : quote = '"' ∨ quote = '\'')

/-- A text ends in a state: what stands behind a line break is scanned from that state. -/
def EndsIn (cs : List Char) : EndState → Prop
  | .code => ∀ v, kinds (cs ++ '\n' :: v) = (kinds cs).dropLast ++ kinds v
  | .comment => ∀ v, kinds (cs ++ '\n' :: v) =
      (kinds cs).dropLast ++ kinds (trivia (.block false) v).rest
  | .string quote _ => ∃ front, kinds cs = front ++ [.unterminated, .finish] ∧
      ∀ v, ∃ kind, kinds (cs ++ '\n' :: v) = front ++ kind :: kinds (stringBody quote v).rest ∧
        ((stringBody quote v).value = none → kind = .unterminated)

/-- Every text ends in some state. -/
theorem exists_endsIn (cs : List Char) : ∃ state, EndsIn cs state := by
  cases kinds_lineBreak cs with
  | closed h => exact ⟨.code, h⟩
  | comment h => exact ⟨.comment, h⟩
  | string front quote hquote hkinds h => exact ⟨.string quote hquote, front, hkinds, h⟩

/-- Characters that leave a state as it is: blanks and comments in code; in a comment anything that
does not close it, or blanks and comments behind its end; in a string anything that does not close
it. -/
def EndState.Quiet (v : List Char) : EndState → Prop
  | .code => (trivia .code v).rest = []
  | .comment => (trivia (.block false) v).rest = []
  | .string quote _ => (stringBody quote v).value = none

instance (v : List Char) : (state : EndState) → Decidable (state.Quiet v)
  | .code => inferInstanceAs (Decidable (_ = _))
  | .comment => inferInstanceAs (Decidable (_ = _))
  | .string _ _ => inferInstanceAs (Decidable (_ = _))

/-- A text behind tokens that do not depend on it ends as it does by itself. -/
theorem EndsIn.behind {before cs : List Char} {front : List TokenKind} {state : EndState}
    (hbefore : ∀ cs, kinds (before ++ cs) = front ++ kinds cs) (h : EndsIn cs state) :
    EndsIn (before ++ cs) state := by
  have hdropLast : (kinds (before ++ cs)).dropLast = front ++ (kinds cs).dropLast := by
    rw [hbefore, List.dropLast_append_of_ne_nil (kinds_ne_nil cs)]
  cases state with
  | code =>
    intro v
    rw [List.append_assoc, hbefore, h v, hdropLast, List.append_assoc]
  | comment =>
    intro v
    rw [List.append_assoc, hbefore, h v, hdropLast, List.append_assoc]
  | string quote hquote =>
    obtain ⟨last, hkinds, hall⟩ := h
    refine ⟨front ++ last, ?_, fun v => ?_⟩
    · rw [hbefore, hkinds, List.append_assoc]
    · obtain ⟨kind, hkind, hopen⟩ := hall v
      refine ⟨kind, ?_, hopen⟩
      rw [List.append_assoc, hbefore, hkind, List.append_assoc]

/-! ## Quiet lines are inert -/

/-- Kept tokens fork if one of them is a string that lacks its end. -/
theorem forks_of_kept {ts ts' : List Token} (h : List.Forall₂ Token.Kept ts ts')
    (hopen : .unterminated ∈ ts.map (·.kind)) (us us' : List Token) :
    Forks (ts ++ us) (ts' ++ us') := by
  induction h with
  | nil => cases hopen
  | @cons t t' ts ts' ht _ ih =>
    by_cases hkind : t.kind = .unterminated
    · exact .here hkind (ht.alike.kind.trans hkind) ht.alike.newlineBefore
    · rw [ht.same hkind]
      refine .behind t (ih ?_)
      rw [List.map_cons, List.mem_cons] at hopen
      exact hopen.resolve_left fun he => hkind he.symm

/-- Tokens that are kept have their kinds. -/
theorem map_kind_of_kept {ts ts' : List Token} (h : List.Forall₂ Token.Kept ts ts') :
    ts'.map (·.kind) = ts.map (·.kind) := by
  induction h with
  | nil => rfl
  | cons ht _ ih => rw [List.map_cons, List.map_cons, ih, ht.alike.kind]

/-- Kept tokens are the same where no string lacks its end. -/
theorem eq_of_kept {ts ts' : List Token} (h : List.Forall₂ Token.Kept ts ts')
    (hclosed : .unterminated ∉ ts.map (·.kind)) : ts' = ts := by
  induction h with
  | nil => rfl
  | @cons t t' ts ts' ht _ ih =>
    rw [List.map_cons, List.mem_cons, not_or] at hclosed
    rw [ht.same (Ne.symm hclosed.1), ih hclosed.2]

/-- Programs are the same whose statements are, with their spans. -/
theorem eq_of_alike {program program' : Program}
    (h : List.Forall₂ (Statement.Alike fun s s' => s' = s) program program') :
    program' = program := by
  induction h with
  | nil => rfl
  | @cons s s' rest rest' hs _ ih =>
    obtain ⟨haction, hspan⟩ := hs
    rw [ih]
    cases s'
    cases s
    simp only at haction hspan
    rw [haction, hspan]

/-- Kept tokens, with others behind them if one of them is a string that lacks its end, are read as
the tokens that they were. -/
theorem sameReading_of_kept {ts ts' us us' : List Token} {finish finish' : Token}
    (hfinish : finish.kind = .finish) (hfinish' : finish'.kind = .finish)
    (h : List.Forall₂ Token.Kept ts ts')
    (hend : .unterminated ∈ ts.map (·.kind) ∨ us = [] ∧ us' = []) :
    SameReading (statements finish (ts ++ us)) (statements finish' (ts' ++ us')) := by
  by_cases hopen : .unterminated ∈ ts.map (·.kind)
  · obtain ⟨e, e', he, he', hcause⟩ :=
      @statements_forks finish finish' _ _ (forks_of_kept h hopen us us')
    rw [he, he']
    exact congrArg SyntaxCause.message hcause
  · obtain ⟨rfl, rfl⟩ := hend.resolve_left hopen
    rw [eq_of_kept h hopen, List.append_nil]
    have hends : EndsAlike (fun s s' => s' = s) (fun _ _ => True) finish finish' :=
      ⟨hfinish, hfinish', trivial, fun _ _ _ => trivial⟩
    have halike : TokensAlike (fun s s' => s' = s) ts ts :=
      List.forall₂_same.2 fun t _ => ⟨rfl, rfl, rfl⟩
    rcases statements_alike hends halike with
      ⟨program, program', hok, hok', hprogram⟩ | ⟨e, e', he, he', hcause, -⟩
    · rw [hok, hok']
      exact eq_of_alike hprogram
    · rw [he, he']
      exact congrArg SyntaxCause.message hcause

/-- A text whose first tokens are of some kinds that are not its end is read as these tokens and
others. -/
theorem programFrom_of_append {c : Cursor} {ts us : List Token} (h : tokensFrom c = ts ++ us)
    (hts : .finish ∉ ts.map (·.kind)) : ∃ rest finish, us = rest ++ [finish] ∧
      finish.kind = .finish ∧ programFrom c = statements finish (ts ++ rest) := by
  obtain ⟨all, finish, htokens, hfinish, -⟩ := tokensFrom_concat c
  rcases List.eq_nil_or_concat us with rfl | ⟨rest, last, rfl⟩
  · rw [List.append_nil] at h
    rw [← h, htokens, List.map_append, List.map_singleton, hfinish] at hts
    exact absurd (List.mem_append_right _ List.mem_cons_self) hts
  · rw [List.concat_eq_append, ← List.append_assoc] at h
    obtain ⟨hall, hlast⟩ := List.append_inj' (h.symm.trans htokens) rfl
    rw [List.cons.injEq] at hlast
    refine ⟨rest, last, List.concat_eq_append, ?_, ?_⟩
    · rw [hlast.1, hfinish]
    · rw [hall, hlast.1]
      exact programFrom_of_tokens htokens

/-- The finish is the last token only. -/
theorem not_mem_dropLast_kinds (cs : List Char) : .finish ∉ (kinds cs).dropLast := by
  obtain ⟨ts, finish, htokens, -, -, hinside⟩ := tokensFrom_concat ⟨cs, Place.start⟩
  rw [kinds, htokens, List.map_append, List.map_singleton, List.dropLast_concat]
  intro hmem
  obtain ⟨t, ht, hfinish⟩ := List.mem_map.1 hmem
  exact (hinside t ht).1 hfinish

/-- Lines that only add tokens behind a string that lacks its end are inert. -/
theorem inert_of_kinds {source lines : String} {v : List Char} (hlines : lines.toList = '\n' :: v)
    {front more : List TokenKind} (h : kinds source.toList = front ++ [.finish])
    (h' : kinds (source.toList ++ '\n' :: v) = front ++ more)
    (hend : .unterminated ∈ front ∨ more = [.finish]) : Inert source (source ++ lines) := by
  have hfront : .finish ∉ front := by
    have hnot := not_mem_dropLast_kinds source.toList
    rwa [h, List.dropLast_concat] at hnot
  obtain ⟨ts, us, ts', us', htokens, htokens', hkinds, hkept⟩ :=
    tokensFrom_kept h h' hfront Place.start
  have hkinds' : ts'.map (·.kind) = front := (map_kind_of_kept hkept).trans hkinds
  obtain ⟨rest, finish, rfl, hfinish, hprogram⟩ :=
    programFrom_of_append htokens (by rwa [hkinds])
  obtain ⟨rest', finish', rfl, hfinish', hprogram'⟩ :=
    programFrom_of_append htokens' (by rwa [hkinds'])
  -- What stands behind the first tokens is the end in the source, and whatever the lines add.
  rw [← map_kind_tokensFrom _ Place.start, htokens, List.map_append, hkinds] at h
  rw [← map_kind_tokensFrom _ Place.start, htokens', List.map_append, hkinds'] at h'
  have hrest := List.append_cancel_left h
  have hmore := List.append_cancel_left h'
  have hnil : ∀ {us : List Token} {last : Token}, (us ++ [last]).map (·.kind) = [.finish] →
      us = [] := by
    intro us last hus
    have hlength := congrArg List.length hus
    simp only [List.length_map, List.length_append, List.length_singleton] at hlength
    exact List.length_eq_zero_iff.1 (by omega)
  rw [Inert, parseProgram_eq, parseProgram_eq, String.toList_append, hlines, hprogram, hprogram']
  apply sameReading_of_kept hfinish hfinish' hkept
  rw [hkinds]
  exact hend.imp_right fun hfinal => ⟨hnil hrest, hnil (hmore.trans hfinal)⟩

/-- Lines that are quiet in the state in which a source ends are inert behind it. -/
theorem inert_of_quiet {source lines : String} {v : List Char} (hlines : lines.toList = '\n' :: v)
    {state : EndState} (h : EndsIn source.toList state) (hquiet : state.Quiet v) :
    Inert source (source ++ lines) := by
  have hend : kinds [] = [.finish] := kinds_of_done rfl
  cases state with
  | code =>
    exact inert_of_kinds hlines (kinds_concat _) (h v) (.inr (kinds_of_done hquiet))
  | comment =>
    have hrest : kinds (trivia (.block false) v).rest = [.finish] := by
      rw [show (trivia (.block false) v).rest = [] from hquiet, hend]
    exact inert_of_kinds hlines (kinds_concat _) (h v) (.inr hrest)
  | string quote hquote =>
    obtain ⟨front, hkinds, hall⟩ := h
    obtain ⟨kind, hkind, hopen⟩ := hall v
    rw [hopen hquiet] at hkind
    have hsource : kinds source.toList = (front ++ [.unterminated]) ++ [.finish] := by
      rw [hkinds, List.append_assoc]
      rfl
    have hwhole : kinds (source.toList ++ '\n' :: v) =
        (front ++ [.unterminated]) ++ kinds (stringBody quote v).rest := by
      rw [hkind, List.append_assoc]
      rfl
    exact inert_of_kinds hlines hsource hwhole (.inl (by simp))

/-! ## Inert lines are quiet -/

/-- The tokens of a text are those up to a rest and those of the rest. -/
theorem Lexes.kinds_eq {cs rest : List Char} {front : List TokenKind} (h : Lexes cs front rest) :
    kinds cs = front ++ kinds rest := by
  obtain ⟨consumed, ts, -, hkinds, htokens⟩ := h.tokensFrom Place.start
  rw [kinds, htokens, List.map_append, hkinds, map_kind_tokensFrom]

/-- A reserved word is read where it ends. -/
theorem kinds_keyword (word : Keyword) {stop : Char} (hstop : isIdContinue stop = false)
    (hhyphen : stop ≠ '-') (cs : List Char) :
    kinds (word.spelling.toList ++ stop :: cs) = .keyword word :: kinds (stop :: cs) := by
  have hname : isIdentifier word.spelling = true := by cases word <;> decide
  have hkind : wordKind word.spelling = .keyword word := by cases word <;> decide
  have hword := (Lexes.word skips_nil hname hstop hhyphen (.done (stop :: cs))).kinds_eq
  rw [hkind] at hword
  exact hword

/-- What the scan passes over has no tokens. -/
theorem kinds_skip {gap : List Char} (h : Skips gap) (cs : List Char) :
    kinds (gap ++ cs) = kinds cs :=
  kinds_congr (h.rest cs)

/-- A keyword with a blank behind it is the first token. -/
theorem kinds_keyword_space (word : Keyword) (cs : List Char) :
    kinds (word.spelling.toList ++ ' ' :: cs) = .keyword word :: kinds cs := by
  rw [kinds_keyword word (by decide) (by decide), List.cons.injEq]
  exact ⟨rfl, kinds_skip (skips_space (by decide)) cs⟩

/-- The tokens behind the start of a block comment are those behind its end. -/
theorem kinds_block (v : List Char) :
    kinds ('/' :: '*' :: '\n' :: v) = kinds (trivia (.block false) v).rest := by
  apply kinds_congr
  rw [rest_trivia_rest]
  simp [trivia, isSpace, Cut.extend]

/-- A text without tokens is passed over. -/
theorem done_of_kinds {cs : List Char} (h : kinds cs = [.finish]) : (trivia .code cs).rest = [] := by
  by_contra hrest
  rw [kinds_of_rest hrest, List.cons.injEq] at h
  exact kinds_ne_nil _ h.2

/-- A source is read from tokens of the kinds it has. -/
theorem parseProgram_of_kinds {source : String} {front : List TokenKind}
    (h : kinds source.toList = front ++ [.finish]) : ∃ ts finish, ts.map (·.kind) = front ∧
      finish.kind = .finish ∧ parseProgram source = statements finish ts := by
  obtain ⟨ts, finish, htokens, hfinish, -⟩ := tokensFrom_concat ⟨source.toList, Place.start⟩
  rw [kinds, htokens, List.map_append, List.map_singleton, hfinish] at h
  exact ⟨ts, finish, List.append_cancel_right h, hfinish, programFrom_of_tokens htokens⟩

/-- Tokens that change nothing behind no token are none, or begin with a semicolon. -/
theorem kind_of_inert {blank blank' : String} {kind : TokenKind} {more : List TokenKind}
    (hblank : kinds blank.toList = [.finish])
    (hblank' : kinds blank'.toList = (kind :: more) ++ [.finish]) (h : Inert blank blank') :
    kind = .mark .semicolon := by
  obtain ⟨_, finish, hts, -, hparse⟩ := @parseProgram_of_kinds blank [] hblank
  obtain ⟨_, finish', hts', -, hparse'⟩ := parseProgram_of_kinds hblank'
  obtain ⟨t, ts, rfl, rfl, -⟩ := List.map_eq_cons_iff.1 hts'
  rw [List.map_eq_nil_iff.1 hts, statements] at hparse
  rw [Inert, hparse, hparse', statements_cons] at h
  split at h
  · assumption
  · split at h
    · exact h.elim
    · split at h
      · exact absurd h (List.cons_ne_nil _ _)
      · exact h.elim

/-- A statement that throws fails as its expression does. -/
theorem statements_throw {finish w : Token} {ts : List Token} {e : SyntaxError}
    (hw : w.kind = .keyword .throw) (h : expression finish ts = .error e) :
    statements finish (w :: ts) = .error e := by
  rw [statements_cons, if_neg (by simp [hw])]
  simp only [statement, action, hw, h]

/-- Tokens that change nothing, behind no token and behind a word that must go on, are none: behind no
token they can only be semicolons, and behind the word a semicolon has no business. -/
theorem eq_finish_of_inert {blank blank' word word' : String} {more : List TokenKind}
    (hblank : kinds blank.toList = [.finish])
    (hword : kinds word.toList = [.keyword .throw, .finish]) (hblank' : kinds blank'.toList = more)
    (hword' : kinds word'.toList = .keyword .throw :: more) (h : Inert blank blank')
    (h' : Inert word word') : more = [.finish] := by
  obtain ⟨front, hfront⟩ : ∃ front, more = front ++ [.finish] :=
    ⟨_, hblank'.symm.trans (kinds_concat blank'.toList)⟩
  cases front with
  | nil => exact hfront
  | cons kind front =>
    exfalso
    rw [hfront] at hblank' hword'
    have hsemicolon := kind_of_inert hblank hblank' h
    obtain ⟨_, finish, hts, hfinish, hparse⟩ := @parseProgram_of_kinds word [.keyword .throw] hword
    obtain ⟨_, finish', hts', -, hparse'⟩ :=
      @parseProgram_of_kinds word' (.keyword .throw :: kind :: front) hword'
    obtain ⟨w, _, rfl, hw, hnil⟩ := List.map_eq_cons_iff.1 hts
    obtain ⟨w', _, rfl, hw', hts'⟩ := List.map_eq_cons_iff.1 hts'
    obtain ⟨t, ts, rfl, ht, -⟩ := List.map_eq_cons_iff.1 hts'
    rw [List.map_eq_nil_iff.1 hnil, statements_throw hw rfl] at hparse
    have hrefused : expression finish' (t :: ts) = .error (unexpected finish' (t :: ts)) := by
      simp [expression, ht, hsemicolon]
    rw [statements_throw hw' hrefused] at hparse'
    rw [Inert, hparse, hparse'] at h'
    have hmessage : SyntaxCause.message (.unexpected kind) =
        SyntaxCause.message (.unexpected .finish) := by
      rw [← ht, ← hfinish]
      exact h'
    rw [hsemicolon] at hmessage
    exact absurd hmessage (by decide)

/-- A string goes on behind a backslash that takes the line break into it. -/
theorem kinds_escaped {quote : Char} (hquote : quote = '"' ∨ quote = '\'') (v : List Char) :
    kinds (quote :: '\\' :: '\n' :: v) =
      stringToken ((stringBody quote v).value.map ('\n' :: ·)) :: kinds (stringBody quote v).rest := by
  have hrest : (trivia .code (quote :: '\\' :: '\n' :: v)).rest = quote :: '\\' :: '\n' :: v := by
    rcases hquote with rfl | rfl
    · rw [trivia_code (by decide) (by decide)]
    · rw [trivia_code (by decide) (by decide)]
  have hlexeme : lexeme (quote :: '\\' :: '\n' :: v) =
      ⟨stringToken ((stringBody quote v).value.map ('\n' :: ·)),
        quote :: '\\' :: '\n' :: (stringBody quote v).taken, (stringBody quote v).rest⟩ := by
    rcases hquote with rfl | rfl
    · simp [lexeme, lexemeAt, Mark.ofChar?, Mark.all, Mark.char, stringBody, Cut.extend, Cut.map,
        unescape]
    · simp [lexeme, lexemeAt, Mark.ofChar?, Mark.all, Mark.char, stringBody, Cut.extend, Cut.map,
        unescape]
  rw [kinds_of_rest (by rw [hrest]; exact List.cons_ne_nil _ _), hrest, hlexeme]

/-- A binding that has no name fails at the token in its place. -/
theorem statements_var {finish w t : Token} {ts : List Token} (hw : w.kind = .keyword .var)
    (ht : ∀ name, t.kind ≠ .identifier name) :
    statements finish (w :: t :: ts) = .error ⟨.unexpected t.kind, t.span.place⟩ := by
  rw [statements_cons, if_neg (by simp [hw])]
  simp only [statement, action, hw, binding]
  rfl

/-- The message about a string tells whether it has an end. -/
theorem message_string_ne (text : String) : SyntaxCause.message (.unexpected (.string text)) ≠
    SyntaxCause.message (.unexpected .unterminated) := by
  intro h
  have hchars : "Unexpected ".toList ++ (TokenKind.string text).describe.toList =
      "Unterminated string literal".toList := by
    rw [← String.toList_append]
    exact congrArg String.toList h
  have hfront := congrArg (List.take 3) hchars
  rw [List.take_append_of_le_length (by decide)] at hfront
  exact absurd hfront (by decide)

/-- A string has no business behind the word of a binding, whether it ends or not; which it does, the
message says. -/
theorem not_inert_of_string {source whole text : String} {front : List TokenKind}
    (hsource : kinds source.toList = [.keyword .var, .unterminated] ++ [.finish])
    (hwhole : kinds whole.toList = (.keyword .var :: .string text :: front) ++ [.finish]) :
    ¬ Inert source whole := by
  obtain ⟨_, finish, hts, -, hparse⟩ := parseProgram_of_kinds hsource
  obtain ⟨_, finish', hts', -, hparse'⟩ := parseProgram_of_kinds hwhole
  obtain ⟨w, _, rfl, hw, hts⟩ := List.map_eq_cons_iff.1 hts
  obtain ⟨t, ts, rfl, ht, -⟩ := List.map_eq_cons_iff.1 hts
  obtain ⟨w', _, rfl, hw', hts'⟩ := List.map_eq_cons_iff.1 hts'
  obtain ⟨t', ts', rfl, ht', -⟩ := List.map_eq_cons_iff.1 hts'
  rw [statements_var hw (by simp [ht]), ht] at hparse
  rw [statements_var hw' (by simp [ht']), ht'] at hparse'
  rw [Inert, hparse, hparse']
  exact message_string_ne text

section

variable {lines : String} {v : List Char}

/-- Lines that are inert behind all sources that end in a state say nothing from it on, where a source
may be blank in that state and the lines are scanned from it as some other text is, `rest v`. -/
theorem eq_finish_of_state (hlines : lines.toList = '\n' :: v) (rest : List Char → List Char)
    (state : EndState) {blank : String} (hblank : kinds blank.toList = [.finish])
    (hstate : ∀ cs, EndsIn cs state ↔
      ∀ v, kinds (cs ++ '\n' :: v) = (kinds cs).dropLast ++ kinds (rest v))
    (hends : EndsIn blank.toList state)
    (h : ∀ source : String, EndsIn source.toList state → Inert source (source ++ lines)) :
    kinds (rest v) = [.finish] := by
  have hthrow : ∀ cs, kinds ("throw ".toList ++ cs) = [.keyword .throw] ++ kinds cs :=
    kinds_keyword_space .throw
  have hword : kinds ("throw " ++ blank).toList = [.keyword .throw, .finish] := by
    rw [String.toList_append, hthrow, hblank]
    rfl
  have hwordEnds : EndsIn ("throw " ++ blank).toList state := by
    rw [String.toList_append]
    exact hends.behind hthrow
  refine eq_finish_of_inert hblank hword ?_ ?_ (h blank hends) (h _ hwordEnds)
  · rw [String.toList_append, hlines, (hstate _).1 hends v, hblank]
    rfl
  · rw [String.toList_append, hlines, (hstate _).1 hwordEnds v, hword]
    rfl

/-- Lines that are inert behind all sources that end in code are quiet in code. -/
theorem quiet_code_of_inert (hlines : lines.toList = '\n' :: v)
    (h : ∀ source : String, EndsIn source.toList .code → Inert source (source ++ lines)) :
    EndState.code.Quiet v := by
  have hblank : kinds "".toList = [.finish] := by decide +kernel
  have hends : EndsIn "".toList .code := by
    intro v
    rw [hblank]
    exact kinds_skip skips_lineBreak v
  exact done_of_kinds (eq_finish_of_state hlines id .code hblank (fun _ => Iff.rfl) hends h)

/-- Lines that are inert behind all sources that end in a comment are quiet in a comment. -/
theorem quiet_comment_of_inert (hlines : lines.toList = '\n' :: v)
    (h : ∀ source : String, EndsIn source.toList .comment → Inert source (source ++ lines)) :
    EndState.comment.Quiet v := by
  have hblank : kinds "/*".toList = [.finish] := by decide +kernel
  have hends : EndsIn "/*".toList .comment := by
    intro v
    rw [hblank]
    exact kinds_block v
  have hmore := eq_finish_of_state hlines (fun v => (trivia (.block false) v).rest) .comment hblank
    (fun _ => Iff.rfl) hends h
  show (trivia (.block false) v).rest = []
  rw [← rest_trivia_rest]
  exact done_of_kinds hmore

/-- Lines that are inert behind all sources that end in a string are quiet in a string. -/
theorem quiet_string_of_inert (hlines : lines.toList = '\n' :: v) {quote : Char}
    (hquote : quote = '"' ∨ quote = '\'')
    (h : ∀ source : String, EndsIn source.toList (.string quote hquote) →
      Inert source (source ++ lines)) : (EndState.string quote hquote).Quiet v := by
  obtain ⟨source, hsource⟩ : ∃ source : String, source.toList = "var".toList ++ [' ', quote, '\\'] :=
    ⟨_, String.toList_ofList⟩
  have hvar : ∀ cs, kinds ("var".toList ++ ' ' :: cs) = .keyword .var :: kinds cs :=
    kinds_keyword_space .var
  have hkinds : kinds source.toList = [.keyword .var, .unterminated] ++ [.finish] := by
    have hopen : kinds [quote, '\\'] = [.unterminated, .finish] := by
      rcases hquote with rfl | rfl
      · decide +kernel
      · decide +kernel
    rw [hsource, hvar, hopen]
    rfl
  have hwhole : ∀ v, kinds (source.toList ++ '\n' :: v) = [.keyword .var] ++
      stringToken ((stringBody quote v).value.map ('\n' :: ·)) ::
        kinds (stringBody quote v).rest := by
    intro v
    rw [← kinds_escaped hquote, hsource, List.append_assoc]
    exact hvar _
  have hends : EndsIn source.toList (.string quote hquote) := by
    refine ⟨[.keyword .var], hkinds, fun v => ⟨_, hwhole v, fun hnone => ?_⟩⟩
    rw [hnone]
    rfl
  show (stringBody quote v).value = none
  cases htext : (stringBody quote v).value with
  | none => rfl
  | some text =>
    exfalso
    obtain ⟨front, hfront⟩ : ∃ front, kinds (stringBody quote v).rest = front ++ [.finish] :=
      ⟨_, kinds_concat _⟩
    have hwhole' : kinds (source ++ lines).toList =
        (.keyword .var :: .string (String.ofList ('\n' :: text)) :: front) ++ [.finish] := by
      rw [String.toList_append, hlines, hwhole, htext, hfront]
      rfl
    exact not_inert_of_string hkinds hwhole' (h source hends)

end

/-- Lines are inert behind all sources that end in a state just when they are quiet in that state. -/
theorem inert_iff_quiet {lines : String} {v : List Char} (hlines : lines.toList = '\n' :: v)
    (state : EndState) :
    (∀ source : String, EndsIn source.toList state → Inert source (source ++ lines)) ↔
      state.Quiet v := by
  refine ⟨fun h => ?_, fun hquiet _ hends => inert_of_quiet hlines hends hquiet⟩
  cases state with
  | code => exact quiet_code_of_inert hlines h
  | comment => exact quiet_comment_of_inert hlines h
  | string quote hquote => exact quiet_string_of_inert hlines hquote h

end ModuleLoader.Script
