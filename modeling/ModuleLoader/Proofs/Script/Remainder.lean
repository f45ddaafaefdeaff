import ModuleLoader.Proofs.Script.Scanning

/-!
# What a reader leaves

A reader takes some tokens from the front of those it is given and leaves the others.  So every
statement of a program is read from the tokens that follow those of the statements before it, and
these are the tokens of the source from some place on.  Main statements: `suffix_of_statement`, and
`statement_of_mem`, the statements of a program are read one by one from rests of its source.
-/

set_option autoImplicit false

namespace ModuleLoader.Script

/-! ## Readers -/

section

variable {finish : Token} {ts rest : List Token}

/-- What is left behind a mark is an end of the tokens. -/
theorem suffix_of_expectMark {symbol : Mark} (h : expectMark finish symbol ts = .ok rest) :
    rest <:+ ts := by
  unfold expectMark at h
  split at h
  · cases h
    exact List.tail_suffix ts
  · cases h

/-- What is left behind property names is an end of the tokens. -/
theorem suffix_of_pathTail {names : List String} (h : pathTail finish ts = .ok (names, rest)) :
    rest <:+ ts := by
  fun_induction pathTail finish ts generalizing names rest with
  | case1 =>
    cases h
    exact List.suffix_rfl
  | case2 => cases h
  | case3 =>
    cases h
    exact List.suffix_rfl
  | case4 d t ts _ name _ names' rest' hrec ih =>
    cases h
    exact (ih hrec).trans ((List.suffix_cons t ts).trans (List.suffix_cons d _))
  | case5 => cases h
  | case6 => cases h
  | case7 =>
    cases h
    exact List.suffix_rfl

/-- What is left behind a path is an end of the tokens. -/
theorem suffix_of_pathAfter {head : String} {path : Path}
    (h : pathAfter finish head ts = .ok (path, rest)) : rest <:+ ts := by
  unfold pathAfter at h
  split at h
  · rename_i hp
    cases h
    exact suffix_of_pathTail hp
  · cases h

/-- What is left behind an expression is an end of the tokens. -/
theorem suffix_of_expression {e : Expression} (h : expression finish ts = .ok (e, rest)) :
    rest <:+ ts := by
  cases ts with
  | nil => cases h
  | cons t ts =>
    -- Whatever token begins the expression, what is left comes from the tokens behind it.
    suffices rest <:+ ts from this.trans (List.suffix_cons t ts)
    simp only [expression] at h
    split at h
    · cases h
      exact List.suffix_rfl
    · split at h
      · cases h
        exact List.tail_suffix ts
      · cases h
    · cases h
      exact List.suffix_rfl
    · cases h
      exact List.suffix_rfl
    · cases h
      exact List.suffix_rfl
    · cases h
      exact List.suffix_rfl
    · cases h
      exact List.suffix_rfl
    · split at h
      · rename_i hm
        cases h
        exact suffix_of_expectMark hm
      · cases h
    · split at h
      · rename_i hp
        cases h
        exact suffix_of_pathAfter hp
      · cases h
    · cases h

/-- What is left behind arguments is an end of the tokens. -/
theorem suffix_of_argumentList {args : List Expression}
    (h : argumentList finish ts = .ok (args, rest)) : rest <:+ ts := by
  fun_induction argumentList finish ts generalizing args rest with
  | case1 => cases h
  | case2 ts argument next he _ others rest' hrec ih =>
    cases h
    exact (ih hrec).trans ((List.tail_suffix next).trans (suffix_of_expression he))
  | case3 => cases h
  | case4 ts argument next he _ rest' hm =>
    cases h
    exact (suffix_of_expectMark hm).trans (suffix_of_expression he)
  | case5 => cases h

/-- What is left behind the parentheses of a call is an end of the tokens. -/
theorem suffix_of_arguments {args : List Expression}
    (h : arguments finish ts = .ok (args, rest)) : rest <:+ ts := by
  unfold arguments at h
  split at h
  · cases h
    exact List.tail_suffix ts
  · exact suffix_of_argumentList h

/-- What is left behind a binding is an end of the tokens. -/
theorem suffix_of_binding {what : Action} (h : binding finish ts = .ok (what, rest)) :
    rest <:+ ts := by
  cases ts with
  | nil => cases h
  | cons t ts =>
    suffices rest <:+ ts from this.trans (List.suffix_cons t ts)
    simp only [binding] at h
    split at h
    · split at h
      · split at h
        · rename_i he
          cases h
          exact (suffix_of_expression he).trans (List.tail_suffix ts)
        · cases h
      · cases h
        exact List.suffix_rfl
    · cases h

/-- A root declaration is a parenthesis, a path and a parenthesis. -/
theorem eq_of_rootDeclaration (hfinish : finish.kind = .finish) {what : Action}
    (h : rootDeclaration finish ts = .ok (what, rest)) : ∃ l p r path, ts = l :: p :: r :: rest ∧
      l.kind = .mark .leftParen ∧ p.kind = .string path ∧ r.kind = .mark .rightParen ∧
      what = .declareRoot path ∧ isDeclarable path = true := by
  -- The end of the source is none of the three tokens, so each is there.
  have hthere : ∀ (us : List Token) (kind : TokenKind), (current finish us).kind = kind →
      kind ≠ .finish → ∃ t, us = t :: us.tail ∧ t.kind = kind := by
    intro us kind hkind hne
    cases us with
    | nil => exact absurd (hkind.symm.trans hfinish) hne
    | cons t us => exact ⟨t, rfl, hkind⟩
  have hmark : ∀ (symbol : Mark) (us left : List Token), expectMark finish symbol us = .ok left →
      ∃ t, us = t :: left ∧ t.kind = .mark symbol := by
    intro symbol us left hus
    unfold expectMark at hus
    split at hus
    · rename_i hkind
      cases hus
      exact hthere us _ hkind nofun
    · cases hus
  unfold rootDeclaration at h
  split at h
  · cases h
  · rename_i inner hl
    obtain ⟨l, rfl, hlkind⟩ := hmark _ _ _ hl
    split at h
    · rename_i path hp
      obtain ⟨p, hinner, hpkind⟩ := hthere inner _ hp nofun
      split at h
      · cases h
      · rename_i left hr
        obtain ⟨r, hleft, hrkind⟩ := hmark _ _ _ hr
        split at h
        · rename_i hdeclarable
          cases h
          refine ⟨l, p, r, path, ?_, hlkind, hpkind, hrkind, rfl, hdeclarable⟩
          rw [hinner, hleft]
        · cases h
    · cases h

/-- What is left behind a root declaration is an end of the tokens. -/
theorem suffix_of_rootDeclaration (hfinish : finish.kind = .finish) {what : Action}
    (h : rootDeclaration finish ts = .ok (what, rest)) : rest <:+ ts := by
  obtain ⟨l, p, r, path, rfl, -⟩ := eq_of_rootDeclaration hfinish h
  exact ⟨[l, p, r], rfl⟩

/-- What is left behind a statement that begins with a name is an end of the tokens. -/
theorem suffix_of_namedStatement {name : String} {what : Action}
    (h : namedStatement finish name ts = .ok (what, rest)) : rest <:+ ts := by
  unfold namedStatement at h
  split at h
  · cases h
  · rename_i path left hp
    have hleft := suffix_of_pathAfter hp
    have htail := (List.tail_suffix left).trans hleft
    simp only at h
    split at h
    · split at h
      · rename_i he
        cases h
        exact (suffix_of_expression he).trans htail
      · cases h
    · split at h
      · split at h
        · rename_i ha
          cases h
          exact (suffix_of_arguments ha).trans htail
        · cases h
      · cases h
        exact hleft

/-- What is left behind an action is an end of the tokens. -/
theorem suffix_of_action (hfinish : finish.kind = .finish) {what : Action}
    (h : action finish ts = .ok (what, rest)) : rest <:+ ts := by
  cases ts with
  | nil => cases h
  | cons t ts =>
    have hbehind : ts <:+ t :: ts := List.suffix_cons t ts
    simp only [action] at h
    split at h
    · exact (suffix_of_binding h).trans hbehind
    · exact (suffix_of_rootDeclaration hfinish h).trans hbehind
    · split at h
      · rename_i he
        cases h
        exact (suffix_of_expression he).trans hbehind
      · cases h
    · exact (suffix_of_namedStatement h).trans hbehind
    · split at h
      · rename_i he
        cases h
        exact suffix_of_expression he
      · cases h

/-- What is left behind the end of a statement is an end of the tokens. -/
theorem suffix_of_statementEnd (h : statementEnd finish ts = .ok rest) : rest <:+ ts := by
  cases ts with
  | nil =>
    cases h
    exact List.suffix_rfl
  | cons t us =>
    simp only [statementEnd] at h
    split at h
    · cases h
      exact List.suffix_cons t rest
    · split at h
      · cases h
        exact List.suffix_rfl
      · cases h

/-- What is left behind a statement is an end of the tokens. -/
theorem suffix_of_statement (hfinish : finish.kind = .finish) {s : Statement}
    (h : statement finish ts = .ok (s, rest)) : rest <:+ ts := by
  unfold statement at h
  split at h
  · cases h
  · rename_i ha
    split at h
    · cases h
    · rename_i he
      cases h
      exact (suffix_of_statementEnd he).trans (suffix_of_action hfinish ha)

/-! ## Programs -/

/-- Every statement of a program is read from some of its last tokens. -/
theorem statement_of_mem (hfinish : finish.kind = .finish) {program : Program}
    (h : statements finish ts = .ok program) {s : Statement} (hs : s ∈ program) :
    ∃ us left, us <:+ ts ∧ statement finish us = .ok (s, left) := by
  induction hn : ts.length using Nat.strongRecOn generalizing ts program with
  | ind n ih =>
  cases ts with
  | nil =>
    rw [statements] at h
    cases h
    cases hs
  | cons t ts =>
    rw [statements_cons] at h
    rw [List.length_cons] at hn
    split at h
    · obtain ⟨us, left, hus, hstatement⟩ := ih ts.length (by omega) h hs rfl
      exact ⟨us, left, hus.trans (List.suffix_cons t ts), hstatement⟩
    · split at h
      · cases h
      · rename_i first next hfirst
        split at h
        · rename_i others hothers
          cases h
          rcases List.mem_cons.1 hs with rfl | hs
          · exact ⟨t :: ts, next, List.suffix_rfl, hfirst⟩
          · have hshorter := statement_shorter finish hfirst
            rw [List.length_cons] at hshorter
            obtain ⟨us, left, hus, hstatement⟩ := ih next.length (by omega) hothers hs rfl
            exact ⟨us, left, hus.trans (suffix_of_statement hfinish hfirst), hstatement⟩
        · cases h

/-- A statement that declares a root is read from the word, a parenthesis, a path and a
parenthesis, and stands where the word stands. -/
theorem eq_of_statement_declareRoot (hfinish : finish.kind = .finish) {s : Statement} {path : String}
    (h : statement finish ts = .ok (s, rest)) (hs : s.action = .declareRoot path) :
    ∃ d l p r left, ts = d :: l :: p :: r :: left ∧ d.kind = .declareRoot ∧
      l.kind = .mark .leftParen ∧ p.kind = .string path ∧ r.kind = .mark .rightParen ∧
      isDeclarable path = true ∧ s.span = d.span := by
  unfold statement at h
  split at h
  · cases h
  · rename_i what left ha
    split at h
    · cases h
    · cases h
      simp only at hs
      subst hs
      cases ts with
      | nil => cases ha
      | cons d ts =>
        simp only [action] at ha
        split at ha
        · unfold binding at ha
          split at ha
          · cases ha
          · split at ha
            · split at ha
              · split at ha <;> cases ha
              · cases ha
            · cases ha
        · rename_i hd
          obtain ⟨l, p, r, path', rfl, hl, hp, hr, hwhat, hdeclarable⟩ :=
            eq_of_rootDeclaration hfinish ha
          cases hwhat
          exact ⟨d, l, p, r, left, rfl, hd, hl, hp, hr, hdeclarable, rfl⟩
        · split at ha <;> cases ha
        · unfold namedStatement at ha
          split at ha
          · cases ha
          · simp only at ha
            split at ha
            · split at ha <;> cases ha
            · split at ha
              · split at ha <;> cases ha
              · cases ha
        · split at ha <;> cases ha

end

/-! ## Sources -/

/-- Blanks and comments before a token are passed over whatever follows them. -/
theorem skips_taken {mode : TriviaMode} {cs : List Char} (h : (trivia mode cs).rest ≠ [])
    (v : List Char) : trivia mode ((trivia mode cs).taken ++ v) =
      (trivia .code v).extend (trivia mode cs).taken := by
  fun_induction trivia mode cs with
  | case1 => exact absurd rfl h
  | case2 c r ih =>
    simp only [Cut.extend, List.cons_append, List.nil_append, trivia] at ih ⊢
    rw [ih h]
  | case3 star c r ih =>
    simp only [Cut.extend, List.cons_append, List.nil_append, trivia] at ih ⊢
    rw [ih h]
  | case4 => exact absurd rfl h
  | case5 c hspace => rfl
  | case6 c d r hspace ih =>
    simp only [Cut.extend, List.cons_append, List.nil_append] at ih ⊢
    have hskip := skips_space hspace ((trivia .code (d :: r)).taken ++ v)
    rw [List.singleton_append] at hskip
    rw [hskip, ih h]
    rfl
  | case7 c d r hspace hline ih =>
    simp only [Cut.extend, List.cons_append, List.nil_append, trivia, hspace, hline, if_true] at ih ⊢
    rw [ih h]
    rfl
  | case8 c d r hspace hline hblock ih =>
    simp only [Cut.extend, List.cons_append, List.nil_append, trivia, hspace, hline, hblock,
      if_true] at ih ⊢
    rw [ih h]
    rfl
  | case9 => rfl

/-- A token that is not the last one stands behind characters that are passed over, and the other
tokens are those behind it. -/
theorem tokensFrom_cut {c : Cursor} {t : Token} {ts : List Token} (h : tokensFrom c = t :: ts)
    (hts : ts ≠ []) : ∃ gap cs c', Skips gap ∧ (lexeme cs).value = t.kind ∧
      c.rest = gap ++ ((lexeme cs).taken ++ c'.rest) ∧ t.span.place = c.place.after gap ∧
      c'.place = c.place.after (gap ++ (lexeme cs).taken) ∧ tokensFrom c' = ts := by
  rw [tokensFrom_cons, List.cons.injEq] at h
  obtain ⟨rfl, h⟩ := h
  split at h
  · exact absurd h.symm hts
  · rename_i hmore
    have hrest : (trivia .code c.rest).rest ≠ [] := fun hnil => hmore (value_lexeme_eq_finish.2 hnil)
    exact ⟨_, _, (nextToken c).2, skips_taken hrest, rfl, rest_eq_nextToken c, rfl,
      place_nextToken c, h⟩

/-- Some last tokens of a text are the tokens of a rest of it. -/
theorem tokensFrom_of_suffix {c : Cursor} {ts us : List Token} {finish : Token}
    (h : tokensFrom c = ts ++ [finish]) (hus : us <:+ ts) : ∃ before rest,
      c.rest = before ++ rest ∧ tokensFrom ⟨rest, c.place.after before⟩ = us ++ [finish] := by
  induction ts generalizing c with
  | nil =>
    rw [List.suffix_nil.1 hus]
    exact ⟨[], c.rest, rfl, h⟩
  | cons t ts ih =>
    rcases List.suffix_cons_iff.1 hus with rfl | hus
    · exact ⟨[], c.rest, rfl, h⟩
    · obtain ⟨gap, cs, c', -, -, hwhole, -, hplace, htail⟩ := tokensFrom_cut h (by simp)
      obtain ⟨before, rest, hbefore, htokens⟩ := ih htail hus
      refine ⟨gap ++ ((lexeme cs).taken ++ before), rest, ?_, ?_⟩
      · rw [hwhole, hbefore, List.append_assoc, List.append_assoc]
      · rw [hplace, ← Place.after_append, List.append_assoc] at htokens
        exact htokens

end ModuleLoader.Script
