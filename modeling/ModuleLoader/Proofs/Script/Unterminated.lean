import ModuleLoader.Proofs.Script.Grammar

/-!
# Behind an unterminated string

No reader goes on behind a string that lacks its end.  So of two lists of tokens that are the same up
to such a string, and go on behind it in different ways, every reader makes the same, or fails with
both for one cause.  Main statement: `statements_forks`, both lists are no program, for one cause.
-/

set_option autoImplicit false

namespace ModuleLoader.Script

/-- Two lists of tokens that are the same up to a string that lacks its end. -/
inductive Forks : List Token → List Token → Prop where
  | here {t t' : Token} {ts ts' : List Token} (kind : t.kind = .unterminated)
      (kind' : t'.kind = .unterminated) (newlineBefore : t'.newlineBefore = t.newlineBefore) :
      Forks (t :: ts) (t' :: ts')
  | behind (t : Token) {ts ts' : List Token} (h : Forks ts ts') : Forks (t :: ts) (t :: ts')

/-- Two results: both values, which are related, or both errors, of one cause. -/
abbrev ResultsFork {α : Type} : (α → α → Prop) → Except SyntaxError α → Except SyntaxError α → Prop :=
  ResultsAlike fun _ _ => True

/-- Two readings that come to one value and leave tokens that fork. -/
abbrev ReadingsFork {α : Type} : Reading α → Reading α → Prop :=
  ResultsFork fun r r' => r'.1 = r.1 ∧ Forks r.2 r'.2

section

variable {finish finish' : Token} {ts ts' : List Token} {α β : Type}

/-- Readings of the same fork where what is left does. -/
theorem ReadingsFork.of_ok {a : α} (h : Forks ts ts') : ReadingsFork (.ok (a, ts)) (.ok (a, ts')) :=
  .inl ⟨_, _, rfl, rfl, rfl, h⟩

/-- Errors with one cause are results that fork. -/
theorem ResultsFork.of_cause {R : α → α → Prop} {e e' : SyntaxError} (h : e'.cause = e.cause) :
    ResultsFork R (.error e) (.error e') :=
  .inr ⟨e, e', rfl, rfl, h, ⟨e.place, 0⟩, ⟨e'.place, 0⟩, trivial, rfl, rfl⟩

/-! ## The token looked at -/

/-- The current tokens have one kind. -/
theorem Forks.kind (h : Forks ts ts') (finish finish' : Token) :
    (current finish' ts').kind = (current finish ts).kind := by
  cases h with
  | here hkind hkind' => exact hkind'.trans hkind.symm
  | behind t _ => rfl

/-- The current tokens are both behind a line break, or both not. -/
theorem Forks.newlineBefore (h : Forks ts ts') (finish finish' : Token) :
    (current finish' ts').newlineBefore = (current finish ts).newlineBefore := by
  cases h with
  | here _ _ hbreak => exact hbreak
  | behind t _ => rfl

/-- The lists fork behind a token that is no string without an end. -/
theorem Forks.tail (h : Forks ts ts') {kind : TokenKind} (hkind : (current finish ts).kind = kind)
    (hne : kind ≠ .unterminated) : Forks ts.tail ts'.tail := by
  cases h with
  | here hopen => exact absurd (hkind.symm.trans hopen) hne
  | behind _ hrest => exact hrest

/-- The current tokens are unexpected for one cause. -/
theorem Forks.cause_unexpected (h : Forks ts ts') (finish finish' : Token) :
    (unexpected finish' ts').cause = (unexpected finish ts).cause :=
  congrArg SyntaxCause.unexpected (h.kind finish finish')

/-- A mark is taken from both, or missed in both. -/
theorem expectMark_forks (symbol : Mark) (h : Forks ts ts') :
    ResultsFork Forks (expectMark finish symbol ts) (expectMark finish' symbol ts') := by
  unfold expectMark
  rw [h.kind finish finish']
  split
  · rename_i hmark
    exact .inl ⟨_, _, rfl, rfl, h.tail hmark nofun⟩
  · exact .of_cause rfl

/-! ## Expressions -/

/-- Property names are read from both, or fail in both for one cause. -/
theorem pathTail_forks (h : Forks ts ts') :
    ReadingsFork (pathTail finish ts) (pathTail finish' ts') := by
  induction hn : ts.length using Nat.strongRecOn generalizing ts ts' with
  | ind n ih =>
  by_cases hdot : (current finish ts).kind = .mark .dot
  · rcases h with hopen | ⟨d, hrest⟩
    · exact absurd (hdot.symm.trans hopen) nofun
    · change d.kind = .mark .dot at hdot
      have hunexpected := hrest.cause_unexpected finish finish'
      rcases hrest with @⟨t, t', us, us', hopen, hopen', hbreak⟩ | @⟨t, us, us', hrest⟩
      · simp only [pathTail, hdot, hopen, hopen', if_true]
        exact .of_cause hunexpected
      · simp only [pathTail, hdot, if_true]
        split
        · have hlt : us.length < n := by
            rw [← hn, List.length_cons, List.length_cons]
            omega
          rcases ih _ hlt hrest rfl with
            ⟨⟨names, left⟩, ⟨_, left'⟩, hok, hok', rfl, hleft⟩ | ⟨e, e', he, he', hcause⟩
          · rw [hok, hok']
            exact .of_ok hleft
          · rw [he, he']
            exact .of_error hcause
        · exact .of_cause hunexpected
  · have hdot' : (current finish' ts').kind ≠ .mark .dot := by rwa [h.kind finish finish']
    rw [pathTail_of_ne_dot hdot, pathTail_of_ne_dot hdot']
    exact .of_ok h

/-- Paths are read from both, or fail in both for one cause. -/
theorem pathAfter_forks (head : String) (h : Forks ts ts') :
    ReadingsFork (pathAfter finish head ts) (pathAfter finish' head ts') := by
  unfold pathAfter
  rcases pathTail_forks h with
    ⟨⟨names, rest⟩, ⟨_, rest'⟩, hok, hok', rfl, hrest⟩ | ⟨e, e', he, he', hcause⟩
  · rw [hok, hok']
    exact .of_ok hrest
  · rw [he, he']
    exact .of_error hcause

/-- Expressions are read from both, or fail in both for one cause. -/
theorem expression_forks (h : Forks ts ts') :
    ReadingsFork (expression finish ts) (expression finish' ts') := by
  have hunexpected := h.cause_unexpected finish finish'
  rcases h with @⟨t, t', us, us', hopen, hopen', hbreak⟩ | @⟨t, us, us', hrest⟩
  · simp only [expression, hopen, hopen']
    exact .of_cause hunexpected
  · unfold expression
    simp only [hrest.kind finish finish']
    split
    · exact .of_ok hrest
    · split
      · rename_i hnumber
        exact .of_ok (hrest.tail hnumber (by simp))
      · exact .of_cause (hrest.cause_unexpected finish finish')
    · exact .of_ok hrest
    · exact .of_ok hrest
    · exact .of_ok hrest
    · exact .of_ok hrest
    · exact .of_ok hrest
    · rcases expectMark_forks .rightBrace hrest with
        ⟨left, left', hok, hok', hleft⟩ | ⟨e, e', he, he', hcause⟩
      · rw [hok, hok']
        exact .of_ok hleft
      · rw [he, he']
        exact .of_error hcause
    · rename_i name hname
      rcases pathAfter_forks name hrest with
        ⟨⟨path, left⟩, ⟨_, left'⟩, hok, hok', rfl, hleft⟩ | ⟨e, e', he, he', hcause⟩
      · rw [hok, hok']
        exact .of_ok hleft
      · rw [he, he']
        exact .of_error hcause
    · exact .of_cause hunexpected

/-! ## Calls -/

/-- Arguments are read from both, or fail in both for one cause. -/
theorem argumentList_forks (h : Forks ts ts') :
    ReadingsFork (argumentList finish ts) (argumentList finish' ts') := by
  induction hn : ts.length using Nat.strongRecOn generalizing ts ts' with
  | ind n ih =>
  rw [argumentList_eq, argumentList_eq]
  rcases expression_forks h with
    ⟨⟨argument, rest⟩, ⟨_, rest'⟩, hok, hok', rfl, hrest⟩ | ⟨e, e', he, he', hcause⟩
  · rw [hok, hok']
    simp only [hrest.kind finish finish']
    split
    · rename_i hcomma
      have hshorter := expression_shorter finish hok
      have hlt : rest.tail.length < n := by
        rw [List.length_tail]
        omega
      rcases ih _ hlt (hrest.tail hcomma (by simp)) rfl with
        ⟨⟨others, left⟩, ⟨_, left'⟩, hok, hok', rfl, hleft⟩ | ⟨e, e', he, he', hcause⟩
      · rw [hok, hok']
        exact .of_ok hleft
      · rw [he, he']
        exact .of_error hcause
    · rcases expectMark_forks .rightParen hrest with
        ⟨left, left', hok, hok', hleft⟩ | ⟨e, e', he, he', hcause⟩
      · rw [hok, hok']
        exact .of_ok hleft
      · rw [he, he']
        exact .of_error hcause
  · rw [he, he']
    exact .of_error hcause

/-- What stands between the parentheses of a call is read from both, or fails in both for one
cause. -/
theorem arguments_forks (h : Forks ts ts') :
    ReadingsFork (arguments finish ts) (arguments finish' ts') := by
  unfold arguments
  rw [h.kind finish finish']
  split
  · rename_i hright
    exact .of_ok (h.tail hright nofun)
  · exact argumentList_forks h

/-! ## Statements -/

/-- Bindings are read from both, or fail in both for one cause. -/
theorem binding_forks (h : Forks ts ts') :
    ReadingsFork (binding finish ts) (binding finish' ts') := by
  have hunexpected := h.cause_unexpected finish finish'
  rcases h with @⟨t, t', us, us', hopen, hopen', hbreak⟩ | @⟨t, us, us', hrest⟩
  · simp only [binding, hopen, hopen']
    exact .of_cause hunexpected
  · unfold binding
    simp only [hrest.kind finish finish']
    split
    · split
      · rename_i hequal
        rcases expression_forks (hrest.tail hequal (by simp)) with
          ⟨⟨init, left⟩, ⟨_, left'⟩, hok, hok', rfl, hleft⟩ | ⟨e, e', he, he', hcause⟩
        · rw [hok, hok']
          exact .of_ok hleft
        · rw [he, he']
          exact .of_error hcause
      · exact .of_ok hrest
    · exact .of_cause hunexpected

/-- Root declarations are read from both, or fail in both for one cause. -/
theorem rootDeclaration_forks (h : Forks ts ts') :
    ReadingsFork (rootDeclaration finish ts) (rootDeclaration finish' ts') := by
  unfold rootDeclaration
  rcases expectMark_forks .leftParen h with
    ⟨inner, inner', hok, hok', hinner⟩ | ⟨e, e', he, he', hcause⟩
  · rw [hok, hok']
    simp only [hinner.kind finish finish']
    split
    · rename_i path hpath
      rcases expectMark_forks .rightParen (hinner.tail hpath nofun) with
        ⟨left, left', hok, hok', hleft⟩ | ⟨e, e', he, he', hcause⟩
      · rw [hok, hok']
        simp only
        split
        · exact .of_ok hleft
        · exact .of_cause rfl
      · rw [he, he']
        exact .of_error hcause
    · exact .of_cause (hinner.cause_unexpected finish finish')
  · rw [he, he']
    exact .of_error hcause

/-- Statements that begin with a name are read from both, or fail in both for one cause. -/
theorem namedStatement_forks (name : String) (h : Forks ts ts') :
    ReadingsFork (namedStatement finish name ts) (namedStatement finish' name ts') := by
  unfold namedStatement
  rcases pathAfter_forks name h with
    ⟨⟨path, rest⟩, ⟨_, rest'⟩, hok, hok', rfl, hrest⟩ | ⟨e, e', he, he', hcause⟩
  · rw [hok, hok']
    simp only [hrest.kind finish finish',
      hrest.newlineBefore finish finish']
    split
    · rename_i hequal
      simp only [Bool.and_eq_true, decide_eq_true_eq] at hequal
      rcases expression_forks (hrest.tail hequal.1 (by simp)) with
        ⟨⟨value, left⟩, ⟨_, left'⟩, hok, hok', rfl, hleft⟩ | ⟨e, e', he, he', hcause⟩
      · rw [hok, hok']
        exact .of_ok hleft
      · rw [he, he']
        exact .of_error hcause
    · split
      · rename_i hleft
        simp only [Bool.and_eq_true, decide_eq_true_eq] at hleft
        rcases arguments_forks (hrest.tail hleft.1.1 (by simp)) with
          ⟨⟨args, left⟩, ⟨_, left'⟩, hok, hok', rfl, hleft⟩ | ⟨e, e', he, he', hcause⟩
        · rw [hok, hok']
          exact .of_ok hleft
        · rw [he, he']
          exact .of_error hcause
      · exact .of_ok hrest
  · rw [he, he']
    exact .of_error hcause

/-- An action that is an expression and what is made of it. -/
theorem actionOf_forks (f : Expression → Action) (h : Forks ts ts') : ReadingsFork
    (match expression finish ts with
      | .ok (value, rest) => .ok (f value, rest)
      | .error e => .error e)
    (match expression finish' ts' with
      | .ok (value, rest) => .ok (f value, rest)
      | .error e => .error e) := by
  rcases expression_forks h with
    ⟨⟨value, left⟩, ⟨_, left'⟩, hok, hok', rfl, hleft⟩ | ⟨e, e', he, he', hcause⟩
  · rw [hok, hok']
    exact .of_ok hleft
  · rw [he, he']
    exact .of_error hcause

/-- Actions are read from both, or fail in both for one cause. -/
theorem action_forks (h : Forks ts ts') : ReadingsFork (action finish ts) (action finish' ts') := by
  rcases h with @⟨t, t', us, us', hopen, hopen', hbreak⟩ | @⟨t, us, us', hrest⟩
  · simp only [action, hopen, hopen']
    exact actionOf_forks .expression (.here hopen hopen' hbreak)
  · unfold action
    simp only
    split
    · exact binding_forks hrest
    · exact rootDeclaration_forks hrest
    · exact actionOf_forks .throw hrest
    · exact namedStatement_forks _ hrest
    · exact actionOf_forks .expression (.behind t hrest)

/-- Ends of statements are read from both, or fail in both for one cause. -/
theorem statementEnd_forks (h : Forks ts ts') :
    ResultsFork Forks (statementEnd finish ts) (statementEnd finish' ts') := by
  have hunexpected := h.cause_unexpected finish finish'
  rcases h with @⟨t, t', us, us', hopen, hopen', hbreak⟩ | @⟨t, us, us', hrest⟩
  · simp only [statementEnd, hopen, hopen', hbreak, reduceCtorEq, if_false]
    split
    · exact .inl ⟨_, _, rfl, rfl, .here hopen hopen' hbreak⟩
    · exact .of_cause hunexpected
  · simp only [statementEnd]
    split
    · exact .inl ⟨_, _, rfl, rfl, hrest⟩
    · split
      · exact .inl ⟨_, _, rfl, rfl, .behind t hrest⟩
      · exact .of_cause hunexpected

/-- Statements are read from both, or fail in both for one cause. -/
theorem statement_forks (h : Forks ts ts') :
    ResultsFork (fun r r' => Forks r.2 r'.2) (statement finish ts) (statement finish' ts') := by
  unfold statement
  rcases action_forks h with
    ⟨⟨what, rest⟩, ⟨_, rest'⟩, hok, hok', rfl, hrest⟩ | ⟨e, e', he, he', hcause⟩
  · rw [hok, hok']
    simp only
    rcases statementEnd_forks hrest with
      ⟨left, left', hok, hok', hleft⟩ | ⟨e, e', he, he', hcause⟩
    · rw [hok, hok']
      exact .inl ⟨_, _, rfl, rfl, hleft⟩
    · rw [he, he']
      exact .of_error hcause
  · rw [he, he']
    exact .of_error hcause

/-- Two lists of tokens that are the same up to a string that lacks its end are no programs, for one
cause. -/
theorem statements_forks (h : Forks ts ts') : ∃ e e', statements finish ts = .error e ∧
    statements finish' ts' = .error e' ∧ e'.cause = e.cause := by
  induction hn : ts.length using Nat.strongRecOn generalizing ts ts' with
  | ind n ih =>
  have hstatement := @statement_forks finish finish' _ _ h
  rcases h with @⟨t, t', us, us', hopen, hopen', hbreak⟩ | @⟨t, us, us', hrest⟩
  · rcases hstatement with ⟨r, r', hok, hok', hleft⟩ | ⟨e, e', he, he', hcause, -⟩
    · simp only [statement, action, hopen, expression] at hok
      cases hok
    · rw [statements_cons, statements_cons, hopen, hopen', he, he']
      exact ⟨e, e', rfl, rfl, hcause⟩
  · rw [statements_cons, statements_cons]
    split
    · exact ih _ (by rw [← hn, List.length_cons]; omega) hrest rfl
    · rcases hstatement with ⟨⟨s, left⟩, ⟨s', left'⟩, hok, hok', hleft⟩ | ⟨e, e', he, he', hcause, -⟩
      · have hshorter := statement_shorter finish hok
        obtain ⟨e, e', he, he', hcause⟩ := ih left.length (by omega) hleft rfl
        rw [hok, hok']
        simp only [he, he']
        exact ⟨e, e', rfl, rfl, hcause⟩
      · rw [he, he']
        exact ⟨e, e', rfl, rfl, hcause⟩

end

end ModuleLoader.Script
