import Mathlib.Data.List.Forall2
import ModuleLoader.Script.Parse

/-!
# Reading does not depend on where tokens stand

What the reader makes of a list of tokens depends on their kinds and on the line breaks between
them; their spans only turn up again as the spans of statements and as the places of errors.  So
for two lists of tokens that are alike but for a relation of their spans, every reading function
comes to results that are alike but for the same relation.  Throughout, `ρ` relates the spans of
tokens and so those of statements, and the weaker `σ` also those of the ends of the two sources, where
errors may stand as well.  Main statements: `statements_alike`, for whole programs, and
`statements_newlineBefore`, a line break before the first token means nothing.
-/

set_option autoImplicit false

namespace ModuleLoader.Script

/-! ## Alike -/

/-- Two tokens that say the same, with related spans. -/
structure Token.Alike (σ : Span → Span → Prop) (t t' : Token) : Prop where
  kind : t'.kind = t.kind
  newlineBefore : t'.newlineBefore = t.newlineBefore
  span : σ t.span t'.span

/-- Two lists of tokens that say the same, with related spans. -/
abbrev TokensAlike (ρ : Span → Span → Prop) : List Token → List Token → Prop :=
  List.Forall₂ (Token.Alike ρ)

/-- The ends of two sources.  Their spans are related as those of errors are, and so are any spans
that are related as those of tokens are. -/
structure EndsAlike (ρ σ : Span → Span → Prop) (finish finish' : Token) : Prop where
  kind : finish.kind = .finish
  kind' : finish'.kind = .finish
  span : σ finish.span finish'.span
  le : ∀ s s', ρ s s' → σ s s'

/-- Two errors of one cause, found at tokens with related spans. -/
structure SyntaxError.Alike (σ : Span → Span → Prop) (e e' : SyntaxError) : Prop where
  cause : e'.cause = e.cause
  place : ∃ s s', σ s s' ∧ e.place = s.place ∧ e'.place = s'.place

/-- Two statements that do the same, with related spans. -/
structure Statement.Alike (σ : Span → Span → Prop) (s s' : Statement) : Prop where
  action : s'.action = s.action
  span : σ s.span s'.span

/-- Two results: both values, which are related, or both errors, which are alike. -/
def ResultsAlike {α : Type} (σ : Span → Span → Prop) (R : α → α → Prop)
    (r r' : Except SyntaxError α) : Prop :=
  (∃ a a', r = .ok a ∧ r' = .ok a' ∧ R a a') ∨
    ∃ e e', r = .error e ∧ r' = .error e' ∧ e.Alike σ e'

/-- Two readings that come to one value and leave tokens that are alike. -/
def ReadingsAlike {α : Type} (ρ σ : Span → Span → Prop) : Reading α → Reading α → Prop :=
  ResultsAlike σ fun r r' => r'.1 = r.1 ∧ TokensAlike ρ r.2 r'.2

section

variable {ρ σ : Span → Span → Prop} {finish finish' : Token} {ts ts' : List Token} {α β : Type}

/-- Readings of the same are alike where what is left is. -/
theorem ReadingsAlike.of_ok {a : α} (h : TokensAlike ρ ts ts') :
    ReadingsAlike ρ σ (.ok (a, ts)) (.ok (a, ts')) := .inl ⟨_, _, rfl, rfl, rfl, h⟩

/-- Errors that are alike are results that are. -/
theorem ResultsAlike.of_error {R : α → α → Prop} {e e' : SyntaxError} (h : e.Alike σ e') :
    ResultsAlike σ R (.error e) (.error e') := .inr ⟨e, e', rfl, rfl, h⟩

/-- Tokens that are alike stay so without the first. -/
theorem TokensAlike.tail (h : TokensAlike ρ ts ts') : TokensAlike ρ ts.tail ts'.tail := by
  cases h with
  | nil => exact .nil
  | cons _ hrest => exact hrest

/-! ## The token looked at -/

/-- The current tokens have one kind. -/
theorem kind_current (hf : EndsAlike ρ σ finish finish') (h : TokensAlike ρ ts ts') :
    (current finish' ts').kind = (current finish ts).kind := by
  cases h with
  | nil =>
    show finish'.kind = finish.kind
    rw [hf.kind, hf.kind']
  | cons ht _ => exact ht.kind

/-- The spans of the current tokens are related as those of the ends are. -/
theorem span_current (hf : EndsAlike ρ σ finish finish') (h : TokensAlike ρ ts ts') :
    σ (current finish ts).span (current finish' ts').span := by
  cases h with
  | nil => exact hf.span
  | cons ht _ => exact hf.le _ _ ht.span

/-- Whether a line break precedes the token looked at is the same, unless it is the end. -/
theorem newlineBefore_current (h : TokensAlike ρ ts ts') (hf : EndsAlike ρ σ finish finish')
    (hk : (current finish ts).kind ≠ .finish) :
    (current finish' ts').newlineBefore = (current finish ts).newlineBefore := by
  cases h with
  | nil => exact absurd hf.kind hk
  | cons ht _ => exact ht.newlineBefore

/-- Errors with one cause at the current tokens are alike. -/
theorem error_alike (hf : EndsAlike ρ σ finish finish') (h : TokensAlike ρ ts ts')
    {cause cause' : SyntaxCause} (hc : cause' = cause) :
    SyntaxError.Alike σ ⟨cause, (current finish ts).span.place⟩
      ⟨cause', (current finish' ts').span.place⟩ :=
  ⟨hc, _, _, span_current hf h, rfl, rfl⟩

/-- The current tokens are unexpected alike. -/
theorem unexpected_alike (hf : EndsAlike ρ σ finish finish') (h : TokensAlike ρ ts ts') :
    (unexpected finish ts).Alike σ (unexpected finish' ts') := by
  apply error_alike hf h
  rw [kind_current hf h]

/-- A mark is taken from both or refused in both. -/
theorem expectMark_alike (hf : EndsAlike ρ σ finish finish') (symbol : Mark)
    (h : TokensAlike ρ ts ts') :
    ResultsAlike σ (TokensAlike ρ) (expectMark finish symbol ts)
      (expectMark finish' symbol ts') := by
  unfold expectMark
  rw [kind_current hf h]
  split
  · exact .inl ⟨_, _, rfl, rfl, h.tail⟩
  · exact .of_error (error_alike hf h rfl)

/-! ## Expressions -/

/-- Property names are read alike. -/
theorem pathTail_alike (hf : EndsAlike ρ σ finish finish') (h : TokensAlike ρ ts ts') :
    ReadingsAlike ρ σ (pathTail finish ts) (pathTail finish' ts') := by
  fun_induction pathTail finish ts generalizing ts' with
  | case1 =>
    cases h
    exact .of_ok .nil
  | case2 d hdot =>
    rcases h with _ | ⟨hd, _ | _⟩
    simp only [pathTail, hd.kind, hdot, if_true]
    exact .of_error (unexpected_alike hf .nil)
  | case3 d hdot =>
    rcases h with _ | ⟨hd, _ | _⟩
    simp only [pathTail, hd.kind, hdot, if_false]
    exact .of_ok (.cons hd .nil)
  | case4 d t ts hdot name hname names rest hrec ih =>
    rcases h with _ | ⟨hd, _ | ⟨ht, hts⟩⟩
    simp only [pathTail, hd.kind, hdot, if_true, ht.kind, hname]
    rcases ih hts with ⟨_, ⟨_, rest'⟩, hok, hok', rfl, hrest⟩ | ⟨e, e', he, -, -⟩
    · rw [hrec] at hok
      cases hok
      rw [hok']
      exact .of_ok hrest
    · rw [hrec] at he
      cases he
  | case5 d t ts hdot name hname e hrec ih =>
    rcases h with _ | ⟨hd, _ | ⟨ht, hts⟩⟩
    simp only [pathTail, hd.kind, hdot, if_true, ht.kind, hname]
    rcases ih hts with ⟨_, _, hok, -, -⟩ | ⟨_, e', he, he', halike⟩
    · rw [hrec] at hok
      cases hok
    · rw [hrec] at he
      cases he
      rw [he']
      exact .of_error halike
  | case6 d t ts hdot hother =>
    rcases h with _ | ⟨hd, _ | ⟨ht, hts⟩⟩
    simp only [pathTail, hd.kind, hdot, if_true, ht.kind]
    exact .of_error (unexpected_alike hf (.cons ht hts))
  | case7 d t ts hdot =>
    rcases h with _ | ⟨hd, _ | ⟨ht, hts⟩⟩
    simp only [pathTail, hd.kind, hdot, if_false]
    exact .of_ok (.cons hd (.cons ht hts))

/-- Paths are read alike. -/
theorem pathAfter_alike (hf : EndsAlike ρ σ finish finish') (head : String)
    (h : TokensAlike ρ ts ts') :
    ReadingsAlike ρ σ (pathAfter finish head ts) (pathAfter finish' head ts') := by
  unfold pathAfter
  rcases pathTail_alike hf h with
    ⟨⟨names, rest⟩, ⟨_, rest'⟩, hok, hok', rfl, hrest⟩ | ⟨e, e', he, he', halike⟩
  · rw [hok, hok']
    exact .of_ok hrest
  · rw [he, he']
    exact .of_error halike

/-- Expressions are read alike. -/
theorem expression_alike (hf : EndsAlike ρ σ finish finish') (h : TokensAlike ρ ts ts') :
    ReadingsAlike ρ σ (expression finish ts) (expression finish' ts') := by
  cases h with
  | nil => exact .of_error (unexpected_alike hf .nil)
  | @cons t t' ts ts' ht hts =>
    have hunexpected := unexpected_alike hf (.cons ht hts)
    unfold expression
    simp only [ht.kind, kind_current hf hts]
    split
    · exact .of_ok hts
    · split
      · exact .of_ok (TokensAlike.tail hts)
      · exact .of_error (unexpected_alike hf hts)
    · exact .of_ok hts
    · exact .of_ok hts
    · exact .of_ok hts
    · exact .of_ok hts
    · exact .of_ok hts
    · rcases expectMark_alike hf .rightBrace hts with
        ⟨rest, rest', hok, hok', hrest⟩ | ⟨e, e', he, he', halike⟩
      · rw [hok, hok']
        exact .of_ok hrest
      · rw [he, he']
        exact .of_error halike
    · rename_i name hname
      rcases pathAfter_alike hf name hts with
        ⟨⟨path, rest⟩, ⟨_, rest'⟩, hok, hok', rfl, hrest⟩ | ⟨e, e', he, he', halike⟩
      · rw [hok, hok']
        exact .of_ok hrest
      · rw [he, he']
        exact .of_error halike
    · exact .of_error hunexpected

/-! ## Calls -/

/-- Arguments are an expression and, behind a comma, more arguments, or else the closing
parenthesis. -/
theorem argumentList_eq (finish : Token) (ts : List Token) :
    argumentList finish ts =
      match expression finish ts with
      | .error e => .error e
      | .ok (argument, rest) =>
        if (current finish rest).kind = .mark .comma then
          match argumentList finish rest.tail with
          | .ok (others, rest') => .ok (argument :: others, rest')
          | .error e => .error e
        else
          match expectMark finish .rightParen rest with
          | .ok rest' => .ok ([argument], rest')
          | .error e => .error e := by
  rw [argumentList]
  cases expression finish ts with
  | error e => rfl
  | ok read => rfl

/-- Arguments are read alike. -/
theorem argumentList_alike (hf : EndsAlike ρ σ finish finish') (h : TokensAlike ρ ts ts') :
    ReadingsAlike ρ σ (argumentList finish ts) (argumentList finish' ts') := by
  induction hn : ts.length using Nat.strongRecOn generalizing ts ts' with
  | ind n ih =>
  rw [argumentList_eq, argumentList_eq]
  rcases expression_alike hf h with
    ⟨⟨argument, rest⟩, ⟨_, rest'⟩, hok, hok', rfl, hrest⟩ | ⟨e, e', he, he', halike⟩
  · rw [hok, hok']
    simp only [kind_current hf hrest]
    split
    · have hshorter := expression_shorter finish hok
      have hlt : rest.tail.length < n := by
        rw [List.length_tail]
        omega
      rcases ih _ hlt hrest.tail rfl with
        ⟨⟨others, left⟩, ⟨_, left'⟩, hok, hok', rfl, hleft⟩ | ⟨e, e', he, he', halike⟩
      · rw [hok, hok']
        exact .of_ok hleft
      · rw [he, he']
        exact .of_error halike
    · rcases expectMark_alike hf .rightParen hrest with
        ⟨left, left', hok, hok', hleft⟩ | ⟨e, e', he, he', halike⟩
      · rw [hok, hok']
        exact .of_ok hleft
      · rw [he, he']
        exact .of_error halike
  · rw [he, he']
    exact .of_error halike

/-- What stands between the parentheses of a call is read alike. -/
theorem arguments_alike (hf : EndsAlike ρ σ finish finish') (h : TokensAlike ρ ts ts') :
    ReadingsAlike ρ σ (arguments finish ts) (arguments finish' ts') := by
  unfold arguments
  rw [kind_current hf h]
  split
  · exact .of_ok h.tail
  · exact argumentList_alike hf h

/-! ## Statements -/

/-- Bindings are read alike. -/
theorem binding_alike (hf : EndsAlike ρ σ finish finish') (h : TokensAlike ρ ts ts') :
    ReadingsAlike ρ σ (binding finish ts) (binding finish' ts') := by
  cases h with
  | nil => exact .of_error (unexpected_alike hf .nil)
  | @cons t t' ts ts' ht hts =>
    have hunexpected := unexpected_alike hf (.cons ht hts)
    unfold binding
    simp only [ht.kind, kind_current hf hts]
    split
    · split
      · rcases expression_alike hf (TokensAlike.tail hts) with
          ⟨⟨init, rest⟩, ⟨_, rest'⟩, hok, hok', rfl, hrest⟩ | ⟨e, e', he, he', halike⟩
        · rw [hok, hok']
          exact .of_ok hrest
        · rw [he, he']
          exact .of_error halike
      · exact .of_ok hts
    · exact .of_error hunexpected

/-- Root declarations are read alike. -/
theorem rootDeclaration_alike (hf : EndsAlike ρ σ finish finish') (h : TokensAlike ρ ts ts') :
    ReadingsAlike ρ σ (rootDeclaration finish ts) (rootDeclaration finish' ts') := by
  unfold rootDeclaration
  rcases expectMark_alike hf .leftParen h with
    ⟨inner, inner', hok, hok', hinner⟩ | ⟨e, e', he, he', halike⟩
  · rw [hok, hok']
    simp only [kind_current hf hinner]
    split
    · rcases expectMark_alike hf .rightParen hinner.tail with
        ⟨rest, rest', hok, hok', hrest⟩ | ⟨e, e', he, he', halike⟩
      · rw [hok, hok']
        simp only
        split
        · exact .of_ok hrest
        · exact .of_error (error_alike hf hrest rfl)
      · rw [he, he']
        exact .of_error halike
    · exact .of_error (unexpected_alike hf hinner)
  · rw [he, he']
    exact .of_error halike

/-- Statements that begin with a name are read alike. -/
theorem namedStatement_alike (hf : EndsAlike ρ σ finish finish') (name : String)
    (h : TokensAlike ρ ts ts') :
    ReadingsAlike ρ σ (namedStatement finish name ts) (namedStatement finish' name ts') := by
  unfold namedStatement
  rcases pathAfter_alike hf name h with
    ⟨⟨path, rest⟩, ⟨_, rest'⟩, hok, hok', rfl, hrest⟩ | ⟨e, e', he, he', halike⟩
  · rw [hok, hok']
    -- The line break counts only before a mark, so never before the end.
    have hmark : ∀ m, ((current finish' rest').kind = .mark m ∧
        (current finish' rest').newlineBefore = false) ↔
        ((current finish rest).kind = .mark m ∧ (current finish rest).newlineBefore = false) := by
      intro m
      rw [kind_current hf hrest]
      apply and_congr_right
      intro hm
      rw [newlineBefore_current hrest hf (by simp [hm])]
    simp only [Bool.and_eq_true, decide_eq_true_eq, Bool.not_eq_true', hmark]
    split
    · rcases expression_alike hf hrest.tail with
        ⟨⟨value, left⟩, ⟨_, left'⟩, hok, hok', rfl, hleft⟩ | ⟨e, e', he, he', halike⟩
      · rw [hok, hok']
        exact .of_ok hleft
      · rw [he, he']
        exact .of_error halike
    · split
      · rcases arguments_alike hf hrest.tail with
          ⟨⟨args, left⟩, ⟨_, left'⟩, hok, hok', rfl, hleft⟩ | ⟨e, e', he, he', halike⟩
        · rw [hok, hok']
          exact .of_ok hleft
        · rw [he, he']
          exact .of_error halike
      · exact .of_ok hrest
  · rw [he, he']
    exact .of_error halike

/-- Actions are read alike. -/
theorem action_alike (hf : EndsAlike ρ σ finish finish') (h : TokensAlike ρ ts ts') :
    ReadingsAlike ρ σ (action finish ts) (action finish' ts') := by
  cases h with
  | nil => exact .of_error (unexpected_alike hf .nil)
  | @cons t t' ts ts' ht hts =>
    unfold action
    simp only [ht.kind]
    split
    · exact binding_alike hf hts
    · exact rootDeclaration_alike hf hts
    · rcases expression_alike hf hts with
        ⟨⟨value, rest⟩, ⟨_, rest'⟩, hok, hok', rfl, hrest⟩ | ⟨e, e', he, he', halike⟩
      · rw [hok, hok']
        exact .of_ok hrest
      · rw [he, he']
        exact .of_error halike
    · exact namedStatement_alike hf _ hts
    · rcases expression_alike hf (.cons ht hts) with
        ⟨⟨value, rest⟩, ⟨_, rest'⟩, hok, hok', rfl, hrest⟩ | ⟨e, e', he, he', halike⟩
      · rw [hok, hok']
        exact .of_ok hrest
      · rw [he, he']
        exact .of_error halike

/-- Ends of statements are read alike. -/
theorem statementEnd_alike (hf : EndsAlike ρ σ finish finish') (h : TokensAlike ρ ts ts') :
    ResultsAlike σ (TokensAlike ρ) (statementEnd finish ts) (statementEnd finish' ts') := by
  cases h with
  | nil => exact .inl ⟨_, _, rfl, rfl, .nil⟩
  | @cons t t' ts ts' ht hts =>
    have hunexpected := unexpected_alike hf (.cons ht hts)
    unfold statementEnd
    simp only [ht.kind, ht.newlineBefore]
    split
    · exact .inl ⟨_, _, rfl, rfl, hts⟩
    · split
      · exact .inl ⟨_, _, rfl, rfl, .cons ht hts⟩
      · exact .of_error hunexpected

/-- Statements are read alike. -/
theorem statement_alike (hf : EndsAlike ρ σ finish finish') (h : TokensAlike ρ ts ts') :
    ResultsAlike σ (fun r r' => r.1.Alike ρ r'.1 ∧ TokensAlike ρ r.2 r'.2) (statement finish ts)
      (statement finish' ts') := by
  unfold statement
  rcases action_alike hf h with
    ⟨⟨what, rest⟩, ⟨_, rest'⟩, hok, hok', rfl, hrest⟩ | ⟨e, e', he, he', halike⟩
  · -- What was read begins with a token, so the statement does not stand at the end.
    have hspan : ρ (current finish ts).span (current finish' ts').span := by
      cases h with
      | nil => cases hok
      | cons ht _ => exact ht.span
    rw [hok, hok']
    simp only
    rcases statementEnd_alike hf hrest with
      ⟨left, left', hok, hok', hleft⟩ | ⟨e, e', he, he', halike⟩
    · rw [hok, hok']
      exact .inl ⟨_, _, rfl, rfl, ⟨rfl, hspan⟩, hleft⟩
    · rw [he, he']
      exact .of_error halike
  · rw [he, he']
    exact .of_error halike

/-- Statements are read one after the other, and semicolons between them are passed over. -/
theorem statements_cons (finish t : Token) (ts : List Token) :
    statements finish (t :: ts) =
      if t.kind = .mark .semicolon then statements finish ts
      else
        match statement finish (t :: ts) with
        | .error e => .error e
        | .ok (s, rest) =>
          match statements finish rest with
          | .ok others => .ok (s :: others)
          | .error e => .error e := by
  rw [statements]
  cases statement finish (t :: ts) with
  | error e => rfl
  | ok read => rfl

/-- Two lists of tokens that are alike are read as programs that are alike, or not at all because
of errors that are alike. -/
theorem statements_alike (hf : EndsAlike ρ σ finish finish') (h : TokensAlike ρ ts ts') :
    ResultsAlike σ (List.Forall₂ (Statement.Alike ρ)) (statements finish ts)
      (statements finish' ts') := by
  induction hn : ts.length using Nat.strongRecOn generalizing ts ts' with
  | ind n ih =>
  cases h with
  | nil =>
    rw [statements, statements]
    exact .inl ⟨_, _, rfl, rfl, .nil⟩
  | @cons t t' ts ts' ht hts =>
    rw [statements_cons, statements_cons, ht.kind]
    rw [List.length_cons] at hn
    split
    · exact ih _ (by omega) hts rfl
    · rcases statement_alike hf (.cons ht hts) with
        ⟨⟨s, rest⟩, ⟨s', rest'⟩, hok, hok', hs, hrest⟩ | ⟨e, e', he, he', halike⟩
      · have hshorter : rest.length < (t :: ts).length := statement_shorter finish hok
        rw [List.length_cons] at hshorter
        rw [hok, hok']
        simp only
        rcases ih rest.length (by omega) hrest rfl with
          ⟨others, others', hok, hok', hothers⟩ | ⟨e, e', he, he', halike⟩
        · rw [hok, hok']
          exact .inl ⟨_, _, rfl, rfl, .cons hs hothers⟩
        · rw [he, he']
          exact .of_error halike
      · rw [he, he']
        exact .of_error halike

end

/-! ## The first token -/

/-- A line break before the first token means nothing. -/
theorem statements_newlineBefore (finish t : Token) (ts : List Token) (b : Bool) :
    statements finish ({ t with newlineBefore := b } :: ts) = statements finish (t :: ts) := by
  have haction : action finish ({ t with newlineBefore := b } :: ts) = action finish (t :: ts) :=
    rfl
  have hstatement :
      statement finish ({ t with newlineBefore := b } :: ts) = statement finish (t :: ts) := by
    unfold statement
    rw [haction]
    rfl
  rw [statements_cons, statements_cons, hstatement]

end ModuleLoader.Script
