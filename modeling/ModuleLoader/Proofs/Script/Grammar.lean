import ModuleLoader.Proofs.Script.Remainder

/-!
# The grammar of scripts

Which tokens make a script is told by a grammar, one rule for each form of an expression or a
statement; a derivation yields the tree of what is derived.  Line breaks matter in two ways: a
statement may end at one, and the equal sign of an assignment and the parenthesis of a call must not
follow one.  A reader takes a phrase of the grammar off the front of the tokens, and what it takes
depends on these and on the one token that follows.  Main statement: `parseProgram_iff`, a source is
read as a program just when its tokens derive that program, which no two derivations disagree on.
-/

set_option autoImplicit false

namespace ModuleLoader.Script

open ModuleLoader.Text

/-! ## Derivations -/

/-- A point and a name, any number of times. -/
inductive DerivesProperties : List Token → List String → Prop where
  | none : DerivesProperties [] []
  | more {d t : Token} {ts : List Token} {name : String} {names : List String}
      (dot : d.kind = .mark .dot) (named : t.kind = .identifier name)
      (rest : DerivesProperties ts names) : DerivesProperties (d :: t :: ts) (name :: names)

/-- A name and properties, each behind a dot. -/
inductive DerivesPath : List Token → Path → Prop where
  | path {t : Token} {ts : List Token} {name : String} {names : List String}
      (named : t.kind = .identifier name) (properties : DerivesProperties ts names) :
      DerivesPath (t :: ts) ⟨name, names⟩

/-- A literal, a path or an empty object. -/
inductive DerivesExpression : List Token → Expression → Prop where
  | number {t : Token} {n : Binary64} (kind : t.kind = .number n) :
      DerivesExpression [t] (.number n)
  | negative {m t : Token} {n : Binary64} (minus : m.kind = .mark .minus)
      (kind : t.kind = .number n) : DerivesExpression [m, t] (.number n.negate)
  | string {t : Token} {s : String} (kind : t.kind = .string s) : DerivesExpression [t] (.string s)
  | true {t : Token} (kind : t.kind = .keyword .true) : DerivesExpression [t] (.boolean .true)
  | false {t : Token} (kind : t.kind = .keyword .false) : DerivesExpression [t] (.boolean .false)
  | null {t : Token} (kind : t.kind = .keyword .null) : DerivesExpression [t] .null
  | undefined {t : Token} (kind : t.kind = .keyword .undefined) : DerivesExpression [t] .undefined
  | emptyObject {l r : Token} (left : l.kind = .mark .leftBrace) (right : r.kind = .mark .rightBrace) :
      DerivesExpression [l, r] .emptyObject
  | path {ts : List Token} {p : Path} (path : DerivesPath ts p) : DerivesExpression ts (.path p)

/-- Expressions with commas between them, at least one. -/
inductive DerivesArguments : List Token → List Expression → Prop where
  | last {ts : List Token} {x : Expression} (first : DerivesExpression ts x) :
      DerivesArguments ts [x]
  | more {ts us : List Token} {c : Token} {x : Expression} {xs : List Expression}
      (first : DerivesExpression ts x) (comma : c.kind = .mark .comma)
      (others : DerivesArguments us xs) : DerivesArguments (ts ++ c :: us) (x :: xs)

/-- A dotted path whose segments are identifiers, the first of them not reserved. -/
def Declarable (path : String) : Prop :=
  (∀ segment ∈ splitOnChar '.' path, isIdentifier segment = true) ∧
    ∀ first, (splitOnChar '.' path).head? = some first → isKeyword first = false

/-- What a statement is made of, up to where it ends. -/
inductive DerivesAction : List Token → Action → Prop where
  | var {v t : Token} {name : String} (var : v.kind = .keyword .var)
      (named : t.kind = .identifier name) : DerivesAction [v, t] (.var name .undefined)
  | init {v t e : Token} {ts : List Token} {name : String} {x : Expression}
      (var : v.kind = .keyword .var) (named : t.kind = .identifier name)
      (equal : e.kind = .mark .equal) (value : DerivesExpression ts x) :
      DerivesAction (v :: t :: e :: ts) (.var name x)
  | declareRoot {d l p r : Token} {path : String} (declare : d.kind = .declareRoot)
      (left : l.kind = .mark .leftParen) (string : p.kind = .string path)
      (right : r.kind = .mark .rightParen) (declarable : Declarable path) :
      DerivesAction [d, l, p, r] (.declareRoot path)
  | throw {t : Token} {ts : List Token} {x : Expression} (throw : t.kind = .keyword .throw)
      (value : DerivesExpression ts x) : DerivesAction (t :: ts) (.throw x)
  | assign {ts us : List Token} {e : Token} {p : Path} {x : Expression} (target : DerivesPath ts p)
      (equal : e.kind = .mark .equal) (sameLine : e.newlineBefore = false)
      (value : DerivesExpression us x) : DerivesAction (ts ++ e :: us) (.assign p x)
  | call {t l r : Token} {name : String} (named : t.kind = .identifier name)
      (left : l.kind = .mark .leftParen) (sameLine : l.newlineBefore = false)
      (right : r.kind = .mark .rightParen) : DerivesAction [t, l, r] (.call name [])
  | callWith {t l r : Token} {ts : List Token} {name : String} {xs : List Expression}
      (named : t.kind = .identifier name) (left : l.kind = .mark .leftParen)
      (sameLine : l.newlineBefore = false) (arguments : DerivesArguments ts xs)
      (right : r.kind = .mark .rightParen) : DerivesAction (t :: l :: (ts ++ [r])) (.call name xs)
  | expression {ts : List Token} {x : Expression} (value : DerivesExpression ts x) :
      DerivesAction ts (.expression x)

/-- Statements, and semicolons between them, up to the end of the source.  A statement has the span
of its first token; it ends at a semicolon, or before a token that follows a line break or is the end
of the source. -/
inductive DerivesProgram : List Token → Program → Prop where
  | finish {t : Token} (kind : t.kind = .finish) : DerivesProgram [t] []
  | semicolon {t : Token} {ts : List Token} {program : Program}
      (kind : t.kind = .mark .semicolon) (rest : DerivesProgram ts program) :
      DerivesProgram (t :: ts) program
  | closed {t e : Token} {us ts : List Token} {what : Action} {program : Program}
      (action : DerivesAction (t :: us) what) (semicolon : e.kind = .mark .semicolon)
      (rest : DerivesProgram ts program) :
      DerivesProgram (t :: us ++ e :: ts) (⟨what, t.span⟩ :: program)
  | broken {t next : Token} {us ts : List Token} {what : Action} {program : Program}
      (action : DerivesAction (t :: us) what)
      (ends : next.newlineBefore = true ∨ next.kind = .finish)
      (rest : DerivesProgram (next :: ts) program) :
      DerivesProgram (t :: us ++ next :: ts) (⟨what, t.span⟩ :: program)

/-! ## What is derived is read -/

section

variable {finish : Token} {ts rest : List Token}

/-- No properties are read where no dot follows. -/
theorem pathTail_of_ne_dot (h : (current finish ts).kind ≠ .mark .dot) :
    pathTail finish ts = .ok ([], ts) := by
  rcases ts with _ | ⟨d, _ | ⟨t, ts⟩⟩
  · rfl
  · exact if_neg h
  · exact if_neg h

/-- A mark other than the dot is no dot. -/
theorem current_ne_dot {t : Token} {m : Mark} (ht : t.kind = .mark m) (hm : m ≠ .dot) :
    (current finish (t :: ts)).kind ≠ .mark .dot := by
  rw [current, List.headD_cons, ht]
  exact fun h => hm (TokenKind.mark.inj h)

/-- Derived properties are read before a token that is no dot. -/
theorem DerivesProperties.reads {names : List String} (h : DerivesProperties ts names)
    (hnext : (current finish rest).kind ≠ .mark .dot) :
    pathTail finish (ts ++ rest) = .ok (names, rest) := by
  induction h with
  | none => exact pathTail_of_ne_dot hnext
  | more dot named _ ih =>
    rw [List.cons_append, List.cons_append, pathTail, if_pos dot, named]
    simp only [ih]

/-- With a head, derived properties are read as a path. -/
theorem DerivesProperties.pathAfter {names : List String} (h : DerivesProperties ts names)
    (name : String) (hnext : (current finish rest).kind ≠ .mark .dot) :
    Script.pathAfter finish name (ts ++ rest) = .ok (⟨name, names⟩, rest) := by
  rw [Script.pathAfter, h.reads hnext]

/-- A path is read before a mark that is no dot. -/
theorem DerivesProperties.pathAfter_mark {names : List String} (h : DerivesProperties ts names)
    (name : String) {t : Token} {m : Mark} (ht : t.kind = .mark m) (hm : m ≠ .dot) :
    Script.pathAfter finish name (ts ++ t :: rest) = .ok (⟨name, names⟩, t :: rest) :=
  h.pathAfter name (current_ne_dot ht hm)

/-- A derived path begins with a name, and is read behind it before a token that is no dot. -/
theorem DerivesPath.reads {p : Path} (h : DerivesPath ts p) : ∃ t us, ts = t :: us ∧
    t.kind = .identifier p.head ∧ ∀ {finish : Token} {rest : List Token},
      (current finish rest).kind ≠ .mark .dot →
        pathAfter finish p.head (us ++ rest) = .ok (p, rest) := by
  cases h with
  | path named properties =>
    refine ⟨_, _, rfl, named, fun hnext => ?_⟩
    rw [pathAfter, properties.reads hnext]

/-- A derived expression is read before a token that is no dot. -/
theorem DerivesExpression.reads {x : Expression} (h : DerivesExpression ts x)
    (hnext : (current finish rest).kind ≠ .mark .dot) :
    expression finish (ts ++ rest) = .ok (x, rest) := by
  cases h with
  | number kind | string kind | true kind | false kind | null kind | undefined kind =>
    rw [List.singleton_append, expression, kind]
  | negative minus kind =>
    rw [List.cons_append, List.singleton_append, expression, minus]
    simp only [current, List.headD_cons, kind, List.tail_cons]
  | emptyObject left right =>
    rw [List.cons_append, List.singleton_append, expression, left]
    simp only [expectMark, current, List.headD_cons, right, if_true, List.tail_cons]
  | path path =>
    obtain ⟨t, us, rfl, hkind, hreads⟩ := path.reads
    rw [List.cons_append, expression, hkind]
    simp only [hreads hnext]

/-- Derived arguments are read up to the closing parenthesis. -/
theorem DerivesArguments.reads {xs : List Expression} (h : DerivesArguments ts xs) {r : Token}
    (hr : r.kind = .mark .rightParen) :
    argumentList finish (ts ++ r :: rest) = .ok (xs, rest) := by
  induction h with
  | last first =>
    rw [argumentList_eq, first.reads (current_ne_dot hr (by decide))]
    simp [current, expectMark, hr]
  | @more ts us c x xs first comma _ ih =>
    rw [List.append_assoc, List.cons_append, argumentList_eq,
      first.reads (current_ne_dot comma (by decide))]
    simp only [current, List.headD_cons, comma, if_true, List.tail_cons, ih]

/-- An expression does not begin like an end of arguments. -/
theorem DerivesExpression.exists_cons {x : Expression} (h : DerivesExpression ts x) :
    ∃ t us, ts = t :: us ∧ t.kind ≠ .finish ∧
      ∀ m, t.kind = .mark m → m = .minus ∨ m = .leftBrace := by
  cases h with
  | number kind | string kind | true kind | false kind | null kind | undefined kind =>
    exact ⟨_, _, rfl, by rw [kind]; nofun, by rw [kind]; nofun⟩
  | negative minus kind =>
    refine ⟨_, _, rfl, by rw [minus]; nofun, fun m hm => ?_⟩
    rw [minus] at hm
    cases hm
    exact .inl rfl
  | emptyObject left right =>
    refine ⟨_, _, rfl, by rw [left]; nofun, fun m hm => ?_⟩
    rw [left] at hm
    cases hm
    exact .inr rfl
  | path path =>
    cases path with
    | path named properties => exact ⟨_, _, rfl, by rw [named]; nofun, by rw [named]; nofun⟩

/-- Arguments begin with a token, and with no mark but a minus or a brace. -/
theorem DerivesArguments.exists_cons {xs : List Expression} (h : DerivesArguments ts xs) :
    ∃ t us, ts = t :: us ∧ ∀ m, t.kind = .mark m → m = .minus ∨ m = .leftBrace := by
  cases h with
  | last first =>
    obtain ⟨t, us, rfl, -, hmark⟩ := first.exists_cons
    exact ⟨t, us, rfl, hmark⟩
  | more first comma others =>
    obtain ⟨t, us, rfl, -, hmark⟩ := first.exists_cons
    exact ⟨t, _, rfl, hmark⟩

/-- The tokens between the parentheses of a call. -/
def Between (us : List Token) (xs : List Expression) : Prop :=
  us = [] ∧ xs = [] ∨ DerivesArguments us xs

/-- What is derived between the parentheses of a call is read up to the closing one. -/
theorem Between.reads {us : List Token} {xs : List Expression} (h : Between us xs) {r : Token}
    (hr : r.kind = .mark .rightParen) :
    arguments finish (us ++ r :: rest) = .ok (xs, rest) := by
  rcases h with ⟨rfl, rfl⟩ | hargs
  · exact if_pos hr
  · rw [arguments, if_neg, hargs.reads hr]
    obtain ⟨u, us, rfl, hmark⟩ := hargs.exists_cons
    intro hu
    rcases hmark _ hu with h | h <;> cases h

/-- An action begins with a token, not the finish, and with no mark but a minus or a brace. -/
theorem DerivesAction.exists_cons {what : Action} (h : DerivesAction ts what) :
    ∃ t us, ts = t :: us ∧ t.kind ≠ .finish ∧
      ∀ m, t.kind = .mark m → m = .minus ∨ m = .leftBrace := by
  cases h with
  | var var named | init var named equal value =>
    exact ⟨_, _, rfl, by rw [var]; nofun, by rw [var]; nofun⟩
  | declareRoot declare left string right declarable =>
    exact ⟨_, _, rfl, by rw [declare]; nofun, by rw [declare]; nofun⟩
  | throw throw value => exact ⟨_, _, rfl, by rw [throw]; nofun, by rw [throw]; nofun⟩
  | assign target equal sameLine value =>
    cases target with
    | path named properties => exact ⟨_, _, rfl, by rw [named]; nofun, by rw [named]; nofun⟩
  | call named left sameLine right | callWith named left sameLine arguments right =>
    exact ⟨_, _, rfl, by rw [named]; nofun, by rw [named]; nofun⟩
  | expression value => exact value.exists_cons

/-- The test for paths that can be declared decides the rule of the grammar. -/
theorem isDeclarable_iff (path : String) : isDeclarable path = true ↔ Declarable path := by
  unfold isDeclarable Declarable
  cases splitOnChar '.' path with
  | nil => simp
  | cons first others => simp [and_comm]

/-- Behind a path and an equals sign on its line, the statement assigns. -/
theorem namedStatement_assign {name : String} {p : Path}
    (hp : pathAfter finish name ts = .ok (p, rest))
    (hequal : (current finish rest).kind = .mark .equal)
    (hline : (current finish rest).newlineBefore = false) :
    namedStatement finish name ts =
      match expression finish rest.tail with
      | .ok (value, rest') => .ok (.assign p value, rest')
      | .error e => .error e := by
  have hsign : (decide ((current finish rest).kind = .mark .equal) &&
      !(current finish rest).newlineBefore) = true := by
    simp [hequal, hline]
  rw [namedStatement, hp]
  exact if_pos hsign

/-- Behind a name and a parenthesis on its line, the statement calls. -/
theorem namedStatement_call {name : String} (hp : pathAfter finish name ts = .ok (⟨name, []⟩, rest))
    (hparen : (current finish rest).kind = .mark .leftParen)
    (hline : (current finish rest).newlineBefore = false) :
    namedStatement finish name ts =
      match arguments finish rest.tail with
      | .ok (args, rest') => .ok (.call name args, rest')
      | .error e => .error e := by
  have hsign : ¬ (decide ((current finish rest).kind = .mark .equal) &&
      !(current finish rest).newlineBefore) = true := by
    simp [hparen]
  have hopen : (decide ((current finish rest).kind = .mark .leftParen) &&
      !(current finish rest).newlineBefore && ([] : List String).isEmpty) = true := by
    simp [hparen, hline]
  rw [namedStatement, hp]
  exact (if_neg hsign).trans (if_pos hopen)

/-- Behind a path with neither on its line, the statement is the path. -/
theorem namedStatement_path {name : String} {p : Path}
    (hp : pathAfter finish name ts = .ok (p, rest))
    (hequal : (current finish rest).kind = .mark .equal →
      (current finish rest).newlineBefore = true)
    (hparen : (current finish rest).kind = .mark .leftParen → p.properties = [] →
      (current finish rest).newlineBefore = true) :
    namedStatement finish name ts = .ok (.expression (.path p), rest) := by
  simp only [namedStatement, hp]
  rw [if_neg, if_neg]
  · simp only [Bool.and_eq_true, decide_eq_true_eq, Bool.not_eq_true', List.isEmpty_iff]
    rintro ⟨⟨hkind, hline⟩, hnil⟩
    rw [hparen hkind hnil] at hline
    cases hline
  · simp only [Bool.and_eq_true, decide_eq_true_eq, Bool.not_eq_true']
    rintro ⟨hkind, hline⟩
    rw [hequal hkind] at hline
    cases hline

/-- After a path comes what makes it an assignment, what makes it a call, or neither. -/
theorem namedStatement_cases (t : Token) (names : List String) :
    (t.kind = .mark .equal ∧ t.newlineBefore = false) ∨
      (t.kind = .mark .leftParen ∧ t.newlineBefore = false ∧ names = []) ∨
      ((t.kind = .mark .equal → t.newlineBefore = true) ∧
        (t.kind = .mark .leftParen → names = [] → t.newlineBefore = true)) := by
  cases t.newlineBefore with
  | true => exact .inr (.inr ⟨fun _ => rfl, fun _ _ => rfl⟩)
  | false =>
    by_cases hassign : t.kind = .mark .equal
    · exact .inl ⟨hassign, rfl⟩
    by_cases hcall : t.kind = .mark .leftParen ∧ names = []
    · exact .inr (.inl ⟨hcall.1, rfl, hcall.2⟩)
    · exact .inr (.inr ⟨fun h => absurd h hassign, fun h hn => absurd ⟨h, hn⟩ hcall⟩)

/-- A token that no statement goes on with. -/
def Token.Parts (t : Token) : Prop :=
  t.kind ≠ .mark .dot ∧ t.kind ≠ .mark .equal ∧ t.kind ≠ .mark .leftParen

/-- A derived action is read before a token that no statement goes on with. -/
theorem DerivesAction.reads {what : Action} (h : DerivesAction ts what)
    (hnext : (current finish rest).Parts) : action finish (ts ++ rest) = .ok (what, rest) := by
  obtain ⟨hdot, hequal, hparen⟩ := hnext
  cases h with
  | @var v t name var named =>
    rw [List.cons_append, List.singleton_append, action, var]
    simp only [binding, named, hequal, if_false]
  | @init v t e ts name x var named equal value =>
    rw [List.cons_append, List.cons_append, List.cons_append, action, var]
    simp only [binding, named, current, List.headD_cons, equal, if_true, List.tail_cons]
    rw [value.reads hdot]
  | @declareRoot d l p r path declare left string right declarable =>
    rw [← isDeclarable_iff] at declarable
    simp [action, declare, rootDeclaration, expectMark, current, left, string, right, declarable]
  | @throw t ts x throw value =>
    rw [List.cons_append, action, throw]
    simp only [value.reads hdot]
  | @assign ts us e p x target equal sameLine value =>
    obtain ⟨t, vs, rfl, hkind, hreads⟩ := target.reads
    have hdot' : (current finish (e :: (us ++ rest))).kind ≠ .mark .dot :=
      current_ne_dot equal (by decide)
    rw [List.append_assoc, List.cons_append, List.cons_append, action, hkind]
    simp only [namedStatement_assign (hreads hdot') equal sameLine, List.tail_cons]
    rw [value.reads hdot]
  | @call t l r name named left sameLine right =>
    have hpath : pathAfter finish name (l :: r :: rest) = .ok (⟨name, []⟩, l :: r :: rest) :=
      DerivesProperties.none.pathAfter_mark name left (by decide)
    have hargs : arguments finish (r :: rest) = .ok ([], rest) := if_pos right
    rw [List.cons_append, List.cons_append, List.singleton_append, action, named]
    simp only [namedStatement_call hpath left sameLine, List.tail_cons, hargs]
  | @callWith t l r ts name xs named left sameLine args right =>
    have hpath : pathAfter finish name (l :: (ts ++ r :: rest)) =
        .ok (⟨name, []⟩, l :: (ts ++ r :: rest)) :=
      DerivesProperties.none.pathAfter_mark name left (by decide)
    have hargs : arguments finish (ts ++ r :: rest) = .ok (xs, rest) :=
      Between.reads (.inr args) right
    rw [List.cons_append, List.cons_append, List.append_assoc, List.singleton_append, action, named]
    simp only [namedStatement_call hpath left sameLine, List.tail_cons, hargs]
  | expression value =>
    have hreads := value.reads hdot
    cases value with
    | number kind | string kind | true kind | false kind | null kind | undefined kind =>
      rw [List.singleton_append] at hreads ⊢
      simp only [action, kind, hreads]
    | negative minus kind =>
      rw [List.cons_append] at hreads ⊢
      simp only [action, minus, hreads]
    | emptyObject left right =>
      rw [List.cons_append] at hreads ⊢
      simp only [action, left, hreads]
    | path path =>
      obtain ⟨t, us, rfl, hkind, hreads⟩ := path.reads
      rw [List.cons_append, action, hkind]
      exact namedStatement_path (hreads hdot) (fun h => absurd h hequal) fun h => absurd h hparen

/-- No statement goes on with the first token of another action. -/
theorem DerivesAction.parts {what : Action} {t : Token} (h : DerivesAction (t :: ts) what) :
    t.Parts ∧ t.kind ≠ .mark .semicolon ∧ t.kind ≠ .finish := by
  obtain ⟨t', us, heq, hfinish, hmark⟩ := h.exists_cons
  cases heq
  refine ⟨⟨fun hm => ?_, fun hm => ?_, fun hm => ?_⟩, fun hm => ?_, hfinish⟩ <;>
    rcases hmark _ hm with h | h <;> cases h

/-- A program begins with a token that no statement goes on with, and nothing follows its finish. -/
theorem DerivesProgram.exists_cons {program : Program} (h : DerivesProgram ts program) :
    ∃ t us, ts = t :: us ∧ t.Parts ∧ (t.kind = .finish → us = []) := by
  cases h with
  | finish kind => exact ⟨_, _, rfl, by simp [Token.Parts, kind], fun _ => rfl⟩
  | semicolon kind rest =>
    exact ⟨_, _, rfl, by simp [Token.Parts, kind], by rw [kind]; nofun⟩
  | closed action semicolon rest =>
    exact ⟨_, _, rfl, action.parts.1, fun hf => absurd hf action.parts.2.2⟩
  | broken action ends rest =>
    exact ⟨_, _, rfl, action.parts.1, fun hf => absurd hf action.parts.2.2⟩

/-- A statement is read from what derives it and what ends it. -/
theorem statements_of_action {t : Token} {us left : List Token} {what : Action} {program : Program}
    (haction : DerivesAction (t :: us) what) (hnext : (current finish rest).Parts)
    (hend : statementEnd finish rest = .ok left) (hleft : statements finish left = .ok program) :
    statements finish (t :: us ++ rest) = .ok (⟨what, t.span⟩ :: program) := by
  have hread := haction.reads hnext
  rw [List.cons_append] at hread ⊢
  rw [statements_cons, if_neg haction.parts.2.1, statement, hread]
  simp only [hend, hleft]
  rfl

/-- A derived program is read, up to its finish. -/
theorem DerivesProgram.reads {all : List Token} {program : Program} (h : DerivesProgram all program) :
    ∃ ts finish, all = ts ++ [finish] ∧ finish.kind = .finish ∧
      statements finish ts = .ok program := by
  induction h with
  | finish kind => exact ⟨[], _, rfl, kind, by rw [statements]⟩
  | @semicolon t ts program kind rest ih =>
    obtain ⟨ts, finish, rfl, hfinish, hrest⟩ := ih
    refine ⟨t :: ts, finish, rfl, hfinish, ?_⟩
    rw [statements_cons, if_pos kind, hrest]
  | @closed t e us ts what program action semicolon rest ih =>
    obtain ⟨ts, finish, rfl, hfinish, hrest⟩ := ih
    refine ⟨t :: us ++ e :: ts, finish, by simp, hfinish, ?_⟩
    have hparts : (current finish (e :: ts)).Parts := by
      simp [Token.Parts, current, semicolon]
    exact statements_of_action action hparts (if_pos semicolon) hrest
  | @broken t next us ts what program action ends rest ih =>
    obtain ⟨vs, finish, hall, hfinish, hrest⟩ := ih
    obtain ⟨t', us', heq, hparts, hlast⟩ := rest.exists_cons
    cases heq
    refine ⟨t :: us ++ vs, finish, by rw [hall, List.append_assoc], hfinish, ?_⟩
    cases vs with
    | nil =>
      obtain ⟨rfl, -⟩ := List.cons.inj hall
      exact statements_of_action action hparts rfl hrest
    | cons v vs =>
      obtain ⟨rfl, htail⟩ := List.cons.inj hall
      by_cases hsemicolon : next.kind = .mark .semicolon
      · rw [statements_cons, if_pos hsemicolon] at hrest
        exact statements_of_action action hparts (if_pos hsemicolon) hrest
      · have hline : next.newlineBefore = true := by
          refine ends.resolve_right fun hkind => ?_
          rw [hlast hkind] at htail
          exact List.append_ne_nil_of_right_ne_nil vs (List.cons_ne_nil finish []) htail.symm
        exact statements_of_action action hparts
          (by rw [statementEnd, if_neg hsemicolon, if_pos hline]) hrest

/-! ## What is read is derived -/

/-- A reader takes a phrase off the front of some tokens, and takes it before any other tokens that
begin with the same one. -/
def Takes {α : Type} (read : Token → List Token → Reading α) (Derives : List Token → α → Prop)
    (finish : Token) (ts : List Token) (a : α) (rest : List Token) : Prop :=
  ∃ us, ts = us ++ rest ∧ Derives us a ∧ ∀ finish' rest',
    current finish' rest' = current finish rest → read finish' (us ++ rest') = .ok (a, rest')

/-- A token that is not the end of the source is there. -/
theorem eq_cons_of_current (hfinish : finish.kind = .finish) {kind : TokenKind}
    (h : (current finish ts).kind = kind) (hkind : kind ≠ .finish) :
    ∃ t us, ts = t :: us ∧ t.kind = kind := by
  cases ts with
  | nil => exact absurd (h.symm.trans hfinish) hkind
  | cons t us => exact ⟨t, us, rfl, h⟩

/-- A mark that is taken was the first token. -/
theorem eq_of_expectMark (hfinish : finish.kind = .finish) {symbol : Mark}
    (h : expectMark finish symbol ts = .ok rest) : ∃ t, ts = t :: rest ∧ t.kind = .mark symbol := by
  unfold expectMark at h
  split at h
  · rename_i hkind
    obtain ⟨t, us, rfl, ht⟩ := eq_cons_of_current hfinish hkind nofun
    cases h
    exact ⟨t, rfl, ht⟩
  · cases h

/-- The properties that are read are derived from the tokens taken, and no dot follows. -/
theorem pathTail_takes (hfinish : finish.kind = .finish) {names : List String}
    (h : pathTail finish ts = .ok (names, rest)) : ∃ us, ts = us ++ rest ∧
      DerivesProperties us names ∧ (current finish rest).kind ≠ .mark .dot := by
  fun_induction pathTail finish ts generalizing names rest with
  | case1 =>
    cases h
    refine ⟨[], rfl, .none, ?_⟩
    rw [current, List.headD_nil, hfinish]
    simp
  | case2 => cases h
  | case3 d hdot =>
    cases h
    exact ⟨[], rfl, .none, hdot⟩
  | case4 d t ts hdot name hname names' rest' hrec ih =>
    cases h
    obtain ⟨us, rfl, hderives, hnext⟩ := ih hrec
    exact ⟨d :: t :: us, rfl, .more hdot hname hderives, hnext⟩
  | case5 => cases h
  | case6 => cases h
  | case7 d t ts hdot =>
    cases h
    exact ⟨[], rfl, .none, hdot⟩

/-- The path that is read is derived from the tokens taken, and no dot follows. -/
theorem pathAfter_takes (hfinish : finish.kind = .finish) {name : String} {p : Path}
    (h : pathAfter finish name ts = .ok (p, rest)) : ∃ us names, ts = us ++ rest ∧
      p = ⟨name, names⟩ ∧ DerivesProperties us names ∧
      (current finish rest).kind ≠ .mark .dot := by
  unfold pathAfter at h
  split at h
  · rename_i names left hp
    cases h
    obtain ⟨us, rfl, hderives, hnext⟩ := pathTail_takes hfinish hp
    exact ⟨us, names, rfl, rfl, hderives, hnext⟩
  · cases h

/-- The expression that is read is derived from the tokens taken. -/
theorem expression_takes (hfinish : finish.kind = .finish) {x : Expression}
    (h : expression finish ts = .ok (x, rest)) :
    Takes expression DerivesExpression finish ts x rest := by
  cases ts with
  | nil => cases h
  | cons t ts =>
    simp only [expression] at h
    split at h
    · rename_i n hkind
      cases h
      refine ⟨[t], rfl, .number hkind, fun finish' rest' _ => ?_⟩
      rw [List.singleton_append, expression, hkind]
    · rename_i hminus
      split at h
      · rename_i n hnumber
        obtain ⟨u, us, rfl, hkind⟩ := eq_cons_of_current hfinish hnumber (by simp)
        cases h
        refine ⟨[t, u], rfl, .negative hminus hkind, fun finish' rest' _ => ?_⟩
        rw [List.cons_append, List.singleton_append, expression, hminus]
        simp only [current, List.headD_cons, hkind, List.tail_cons]
      · cases h
    · rename_i s hkind
      cases h
      refine ⟨[t], rfl, .string hkind, fun finish' rest' _ => ?_⟩
      rw [List.singleton_append, expression, hkind]
    · rename_i hkind
      cases h
      refine ⟨[t], rfl, .true hkind, fun finish' rest' _ => ?_⟩
      rw [List.singleton_append, expression, hkind]
    · rename_i hkind
      cases h
      refine ⟨[t], rfl, .false hkind, fun finish' rest' _ => ?_⟩
      rw [List.singleton_append, expression, hkind]
    · rename_i hkind
      cases h
      refine ⟨[t], rfl, .null hkind, fun finish' rest' _ => ?_⟩
      rw [List.singleton_append, expression, hkind]
    · rename_i hkind
      cases h
      refine ⟨[t], rfl, .undefined hkind, fun finish' rest' _ => ?_⟩
      rw [List.singleton_append, expression, hkind]
    · rename_i hleft
      split at h
      · rename_i left hmark
        cases h
        obtain ⟨r, rfl, hright⟩ := eq_of_expectMark hfinish hmark
        refine ⟨[t, r], rfl, .emptyObject hleft hright, fun finish' rest' _ => ?_⟩
        rw [List.cons_append, List.singleton_append, expression, hleft]
        simp only [expectMark, current, List.headD_cons, hright, if_true, List.tail_cons]
      · cases h
    · rename_i name hname
      split at h
      · rename_i path left hp
        cases h
        obtain ⟨us, names, rfl, rfl, hderives, hnext⟩ := pathAfter_takes hfinish hp
        refine ⟨t :: us, rfl, .path (.path hname hderives), fun finish' rest' hsame => ?_⟩
        rw [← hsame] at hnext
        rw [List.cons_append, expression, hname]
        simp only [hderives.pathAfter name hnext]
      · cases h
    · cases h

/-- The arguments that are read are derived from the tokens before the closing parenthesis. -/
theorem argumentList_takes (hfinish : finish.kind = .finish) {xs : List Expression}
    (h : argumentList finish ts = .ok (xs, rest)) : ∃ us r, ts = us ++ r :: rest ∧
      DerivesArguments us xs ∧ r.kind = .mark .rightParen := by
  induction hn : ts.length using Nat.strongRecOn generalizing ts xs rest with
  | ind n ih =>
  rw [argumentList_eq] at h
  split at h
  · cases h
  · rename_i x left hx
    have hshorter := expression_shorter finish hx
    obtain ⟨us, rfl, hderives, -⟩ := expression_takes hfinish hx
    split at h
    · rename_i hcomma
      obtain ⟨c, left, rfl, hkind⟩ := eq_cons_of_current hfinish hcomma nofun
      rw [List.length_cons] at hshorter
      split at h
      · rename_i others left' hothers
        cases h
        obtain ⟨vs, r, rfl, hargs, hr⟩ := ih left.length (by omega) hothers rfl
        exact ⟨us ++ c :: vs, r, by simp, .more hderives hkind hargs, hr⟩
      · cases h
    · split at h
      · rename_i left' hmark
        cases h
        obtain ⟨r, rfl, hr⟩ := eq_of_expectMark hfinish hmark
        exact ⟨us, r, rfl, .last hderives, hr⟩
      · cases h

/-- The tokens between the parentheses are those of the arguments that are read. -/
theorem arguments_takes (hfinish : finish.kind = .finish) {xs : List Expression}
    (h : arguments finish ts = .ok (xs, rest)) : ∃ us r, ts = us ++ r :: rest ∧ Between us xs ∧
      r.kind = .mark .rightParen := by
  unfold arguments at h
  split at h
  · rename_i hright
    obtain ⟨r, us, rfl, hr⟩ := eq_cons_of_current hfinish hright nofun
    cases h
    exact ⟨[], r, rfl, .inl ⟨rfl, rfl⟩, hr⟩
  · obtain ⟨us, r, hts, hargs, hr⟩ := argumentList_takes hfinish h
    exact ⟨us, r, hts, .inr hargs, hr⟩

/-- A statement that begins with no name and with none of the words `var`, `declare-root` and `throw`
is an expression. -/
theorem action_of_other {t : Token} (hvar : t.kind ≠ .keyword .var) (hroot : t.kind ≠ .declareRoot)
    (hthrow : t.kind ≠ .keyword .throw) (hname : ∀ name, t.kind ≠ .identifier name) :
    action finish (t :: ts) =
      match expression finish (t :: ts) with
      | .ok (value, rest) => .ok (.expression value, rest)
      | .error e => .error e := by
  obtain ⟨kind, span, newlineBefore⟩ := t
  cases kind with
  | keyword word =>
    cases word with
    | var => exact absurd rfl hvar
    | throw => exact absurd rfl hthrow
    | true | false | null | undefined => rfl
  | declareRoot => exact absurd rfl hroot
  | identifier name => exact absurd rfl (hname name)
  | number | string | mark | unterminated | invalid | finish => rfl

/-- The statement that is read behind a name is derived from the tokens taken. -/
theorem namedStatement_takes (hfinish : finish.kind = .finish) {t : Token} {name : String}
    (hname : t.kind = .identifier name) {what : Action}
    (h : namedStatement finish name ts = .ok (what, rest)) :
    Takes action DerivesAction finish (t :: ts) what rest := by
  have haction : ∀ (finish' : Token) (vs : List Token),
      action finish' (t :: vs) = namedStatement finish' name vs := by
    intro finish' vs
    rw [action, hname]
  cases hp : pathAfter finish name ts with
  | error e =>
    rw [namedStatement, hp] at h
    cases h
  | ok result =>
    obtain ⟨p, left⟩ := result
    obtain ⟨us, names, rfl, rfl, hderives, hdot⟩ := pathAfter_takes hfinish hp
    rcases namedStatement_cases (current finish left) names with
      ⟨hequal, hline⟩ | ⟨hparen, hline, rfl⟩ | ⟨hequal, hparen⟩
    · rw [namedStatement_assign hp hequal hline] at h
      obtain ⟨e, left, rfl, hkind⟩ := eq_cons_of_current hfinish hequal (by simp)
      split at h
      · rename_i x left' hx
        cases h
        obtain ⟨vs, hleft, hvalue, hlocal⟩ := expression_takes hfinish hx
        refine ⟨t :: us ++ e :: vs, ?_, .assign (.path hname hderives) hkind hline hvalue, ?_⟩
        · rw [List.tail_cons] at hleft
          rw [hleft]
          simp
        · intro finish' rest' hsame
          have hpath : pathAfter finish' name (us ++ e :: (vs ++ rest')) =
              .ok (⟨name, names⟩, e :: (vs ++ rest')) :=
            hderives.pathAfter_mark name hkind (by decide)
          rw [List.cons_append, List.cons_append, List.append_assoc, List.cons_append, haction,
            namedStatement_assign hpath hkind hline, List.tail_cons, hlocal finish' rest' hsame]
      · cases h
    · rw [namedStatement_call hp hparen hline] at h
      obtain ⟨l, left, rfl, hkind⟩ := eq_cons_of_current hfinish hparen (by simp)
      cases hderives
      split at h
      · rename_i xs left' hargs
        cases h
        obtain ⟨vs, r, hleft, hbetween, hr⟩ := arguments_takes hfinish hargs
        refine ⟨t :: l :: (vs ++ [r]), ?_, ?_, ?_⟩
        · rw [List.tail_cons] at hleft
          rw [hleft]
          simp
        · rcases hbetween with ⟨rfl, rfl⟩ | hargs
          · exact .call hname hkind hline hr
          · exact .callWith hname hkind hline hargs hr
        · intro finish' rest' _
          have hpath : pathAfter finish' name (l :: (vs ++ r :: rest')) =
              .ok (⟨name, []⟩, l :: (vs ++ r :: rest')) :=
            DerivesProperties.none.pathAfter_mark name hkind (by decide)
          rw [List.cons_append, List.cons_append, List.append_assoc, List.singleton_append,
            haction, namedStatement_call hpath hkind hline, List.tail_cons, hbetween.reads hr]
      · cases h
    · rw [namedStatement_path hp hequal hparen] at h
      cases h
      refine ⟨t :: us, rfl, .expression (.path (.path hname hderives)), ?_⟩
      intro finish' rest' hsame
      rw [← hsame] at hdot hequal hparen
      rw [List.cons_append, haction]
      exact namedStatement_path (hderives.pathAfter name hdot) hequal hparen

/-- The binding that is read is derived from the tokens taken. -/
theorem binding_takes (hfinish : finish.kind = .finish) {v : Token} (hvar : v.kind = .keyword .var)
    {what : Action} (h : binding finish ts = .ok (what, rest)) :
    Takes action DerivesAction finish (v :: ts) what rest := by
  have haction : ∀ (finish' : Token) (vs : List Token),
      action finish' (v :: vs) = binding finish' vs := by
    intro finish' vs
    rw [action, hvar]
  cases ts with
  | nil => cases h
  | cons t ts =>
    simp only [binding] at h
    split at h
    · rename_i name hname
      split at h
      · rename_i hequal
        obtain ⟨e, ts, rfl, hkind⟩ := eq_cons_of_current hfinish hequal (by simp)
        split at h
        · rename_i x left hx
          cases h
          obtain ⟨us, hts, hvalue, hlocal⟩ := expression_takes hfinish hx
          refine ⟨v :: t :: e :: us, ?_, .init hvar hname hkind hvalue, fun finish' rest' hsame => ?_⟩
          · rw [List.tail_cons] at hts
            rw [hts]
            rfl
          · rw [List.cons_append, haction]
            simp only [List.cons_append, binding, hname, current, List.headD_cons, hkind, if_true,
              List.tail_cons, hlocal finish' rest' hsame]
        · cases h
      · rename_i hequal
        cases h
        refine ⟨[v, t], rfl, .var hvar hname, fun finish' rest' hsame => ?_⟩
        rw [← hsame] at hequal
        rw [List.cons_append, haction]
        simp only [List.singleton_append, binding, hname, hequal, if_false]
    · cases h

/-- The action that is read is derived from the tokens taken. -/
theorem action_takes (hfinish : finish.kind = .finish) {what : Action}
    (h : action finish ts = .ok (what, rest)) :
    Takes action DerivesAction finish ts what rest := by
  cases ts with
  | nil => cases h
  | cons t ts =>
    by_cases hvar : t.kind = .keyword .var
    · rw [action, hvar] at h
      exact binding_takes hfinish hvar h
    by_cases hroot : t.kind = .declareRoot
    · rw [action, hroot] at h
      obtain ⟨l, p, r, path, rfl, hl, hp, hr, rfl, hdeclarable⟩ := eq_of_rootDeclaration hfinish h
      refine ⟨[t, l, p, r], rfl, ?_, fun finish' rest' _ => ?_⟩
      · exact .declareRoot hroot hl hp hr ((isDeclarable_iff path).1 hdeclarable)
      · simp [action, hroot, rootDeclaration, expectMark, current, hl, hp, hr, hdeclarable]
    by_cases hthrow : t.kind = .keyword .throw
    · rw [action, hthrow] at h
      simp only at h
      split at h
      · rename_i x left hx
        cases h
        obtain ⟨us, rfl, hvalue, hlocal⟩ := expression_takes hfinish hx
        refine ⟨t :: us, rfl, .throw hthrow hvalue, fun finish' rest' hsame => ?_⟩
        rw [List.cons_append, action, hthrow]
        simp only [hlocal finish' rest' hsame]
      · cases h
    by_cases hname : ∃ name, t.kind = .identifier name
    · obtain ⟨name, hname⟩ := hname
      rw [action, hname] at h
      exact namedStatement_takes hfinish hname h
    · have hother : ∀ name, t.kind ≠ .identifier name := fun name h => hname ⟨name, h⟩
      rw [action_of_other hvar hroot hthrow hother] at h
      split at h
      · rename_i x left hx
        cases h
        obtain ⟨us, hts, hvalue, hlocal⟩ := expression_takes hfinish hx
        obtain ⟨t', us', rfl, -⟩ := hvalue.exists_cons
        obtain ⟨rfl, rfl⟩ := List.cons.inj hts
        refine ⟨t :: us', rfl, .expression hvalue, fun finish' rest' hsame => ?_⟩
        have hread := hlocal finish' rest' hsame
        rw [List.cons_append] at hread ⊢
        rw [action_of_other hvar hroot hthrow hother, hread]
      · cases h

/-- The statement that is read is an action that is derived, with the span of its first token, and
its end. -/
theorem statement_takes (hfinish : finish.kind = .finish) {s : Statement} {left : List Token}
    (h : statement finish ts = .ok (s, left)) : ∃ t us what rest, ts = t :: us ++ rest ∧
      s = ⟨what, t.span⟩ ∧ DerivesAction (t :: us) what ∧ statementEnd finish rest = .ok left ∧
      ∀ finish' rest', current finish' rest' = current finish rest →
        action finish' (t :: us ++ rest') = .ok (what, rest') := by
  unfold statement at h
  split at h
  · cases h
  · rename_i what rest haction
    split at h
    · cases h
    · rename_i left' hend
      cases h
      obtain ⟨us, rfl, hderives, hlocal⟩ := action_takes hfinish haction
      obtain ⟨t, us, rfl, -⟩ := hderives.exists_cons
      exact ⟨t, us, what, rest, rfl, rfl, hderives, hend, hlocal⟩

/-- The program that is read is derived from the tokens. -/
theorem statements_takes (hfinish : finish.kind = .finish) {program : Program}
    (h : statements finish ts = .ok program) : DerivesProgram (ts ++ [finish]) program := by
  induction hn : ts.length using Nat.strongRecOn generalizing ts program with
  | ind n ih =>
  cases ts with
  | nil =>
    rw [statements] at h
    cases h
    exact .finish hfinish
  | cons t ts =>
    rw [List.length_cons] at hn
    rw [statements_cons] at h
    split at h
    · rename_i hsemicolon
      exact .semicolon hsemicolon (ih _ (by omega) h rfl)
    · split at h
      · cases h
      · rename_i s left hs
        have hshorter : left.length < (t :: ts).length := statement_shorter finish hs
        rw [List.length_cons] at hshorter
        split at h
        · rename_i others hothers
          cases h
          have hrest := ih _ (by omega) hothers rfl
          obtain ⟨t', us, what, rest, hts, rfl, hderives, hend, -⟩ := statement_takes hfinish hs
          rw [hts, List.append_assoc]
          cases rest with
          | nil =>
            cases hend
            exact .broken hderives (.inr hfinish) hrest
          | cons e rest =>
            rw [statementEnd] at hend
            split at hend
            · rename_i hsemicolon
              cases hend
              exact .closed hderives hsemicolon hrest
            · split at hend
              · rename_i hline
                cases hend
                exact .broken hderives (.inl hline) hrest
              · cases hend
        · cases h

end

/-! ## Programs -/

/-- Every source is read as the one program that its tokens derive, each statement with the span of
its first token, or else it is rejected and its tokens derive none. -/
theorem parseProgram_iff (source : String) :
    (∀ program, parseProgram source = .ok program ↔ DerivesProgram (tokens source) program) ∧
      (∀ program other, DerivesProgram (tokens source) program →
        DerivesProgram (tokens source) other → other = program) ∧
      ((∃ program, parseProgram source = .ok program) ∨
        ∃ e, parseProgram source = .error e ∧
          ∀ program, ¬ DerivesProgram (tokens source) program) := by
  obtain ⟨ts, finish, htokens, hfinish, -⟩ := tokensFrom_concat ⟨source.toList, Place.start⟩
  have hall : tokens source = ts ++ [finish] := htokens
  have hparse : parseProgram source = statements finish ts := programFrom_of_tokens htokens
  have hiff : ∀ program,
      parseProgram source = .ok program ↔ DerivesProgram (tokens source) program := by
    intro program
    rw [hparse, hall]
    refine ⟨statements_takes hfinish, fun h => ?_⟩
    obtain ⟨us, last, heq, -, hreads⟩ := h.reads
    obtain ⟨rfl, hlast⟩ := List.append_inj' heq rfl
    cases hlast
    exact hreads
  refine ⟨hiff, fun program other h h' => ?_, ?_⟩
  · exact Except.ok.inj (((hiff other).2 h').symm.trans ((hiff program).2 h))
  · cases hresult : parseProgram source with
    | ok program => exact .inl ⟨program, rfl⟩
    | error e =>
      refine .inr ⟨e, rfl, fun program h => ?_⟩
      cases hresult.symm.trans ((hiff program).2 h)

end ModuleLoader.Script
