import ModuleLoader.Proofs.Script.Grammar
import ModuleLoader.Proofs.Script.Writing

/-!
# Where a reader stops

A reader that comes to an error has gone over some tokens and refuses the token behind them.  What it
has gone over goes on to a phrase of the grammar, so nothing is wrong with that yet; with the token it
refuses nothing does, whatever tokens come after it.  The error stands at that token, but for the
path of a root declaration, which is looked at only when the parenthesis behind it has been read.
Main statement: `statements_stops`.
-/

set_option autoImplicit false

namespace ModuleLoader.Script

/-! ## Going on -/

/-- A token of some kind, on the line of the token before it. -/
def Token.filler (kind : TokenKind) : Token := ⟨kind, ⟨Place.start, 0⟩, false⟩

/-- Tokens that go on to a phrase of the grammar when others that can be written are put behind them. -/
def Opens {α : Type} (Derives : List Token → α → Prop) (front : List Token) : Prop :=
  ∃ more, (∀ t ∈ more, Writable t.kind) ∧ ∃ a, Derives (front ++ more) a

/-- Tokens the last of which is no opening parenthesis. -/
def PastParen (front : List Token) : Prop :=
  ∃ before l, front = before ++ [l] ∧ l.kind ≠ .mark .leftParen

/-- A token that is no string, or a string that does not follow an opening parenthesis. -/
def Loose (front : List Token) (t : Token) : Prop := ∀ text, t.kind = .string text → PastParen front

/-- A string behind the word and the parenthesis of a root declaration that is no path to declare.
The error stands at the token behind the closing parenthesis, or at the one in its place. -/
structure Misnames (finish : Token) (e : SyntaxError) (front rest : List Token) : Prop where
  named : ∃ before d l, front = before ++ [d, l] ∧ d.kind = .declareRoot ∧
    l.kind = .mark .leftParen
  path : ∃ p behind text, rest = p :: behind ∧ p.kind = .string text ∧ ¬ Declarable text ∧
    ((current finish behind).kind ≠ .mark .rightParen ∧
        e.place = (current finish behind).span.place ∨
      ∃ r later, behind = r :: later ∧ r.kind = .mark .rightParen ∧
        e.place = (current finish later).span.place)

/-- A reader stops with an error at the token behind some others: these go on to what it reads, and
nothing is read from them where that token follows.  The error stands at it, unless it misnames a
root. -/
structure Stops {α : Type} (read : Token → List Token → Except SyntaxError α)
    (GoesOn : List Token → Prop) (finish : Token) (ts : List Token) (e : SyntaxError)
    (front rest : List Token) : Prop where
  split : ts = front ++ rest
  opens : GoesOn front
  refuses : ∀ finish' rest', finish'.kind = .finish → current finish' rest' = current finish rest →
    ∃ e', read finish' (front ++ rest') = .error e'
  blames : e.place = (current finish rest).span.place ∧ Loose front (current finish rest) ∨
    Misnames finish e front rest

section

variable {α β : Type} {Derives : List Token → α → Prop} {Derives' : List Token → β → Prop}
  {finish finish' : Token} {ts rest rest' front : List Token} {e : SyntaxError}

/-- There is a name that can be written. -/
theorem writable_name : Writable (.identifier "x") := writable_word (c := 'x') rfl []

/-- A phrase goes on to itself. -/
theorem opens_of_derives {a : α} (h : Derives front a) : Opens Derives front :=
  ⟨[], nofun, a, by rwa [List.append_nil]⟩

/-- Tokens go on to a phrase that one more token completes. -/
theorem opens_of_filler {kind : TokenKind} (hkind : Writable kind) {a : α}
    (h : Derives (front ++ [.filler kind]) a) : Opens Derives front := by
  refine ⟨[.filler kind], fun t ht => ?_, a, h⟩
  rw [List.mem_singleton.1 ht]
  exact hkind

/-- Tokens behind others go on to a larger phrase, if each phrase behind these is part of one. -/
theorem Opens.behind {before : List Token}
    (hmore : ∀ us a, Derives us a → Opens Derives' (before ++ us)) (h : Opens Derives front) :
    Opens Derives' (before ++ front) := by
  obtain ⟨more, hmore', a, ha⟩ := h
  obtain ⟨others, hothers, b, hb⟩ := hmore _ a ha
  refine ⟨more ++ others, ?_, b, by simpa using hb⟩
  intro t ht
  rcases List.mem_append.1 ht with ht | ht
  · exact hmore' t ht
  · exact hothers t ht

/-- A root is misnamed whatever stands before its declaration. -/
theorem Misnames.behind (before : List Token) (h : Misnames finish e front rest) :
    Misnames finish e (before ++ front) rest := by
  obtain ⟨before', d, l, rfl, hd, hl⟩ := h.named
  exact ⟨⟨before ++ before', d, l, by simp, hd, hl⟩, h.path⟩

/-- The last token is the same whatever stands before. -/
theorem PastParen.behind (before : List Token) (h : PastParen front) :
    PastParen (before ++ front) := by
  obtain ⟨before', l, rfl, hl⟩ := h
  exact ⟨before ++ before', l, by rw [List.append_assoc], hl⟩

/-- A last token of another kind is no opening parenthesis. -/
theorem pastParen_concat {l : Token} {kind : TokenKind} (before : List Token) (hl : l.kind = kind)
    (hkind : kind ≠ .mark .leftParen) : PastParen (before ++ [l]) :=
  ⟨before, l, rfl, by rwa [hl]⟩

/-- What a string follows is the same whatever stands before. -/
theorem Loose.behind {t : Token} (before : List Token) (h : Loose front t) :
    Loose (before ++ front) t :=
  fun text htext => (h text htext).behind before

/-- Any token is loose behind one that is no opening parenthesis. -/
theorem PastParen.loose (h : PastParen front) (t : Token) : Loose front t := fun _ _ => h

/-- A token that is no string is loose. -/
theorem loose_of_kind {t : Token} (h : ∀ text, t.kind ≠ .string text) : Loose front t :=
  fun text htext => absurd htext (h text)

/-- The current token of two rests is one, also with tokens before them. -/
theorem current_append (h : current finish' rest' = current finish rest) (front : List Token) :
    current finish' (front ++ rest') = current finish (front ++ rest) := by
  cases front with
  | nil => exact h
  | cons t front => rfl

/-- Where a reader gives the tokens behind some others to another one and fails with it, both stop at
the same token. -/
theorem Stops.behind {read : Token → List Token → Except SyntaxError α}
    {read' : Token → List Token → Except SyntaxError β} {GoesOn GoesOn' : List Token → Prop}
    (h : Stops read GoesOn finish ts e front rest) (before : List Token)
    (hrefuses : ∀ finish' us e', finish'.kind = .finish →
      current finish' us = current finish ts → read finish' us = .error e' →
        read' finish' (before ++ us) = .error e')
    (hopens : GoesOn front → GoesOn' (before ++ front)) :
    Stops read' GoesOn' finish (before ++ ts) e (before ++ front) rest where
  split := by rw [h.split, List.append_assoc]
  opens := hopens h.opens
  refuses := by
    intro finish' rest' hfinish' hsame
    obtain ⟨e', he'⟩ := h.refuses finish' rest' hfinish' hsame
    rw [List.append_assoc]
    refine ⟨e', hrefuses finish' _ e' hfinish' ?_ he'⟩
    rw [h.split]
    exact current_append hsame front
  blames := h.blames.imp (fun ⟨hplace, hloose⟩ => ⟨hplace, hloose.behind before⟩)
    fun hmisnames => hmisnames.behind before

end

/-! ## Expressions -/

section

variable {finish : Token} {ts rest : List Token} {e : SyntaxError}

/-- The error at an unexpected token depends on that token alone. -/
theorem unexpected_congr {finish' : Token} {ts' : List Token}
    (h : current finish' ts' = current finish ts) : unexpected finish' ts' = unexpected finish ts := by
  rw [unexpected, unexpected, h]

/-- A mark that is missing is missed at the token in its place. -/
theorem expectMark_stops {symbol : Mark} (h : expectMark finish symbol ts = .error e) :
    (current finish ts).kind ≠ .mark symbol ∧ e.place = (current finish ts).span.place ∧
      ∀ finish' ts', current finish' ts' = current finish ts →
        expectMark finish' symbol ts' = .error e := by
  unfold expectMark at h ⊢
  split at h
  · cases h
  · rename_i hkind
    cases h
    refine ⟨hkind, rfl, fun finish' ts' hsame => ?_⟩
    rw [hsame, if_neg hkind]

/-- Behind a dot a token that is no name is unexpected. -/
theorem pathTail_of_not_identifier {d : Token} (hdot : d.kind = .mark .dot)
    (h : ∀ name, (current finish ts).kind ≠ .identifier name) :
    pathTail finish (d :: ts) = .error (unexpected finish ts) := by
  cases ts with
  | nil => exact if_pos hdot
  | cons t ts =>
    rw [pathTail, if_pos hdot]
    split
    · rename_i name hname
      exact absurd hname (h name)
    · rfl

/-- The reader of property names stops behind a dot that no name follows. -/
theorem pathTail_stops_dot {d : Token} (hdot : d.kind = .mark .dot)
    (h : ∀ name, (current finish ts).kind ≠ .identifier name) :
    Stops pathTail (Opens DerivesProperties) finish (d :: ts) (unexpected finish ts) [d] ts where
  split := rfl
  opens := opens_of_filler writable_name (.more hdot rfl .none)
  refuses := by
    intro finish' rest' _ hsame
    rw [← hsame] at h
    exact ⟨_, pathTail_of_not_identifier hdot h⟩
  blames := .inl ⟨rfl, (pastParen_concat [] hdot (by decide)).loose _⟩

/-- The reader of property names stops where it fails. -/
theorem pathTail_stops (hfinish : finish.kind = .finish) (h : pathTail finish ts = .error e) :
    ∃ front rest, Stops pathTail (Opens DerivesProperties) finish ts e front rest := by
  fun_induction pathTail finish ts generalizing e with
  | case1 => cases h
  | case2 d hdot =>
    cases h
    refine ⟨_, _, pathTail_stops_dot hdot ?_⟩
    rw [current, List.headD_nil, hfinish]
    simp
  | case3 => cases h
  | case4 => cases h
  | case5 d t ts hdot name hname e' hrec ih =>
    cases h
    obtain ⟨front, rest, hstops⟩ := ih hrec
    refine ⟨_, _, hstops.behind [d, t] ?_ (Opens.behind fun us names hnames => ?_)⟩
    · intro finish' us e' _ _ he
      show pathTail finish' (d :: t :: us) = _
      rw [pathTail, if_pos hdot, hname]
      simp only [he]
    · exact opens_of_derives (.more hdot hname hnames)
  | case6 d t ts hdot hother =>
    cases h
    exact ⟨_, _, pathTail_stops_dot hdot hother⟩
  | case7 => cases h

/-- A path fails just when its properties do. -/
theorem pathAfter_error_iff {name : String} :
    pathAfter finish name ts = .error e ↔ pathTail finish ts = .error e := by
  unfold pathAfter
  cases pathTail finish ts <;> simp

/-- The kinds of tokens that an expression begins with. -/
def TokenKind.begins : TokenKind → Bool
  | .number _ => true
  | .string _ => true
  | .identifier _ => true
  | .keyword word => word ≠ .var && word ≠ .throw
  | .mark symbol => symbol = .minus || symbol = .leftBrace
  | _ => false

/-- A token that begins no expression is unexpected. -/
theorem expression_of_not_begins (h : (current finish ts).kind.begins = false) :
    expression finish ts = .error (unexpected finish ts) := by
  cases ts with
  | nil => rfl
  | cons t ts =>
    change t.kind.begins = false at h
    simp only [expression]
    split <;> first | rfl | simp_all [TokenKind.begins]

/-- No tokens go on to an expression. -/
theorem opens_expression_nil : Opens DerivesExpression [] :=
  opens_of_filler writable_name (.path (.path rfl .none))

/-- An expression does not end with an opening parenthesis. -/
theorem DerivesExpression.pastParen {x : Expression} (h : DerivesExpression ts x) :
    PastParen ts := by
  cases h with
  | number kind | string kind | true kind | false kind | null kind | undefined kind =>
    exact pastParen_concat [] kind nofun
  | @negative m t n minus kind => exact pastParen_concat [m] kind nofun
  | @emptyObject l r left right => exact pastParen_concat [l] right nofun
  | path path =>
    cases path with
    | @path t ts name names named properties =>
      induction properties generalizing t name with
      | none => exact pastParen_concat [] named nofun
      | @more d u us name' names' dot named' _ ih => exact (ih named').behind [t, d]

/-- The reader of expressions stops where it fails. -/
theorem expression_stops (hfinish : finish.kind = .finish) (h : expression finish ts = .error e) :
    ∃ front rest, Stops expression (Opens DerivesExpression) finish ts e front rest := by
  by_cases hbegins : (current finish ts).kind.begins = false
  · rw [expression_of_not_begins hbegins] at h
    cases h
    refine ⟨[], ts, rfl, opens_expression_nil, ?_,
      .inl ⟨rfl, loose_of_kind fun text htext => ?_⟩⟩
    · intro finish' rest' _ hsame
      rw [← hsame] at hbegins
      exact ⟨_, expression_of_not_begins hbegins⟩
    · rw [htext] at hbegins
      cases hbegins
  cases ts with
  | nil =>
    refine absurd ?_ hbegins
    rw [current, List.headD_nil, hfinish]
    rfl
  | cons t ts =>
    simp only [expression] at h
    split at h
    · cases h
    · rename_i hminus
      split at h
      · cases h
      · rename_i hother
        cases h
        obtain ⟨n, hn⟩ : ∃ n, Writable (.number n) := ⟨_, writable_number (c := '0') rfl []⟩
        refine ⟨[t], ts, rfl, opens_of_filler hn (.negative hminus rfl), ?_,
          .inl ⟨rfl, (pastParen_concat [] hminus (by decide)).loose _⟩⟩
        intro finish' rest' _ hsame
        refine ⟨unexpected finish' rest', ?_⟩
        rw [List.singleton_append, expression, hminus]
        simp only [hsame]
    · cases h
    · cases h
    · cases h
    · cases h
    · cases h
    · rename_i hleft
      split at h
      · cases h
      · rename_i hmark
        cases h
        obtain ⟨-, hplace, hrefuses⟩ := expectMark_stops hmark
        refine ⟨[t], ts, rfl, opens_of_filler (writable_mark .rightBrace) (.emptyObject hleft rfl),
          ?_, .inl ⟨hplace, (pastParen_concat [] hleft (by decide)).loose _⟩⟩
        intro finish' rest' _ hsame
        refine ⟨e, ?_⟩
        rw [List.singleton_append, expression, hleft]
        simp only [hrefuses finish' rest' hsame]
    · rename_i name hname
      split at h
      · cases h
      · rename_i hp
        cases h
        obtain ⟨front, rest, hstops⟩ := pathTail_stops hfinish (pathAfter_error_iff.1 hp)
        refine ⟨_, _, hstops.behind [t] ?_ (Opens.behind fun us names hnames => ?_)⟩
        · intro finish' us e' _ _ he
          rw [List.singleton_append, expression, hname]
          simp only [pathAfter_error_iff.2 he]
        · exact opens_of_derives (.path (.path hname hnames))
    · cases hkind : t.kind with
      | keyword word => cases word <;> simp_all [current, TokenKind.begins]
      | mark symbol => cases symbol <;> simp_all [current, TokenKind.begins]
      | _ => simp_all [current, TokenKind.begins]

/-! ## Calls -/

/-- The reader of arguments stops where it fails. -/
theorem argumentList_stops (hfinish : finish.kind = .finish)
    (h : argumentList finish ts = .error e) :
    ∃ front rest, Stops argumentList (Opens DerivesArguments) finish ts e front rest := by
  induction hn : ts.length using Nat.strongRecOn generalizing ts e with
  | ind n ih =>
  rw [argumentList_eq] at h
  split at h
  · rename_i hx
    cases h
    obtain ⟨front, rest, hstops⟩ := expression_stops hfinish hx
    refine ⟨_, _, hstops.behind [] ?_ (Opens.behind fun us x hderives => ?_)⟩
    · intro finish' us e' _ _ he
      rw [List.nil_append, argumentList_eq, he]
    · exact opens_of_derives (.last hderives)
  · rename_i x left hx
    have hshorter := expression_shorter finish hx
    obtain ⟨us, rfl, hderives, hlocal⟩ := expression_takes hfinish hx
    split at h
    · rename_i hcomma
      obtain ⟨c, left, rfl, hkind⟩ := eq_cons_of_current hfinish hcomma nofun
      rw [List.length_cons] at hshorter
      split at h
      · cases h
      · rename_i hothers
        cases h
        obtain ⟨front, rest, hstops⟩ := ih left.length (by omega) hothers rfl
        have hwhole : us ++ c :: left = us ++ [c] ++ left := by simp
        rw [hwhole]
        refine ⟨_, _, hstops.behind (us ++ [c]) ?_ (Opens.behind fun vs xs hargs => ?_)⟩
        · intro finish' vs e' _ _ he
          rw [List.append_assoc, List.singleton_append, argumentList_eq,
            hlocal finish' (c :: vs) rfl]
          simp only [current, List.headD_cons, hkind, if_true, List.tail_cons, he]
        · refine opens_of_derives (a := x :: xs) ?_
          rw [List.append_assoc]
          exact .more hderives hkind hargs
    · rename_i hcomma
      split at h
      · cases h
      · rename_i hmark
        cases h
        obtain ⟨-, hplace, hrefuses⟩ := expectMark_stops hmark
        refine ⟨us, left, rfl, opens_of_derives (.last hderives), ?_,
          .inl ⟨hplace, hderives.pastParen.loose _⟩⟩
        intro finish' rest' _ hsame
        refine ⟨e, ?_⟩
        rw [argumentList_eq, hlocal finish' rest' hsame]
        simp only [hsame, hcomma, if_false, hrefuses finish' rest' hsame]

/-- The reader of what stands between the parentheses of a call stops where it fails. -/
theorem arguments_stops (hfinish : finish.kind = .finish) (h : arguments finish ts = .error e) :
    ∃ front rest, Stops arguments (Opens DerivesArguments) finish ts e front rest := by
  unfold arguments at h
  split at h
  · cases h
  · rename_i hright
    obtain ⟨front, rest, hstops⟩ := argumentList_stops hfinish h
    refine ⟨_, _, hstops.behind [] ?_ (Opens.behind fun us xs hargs => opens_of_derives hargs)⟩
    intro finish' us e' _ hsame he
    rw [List.nil_append, arguments, hsame, if_neg hright, he]

/-! ## Statements -/

/-- An action does not end with an opening parenthesis. -/
theorem DerivesAction.pastParen {what : Action} (h : DerivesAction ts what) : PastParen ts := by
  cases h with
  | @var v t name var named => exact pastParen_concat [v] named nofun
  | @init v t e ts name x var named equal value => exact value.pastParen.behind [v, t, e]
  | @declareRoot d l p r path declare left string right declarable =>
    exact pastParen_concat [d, l, p] right nofun
  | @throw t ts x throw value => exact value.pastParen.behind [t]
  | @assign ts us e p x target equal sameLine value =>
    have hwhole : ts ++ e :: us = ts ++ [e] ++ us := by simp
    rw [hwhole]
    exact value.pastParen.behind (ts ++ [e])
  | @call t l r name named left sameLine right => exact pastParen_concat [t, l] right nofun
  | @callWith t l r ts name xs named left sameLine args right =>
    exact pastParen_concat (t :: l :: ts) right nofun
  | expression value => exact value.pastParen

/-- The reader of actions stops where the binding fails. -/
theorem binding_stops (hfinish : finish.kind = .finish) {v : Token} (hvar : v.kind = .keyword .var)
    (h : binding finish ts = .error e) :
    ∃ front rest, Stops action (Opens DerivesAction) finish (v :: ts) e front rest := by
  have haction : ∀ (finish' : Token) (us : List Token),
      action finish' (v :: us) = binding finish' us := by
    intro finish' us
    rw [action, hvar]
  by_cases hname : ∃ name, (current finish ts).kind = .identifier name
  · obtain ⟨name, hname⟩ := hname
    obtain ⟨t, ts, rfl, hkind⟩ := eq_cons_of_current hfinish hname (by simp)
    simp only [binding, hkind] at h
    split at h
    · rename_i hequal
      obtain ⟨s, ts, rfl, hsign⟩ := eq_cons_of_current hfinish hequal (by simp)
      split at h
      · cases h
      · rename_i hx
        cases h
        obtain ⟨front, rest, hstops⟩ := expression_stops hfinish hx
        refine ⟨_, _, hstops.behind [v, t, s] ?_ (Opens.behind fun us x hvalue => ?_)⟩
        · intro finish' us e' _ _ he
          show action finish' (v :: t :: s :: us) = _
          simp only [haction, binding, hkind, current, List.headD_cons, hsign, if_true,
            List.tail_cons, he]
        · exact opens_of_derives (.init hvar hkind hsign hvalue)
    · cases h
  · have hbinding : ∀ (finish' : Token) (us : List Token),
        current finish' us = current finish ts →
          binding finish' us = .error (unexpected finish ts) := by
      intro finish' us hsame
      rw [← unexpected_congr hsame]
      cases us with
      | nil => rfl
      | cons u us =>
        simp only [binding]
        split
        · rename_i name hu
          exact absurd ⟨name, by rw [← hsame]; exact hu⟩ hname
        · rfl
    rw [hbinding finish ts rfl] at h
    cases h
    refine ⟨[v], ts, rfl, opens_of_filler writable_name (.var hvar rfl), ?_,
      .inl ⟨rfl, (pastParen_concat [] hvar (by simp)).loose _⟩⟩
    intro finish' rest' _ hsame
    exact ⟨_, (haction finish' rest').trans (hbinding finish' rest' hsame)⟩

/-- There is a path that can be written. -/
theorem writable_path : Writable (.string "x") :=
  writable_string (.inl rfl) (.plain (c := 'x') (by decide) (by decide) (by decide) .nil)

/-- There is a path that can be declared. -/
theorem declarable_x : Declarable "x" := by
  rw [← isDeclarable_iff]
  decide +kernel

/-- A mark that comes next is taken. -/
theorem expectMark_of_eq {symbol : Mark} {t : Token} (h : t.kind = .mark symbol) :
    expectMark finish symbol (t :: ts) = .ok ts := if_pos h

/-- Behind a parenthesis and a string, a root declaration goes on with the closing parenthesis, and
only then is the path looked at. -/
theorem rootDeclaration_path {l p : Token} {path : String} (hl : l.kind = .mark .leftParen)
    (hp : p.kind = .string path) : rootDeclaration finish (l :: p :: ts) =
      match expectMark finish .rightParen ts with
      | .error e => .error e
      | .ok rest =>
        if isDeclarable path then .ok (.declareRoot path, rest)
        else .error ⟨.invalidRoot path, (current finish rest).span.place⟩ := by
  obtain ⟨_, lspan, lbreak⟩ := l
  obtain ⟨_, pspan, pbreak⟩ := p
  cases hl
  cases hp
  rfl

/-- A root declaration fails with a path that cannot be declared, whatever follows. -/
theorem action_of_not_declarable {d l p : Token} {path : String} (hd : d.kind = .declareRoot)
    (hl : l.kind = .mark .leftParen) (hp : p.kind = .string path)
    (hpath : ¬ isDeclarable path = true) : ∃ e, action finish (d :: l :: p :: ts) = .error e := by
  simp only [action, hd, rootDeclaration_path hl hp, if_neg hpath]
  split
  · exact ⟨_, rfl⟩
  · exact ⟨_, rfl⟩

/-- The reader of actions stops where the root declaration fails. -/
theorem rootDeclaration_stops (hfinish : finish.kind = .finish) {d : Token}
    (hd : d.kind = .declareRoot) (h : rootDeclaration finish ts = .error e) :
    ∃ front rest, Stops action (Opens DerivesAction) finish (d :: ts) e front rest := by
  have haction : ∀ (finish' : Token) (us : List Token),
      action finish' (d :: us) = rootDeclaration finish' us := by
    intro finish' us
    rw [action, hd]
  have hmore : ∀ t ∈ [Token.filler (.string "x"), .filler (.mark .rightParen)],
      Writable t.kind := by
    simp [Token.filler, writable_path, writable_mark]
  unfold rootDeclaration at h
  split at h
  · rename_i hmark
    cases h
    obtain ⟨-, hplace, hrefuses⟩ := expectMark_stops hmark
    refine ⟨[d], ts, rfl, ?_, ?_, .inl ⟨hplace, (pastParen_concat [] hd (by simp)).loose _⟩⟩
    · refine ⟨.filler (.mark .leftParen) :: [.filler (.string "x"), .filler (.mark .rightParen)], ?_,
        _, .declareRoot hd rfl rfl rfl declarable_x⟩
      exact List.forall_mem_cons.2 ⟨writable_mark .leftParen, hmore⟩
    · intro finish' rest' _ hsame
      refine ⟨e, ?_⟩
      rw [List.singleton_append, haction, rootDeclaration, hrefuses finish' rest' hsame]
  · rename_i inner hmark
    obtain ⟨l, rfl, hl⟩ := eq_of_expectMark hfinish hmark
    have hopens : Opens DerivesAction [d, l] :=
      ⟨_, hmore, _, .declareRoot hd hl rfl rfl declarable_x⟩
    split at h
    · rename_i text htext
      obtain ⟨p, behind, rfl, hp⟩ := eq_cons_of_current hfinish htext (by simp)
      by_cases hvalid : isDeclarable text = true
      · split at h
        · rename_i hmark
          cases h
          obtain ⟨-, hplace, hrefuses⟩ := expectMark_stops hmark
          refine ⟨[d, l, p], behind, rfl, ?_, ?_,
            .inl ⟨hplace, (pastParen_concat [d, l] hp (by simp)).loose _⟩⟩
          · exact opens_of_filler (writable_mark .rightParen)
              (.declareRoot hd hl hp rfl ((isDeclarable_iff text).1 hvalid))
          · intro finish' rest' _ hsame
            refine ⟨e, ?_⟩
            show action finish' (d :: l :: p :: rest') = _
            rw [haction, rootDeclaration_path hl hp, hrefuses finish' rest' hsame]
        · rw [if_pos hvalid] at h
          cases h
      · refine ⟨[d, l], _, rfl, hopens, ?_, .inr ⟨⟨[], d, l, rfl, hd, hl⟩, p, behind, text, rfl, hp,
          fun hv => hvalid ((isDeclarable_iff text).2 hv), ?_⟩⟩
        · intro finish' rest' hfinish' hsame
          rw [← hsame] at htext
          obtain ⟨p', later, rfl, hp'⟩ := eq_cons_of_current hfinish' htext (by simp)
          exact action_of_not_declarable hd hl hp' hvalid
        · split at h
          · rename_i hmark
            cases h
            obtain ⟨hkind, hplace, -⟩ := expectMark_stops hmark
            exact .inl ⟨hkind, hplace⟩
          · rename_i later hmark
            obtain ⟨r, hbehind, hr⟩ := eq_of_expectMark hfinish hmark
            rw [if_neg hvalid] at h
            cases h
            exact .inr ⟨r, later, hbehind, hr, rfl⟩
    · rename_i hother
      cases h
      refine ⟨[d, l], inner, rfl, hopens, ?_, .inl ⟨rfl, loose_of_kind hother⟩⟩
      intro finish' rest' _ hsame
      refine ⟨unexpected finish' rest', ?_⟩
      show action finish' (d :: l :: rest') = _
      simp only [haction, rootDeclaration, expectMark_of_eq hl, hsame]

/-- The reader of actions stops where the statement fails that begins with a name. -/
theorem namedStatement_stops (hfinish : finish.kind = .finish) {t : Token} {name : String}
    (hname : t.kind = .identifier name) (h : namedStatement finish name ts = .error e) :
    ∃ front rest, Stops action (Opens DerivesAction) finish (t :: ts) e front rest := by
  have haction : ∀ (finish' : Token) (us : List Token),
      action finish' (t :: us) = namedStatement finish' name us := by
    intro finish' us
    rw [action, hname]
  cases hp : pathAfter finish name ts with
  | error e' =>
    rw [namedStatement, hp] at h
    cases h
    obtain ⟨front, rest, hstops⟩ := pathTail_stops hfinish (pathAfter_error_iff.1 hp)
    refine ⟨_, _, hstops.behind [t] ?_ (Opens.behind fun us names hnames => ?_)⟩
    · intro finish' us e' _ _ he
      rw [List.singleton_append, haction, namedStatement, pathAfter_error_iff.2 he]
    · exact opens_of_derives (.expression (.path (.path hname hnames)))
  | ok result =>
    obtain ⟨p, left⟩ := result
    obtain ⟨us, names, rfl, rfl, hderives, -⟩ := pathAfter_takes hfinish hp
    rcases namedStatement_cases (current finish left) names with
      ⟨hequal, hline⟩ | ⟨hparen, hline, rfl⟩ | ⟨hequal, hparen⟩
    · rw [namedStatement_assign hp hequal hline] at h
      obtain ⟨s, left, rfl, hsign⟩ := eq_cons_of_current hfinish hequal (by simp)
      split at h
      · cases h
      · rename_i hx
        cases h
        obtain ⟨front, rest, hstops⟩ := expression_stops hfinish hx
        have hwhole : t :: (us ++ s :: left) = t :: us ++ [s] ++ left := by simp
        rw [hwhole]
        refine ⟨_, _, hstops.behind (t :: us ++ [s]) ?_ (Opens.behind fun vs x hvalue => ?_)⟩
        · intro finish' vs e' _ _ he
          have hpath : pathAfter finish' name (us ++ s :: vs) = .ok (⟨name, names⟩, s :: vs) :=
            hderives.pathAfter_mark name hsign (by decide)
          rw [List.append_assoc, List.singleton_append, List.cons_append, haction,
            namedStatement_assign hpath hsign hline, List.tail_cons, he]
        · refine opens_of_derives (a := .assign ⟨name, names⟩ x) ?_
          rw [List.append_assoc]
          exact .assign (.path hname hderives) hsign hline hvalue
    · rw [namedStatement_call hp hparen hline] at h
      obtain ⟨l, left, rfl, hkind⟩ := eq_cons_of_current hfinish hparen (by simp)
      cases hderives
      split at h
      · cases h
      · rename_i hargs
        cases h
        obtain ⟨front, rest, hstops⟩ := arguments_stops hfinish hargs
        refine ⟨_, _, hstops.behind [t, l] ?_ (Opens.behind fun vs xs hderives => ?_)⟩
        · intro finish' vs e' _ _ he
          have hpath : pathAfter finish' name (l :: vs) = .ok (⟨name, []⟩, l :: vs) :=
            DerivesProperties.none.pathAfter_mark name hkind (by decide)
          show action finish' (t :: l :: vs) = _
          rw [haction, namedStatement_call hpath hkind hline, List.tail_cons, he]
        · exact opens_of_filler (writable_mark .rightParen)
            (.callWith hname hkind hline hderives rfl)
    · rw [namedStatement_path hp hequal hparen] at h
      cases h

/-- The reader of actions stops where it fails. -/
theorem action_stops (hfinish : finish.kind = .finish) (h : action finish ts = .error e) :
    ∃ front rest, Stops action (Opens DerivesAction) finish ts e front rest := by
  cases ts with
  | nil =>
    cases h
    have hopens : Opens DerivesAction [] :=
      opens_of_filler writable_name (.expression (.path (.path rfl .none)))
    refine ⟨[], [], rfl, hopens, ?_, .inl ⟨rfl, loose_of_kind ?_⟩⟩
    · intro finish' rest' _ hsame
      cases rest' with
      | nil => exact ⟨_, rfl⟩
      | cons t rest' =>
        have hkind : t.kind = .finish := (congrArg Token.kind hsame).trans hfinish
        refine ⟨unexpected finish' (t :: rest'), ?_⟩
        simp only [List.nil_append, action, expression, hkind]
    · rw [current, List.headD_nil, hfinish]
      simp
  | cons t ts =>
    by_cases hvar : t.kind = .keyword .var
    · rw [action, hvar] at h
      exact binding_stops hfinish hvar h
    by_cases hroot : t.kind = .declareRoot
    · rw [action, hroot] at h
      exact rootDeclaration_stops hfinish hroot h
    by_cases hthrow : t.kind = .keyword .throw
    · rw [action, hthrow] at h
      simp only at h
      split at h
      · cases h
      · rename_i hx
        cases h
        obtain ⟨front, rest, hstops⟩ := expression_stops hfinish hx
        refine ⟨_, _, hstops.behind [t] ?_ (Opens.behind fun us x hvalue => ?_)⟩
        · intro finish' us e' _ _ he
          rw [List.singleton_append, action, hthrow]
          simp only [he]
        · exact opens_of_derives (.throw hthrow hvalue)
    by_cases hname : ∃ name, t.kind = .identifier name
    · obtain ⟨name, hname⟩ := hname
      rw [action, hname] at h
      exact namedStatement_stops hfinish hname h
    · have hother : ∀ name, t.kind ≠ .identifier name := fun name h => hname ⟨name, h⟩
      rw [action_of_other hvar hroot hthrow hother] at h
      split at h
      · cases h
      · rename_i hx
        cases h
        obtain ⟨front, rest, hstops⟩ := expression_stops hfinish hx
        refine ⟨_, _, hstops.behind [] ?_ (Opens.behind fun us x hvalue => ?_)⟩
        · intro finish' us e' hfinish' hsame he
          cases us with
          | nil =>
            cases he
            rfl
          | cons u us =>
            -- The token is the one that the statement began with.
            change u = t at hsame
            subst hsame
            rw [List.nil_append, action_of_other hvar hroot hthrow hother, he]
        · exact opens_of_derives (.expression hvalue)

/-! ## Programs -/

/-- Tokens that go on to a program. -/
def OpensProgram (front : List Token) : Prop :=
  ∃ more, (∀ t ∈ more, Writable t.kind) ∧
    ∃ program, DerivesProgram (front ++ more ++ [.filler .finish]) program

/-- An action by itself is a program. -/
theorem DerivesAction.program {what : Action} (h : DerivesAction ts what) :
    ∃ program, DerivesProgram (ts ++ [.filler .finish]) program := by
  obtain ⟨t, us, rfl, -⟩ := h.exists_cons
  exact ⟨_, .broken h (.inr rfl) (.finish rfl)⟩

/-- Tokens that go on to an action go on to a program. -/
theorem Opens.program (h : Opens DerivesAction ts) : OpensProgram ts := by
  obtain ⟨more, hmore, what, hwhat⟩ := h
  exact ⟨more, hmore, hwhat.program⟩

/-- So do they behind a semicolon. -/
theorem OpensProgram.semicolon {t : Token} (hkind : t.kind = .mark .semicolon)
    (h : OpensProgram ts) : OpensProgram (t :: ts) := by
  obtain ⟨more, hmore, program, hprogram⟩ := h
  exact ⟨more, hmore, program, .semicolon hkind hprogram⟩

/-- So do they behind an action with a semicolon. -/
theorem OpensProgram.closed {t s : Token} {us : List Token} {what : Action}
    (hwhat : DerivesAction (t :: us) what) (hsemicolon : s.kind = .mark .semicolon)
    (h : OpensProgram ts) : OpensProgram (t :: us ++ [s] ++ ts) := by
  obtain ⟨more, hmore, program, hprogram⟩ := h
  refine ⟨more, hmore, ⟨what, t.span⟩ :: program, ?_⟩
  have hderives := DerivesProgram.closed hwhat hsemicolon hprogram
  simpa using hderives

/-- So do they on the line behind an action. -/
theorem OpensProgram.broken {t : Token} {us : List Token} {what : Action}
    (hwhat : DerivesAction (t :: us) what)
    (hbreak : ∀ next vs, ts = next :: vs → next.newlineBefore = true) (h : OpensProgram ts) :
    OpensProgram (t :: us ++ ts) := by
  cases ts with
  | nil =>
    rw [List.append_nil]
    exact (opens_of_derives hwhat).program
  | cons next vs =>
    obtain ⟨more, hmore, program, hprogram⟩ := h
    refine ⟨more, hmore, ⟨what, t.span⟩ :: program, ?_⟩
    rw [List.append_assoc, List.append_assoc]
    exact .broken hwhat (.inl (hbreak next vs rfl)) (by simpa using hprogram)

/-- An error in what follows a statement is an error of the whole. -/
theorem statements_error_of_action {t : Token} {us left : List Token} {what : Action}
    (hwhat : DerivesAction (t :: us) what)
    (haction : action finish (t :: us ++ rest) = .ok (what, rest))
    (hend : statementEnd finish rest = .ok left) (hleft : statements finish left = .error e) :
    statements finish (t :: us ++ rest) = .error e := by
  rw [List.cons_append] at haction ⊢
  rw [statements_cons, if_neg hwhat.parts.2.1, statement, haction]
  simp only [hend, hleft]

/-- The reader of statements stops where it fails. -/
theorem statement_stops (hfinish : finish.kind = .finish) (hts : ∀ t ∈ ts, t.kind ≠ .finish)
    (h : statement finish ts = .error e) :
    ∃ front rest, Stops statement OpensProgram finish ts e front rest := by
  unfold statement at h
  split at h
  · rename_i haction
    cases h
    obtain ⟨front, rest, hstops⟩ := action_stops hfinish haction
    refine ⟨_, _, hstops.behind [] ?_ Opens.program⟩
    intro finish' us e' _ _ he
    rw [List.nil_append, statement, he]
  · rename_i what rest haction
    split at h
    · rename_i hend
      cases h
      obtain ⟨us, rfl, hderives, hlocal⟩ := action_takes hfinish haction
      cases rest with
      | nil => cases hend
      | cons next rest =>
        have hnext : next.kind ≠ .finish :=
          hts next (List.mem_append_right us List.mem_cons_self)
        rw [statementEnd] at hend
        split at hend
        · cases hend
        · rename_i hopen
          split at hend
          · cases hend
          · rename_i hline
            cases hend
            refine ⟨us, _, rfl, (opens_of_derives hderives).program, ?_,
              .inl ⟨rfl, hderives.pastParen.loose _⟩⟩
            intro finish' rest' hfinish' hsame
            obtain ⟨next', later, rfl, -⟩ :=
              eq_cons_of_current hfinish' (congrArg Token.kind hsame) hnext
            change next' = next at hsame
            subst hsame
            refine ⟨unexpected finish' (next' :: later), ?_⟩
            rw [statement, hlocal finish' (next' :: later) rfl]
            simp only [statementEnd, if_neg hopen, if_neg hline]
    · cases h

/-- Where the statements of a source come to an error, they stop at a token: those before it go on to a
program, and with it nothing does. -/
theorem statements_stops (hfinish : finish.kind = .finish) (hts : ∀ t ∈ ts, t.kind ≠ .finish)
    (h : statements finish ts = .error e) :
    ∃ front rest, Stops statements OpensProgram finish ts e front rest := by
  induction hn : ts.length using Nat.strongRecOn generalizing ts e with
  | ind n ih =>
  cases ts with
  | nil =>
    rw [statements] at h
    cases h
  | cons t ts =>
    have ht : t.kind ≠ .finish := hts t List.mem_cons_self
    rw [List.length_cons] at hn
    rw [statements_cons] at h
    split at h
    · rename_i hsemicolon
      have hbehind : ∀ u ∈ ts, u.kind ≠ .finish := fun u hu => hts u (List.mem_cons_of_mem _ hu)
      obtain ⟨front, rest, hstops⟩ := ih ts.length (by omega) hbehind h rfl
      refine ⟨_, _, hstops.behind [t] ?_ (OpensProgram.semicolon hsemicolon)⟩
      intro finish' us e' _ _ he
      rw [List.singleton_append, statements_cons, if_pos hsemicolon, he]
    · rename_i hsemicolon
      split at h
      · rename_i hs
        cases h
        obtain ⟨front, rest, hstops⟩ := statement_stops hfinish hts hs
        refine ⟨_, _, hstops.behind [] ?_ id⟩
        intro finish' us e' hfinish' hsame he
        obtain ⟨u, us, rfl, -⟩ := eq_cons_of_current hfinish' (congrArg Token.kind hsame) ht
        change u = t at hsame
        subst hsame
        rw [List.nil_append, statements_cons, if_neg hsemicolon, he]
      · rename_i s left hs
        have hshorter : left.length < (t :: ts).length := statement_shorter finish hs
        have hleft : ∀ u ∈ left, u.kind ≠ .finish := fun u hu =>
          hts u ((suffix_of_statement hfinish hs).subset hu)
        rw [List.length_cons] at hshorter
        split at h
        · cases h
        · rename_i hothers
          cases h
          obtain ⟨front, rest, hstops⟩ := ih left.length (by omega) hleft hothers rfl
          obtain ⟨t', us, what, behind, hsplit, -, hderives, hend, hlocal⟩ :=
            statement_takes hfinish hs
          rw [hsplit]
          cases behind with
          | nil =>
            cases hend
            rw [statements] at hothers
            cases hothers
          | cons next behind =>
            rw [statementEnd] at hend
            split at hend
            · rename_i hclosed
              cases hend
              have hwhole : t' :: us ++ next :: left = t' :: us ++ [next] ++ left := by simp
              rw [hwhole]
              refine ⟨_, _, hstops.behind (t' :: us ++ [next]) ?_
                (OpensProgram.closed hderives hclosed)⟩
              intro finish' vs e' _ _ he
              rw [List.append_assoc]
              exact statements_error_of_action hderives (hlocal finish' (next :: vs) rfl)
                (if_pos hclosed) he
            · rename_i hopen
              split at hend
              · rename_i hline
                cases hend
                have hbreak : ∀ u vs, front = u :: vs → u.newlineBefore = true := by
                  rintro u vs rfl
                  obtain ⟨rfl, -⟩ := List.cons.inj hstops.split
                  exact hline
                refine ⟨_, _, hstops.behind (t' :: us) ?_ (OpensProgram.broken hderives hbreak)⟩
                intro finish' vs e' hfinish' hsame he
                obtain ⟨u, vs, rfl, -⟩ := eq_cons_of_current hfinish'
                  (congrArg Token.kind hsame) (hleft next List.mem_cons_self)
                change u = next at hsame
                subst hsame
                refine statements_error_of_action hderives (hlocal finish' (u :: vs) rfl) ?_ he
                rw [statementEnd, if_neg hopen, if_pos hline]
              · cases hend

end

end ModuleLoader.Script
