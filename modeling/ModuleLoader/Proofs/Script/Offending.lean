import ModuleLoader.Proofs.Script.Stopping

/-!
# The first token that is wrong

Tokens are viable when a program begins with tokens that say the same.  The tokens of a source that is
no program are viable up to some token, and not any more with that one: it is the first that is
wrong, and the end of the source may be it.  Main statement: `parseProgram_error_place`, a syntax
error stands at the first wrong token just when this is not the path of a root declaration; for such a
path it stands at a token behind.
-/

set_option autoImplicit false

namespace ModuleLoader.Script

/-! ## Viable tokens -/

/-- Some program begins with tokens that say what these say. -/
def Viable (front : List Token) : Prop :=
  ∃ source program, parseProgram source = .ok program ∧
    front.map Token.said <+: (tokens source).map Token.said

/-- Tokens that say the same are alike, wherever they stand. -/
theorem tokensAlike_of_said {ts us : List Token} (h : us.map Token.said = ts.map Token.said) :
    TokensAlike (fun _ _ => True) ts us := by
  rw [← List.forall₂_eq_eq_eq] at h
  have halike := List.forall₂_map_left_iff.1 (List.forall₂_map_right_iff.1 h)
  refine halike.flip.imp fun t u hsaid => ?_
  obtain ⟨hkind, hline⟩ := Prod.mk.inj hsaid
  exact ⟨hkind, hline, trivial⟩

/-- Tokens that say what those of a program say are a program. -/
theorem exists_program_of_said {finish finish' : Token} {ts us : List Token} {program : Program}
    (hfinish : finish.kind = .finish) (hfinish' : finish'.kind = .finish)
    (hsaid : us.map Token.said = ts.map Token.said) (h : statements finish ts = .ok program) :
    ∃ program', statements finish' us = .ok program' := by
  have hends : EndsAlike (fun _ _ => True) (fun _ _ => True) finish finish' :=
    ⟨hfinish, hfinish', trivial, fun _ _ _ => trivial⟩
  rcases statements_alike hends (tokensAlike_of_said hsaid) with
    ⟨_, program', -, hok, -⟩ | ⟨e, _, he, -⟩
  · exact ⟨program', hok⟩
  · rw [h] at he
    cases he

/-- Tokens of which nothing is read are not viable with the token they are refused at. -/
theorem not_viable_of_refuses {finish : Token} {front rest : List Token}
    (h : ∀ finish' rest', finish'.kind = .finish → current finish' rest' = current finish rest →
      ∃ e, statements finish' (front ++ rest') = .error e) :
    ¬ Viable (front ++ [current finish rest]) := by
  rintro ⟨source, program, hparse, others, hothers⟩
  obtain ⟨ts, last, htokens, hlast, -⟩ := tokensFrom_concat ⟨source.toList, Place.start⟩
  have hall : tokens source = ts ++ [last] := htokens
  rw [parseProgram_eq, programFrom_of_tokens htokens] at hparse
  rw [hall, List.map_append, List.append_assoc, eq_comm, List.map_eq_append_iff] at hothers
  obtain ⟨front', behind, hsplit, hfront, hbehind⟩ := hothers
  obtain ⟨t, later, rfl, ht, -⟩ := List.map_eq_cons_iff.1 hbehind
  obtain ⟨hkind, -⟩ := Prod.mk.inj ht
  rcases List.eq_nil_or_concat later with rfl | ⟨later, last', rfl⟩
  · -- The token refused is the end of the source.
    obtain ⟨rfl, hend⟩ := List.append_inj' hsplit rfl
    cases hend
    obtain ⟨e, he⟩ := h (current finish rest) [] (hkind.symm.trans hlast) rfl
    obtain ⟨program', hok⟩ := exists_program_of_said hlast (hkind.symm.trans hlast)
      hfront.symm hparse
    rw [List.append_nil, hok] at he
    cases he
  · have hwhole : ts ++ [last] = front' ++ t :: later ++ [last'] := by simpa using hsplit
    obtain ⟨rfl, -⟩ := List.append_inj' hwhole rfl
    obtain ⟨e, he⟩ := h last (current finish rest :: later) hlast rfl
    have hsaid : (front ++ current finish rest :: later).map Token.said =
        (front' ++ t :: later).map Token.said := by
      rw [List.map_append, List.map_append, List.map_cons, List.map_cons, hfront, ht]
    obtain ⟨program', hok⟩ := exists_program_of_said hlast hlast hsaid hparse
    rw [hok] at he
    cases he

/-- The front of viable tokens is viable. -/
theorem Viable.of_append {front more : List Token} (h : Viable (front ++ more)) : Viable front := by
  obtain ⟨source, program, hparse, hprefix⟩ := h
  refine ⟨source, program, hparse, List.IsPrefix.trans ?_ hprefix⟩
  rw [List.map_append]
  exact List.prefix_append _ _

/-- A root declaration is not viable with a path that cannot be declared. -/
theorem not_viable_of_not_declarable {d l p : Token} {path : String} (hd : d.kind = .declareRoot)
    (hl : l.kind = .mark .leftParen) (hp : p.kind = .string path)
    (hpath : ¬ isDeclarable path = true) : ¬ Viable [d, l, p] := by
  have hrefused : ¬ Viable ([d, l] ++ [current p []]) := by
    refine not_viable_of_refuses fun finish' rest' hfinish' hsame => ?_
    obtain ⟨p', later, rfl, hp'⟩ :=
      eq_cons_of_current hfinish' ((congrArg Token.kind hsame).trans hp) nofun
    obtain ⟨e, he⟩ := @action_of_not_declarable finish' later d l p' path hd hl hp' hpath
    refine ⟨e, ?_⟩
    show statements finish' (d :: l :: p' :: later) = _
    rw [statements_cons, if_neg (by rw [hd]; nofun), statement, he]
  exact hrefused

/-! ## Derived tokens -/

/-- A token that is neither cut off nor unknown. -/
def Token.Meant (t : Token) : Prop := t.kind ≠ .unterminated ∧ ∀ c, t.kind ≠ .invalid c

section

variable {ts : List Token}

/-- No token of derived properties is cut off or unknown. -/
theorem DerivesProperties.meant {names : List String} (h : DerivesProperties ts names) :
    ∀ t ∈ ts, t.Meant := by
  induction h with
  | none => nofun
  | more dot named _ ih => simpa [Token.Meant, dot, named] using ih

/-- No token of a derived path is cut off or unknown. -/
theorem DerivesPath.meant {p : Path} (h : DerivesPath ts p) : ∀ t ∈ ts, t.Meant := by
  cases h with
  | path named properties => simpa [Token.Meant, named] using properties.meant

/-- No token of a derived expression is cut off or unknown. -/
theorem DerivesExpression.meant {x : Expression} (h : DerivesExpression ts x) :
    ∀ t ∈ ts, t.Meant := by
  cases h with
  | number kind | string kind | true kind | false kind | null kind | undefined kind =>
    simp [Token.Meant, kind]
  | negative minus kind => simp [Token.Meant, minus, kind]
  | emptyObject left right => simp [Token.Meant, left, right]
  | path path => exact path.meant

/-- No token of derived arguments is cut off or unknown. -/
theorem DerivesArguments.meant {xs : List Expression} (h : DerivesArguments ts xs) :
    ∀ t ∈ ts, t.Meant := by
  induction h with
  | last first => exact first.meant
  | more first comma _ ih =>
    refine List.forall_mem_append.2 ⟨first.meant, List.forall_mem_cons.2 ⟨?_, ih⟩⟩
    simp [Token.Meant, comma]

/-- No token of a derived action is cut off or unknown. -/
theorem DerivesAction.meant {what : Action} (h : DerivesAction ts what) : ∀ t ∈ ts, t.Meant := by
  cases h with
  | var var named => simp [Token.Meant, var, named]
  | init var named equal value => simpa [Token.Meant, var, named, equal] using value.meant
  | declareRoot declare left string right _ => simp [Token.Meant, declare, left, string, right]
  | throw throw value => simpa [Token.Meant, throw] using value.meant
  | assign target equal _ value =>
    refine List.forall_mem_append.2 ⟨target.meant, List.forall_mem_cons.2 ⟨?_, value.meant⟩⟩
    simp [Token.Meant, equal]
  | call named left _ right => simp [Token.Meant, named, left, right]
  | callWith named left _ args right =>
    refine List.forall_mem_cons.2 ⟨by simp [Token.Meant, named], List.forall_mem_cons.2 ⟨?_, ?_⟩⟩
    · simp [Token.Meant, left]
    · exact List.forall_mem_append.2 ⟨args.meant, by simp [Token.Meant, right]⟩
  | expression value => exact value.meant

/-- No token of a derived program is cut off or unknown. -/
theorem DerivesProgram.meant {program : Program} (h : DerivesProgram ts program) :
    ∀ t ∈ ts, t.Meant := by
  induction h with
  | finish kind => simp [Token.Meant, kind]
  | semicolon kind _ ih => exact List.forall_mem_cons.2 ⟨by simp [Token.Meant, kind], ih⟩
  | closed action semicolon _ ih =>
    refine List.forall_mem_append.2 ⟨action.meant, List.forall_mem_cons.2 ⟨?_, ih⟩⟩
    simp [Token.Meant, semicolon]
  | broken action _ _ ih => exact List.forall_mem_append.2 ⟨action.meant, ih⟩

end

/-- Tokens of a source that go on to a program are viable, since what they go on to can be written. -/
theorem OpensProgram.viable {front : List Token} (h : OpensProgram front) (source : String)
    (hfront : ∀ t ∈ front, t ∈ tokens source ∧ t.kind ≠ .finish) : Viable front := by
  obtain ⟨more, hmore, program, hprogram⟩ := h
  have hwritable : ∀ s ∈ (front ++ more).map Token.said, Writable s.1 := by
    intro s hs
    obtain ⟨t, ht, rfl⟩ := List.mem_map.1 hs
    rcases List.mem_append.1 ht with ht | ht
    · obtain ⟨hmem, hkind⟩ := hfront t ht
      obtain ⟨hcut, hknown⟩ := hprogram.meant t (by simp [ht])
      rcases writable_tokensFrom _ t hmem with h | h | h | ⟨c, h⟩
      · exact h
      · exact absurd h hkind
      · exact absurd h hcut
      · exact absurd h (hknown c)
    · exact hmore t ht
  obtain ⟨source', hsource⟩ := exists_source hwritable
  obtain ⟨ts, last, htokens, hlast, -⟩ := tokensFrom_concat ⟨source'.toList, Place.start⟩
  have hall : tokens source' = ts ++ [last] := htokens
  have hsaid : ts.map Token.said = (front ++ more).map Token.said := by
    rw [hall, List.map_append] at hsource
    exact (List.append_inj' hsource rfl).1
  obtain ⟨us, finish, hus, hfinish, hreads⟩ := hprogram.reads
  obtain ⟨rfl, -⟩ := List.append_inj' hus rfl
  obtain ⟨program', hok⟩ := exists_program_of_said hfinish hlast hsaid hreads
  refine ⟨source', program', (programFrom_of_tokens htokens).trans hok, ?_⟩
  rw [hall, List.map_append, hsaid, List.map_append, List.append_assoc]
  exact List.prefix_append _ _

/-! ## Places -/

/-- A token starts at the cursor or behind it, and ends behind its start unless it is the finish. -/
theorem offset_nextToken (c : Cursor) : c.place.offset ≤ (nextToken c).1.span.place.offset ∧
    ((nextToken c).1.kind ≠ .finish →
      (nextToken c).1.span.place.offset < (nextToken c).2.place.offset) := by
  constructor
  · show _ ≤ (c.place.after _).offset
    rw [Place.offset_after]
    omega
  · intro hkind
    cases hrest : (trivia .code c.rest).rest with
    | nil => exact absurd (value_lexeme_eq_finish.2 hrest) hkind
    | cons d r =>
      obtain ⟨tail, htaken⟩ := taken_lexemeAt d r
      have hplace : (nextToken c).2.place = (nextToken c).1.span.place.after (d :: tail) := by
        simp only [nextToken, hrest, lexeme, htaken]
      have hstep : ∀ p : Place, p.offset < (p.step d).offset := by
        intro p
        have hsize := d.utf8Size_pos
        unfold Place.step
        split <;> simp only <;> omega
      rw [hplace, Place.after_cons, Place.offset_after]
      exact Nat.lt_add_right _ (hstep _)

/-- Each token of a text begins behind those before it. -/
theorem pairwise_tokensFrom (c : Cursor) :
    (∀ t ∈ tokensFrom c, c.place.offset ≤ t.span.place.offset) ∧
      (tokensFrom c).Pairwise fun t u => t.span.place.offset < u.span.place.offset := by
  fun_induction tokensFrom c with
  | case1 c hfinish => simp [(offset_nextToken c).1]
  | case2 c hmore ih =>
    obtain ⟨hle, hlt⟩ := offset_nextToken c
    have hbehind := hlt hmore
    refine ⟨List.forall_mem_cons.2 ⟨hle, fun t ht => ?_⟩, List.pairwise_cons.2 ⟨fun t ht => ?_, ih.2⟩⟩
    · have := ih.1 t ht
      omega
    · have := ih.1 t ht
      omega

/-! ## Errors -/

/-- A token is the path of a root declaration that the tokens before it begin. -/
def NamesRoot (front : List Token) (t : Token) : Prop :=
  ∃ before d l path, front = before ++ [d, l] ∧ d.kind = .declareRoot ∧
    l.kind = .mark .leftParen ∧ t.kind = .string path

/-- A string that does not follow an opening parenthesis is no path of a root declaration. -/
theorem Loose.not_namesRoot {front : List Token} {t : Token} (h : Loose front t) :
    ¬ NamesRoot front t := by
  rintro ⟨before, d, l, path, rfl, -, hl, hpath⟩
  obtain ⟨before', l', hlast, hkind⟩ := h path hpath
  have hwhole : before ++ [d] ++ [l] = before' ++ [l'] := by simpa using hlast
  obtain ⟨-, heq⟩ := List.append_inj' hwhole rfl
  obtain rfl := List.singleton_inj.1 heq
  exact hkind hl

/-- A place behind the path of a root declaration: that of the token where the closing parenthesis
should be, or that of the token behind this parenthesis. -/
def BehindPath (rest : List Token) (p : Place) : Prop :=
  (∃ u later, rest = u :: later ∧ u.kind ≠ .mark .rightParen ∧ p = u.span.place) ∨
    ∃ r u later, rest = r :: u :: later ∧ r.kind = .mark .rightParen ∧ p = u.span.place

/-- A place behind the path is that of a token. -/
theorem BehindPath.mem {rest : List Token} {p : Place} (h : BehindPath rest p) :
    ∃ u ∈ rest, p = u.span.place := by
  rcases h with ⟨u, later, rfl, -, hp⟩ | ⟨r, u, later, rfl, -, hp⟩
  · exact ⟨u, by simp, hp⟩
  · exact ⟨u, by simp, hp⟩

/-- Tokens with their finish begin with the current one. -/
theorem concat_eq_current (finish : Token) (ts : List Token) :
    ts ++ [finish] = current finish ts :: (ts ++ [finish]).tail := by
  cases ts <;> rfl

/-- A misnamed root is the path of a root declaration that cannot be declared, and the error stands
behind it. -/
theorem Misnames.namesRoot {finish : Token} {e : SyntaxError} {front rest : List Token}
    (h : Misnames finish e front rest) : NamesRoot front (current finish rest) ∧
      (∃ path, (current finish rest).kind = .string path ∧ ¬ Declarable path) ∧
      BehindPath (rest ++ [finish]).tail e.place := by
  obtain ⟨before, d, l, rfl, hd, hl⟩ := h.named
  obtain ⟨p, behind, path, rfl, hp, hpath, hplace⟩ := h.path
  refine ⟨⟨before, d, l, path, rfl, hd, hl, hp⟩, ⟨path, hp, hpath⟩, ?_⟩
  rcases hplace with ⟨hkind, hplace⟩ | ⟨r, later, rfl, hr, hplace⟩
  · exact .inl ⟨_, _, concat_eq_current finish behind, hkind, hplace⟩
  · exact .inr ⟨r, _, _, congrArg (r :: ·) (concat_eq_current finish later), hr, hplace⟩

/-- The tokens of a source that is no program are viable up to one and not with it.  The error stands
at that token, except where it is the path of a root declaration; then the path cannot be declared,
and the error stands behind it. -/
theorem parseProgram_error_place {source : String} {e : SyntaxError}
    (h : parseProgram source = .error e) : ∃ front t rest, tokens source = front ++ t :: rest ∧
      Viable front ∧ ¬ Viable (front ++ [t]) ∧ (e.place = t.span.place ↔ ¬ NamesRoot front t) ∧
      (NamesRoot front t →
        (∃ path, t.kind = .string path ∧ ¬ Declarable path) ∧ BehindPath rest e.place) := by
  obtain ⟨ts, finish, htokens, hfinish, -, hts⟩ := tokensFrom_concat ⟨source.toList, Place.start⟩
  have hall : tokens source = ts ++ [finish] := htokens
  rw [parseProgram_eq, programFrom_of_tokens htokens] at h
  obtain ⟨front, rest, hstops⟩ := statements_stops hfinish (fun t ht => (hts t ht).1) h
  have hviable : Viable front := by
    refine hstops.opens.viable source fun t ht => ?_
    have hmem : t ∈ ts := by
      rw [hstops.split]
      exact List.mem_append_left _ ht
    refine ⟨?_, (hts t hmem).1⟩
    rw [hall]
    exact List.mem_append_left _ hmem
  have hwhole : tokens source = front ++ current finish rest :: (rest ++ [finish]).tail := by
    rw [← concat_eq_current, hall, hstops.split, List.append_assoc]
  refine ⟨front, current finish rest, _, hwhole, hviable, not_viable_of_refuses hstops.refuses, ?_⟩
  rcases hstops.blames with ⟨hplace, hloose⟩ | hmisnames
  · exact ⟨iff_of_true hplace hloose.not_namesRoot, fun hroot => absurd hroot hloose.not_namesRoot⟩
  · obtain ⟨hroot, hpath, hbehind⟩ := hmisnames.namesRoot
    have hplace : e.place ≠ (current finish rest).span.place := by
      have hpairwise : (tokens source).Pairwise _ :=
        (pairwise_tokensFrom ⟨source.toList, Place.start⟩).2
      rw [hwhole, List.pairwise_append, List.pairwise_cons] at hpairwise
      obtain ⟨u, hu, hplace⟩ := hbehind.mem
      have hlt := hpairwise.2.1.1 u hu
      intro he
      rw [← hplace.symm.trans he] at hlt
      exact Nat.lt_irrefl _ hlt
    exact ⟨iff_of_false hplace (not_not_intro hroot), fun _ => ⟨hpath, hbehind⟩⟩

/-- A path that cannot be declared is the first wrong token, and the error stands on the next line. -/
theorem parseProgram_error_place_nextLine :
    let source := "declare-root('a..b')\nlog()"
    parseProgram source = .error ⟨.invalidRoot "a..b", ⟨21, 2, 1⟩⟩ ∧
      ∃ front t rest, tokens source = front ++ t :: rest ∧ Viable front ∧ ¬ Viable (front ++ [t]) ∧
        t.kind = .string "a..b" ∧ t.span.place = ⟨13, 1, 14⟩ := by
  intro source
  have hparse : parseProgram source = .error ⟨.invalidRoot "a..b", ⟨21, 2, 1⟩⟩ := by
    decide +kernel +revert
  refine ⟨hparse, ?_⟩
  have htokens : (tokens source).map (fun t => (t.kind, t.span.place)) =
      [(.declareRoot, ⟨0, 1, 1⟩), (.mark .leftParen, ⟨12, 1, 13⟩), (.string "a..b", ⟨13, 1, 14⟩),
        (.mark .rightParen, ⟨19, 1, 20⟩), (.identifier "log", ⟨21, 2, 1⟩),
        (.mark .leftParen, ⟨24, 2, 4⟩), (.mark .rightParen, ⟨25, 2, 5⟩), (.finish, ⟨26, 2, 6⟩)] := by
    decide +kernel +revert
  obtain ⟨front, t, rest, hwhole, hviable, hwrong, hplace, -⟩ := parseProgram_error_place hparse
  refine ⟨front, t, rest, hwhole, hviable, hwrong, ?_⟩
  by_cases hroot : NamesRoot front t
  · -- No other token of the source is a string.
    obtain ⟨-, -, -, path, -, -, -, hpath⟩ := hroot
    have hmem : (t.kind, t.span.place) ∈ (tokens source).map fun t => (t.kind, t.span.place) :=
      List.mem_map_of_mem (by simp [hwhole])
    rw [htokens, hpath] at hmem
    rw [hpath]
    simpa using hmem
  · exfalso
    have hstands : ⟨21, 2, 1⟩ = t.span.place := hplace.2 hroot
    rw [hwhole] at htokens
    rcases front with _ | ⟨d, _ | ⟨l, _ | ⟨p, front⟩⟩⟩
    · simp [← hstands] at htokens
    · simp [← hstands] at htokens
    · simp [← hstands] at htokens
    · simp only [List.cons_append, List.map_cons, List.cons.injEq, Prod.mk.injEq] at htokens
      obtain ⟨⟨hd, -⟩, ⟨hl, -⟩, ⟨hp, -⟩, -⟩ := htokens
      have hpath : ¬ isDeclarable "a..b" = true := by decide +kernel
      exact not_viable_of_not_declarable hd hl hp hpath hviable.of_append

end ModuleLoader.Script
