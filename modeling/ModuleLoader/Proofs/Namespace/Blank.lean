import ModuleLoader.Proofs.Namespace.RootTable
import ModuleLoader.Proofs.Namespace.Trailer

/-!
# Blank bodies

A blank body is not evaluated.  Blank means white space of any kind, but a script may hold only four
characters of white space between its tokens, and the others begin no token.  Main statement:
`Layer.loadInFull_blank`, evaluating a blank body would leave everything as it is, and would succeed
just when the body holds no white space but these four.
-/

set_option autoImplicit false

namespace ModuleLoader.Script

open ModuleLoader.Text

/-! ## White space in a script -/

/-- The scan passes over blanks. -/
theorem skips_spaces {gap : List Char} (h : ∀ c ∈ gap, isSpace c = true) : Skips gap := by
  induction gap with
  | nil => exact skips_nil
  | cons c gap ih =>
    rw [List.forall_mem_cons] at h
    exact (skips_space h.1).append (ih h.2)

/-- No token begins with white space. -/
theorem lexemeAt_of_isBlank {c : Char} (h : isBlank c = true) (r : List Char) :
    lexemeAt c r = ⟨.invalid c, [c], r⟩ := by
  have hmarks : ∀ m : Mark, isBlank m.char = false := by
    intro m
    cases m <;> decide
  have hdigit : ¬ isAsciiDigit c = true := by
    simp only [isBlank, isAsciiDigit, Bool.or_eq_true, Bool.and_eq_true, decide_eq_true_eq,
      beq_iff_eq] at h ⊢
    omega
  have hstart : ¬ isIdStart c = true := by
    rw [Namespace.not_isIdStart_of_isBlank h]
    exact Bool.false_ne_true
  rw [lexemeAt_of_class h hmarks (by decide) (by decide), if_neg hdigit, if_neg hstart]

/-- A source that begins with white space is no program if some of that may not stand between tokens;
the first that may not is where the error is. -/
theorem parseProgram_of_isBlank {source : String} {front rest : List Char} {c : Char}
    (hsource : source.toList = front ++ c :: rest) (hfront : ∀ d ∈ front, isSpace d = true)
    (hblank : isBlank c = true) (hspace : isSpace c = false) :
    parseProgram source = .error ⟨.unexpected (.invalid c), Place.start.after front⟩ := by
  have hslash : c ≠ '/' := ne_of_class hblank (by decide)
  have hnext : nextToken ⟨c :: rest, Place.start.after front⟩ =
      (⟨.invalid c, ⟨Place.start.after front, ((Place.start.after front).step c).offset⟩, false⟩,
        ⟨rest, (Place.start.after front).step c⟩) := by
    simp only [nextToken, trivia_code hspace hslash, lexeme, lexemeAt_of_isBlank hblank]
    rfl
  rw [parseProgram_eq, hsource, programFrom_skip (skips_spaces hfront)]
  obtain ⟨ts, finish, htokens, hfinish, -⟩ :=
    tokensFrom_concat ⟨c :: rest, Place.start.after front⟩
  rw [programFrom_of_tokens htokens]
  rw [tokensFrom_cons, hnext] at htokens
  cases ts with
  | nil =>
    rw [List.nil_append, List.cons.injEq] at htokens
    rw [← htokens.1] at hfinish
    cases hfinish
  | cons t ts =>
    rw [List.cons_append, List.cons.injEq] at htokens
    have hmark : TokenKind.invalid c ≠ .mark .semicolon := by
      intro h
      cases h
    rw [← htokens.1, statements_cons, if_neg hmark]
    rfl

end ModuleLoader.Script

namespace ModuleLoader.Namespace

open ModuleLoader.Script ModuleLoader.Text

/-! ## Evaluating in full -/

/-- A blank body declares no roots. -/
theorem Scope.discoverRoots_of_blank (s : Scope) (e : Engine) {body : String}
    (h : isBlankText body = true) : s.discoverRoots e body = ([], s, e) := by
  rw [discoverRoots, declaredRoots_of_blank h]
  rfl

section

variable {config : Configuration} {layer : Layer} {info : SourceInfo} {body : String}

/-- A blank body declares nothing, so evaluating it only runs it. -/
theorem Layer.loadInFull_of_blank (hvalid : config.validate = .ok ())
    (hlayer : layer.scope.Discovered) (hblank : isBlankText body = true) :
    layer.loadInFull config.wrapOptions info body =
      match layer.engine.evaluate (body ++ trailer info config.wrapOptions)
        (layer.scope.bindings config.wrapOptions layer.engine) with
      | (.ok _, e) => (.ok (), ⟨layer.scope, e⟩)
      | (.error err, e) =>
        (.error ⟨info.module, err.fault.text, some err.line, some err.column⟩,
          ⟨layer.scope, e⟩) := by
  have hfull := loadInFull_eq hvalid hlayer info body
  rw [Scope.discoverRoots_of_blank _ _ hblank] at hfull
  exact hfull

/-- White space that may stand between tokens is, with quiet lines behind it, a program that does
nothing. -/
theorem Layer.loadInFull_of_spaces (hvalid : config.validate = .ok ())
    (hlayer : layer.scope.Discovered) (hblank : isBlankText body = true)
    (hspaces : ∀ c ∈ body.toList, isSpace c = true)
    (hquiet : EndState.code.Quiet (linesChars (trailerLines info config.wrapOptions))) :
    layer.loadInFull config.wrapOptions info body = (.ok (), layer) := by
  have hkinds : kinds (body ++ trailer info config.wrapOptions).toList = [] ++ [.finish] := by
    rw [String.toList_append, toList_trailer, kinds_skip (skips_spaces hspaces)]
    exact (kinds_skip skips_lineBreak _).trans (kinds_of_done hquiet)
  obtain ⟨ts, finish, hts, -, hparse⟩ := parseProgram_of_kinds hkinds
  rw [List.map_eq_nil_iff.1 hts, statements] at hparse
  rw [loadInFull_of_blank hvalid hlayer hblank, Engine.evaluate_of_ok hparse]
  rfl

/-- The first white space of a body that may not stand between tokens is reported at its place in the
body, before anything runs. -/
theorem Layer.loadInFull_of_not_isSpace (hvalid : config.validate = .ok ())
    (hlayer : layer.scope.Discovered) (hblank : isBlankText body = true)
    {front rest : List Char} {c : Char} (hbody : body.toList = front ++ c :: rest)
    (hfront : ∀ d ∈ front, isSpace d = true) (hspace : isSpace c = false) :
    layer.loadInFull config.wrapOptions info body =
      (.error ⟨info.module, "SyntaxError: Unexpected '" ++ c.toString ++ "'",
        some (Place.start.after front).line, some (Place.start.after front).column⟩, layer) := by
  have hc : isBlank c = true := by
    apply List.all_eq_true.1 hblank
    rw [hbody]
    exact List.mem_append_cons_self
  have hsource : (body ++ trailer info config.wrapOptions).toList =
      front ++ c :: (rest ++ (trailer info config.wrapOptions).toList) := by
    rw [String.toList_append, hbody, List.append_assoc]
    rfl
  have hparse := parseProgram_of_isBlank hsource hfront hc hspace
  have htext : (Fault.malformed (.unexpected (.invalid c))).text =
      "SyntaxError: Unexpected '" ++ c.toString ++ "'" := by
    show "SyntaxError: " ++ ("Unexpected " ++ ("'" ++ c.toString ++ "'")) = _
    simp only [← String.append_assoc]
    rfl
  rw [loadInFull_of_blank hvalid hlayer hblank, Engine.evaluate_of_error hparse, ← htext]
  rfl

end

/-- A blank body is not evaluated, and nothing changes.  Evaluating it would change nothing either, as
long as its trailer holds comments only, as it does when no name in it has a line break; but it would
succeed only if each of its characters may stand between the tokens of a script.  At the first that may
not it would fail, whatever the trailer holds. -/
theorem Layer.loadInFull_blank (config : Configuration) (hvalid : config.validate = .ok ())
    (layer : Layer) (hlayer : layer.scope.Discovered) (info : SourceInfo) (body : String)
    (hblank : isBlankText body = true) :
    let options := config.wrapOptions
    let full := layer.loadInFull options info body
    let behind := linesChars (trailerLines info options)
    layer.loadModule options info body = (.ok (), layer) ∧
    (EndState.code.Quiet behind →
      full.2 = layer ∧ (full.1 = .ok () ↔ ∀ c ∈ body.toList, isSpace c = true)) ∧
    ((∀ name ∈ trailerNames info options, '\n' ∉ name.toList) → EndState.code.Quiet behind) ∧
    ∀ front c rest, body.toList = front ++ c :: rest → (∀ d ∈ front, isSpace d = true) →
      isSpace c = false →
      full = (.error ⟨info.module, "SyntaxError: Unexpected '" ++ c.toString ++ "'",
        some (Place.start.after front).line, some (Place.start.after front).column⟩, layer) := by
  intro options full behind
  refine ⟨?_, fun hquiet => ?_, quiet_code, fun front c rest hbody hfront hspace => ?_⟩
  · rw [loadModule_eq_ite, if_pos hblank]
  · cases hother : body.toList.find? (!isSpace ·) with
    | none =>
      have hspaces : ∀ c ∈ body.toList, isSpace c = true := by
        simpa using List.find?_eq_none.1 hother
      have hfull : full = (.ok (), layer) :=
        loadInFull_of_spaces hvalid hlayer hblank hspaces hquiet
      rw [hfull]
      exact ⟨rfl, iff_of_true rfl hspaces⟩
    | some c =>
      obtain ⟨hspace, front, rest, hbody, hfront⟩ := List.find?_eq_some_iff_append.1 hother
      rw [Bool.not_eq_true'] at hspace
      have hfull : full = (.error _, layer) :=
        loadInFull_of_not_isSpace hvalid hlayer hblank hbody (by simpa using hfront) hspace
      rw [hfull]
      refine ⟨rfl, iff_of_false nofun fun hspaces => ?_⟩
      have hc : c ∈ body.toList := by
        rw [hbody]
        exact List.mem_append_cons_self
      rw [hspaces c hc] at hspace
      cases hspace
  · exact loadInFull_of_not_isSpace hvalid hlayer hblank hbody hfront hspace

/-- Tabs, line breaks and spaces are passed over; a form feed on the second line is not. -/
theorem Layer.loadInFull_blank_formFeed :
    let config := Configuration.default
    let options := config.wrapOptions
    let info : SourceInfo := ⟨"m.js", "/out/m.js", true⟩
    let layer := Layer.make .initial
    config.validate = .ok () ∧ layer.scope.Discovered ∧
      isBlankText "\t\r\n " = true ∧ isBlankText "\t\n\u000c" = true ∧
      (∀ name ∈ trailerNames info options, '\n' ∉ name.toList) ∧
      layer.loadInFull options info "\t\r\n " = (.ok (), layer) ∧
      layer.loadModule options info "\t\n\u000c" = (.ok (), layer) ∧
      layer.loadInFull options info "\t\n\u000c" =
        (.error ⟨"m.js", "SyntaxError: Unexpected '\u000c'", some 2, some 1⟩, layer) := by
  intro config options info layer
  have hlayer : layer.scope.Discovered := .make .initial
  have hnames : ∀ name ∈ trailerNames info options, '\n' ∉ name.toList := by decide
  have hspaces : isBlankText "\t\r\n " = true := by decide
  have hformFeed : isBlankText "\t\n\u000c" = true := by decide
  obtain ⟨-, hkeeps, hquiet, -⟩ :=
    loadInFull_blank config rfl layer hlayer info "\t\r\n " hspaces
  obtain ⟨hkept, hiff⟩ := hkeeps (hquiet hnames)
  obtain ⟨hskipped, -, -, hfails⟩ :=
    loadInFull_blank config rfl layer hlayer info "\t\n\u000c" hformFeed
  exact ⟨rfl, hlayer, hspaces, hformFeed, hnames,
    Prod.ext (hiff.2 (List.all_eq_true.1 (by decide))) hkept, hskipped,
    hfails ['\t', '\n'] '\u000c' [] rfl (List.all_eq_true.1 (by decide)) (by decide)⟩

/-- A body of one no-break space is skipped, and evaluating it would fail.  So is a body of one space;
evaluating it would run the code that a line break in the location brings with it. -/
theorem Layer.loadInFull_ne_loadModule :
    let config := Configuration.default
    let options := config.wrapOptions
    let layer := Layer.make .initial
    let info : SourceInfo := ⟨"m.js", "/out/m.js", false⟩
    let broken : SourceInfo := ⟨"m.js", "/out/m.js\nlog('x')", false⟩
    config.validate = .ok () ∧ layer.scope.Discovered ∧
      isBlankText "\u00a0" = true ∧ layer.loadModule options info "\u00a0" = (.ok (), layer) ∧
      layer.loadInFull options info "\u00a0" =
        (.error ⟨"m.js", "SyntaxError: Unexpected '\u00a0'", some 1, some 1⟩, layer) ∧
      isBlankText " " = true ∧ (layer.loadModule options broken " ").2.engine.output = [] ∧
      (layer.loadInFull options broken " ").2.engine.output = ["x"] := by
  intro config options layer info broken
  have hparse : parseProgram (" " ++ trailer broken options) =
      .ok [⟨.call "log" [.string "x"], ⟨⟨26, 3, 1⟩, 29⟩⟩] := by decide +kernel +revert
  have hlayer : layer.scope.Discovered := .make .initial
  have houtput : (layer.loadInFull options broken " ").2.engine.output = ["x"] := by
    rw [loadInFull_of_blank rfl hlayer (by decide), Engine.evaluate_of_ok hparse]
    rfl
  have hfull := @loadInFull_of_not_isSpace config layer info "\u00a0" rfl hlayer (by decide) [] []
    '\u00a0' rfl nofun (by decide)
  exact ⟨rfl, hlayer, rfl, rfl, hfull, rfl, rfl, houtput⟩

end ModuleLoader.Namespace
