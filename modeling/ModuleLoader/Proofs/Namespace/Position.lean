import ModuleLoader.Proofs.Namespace.Preamble
import ModuleLoader.Proofs.Script.Running

/-!
# Reported positions

The body of a unit runs between a preamble and a trailer.  The lines of the preamble are subtracted
from the position of a failure, so a failure is reported where the body with the trailer behind it
fails by itself.  The trailer is passed over unless the body leaves something open that the trailer
closes, or a name in the trailer brings lines of its own; then a failure is reported where the body by
itself fails, with one exception: a body that stops where a program must go on fails behind its last
line, at the end of the trailer.  Main statements: `Layer.loadInFull_eq` and
`Layer.loadModule_position`.
-/

set_option autoImplicit false

namespace ModuleLoader.Namespace

open ModuleLoader.Script

/-! ## The trailer -/

/-- The lines behind a body. -/
def trailerLines (info : SourceInfo) (options : WrapOptions) : List String :=
  ("//# sourceURL=" ++ info.location) ::
    if info.hasSourceMap then
      ["//# sourceMappingURL=" ++ info.module ++ options.sourceMapSuffix]
    else []

/-- The trailer is a line break and its lines. -/
theorem toList_trailer (info : SourceInfo) (options : WrapOptions) :
    (trailer info options).toList = '\n' :: linesChars (trailerLines info options) := by
  unfold trailer trailerLines linesChars
  split
  · simp [String.toList_append]
  · simp [String.toList_append]

/-- A line that is a comment. -/
def IsComment (line : String) : Prop := ∃ text, '\n' ∉ text ∧ line.toList = '/' :: '/' :: text

/-- The lines of the trailer are comments where no line break stands in them. -/
theorem isComment_of_mem_trailerLines {info : SourceInfo} {options : WrapOptions} {line : String}
    (h : line ∈ trailerLines info options) (hline : '\n' ∉ line.toList) : IsComment line := by
  obtain ⟨text, htext⟩ : ∃ text, line.toList = '/' :: '/' :: text := by
    unfold trailerLines at h
    rcases List.mem_cons.1 h with rfl | h
    · exact ⟨_, String.toList_append⟩
    · split at h
      · rw [List.mem_singleton.1 h, String.append_assoc]
        exact ⟨_, String.toList_append⟩
      · cases h
  refine ⟨text, fun hmem => ?_, htext⟩
  rw [htext] at hline
  exact hline (List.mem_cons_of_mem _ (List.mem_cons_of_mem _ hmem))

/-- The scan passes over comments on lines of their own. -/
theorem skips_comments {lines : List String} (h : ∀ line ∈ lines, IsComment line) :
    Skips (linesChars lines) := by
  induction lines with
  | nil => exact skips_nil
  | cons line lines ih =>
    rw [List.forall_mem_cons] at h
    obtain ⟨text, hbreak, htext⟩ := h.1
    have hline : Skips (line.toList ++ ['\n']) := by
      rw [htext]
      exact skips_comment hbreak
    rw [linesChars, List.flatMap_cons]
    exact hline.append (ih h.2)

/-- Comments on lines of their own have no tokens. -/
theorem kinds_comments {lines : List String} (h : ∀ line ∈ lines, IsComment line) :
    kinds (linesChars lines) = [.finish] := by
  apply kinds_of_done
  have hrest := (skips_comments h).rest []
  rw [List.append_nil] at hrest
  rw [hrest]
  rfl

/-- Behind a line break of some lines stand the lines that follow. -/
theorem eq_linesChars_of_suffix {lines : List String} (h : ∀ line ∈ lines, '\n' ∉ line.toList)
    {r : List Char} (hr : '\n' :: r <:+ linesChars lines) :
    ∃ rest, rest <:+ lines ∧ r = linesChars rest := by
  induction lines with
  | nil => cases List.suffix_nil.1 hr
  | cons line lines ih =>
    rw [List.forall_mem_cons] at h
    rw [linesChars_cons] at hr
    obtain ⟨front, hfront⟩ := hr
    rcases List.append_eq_append_iff.1 hfront with ⟨x, hline, hx⟩ | ⟨x, -, hx⟩
    · cases x with
      | nil =>
        obtain ⟨-, hr⟩ := List.cons.inj hx
        exact ⟨lines, List.suffix_cons _ _, hr⟩
      | cons c x =>
        obtain ⟨rfl, -⟩ := List.cons.inj hx
        exact absurd (hline ▸ List.mem_append_right _ List.mem_cons_self) h.1
    · cases x with
      | nil =>
        obtain ⟨-, hr⟩ := List.cons.inj hx
        exact ⟨lines, List.suffix_cons _ _, hr.symm⟩
      | cons c x =>
        obtain ⟨-, hx⟩ := List.cons.inj hx
        obtain ⟨rest, hrest, hr⟩ := ih h.2 ⟨x, hx.symm⟩
        exact ⟨rest, hrest.trans (List.suffix_cons _ _), hr⟩

/-- Comments behind a source are passed over when the source leaves nothing open, and also when they
hold nothing that could close a comment or a string. -/
theorem passedOver_comments {lines : List String} (h : ∀ line ∈ lines, IsComment line)
    {source : String} (hopen : LeavesNothingOpen source ∨
      ∀ line ∈ lines, '*' ∉ line.toList ∧ '"' ∉ line.toList ∧ '\'' ∉ line.toList) :
    kinds (source.toList ++ '\n' :: linesChars lines) = kinds source.toList := by
  rcases hopen with hclosed | hplain
  · exact kinds_lineBreak_of_closed hclosed (kinds_comments h)
  · have hbreak : ∀ line ∈ lines, '\n' ∉ line.toList := by
      intro line hline
      obtain ⟨text, htext, hchars⟩ := h line hline
      rw [hchars]
      simpa using htext
    have hnot_mem : ∀ c, c ≠ '\n' → (∀ line ∈ lines, c ∉ line.toList) → c ∉ linesChars lines := by
      intro c hc hlines hmem
      obtain ⟨line, hline, hchar⟩ := List.mem_flatMap.1 hmem
      rcases List.mem_append.1 hchar with hchar | hchar
      · exact hlines line hline hchar
      · exact hc (List.mem_singleton.1 hchar)
    apply kinds_lineBreak_of_quiet (kinds_comments h)
    · apply trivia_block
      exact hnot_mem _ (by decide) fun line hline => (hplain line hline).1
    · intro quote hquote
      have hmem : quote ∉ linesChars lines := by
        rcases hquote with rfl | rfl
        · exact hnot_mem _ (by decide) fun line hline => (hplain line hline).2.1
        · exact hnot_mem _ (by decide) fun line hline => (hplain line hline).2.2
      obtain ⟨hnone, hrest⟩ := stringBody_open hmem
      refine ⟨hnone, ?_⟩
      have hend : kinds [] = [.finish] := kinds_of_done rfl
      rcases hrest with hnil | ⟨r, hr⟩
      · rw [hnil, hend]
      · -- The string stops at a line break, and comments stand behind that as well.
        have hsuffix : '\n' :: r <:+ linesChars lines := by
          rw [← hr]
          exact ⟨_, whole_stringBody quote (linesChars lines)⟩
        obtain ⟨rest, hsub, rfl⟩ := eq_linesChars_of_suffix hbreak hsuffix
        rw [hr, ← kinds_comments fun line hline => h line (hsub.subset hline)]
        apply kinds_congr
        exact skips_lineBreak.rest (linesChars rest)

/-- The trailer adds no token to a body, where no line break stands in its lines and the body leaves
nothing open that they close. -/
theorem passedOver_trailer {info : SourceInfo} {options : WrapOptions} {body : String}
    (hlines : ∀ line ∈ trailerLines info options, '\n' ∉ line.toList)
    (hopen : LeavesNothingOpen body ∨ ∀ line ∈ trailerLines info options,
      '*' ∉ line.toList ∧ '"' ∉ line.toList ∧ '\'' ∉ line.toList) :
    PassedOver body (trailer info options) := by
  have hcomments : ∀ line ∈ trailerLines info options, IsComment line := fun line hline =>
    isComment_of_mem_trailerLines hline (hlines line hline)
  have hkinds := passedOver_comments hcomments hopen
  rw [← toList_trailer, ← String.toList_append] at hkinds
  exact hkinds

/-! ## Running a unit -/

/-- The preamble's lines are taken off a line of the body. -/
theorem ExecutableUnit.bodyFailure_of_body (unit : ExecutableUnit) (message : String) {line : Nat}
    (h : 1 ≤ line) (column : Nat) :
    unit.bodyFailure ⟨message, some (line + unit.lineOffset), some column⟩ =
      ⟨unit.module, message, some line, some column⟩ := by
  have hbehind : unit.lineOffset < line + unit.lineOffset := by omega
  simp [bodyFailure, hbehind]

/-- Statements that are moved are those that were there, each moved. -/
theorem forall₂_moved (bytes lines : Nat) (program : Program) :
    List.Forall₂ (Statement.Alike fun s s' => s' = s.moved bytes lines) program
      (program.map (Statement.moved bytes lines)) := by
  apply List.forall₂_map_right_iff.2
  exact List.forall₂_same.2 fun s _ => ⟨rfl, rfl⟩

/-- A unit comes to what its body with the trailer behind it comes to by itself, with the names of
the preamble bound, and fails at the same position. -/
theorem wrap_run {config : Configuration} (hvalid : config.validate = .ok ()) {scope : Scope}
    (hscope : scope.Discovered) (body : String) (info : SourceInfo) (e : Engine) :
    (wrap body scope.roots info config.wrapOptions).run e scope.holder =
      match e.evaluate (body ++ trailer info config.wrapOptions)
        (scope.bindings config.wrapOptions e) with
      | (.ok _, e') => (.ok (), e')
      | (.error err, e') =>
        (.error ⟨info.module, err.fault.text, some err.line, some err.column⟩, e') := by
  have hsource : (wrap body scope.roots info config.wrapOptions).source =
      linesText (preamble scope.roots config.wrapOptions) ++
        (body ++ trailer info config.wrapOptions) := String.append_assoc
  obtain ⟨front, hfront, hparse⟩ := programFrom_preamble (bindable_of_validate hvalid)
    hscope.bindable (body ++ trailer info config.wrapOptions)
  have hpreamble := statements_preamble hscope.not_mem hfront e
  unfold ExecutableUnit.run
  rw [hsource]
  cases hprogram : parseProgram (body ++ trailer info config.wrapOptions) with
  | error err =>
    rw [hprogram] at hparse
    have halone := Engine.evaluate_of_error hprogram e (scope.bindings config.wrapOptions e)
    have hline : 1 ≤ err.toScriptError.line := Engine.one_le_line (congrArg Prod.fst halone)
    have hfailure := (wrap body scope.roots info config.wrapOptions).bodyFailure_of_body
      err.toScriptError.fault.text hline err.toScriptError.column
    rw [halone, Engine.evaluate_of_error hparse]
    exact congrArg (fun f => (Except.error f, e)) hfailure
  | ok program =>
    rw [hprogram] at hparse
    have halone := Engine.evaluate_of_ok hprogram e (scope.bindings config.wrapOptions e)
    have hwhole := Engine.evaluate_of_ok hparse e
      (Table.empty.set scopeBinding (.object scope.holder))
    rw [Run.statements_append, hpreamble] at hwhole
    obtain ⟨houtcomes, hengine⟩ := Run.statements_alike
      (forall₂_moved (linesText (preamble scope.roots config.wrapOptions)).utf8ByteSize
        (preamble scope.roots config.wrapOptions).length program)
      ⟨e, scope.bindings config.wrapOptions e⟩ .undefined
    rw [halone, hwhole]
    rcases houtcomes with ⟨v, hv, hv'⟩ | ⟨fault, s, s', rfl, hfault, hfault'⟩
    · simp only [hv, hv', hengine]
    · have hline : 1 ≤ (fault.at s.place).line :=
        Engine.one_le_line ((congrArg Prod.fst halone).trans hfault)
      have hfailure := (wrap body scope.roots info config.wrapOptions).bodyFailure_of_body
        fault.text hline s.place.column
      simp only [hfault, hfault', hengine]
      exact congrArg (fun f => (Except.error f, _)) hfailure

/-- Layers that start empty and evaluate modules know discovered roots only. -/
theorem Layer.discovered_loadModule {layer : Layer} (h : layer.scope.Discovered)
    (options : WrapOptions) (info : SourceInfo) (body : String) :
    (layer.loadModule options info body).2.scope.Discovered := by
  unfold loadModule
  split
  · exact h
  · exact .discover h layer.engine body

/-- Evaluate one module body in full, whether it is blank or not. -/
def Layer.loadInFull (l : Layer) (options : WrapOptions) (info : SourceInfo) (body : String) :
    Except EvaluationFailure Unit × Layer :=
  let (_, scope, e) := l.scope.discoverRoots l.engine body
  let (result, e') := (wrap body scope.roots info options).run e scope.holder
  (result, ⟨scope, e'⟩)

/-- A blank body is not loaded in full. -/
theorem Layer.loadModule_eq_ite (l : Layer) (options : WrapOptions) (info : SourceInfo)
    (body : String) : l.loadModule options info body =
      if Text.isBlankText body then (.ok (), l) else l.loadInFull options info body := rfl

/-- Evaluating a module body registers the roots it declares and comes to what the body with the
trailer behind it comes to by itself, with the names of the preamble bound; a failure is reported at
the same position. -/
theorem Layer.loadInFull_eq {config : Configuration} (hvalid : config.validate = .ok ())
    {layer : Layer} (hlayer : layer.scope.Discovered) (info : SourceInfo) (body : String) :
    let scope := (layer.scope.discoverRoots layer.engine body).2.1
    let engine := (layer.scope.discoverRoots layer.engine body).2.2
    layer.loadInFull config.wrapOptions info body =
      match engine.evaluate (body ++ trailer info config.wrapOptions)
        (scope.bindings config.wrapOptions engine) with
      | (.ok _, e) => (.ok (), ⟨scope, e⟩)
      | (.error err, e) =>
        (.error ⟨info.module, err.fault.text, some err.line, some err.column⟩, ⟨scope, e⟩) := by
  intro scope engine
  have hscope : scope.Discovered := .discover hlayer layer.engine body
  have hload : layer.loadInFull config.wrapOptions info body =
      (((wrap body scope.roots info config.wrapOptions).run engine scope.holder).1,
        ⟨scope, ((wrap body scope.roots info config.wrapOptions).run engine scope.holder).2⟩) := rfl
  rw [hload, wrap_run hvalid hscope body info engine]
  split
  · rfl
  · rfl

/-- Loading a body that is not blank is running it with its preamble, in the scope that has its
roots. -/
theorem Layer.loadModule_eq {config : Configuration} (hvalid : config.validate = .ok ())
    {layer : Layer} (hlayer : layer.scope.Discovered) (info : SourceInfo) {body : String}
    (hbody : Text.isBlankText body = false) :
    let scope := (layer.scope.discoverRoots layer.engine body).2.1
    let engine := (layer.scope.discoverRoots layer.engine body).2.2
    layer.loadModule config.wrapOptions info body =
      match engine.evaluate (body ++ trailer info config.wrapOptions)
        (scope.bindings config.wrapOptions engine) with
      | (.ok _, e) => (.ok (), ⟨scope, e⟩)
      | (.error err, e) =>
        (.error ⟨info.module, err.fault.text, some err.line, some err.column⟩, ⟨scope, e⟩) := by
  rw [loadModule_eq_ite, hbody]
  exact loadInFull_eq hvalid hlayer info body

/-- A module fails as its body with the trailer behind it does, and says so. -/
theorem Layer.loadModule_error_iff {config : Configuration} (hvalid : config.validate = .ok ())
    {layer : Layer} (hlayer : layer.scope.Discovered) (info : SourceInfo) {body : String}
    (hbody : Text.isBlankText body = false) (failure : EvaluationFailure) :
    let scope := (layer.scope.discoverRoots layer.engine body).2.1
    let engine := (layer.scope.discoverRoots layer.engine body).2.2
    (layer.loadModule config.wrapOptions info body).1 = .error failure ↔
      ∃ err, (engine.evaluate (body ++ trailer info config.wrapOptions)
          (scope.bindings config.wrapOptions engine)).1 = .error err ∧
        failure = ⟨info.module, err.fault.text, some err.line, some err.column⟩ := by
  intro scope engine
  rw [loadModule_eq hvalid hlayer info hbody]
  cases engine.evaluate (body ++ trailer info config.wrapOptions)
    (scope.bindings config.wrapOptions engine) with
  | mk result e =>
    cases result with
    | ok v =>
      constructor
      · nofun
      · rintro ⟨err, herr, -⟩
        cases herr
    | error err =>
      constructor
      · intro h
        exact ⟨err, rfl, (Except.error.inj h).symm⟩
      · rintro ⟨err, herr, rfl⟩
        cases herr
        rfl

/-- Where a failure of a module is reported.  The report has a position, and it is the one at which
the body with the trailer behind it fails, with the same names bound.  Where the trailer is passed
over, the body by itself fails in the same words; the position is the body's own, and lies in the
body, just if the body does not stop short.  The trailer is passed over when its names are of one
line each and the body leaves nothing open or the names hold no asterisk and no quote. -/
theorem Layer.loadModule_position (config : Configuration) (hvalid : config.validate = .ok ())
    (layer : Layer) (hlayer : layer.scope.Discovered) (info : SourceInfo) (body : String)
    (failure : EvaluationFailure)
    (hfailure : (layer.loadModule config.wrapOptions info body).1 = .error failure) :
    let scope := (layer.scope.discoverRoots layer.engine body).2.1
    let engine := (layer.scope.discoverRoots layer.engine body).2.2
    let names := scope.bindings config.wrapOptions engine
    let after := trailer info config.wrapOptions
    ∃ line column, failure.line = some line ∧ failure.column = some column ∧
      (∃ fault, (engine.evaluate (body ++ after) names).1 = .error ⟨fault, line, column⟩ ∧
        failure.message = fault.text) ∧
      (PassedOver body after →
        ∃ own, (engine.evaluate body names).1 = .error own ∧ failure.message = own.fault.text ∧
          ((line = own.line ∧ column = own.column) ↔ ¬StopsShort body) ∧
          ((1 ≤ line ∧ line ≤ lineCount body) ↔ ¬StopsShort body)) ∧
      ((∀ text ∈ trailerLines info config.wrapOptions, '\n' ∉ text.toList) →
        (LeavesNothingOpen body ∨ ∀ text ∈ trailerLines info config.wrapOptions,
          '*' ∉ text.toList ∧ '"' ∉ text.toList ∧ '\'' ∉ text.toList) →
        PassedOver body after) := by
  intro scope engine names after
  have hbody : Text.isBlankText body = false := by
    rw [← Bool.not_eq_true]
    intro hblank
    unfold loadModule at hfailure
    rw [if_pos hblank] at hfailure
    cases hfailure
  obtain ⟨err, herr, rfl⟩ := (loadModule_error_iff hvalid hlayer info hbody failure).1 hfailure
  refine ⟨err.line, err.column, rfl, rfl, ⟨err.fault, herr, rfl⟩, ?_, passedOver_trailer⟩
  intro hpassed
  have hafter : after.toList = '\n' :: linesChars (trailerLines info config.wrapOptions) :=
    toList_trailer info config.wrapOptions
  rcases Engine.evaluate_passedOver hafter hpassed engine names with
    ⟨hstops, houtcomes⟩ | ⟨hstops, fault, hown, hwhole⟩
  · rcases houtcomes with ⟨v, -, hv⟩ | ⟨fault, s, s', ⟨hwithin, hsame⟩, hown, hwhole⟩
    · cases hv.symm.trans herr
    · cases hwhole.symm.trans herr
      refine ⟨fault.at s.place, hown, rfl, ?_, ?_⟩
      · apply iff_of_true _ hstops
        show s'.place.line = s.place.line ∧ s'.place.column = s.place.column
        rw [hsame]
        exact ⟨rfl, rfl⟩
      · apply iff_of_true _ hstops
        show 1 ≤ s'.place.line ∧ s'.place.line ≤ lineCount body
        rw [hsame]
        exact hwithin.line_le
  · cases hwhole.symm.trans herr
    have hbeyond : lineCount body < (endOf (body ++ after)).line := lineCount_lt_line_endOf hafter
    refine ⟨fault.at (endOf body), hown, rfl, ?_, ?_⟩
    · apply iff_of_false _ (not_not_intro hstops)
      rintro ⟨hline, -⟩
      have hend : (endOf body).line = lineCount body := line_endOf body
      change (endOf (body ++ after)).line = (endOf body).line at hline
      omega
    · apply iff_of_false _ (not_not_intro hstops)
      rintro ⟨-, hline⟩
      change (endOf (body ++ after)).line ≤ lineCount body at hline
      omega

/-- A body of one line that breaks off is reported on the third line, though it fails on the first. -/
theorem Layer.loadModule_position_assignment :
    let options := Configuration.default.wrapOptions
    let layer := Layer.make .initial
    let info : SourceInfo := ⟨"m.js", "/out/m.js", false⟩
    let scope := (layer.scope.discoverRoots layer.engine "var x =").2.1
    let engine := (layer.scope.discoverRoots layer.engine "var x =").2.2
    Configuration.default.validate = .ok () ∧ layer.scope.Discovered ∧
      (layer.loadModule options info "var x =").1 =
        .error ⟨"m.js", "SyntaxError: Unexpected end of input", some 3, some 1⟩ ∧
      StopsShort "var x =" ∧ PassedOver "var x =" (trailer info options) ∧
      (engine.evaluate "var x =" (scope.bindings options engine)).1 =
        .error ⟨.malformed (.unexpected .finish), 1, 8⟩ ∧ ¬(1 ≤ 3 ∧ 3 ≤ lineCount "var x =") := by
  intro options layer info scope engine
  have hend : endOf ("var x =" ++ trailer info options) = ⟨32, 3, 1⟩ := by decide +kernel +revert
  have hvalid : Configuration.default.validate = .ok () := rfl
  have hlayer : layer.scope.Discovered := .make .initial
  have hparse : parseProgram "var x =" = .error ⟨.unexpected .finish, ⟨7, 1, 8⟩⟩ := by decide +kernel
  have hown := Engine.evaluate_of_error hparse engine (scope.bindings options engine)
  have hstops : StopsShort "var x =" := ⟨.unexpected .finish, hparse⟩
  have hfailure : (layer.loadModule options info "var x =").1 =
      .error ⟨"m.js", "SyntaxError: Unexpected end of input", some 3, some 1⟩ := by
    have hover : PassedOver "var x =" (trailer info options) :=
      passedOver_trailer (by decide) (.inr (by decide))
    have hbody : Text.isBlankText "var x =" = false := by decide
    apply (Layer.loadModule_error_iff hvalid hlayer info hbody _).2
    rcases Engine.evaluate_passedOver (toList_trailer info options) hover engine
      (scope.bindings options engine) with ⟨hgoes, -⟩ | ⟨-, fault, hfault, hwhole⟩
    · exact absurd hstops hgoes
    · cases (congrArg Prod.fst hown).symm.trans hfault
      rw [hend] at hwhole
      exact ⟨_, hwhole, rfl⟩
  obtain ⟨line, column, hline, hcolumn, -, hpassed, htrailer⟩ :=
    Layer.loadModule_position Configuration.default hvalid layer hlayer info "var x =" _ hfailure
  cases hline
  cases hcolumn
  have hover : PassedOver "var x =" (trailer info options) :=
    htrailer (by decide) (.inr (by decide))
  obtain ⟨own, -, -, -, hinside⟩ := hpassed hover
  exact ⟨hvalid, hlayer, hfailure, hstops, hover, congrArg Prod.fst hown, fun h => hinside.1 h hstops⟩

end ModuleLoader.Namespace
