import ModuleLoader.Manifest.Basic
import ModuleLoader.Proofs.Namespace.Position
import ModuleLoader.Proofs.Script.Inert

/-!
# Trailers that change nothing

The trailer of a unit holds names that are not looked at: a location and, with a source map, the id of
the module and a suffix.  They stand in line comments, so a line break in a name ends the comment, and
behind it the name is code.  A body may also end in a comment or in a string, which a name can close.
Main statement: `wrap_inert_iff`, for each state in which bodies end, which names leave all of them as
they are.
-/

set_option autoImplicit false

namespace ModuleLoader.Namespace

open ModuleLoader.Script

/-! ## Behind a preamble -/

/-- The tokens of lines that bind names, and those of what follows them. -/
theorem kinds_lines {lines : List String} {bound : List (String × Path)}
    (h : List.Forall₂ (fun line b => Binds line b.1 b.2) lines bound) {gap : List Char}
    (hgap : Skips gap) (cs : List Char) :
    kinds (gap ++ (linesChars lines ++ cs)) =
      (bound.flatMap fun b => bindingKinds b.1 b.2) ++ kinds cs := by
  induction h generalizing gap with
  | nil => exact kinds_skip hgap cs
  | @cons line b lines bound hline _ ih =>
    have htext : gap ++ (linesChars (line :: lines) ++ cs) =
        gap ++ (line.toList ++ (['\n'] ++ (linesChars lines ++ cs))) := by
      rw [linesChars_cons, List.append_assoc]
      rfl
    rw [htext, (hline gap _ hgap).kinds_eq, ih skips_lineBreak, List.flatMap_cons, List.append_assoc]

/-- A body ends behind a preamble as it does by itself. -/
theorem endsIn_preamble {roots : List String} {options : WrapOptions}
    (haliases : ∀ name ∈ options.aliases, Bindable name) (hroots : ∀ root ∈ roots, Bindable root)
    {body : String} {state : EndState} (h : EndsIn body.toList state) :
    EndsIn (linesText (preamble roots options) ++ body).toList state := by
  obtain ⟨lines, hlines, hbinds⟩ := exists_lines_preamble haliases hroots
  rw [String.toList_append, toList_linesText, hlines]
  have hbefore := kinds_lines hbinds skips_header
  simp only [← List.append_assoc] at hbefore
  exact h.behind hbefore

/-- Statements that are the same when moved are the same. -/
theorem moved_injective (bytes lines : Nat) :
    Function.Injective (Statement.moved bytes lines) := by
  rintro ⟨what, ⟨offset, line, column⟩, finish⟩ ⟨what', ⟨offset', line', column'⟩, finish'⟩ h
  simpa [Statement.moved, Span.moved, Place.moved] using h

/-- What is inert behind a preamble and a body is inert behind the body. -/
theorem inert_of_preamble {roots : List String} {options : WrapOptions}
    (haliases : ∀ name ∈ options.aliases, Bindable name) (hroots : ∀ root ∈ roots, Bindable root)
    {body lines : String}
    (h : Inert (linesText (preamble roots options) ++ body)
      (linesText (preamble roots options) ++ (body ++ lines))) : Inert body (body ++ lines) := by
  obtain ⟨front, hfront, hparse⟩ := programFrom_preamble haliases hroots body
  obtain ⟨front', hfront', hparse'⟩ := programFrom_preamble haliases hroots (body ++ lines)
  rw [Inert, hparse, hparse'] at h
  rw [Inert]
  cases hbody : parseProgram body with
  | error e =>
    rw [hbody] at h
    cases hwhole : parseProgram (body ++ lines) with
    | error e' =>
      rw [hwhole] at h
      exact h
    | ok program' =>
      rw [hwhole] at h
      exact h
  | ok program =>
    rw [hbody] at h
    cases hwhole : parseProgram (body ++ lines) with
    | error e' =>
      rw [hwhole] at h
      exact h
    | ok program' =>
      rw [hwhole] at h
      have hlength : front'.length = front.length := by
        simpa using congrArg List.length (hfront'.trans hfront.symm)
      exact List.map_injective_iff.2 (moved_injective _ _) (List.append_inj h hlength).2

/-! ## The names of a trailer -/

/-- The names that stand in a trailer. -/
def trailerNames (info : SourceInfo) (options : WrapOptions) : List String :=
  info.location :: if info.hasSourceMap then [info.module, options.sourceMapSuffix] else []

/-- The trailer holds a character only if one of its names does, or its own words. -/
theorem not_mem_line {info : SourceInfo} {options : WrapOptions} {c : Char}
    (hwords : c ∉ "//# sourceURL=".toList ∧ c ∉ "//# sourceMappingURL=".toList)
    (h : ∀ name ∈ trailerNames info options, c ∉ name.toList) :
    ∀ line ∈ trailerLines info options, c ∉ line.toList := by
  unfold trailerNames at h
  unfold trailerLines
  rw [List.forall_mem_cons] at h ⊢
  refine ⟨?_, ?_⟩
  · rw [String.toList_append, List.mem_append, not_or]
    exact ⟨hwords.1, h.1⟩
  · split
    · rename_i hmap
      rw [if_pos hmap] at h
      rw [List.forall_mem_singleton, String.toList_append, String.toList_append, List.mem_append,
        List.mem_append, not_or, not_or]
      exact ⟨⟨hwords.2, h.2 _ (by simp)⟩, h.2 _ (by simp)⟩
    · nofun

/-- A character other than the line break is in the lines only if it is in one of them. -/
theorem not_mem_linesChars {lines : List String} {c : Char} (hc : c ≠ '\n')
    (h : ∀ line ∈ lines, c ∉ line.toList) : c ∉ linesChars lines := by
  intro hmem
  obtain ⟨line, hline, hchar⟩ := List.mem_flatMap.1 hmem
  rcases List.mem_append.1 hchar with hchar | hchar
  · exact h line hline hchar
  · exact hc (List.mem_singleton.1 hchar)

section

variable {info : SourceInfo} {options : WrapOptions}

/-- The trailer is quiet in code where no line break stands in what it names. -/
theorem quiet_code (h : ∀ name ∈ trailerNames info options, '\n' ∉ name.toList) :
    EndState.code.Quiet (linesChars (trailerLines info options)) := by
  have hlines := not_mem_line (by decide) h
  apply done_of_kinds
  exact kinds_comments fun line hline => isComment_of_mem_trailerLines hline (hlines line hline)

/-- The trailer is quiet in a comment where no star stands in what it names. -/
theorem quiet_comment (h : ∀ name ∈ trailerNames info options, '*' ∉ name.toList) :
    EndState.comment.Quiet (linesChars (trailerLines info options)) :=
  trivia_block (not_mem_linesChars (by decide) (not_mem_line (by decide) h))

/-- The trailer is quiet in a string where its quote does not stand in what the trailer names. -/
theorem quiet_string {quote : Char} (hquote : quote = '"' ∨ quote = '\'')
    (h : ∀ name ∈ trailerNames info options, quote ∉ name.toList) :
    (EndState.string quote hquote).Quiet (linesChars (trailerLines info options)) := by
  have hwords : quote ∉ "//# sourceURL=".toList ∧ quote ∉ "//# sourceMappingURL=".toList := by
    rcases hquote with rfl | rfl
    · decide
    · decide
  have hbreak : quote ≠ '\n' := by
    rcases hquote with rfl | rfl
    · decide
    · decide
  exact (stringBody_open (not_mem_linesChars hbreak (not_mem_line hwords h))).1

end

/-- Every body ends in some state.  The trailer changes nothing of any unit whose body ends in a state,
neither its statements nor the message of its error, just when the lines of the trailer are quiet in
that state.  In code they are if no name in them has a line break, in a comment if none has an asterisk,
and in a string if none has its quote; names are not checked for any of these. -/
theorem wrap_inert_iff (config : Configuration) (hvalid : config.validate = .ok ()) (scope : Scope)
    (hscope : scope.Discovered) (info : SourceInfo) :
    let options := config.wrapOptions
    let before := linesText (preamble scope.roots options)
    let behind := linesChars (trailerLines info options)
    let names := trailerNames info options
    (∀ body : String, ∃ state, EndsIn body.toList state) ∧
    (∀ state, (∀ body : String, EndsIn body.toList state →
        Inert (before ++ body) (wrap body scope.roots info options).source) ↔
      state.Quiet behind) ∧
    ((∀ name ∈ names, '\n' ∉ name.toList) → EndState.code.Quiet behind) ∧
    ((∀ name ∈ names, '*' ∉ name.toList) → EndState.comment.Quiet behind) ∧
    ∀ quote hquote, (∀ name ∈ names, quote ∉ name.toList) →
      (EndState.string quote hquote).Quiet behind := by
  intro options before behind names
  have haliases := bindable_of_validate hvalid
  refine ⟨fun body => exists_endsIn body.toList, fun state => ⟨fun h => ?_, fun hquiet body hends => ?_⟩,
    quiet_code, quiet_comment, fun quote hquote => quiet_string hquote⟩
  · apply (inert_iff_quiet (toList_trailer info options) state).1
    intro body hends
    apply inert_of_preamble haliases hscope.bindable
    rw [← String.append_assoc]
    exact h body hends
  · exact inert_of_quiet (toList_trailer info options)
      (endsIn_preamble haliases hscope.bindable hends) hquiet

/-- A manifest may give a module an id with a line break in it.  What stands behind the line break then
runs as part of the module. -/
theorem wrap_inert_iff_lineBreak :
    let name := "a.js\nlog('x')"
    let text := "\x7b\"modules\": [\x7b\"id\": \"a.js\\nlog('x')\"\x7d]\x7d"
    let config := Configuration.default
    let options := config.wrapOptions
    let layer := Layer.make .initial
    let info : SourceInfo := ⟨name, name, false⟩
    Manifest.parse text = .ok ⟨none, [⟨name, none, false⟩]⟩ ∧
    config.validate = .ok () ∧ layer.scope.Discovered ∧
    (¬ ∀ body : String, EndsIn body.toList .code →
      Inert (linesText (preamble layer.scope.roots options) ++ body)
        (wrap body layer.scope.roots info options).source) ∧
    (layer.loadModule options info "log('a')").2.engine.output = ["a", "x"] := by
  intro name text config options layer info
  obtain ⟨hmanifest, hquiet, houtput⟩ :
      Manifest.parse text = .ok ⟨none, [⟨name, none, false⟩]⟩ ∧
      ¬ EndState.code.Quiet (linesChars (trailerLines info options)) ∧
      (layer.loadModule options info "log('a')").2.engine.output = ["a", "x"] := by
    decide +kernel +revert
  have hlayer : layer.scope.Discovered := .make .initial
  obtain ⟨-, hinert, -⟩ := wrap_inert_iff config rfl layer.scope hlayer info
  exact ⟨hmanifest, rfl, hlayer, (hinert .code).not.2 hquiet, houtput⟩

end ModuleLoader.Namespace
