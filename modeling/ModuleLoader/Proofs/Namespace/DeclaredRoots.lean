import ModuleLoader.Proofs.Namespace.Declaration
import ModuleLoader.Proofs.Namespace.Position
import ModuleLoader.Proofs.Script.Locals

/-!
# Declaring a root and using it

A module may declare a root that no module knew before and use it, since the roots it declares are
found in its text and bound before it runs.  That depends on how the declaration is written, because
the parser accepts declarations that are not found.  Main statement: `Layer.loadModule_declares_iff`,
whether the root of a declaration is found, and when the declaration fails for want of its root.
-/

set_option autoImplicit false

namespace ModuleLoader.Namespace

open ModuleLoader.Script ModuleLoader.Text

/-! ## Bound names -/

/-- The names that a preamble binds. -/
theorem bindings_ne_none (s : Scope) (options : WrapOptions) (e : Engine) (name : String) :
    (s.bindings options e).get? name ≠ none ↔
      name = scopeBinding ∨ name ∈ options.aliases ∨ name ∈ s.roots := by
  unfold Scope.bindings
  rw [Table.get?_setAll_ne_none, Table.get?_set, List.map_append, List.mem_append, List.map_map,
    List.map_map]
  have haliases : options.aliases.map ((·.1) ∘ fun name => (name, Value.object s.holder)) =
      options.aliases := List.map_id'' (fun _ => rfl) _
  have hroots : (s.roots.filter fun root => !options.aliases.contains root).map
      ((·.1) ∘ fun root => (root, (e.heap.read s.holder root).getD .undefined)) =
      s.roots.filter fun root => !options.aliases.contains root := List.map_id'' (fun _ => rfl) _
  rw [haliases, hroots, List.mem_filter]
  by_cases hscope : name = scopeBinding
  · simp [hscope]
  · by_cases halias : name ∈ options.aliases
    · simp [halias]
    · simp [hscope, halias]

/-- Only an unbound root makes a declaration fail as not defined. -/
theorem declareRoot_notDefined_iff (r : Run) (path : String) :
    (r.declareRoot path).1 = .error (.notDefined (rootOf path.toList)) ↔
      r.lookup (rootOf path.toList) = none := by
  have hdeclare : ∀ (h : Heap) (o : ObjectId) (keys : List String),
      (Run.declareFrom path h o keys).1 ≠ .error (.notDefined (rootOf path.toList)) := by
    intro h o keys
    induction keys generalizing h o with
    | nil => nofun
    | cons key keys ih =>
      unfold Run.declareFrom
      split
      · exact ih _ _
      · nofun
  unfold Run.declareRoot
  simp only
  rw [headD_splitOnChar]
  split
  · rename_i hnone
    exact iff_of_true rfl hnone
  · rename_i o hobject
    apply iff_of_false
    · exact hdeclare _ _ _
    · rw [hobject]
      exact nofun
  · rename_i v _ hvalue
    apply iff_of_false
    · nofun
    · rw [hvalue]
      exact nofun

/-! ## Modules -/

/-- A script comes to a statement with what the statements before it left, and ends there if the
statement fails. -/
theorem statements_of_front {r r' : Run} {last v : Value} {front rest : Program} {s : Statement}
    {f : Fault} (hfront : Run.statements r last front = (.ok v, r'))
    (hs : (r'.perform s.action).1 = .error f) :
    (Run.statements r last (front ++ s :: rest)).1 = .error (f.at s.span.place) := by
  rw [Run.statements_append, hfront]
  simp only [Run.statements]
  rcases hp : r'.perform s.action with ⟨f' | w, r''⟩
  · rw [hp] at hs
    cases hs
    rfl
  · rw [hp] at hs
    cases hs

/-- A body with a declaration is not blank. -/
theorem isBlankText_of_parseProgram {body : String} {s : Statement} {program : Program}
    (h : parseProgram body = .ok program) (hs : s ∈ program) {path : String}
    (haction : s.action = .declareRoot path) : isBlankText body = false := by
  obtain ⟨-, before, after, d, hbody, -⟩ := exists_spelling h hs haction
  rw [← Bool.not_eq_true]
  intro hblank
  have hall := List.all_eq_true.1 hblank 'd'
  rw [hbody, d.text_append] at hall
  exact absurd (hall (by simp)) (by decide)

/-- A module whose body fails at a statement fails there with the body's fault, if the trailer is
passed over. -/
theorem Layer.loadModule_of_statements {config : Configuration} (hvalid : config.validate = .ok ())
    {layer : Layer} (hlayer : layer.scope.Discovered) (info : SourceInfo) {body : String}
    (hbody : isBlankText body = false) (hpassed : PassedOver body (trailer info config.wrapOptions))
    {program : Program} (hparse : parseProgram body = .ok program) {fault : Fault} {p : Place}
    (hfault : let scope := (layer.scope.discoverRoots layer.engine body).2.1
      let engine := (layer.scope.discoverRoots layer.engine body).2.2
      (Run.statements ⟨engine, scope.bindings config.wrapOptions engine⟩ .undefined program).1 =
        .error (fault.at p)) :
    (layer.loadModule config.wrapOptions info body).1 =
      .error ⟨info.module, fault.text, some p.line, some p.column⟩ := by
  rw [loadModule_eq hvalid hlayer info hbody]
  rcases parseProgram_passedOver (toList_trailer info config.wrapOptions) hpassed with
    ⟨program', whole, hok, hwhole, halike⟩ | ⟨err, _, herror, -⟩
  · cases hparse.symm.trans hok
    rw [Engine.evaluate_of_ok hwhole]
    rcases (Run.statements_alike halike _ .undefined).1 with
      ⟨v, hv, -⟩ | ⟨fault', s, s', ⟨-, hsame⟩, hown, hthere⟩
    · cases hv.symm.trans hfault
    · have heq := Except.error.inj (hown.symm.trans hfault)
      rw [hthere, hsame, heq]
      rfl
  · cases hparse.symm.trans herror

/-- Every declaration of a root in a module body is some spelling of its path.  Its root is found just
if it is not the name of the scope and the spelling is plain, or the root is named elsewhere in the
body.  When the declaration is reached, it fails for want of its root just if the root was not found
and nothing else binds it: no module before, no alias, no binding in the body, no global.  The module
then fails at the declaration. -/
theorem Layer.loadModule_declares_iff (config : Configuration) (hvalid : config.validate = .ok ())
    (layer : Layer) (hlayer : layer.scope.Discovered) (info : SourceInfo) (body : String)
    (front rest : Program) (s : Statement) (path : String)
    (hparse : parseProgram body = .ok (front ++ s :: rest)) (hs : s.action = .declareRoot path) :
    let scope := (layer.scope.discoverRoots layer.engine body).2.1
    let engine := (layer.scope.discoverRoots layer.engine body).2.2
    let root := rootOf path.toList
    (∃ (before after : List Char) (d : Spelling path), body.toList = before ++ (d.text ++ after) ∧
      s.span.place = Place.start.after before ∧
      (root ∈ declaredRoots body ↔ root ≠ scopeBinding ∧
        (IsPlain d ∨ ∃ elsewhere, elsewhere ≠ before ∧ NamedAt body elsewhere root))) ∧
    ∀ v r, Run.statements ⟨engine, scope.bindings config.wrapOptions engine⟩ .undefined front =
        (.ok v, r) →
      ((r.declareRoot path).1 = .error (.notDefined root) ↔
        root ∉ declaredRoots body ∧ root ∉ layer.scope.roots ∧ root ≠ scopeBinding ∧
          root ∉ config.wrapOptions.aliases ∧ (∀ t ∈ front, ∀ init, t.action ≠ .var root init) ∧
          r.engine.globals.get? root = none) ∧
      ((r.declareRoot path).1 = .error (.notDefined root) →
        PassedOver body (trailer info config.wrapOptions) →
        (layer.loadModule config.wrapOptions info body).1 =
          .error ⟨info.module, (Fault.notDefined root).text, some s.span.place.line,
            some s.span.place.column⟩) := by
  intro scope engine root
  have hmem : s ∈ front ++ s :: rest := List.mem_append_right _ List.mem_cons_self
  obtain ⟨hdeclarable, before, after, d, hbody, hplace⟩ := exists_spelling hparse hmem hs
  constructor
  · refine ⟨before, after, d, hbody, hplace, ?_⟩
    have hhere : NamedAt body before root ↔ IsPlain d := by
      rw [← exists_declaration?_iff hdeclarable d after]
      constructor
      · rintro ⟨inner, path', rest', hinner, hfound, hroot⟩
        rw [hbody, List.append_cancel_left_eq] at hinner
        exact ⟨path', rest', hinner ▸ hfound, hroot⟩
      · rintro ⟨path', rest', hfound, hroot⟩
        exact ⟨_, path', rest', hbody, hfound, hroot⟩
    rw [mem_declaredRoots_iff, isRootName_iff_of_isDeclarable hdeclarable, ← hhere]
    apply and_congr_right
    intro _
    constructor
    · rintro ⟨place, hnamed⟩
      by_cases he : place = before
      · exact .inl (he ▸ hnamed)
      · exact .inr ⟨place, he, hnamed⟩
    · rintro (hnamed | ⟨elsewhere, -, hnamed⟩)
      · exact ⟨before, hnamed⟩
      · exact ⟨elsewhere, hnamed⟩
  · intro v r hfront
    refine ⟨?_, fun hfault hpassed => ?_⟩
    · have hbound := not_congr (Run.binds_statements hfront root)
      simp only at hbound
      rw [bindings_ne_none, show root ∈ scope.roots ↔ _ from mem_roots_register] at hbound
      simp only [ne_eq, not_not, not_or, not_exists, not_and] at hbound
      rw [declareRoot_notDefined_iff, Run.lookup_eq_none_iff]
      change r.locals.get? root = none ∧ _ ↔ _
      rw [hbound]
      constructor
      · rintro ⟨⟨⟨hscope, halias, hbefore, hfound⟩, hvar⟩, hglobal⟩
        exact ⟨hfound, hbefore, hscope, halias, hvar, hglobal⟩
      · rintro ⟨hfound, hbefore, hscope, halias, hvar, hglobal⟩
        exact ⟨⟨⟨hscope, halias, hbefore, hfound⟩, hvar⟩, hglobal⟩
    · have hperform : (r.perform s.action).1 = .error (.notDefined root) := by
        rw [hs]
        simp only [Run.perform]
        rcases hd : r.declareRoot path with ⟨f | u, r'⟩
        · rw [hd] at hfault
          cases hfault
          rfl
        · rw [hd] at hfault
          cases hfault
      exact loadModule_of_statements hvalid hlayer info (isBlankText_of_parseProgram hparse hmem hs)
        hpassed hparse (statements_of_front hfront hperform)

/-- A blank before the parenthesis: the root is not found, and the declaration fails. -/
theorem Layer.loadModule_declares_iff_blank :
    let config := Configuration.default
    let layer := Layer.make .initial
    let info : SourceInfo := ⟨"m.js", "/out/m.js", false⟩
    let body := "declare-root ('app')\napp.x = true"
    let s : Statement := ⟨.declareRoot "app", ⟨⟨0, 1, 1⟩, 12⟩⟩
    let rest : Program := [⟨.assign ⟨"app", ["x"]⟩ (.boolean true), ⟨⟨21, 2, 1⟩, 24⟩⟩]
    config.validate = .ok () ∧ layer.scope.Discovered ∧ parseProgram body = .ok ([] ++ s :: rest) ∧
      s.action = .declareRoot "app" ∧ "app" ≠ scopeBinding ∧ "app" ∉ declaredRoots body ∧
      (layer.loadModule config.wrapOptions info body).1 =
        .error ⟨"m.js", "ReferenceError: app is not defined", some 1, some 1⟩ := by
  intro config layer info body s rest
  have hparse : parseProgram body = .ok ([] ++ s :: rest) := by decide +kernel +revert
  have hfound : "app" ∉ declaredRoots body := by decide +kernel +revert
  have hglobal : (layer.scope.discoverRoots layer.engine body).2.2.globals.get? "app" = none := by
    decide +kernel +revert
  have hpassed : PassedOver body (trailer info config.wrapOptions) :=
    passedOver_trailer (by decide) (.inr (by decide))
  have hlayer : layer.scope.Discovered := .make .initial
  obtain ⟨-, hruns⟩ :=
    Layer.loadModule_declares_iff config rfl layer hlayer info body [] rest s "app" hparse rfl
  obtain ⟨hiff, hfails⟩ := hruns .undefined _ rfl
  have hunbound := hiff.2 ⟨hfound, nofun, by decide, by decide, nofun, hglobal⟩
  exact ⟨rfl, hlayer, hparse, rfl, by decide, hfound, hfails hunbound hpassed⟩

end ModuleLoader.Namespace
