import ModuleLoader.Proofs.Namespace.Declaration
import ModuleLoader.Proofs.Namespace.Discovery
import ModuleLoader.Proofs.Namespace.Position

/-!
# The root table

The table of a scope is extended before a module body runs, and bodies write the holder as they like.
Main statement: `Layer.loadAll_rootTable`, whatever was evaluated, the table lists the first occurrences
among the roots that the bodies declare, and the holder has a property for each of them.
-/

set_option autoImplicit false

namespace ModuleLoader.Namespace

open ModuleLoader.Script ModuleLoader.Text

/-! ## First occurrences -/

/-- Names added one by one to some first occurrences are the first occurrences of all. -/
theorem foldl_addName_eraseDups (names more : List String) :
    more.foldl addName names.eraseDups = (names ++ more).eraseDups := by
  induction more generalizing names with
  | nil => rw [List.append_nil, List.foldl_nil]
  | cons name more ih =>
    have hadd : addName names.eraseDups name = (names ++ [name]).eraseDups := by
      by_cases hmem : name ∈ names
      · simp [addName, List.eraseDups_append, List.cons_removeAll, hmem]
      · simp [addName, List.eraseDups_append, List.cons_removeAll, hmem, List.eraseDups_cons]
    rw [List.foldl_cons, hadd, ih, List.append_assoc, List.singleton_append]

/-- Adding names keeps a list without repetitions. -/
theorem nodup_foldl_addName {names more : List String} (h : names.Nodup) :
    (more.foldl addName names).Nodup := by
  induction more generalizing names with
  | nil => exact h
  | cons name more ih =>
    refine ih ?_
    unfold addName
    split
    · exact h
    · rename_i hnew
      rw [List.contains_iff_mem] at hnew
      refine List.nodup_append.2 ⟨h, by simp, fun other hother last hlast => ?_⟩
      rw [List.mem_singleton.1 hlast]
      rintro rfl
      exact hnew hother

/-- Adding names keeps those that were there, in front. -/
theorem prefix_foldl_addName (names more : List String) : names <+: more.foldl addName names := by
  induction more generalizing names with
  | nil => exact List.prefix_rfl
  | cons name more ih =>
    refine List.IsPrefix.trans ?_ (ih (addName names name))
    unfold addName
    split
    · exact List.prefix_rfl
    · exact List.prefix_append _ _

/-! ## One module -/

/-- Registering names adds each of them to the table. -/
theorem Scope.roots_register (s : Scope) (e : Engine) (names : List String) :
    (s.register e names).2.1.roots = names.foldl addName s.roots := by
  induction names generalizing s e with
  | nil => rfl
  | cons name names ih =>
    rw [Scope.register, List.foldl_cons, addName]
    split
    · exact ih s e
    · exact ih _ _

/-- A blank text declares nothing. -/
theorem declaredRoots_of_blank {body : String} (h : isBlankText body = true) :
    declaredRoots body = [] := by
  apply List.eq_nil_iff_forall_not_mem.2
  intro name hmem
  obtain ⟨-, front, inner, path, rest, hbody, hdeclared, -⟩ := mem_declaredRoots_iff.1 hmem
  obtain ⟨before, quote, quote', after, hinner, -⟩ := eq_of_declaration? hdeclared
  have hletter : 'd' ∈ body.toList := by
    rw [hbody, hinner]
    exact List.mem_append_right _ List.mem_cons_self
  exact absurd (List.all_eq_true.1 h 'd' hletter) (by decide)

/-- Blank bodies declare no roots. -/
theorem flatMap_declaredRoots_filter (bodies : List String) :
    (bodies.filter fun body => !isBlankText body).flatMap declaredRoots =
      bodies.flatMap declaredRoots := by
  induction bodies with
  | nil => rfl
  | cons body bodies ih =>
    rw [List.flatMap_cons, List.filter_cons]
    split
    · rw [List.flatMap_cons, ih]
    · rename_i hblank
      rw [ih, declaredRoots_of_blank (by simpa using hblank), List.nil_append]

/-- Evaluating a module adds the roots it declares to the table, whether it fails or not. -/
theorem Layer.roots_loadModule (l : Layer) (options : WrapOptions) (info : SourceInfo)
    (body : String) :
    (l.loadModule options info body).2.scope.roots =
      (declaredRoots body).foldl addName l.scope.roots := by
  unfold loadModule
  split
  · rename_i hblank
    rw [declaredRoots_of_blank hblank, List.foldl_nil]
  · exact l.scope.roots_register l.engine (declaredRoots body)

/-! ## Any number of modules -/

namespace Layer

/-- After some modules were loaded the roots are those there were and those that the bodies declare,
each where it occurs first. -/
theorem roots_loadAll (l : Layer) (options : WrapOptions) (loads : List (SourceInfo × String)) :
    (l.loadAll options loads).scope.roots =
      ((loads.map (·.2)).flatMap declaredRoots).foldl addName l.scope.roots := by
  induction loads generalizing l with
  | nil => rfl
  | cons load loads ih =>
    rw [loadAll, ih, roots_loadModule, List.map_cons, List.flatMap_cons, List.foldl_append]

/-- The roots of a scope stay discovered when modules are loaded. -/
theorem discovered_loadAll {l : Layer} (h : l.scope.Discovered) (options : WrapOptions)
    (loads : List (SourceInfo × String)) : (l.loadAll options loads).scope.Discovered := by
  induction loads generalizing l with
  | nil => exact h
  | cons load loads ih => exact ih (discovered_loadModule h options load.1 load.2)

/-- Any modules may be evaluated on an empty layer, and each may fail.  The table then lists the first
occurrences among the roots that the bodies with more than blanks in them declare, in the order of the
evaluations.  It lists nothing twice, only identifiers that are neither reserved nor the name of the
scope, and the holder has a property for each of them, whatever the bodies wrote.  Further evaluations
only add names at the end. -/
theorem loadAll_rootTable (options : WrapOptions) (e : Engine) (loads : List (SourceInfo × String)) :
    let layer := (make e).loadAll options loads
    let roots := layer.scope.roots
    let bodies := (loads.map (·.2)).filter fun body => !isBlankText body
    roots = (bodies.flatMap declaredRoots).eraseDups ∧
    roots.Nodup ∧
    (∀ more, roots <+: (layer.loadAll options more).scope.roots) ∧
    ∀ name ∈ roots, isIdentifier name = true ∧ isKeyword name = false ∧ name ≠ scopeBinding ∧
      layer.engine.heap.read layer.scope.holder name ≠ none := by
  intro layer roots bodies
  have hroots : roots = ((loads.map (·.2)).flatMap declaredRoots).foldl addName [] :=
    roots_loadAll (make e) options loads
  refine ⟨?_, ?_, fun more => ?_, fun name hname => ?_⟩
  · rw [hroots, flatMap_declaredRoots_filter]
    exact foldl_addName_eraseDups [] _
  · rw [hroots]
    exact nodup_foldl_addName List.nodup_nil
  · rw [roots_loadAll]
    exact prefix_foldl_addName _ _
  · have hdiscovered : layer.scope.Discovered := discovered_loadAll (.make e) options loads
    have hroot := hdiscovered.isRootName name hname
    simp only [isRootName, Bool.and_eq_true, Bool.not_eq_true', bne_iff_ne] at hroot
    have htracks := (tracks_make e).loadAll options loads
    exact ⟨hroot.1.1, hroot.1.2, hroot.2, (htracks.there name).2 (.inl hname)⟩

end Layer

end ModuleLoader.Namespace
