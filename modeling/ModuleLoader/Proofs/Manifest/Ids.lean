import ModuleLoader.Manifest.Basic
import ModuleLoader.Table

/-!
# The ids of a manifest

A manifest is accepted just when every module has an id that is not blank and that no module before
it has.  So the places that a manifest gives to its modules are found again under their ids.  Main
statements: `faultAmong_eq_none_iff` and `get?_specs`.
-/

set_option autoImplicit false

namespace ModuleLoader

namespace Manifest

/-- Modules are in order just when no id is blank, none was seen before and none occurs twice. -/
theorem faultAmong_eq_none_iff (seen : List String) (modules : List ManifestModule) :
    faultAmong seen modules = none ↔
      (∀ e ∈ modules, Text.isBlankText e.id = false ∧ e.id ∉ seen) ∧
        (modules.map (·.id)).Nodup := by
  induction modules generalizing seen with
  | nil => simp [faultAmong]
  | cons e modules ih =>
    by_cases hblank : Text.isBlankText e.id = true
    · simp [faultAmong, hblank]
    by_cases hseen : e.id ∈ seen
    · simp [faultAmong, hblank, hseen]
    have hnext : faultAmong seen (e :: modules) = faultAmong (e.id :: seen) modules := by
      simp [faultAmong, hblank, hseen]
    rw [hnext, ih, List.map_cons, List.nodup_cons, List.forall_mem_cons]
    constructor
    · rintro ⟨hall, hnodup⟩
      refine ⟨⟨⟨by simpa using hblank, hseen⟩, fun other hother => ?_⟩, fun hmem => ?_, hnodup⟩
      · exact ⟨(hall other hother).1, fun hmem => (hall other hother).2 (List.mem_cons_of_mem _ hmem)⟩
      · obtain ⟨other, hother, he⟩ := List.mem_map.1 hmem
        exact (hall other hother).2 (he ▸ List.mem_cons_self)
    · rintro ⟨⟨-, hall⟩, hnew, hnodup⟩
      refine ⟨fun other hother => ⟨(hall other hother).1, fun hmem => ?_⟩, hnodup⟩
      rcases List.mem_cons.1 hmem with he | hmem
      · exact hnew (List.mem_map.2 ⟨other, hother, he⟩)
      · exact (hall other hother).2 hmem

/-- A manifest that is read has no fault. -/
theorem fault?_of_parse {text : String} {m : Manifest} (h : parse text = .ok m) : m.fault? = none := by
  unfold parse at h
  split at h
  · cases h
  · split at h
    · cases h
    · rename_i hnone
      cases h
      exact hnone

/-- A manifest that was read has no two modules of one id. -/
theorem nodup_ids_of_fromFile {files : FileSystem} {path : String} {m : Manifest}
    (h : fromFile files path = .ok m) : m.ids.Nodup := by
  unfold fromFile at h
  split at h
  · cases h
  · rename_i text _
    cases hp : parse text with
    | error e => simp [hp, Except.map] at h
    | ok read =>
      rw [hp] at h
      cases h
      exact ((faultAmong_eq_none_iff [] read.modules).1 (fault?_of_parse hp)).2

/-- The modules of a manifest are loaded under their ids. -/
theorem map_id_specs (m : Manifest) (base : String) : (m.specs base).map (·.id) = m.ids := by
  rw [specs, List.map_map]
  rfl

/-- The place of a module is found under its id. -/
theorem get?_specs {m : Manifest} (h : m.ids.Nodup) {base : String} {spec : ModuleSpec}
    (hs : spec ∈ m.specs base) :
    (Table.empty.setAll ((m.specs base).map fun spec => (spec.id, spec))).get? spec.id =
      some spec := by
  have hnames : ((m.specs base).map fun spec => (spec.id, spec)).map (·.1) = m.ids := by
    rw [← m.map_id_specs base, List.map_map]
    rfl
  exact Table.get?_setAll_of_mem .empty (hnames ▸ h) (List.mem_map_of_mem hs)

end Manifest

end ModuleLoader
