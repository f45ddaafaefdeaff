import ModuleLoader.Proofs.Environment.Composition
import ModuleLoader.Proofs.Environment.Consistency
import ModuleLoader.Proofs.Environment.Refinement
import ModuleLoader.Proofs.Environment.Report

/-!
# Where failures are located

A diagnostic takes its location from the module's record.  The record of a module that was registered
holds the location its code is retrieved from; the record of a module that was first known by given
code, or by being counted as loaded, holds the bare id, and keeps it.  Main statement:
`run_misplaces_iff`, the diagnostics of a run are located where their modules are retrieved from just
when no given code failed under an id that is not in the order and is not its own location.
-/

set_option autoImplicit false

namespace ModuleLoader

/-! ## The locations of records -/

namespace ModuleStore

/-- Where a known module is retrieved from, as its record says. -/
def location? (s : ModuleStore) (id : String) : Option String := (s.get? id).map (·.location)

/-- The location of a module depends on its record alone. -/
theorem location?_congr {s t : ModuleStore} {id : String} (h : t.get? id = s.get? id) :
    t.location? id = s.location? id := by
  unfold location?
  rw [h]

/-- A module that advances keeps its location, as do the others. -/
theorem location?_advance (s : ModuleStore) (id : String) (next : ModuleState) (other : String) :
    (s.advance id next).2.location? other = s.location? other := by
  rcases s.advance_cases id next with h | ⟨record, hr, -, h⟩
  · rw [h]
  · rw [h]
    by_cases he : other = id
    · simp [location?, he, hr]
    · exact location?_congr (Table.get?_set_of_ne s _ he)

/-- Locations are the same in every store that follows. -/
theorem Follows.location? {t s : ModuleStore} (h : t.Follows s) (id : String) :
    t.location? id = s.location? id := by
  rcases h id with he | ⟨record, code, result, hr, ht⟩
  · exact location?_congr he
  · simp [ModuleStore.location?, ht, hr.1]

/-- A module that is forced keeps its location; without a record it gets its id for one. -/
theorem location?_force (s : ModuleStore) (id : String) (state : ModuleState) (other : String) :
    (s.force id state).location? other =
      if other = id then some ((s.location? id).getD id) else s.location? other := by
  by_cases he : other = id
  · rw [he, if_pos rfl, location?, location?, get?_force_self]
    cases s.get? id <;> rfl
  · rw [if_neg he]
    exact location?_congr (s.get?_force_of_ne state he)

/-- A new record has the location that its module is retrieved from. -/
theorem location?_ensure_self {s : ModuleStore} {spec : ModuleSpec} (h : s.get? spec.id = none) :
    (s.ensure spec).2.location? spec.id = some spec.location := by
  rw [location?, get?_ensure, if_pos ⟨rfl, h⟩]
  rfl

/-- Making a record leaves the other locations alone. -/
theorem location?_ensure_of_ne (s : ModuleStore) {spec : ModuleSpec} {other : String}
    (h : other ≠ spec.id) : (s.ensure spec).2.location? other = s.location? other := by
  apply location?_congr
  rw [get?_ensure, if_neg fun hc => h hc.1]

end ModuleStore

/-! ## The failures of a flush -/

namespace Flush

open ModuleStore

variable {σ : Type}

/-- The failures that a flush leaves to be noted. -/
def failures (f : Flush σ) : List EvaluationFailure :=
  match f.outcome with
  | .ok r => r.failed
  | .error failure => [failure]

/-- The failures of a flush with one more result are this one, if it is a failure, and the
others. -/
theorem mem_failures_reporting {f : Flush σ} {id : String} {result : Except EvaluationFailure Unit}
    {failure : EvaluationFailure} (h : failure ∈ (f.reporting (.noting id result)).failures) :
    result = .error failure ∨ failure ∈ f.failures := by
  unfold failures reporting at h
  unfold failures
  cases hf : f.outcome with
  | error stopping =>
    rw [hf] at h
    exact .inr h
  | ok r =>
    rw [hf] at h
    cases result with
    | ok u => exact .inr h
    | error noted =>
      rcases List.mem_cons.1 h with rfl | h
      · exact .inl rfl
      · exact .inr h

/-- Where failures name the module evaluated, those of a flush name modules it came to. -/
theorem module_failures (policy : FailurePolicy) {evaluate : Evaluator σ}
    (hnames : ∀ record code state failure state',
      evaluate record code state = (.error failure, state') → failure.module = record.id)
    (ids : List String) (store : ModuleStore) (state : σ) (hk : store.Keyed) :
    ∀ failure ∈ (through policy evaluate ids store state).failures, failure.module ∈ ids := by
  refine through_induction policy evaluate (motive := fun ids store _ f => store.Keyed →
    ∀ failure ∈ f.failures, failure.module ∈ ids)
    ?drained ?blocked ?settled ?ready ?stops ids store state hk
  case drained => exact fun store state _ => nofun
  case blocked => exact fun id rest store state _ _ => nofun
  case settled =>
    intro id rest store state f hs ih hk failure hf
    exact List.mem_cons_of_mem _ (ih hk failure hf)
  case ready =>
    intro id rest store state record code result state' f hr he hgo ih hk failure hf
    rcases mem_failures_reporting hf with rfl | hf
    · rw [hnames _ _ _ _ _ he, hk id record hr.1]
      exact List.mem_cons_self
    · exact List.mem_cons_of_mem _ (ih ((follows_conclude hr result).keyed hk) failure hf)
  case stops =>
    intro id rest store state record code failure state' hr he hp hk noted hn
    rw [List.mem_singleton.1 hn, hnames _ _ _ _ _ he, hk id record hr.1]
    exact List.mem_cons_self

end Flush

namespace Environment

/-! ## What is written to the journal -/

/-- The diagnostic of a failed evaluation. -/
def diagnosis (env : Environment) (failure : EvaluationFailure) : Diagnostic :=
  ⟨.evaluation, failure.module, env.locationOf failure.module, failure.message, failure.line,
    failure.column⟩

/-- A module is located by its record, or where it would be retrieved from. -/
theorem locationOf_eq (env : Environment) (id : String) :
    env.locationOf id = (env.store.location? id).getD (env.specFor id).location := by
  unfold locationOf ModuleStore.location?
  cases env.store.get? id <;> rfl

/-- Noting a failed evaluation adds its diagnostic. -/
theorem diagnostics_noteEvaluationFailure (env : Environment) (failure : EvaluationFailure) :
    (env.noteEvaluationFailure failure).journal.diagnostics =
      env.journal.diagnostics ++ [env.diagnosis failure] := by
  unfold noteEvaluationFailure Journal.evaluation
  split <;> rfl

/-- Noting failed evaluations adds their diagnostics, in order. -/
theorem diagnostics_foldl_noteEvaluationFailure (failures : List EvaluationFailure)
    (env : Environment) :
    (failures.foldl noteEvaluationFailure env).journal.diagnostics =
      env.journal.diagnostics ++ failures.map env.diagnosis := by
  induction failures generalizing env with
  | nil => rw [List.foldl_nil, List.map_nil, List.append_nil]
  | cons failure failures ih =>
    have hsame : (env.noteEvaluationFailure failure).diagnosis = env.diagnosis := rfl
    rw [List.foldl_cons, ih, diagnostics_noteEvaluationFailure, hsame, List.append_assoc]
    rfl

/-- A flush writes a diagnostic for each of its failures, located as the records say afterwards. -/
theorem diagnostics_flush (env : Environment) :
    env.flush.2.journal.diagnostics =
      env.journal.diagnostics ++ env.orderFlush.failures.map env.flush.2.diagnosis := by
  have hsame : env.flush.2.diagnosis = { env with store := env.orderFlush.store }.diagnosis := by
    obtain ⟨journal, progress, hflush⟩ := env.flush_frame
    rw [hflush]
    rfl
  rw [hsame]
  cases hout : env.orderFlush.outcome with
  | ok r =>
    have hfailures : env.orderFlush.failures = r.failed := by rw [Flush.failures, hout]
    rw [hfailures]
    unfold orderFlush at hout
    simp only [flush, LoadOrder.flush, hout]
    exact diagnostics_foldl_noteEvaluationFailure r.failed _
  | error failure =>
    have hfailures : env.orderFlush.failures = [failure] := by rw [Flush.failures, hout]
    rw [hfailures]
    unfold orderFlush at hout
    simp only [flush, LoadOrder.flush, hout]
    exact diagnostics_noteEvaluationFailure _ failure

/-! ## Located environments -/

/-- The modules of the order have records with the locations they are retrieved from, all others
have bare records, and every diagnostic is located as the record of its module is. -/
structure Located (env : Environment) : Prop where
  named : env.Named
  keyed : env.store.Keyed
  ordered : env.Ordered
  enqueued : ∀ id ∈ env.order.order, env.store.location? id = some (env.specFor id).location
  bare : ∀ id ∉ env.order.order, ∀ location, env.store.location? id = some location → location = id
  diagnosed : ∀ d ∈ env.journal.diagnostics, env.store.location? d.module = some d.location ∧
    (d.kind = .retrieval → d.module ∈ env.order.order)

/-- What an operation adds to the diagnostics is about modules of the order, and so is a failed
retrieval that it answers with. -/
structure Diagnoses (env : Environment) (outcome : Except LoaderError Unit × Environment) :
    Prop where
  located : outcome.2.Located
  config : outcome.2.config = env.config
  specs : outcome.2.specs = env.specs
  order : env.order.order ⊆ outcome.2.order.order
  diagnostics : ∃ new, outcome.2.journal.diagnostics = env.journal.diagnostics ++ new ∧
    ∀ d ∈ new, d.module ∈ outcome.2.order.order
  answer : ∀ id location cause, outcome.1 = .error (.retrieval id location cause) →
    location = (env.specFor id).location

variable {env env' : Environment} {outcome : Except LoaderError Unit × Environment}

/-- Where modules are depends on the configuration and on what was told of them. -/
theorem specFor_congr (hc : env'.config = env.config) (hs : env'.specs = env.specs) :
    env'.specFor = env.specFor := by
  funext id
  unfold specFor
  rw [hs, hc]

/-- A new environment has no diagnostics. -/
theorem diagnostics_of_make {config : Configuration} {transport : Transport}
    {engine : Script.Engine} {made : Environment} (h : make config transport engine = .ok made) :
    made.journal.diagnostics = [] := by
  unfold make at h
  split at h
  · cases h
  · split at h
    · cases h
    · cases h
      rfl

/-- A new environment without diagnostics locates them all. -/
theorem Fresh.located (h : env.Fresh) (hnone : env.journal.diagnostics = []) : env.Located := by
  have hempty : ∀ id, env.store.get? id = none := by
    intro id
    rw [h.store]
    rfl
  have hunknown : ∀ id record, env.store.get? id ≠ some record := by
    intro id record hr
    rw [hempty] at hr
    cases hr
  have hinitial : env.order.order = [] := by
    rw [h.order]
    rfl
  refine ⟨id_specFor h.named, fun id record hr => absurd hr (hunknown id record), ?_, ?_, ?_, ?_⟩
  · refine ⟨?_, ?_, ?_, ?_, ?_⟩
    · rw [hinitial]
      exact .nil
    · rw [hinitial]
      nofun
    · rw [h.order]
      exact Nat.le_refl _
    · rw [h.order]
      nofun
    · rintro id ⟨record, hr, -⟩
      exact absurd hr (hunknown id record)
  · rw [hinitial]
    nofun
  · intro id _ location hl
    rw [ModuleStore.location?, hempty] at hl
    cases hl
  · rw [hnone]
    nofun

/-- Records may change as long as they stay where they are, and new diagnostics may say where. -/
theorem Located.restore (h : env.Located) (hc : env'.config = env.config)
    (hs : env'.specs = env.specs) (hk : env'.store.Keyed) (hordered : env'.Ordered)
    (horder : env'.order.order = env.order.order)
    (hlocation : ∀ id, env'.store.location? id = env.store.location? id) {new : List Diagnostic}
    (hd : env'.journal.diagnostics = env.journal.diagnostics ++ new)
    (hnew : ∀ d ∈ new, env.store.location? d.module = some d.location ∧
      (d.kind = .retrieval → d.module ∈ env.order.order)) : env'.Located := by
  have hspec := specFor_congr hc hs
  refine ⟨?_, hk, hordered, ?_, ?_, ?_⟩
  · intro id
    rw [hspec]
    exact h.named id
  · intro id hid
    rw [horder] at hid
    rw [hlocation, hspec]
    exact h.enqueued id hid
  · intro id hid location hl
    rw [horder] at hid
    rw [hlocation] at hl
    exact h.bare id hid location hl
  · intro d hmem
    rw [hd] at hmem
    rw [hlocation, horder]
    rcases List.mem_append.1 hmem with hmem | hmem
    · exact h.diagnosed d hmem
    · exact hnew d hmem

/-- Diagnostics stay located when only retrievals, what is held back and what was announced
change. -/
theorem Located.alike (h : env.Located) (ha : env.Alike env') : env'.Located := by
  have hkeyed : env'.store.Keyed := by
    rw [ha.store]
    exact h.keyed
  have hlocation : ∀ id, env'.store.location? id = env.store.location? id := by
    intro id
    rw [ha.store]
  have horder : env'.order.order = env.order.order := by rw [ha.order]
  have hnone : env'.journal.diagnostics = env.journal.diagnostics ++ [] := by
    rw [ha.diagnostics, List.append_nil]
  exact h.restore ha.config ha.specs hkeyed (h.ordered.of_eq ha.store ha.order) horder hlocation
    hnone nofun

/-- A module of the order is located where it is retrieved from. -/
theorem Located.locationOf (h : env.Located) {id : String} (hid : id ∈ env.order.order) :
    env.locationOf id = (env.specFor id).location := by
  rw [locationOf_eq, h.enqueued id hid]
  rfl

/-- Only modules of the order can make a regular move. -/
theorem Located.mem_order (h : env.Located) {id : String} {record : ModuleRecord}
    {next : ModuleState} (hr : env.store.get? id = some record)
    (ha : record.state.allows next = true) : id ∈ env.order.order := by
  apply List.mem_of_mem_drop
  apply h.ordered.ahead id
  refine ⟨record, hr, ?_⟩
  rw [← Bool.not_eq_true]
  intro hs
  rw [ModuleState.allows_of_isSettled hs] at ha
  cases ha

/-! ## Parts of operations -/

/-- What two operations in turn diagnose is what they diagnose together. -/
theorem Diagnoses.trans {mid : Environment} (h : Diagnoses env (.ok (), mid))
    (hnext : Diagnoses mid outcome) : Diagnoses env outcome where
  located := hnext.located
  config := hnext.config.trans h.config
  specs := hnext.specs.trans h.specs
  order := List.Subset.trans h.order hnext.order
  diagnostics := by
    obtain ⟨new, hnew, hmem⟩ := h.diagnostics
    obtain ⟨more, hmore, hmem'⟩ := hnext.diagnostics
    refine ⟨new ++ more, ?_, ?_⟩
    · rw [hmore, hnew, List.append_assoc]
    · intro d hd
      rcases List.mem_append.1 hd with hd | hd
      · exact hnext.order (hmem d hd)
      · exact hmem' d hd
  answer id location cause he := by
    rw [← specFor_congr h.config h.specs]
    exact hnext.answer id location cause he

/-- A part that writes no diagnostic diagnoses nothing wrongly. -/
theorem Diagnoses.silent {answer : Except LoaderError Unit} (h : env'.Located)
    (hc : env'.config = env.config) (hs : env'.specs = env.specs)
    (horder : env.order.order ⊆ env'.order.order)
    (hd : env'.journal.diagnostics = env.journal.diagnostics)
    (ha : ∀ e, answer = .error e → e.module? = none) : Diagnoses env (answer, env') where
  located := h
  config := hc
  specs := hs
  order := horder
  diagnostics := ⟨[], by rw [hd, List.append_nil], nofun⟩
  answer id location cause he := nomatch ha _ he

/-- A flush diagnoses modules of the order. -/
theorem Located.flush (h : env.Located) : Diagnoses env env.flush := by
  have hordered := h.ordered.flush
  have hfollows := env.follows_flush
  have hdiagnostics := env.diagnostics_flush
  have hnamed : ∀ failure ∈ env.orderFlush.failures, failure.module ∈ env.order.order := by
    intro failure hf
    apply List.mem_of_mem_drop
    refine Flush.module_failures env.profile.policy ?_ env.order.pending env.store env.layer h.keyed
      failure hf
    intro record code layer failure layer' he
    exact Namespace.Layer.module_of_loadModule he
  have hanswer : ∀ id location cause, env.flush.1 ≠ .error (.retrieval id location cause) := by
    intro id location cause he
    cases hout : env.orderFlush.outcome with
    | ok r =>
      rw [(env.flush_of_ok hout).1] at he
      cases he
    | error failure =>
      rw [(env.flush_of_error hout).1] at he
      cases he
  obtain ⟨journal, progress, hflush⟩ := env.flush_frame
  -- A failure is diagnosed after the flush, and its record lies where it lay before.
  have hwhere : ∀ failure ∈ env.orderFlush.failures,
      env.store.location? failure.module = some (env.flush.2.diagnosis failure).location := by
    intro failure hf
    have henqueued := h.enqueued failure.module (hnamed failure hf)
    show _ = some (env.flush.2.locationOf failure.module)
    rw [locationOf_eq, hfollows.location?, henqueued]
    rfl
  refine ⟨?_, ?_, ?_, ?_, ⟨_, hdiagnostics, ?_⟩, fun id location cause he =>
    absurd he (hanswer id location cause)⟩
  · refine h.restore ?_ ?_ (hfollows.keyed h.keyed) hordered ?_ hfollows.location? hdiagnostics ?_
    · rw [hflush]
    · rw [hflush]
    · rw [hflush]
    · intro d hd
      obtain ⟨failure, hf, rfl⟩ := List.mem_map.1 hd
      exact ⟨hwhere failure hf, nofun⟩
  · rw [hflush]
  · rw [hflush]
  · rw [hflush]
    exact List.Subset.refl _
  · intro d hd
    obtain ⟨failure, hf, rfl⟩ := List.mem_map.1 hd
    rw [hflush]
    exact hnamed failure hf

/-- What a retrieval came to is diagnosed, if at all, where the module was retrieved from. -/
theorem Located.noteArrival (h : env.Located) (id : String)
    (result : Except RetrievalFailure String) :
    Diagnoses env (.ok (), env.noteArrival id result) := by
  have hmoved : ∀ new : List Diagnostic, (env.noteArrival id result).journal.diagnostics =
      env.journal.diagnostics ++ new → (∀ d ∈ new, d.module ∈ env.order.order ∧
        env.store.location? d.module = some d.location) →
      Diagnoses env (.ok (), env.noteArrival id result) := by
    intro new hd hnew
    obtain ⟨journal, progress, hn⟩ := env.noteArrival_frame id result
    rw [hn] at hd ⊢
    refine ⟨?_, rfl, rfl, List.Subset.refl _, ⟨new, hd, fun d hmem => (hnew d hmem).1⟩, nofun⟩
    exact h.restore rfl rfl (h.keyed.advance id _) (@Ordered.advance env _ h.ordered id _ rfl rfl) rfl
      (env.store.location?_advance id _) hd fun d hmem => ⟨(hnew d hmem).2, fun _ => (hnew d hmem).1⟩
  cases result with
  | ok code => exact hmoved [] (List.append_nil _).symm nofun
  | error failure =>
    rcases env.store.advance_cases id (.failed (.retrieval failure)) with ha | ⟨record, hr, hallows, ha⟩
    · refine hmoved [] ?_ nofun
      simp only [Environment.noteArrival, ha, List.append_nil]
    · have hmem := h.mem_order hr hallows
      refine hmoved [⟨.retrieval, id, env.locationOf id, failure.message, none, none⟩] ?_ ?_
      · simp only [Environment.noteArrival, ha]
        rfl
      · intro d hd
        rw [List.mem_singleton.1 hd, h.locationOf hmem]
        exact ⟨hmem, h.enqueued id hmem⟩

/-- A retrieval that stops the loading is one of a module of the order. -/
theorem Located.mem_of_stopsAt (h : env.Located) {id : String}
    {result : Except RetrievalFailure String} (hs : env.stopsAt id result = true) :
    id ∈ env.order.order := by
  cases result with
  | ok code => cases hs
  | error failure =>
    rcases env.store.advance_cases id (.failed (.retrieval failure)) with ha | ⟨record, hr, hallows, -⟩
    · simp [stopsAt, ha] at hs
    · exact h.mem_order hr hallows

/-- Taking account of a retrieval diagnoses modules of the order. -/
theorem Located.complete (h : env.Located) (id : String) (result : Except RetrievalFailure String) :
    Diagnoses env (env.complete id result) := by
  have hnoted := h.noteArrival id result
  cases hs : env.stopsAt id result with
  | false =>
    rw [complete_of_goesOn hs]
    exact hnoted.trans hnoted.located.flush
  | true =>
    obtain ⟨failure, hc⟩ := complete_of_stops hs
    rw [hc]
    refine ⟨hnoted.located, hnoted.config, hnoted.specs, hnoted.order, hnoted.diagnostics, ?_⟩
    intro other location cause he
    cases he
    exact h.locationOf (h.mem_of_stopsAt hs)

/-- A module that is registered has a record with the location it is retrieved from. -/
theorem Located.register (h : env.Located) {path : String}
    (new : env.store.get? (env.specFor path).id = none) : (env.registered path).Located := by
  have hnamed := h.named path
  rw [hnamed] at new
  have hself : (env.registered path).store.location? path = some (env.specFor path).location := by
    have hensure := @ModuleStore.location?_ensure_self env.store (env.specFor path) (by rwa [hnamed])
    rwa [hnamed] at hensure
  have hother : ∀ id, id ≠ path →
      (env.registered path).store.location? id = env.store.location? id := by
    intro id hne
    exact env.store.location?_ensure_of_ne (by rwa [hnamed])
  have horder : (env.registered path).order.order = env.order.order ++ [path] := by
    show env.order.order ++ [(env.specFor path).id] = _
    rw [hnamed]
  refine ⟨h.named, h.keyed.ensure _, ?_, ?_, ?_, ?_⟩
  · exact h.ordered.register (by rwa [hnamed]) rfl rfl
  · intro id hid
    show _ = some (env.specFor id).location
    rw [horder] at hid
    by_cases he : id = path
    · rw [he]
      exact hself
    · rw [hother id he]
      refine h.enqueued id ((List.mem_append.1 hid).resolve_right fun hmem => ?_)
      exact he (List.mem_singleton.1 hmem)
  · intro id hid location hl
    rw [horder, List.mem_append, List.mem_singleton, not_or] at hid
    rw [hother id hid.2] at hl
    exact h.bare id hid.1 location hl
  · intro d hd
    obtain ⟨hlocation, hkind⟩ := h.diagnosed d hd
    have hne : d.module ≠ path := by
      intro he
      rw [ModuleStore.location?, he, new] at hlocation
      cases hlocation
    rw [hother _ hne, horder]
    exact ⟨hlocation, fun hr => List.mem_append_left _ (hkind hr)⟩

/-- A module that is settled by force keeps its record, or gets a bare one outside the order. -/
theorem Located.force (h : env.Located) (id : String) (result : Except EvaluationFailure Unit)
    (hc : env'.config = env.config) (hs : env'.specs = env.specs) (horder : env'.order = env.order)
    (hstore : env'.store = env.store.force id (.ofOutcome result))
    (hd : env'.journal.diagnostics = env.journal.diagnostics) : env'.Located := by
  have hspec := specFor_congr hc hs
  have hlocation : ∀ other location, env.store.location? other = some location →
      env'.store.location? other = some location := by
    intro other location hl
    rw [hstore, ModuleStore.location?_force]
    split
    · rename_i he
      rw [← he, hl]
      rfl
    · exact hl
  refine ⟨?_, ?_, h.ordered.force hstore horder, ?_, ?_, ?_⟩
  · intro other
    rw [hspec]
    exact h.named other
  · rw [hstore]
    exact h.keyed.force id _
  · intro other hother
    rw [horder] at hother
    rw [hspec]
    exact hlocation other _ (h.enqueued other hother)
  · intro other hother location hl
    rw [horder] at hother
    rw [hstore, ModuleStore.location?_force] at hl
    split at hl
    · rename_i he
      cases hknown : env.store.location? id with
      | none =>
        rw [hknown] at hl
        cases hl
        exact he.symm
      | some known =>
        rw [hknown] at hl
        cases hl
        exact h.bare other hother known (by rwa [he])
    · exact h.bare other hother location hl
  · intro d hmem
    rw [hd] at hmem
    rw [horder]
    exact ⟨hlocation _ _ (h.diagnosed d hmem).1, (h.diagnosed d hmem).2⟩

/-- Whatever operations are composed of diagnoses modules of the order, where they are retrieved
from. -/
theorem composes_diagnoses : Composes fun env outcome => env.Located → Diagnoses env outcome where
  aside ha h := by
    refine .silent (h.alike ha) ha.config ha.specs ?_ ha.diagnostics nofun
    rw [ha.order]
    exact List.Subset.refl _
  refused env e he h := by
    refine .silent h rfl rfl (List.Subset.refl _) rfl ?_
    intro e' he'
    cases he'
    exact he
  register env path new h :=
    .silent (h.register new) rfl rfl (List.subset_append_left _ _) rfl nofun
  setLoaded env id h :=
    .silent (h.force id (.ok ()) rfl rfl rfl rfl rfl) rfl rfl (List.Subset.refl _) rfl nofun
  complete env id result h := h.complete id result
  trans hfirst hnext h := (hfirst h).trans (hnext (hfirst h).located)

/-- Letting go what is held back diagnoses nothing. -/
theorem released_diagnoses (h : env.Located) : Diagnoses env (.ok (), env.released) := by
  have hreleased : env.released.Located := h.restore rfl rfl h.keyed (h.ordered.of_eq rfl rfl) rfl
    (fun _ => rfl) (List.append_nil _).symm nofun
  exact .silent hreleased rfl rfl (List.Subset.refl _) rfl nofun

/-! ## Given code -/

/-- A diagnostic is located where its module is retrieved from, or at the id if this is not in the
order. -/
theorem Located.location_eq (h : env.Located) {d : Diagnostic}
    (hd : d ∈ env.journal.diagnostics) : d.location =
      if d.module ∈ env.order.order then (env.specFor d.module).location else d.module := by
  have hlocation := (h.diagnosed d hd).1
  split
  · rename_i hmem
    rw [h.enqueued _ hmem] at hlocation
    exact (Option.some.inj hlocation).symm
  · rename_i hmem
    exact h.bare _ hmem _ hlocation

/-- An action diagnoses given code that fails, at its id instead of where the module of this id would
be retrieved from. -/
def Misplaces (env : Environment) : Action → Prop
  | .evalLoad path hasSourceMap code =>
    env.acceptsCode = true ∧ path ∉ env.order.order ∧ (env.specFor path).location ≠ path ∧
      ∃ failure, env.outcomeOf path hasSourceMap code = .error failure
  | _ => False

/-- Some actions lead from one environment to another, in which a new diagnostic is misplaced just
when the proposition holds; what they answer with is not. -/
structure Leaves (env : Environment) (misplaced : Prop)
    (answers : List (Except LoaderError (Option LoadReport))) (after : Environment) : Prop where
  located : after.Located
  config : after.config = env.config
  specs : after.specs = env.specs
  diagnostics : ∃ new, after.journal.diagnostics = env.journal.diagnostics ++ new ∧
    ((∃ d ∈ new, d.location ≠ (env.specFor d.module).location) ↔ misplaced)
  answers : ∀ id location cause, .error (.retrieval id location cause) ∈ answers →
    location = (env.specFor id).location

/-- Of two operations in turn, a diagnostic is misplaced just when one of them misplaces it. -/
theorem Leaves.trans {mid after : Environment} {first second : Prop}
    {answers more : List (Except LoaderError (Option LoadReport))}
    (h : Leaves env first answers mid) (hnext : Leaves mid second more after) :
    Leaves env (first ∨ second) (answers ++ more) after where
  located := hnext.located
  config := hnext.config.trans h.config
  specs := hnext.specs.trans h.specs
  diagnostics := by
    obtain ⟨new, hnew, hiff⟩ := h.diagnostics
    obtain ⟨later, hlater, hiff'⟩ := hnext.diagnostics
    rw [specFor_congr h.config h.specs] at hiff'
    refine ⟨new ++ later, ?_, ?_⟩
    · rw [hlater, hnew, List.append_assoc]
    · rw [← hiff, ← hiff']
      simp only [List.mem_append, or_and_right, exists_or]
  answers id location cause hmem := by
    rcases List.mem_append.1 hmem with hmem | hmem
    · exact h.answers id location cause hmem
    · rw [← specFor_congr h.config h.specs]
      exact hnext.answers id location cause hmem

/-- An operation whose diagnostics are about modules of the order misplaces none of them. -/
theorem Diagnoses.leaves (h : Diagnoses env outcome)
    {answer : Except LoaderError (Option LoadReport)}
    (ha : ∀ e, answer = .error e → outcome.1 = .error e) :
    Leaves env False [answer] outcome.2 where
  located := h.located
  config := h.config
  specs := h.specs
  diagnostics := by
    obtain ⟨new, hnew, hmem⟩ := h.diagnostics
    refine ⟨new, hnew, iff_false_intro ?_⟩
    rintro ⟨d, hd, hne⟩
    apply hne
    have hall : d ∈ outcome.2.journal.diagnostics := by
      rw [hnew]
      exact List.mem_append_right _ hd
    rw [h.located.location_eq hall, if_pos (hmem d hd), specFor_congr h.config h.specs]
  answers id location cause hmem :=
    h.answer id location cause (ha _ (List.mem_singleton.1 hmem).symm)

/-- An operation that diagnoses modules of the order misplaces nothing. -/
theorem Diagnoses.leaves_unreported (h : Diagnoses env outcome) :
    Leaves env False [(unreported outcome).1] (unreported outcome).2 := by
  refine h.leaves fun e he => ?_
  rcases outcome with ⟨e' | u, env'⟩
  · exact congrArg Except.error (Except.error.inj he)
  · cases he

/-- The diagnostic of given code that fails is located at its id, unless the module is in the
order. -/
theorem Located.evalLoad_of_error (h : env.Located) {journal : Journal}
    (hj : journal.diagnostics = env.journal.diagnostics) {path code : String}
    {hasSourceMap : Bool} {failure : EvaluationFailure}
    (hout : env.outcomeOf path hasSourceMap code = .error failure) :
    let after := (env.settledBy journal path hasSourceMap code).noteEvaluationFailure failure
    after.Located ∧ ∃ d, after.journal.diagnostics = env.journal.diagnostics ++ [d] ∧
      (d.location ≠ (env.specFor d.module).location ↔
        path ∉ env.order.order ∧ (env.specFor path).location ≠ path) := by
  intro after
  have hsettled : (env.settledBy journal path hasSourceMap code).Located :=
    h.force path (env.outcomeOf path hasSourceMap code) rfl rfl rfl rfl hj
  have hmodule : failure.module = path := Namespace.Layer.module_of_loadModule (Prod.ext hout rfl)
  have hnoted := diagnostics_noteEvaluationFailure (env.settledBy journal path hasSourceMap code)
    failure
  have hafter : after.Located := by
    refine hsettled.restore rfl rfl hsettled.keyed (hsettled.ordered.of_eq rfl rfl) rfl
      (fun _ => rfl) hnoted ?_
    intro d hd
    rw [List.mem_singleton.1 hd]
    refine ⟨?_, nofun⟩
    have hforced := env.store.location?_force path
      (.ofOutcome (env.outcomeOf path hasSourceMap code)) path
    rw [if_pos rfl] at hforced
    show (env.store.force path _).location? failure.module = some (Environment.locationOf _ _)
    rw [locationOf_eq, hmodule]
    show _ = some (((env.store.force path _).location? path).getD _)
    rw [hforced]
    rfl
  have hdiagnostics : after.journal.diagnostics = env.journal.diagnostics ++
      [(env.settledBy journal path hasSourceMap code).diagnosis failure] := by
    rw [← hj]
    exact hnoted
  refine ⟨hafter, _, hdiagnostics, ?_⟩
  have hlocation := hafter.location_eq (d := diagnosis _ failure)
    (by rw [hdiagnostics]; exact List.mem_append_right _ List.mem_cons_self)
  rw [hlocation]
  show (if failure.module ∈ env.order.order then (env.specFor failure.module).location
    else failure.module) ≠ (env.specFor failure.module).location ↔ _
  rw [hmodule]
  by_cases hmem : path ∈ env.order.order
  · simp [hmem]
  · simp [hmem, ne_comm]

/-- Given code is misplaced just where `Misplaces` says so. -/
theorem Located.evalLoad (h : env.Located) (path : String) (hasSourceMap : Bool) (code : String) :
    Leaves env (env.Misplaces (.evalLoad path hasSourceMap code))
      [(env.perform (.evalLoad path hasSourceMap code)).1]
      (env.perform (.evalLoad path hasSourceMap code)).2 := by
  have hnone : (∀ failure, env.outcomeOf path hasSourceMap code ≠ .error failure) ∨
      env.acceptsCode = false → ¬ env.Misplaces (.evalLoad path hasSourceMap code) := by
    rintro (hok | hrefuses) ⟨haccepts, -, -, failure, hfailure⟩
    · exact hok failure hfailure
    · rw [hrefuses] at haccepts
      cases haccepts
  show Leaves env _ [(unreported (env.evalLoad path hasSourceMap code)).1]
    (unreported (env.evalLoad path hasSourceMap code)).2
  cases ha : env.acceptsCode with
  | false =>
    have hrefused : env.evalLoad path hasSourceMap code =
        (.error (.unsupported env.host.name "eval_load"), env) := by
      simp [Environment.evalLoad, ha]
    rw [iff_false_intro (hnone (.inr ha)), hrefused]
    exact (composes_diagnoses.refused env rfl h).leaves_unreported
  | true =>
    obtain ⟨journal, hj, heval⟩ := evalLoad_noted ha path hasSourceMap code
    rw [heval]
    cases hout : env.outcomeOf path hasSourceMap code with
    | ok u =>
      rw [iff_false_intro (hnone (.inl (by simp [hout])))]
      have hevaluated : ((env.settledBy journal path hasSourceMap code).noteEvaluated [path]).Located :=
        h.force path (env.outcomeOf path hasSourceMap code) rfl rfl rfl rfl hj
      have hfirst : Diagnoses env (.ok (), (env.settledBy journal path hasSourceMap code).noteEvaluated
          [path]) := by
        refine .silent hevaluated rfl rfl (List.Subset.refl _) hj ?_
        intro e he
        cases he
      exact (hfirst.trans hevaluated.flush).leaves_unreported
    | error failure =>
      obtain ⟨hlocated, d, hd, hmisplaced⟩ := h.evalLoad_of_error hj hout
      refine ⟨hlocated, rfl, rfl, ⟨[d], hd, ?_⟩, ?_⟩
      · have hone : (∃ d' ∈ [d], d'.location ≠ (env.specFor d'.module).location) ↔
            d.location ≠ (env.specFor d.module).location := by simp
        rw [hone, hmisplaced]
        constructor
        · rintro ⟨hnot, hne⟩
          exact ⟨ha, hnot, hne, failure, hout⟩
        · rintro ⟨-, hnot, hne, -⟩
          exact ⟨hnot, hne⟩
      · intro id location cause hmem
        have hanswer := List.mem_singleton.1 hmem
        cases hp : env.profile.policy <;> simp [unreported, hp, Except.map] at hanswer

/-! ## Runs -/

/-- Handing out a report adds no diagnostic. -/
theorem diagnostics_report (env : Environment) :
    env.report.2.journal.diagnostics = env.journal.diagnostics := by
  simp only [report]
  split <;> rfl

/-- Handing out a report diagnoses nothing. -/
theorem Located.report (h : env.Located) : Diagnoses env (.ok (), env.report.2) := by
  have hd := env.diagnostics_report
  obtain ⟨journal, hreport⟩ := env.report_frame
  rw [hreport] at hd ⊢
  have hnone : journal.diagnostics = env.journal.diagnostics ++ [] := hd.trans (List.append_nil _).symm
  have hlocated : { env with journal, progress := ⟨[], []⟩ }.Located :=
    h.restore rfl rfl h.keyed (h.ordered.of_eq rfl rfl) rfl (fun _ => rfl) hnone nofun
  exact .silent hlocated rfl rfl (List.Subset.refl _) hd nofun

/-- Settling misplaces nothing. -/
theorem Located.settle (h : env.Located) :
    Leaves env False [(env.perform .settle).1] (env.perform .settle).2 := by
  have hsettling := composes_diagnoses.settling env h
  rcases hs : env.settling with ⟨e | u, env'⟩
  · rw [hs] at hsettling
    rw [perform, settle_of_error hs]
    exact hsettling.leaves_unreported
  · rw [hs] at hsettling
    have hreport := hsettling.trans hsettling.located.report
    rw [perform, settle_of_ok hs]
    apply hreport.leaves
    intro e he
    cases he

/-- Every action leads from one such environment to another, and misplaces a diagnostic only as
described. -/
theorem Located.perform (h : env.Located) (action : Action) :
    Leaves env (env.Misplaces action) [(env.perform action).1] (env.perform action).2 := by
  cases action with
  | load caller paths =>
    exact (composes_diagnoses.loadWith (fun _ => released_diagnoses) env caller paths
      env.config.forceAsync h).leaves_unreported
  | loadWith caller paths atOnce =>
    exact (composes_diagnoses.loadWith (fun _ => released_diagnoses) env caller paths
      atOnce h).leaves_unreported
  | documentReady caller =>
    exact (composes_diagnoses.documentReady (fun _ => released_diagnoses) env
      caller h).leaves_unreported
  | evalLoad path hasSourceMap code => exact h.evalLoad path hasSourceMap code
  | settle => exact h.settle
  -- The other actions are answered at once.
  | setLoaded id => exact (composes_diagnoses.setLoaded env id h).leaves_unreported
  | turn n =>
    have haside := composes_diagnoses.aside
      (env.alike_stir fun schedule medium => schedule.turn medium n) h
    rw [← turn_eq_stir] at haside
    exact haside.leaves_unreported
  | rouse n =>
    have hroused : env.Alike { env with schedule := env.schedule.rouse n } :=
      ⟨rfl, rfl, rfl, rfl, rfl, rfl, rfl, rfl⟩
    exact (composes_diagnoses.aside hroused h).leaves_unreported
  | supply content =>
    have hsupplied : env.Alike (env.supply content) := by
      obtain ⟨transport, hs, -⟩ := env.supply_frame content
      rw [hs]
      exact ⟨rfl, rfl, rfl, rfl, rfl, rfl, rfl, rfl⟩
    exact (composes_diagnoses.aside hsupplied h).leaves_unreported

/-- One of some actions misplaces a diagnostic. -/
def MisplacedBy (env : Environment) (actions : List Action) : Prop :=
  ∃ earlier action later, actions = earlier ++ action :: later ∧
    (env.run earlier).2.Misplaces action

/-- One of some actions misplaces a diagnostic if the first does or one of the others. -/
theorem misplacedBy_cons (env : Environment) (action : Action) (actions : List Action) :
    env.MisplacedBy (action :: actions) ↔
      env.Misplaces action ∨ (env.perform action).2.MisplacedBy actions := by
  constructor
  · rintro ⟨earlier, misplacing, later, heq, hm⟩
    cases earlier with
    | nil =>
      cases heq
      exact .inl hm
    | cons first earlier =>
      cases heq
      exact .inr ⟨earlier, misplacing, later, rfl, hm⟩
  · rintro (hm | ⟨earlier, misplacing, later, heq, hm⟩)
    · exact ⟨[], action, actions, rfl, hm⟩
    · exact ⟨action :: earlier, misplacing, later, by rw [heq]; rfl, hm⟩

/-- A run misplaces a diagnostic just when one of its actions does. -/
theorem Located.run (h : env.Located) (actions : List Action) :
    Leaves env (env.MisplacedBy actions) (env.run actions).1 (env.run actions).2 := by
  induction actions generalizing env with
  | nil =>
    refine ⟨h, rfl, rfl, ⟨[], (List.append_nil _).symm, ?_⟩, nofun⟩
    constructor
    · rintro ⟨d, hd, -⟩
      cases hd
    · rintro ⟨earlier, action, later, heq, -⟩
      simp at heq
  | cons action actions ih =>
    have hfirst := h.perform action
    rw [misplacedBy_cons, run_cons]
    exact hfirst.trans (ih hfirst.located)

/-- A loader may be given any actions, and each may fail.  A failed retrieval, whether it is answered
or diagnosed, is located where the module is retrieved from, and so is every other diagnostic of a
module in the order.  The diagnostics of all other modules are located at their ids.  So a diagnostic
is misplaced just when some given code failed under an id that was not in the order and is not where
the module would be retrieved from. -/
theorem run_misplaces_iff (config : Configuration) (transport : Transport)
    {engine : Script.Engine} (made : Environment) (hmake : make config transport engine = .ok made)
    (specs : List ModuleSpec) (actions : List Action) :
    let env := made.withSpecs specs
    let (answers, after) := env.run actions
    (∀ id location cause, .error (.retrieval id location cause) ∈ answers →
      location = (env.specFor id).location) ∧
    (∀ d ∈ after.journal.diagnostics,
      (d.kind = .retrieval → d.location = (env.specFor d.module).location) ∧
      d.location = if d.module ∈ after.order.order then (env.specFor d.module).location
        else d.module) ∧
    ((∃ d ∈ after.journal.diagnostics, d.location ≠ (env.specFor d.module).location) ↔
      ∃ earlier action later, actions = earlier ++ action :: later ∧
        (env.run earlier).2.Misplaces action) := by
  intro env
  obtain ⟨hmade, -, -⟩ := fresh_of_make hmake
  have hnone : env.journal.diagnostics = [] := by
    show made.journal.diagnostics = []
    exact diagnostics_of_make hmake
  have hrun := ((hmade.withSpecs specs).located hnone).run actions
  have hspec := specFor_congr hrun.config hrun.specs
  obtain ⟨new, hnew, hmisplaced⟩ := hrun.diagnostics
  rw [hnone, List.nil_append] at hnew
  refine ⟨hrun.answers, ?_, ?_⟩
  · intro d hd
    have hlocation := hrun.located.location_eq hd
    rw [hspec] at hlocation
    refine ⟨fun hkind => ?_, hlocation⟩
    rw [hlocation, if_pos ((hrun.located.diagnosed d hd).2 hkind)]
  · rw [hnew]
    exact hmisplaced

/-- A browser is given code for a module that was never loaded, and the code fails. -/
theorem run_misplaces_iff_unregistered :
    let config := { Configuration.default with host := .browser, base := "out", aliases := [] }
    let actions := [Action.evalLoad "hot.js" false "throw 'boom'"]
    ∃ made, make config (.serial (.bundle .empty)) = .ok made ∧
      let after := ((made.withSpecs []).run actions).2
      ∃ d ∈ after.journal.diagnostics, d.location ≠ ((made.withSpecs []).specFor d.module).location ∧
        d.location = d.module := by
  intro config actions
  obtain ⟨made, hmade, haccepts, hnew, hne, hfails⟩ : ∃ made,
      make config (.serial (.bundle .empty)) = .ok made ∧
      (made.withSpecs []).acceptsCode = true ∧ "hot.js" ∉ (made.withSpecs []).order.order ∧
      ((made.withSpecs []).specFor "hot.js").location ≠ "hot.js" ∧
      ((made.withSpecs []).outcomeOf "hot.js" false "throw 'boom'").toOption = none :=
    ⟨_, rfl, by decide +kernel +revert⟩
  have hmisplaces : (made.withSpecs []).Misplaces (.evalLoad "hot.js" false "throw 'boom'") := by
    refine ⟨haccepts, hnew, hne, ?_⟩
    cases hout : (made.withSpecs []).outcomeOf "hot.js" false "throw 'boom'" with
    | error failure => exact ⟨failure, rfl⟩
    | ok u =>
      rw [hout] at hfails
      cases hfails
  obtain ⟨-, hlocated, hiff⟩ :=
    run_misplaces_iff config (.serial (.bundle .empty)) made hmade [] actions
  obtain ⟨d, hd, hne⟩ := hiff.2 ⟨[], _, [], rfl, hmisplaces⟩
  refine ⟨made, hmade, d, hd, hne, ?_⟩
  have hlocation := (hlocated d hd).2
  split at hlocation
  · exact absurd hlocation hne
  · exact hlocation

end Environment

end ModuleLoader
