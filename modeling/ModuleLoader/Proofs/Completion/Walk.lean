import Mathlib.Data.List.Nodup
import ModuleLoader.Proofs.Completion.Flush

/-!
# Retrievals that arrive in any order

Modules are requested in a fixed order and their retrievals arrive in any other.  Whatever arrives,
the modules evaluated are the longest run of retrieved ones from the front of the order, evaluated
one after the other.  `Tracks` says so of a store, an order and an evaluator's state, and is kept
by every arrival, every flush and every request.  Main statement: `Tracks.flush`, a flush evaluates
the modules before the first one that has not arrived or could not be retrieved.
-/

set_option autoImplicit false

namespace ModuleLoader

/-- The record of a module in a given state. -/
def ModuleSpec.record (spec : ModuleSpec) (state : ModuleState) : ModuleRecord :=
  ⟨spec.id, spec.location, spec.hasSourceMap, state⟩

/-- The state in which a retrieval leaves a module. -/
def ModuleState.ofRetrieval : Except RetrievalFailure String → ModuleState
  | .ok code => .retrieved code
  | .error failure => .failed (.retrieval failure)

/-- Evaluate modules one after the other. -/
def Evaluator.walk {σ : Type} (evaluate : Evaluator σ) : List (ModuleSpec × String) → σ →
    List (ModuleSpec × Except EvaluationFailure Unit) × σ
  | [], state => ([], state)
  | (spec, code) :: rest, state =>
    let (result, state) := evaluate (spec.record (.retrieved code)) code state
    let (results, state) := evaluate.walk rest state
    ((spec, result) :: results, state)

/-! ## Retrieved modules at the front -/

/-- The modules of a list up to the first without code, with their codes. -/
def leading (code? : String → Option String) : List ModuleSpec → List (ModuleSpec × String)
  | [] => []
  | spec :: rest =>
    match code? spec.id with
    | some code => (spec, code) :: leading code? rest
    | none => []

section Leading

variable {code? : String → Option String}

/-- The modules of the leading part have the code listed with them. -/
theorem code_of_mem_leading {specs : List ModuleSpec} {e : ModuleSpec × String}
    (h : e ∈ leading code? specs) : code? e.1.id = some e.2 := by
  induction specs with
  | nil => cases h
  | cons spec rest ih =>
    rw [leading] at h
    cases hc : code? spec.id with
    | none => simp [hc] at h
    | some code =>
      simp only [hc, List.mem_cons] at h
      rcases h with rfl | h
      · exact hc
      · exact ih h

/-- The leading part is the front of the list. -/
theorem leading_append_drop (specs : List ModuleSpec) :
    (leading code? specs).map (·.1) ++ specs.drop (leading code? specs).length = specs := by
  induction specs with
  | nil => rfl
  | cons spec rest ih =>
    rw [leading]
    cases hc : code? spec.id with
    | none => rfl
    | some code => simpa using ih

/-- The module behind the leading part has no code. -/
theorem code_of_head_drop {specs : List ModuleSpec} {spec : ModuleSpec}
    (h : spec ∈ (specs.drop (leading code? specs).length).head?) : code? spec.id = none := by
  induction specs with
  | nil => cases h
  | cons first rest ih =>
    rw [leading] at h
    cases hc : code? first.id with
    | none =>
      simp only [hc, List.length_nil, List.drop_zero, List.head?_cons, Option.mem_some_iff] at h
      rw [← h]
      exact hc
    | some code => exact ih (by simpa [hc] using h)

/-- The leading part is what stands before the first module without code. -/
theorem leading_eq {done : List (ModuleSpec × String)} {rest : List ModuleSpec}
    (hdone : ∀ e ∈ done, code? e.1.id = some e.2) (hrest : ∀ spec ∈ rest.head?, code? spec.id = none) :
    leading code? (done.map (·.1) ++ rest) = done := by
  induction done with
  | nil =>
    cases rest with
    | nil => rfl
    | cons spec rest =>
      rw [List.map_nil, List.nil_append, leading, hrest spec rfl]
  | cons e done ih =>
    rw [List.map_cons, List.cons_append, leading, hdone e List.mem_cons_self]
    simp only [ih fun d hd => hdone d (List.mem_cons_of_mem _ hd)]

end Leading

/-! ## Evaluating one module after the other -/

namespace Evaluator

variable {σ : Type} (evaluate : Evaluator σ)

/-- A walk has a result for each module, in order. -/
theorem map_fst_walk (modules : List (ModuleSpec × String)) (state : σ) :
    (evaluate.walk modules state).1.map (·.1) = modules.map (·.1) := by
  induction modules generalizing state with
  | nil => rfl
  | cons e rest ih => simp [walk, ih]

/-- A walk has a result under each id, in order. -/
theorem map_id_walk (modules : List (ModuleSpec × String)) (state : σ) :
    (evaluate.walk modules state).1.map (·.1.id) = modules.map (·.1.id) := by
  have h := congrArg (List.map ModuleSpec.id) (evaluate.map_fst_walk modules state)
  rwa [List.map_map, List.map_map] at h

/-- A walk over two lists goes on with the second where it left the first. -/
theorem walk_append (modules more : List (ModuleSpec × String)) (state : σ) :
    evaluate.walk (modules ++ more) state =
      ((evaluate.walk modules state).1 ++ (evaluate.walk more (evaluate.walk modules state).2).1,
        (evaluate.walk more (evaluate.walk modules state).2).2) := by
  induction modules generalizing state with
  | nil => rfl
  | cons e rest ih => simp [walk, ih]

end Evaluator

/-- The modules of a walk that were evaluated. -/
def evaluatedIds (results : List (ModuleSpec × Except EvaluationFailure Unit)) : List String :=
  results.filterMap fun
    | (spec, .ok ()) => some spec.id
    | (_, .error _) => none

/-- The failures of a walk. -/
def failuresOf (results : List (ModuleSpec × Except EvaluationFailure Unit)) :
    List EvaluationFailure :=
  results.filterMap fun
    | (_, .ok ()) => none
    | (_, .error failure) => some failure

namespace Flush

variable {σ : Type} {evaluate : Evaluator σ}

/-- A flush that goes on after failures evaluates a run of retrieved modules like a walk, and
stops at the module after them. -/
theorem through_walk (evaluate : Evaluator σ) (ready : List (ModuleSpec × String)) (ids : List String)
    (store : ModuleStore) (state : σ) (hnodup : (ready.map (·.1.id) ++ ids).Nodup)
    (hready : ∀ e ∈ ready, store.get? e.1.id = some (e.1.record (.retrieved e.2)))
    (hblocks : ∀ id ∈ ids.head?, store.Blocks id) :
    let f := through .failForward evaluate (ready.map (·.1.id) ++ ids) store state
    let (results, final) := evaluate.walk ready state
    f.passed = ready.length ∧ f.state = final ∧
      f.outcome = .ok ⟨evaluatedIds results, failuresOf results, ids.head?⟩ ∧
      (∀ e ∈ results, f.store.get? e.1.id = some (e.1.record (.ofOutcome e.2))) ∧
      ∀ id ∉ ready.map (·.1.id), f.store.get? id = store.get? id := by
  induction ready generalizing store state with
  | nil =>
    cases ids with
    | nil => simp [through, Evaluator.walk, evaluatedIds, failuresOf, FlushReport.idle]
    | cons id rest =>
      rw [List.map_nil, List.nil_append, through_blocks (hblocks id rfl)]
      simp [Evaluator.walk, evaluatedIds, failuresOf, FlushReport.waitingFor]
  | cons e ready ih =>
    obtain ⟨spec, code⟩ := e
    obtain ⟨result, state', he⟩ : ∃ result state',
        evaluate (spec.record (.retrieved code)) code state = (result, state') := ⟨_, _, rfl⟩
    have hr : store.Ready spec.id (spec.record (.retrieved code)) code :=
      ⟨hready (spec, code) List.mem_cons_self, rfl⟩
    rw [List.map_cons, List.cons_append] at hnodup
    obtain ⟨hnot, hrest⟩ := List.nodup_cons.1 hnodup
    -- No later module is the one just evaluated, so their records are as before.
    have hkeep : ∀ id ∈ ready.map (·.1.id) ++ ids,
        (store.conclude spec.id (spec.record (.retrieved code)) result).get? id = store.get? id := by
      intro id hid
      refine ModuleStore.get?_conclude_of_ne store _ result ?_
      rintro rfl
      exact hnot hid
    have hnext := ih (store.conclude spec.id (spec.record (.retrieved code)) result) state' hrest
      (by
        intro d hd
        rw [hkeep _ (List.mem_append_left _ (List.mem_map_of_mem hd))]
        exact hready d (List.mem_cons_of_mem _ hd))
      (by
        intro id hid
        rw [ModuleStore.Blocks.congr
          (hkeep id (List.mem_append_right _ (List.mem_of_mem_head? hid)))]
        exact hblocks id hid)
    obtain ⟨hpassed, hstate, houtcome, hstore, hother⟩ := hnext
    rw [List.map_cons, List.cons_append, through_ready hr he (fun _ _ => rfl)]
    refine ⟨?_, ?_, ?_, ?_, ?_⟩
    · simp [passing, reporting, hpassed]
    · simp [passing, reporting, hstate, he]
    · simp only [passing, reporting, houtcome, he]
      cases result <;> simp [Except.map, FlushReport.noting, FlushReport.withEvaluated,
        FlushReport.withFailed, evaluatedIds, failuresOf]
    · intro d hd
      simp only [he, List.mem_cons] at hd
      rcases hd with rfl | hd
      · have hnr : spec.id ∉ ready.map (·.1.id) := fun h => hnot (List.mem_append_left _ h)
        simp only [passing, reporting]
        rw [hother _ hnr]
        exact Table.get?_set_self store spec.id _
      · exact hstore d hd
    · intro id hid
      rw [List.mem_cons, not_or] at hid
      simp only [passing, reporting]
      rw [hother id hid.2]
      exact ModuleStore.get?_conclude_of_ne store _ result hid.1

end Flush

/-! ## Loads that are kept track of -/

/-- The state of a module whose retrieval has come to nothing yet, to code or to a failure. -/
def ModuleState.ofArrival : Option (Except RetrievalFailure String) → ModuleState
  | none => .requested
  | some result => .ofRetrieval result

/-- The code that an arrival brought. -/
def codeOf (arrival : Option (Except RetrievalFailure String)) : Option String :=
  arrival.bind Except.toOption

/-- The state of a loader in the middle of a load: `done` are the modules evaluated, `rest` the
others, and `arrived` tells which retrievals have arrived and with what. -/
structure Tracks {σ : Type} (evaluate : Evaluator σ) (start : σ)
    (arrived : String → Option (Except RetrievalFailure String))
    (done : List (ModuleSpec × String)) (rest : List ModuleSpec)
    (store : ModuleStore) (order : LoadOrder) (state : σ) : Prop where
  nodup : (done.map (·.1.id) ++ rest.map (·.id)).Nodup
  order_eq : order.order = done.map (·.1.id) ++ rest.map (·.id)
  cursor_eq : order.cursor = done.length
  arrived_done : ∀ e ∈ done, arrived e.1.id = some (.ok e.2)
  state_eq : state = (evaluate.walk done start).2
  done_eq : ∀ e ∈ (evaluate.walk done start).1,
    store.get? e.1.id = some (e.1.record (.ofOutcome e.2))
  rest_eq : ∀ spec ∈ rest, store.get? spec.id = some (spec.record (.ofArrival (arrived spec.id)))
  unknown : ∀ id, id ∉ done.map (·.1.id) → id ∉ rest.map (·.id) → store.get? id = none

namespace Tracks

variable {σ : Type} {evaluate : Evaluator σ} {start : σ}
  {arrived : String → Option (Except RetrievalFailure String)}
  {done : List (ModuleSpec × String)} {rest : List ModuleSpec}
  {store : ModuleStore} {order : LoadOrder} {state : σ}

/-- At the start nothing has been done and nothing is waited for. -/
theorem initial : Tracks evaluate start arrived [] [] .empty .initial start where
  nodup := by simp
  order_eq := rfl
  cursor_eq := rfl
  arrived_done := by simp
  state_eq := rfl
  done_eq := by simp [Evaluator.walk]
  rest_eq := by simp
  unknown := by simp

/-- The modules not yet evaluated are those that the cursor has not passed. -/
theorem pending_eq (h : Tracks evaluate start arrived done rest store order state) :
    order.pending = rest.map (·.id) := by
  rw [LoadOrder.pending, h.order_eq, h.cursor_eq]
  exact List.drop_left' (by simp)

/-- The modules that are done or waited for have records. -/
theorem known (h : Tracks evaluate start arrived done rest store order state) {id : String}
    (hid : id ∈ done.map (·.1.id) ++ rest.map (·.id)) : store.get? id ≠ none := by
  rcases List.mem_append.1 hid with hd | hr
  · rw [← evaluate.map_id_walk done start] at hd
    obtain ⟨e, he, rfl⟩ := List.mem_map.1 hd
    rw [h.done_eq e he]
    simp
  · obtain ⟨spec, hs, rfl⟩ := List.mem_map.1 hr
    rw [h.rest_eq spec hs]
    simp

/-- A new module that has not arrived is waited for behind the others. -/
theorem request (h : Tracks evaluate start arrived done rest store order state) {spec : ModuleSpec}
    (hnew : store.get? spec.id = none) (hnot : arrived spec.id = none) :
    Tracks evaluate start arrived done (rest ++ [spec]) (store.ensure spec).2
      (order.enqueue spec.id) state := by
  have hkeep : ∀ id record, store.get? id = some record →
      (store.ensure spec).2.get? id = some record := by
    intro id record hr
    rw [ModuleStore.get?_ensure, if_neg (by simp [hr])]
    exact hr
  exact {
    nodup := by
      rw [List.map_append, ← List.append_assoc, List.nodup_append]
      refine ⟨h.nodup, by simp, ?_⟩
      intro a ha b hb hab
      rw [hab, List.mem_singleton.1 hb] at ha
      exact h.known ha hnew
    order_eq := by simp [LoadOrder.enqueue, h.order_eq]
    cursor_eq := h.cursor_eq
    arrived_done := h.arrived_done
    state_eq := h.state_eq
    done_eq := fun e he => hkeep _ _ (h.done_eq e he)
    rest_eq := by
      intro other ho
      rcases List.mem_append.1 ho with ho | ho
      · exact hkeep _ _ (h.rest_eq other ho)
      · rw [List.mem_singleton.1 ho, hnot, ModuleStore.get?_ensure, if_pos ⟨rfl, hnew⟩]
        rfl
    unknown := by
      intro id hd hr
      rw [List.map_append, List.mem_append, not_or] at hr
      rw [ModuleStore.get?_ensure, if_neg fun hc => hr.2 (by simp [hc.1])]
      exact h.unknown id hd hr.1 }

/-- A module that is waited for and has not arrived takes what its retrieval comes to. -/
theorem advance_arrival (h : Tracks evaluate start arrived done rest store order state)
    {spec : ModuleSpec} (hs : spec ∈ rest) (hnot : arrived spec.id = none)
    (result : Except RetrievalFailure String) :
    store.advance spec.id (.ofRetrieval result) =
      (true, store.set spec.id (spec.record (.ofRetrieval result))) := by
  have hget := h.rest_eq spec hs
  rw [hnot] at hget
  rw [ModuleStore.advance_of_allows hget (by cases result <;> rfl)]
  rfl

/-- What a module's retrieval comes to may be noted while the module is waited for. -/
theorem arrive (h : Tracks evaluate start arrived done rest store order state) {spec : ModuleSpec}
    (hs : spec ∈ rest) (hnot : arrived spec.id = none) (result : Except RetrievalFailure String) :
    Tracks evaluate start (Function.update arrived spec.id (some result)) done rest
      (store.set spec.id (spec.record (.ofRetrieval result))) order state := by
  -- The evaluated modules have all arrived, and no other module has this id.
  have hdone : ∀ id ∈ done.map (·.1.id), id ≠ spec.id := by
    intro id hid he
    obtain ⟨e, hm, rfl⟩ := List.mem_map.1 hid
    have harr := h.arrived_done e hm
    rw [he, hnot] at harr
    cases harr
  have hrest : ∀ other ∈ rest, other.id = spec.id → other = spec := by
    intro other ho he
    have hn := (List.nodup_append.1 h.nodup).2.1
    exact List.inj_on_of_nodup_map hn ho hs he
  exact {
    nodup := h.nodup
    order_eq := h.order_eq
    cursor_eq := h.cursor_eq
    arrived_done := by
      intro e he
      rw [Function.update_of_ne (hdone _ (List.mem_map_of_mem he))]
      exact h.arrived_done e he
    state_eq := h.state_eq
    done_eq := by
      intro e he
      have hm : e.1.id ∈ done.map (·.1.id) := by
        rw [← evaluate.map_id_walk done start]
        exact List.mem_map_of_mem he
      rw [Table.get?_set_of_ne _ _ (hdone _ hm)]
      exact h.done_eq e he
    rest_eq := by
      intro other ho
      by_cases he : other.id = spec.id
      · obtain rfl := hrest other ho he
        rw [Table.get?_set_self, Function.update_self]
        rfl
      · rw [Table.get?_set_of_ne _ _ he, Function.update_of_ne he]
        exact h.rest_eq other ho
    unknown := by
      intro id hd hr
      rw [Table.get?_set_of_ne]
      · exact h.unknown id hd hr
      · rintro rfl
        exact hr (List.mem_map_of_mem hs) }

/-- A flush evaluates the modules that have arrived with code, up to the first that has not. -/
theorem flush (h : Tracks evaluate start arrived done rest store order state) :
    let ready := leading (fun id => codeOf (arrived id)) rest
    let left := rest.drop ready.length
    let results := (evaluate.walk ready state).1
    let f := Flush.through .failForward evaluate order.pending store state
    Tracks evaluate start arrived (done ++ ready) left f.store
        { order with cursor := order.cursor + f.passed } f.state ∧
      f.outcome = .ok ⟨evaluatedIds results, failuresOf results, (left.map (·.id)).head?⟩ := by
  intro ready left results
  have hsplit : ready.map (·.1) ++ left = rest := leading_append_drop rest
  have hids : ready.map (·.1.id) ++ left.map (·.id) = rest.map (·.id) := by
    have hm := congrArg (List.map ModuleSpec.id) hsplit
    rwa [List.map_append, List.map_map] at hm
  have hn := h.nodup
  rw [← hids] at hn
  have harrived : ∀ e ∈ ready, arrived e.1.id = some (.ok e.2) := by
    intro e he
    have hc := code_of_mem_leading he
    cases ha : arrived e.1.id with
    | none => simp [ha, codeOf] at hc
    | some result => cases result <;> simp_all [codeOf, Except.toOption]
  have hready : ∀ e ∈ ready, store.get? e.1.id = some (e.1.record (.retrieved e.2)) := by
    intro e he
    have hmem : e.1 ∈ rest := by
      rw [← hsplit]
      exact List.mem_append_left _ (List.mem_map_of_mem he)
    rw [h.rest_eq e.1 hmem, harrived e he]
    rfl
  have hblocks : ∀ id ∈ (left.map (·.id)).head?, store.Blocks id := by
    intro id hid record hr
    rw [List.head?_map] at hid
    obtain ⟨spec, hs, rfl⟩ := Option.map_eq_some_iff.1 hid
    have hmem : spec ∈ rest := List.mem_of_mem_drop (List.mem_of_mem_head? hs)
    have hc := code_of_head_drop hs
    rw [h.rest_eq spec hmem] at hr
    cases hr
    cases ha : arrived spec.id with
    | none => exact .inl rfl
    | some result =>
      cases result with
      | ok code => simp [ha, codeOf, Except.toOption] at hc
      | error failure => exact .inr ⟨failure, rfl⟩
  obtain ⟨hpassed, hstate, houtcome, hstore, hother⟩ := Flush.through_walk evaluate
    ready (left.map (·.id)) store state (List.nodup_append.1 hn).2.1 hready hblocks
  rw [hids, ← h.pending_eq] at hpassed hstate houtcome hstore hother
  intro f
  have hwalk := evaluate.walk_append done ready start
  rw [← h.state_eq] at hwalk
  -- Neither an evaluated module nor one that is left is among those that are evaluated now.
  have hnotdone : ∀ id ∈ done.map (·.1.id), id ∉ ready.map (·.1.id) := by
    intro id hd hr
    exact (List.nodup_append.1 hn).2.2 id hd id (List.mem_append_left _ hr) rfl
  have hnotleft : ∀ id ∈ left.map (·.id), id ∉ ready.map (·.1.id) := by
    intro id hl hr
    exact (List.nodup_append.1 (List.nodup_append.1 hn).2.1).2.2 id hr id hl rfl
  refine ⟨?_, houtcome⟩
  exact {
    nodup := by
      rw [List.map_append, List.append_assoc]
      exact hn
    order_eq := by
      rw [List.map_append, List.append_assoc, hids]
      exact h.order_eq
    cursor_eq := by
      simp only [f, hpassed, h.cursor_eq, List.length_append]
    arrived_done := by
      intro e he
      rcases List.mem_append.1 he with he | he
      · exact h.arrived_done e he
      · exact harrived e he
    state_eq := by
      rw [hwalk]
      exact hstate
    done_eq := by
      intro e he
      rw [hwalk] at he
      rcases List.mem_append.1 he with he | he
      · have hm : e.1.id ∈ done.map (·.1.id) := by
          rw [← evaluate.map_id_walk done start]
          exact List.mem_map_of_mem he
        rw [hother _ (hnotdone _ hm)]
        exact h.done_eq e he
      · exact hstore e he
    rest_eq := by
      intro spec hs
      rw [hother _ (hnotleft _ (List.mem_map_of_mem hs))]
      exact h.rest_eq spec (List.mem_of_mem_drop hs)
    unknown := by
      intro id hd hl
      rw [List.map_append, List.mem_append, not_or] at hd
      rw [hother id hd.2]
      refine h.unknown id hd.1 ?_
      rw [← hids, List.mem_append, not_or]
      exact ⟨hd.2, hl⟩ }

/-- What is known of the order, the arrivals and the modules evaluated determines all records. -/
theorem get?_unique (h : Tracks evaluate start arrived done rest store order state)
    {store' : ModuleStore} {order' : LoadOrder} {state' : σ}
    (h' : Tracks evaluate start arrived done rest store' order' state') (id : String) :
    store.get? id = store'.get? id := by
  by_cases hd : id ∈ done.map (·.1.id)
  · rw [← evaluate.map_id_walk done start] at hd
    obtain ⟨e, he, rfl⟩ := List.mem_map.1 hd
    rw [h.done_eq e he, h'.done_eq e he]
  · by_cases hr : id ∈ rest.map (·.id)
    · obtain ⟨spec, hs, rfl⟩ := List.mem_map.1 hr
      rw [h.rest_eq spec hs, h'.rest_eq spec hs]
    · rw [h.unknown id hd hr, h'.unknown id hd hr]

end Tracks

end ModuleLoader
