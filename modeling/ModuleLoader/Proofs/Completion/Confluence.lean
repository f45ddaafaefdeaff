import Mathlib.Data.List.TakeWhile
import ModuleLoader.Proofs.Completion.History
import ModuleLoader.Proofs.Completion.Walk

/-!
# Arrival order does not matter

Distinct modules are requested, the outcomes of their retrievals arrive in some order, and the load
order is flushed here and there, at the latest after the last arrival.  Main statement:
`load_confluent`, the calls, the evaluator's state, what is left pending and all records are
the same whatever the arrivals' order and the places of the flushes, and the modules called are
those before the first one that could not be retrieved.
-/

set_option autoImplicit false

namespace ModuleLoader.Completion

variable {σ : Type}

/-! ## Loads -/

/-- What happens after the modules have been requested. -/
inductive Turn where
  /-- The outcome of a module's retrieval arrives. -/
  | arrival (id : String)
  | flush
deriving DecidableEq, Repr

namespace Turn

/-- The module whose outcome arrives. -/
def arrival? : Turn → Option String
  | arrival id => some id
  | flush => none

/-- The move that a turn is. -/
def move (outcome : String → Except RetrievalFailure String) (evaluate : Evaluator σ) :
    Turn → Move σ
  | arrival id => .advance id (.ofRetrieval (outcome id))
  | flush => .flush .failForward evaluate

end Turn

/-- Register and enqueue modules. -/
def requests (specs : List ModuleSpec) : List (Move σ) :=
  specs.flatMap fun spec => [.ensure spec, .enqueue spec.id]

/-- Every module's outcome arrives once, and a flush follows the last arrival. -/
structure Complete (specs : List ModuleSpec) (turns : List Turn) : Prop where
  arrivals : (turns.filterMap Turn.arrival?).Perm (specs.map (·.id))
  flushed : turns.getLast? = some .flush

/-- The world after the modules were requested and the turns were taken. -/
def load (specs : List ModuleSpec) (outcome : String → Except RetrievalFailure String)
    (evaluate : Evaluator σ) (state : σ) (turns : List Turn) : World σ :=
  (World.initial state).run (requests specs ++ turns.map (Turn.move outcome evaluate))

/-- A run of two lists of moves is a run of the second after one of the first. -/
theorem World.run_append (w : World σ) (moves more : List (Move σ)) :
    w.run (moves ++ more) = (w.run moves).run more := List.foldl_append

/-! ## What a load comes to -/

/-- What has arrived after some turns. -/
def arrivedAfter (outcome : String → Except RetrievalFailure String)
    (arrived : String → Option (Except RetrievalFailure String)) (turns : List Turn) :
    String → Option (Except RetrievalFailure String) :=
  fun id => if id ∈ turns.filterMap Turn.arrival? then some (outcome id) else arrived id

/-- Nothing arrives in no turns. -/
theorem arrivedAfter_nil (outcome : String → Except RetrievalFailure String)
    (arrived : String → Option (Except RetrievalFailure String)) :
    arrivedAfter outcome arrived [] = arrived := by
  funext id
  simp [arrivedAfter]

section Run

variable {evaluate : Evaluator σ} {start : σ}
  {arrived : String → Option (Except RetrievalFailure String)}
  {done : List (ModuleSpec × String)} {rest : List ModuleSpec} {w : World σ}

/-- Asking for modules that are all different only adds them to those that are waited for. -/
theorem tracks_requests (h : Tracks evaluate start (fun _ => none) [] rest w.store w.order w.state)
    {specs : List ModuleSpec} (hnodup : ((rest ++ specs).map (·.id)).Nodup) :
    let w' := w.run (requests specs)
    Tracks evaluate start (fun _ => none) [] (rest ++ specs) w'.store w'.order w'.state := by
  induction specs generalizing w rest with
  | nil => simpa [requests, World.run] using h
  | cons spec specs ih =>
    have hnew : w.store.get? spec.id = none := by
      refine h.unknown spec.id (by simp) ?_
      intro hmem
      rw [List.map_append, List.nodup_append] at hnodup
      exact hnodup.2.2 _ hmem spec.id (by simp) rfl
    have hnext := h.request hnew rfl
    rw [List.append_cons] at hnodup ⊢
    exact ih (w := (w.step (.ensure spec)).step (.enqueue spec.id)) hnext hnodup

/-- The turns of a run add what has arrived, and move modules from those left to those evaluated. -/
theorem tracks_turns (outcome : String → Except RetrievalFailure String)
    (h : Tracks evaluate start arrived done rest w.store w.order w.state)
    {turns : List Turn} (hnodup : (turns.filterMap Turn.arrival?).Nodup)
    (hmem : ∀ id ∈ turns.filterMap Turn.arrival?,
      id ∈ (done.map (·.1) ++ rest).map (·.id) ∧ arrived id = none) :
    ∃ done' rest', done'.map (·.1) ++ rest' = done.map (·.1) ++ rest ∧
      Tracks evaluate start (arrivedAfter outcome arrived turns) done' rest'
        (w.run (turns.map (Turn.move outcome evaluate))).store
        (w.run (turns.map (Turn.move outcome evaluate))).order
        (w.run (turns.map (Turn.move outcome evaluate))).state := by
  induction turns generalizing w arrived done rest with
  | nil =>
    rw [arrivedAfter_nil]
    exact ⟨done, rest, rfl, h⟩
  | cons turn turns ih =>
    cases turn with
    | flush =>
      obtain ⟨hnext, -⟩ := h.flush
      have hall : (done ++ leading (fun id => codeOf (arrived id)) rest).map (·.1) ++
          rest.drop (leading (fun id => codeOf (arrived id)) rest).length =
          done.map (·.1) ++ rest := by
        rw [List.map_append, List.append_assoc, leading_append_drop]
      obtain ⟨done', rest', heq, htracks⟩ := ih (w := w.step (.flush .failForward evaluate)) hnext
        hnodup (by rw [hall]; exact hmem)
      exact ⟨done', rest', heq.trans hall, htracks⟩
    | arrival id =>
      simp only [List.filterMap_cons, Turn.arrival?] at hnodup hmem
      obtain ⟨hnot, hlater⟩ := List.nodup_cons.1 hnodup
      obtain ⟨hid, hnone⟩ := hmem id List.mem_cons_self
      -- What has been evaluated has arrived, so this module is among those left.
      obtain ⟨spec, hs, rfl⟩ : ∃ spec ∈ rest, spec.id = id := by
        rw [List.map_append, List.mem_append] at hid
        rcases hid with hid | hid
        · rw [List.map_map] at hid
          obtain ⟨e, he, rfl⟩ := List.mem_map.1 hid
          have ha := h.arrived_done e he
          simp only [Function.comp_apply] at hnone
          rw [hnone] at ha
          cases ha
        · exact List.mem_map.1 hid
      have hnext := h.arrive hs hnone (outcome spec.id)
      have hstep : (w.step (.advance spec.id (.ofRetrieval (outcome spec.id)))).store =
          w.store.set spec.id (spec.record (.ofRetrieval (outcome spec.id))) := by
        simp only [World.step, h.advance_arrival hs hnone]
      rw [← hstep] at hnext
      obtain ⟨done', rest', heq, htracks⟩ := ih
        (w := w.step (.advance spec.id (.ofRetrieval (outcome spec.id)))) hnext hlater (by
          intro other ho
          have hne : other ≠ spec.id := by
            rintro rfl
            exact hnot ho
          rw [Function.update_of_ne hne]
          exact hmem other (List.mem_cons_of_mem _ ho))
      refine ⟨done', rest', heq, ?_⟩
      have harr : arrivedAfter outcome arrived (.arrival spec.id :: turns) =
          arrivedAfter outcome (Function.update arrived spec.id (some (outcome spec.id))) turns := by
        funext other
        by_cases ho : other = spec.id
        · subst ho
          simp [arrivedAfter, Turn.arrival?]
        · simp [arrivedAfter, Turn.arrival?, ho]
      rw [harr]
      exact htracks

/-- What has arrived when all outcomes have. -/
def allArrived (specs : List ModuleSpec) (outcome : String → Except RetrievalFailure String) :
    String → Option (Except RetrievalFailure String) :=
  fun id => if id ∈ specs.map (·.id) then some (outcome id) else none

/-- The modules evaluated in the end: those before the first that could not be retrieved. -/
def evaluable (specs : List ModuleSpec) (outcome : String → Except RetrievalFailure String) :
    List (ModuleSpec × String) :=
  leading (fun id => codeOf (allArrived specs outcome id)) specs

/-- A complete load ends where the modules before the first failed retrieval are evaluated, and all
others are as they arrived. -/
theorem tracks_load (outcome : String → Except RetrievalFailure String) (evaluate : Evaluator σ)
    (start : σ) {specs : List ModuleSpec} (hnodup : (specs.map (·.id)).Nodup)
    {turns : List Turn} (hc : Complete specs turns) :
    let w := load specs outcome evaluate start turns
    Tracks evaluate start (allArrived specs outcome) (evaluable specs outcome)
      (specs.drop (evaluable specs outcome).length) w.store w.order w.state := by
  obtain ⟨before, rfl⟩ := List.getLast?_eq_some_iff.1 hc.flushed
  have hperm : (before.filterMap Turn.arrival?).Perm (specs.map (·.id)) := by
    simpa [List.filterMap_append, List.filterMap_cons, Turn.arrival?] using hc.arrivals
  have hrequested := tracks_requests (w := World.initial start)
    (.initial : Tracks evaluate start _ _ _ _ _ _) hnodup
  obtain ⟨done, rest, hall, hbefore⟩ := tracks_turns outcome hrequested
    (hperm.nodup_iff.2 hnodup) fun id hid => ⟨by simpa using hperm.mem_iff.1 hid, rfl⟩
  have harrived : arrivedAfter outcome (fun _ => none) before = allArrived specs outcome := by
    funext id
    simp only [arrivedAfter, allArrived, hperm.mem_iff]
  rw [harrived] at hbefore
  obtain ⟨hend, -⟩ := hbefore.flush
  -- The modules evaluated have arrived, and the next one has not, so they are all that lead.
  obtain ⟨done', hdone'⟩ : ∃ done', done' =
      done ++ leading (fun id => codeOf (allArrived specs outcome id)) rest := ⟨_, rfl⟩
  obtain ⟨rest', hrest'⟩ : ∃ rest', rest' =
      rest.drop (leading (fun id => codeOf (allArrived specs outcome id)) rest).length := ⟨_, rfl⟩
  rw [← hdone', ← hrest'] at hend
  have hsplit : done'.map (·.1) ++ rest' = specs := by
    rw [hdone', hrest', List.map_append, List.append_assoc, leading_append_drop]
    exact hall
  have hready : evaluable specs outcome = done' := by
    rw [evaluable]
    nth_rewrite 2 [← hsplit]
    refine leading_eq ?_ ?_
    · intro e he
      rw [hend.arrived_done e he]
      rfl
    · intro spec hs
      rw [hrest'] at hs
      exact code_of_head_drop hs
  have hleft : specs.drop (evaluable specs outcome).length = rest' := by
    rw [hready, ← hsplit]
    exact List.drop_left' (by simp)
  have hload : load specs outcome evaluate start (before ++ [.flush]) =
      (((World.initial start).run (requests specs)).run
        (before.map (Turn.move outcome evaluate))).step (.flush .failForward evaluate) := by
    rw [load, List.map_append, World.run_append, World.run_append]
    rfl
  rw [hleft, hready, hload]
  exact hend

end Run

/-! ## The calls of a load -/

/-- A walk with notes goes like the walk without, and notes the modules walked. -/
theorem walk_recorded (evaluate : Evaluator σ) (modules : List (ModuleSpec × String)) (state : σ)
    (seen : List (ModuleRecord × String)) :
    evaluate.recorded.walk modules (state, seen) =
      ((evaluate.walk modules state).1, (evaluate.walk modules state).2,
        seen ++ modules.map fun e => (e.1.record (.retrieved e.2), e.2)) := by
  induction modules generalizing state seen with
  | nil => simp [Evaluator.walk]
  | cons e rest ih => simp [Evaluator.walk, Evaluator.recorded, ih]

/-- Moves whose evaluator takes notes are the moves with the evaluator that takes notes. -/
theorem map_recorded_moves (specs : List ModuleSpec)
    (outcome : String → Except RetrievalFailure String) (evaluate : Evaluator σ)
    (turns : List Turn) :
    (requests specs ++ turns.map (Turn.move outcome evaluate)).map Move.recorded =
      requests specs ++ turns.map (Turn.move outcome evaluate.recorded) := by
  rw [List.map_append, requests, List.map_flatMap, List.map_map]
  congr 1
  refine List.map_congr_left fun turn _ => ?_
  cases turn <;> rfl

/-- A complete load calls the evaluator for the modules before the first failed retrieval, one after
the other. -/
theorem calls_load {specs : List ModuleSpec} (hnodup : (specs.map (·.id)).Nodup)
    {turns : List Turn} (hc : Complete specs turns)
    (outcome : String → Except RetrievalFailure String) (evaluate : Evaluator σ) (start : σ) :
    (load specs outcome evaluate start turns).calls.map (fun c => (c.record, c.code)) =
      (evaluable specs outcome).map fun e => (e.1.record (.retrieved e.2), e.2) := by
  have hnoted := (tracks_load outcome evaluate.recorded (start, []) hnodup hc).state_eq
  have hrun := (World.run_inOrder start (requests specs ++ turns.map (Turn.move outcome evaluate))).2
  rw [map_recorded_moves] at hrun
  rw [walk_recorded, load] at hnoted
  rw [load, ← hrun, hnoted]
  rfl

/-- The modules evaluated in the end are those before the first that could not be retrieved. -/
theorem map_id_evaluable (specs : List ModuleSpec)
    (outcome : String → Except RetrievalFailure String) :
    (evaluable specs outcome).map (·.1.id) =
      (specs.map (·.id)).takeWhile fun id => (outcome id).isOk := by
  have hall : ∀ part : List ModuleSpec, (∀ spec ∈ part, spec ∈ specs) →
      (leading (fun id => codeOf (allArrived specs outcome id)) part).map (·.1.id) =
        (part.map (·.id)).takeWhile fun id => (outcome id).isOk := by
    intro part hpart
    induction part with
    | nil => rfl
    | cons spec part ih =>
      have hmem : spec.id ∈ specs.map (·.id) := List.mem_map_of_mem (hpart spec List.mem_cons_self)
      have hrest := ih fun s hs => hpart s (List.mem_cons_of_mem _ hs)
      have hcode : codeOf (allArrived specs outcome spec.id) = (outcome spec.id).toOption := by
        rw [allArrived, if_pos hmem]
        rfl
      rw [List.map_cons, List.takeWhile_cons, leading, hcode]
      cases outcome spec.id with
      | error failure => rfl
      | ok code => exact congrArg (spec.id :: ·) hrest
  exact hall specs fun _ h => h

/-- Every evaluated module was retrieved with the code that its outcome brought. -/
theorem code_of_mem_evaluable {specs : List ModuleSpec}
    {outcome : String → Except RetrievalFailure String} {e : ModuleSpec × String}
    (h : e ∈ evaluable specs outcome) : outcome e.1.id = .ok e.2 := by
  have hc := code_of_mem_leading h
  simp only [allArrived] at hc
  split at hc
  · cases ho : outcome e.1.id with
    | error failure => simp [ho, codeOf, Except.toOption] at hc
    | ok code =>
      simp only [ho, codeOf, Option.bind_some, Except.toOption, Option.some.injEq] at hc
      rw [hc]
  · cases hc

/-- However the retrievals of distinct modules arrive, and wherever the order is flushed between
them and after the last, the same calls are made in the same order, the evaluator ends in the same
state, the same modules are pending and the same records are kept.  The modules called are those
before the first that could not be retrieved, each with the code retrieved for it; when all could
be, the order is drained. -/
theorem load_confluent (specs : List ModuleSpec) (hnodup : (specs.map (·.id)).Nodup)
    (outcome : String → Except RetrievalFailure String) (evaluate : Evaluator σ) (start : σ)
    (turns turns' : List Turn) (hc : Complete specs turns) (hc' : Complete specs turns') :
    let w := load specs outcome evaluate start turns
    let w' := load specs outcome evaluate start turns'
    (w.calls.map (fun c => (c.record, c.code)) = w'.calls.map (fun c => (c.record, c.code)) ∧
        w.state = w'.state ∧ w.order.pending = w'.order.pending ∧
        ∀ id, w.store.get? id = w'.store.get? id) ∧
      w.calls.map (·.record.id) = ((specs.map (·.id)).takeWhile fun id => (outcome id).isOk) ∧
      (∀ c ∈ w.calls, outcome c.record.id = .ok c.code) ∧
      ((∀ spec ∈ specs, (outcome spec.id).isOk) → w.order.isDrained) := by
  intro w w'
  have h := tracks_load outcome evaluate start hnodup hc
  have h' := tracks_load outcome evaluate start hnodup hc'
  have hcalls := calls_load hnodup hc outcome evaluate start
  have hcalls' := calls_load hnodup hc' outcome evaluate start
  refine ⟨⟨?same, ?state, ?pending, ?records⟩, ?ids, ?codes, ?drained⟩
  case same => rw [hcalls, hcalls']
  case state => rw [h.state_eq, h'.state_eq]
  case pending => rw [h.pending_eq, h'.pending_eq]
  case records => exact h.get?_unique h'
  case ids =>
    have hids := congrArg (List.map fun p => p.1.id) hcalls
    rw [List.map_map, List.map_map] at hids
    rw [← map_id_evaluable]
    exact hids
  case codes =>
    intro c hmem
    have hpair : (c.record, c.code) ∈
        (evaluable specs outcome).map fun e => (e.1.record (.retrieved e.2), e.2) := by
      rw [← hcalls]
      exact List.mem_map_of_mem hmem
    obtain ⟨e, he, hec⟩ := List.mem_map.1 hpair
    obtain ⟨hrecord, hcode⟩ := Prod.mk.inj hec
    rw [← hrecord, ← hcode]
    exact code_of_mem_evaluable he
  case drained =>
    intro hok
    have hlen : (evaluable specs outcome).length = specs.length := by
      have hm := congrArg List.length (map_id_evaluable specs outcome)
      rw [List.length_map, List.takeWhile_eq_self_iff.2] at hm
      · simpa using hm
      · intro id hid
        obtain ⟨spec, hs, rfl⟩ := List.mem_map.1 hid
        exact hok spec hs
    have horder := congrArg List.length h.order_eq
    rw [hlen, List.drop_length, List.map_nil, List.append_nil, List.length_map] at horder
    rw [LoadOrder.isDrained, h.cursor_eq, horder]
    exact beq_self_eq_true _

/-- Three modules of which the second is offline, arriving from the first to the last with a flush
after each, and from the last to the first with one flush: only the first is evaluated. -/
theorem load_confluent_offline :
    let specs := [ModuleSpec.mk "a" "a.js" false, ⟨"b", "b.js", false⟩, ⟨"c", "c.js", false⟩]
    let outcome := fun id : String =>
      if id = "b" then Except.error (RetrievalFailure.network "offline") else .ok ("code of " ++ id)
    let evaluate : Evaluator (List String) := fun record _ seen => (.ok (), seen ++ [record.id])
    let turns := [Turn.arrival "a", .flush, .arrival "b", .flush, .arrival "c", .flush]
    let turns' := [Turn.arrival "c", .arrival "b", .arrival "a", .flush]
    (specs.map (·.id)).Nodup ∧ Complete specs turns ∧ Complete specs turns' ∧
      (load specs outcome evaluate [] turns).state = (load specs outcome evaluate [] turns').state ∧
      (load specs outcome evaluate [] turns).calls.map (·.record.id) = ["a"] := by
  intro specs outcome evaluate turns turns'
  have hnodup : (specs.map (·.id)).Nodup := by decide
  have hc : Complete specs turns := ⟨by decide, by decide⟩
  have hc' : Complete specs turns' := ⟨by decide, by decide⟩
  obtain ⟨⟨-, hstate, -, -⟩, hids, -, -⟩ :=
    load_confluent specs hnodup outcome evaluate [] turns turns' hc hc'
  exact ⟨hnodup, hc, hc', hstate, hids⟩

end ModuleLoader.Completion
