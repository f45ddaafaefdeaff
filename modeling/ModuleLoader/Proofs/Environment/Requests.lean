import ModuleLoader.Proofs.Environment.Refinement

/-!
# Every module is requested once

Where retrievals run beside the caller, the place they go to is asked for the modules of the load
order and for nothing else: for each of them once, when its turn has come.  Until then the module is
in hand, held back or under way.  Main statement: `Steps.looksUp`.
-/

set_option autoImplicit false

namespace ModuleLoader

open Environment

/-- Taking account of a retrieval moves the cursor of the order at most. -/
theorem Environment.order_complete (env : Environment) (id : String)
    (result : Except RetrievalFailure String) :
    (env.complete id result).2.order.order = env.order.order := by
  obtain ⟨journal, progress, hn⟩ := env.noteArrival_frame id result
  have hnoted : (env.noteArrival id result).order = env.order := by rw [hn]
  rcases env.complete_cases id result with h | h
  · obtain ⟨journal', progress', hf⟩ := (env.noteArrival id result).flush_frame
    rw [h, hf]
    show (env.noteArrival id result).order.order = _
    rw [hnoted]
  · rw [h, hnoted]

namespace Moment

/-- The locations that are still to be looked up. -/
def toLookUp (m : Moment) : List String :=
  (m.hand ++ m.env.pendingWrites).map (·.location) ++ m.env.schedule.outstanding.map (·.location)

/-- The medium has been asked for the modules of the load order, for each of them once, save for those
that are still to be looked up. -/
def LooksUp (medium : Medium) (m : Moment) : Prop :=
  ∃ locations, m.env.transport = .concurrent (medium.lookUps locations) ∧
    (locations ++ m.toLookUp).Perm (m.env.order.order.map fun id => (m.env.specFor id).location)

variable {medium : Medium} {m m' : Moment}

/-- Modules may be passed on between hand, those held back and those under way. -/
theorem LooksUp.of_perm (h : LooksUp medium m) (hk : m.env.Kept m'.env)
    (ht : m'.env.transport = m.env.transport) (horder : m'.env.order.order = m.env.order.order)
    (hperm : m'.toLookUp.Perm m.toLookUp) : LooksUp medium m' := by
  obtain ⟨locations, htransport, hall⟩ := h
  refine ⟨locations, ht.trans htransport, ?_⟩
  rw [horder, funext hk.specFor]
  exact (hperm.append_left locations).trans hall

/-- The retrievals under way look up their locations when they deliver. -/
theorem LooksUp.stir {env : Environment} {hand : List ModuleSpec} {log : Log}
    (h : LooksUp medium ⟨env, hand, log⟩) {move : Schedule → Medium → Schedule × Medium}
    (hmove : ∀ medium, Schedule.Delivers [] env.schedule medium (move env.schedule medium)) :
    LooksUp medium ⟨env.stir move, hand, log⟩ := by
  obtain ⟨locations, ht, hall⟩ := h
  obtain ⟨taken, -, hperm, hmedium⟩ := hmove (medium.lookUps locations)
  rw [stir_of_concurrent ht]
  refine ⟨locations ++ taken.map (·.location), ?_, List.Perm.trans ?_ hall⟩
  · rw [Medium.lookUps_append]
    exact congrArg Transport.concurrent hmedium
  · have hlocations := hperm.map (·.location)
    classical
    rw [List.perm_iff_count] at hlocations ⊢
    intro a
    have ha := hlocations a
    simp only [toLookUp, List.map_append, List.count_append, List.nil_append] at ha ⊢
    omega

/-- A step looks up what it takes off the list of what is still to be looked up. -/
theorem Step.looksUp (h : Step m m') (hn : m.env.Named) (hl : LooksUp medium m) :
    LooksUp medium m' := by
  have hk := h.kept
  cases h with
  | announce env hand log level text => exact hl.of_perm hk rfl rfl (.refl _)
  | register env hand log path new =>
    obtain ⟨locations, ht, hall⟩ := hl
    refine ⟨locations, ht, ?_⟩
    have hpath : (env.specFor (env.specFor path).id).location = (env.specFor path).location := by
      rw [hn path]
    have horder : ∀ order : LoadOrder, ((order.enqueue (env.specFor path).id).order.map fun id =>
        (env.specFor id).location) =
          (order.order.map fun id => (env.specFor id).location) ++ [(env.specFor path).location] := by
      intro order
      rw [LoadOrder.enqueue, List.map_append, List.map_singleton, hpath]
    show List.Perm _ ((env.order.enqueue (env.specFor path).id).order.map fun id =>
      (env.specFor id).location)
    rw [horder]
    classical
    rw [List.perm_iff_count] at hall ⊢
    intro a
    have ha := hall a
    simp only [toLookUp, List.map_append, List.count_append, List.map_cons, List.map_nil] at ha ⊢
    omega
  | skip env hand log path known => exact hl.of_perm hk rfl rfl (.refl _)
  | hold env hand log spec held =>
    apply hl.of_perm hk rfl rfl
    classical
    rw [List.perm_iff_count]
    intro a
    simp only [toLookUp, List.map_append, List.count_append, List.map_cons, List.map_nil,
      List.count_cons, List.count_nil, List.cons_append]
    omega
  | release env hand log =>
    apply hl.of_perm hk rfl rfl
    classical
    rw [List.perm_iff_count]
    intro a
    simp only [toLookUp, List.map_append, List.count_append, List.map_nil, List.count_nil]
    omega
  | spawn env hand log spec medium' concurrent =>
    apply hl.of_perm hk rfl rfl
    classical
    rw [List.perm_iff_count]
    intro a
    simp only [toLookUp, Schedule.spawn, Schedule.outstanding, List.map_append, List.count_append,
      List.map_cons, List.map_nil, List.count_cons, List.count_nil, List.cons_append]
    omega
  | fetch env hand log spec medium' serial =>
    obtain ⟨locations, ht, -⟩ := hl
    rw [serial] at ht
    cases ht
  | receive env hand log arrival rest arrived =>
    obtain ⟨store, order, layer, journal, progress, he⟩ := { env with
      schedule := { env.schedule with arrived := rest }
      inFlight := env.inFlight - 1 }.complete_frame arrival.id arrival.result
    apply hl.of_perm hk
    · exact transport_complete _ _ _
    · exact order_complete _ _ _
    · show List.Perm (toLookUp ⟨(complete _ arrival.id arrival.result).2, hand, log⟩) _
      rw [he]
      exact .refl _
  | await env hand log =>
    rw [await_eq_stir]
    exact hl.stir env.schedule.delivers_await
  | turn env hand log n =>
    rw [turn_eq_stir]
    exact hl.stir fun medium => env.schedule.delivers_turn medium n
  | rouse env hand log n =>
    apply hl.of_perm hk rfl rfl
    exact ((env.schedule.outstanding_rouse n).map _).append_left _
  | report env hand log =>
    obtain ⟨journal, hr⟩ := env.report_frame
    have hsame : env.report.2 = { env with journal, progress := ⟨[], []⟩ } := congrArg (·.2) hr
    apply hl.of_perm hk
    · rw [hsame]
    · rw [hsame]
    · simp only [toLookUp, hsame]
      exact .refl _

/-- So do any number of steps. -/
theorem Steps.looksUp (h : Steps m m') (hn : m.env.Named) (hl : LooksUp medium m) :
    LooksUp medium m' := by
  induction h with
  | refl => exact hl
  | tail hsteps hstep ih => exact hstep.looksUp (hn.kept (Steps.kept hsteps)) ih

/-- Where nothing is in transit any more, every module of the load order has been looked up. -/
theorem LooksUp.all (h : LooksUp medium m) (hnone : m.transit = []) :
    ∃ locations, m.env.transport = .concurrent (medium.lookUps locations) ∧
      locations.Perm (m.env.order.order.map fun id => (m.env.specFor id).location) := by
  obtain ⟨locations, ht, hperm⟩ := h
  have hall : m.toLookUp = [] := by
    simp only [transit, List.append_eq_nil_iff, List.map_eq_nil_iff] at hnone
    simp [toLookUp, hnone]
  rw [hall, List.append_nil] at hperm
  exact ⟨locations, ht, hperm⟩

end Moment

end ModuleLoader
