import ModuleLoader.Proofs.Environment.Fresh
import ModuleLoader.Proofs.Environment.Plain

/-!
# Concurrent loading is plain loading

A loader with any number of retrievals under way, in any order and with any number of permits, ends
where the plain loader does.  At every moment the modules asked for are those evaluated, which were
retrieved one and all, followed by the others, of which the first is still to be retrieved or could
not be.  `Mirrors` says so of a moment and is kept by every step.  Main statement: `run_plain`, any
loading that is settled in the end comes to what plain loading comes to.
-/

set_option autoImplicit false

namespace ModuleLoader

open ModuleLoader.Namespace (Layer)
open Environment

/-! ## Lost modules -/

/-- The modules of a list whose retrieval has failed. -/
def lost (arrived : String → Option (Except RetrievalFailure String)) (specs : List ModuleSpec) :
    List String :=
  specs.flatMap fun spec => (arrived spec.id).elim [] (lostBy spec.id)

section Lost

variable {arrived : String → Option (Except RetrievalFailure String)}

/-- The modules lost of two lists are those of the one and of the other. -/
theorem lost_append (specs more : List ModuleSpec) :
    lost arrived (specs ++ more) = lost arrived specs ++ lost arrived more := List.flatMap_append

/-- Which modules are lost depends on what they arrived with. -/
theorem lost_congr {arrived' : String → Option (Except RetrievalFailure String)}
    {specs : List ModuleSpec} (h : ∀ spec ∈ specs, arrived' spec.id = arrived spec.id) :
    lost arrived' specs = lost arrived specs := by
  unfold lost
  refine List.flatMap_congr fun spec hs => ?_
  rw [h spec hs]

/-- No module is lost that arrived with code. -/
theorem lost_of_code {done : List (ModuleSpec × String)}
    (h : ∀ e ∈ done, arrived e.1.id = some (.ok e.2)) : lost arrived (done.map (·.1)) = [] := by
  rw [lost, List.flatMap_eq_nil_iff]
  intro spec hs
  obtain ⟨e, he, rfl⟩ := List.mem_map.1 hs
  rw [h e he]
  rfl

/-- An arrival with a failure adds its module to those lost. -/
theorem lost_update {specs : List ModuleSpec} (hnodup : (specs.map (·.id)).Nodup)
    {spec : ModuleSpec} (hs : spec ∈ specs) (hnot : arrived spec.id = none)
    (result : Except RetrievalFailure String) :
    (lost (Function.update arrived spec.id (some result)) specs).Perm
      (lost arrived specs ++ lostBy spec.id result) := by
  obtain ⟨before, after, rfl⟩ := List.append_of_mem hs
  rw [List.map_append, List.map_cons, List.nodup_append, List.nodup_cons] at hnodup
  obtain ⟨-, ⟨hafter, -⟩, hbefore⟩ := hnodup
  have hb : lost (Function.update arrived spec.id (some result)) before = lost arrived before := by
    refine lost_congr fun other ho => Function.update_of_ne ?_ _ _
    exact hbefore _ (List.mem_map_of_mem ho) _ List.mem_cons_self
  have ha : lost (Function.update arrived spec.id (some result)) after = lost arrived after := by
    refine lost_congr fun other ho => Function.update_of_ne ?_ _ _
    rintro he
    exact hafter (he ▸ List.mem_map_of_mem ho)
  have hone : lost (Function.update arrived spec.id (some result)) [spec] = lostBy spec.id result := by
    simp [lost]
  have hnone : lost arrived [spec] = [] := by
    simp [lost, hnot]
  rw [List.append_cons, lost_append, lost_append, lost_append, lost_append, hb, ha, hone, hnone,
    List.append_nil, List.append_assoc, List.append_assoc]
  exact List.perm_append_comm.append_left _

/-- When all modules have arrived, those are lost that cannot be retrieved. -/
theorem lost_eq_unretrieved {content : String → Except RetrievalFailure String}
    {specs : List ModuleSpec} (h : ∀ spec ∈ specs, arrived spec.id = some (content spec.location)) :
    lost arrived specs = Plain.unretrieved content specs := by
  induction specs with
  | nil => rfl
  | cons spec rest ih =>
    have hrest := ih fun s hs => h s (List.mem_cons_of_mem _ hs)
    have hone : lost arrived [spec] = lostBy spec.id (content spec.location) := by
      simp [lost, h spec List.mem_cons_self]
    rw [← List.singleton_append, lost_append, hrest, hone]
    cases hc : content spec.location <;> simp [Plain.unretrieved, hc, lostBy]

end Lost

/-! ## The plain loader at a moment -/

/-- A moment of a loader that goes the way of the plain loader: `done` are the modules evaluated,
`rest` the others, and `arrived` tells what was taken account of. -/
structure Mirrors (content : String → Except RetrievalFailure String) (start : Layer)
    (arrived : String → Option (Except RetrievalFailure String))
    (done : List (ModuleSpec × String)) (rest : List ModuleSpec) (m : Moment) : Prop where
  tracks : Tracks (evaluator m.env.config.wrapOptions) start arrived done rest m.env.store
    m.env.order m.env.layer
  asked : done.map (·.1) ++ rest = m.log.asked.eraseDups.map m.env.specFor
  unasked : ∀ id ∉ m.log.asked, arrived id = none
  arrivals : ∀ id result, arrived id = some result → result = content (m.env.specFor id).location
  due : ∀ a ∈ m.due content, arrived a.id = none ∧ a.id ∈ rest.map (·.id) ∧
    a = (m.env.specFor a.id).arrival content
  evaluated : m.evaluated =
    evaluatedIds ((evaluator m.env.config.wrapOptions).walk done start).1
  failed : m.failed.Perm
    (failedIds ((evaluator m.env.config.wrapOptions).walk done start).1 ++ lost arrived rest)

/-- Every module is retrieved under its own id. -/
def Environment.Named (env : Environment) : Prop := ∀ id, (env.specFor id).id = id

/-- No step changes where modules are. -/
theorem Environment.Kept.specFor {env env' : Environment} (h : env.Kept env') (id : String) :
    env'.specFor id = env.specFor id := by
  unfold Environment.specFor
  rw [h.specs, h.config]

/-- No step changes that modules are retrieved under their own ids. -/
theorem Environment.Named.kept {env env' : Environment} (h : env.Named) (hk : env.Kept env') :
    env'.Named := by
  intro id
  rw [hk.specFor]
  exact h id

namespace Mirrors

variable {content : String → Except RetrievalFailure String} {start : Layer}
  {arrived : String → Option (Except RetrievalFailure String)}
  {done : List (ModuleSpec × String)} {rest : List ModuleSpec} {m m' : Moment}

/-- The modules of the order were asked for, and are where they are told to be. -/
theorem of_mem (h : Mirrors content start arrived done rest m) (hn : m.env.Named)
    {spec : ModuleSpec} (hs : spec ∈ done.map (·.1) ++ rest) :
    spec.id ∈ m.log.asked ∧ spec = m.env.specFor spec.id := by
  rw [h.asked] at hs
  obtain ⟨id, hid, rfl⟩ := List.mem_map.1 hs
  rw [hn id]
  exact ⟨List.mem_eraseDups.1 hid, rfl⟩

/-- A module that is known was asked for. -/
theorem mem_asked (h : Mirrors content start arrived done rest m) (hn : m.env.Named) {id : String}
    (hid : m.env.store.get? id ≠ none) : id ∈ m.log.asked := by
  by_contra hnot
  refine hid (h.tracks.unknown id ?_ ?_)
  · intro hd
    obtain ⟨e, he, rfl⟩ := List.mem_map.1 hd
    exact hnot (h.of_mem hn (List.mem_append_left _ (List.mem_map_of_mem he))).1
  · intro hr
    obtain ⟨spec, hs, rfl⟩ := List.mem_map.1 hr
    exact hnot (h.of_mem hn (List.mem_append_right _ hs)).1

/-- A module that was asked for is known. -/
theorem known (h : Mirrors content start arrived done rest m) (hn : m.env.Named) {id : String}
    (hid : id ∈ m.log.asked) : m.env.store.get? id ≠ none := by
  refine h.tracks.known ?_
  have hmem : m.env.specFor id ∈ done.map (·.1) ++ rest := by
    rw [h.asked]
    exact List.mem_map_of_mem (List.mem_eraseDups.2 hid)
  have hids := List.mem_map_of_mem (f := ModuleSpec.id) hmem
  rw [hn id, List.map_append, List.map_map] at hids
  exact hids

/-- A moment between which and another nothing was registered, completed or evaluated. -/
theorem moved (h : Mirrors content start arrived done rest m) (hu : m.Unmoved m')
    (hdue : ∀ a ∈ m'.due content, a ∈ m.due content) :
    Mirrors content start arrived done rest m' := by
  have hspec := funext hu.kept.specFor
  exact {
    tracks := by
      rw [hu.store, hu.order, hu.layer, hu.kept.config]
      exact h.tracks
    asked := by
      rw [hu.asked, hspec]
      exact h.asked
    unasked := by
      rw [hu.asked]
      exact h.unasked
    arrivals := by
      rw [hspec]
      exact h.arrivals
    due := by
      rw [hspec]
      exact fun a ha => h.due a (hdue a ha)
    evaluated := by
      rw [hu.evaluated, hu.kept.config]
      exact h.evaluated
    failed := by
      rw [hu.failed, hu.kept.config]
      exact h.failed }

/-- A module that is known may be asked for again. -/
theorem skip (h : Mirrors content start arrived done rest m) (hn : m.env.Named) {path : String}
    (known : m.env.store.get? (m.env.specFor path).id ≠ none) :
    Mirrors content start arrived done rest ⟨m.env, m.hand, m.log.asking [path]⟩ := by
  have hmem : path ∈ m.log.asked := by
    rw [hn path] at known
    exact h.mem_asked hn known
  have hsame : (m.log.asking [path]).asked.eraseDups = m.log.asked.eraseDups := by
    simp [Log.asking, List.eraseDups_append, List.cons_removeAll, hmem]
  exact {
    tracks := h.tracks
    asked := by
      rw [hsame]
      exact h.asked
    unasked := by
      intro id hid
      refine h.unasked id fun hmem => hid ?_
      exact List.mem_append_left _ hmem
    arrivals := h.arrivals
    due := h.due
    evaluated := h.evaluated
    failed := h.failed }

/-- A new module is waited for behind the others. -/
theorem register (h : Mirrors content start arrived done rest m) (hn : m.env.Named) {path : String}
    (new : m.env.store.get? (m.env.specFor path).id = none)
    (henv : m'.env = { m.env with
      store := (m.env.store.ensure (m.env.specFor path)).2
      order := m.env.order.enqueue (m.env.specFor path).id })
    (hlog : m'.log = m.log.asking [path])
    (hdue : ∀ a ∈ m'.due content, a = (m.env.specFor path).arrival content ∨ a ∈ m.due content) :
    Mirrors content start arrived done (rest ++ [m.env.specFor path]) m' := by
  have hnot : path ∉ m.log.asked := by
    intro hmem
    rw [hn path] at new
    exact h.known hn hmem new
  have hnone : arrived (m.env.specFor path).id = none := by
    rw [hn path]
    exact h.unasked path hnot
  have hspec : m'.env.specFor = m.env.specFor := by
    rw [henv]
    rfl
  have hevaluated : m'.evaluated = m.evaluated := by
    simp only [Moment.evaluated, henv, hlog, Log.asking]
  have hfailed : m'.failed = m.failed := by
    simp only [Moment.failed, henv, hlog, Log.asking]
  have hconfig : m'.env.config = m.env.config := by rw [henv]
  exact {
    tracks := by
      rw [henv]
      exact h.tracks.request new hnone
    asked := by
      have hdups : m'.log.asked.eraseDups = m.log.asked.eraseDups ++ [path] := by
        simp [hlog, Log.asking, List.eraseDups_append, List.cons_removeAll, hnot, List.eraseDups_cons]
      rw [hdups, hspec, List.map_append, ← h.asked, List.append_assoc]
      rfl
    unasked := by
      intro id hid
      refine h.unasked id fun hmem => hid ?_
      rw [hlog]
      exact List.mem_append_left _ hmem
    arrivals := by
      rw [hspec]
      exact h.arrivals
    due := by
      intro a ha
      rw [hspec]
      rcases hdue a ha with rfl | ha
      · have hid : ((m.env.specFor path).arrival content).id = (m.env.specFor path).id := rfl
        rw [hid]
        refine ⟨hnone, ?_, ?_⟩
        · exact List.mem_map_of_mem (List.mem_append_right _ (List.mem_singleton.2 rfl))
        · rw [hn path]
      · obtain ⟨hnone, hmem, heq⟩ := h.due a ha
        refine ⟨hnone, ?_, heq⟩
        rw [List.map_append]
        exact List.mem_append_left _ hmem
    evaluated := by
      rw [hevaluated, hconfig]
      exact h.evaluated
    failed := by
      have hlost : lost arrived [m.env.specFor path] = [] := by
        simp [lost, hnone]
      rw [hfailed, hconfig, lost_append, hlost, List.append_nil]
      exact h.failed }

/-- A module that is waited for may arrive, with what it has at its location. -/
theorem arrive (h : Mirrors content start arrived done rest m) (hn : m.env.Named) {a : Arrival}
    (hnone : arrived a.id = none) (hmem : a.id ∈ rest.map (·.id))
    (ha : a = (m.env.specFor a.id).arrival content)
    (honce : ∀ b ∈ m.due content, b.id ≠ a.id) :
    Mirrors content start (Function.update arrived a.id (some a.result)) done rest
      ⟨m.env.noteArrival a.id a.result, m.hand, m.log⟩ := by
  obtain ⟨spec, hs, hid⟩ := List.mem_map.1 hmem
  rw [← hid] at hnone
  have hrecord := h.tracks.rest_eq spec hs
  rw [hnone] at hrecord
  have htracks := h.tracks.arrive hs hnone a.result
  have hnodup := (List.nodup_append.1 h.tracks.nodup).2.1
  have hlost := lost_update hnodup hs hnone a.result
  obtain ⟨journal, hnote⟩ := m.env.noteArrival_of_requested hrecord rfl a.result
  rw [hid] at htracks hlost hnote
  rw [hnote]
  have hresult : a.result = content (m.env.specFor a.id).location := congrArg Arrival.result ha
  exact {
    tracks := htracks
    asked := h.asked
    unasked := by
      intro id hid'
      by_cases he : id = a.id
      · subst he
        exact absurd (h.mem_asked hn (by rw [← hid, hrecord]; simp)) hid'
      · rw [Function.update_of_ne he]
        exact h.unasked id hid'
    arrivals := by
      intro id result hr
      by_cases he : id = a.id
      · subst he
        rw [Function.update_self] at hr
        cases hr
        exact hresult
      · rw [Function.update_of_ne he] at hr
        exact h.arrivals id result hr
    due := by
      intro b hb
      rw [Function.update_of_ne (honce b hb)]
      exact h.due b hb
    evaluated := h.evaluated
    failed := by
      have hall : (m.failed ++ lostBy a.id a.result).Perm
          (failedIds ((evaluator m.env.config.wrapOptions).walk done start).1 ++
            lost (Function.update arrived a.id (some a.result)) rest) := by
        refine (h.failed.append_right _).trans ?_
        rw [List.append_assoc]
        exact (hlost.symm.append_left _)
      rw [Moment.failed] at hall ⊢
      rw [← List.append_assoc]
      exact hall }

/-- A flush evaluates what the plain loader evaluates next, and stops at a module that it waits for
or that was lost. -/
theorem flush (h : Mirrors content start arrived done rest m)
    (hf : m.env.profile.policy = .failForward) :
    ∃ done' rest', Mirrors content start arrived done' rest' ⟨m.env.flush.2, m.hand, m.log⟩ ∧
      ∀ spec ∈ rest'.head?, codeOf (arrived spec.id) = none := by
  obtain ⟨htracks, houtcome⟩ := h.tracks.flush
  have hflush : m.env.orderFlush = Flush.through .failForward
      (evaluator m.env.config.wrapOptions) m.env.order.pending m.env.store m.env.layer := by
    rw [orderFlush, hf]
  rw [← hflush] at htracks houtcome
  obtain ⟨-, journal, hafter⟩ := m.env.flush_of_ok houtcome
  have hsplit : (leading (fun id => codeOf (arrived id)) rest).map (·.1) ++
      rest.drop (leading (fun id => codeOf (arrived id)) rest).length = rest :=
    leading_append_drop rest
  have hcode : ∀ e ∈ leading (fun id => codeOf (arrived id)) rest,
      arrived e.1.id = some (.ok e.2) := by
    intro e he
    exact htracks.arrived_done e (List.mem_append_right _ he)
  have hhead : ∀ spec ∈ (rest.drop (leading (fun id => codeOf (arrived id)) rest).length).head?,
      codeOf (arrived spec.id) = none := fun spec hs => code_of_head_drop hs
  generalize leading (fun id => codeOf (arrived id)) rest = ready at *
  generalize rest.drop ready.length = left at *
  refine ⟨done ++ ready, left, ?_, hhead⟩
  have hwalk := (evaluator m.env.config.wrapOptions).walk_append done ready start
  rw [← h.tracks.state_eq] at hwalk
  rw [hafter]
  exact {
    tracks := htracks
    asked := by
      rw [List.map_append, List.append_assoc, hsplit]
      exact h.asked
    unasked := h.unasked
    arrivals := h.arrivals
    due := by
      intro a ha
      obtain ⟨hnone, hmem, heq⟩ := h.due a ha
      refine ⟨hnone, ?_, heq⟩
      rw [← hsplit, List.map_append, List.mem_append] at hmem
      refine hmem.resolve_left fun hr => ?_
      rw [List.map_map] at hr
      obtain ⟨e, he, hid⟩ := List.mem_map.1 hr
      have harr := hcode e he
      simp only [Function.comp_apply] at hid
      rw [hid, hnone] at harr
      cases harr
    evaluated := by
      have hall := h.evaluated
      rw [Moment.evaluated] at hall ⊢
      rw [hwalk, ← List.append_assoc, hall, evaluatedIds, evaluatedIds, evaluatedIds,
        List.filterMap_append]
    failed := by
      have hall := h.failed
      rw [← hsplit, lost_append, lost_of_code hcode, List.nil_append] at hall
      rw [Moment.failed] at hall ⊢
      rw [hwalk, ← List.append_assoc, module_failuresOf]
      have hids : ∀ xs ys : List (ModuleSpec × Except EvaluationFailure Unit),
          failedIds (xs ++ ys) = failedIds xs ++ failedIds ys := fun _ _ => List.filterMap_append
      rw [hids]
      refine (hall.append_right _).trans ?_
      rw [List.append_assoc, List.append_assoc]
      exact List.perm_append_comm.append_left _ }

end Mirrors

/-! ## Steps and runs -/

/-- A moment of a loader that goes the way of the plain loader, at which the next module is still to
be retrieved or was lost. -/
structure Mirrored (content : String → Except RetrievalFailure String) (start : Layer)
    (m : Moment) : Prop where
  serves : m.env.transport.Serves content
  accounted : m.Accounted
  named : m.env.Named
  goesOn : m.env.profile.policy = .failForward
  mirrors : ∃ arrived done rest, Mirrors content start arrived done rest m ∧
    ∀ spec ∈ rest.head?, codeOf (arrived spec.id) = none

namespace Mirrored

variable {content : String → Except RetrievalFailure String} {start : Layer} {m m' : Moment}

/-- A step goes the way of the plain loader. -/
theorem step (h : Mirrored content start m) (hstep : Moment.Step m m') :
    Mirrored content start m' := by
  obtain ⟨hserves, heffect⟩ := hstep.effect h.serves
  have hk := hstep.kept
  refine ⟨hserves, hstep.accounted h.accounted, h.named.kept hk, ?_, ?_⟩
  · rw [hk.profile]
    exact h.goesOn
  obtain ⟨arrived, done, rest, hm, hblocked⟩ := h.mirrors
  cases heffect with
  | moved unmoved due =>
    exact ⟨arrived, done, rest, hm.moved unmoved fun a ha => due.mem_iff.1 ha, hblocked⟩
  | registered path new env log due =>
    refine ⟨arrived, done, rest ++ [m.env.specFor path], hm.register h.named new env log ?_, ?_⟩
    · exact fun a ha => List.mem_cons.1 (due.mem_iff.1 ha)
    · intro spec hs
      cases rest with
      | nil =>
        rw [List.nil_append, List.head?_cons, Option.mem_some_iff] at hs
        rw [← hs, h.named path, hm.unasked path]
        · rfl
        · intro hmem
          exact hm.known h.named hmem (by rw [← h.named path]; exact new)
      | cons first rest => exact hblocked spec hs
  | skipped path known moment =>
    rw [moment]
    exact ⟨arrived, done, rest, hm.skip h.named known, hblocked⟩
  | completed a mid unmoved due moment =>
    have hmid := hm.moved unmoved fun b hb => due.mem_iff.2 (List.mem_cons_of_mem _ hb)
    obtain ⟨hnone, hmem, heq⟩ := hm.due a (due.mem_iff.2 List.mem_cons_self)
    rw [← funext unmoved.kept.specFor] at heq
    have honce : ∀ b ∈ mid.due content, b.id ≠ a.id := by
      have hnodup := h.accounted.once
      rw [← Moment.map_id_due content, (due.map _).nodup_iff, List.map_cons, List.nodup_cons] at hnodup
      intro b hb he
      exact hnodup.1 (he ▸ List.mem_map_of_mem hb)
    have hforward : mid.env.profile.policy = .failForward := by
      rw [unmoved.kept.profile]
      exact h.goesOn
    have harrive := hmid.arrive (h.named.kept unmoved.kept) hnone hmem heq honce
    have hnoted : (mid.env.noteArrival a.id a.result).profile.policy = .failForward := by
      obtain ⟨journal, progress, hn⟩ := mid.env.noteArrival_frame a.id a.result
      rw [hn]
      exact hforward
    obtain ⟨done', rest', hflush, hhead⟩ := harrive.flush hnoted
    rw [moment, complete_of_failForward hforward]
    exact ⟨_, done', rest', hflush, hhead⟩

/-- So do any number of steps. -/
theorem steps (h : Mirrored content start m) (hsteps : Moment.Steps m m') :
    Mirrored content start m' := by
  induction hsteps with
  | refl => exact h
  | tail _ hstep ih => exact ih.step hstep

/-- The modules asked for are in the order, each where it was asked for first. -/
theorem order (h : Mirrored content start m) : m.env.order.order = m.log.asked.eraseDups := by
  obtain ⟨arrived, done, rest, hm, -⟩ := h.mirrors
  rw [hm.tracks.order_eq, ← map_id_specFor h.named m.log.asked.eraseDups, ← hm.asked,
    List.map_append, List.map_map]
  rfl

/-- When nothing is in transit, the moment is the end of the plain loader's way. -/
theorem plain (h : Mirrored content start m) (hnone : m.transit = []) :
    let p := Plain.load content m.env.config.wrapOptions (m.log.asked.eraseDups.map m.env.specFor) start
    m.evaluated = p.evaluated ∧ m.failed.Perm p.failed ∧ m.env.layer = p.layer ∧
      (∀ id, m.env.store.get? id = p.records.find? (·.id == id)) ∧ m.env.order.pending = p.left := by
  obtain ⟨arrived, done, rest, hm, hblocked⟩ := h.mirrors
  have hspec : ∀ spec ∈ done.map (·.1) ++ rest, m.env.specFor spec.id = spec :=
    fun spec hs => (hm.of_mem h.named hs).2.symm
  have hcode : ∀ e ∈ done, content e.1.location = .ok e.2 := by
    intro e he
    have harr := hm.arrivals _ _ (hm.tracks.arrived_done e he)
    rw [hspec e.1 (List.mem_append_left _ (List.mem_map_of_mem he))] at harr
    exact harr.symm
  -- A module that nothing has arrived for is requested, so it would be in transit.
  have harrived : ∀ spec ∈ rest, arrived spec.id = some (content spec.location) := by
    intro spec hs
    have hrecord := hm.tracks.rest_eq spec hs
    cases ha : arrived spec.id with
    | none =>
      rw [ha] at hrecord
      have hmem := h.accounted.requested spec.id ⟨_, hrecord, rfl⟩
      rw [hnone] at hmem
      cases hmem
    | some result =>
      have heq := hm.arrivals _ _ ha
      rw [hspec spec (List.mem_append_right _ hs)] at heq
      rw [heq]
  have hhead : ∀ spec ∈ rest.head?, ∃ failure, content spec.location = .error failure := by
    intro spec hs
    have hb := hblocked spec hs
    rw [harrived spec (List.mem_of_mem_head? hs)] at hb
    cases hc : content spec.location with
    | ok code => simp [codeOf, hc, Except.toOption] at hb
    | error failure => exact ⟨failure, rfl⟩
  rw [← hm.asked, Plain.load_eq content m.env.config.wrapOptions hcode hhead start]
  refine ⟨hm.evaluated, ?_, hm.tracks.state_eq, ?_, hm.tracks.pending_eq⟩
  · rw [← lost_eq_unretrieved harrived]
    exact hm.failed
  · refine Plain.get?_eq_find? ?_ ?_
    · intro record hr
      rcases List.mem_append.1 hr with hr | hr
      · obtain ⟨e, he, rfl⟩ := List.mem_map.1 hr
        exact hm.tracks.done_eq e he
      · obtain ⟨spec, hs, rfl⟩ := List.mem_map.1 hr
        have hrecord := hm.tracks.rest_eq spec hs
        rw [harrived spec hs] at hrecord
        exact hrecord
    · intro id hid
      rw [List.map_append, List.map_map, List.map_map, List.mem_append, not_or] at hid
      refine hm.tracks.unknown id ?_ hid.2
      intro hd
      rw [← (evaluator m.env.config.wrapOptions).map_id_walk done start] at hd
      exact hid.1 hd

end Mirrored

/-- A new environment is at the start of the plain loader's way. -/
theorem Environment.Fresh.mirrored {env : Environment} (h : env.Fresh)
    (hf : env.profile.policy = .failForward) {content : String → Except RetrievalFailure String}
    (hc : env.transport.Serves content) : Mirrored content env.layer ⟨env, [], .empty⟩ := by
  refine ⟨hc, h.accounted .empty, id_specFor h.named, hf, fun _ => none, [], [], ?_, by simp⟩
  have hdue : Moment.due content ⟨env, [], .empty⟩ = [] := by
    simp [Moment.due, h.pendingWrites, h.schedule, Schedule.due, Schedule.idle, Schedule.outstanding]
  exact {
    tracks := by
      rw [h.store, h.order]
      exact .initial
    asked := rfl
    unasked := fun _ _ => rfl
    arrivals := by
      intro id result hr
      cases hr
    due := by
      rw [hdue]
      simp
    evaluated := by
      rw [Moment.evaluated, h.progress]
      rfl
    failed := by
      rw [Moment.failed, h.progress]
      exact .refl _ }

/-- The document is ready after it was told so. -/
theorem Environment.documentWrite_run {env : Environment} (h : env.Retrieving)
    (hf : env.profile.policy = .failForward) {earlier later : List Action}
    (hall : ∀ a ∈ earlier ++ later, a.isLoading = true ∧ a.caller = .insideEventLoop) :
    (env.run (earlier ++ [.documentReady .insideEventLoop] ++ later)).2.documentWrite = false := by
  have hk := (run_steps h hf (fun a ha => hall a (List.mem_append_left _ ha)) .empty).2.kept
  rw [run_append, run_append]
  have hready := documentWrite_documentReady (h.kept hk)
  have hk' := hk.trans (documentReady_leads .insideEventLoop (h.kept hk)).kept
  have hf' : ((env.run earlier).2.documentReady .insideEventLoop).2.profile.policy =
      .failForward := by
    rw [hk'.profile]
    exact hf
  have hlater := (run_steps (h.kept hk') hf' (fun a ha => hall a (List.mem_append_right _ ha))
    .empty).2.kept
  rw [← Bool.not_eq_true]
  intro hw
  have hnot := hlater.documentWrite hw
  simp only [hready] at hnot
  cases hnot

/-- Loading that is settled once the document is ready ends at a moment that goes the way of the plain
loader and at which nothing is in transit; there the last report is taken. -/
theorem Environment.Fresh.run_settled {env : Environment} (h : env.Fresh) (hr : env.Retrieving)
    (hf : env.profile.policy = .failForward) {content : String → Except RetrievalFailure String}
    (hserves : env.transport.Serves content) {actions : List Action}
    (hall : ∀ a ∈ actions, a.isLoading = true ∧ a.caller = .insideEventLoop)
    (hready : (env.run actions).2.documentWrite = false) :
    ∃ env' journal,
      env.run (actions ++ [.settle]) = ((env.run actions).1 ++ [.ok (some env'.reportNow)],
        { env' with journal, progress := ⟨[], []⟩ }) ∧
      (∀ answer ∈ (env.run actions).1, ∃ r, answer = .ok r) ∧
      let m : Moment := ⟨env', [], (Log.empty.asking (actions.flatMap Action.paths)).reporting
        (reportsOf (env.run actions).1)⟩
      Moment.Steps ⟨env, [], .empty⟩ m ∧ m.transit = [] ∧ Mirrored content env.layer m := by
  obtain ⟨env', journal, hresult, hanswers, hsteps, hsettled, harrived, houtstanding⟩ :=
    run_settle_steps hr hf h.flight h.concurrency hall
  have hready' : env'.documentWrite = false := hsettled.released hready
  have hflight : env'.Flight := hsteps.flight h.flight
  refine ⟨env', journal, hresult, hanswers, hsteps, ?_, (h.mirrored hf hserves).steps hsteps⟩
  simp [Moment.transit, hflight.held hready', harrived, houtstanding]

/-- A browser's loader on a bundle, with retrievals beside the caller or one at a time, may be given
any loading actions before and after the document is ready.  If it is settled in the end, nothing
fails, and the modules evaluated, the namespace with its engine, all records and what is pending are
those of the plain loader for the paths asked for, each where it was asked for first; so are the
modules that failed, up to order. -/
theorem Environment.run_plain (config : Configuration) (hhost : config.host = .browser)
    (bundle : Bundle) (transport : Transport)
    (ht : transport = .concurrent (.bundle bundle) ∨ transport = .serial (.bundle bundle))
    {engine : Script.Engine} (made : Environment)
    (hmake : make config transport engine = .ok made) (specs : List ModuleSpec)
    (earlier later : List Action)
    (hall : ∀ a ∈ earlier ++ later, a.isLoading = true ∧ a.caller = .insideEventLoop) :
    let env := made.withSpecs specs
    let actions := earlier ++ [.documentReady .insideEventLoop] ++ later ++ [.settle]
    let (answers, after) := env.run actions
    let plain := Plain.load bundle.content config.wrapOptions
      ((actions.flatMap Action.paths).eraseDups.map env.specFor) env.layer
    (∀ answer ∈ answers, ∃ r, answer = .ok r) ∧
      (reportsOf answers).flatMap (·.evaluated) = plain.evaluated ∧
      ((reportsOf answers).flatMap (·.failed)).Perm plain.failed ∧
      after.layer = plain.layer ∧
      (∀ id, after.store.get? id = plain.records.find? (·.id == id)) ∧
      ∃ report, answers.getLast? = some (.ok (some report)) ∧
        report.pending = plain.left.length ∧ report.blockedOn = plain.left.head? := by
  intro env actions
  obtain ⟨hmade, hconfig, hchosen⟩ := fresh_of_make hmake
  have hfresh : env.Fresh := hmade.withSpecs specs
  have henvconfig : env.config = config := hconfig
  have henvhost : env.host = .browser := by
    rw [host, henvconfig, hhost]
  obtain ⟨hr, hf⟩ := hfresh.browser henvhost
  have hserves : env.transport.Serves bundle.content := by
    have htransport : env.transport = transport := by
      rw [hhost] at hchosen
      rcases ht with rfl | rfl <;> exact (Except.ok.inj hchosen).symm
    rw [htransport]
    rintro medium (hm | hm) <;> rcases ht with rfl | rfl <;> cases hm <;> rfl
  have hbefore : ∀ a ∈ earlier ++ [.documentReady .insideEventLoop] ++ later,
      a.isLoading = true ∧ a.caller = .insideEventLoop := by
    intro a ha
    simp only [List.mem_append, List.mem_singleton] at ha hall
    rcases ha with (ha | rfl) | ha
    · exact hall a (.inl ha)
    · exact ⟨rfl, rfl⟩
    · exact hall a (.inr ha)
  have hready := documentWrite_run hr hf hall
  have hactions : actions = earlier ++ [.documentReady .insideEventLoop] ++ later ++ [.settle] := rfl
  generalize earlier ++ [.documentReady .insideEventLoop] ++ later = before at *
  -- The report is taken from `env'`, where nothing is in transit any more.
  obtain ⟨env', journal, hresult, hanswers, hsteps, hnone, hmirrored⟩ :=
    hfresh.run_settled hr hf hserves hbefore hready
  have hplain := hmirrored.plain hnone
  have hk : env.Kept env' := hsteps.kept
  have hspec : env'.specFor = env.specFor := funext hk.specFor
  have hasked : before.flatMap Action.paths = actions.flatMap Action.paths := by
    simp [hactions, Action.paths]
  simp only at hplain
  rw [hk.config, henvconfig, hspec] at hplain
  simp only [Log.asking, Log.reporting, Log.empty, List.nil_append, hasked] at hplain
  obtain ⟨hevaluated, hfailed, hlayer, hstore, hpending⟩ := hplain
  have hreports : reportsOf ((env.run before).1 ++ [.ok (some env'.reportNow)]) =
      reportsOf (env.run before).1 ++ [env'.reportNow] := List.filterMap_append
  rw [← hactions] at hresult
  rw [hresult]
  simp only [hreports, List.flatMap_append]
  refine ⟨?_, ?_, ?_, hlayer, hstore, env'.reportNow, ?_, ?_, ?_⟩
  · intro answer ha
    rcases List.mem_append.1 ha with ha | ha
    · exact hanswers answer ha
    · exact ⟨_, List.mem_singleton.1 ha⟩
  · rw [← hevaluated]
    simp [Moment.evaluated, reportNow]
  · refine List.Perm.trans ?_ hfailed
    simp [Moment.failed, reportNow]
  · simp
  · rw [← hpending]
    rfl
  · rw [← hpending]
    rfl

/-- Three modules that log, of which the second is offline, with one permit and two loads before and
after the document is ready: only the first module runs. -/
theorem Environment.run_plain_offline :
    let config := { Configuration.default with host := .browser, maxConcurrency := 1, aliases := [] }
    let bundle := Bundle.empty.add [("a.js", "log('a')"), ("c.js", "log('c')")]
      [("a.js", 20), ("c.js", 10)] [("b.js", .network "offline")]
    let specs := [ModuleSpec.mk "a" "a.js" false, ⟨"b", "b.js", false⟩, ⟨"c", "c.js", false⟩]
    ∃ made, make config (.concurrent (.bundle bundle)) = .ok made ∧
      let actions := [Action.load .insideEventLoop ["a", "b"], .documentReady .insideEventLoop,
        .load .insideEventLoop ["a", "c"], .settle]
      let (answers, after) := (made.withSpecs specs).run actions
      (reportsOf answers).flatMap (·.evaluated) = ["a"] ∧ after.layer.engine.output = ["a"] ∧
        ∃ report, answers.getLast? = some (.ok (some report)) ∧ report.pending = 2 ∧
          report.blockedOn = some "b" := by
  intro config bundle specs
  obtain ⟨made, hmade, hevaluates, houtput, hleft⟩ :
      ∃ made, make config (.concurrent (.bundle bundle)) = .ok made ∧
        let plain := Plain.load bundle.content config.wrapOptions
          ((["a", "b"] ++ ["a", "c"]).eraseDups.map (made.withSpecs specs).specFor)
          (made.withSpecs specs).layer
        plain.evaluated = ["a"] ∧ plain.layer.engine.output = ["a"] ∧ plain.left = ["b", "c"] :=
    ⟨_, rfl, by decide +kernel +revert⟩
  obtain ⟨-, hevaluated, -, hlayer, -, report, hlast, hpending, hblocked⟩ :=
    run_plain config rfl bundle (.concurrent (.bundle bundle)) (.inl rfl) made hmade specs
      [.load .insideEventLoop ["a", "b"]] [.load .insideEventLoop ["a", "c"]] (by decide)
  refine ⟨made, hmade, hevaluated.trans hevaluates, ?_, report, hlast, ?_, ?_⟩
  · exact (congrArg (·.engine.output) hlayer).trans houtput
  · exact hpending.trans (congrArg List.length hleft)
  · exact hblocked.trans (congrArg List.head? hleft)

end ModuleLoader
