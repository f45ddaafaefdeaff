import ModuleLoader.Proofs.Environment.Consistency

/-!
# Modules that wait

A module in transit waits for its retrieval, or was settled without it; no step changes its record
before it takes account of the retrieval.  No module is held back again once its retrieval was
started.  Main statement: `Steps.preserved`, what any number of steps leave of the records of modules
that are held back after them.
-/

set_option autoImplicit false

namespace ModuleLoader

namespace ModuleStore

/-- The module's record waits for a retrieval, or was settled without one. -/
def Waits (s : ModuleStore) (id : String) : Prop := s.Requested id ∨ s.Settled id

/-- Whether a module waits depends on its record alone. -/
theorem Waits.congr {s t : ModuleStore} {id : String} (h : t.get? id = s.get? id) :
    t.Waits id ↔ s.Waits id := by
  unfold Waits Requested Settled
  rw [h]

/-- The record of a module that waits is the same in every store that follows. -/
theorem Follows.get?_of_waits {t s : ModuleStore} (h : t.Follows s) {id : String}
    (hw : s.Waits id) : t.get? id = s.get? id := by
  rcases h id with he | ⟨record, code, result, hr, -⟩
  · exact he
  · rcases hw with hrequested | hsettled
    · exact absurd hrequested.blocks hr.not_blocks
    · exact absurd hsettled hr.not_settled

/-- A module that waits still does, or is settled, when an outcome is forced on one. -/
theorem Waits.force {s : ModuleStore} {other : String} (h : s.Waits other) (id : String)
    (result : Except EvaluationFailure Unit) : (s.force id (.ofOutcome result)).Waits other := by
  by_cases he : other = id
  · rw [he]
    exact .inr (settled_force s id result)
  · exact (Waits.congr (s.get?_force_of_ne _ he)).2 h

/-- A requested module is not settled. -/
theorem Requested.not_settled {s : ModuleStore} {id : String} (h : s.Requested id) :
    ¬ s.Settled id := fun hs => hs.not_blocks h.blocks

/-- A module that waits has come to an end just when it is settled. -/
theorem isTerminal_iff_settled {s : ModuleStore} {id : String} (h : s.Waits id) :
    (s.state? id).any (·.isTerminal) = true ↔ s.Settled id := by
  constructor
  · intro hterminal
    rcases h with ⟨record, hr, hs⟩ | hsettled
    · simp [state?, hr, hs, ModuleState.isTerminal] at hterminal
    · exact hsettled
  · rintro ⟨record, hr, hs⟩
    obtain ⟨result, he⟩ := ModuleState.isSettled_iff.1 hs
    cases result <;> simp [state?, hr, he, ModuleState.ofOutcome, ModuleState.isTerminal]

end ModuleStore

namespace Moment

open Environment

/-- Every module in transit waits for its retrieval, or was settled without it. -/
def Waiting (m : Moment) : Prop := ∀ id ∈ m.transit, m.env.store.Waits id

/-- A step leaves the records of modules alone that are in transit before and after it, and only
modules that were unknown come into transit. -/
theorem Step.waiting {m m' : Moment} (h : Step m m') (ha : m.Accounted) (hw : m.Waiting) :
    ∀ id ∈ m'.transit, (id ∈ m.transit ∧ m'.env.store.get? id = m.env.store.get? id) ∨
      (m.env.store.get? id = none ∧ m'.env.store.Requested id) := by
  obtain ⟨content, hc⟩ := m.env.transport.exists_serves
  cases (h.effect hc).2 with
  | moved unmoved due =>
    have hperm := due.map (·.id)
    rw [map_id_due, map_id_due] at hperm
    intro id hid
    exact .inl ⟨hperm.mem_iff.1 hid, by rw [unmoved.store]⟩
  | registered path new env log due =>
    have hperm := due.map (·.id)
    rw [List.map_cons, map_id_due, map_id_due] at hperm
    intro id hid
    rw [env]
    rcases List.mem_cons.1 (hperm.mem_iff.1 hid) with he | hid
    · refine .inr ⟨by rw [he]; exact new, .requested (m.env.specFor path), ?_, rfl⟩
      rw [ModuleStore.get?_ensure, he, if_pos ⟨rfl, new⟩]
    · refine .inl ⟨hid, ?_⟩
      rw [ModuleStore.get?_ensure, if_neg fun hn => ha.known id hid hn.2]
  | skipped path known moment =>
    rw [moment]
    exact fun id hid => .inl ⟨hid, rfl⟩
  | completed arrival mid unmoved due moment =>
    have hperm := due.map (·.id)
    rw [List.map_cons, map_id_due, map_id_due] at hperm
    obtain ⟨hnot, -⟩ := List.nodup_cons.1 (hperm.nodup_iff.1 ha.once)
    have hsame : m'.transit = mid.transit := by
      rw [← map_id_due content, ← map_id_due content, moment]
      exact congrArg _ (due_complete mid.env arrival.id arrival.result mid.hand mid.log)
    have hfollows : m'.env.store.Follows
        (m.env.store.advance arrival.id (.ofRetrieval arrival.result)).2 := by
      rw [moment, ← unmoved.store]
      exact mid.env.follows_complete arrival.id arrival.result
    intro id hid
    rw [hsame] at hid
    have hmem : id ∈ m.transit := hperm.mem_iff.2 (List.mem_cons_of_mem _ hid)
    have hne : id ≠ arrival.id := fun he => hnot (he ▸ hid)
    have hadvance := m.env.store.get?_advance_of_ne (.ofRetrieval arrival.result) hne
    refine .inl ⟨hmem, ?_⟩
    rw [hfollows.get?_of_waits ((ModuleStore.Waits.congr hadvance).2 (hw id hmem)), hadvance]

/-- The modules in transit wait, or are settled, after every step. -/
theorem Step.waiting_after {m m' : Moment} (h : Step m m') (ha : m.Accounted) (hw : m.Waiting) :
    m'.Waiting := by
  intro id hid
  rcases h.waiting ha hw id hid with ⟨hmem, hsame⟩ | ⟨-, hrequested⟩
  · exact (ModuleStore.Waits.congr hsame).2 (hw id hmem)
  · exact .inl hrequested

/-- What is known stays so in every step. -/
theorem Step.known {m m' : Moment} (h : Step m m') {id : String}
    (hknown : m.env.store.get? id ≠ none) : m'.env.store.get? id ≠ none := by
  obtain ⟨content, hc⟩ := m.env.transport.exists_serves
  cases (h.effect hc).2 with
  | moved unmoved due =>
    rw [unmoved.store]
    exact hknown
  | registered path new env log due =>
    rw [env, ne_eq, ModuleStore.get?_ensure_eq_none]
    exact fun hn => hknown hn.1
  | skipped path known moment =>
    rw [moment]
    exact hknown
  | completed arrival mid unmoved due moment =>
    have hfollows : m'.env.store.Follows
        (m.env.store.advance arrival.id (.ofRetrieval arrival.result)).2 := by
      rw [moment, ← unmoved.store]
      exact mid.env.follows_complete arrival.id arrival.result
    rw [ne_eq, hfollows.get?_eq_none, ModuleStore.get?_advance_eq_none]
    exact hknown

/-- What a step does to the modules in hand and to those held back. -/
inductive Handling (m m' : Moment) : Prop where
  | left (hand : m'.hand = m.hand) (pending : m'.env.pendingWrites = m.env.pendingWrites)
  | taken (path : String) (new : m.env.store.get? (m.env.specFor path).id = none)
      (hand : m'.hand = m.hand ++ [m.env.specFor path])
      (pending : m'.env.pendingWrites = m.env.pendingWrites)
  | held (spec : ModuleSpec) (hand : m.hand = spec :: m'.hand)
      (pending : m'.env.pendingWrites = m.env.pendingWrites ++ [spec])
  | released (hand : m'.hand = m.env.pendingWrites ++ m.hand) (pending : m'.env.pendingWrites = [])
      (ready : m'.env.documentWrite = false)
  | started (spec : ModuleSpec) (hand : m.hand = spec :: m'.hand)
      (pending : m'.env.pendingWrites = m.env.pendingWrites)

/-- Taking account of a retrieval lets nothing go. -/
theorem pendingWrites_complete (env : Environment) (id : String)
    (result : Except RetrievalFailure String) :
    (env.complete id result).2.pendingWrites = env.pendingWrites := by
  obtain ⟨store, order, layer, journal, progress, h⟩ := env.complete_frame id result
  rw [h]

/-- Moving retrievals on lets nothing go. -/
theorem pendingWrites_stir (env : Environment) (move : Schedule → Medium → Schedule × Medium) :
    (env.stir move).pendingWrites = env.pendingWrites := by
  obtain ⟨schedule, transport, h⟩ := env.stir_frame move
  rw [h]

/-- A step handles modules in hand and modules held back in one of the ways listed. -/
theorem Step.handling {m m' : Moment} (h : Step m m') : Handling m m' := by
  cases h with
  | announce env hand log level text => exact .left rfl rfl
  | register env hand log path new => exact .taken path new rfl rfl
  | skip env hand log path known => exact .left rfl rfl
  | hold env hand log spec held => exact .held spec rfl rfl
  | release env hand log => exact .released rfl rfl rfl
  | spawn env hand log spec medium concurrent => exact .started spec rfl rfl
  | fetch env hand log spec medium serial =>
    exact .started spec rfl (pendingWrites_complete _ spec.id _)
  | receive env hand log arrival rest arrived =>
    exact .left rfl (pendingWrites_complete _ arrival.id _)
  | await env hand log =>
    rw [await_eq_stir]
    exact .left rfl (pendingWrites_stir env _)
  | turn env hand log n =>
    rw [turn_eq_stir]
    exact .left rfl (pendingWrites_stir env _)
  | rouse env hand log n => exact .left rfl rfl
  | report env hand log =>
    obtain ⟨journal, hreport⟩ := env.report_frame
    rw [hreport]
    exact .left rfl rfl

/-- What is held back is in transit. -/
theorem heldBack_subset_transit (m : Moment) : m.heldBack ⊆ m.transit := by
  intro id hid
  simp only [transit, List.mem_append]
  exact .inl (.inl hid)

/-- No step holds back a module again whose retrieval was started. -/
theorem Step.mem_heldBack {m m' : Moment} (h : Step m m') {id : String} (hid : id ∈ m'.heldBack) :
    id ∈ m.heldBack ∨ m.env.store.get? id = none := by
  simp only [heldBack, List.map_append, List.mem_append] at hid ⊢
  cases h.handling with
  | left hand pending =>
    rw [hand, pending] at hid
    exact .inl hid
  | taken path new hand pending =>
    rw [hand, pending, List.map_append, List.mem_append] at hid
    rcases hid with (hid | hid) | hid
    · exact .inl (.inl hid)
    · exact .inr (List.mem_singleton.1 hid ▸ new)
    · exact .inl (.inr hid)
  | held spec hand pending =>
    rw [pending, List.map_append, List.mem_append] at hid
    rw [hand, List.map_cons, List.mem_cons]
    rcases hid with hid | hid | hid
    · exact .inl (.inl (.inr hid))
    · exact .inl (.inr hid)
    · exact .inl (.inl (.inl (List.mem_singleton.1 hid)))
  | released hand pending ready =>
    rw [hand, pending, List.map_append, List.mem_append] at hid
    rcases hid with (hid | hid) | hid
    · exact .inl (.inr hid)
    · exact .inl (.inl hid)
    · cases hid
  | started spec hand pending =>
    rw [pending] at hid
    rw [hand, List.map_cons]
    exact .inl (hid.imp_left (List.mem_cons_of_mem _))

/-- Until the modules held back are let go, none of them is taken off the list. -/
theorem Step.pendingWrites_subset {m m' : Moment} (h : Step m m')
    (hd : m'.env.documentWrite = true) : m.env.pendingWrites ⊆ m'.env.pendingWrites := by
  cases h.handling with
  | left hand pending => rw [pending]; exact List.Subset.refl _
  | taken path new hand pending => rw [pending]; exact List.Subset.refl _
  | held spec hand pending => rw [pending]; exact List.subset_append_left _ _
  | released hand pending ready =>
    rw [hd] at ready
    cases ready
  | started spec hand pending => rw [pending]; exact List.Subset.refl _

/-- What steps do to the records of the modules that are held back after them. -/
structure Preserved (m m' : Moment) : Prop where
  accounted : m'.Accounted
  waiting : m'.Waiting
  known : ∀ id, m.env.store.get? id ≠ none → m'.env.store.get? id ≠ none
  heldBack : ∀ id ∈ m'.heldBack,
    (id ∈ m.heldBack ∧ m'.env.store.get? id = m.env.store.get? id) ∨
      (m.env.store.get? id = none ∧ m'.env.store.Requested id)
  pending : m'.env.documentWrite = true → m.env.pendingWrites ⊆ m'.env.pendingWrites

/-- Any number of steps preserve the records of the modules that are held back after them. -/
theorem Steps.preserved {m m' : Moment} (h : Steps m m') (ha : m.Accounted) (hw : m.Waiting) :
    Preserved m m' := by
  induction h with
  | refl =>
    exact ⟨ha, hw, fun id hid => hid, fun id hid => .inl ⟨hid, rfl⟩, fun _ => List.Subset.refl _⟩
  | @tail mid m' hsteps hstep ih =>
    refine ⟨hstep.accounted ih.accounted, hstep.waiting_after ih.accounted ih.waiting,
      fun id hid => hstep.known (ih.known id hid), ?_, ?_⟩
    · intro id hid
      rcases hstep.waiting ih.accounted ih.waiting id (m'.heldBack_subset_transit hid) with
        ⟨hmem, hsame⟩ | ⟨hnew, hrequested⟩
      · -- A module in transit before the step is known, so it was held back before it, too.
        have hheld := (hstep.mem_heldBack hid).resolve_right (ih.accounted.known id hmem)
        rcases ih.heldBack id hheld with ⟨hfirst, hequal⟩ | ⟨hnew, hrequested⟩
        · exact .inl ⟨hfirst, hsame.trans hequal⟩
        · refine .inr ⟨hnew, ?_⟩
          obtain ⟨record, hr, hs⟩ := hrequested
          exact ⟨record, hsame.trans hr, hs⟩
      · refine .inr ⟨?_, hrequested⟩
        by_contra hknown
        exact ih.known id hknown hnew
    · intro hd
      exact List.Subset.trans (ih.pending (hstep.kept.documentWrite hd))
        (hstep.pendingWrites_subset hd)

end Moment

end ModuleLoader
