import Mathlib.Data.List.Basic
import ModuleLoader.Proofs.Completion.History

/-!
# The modules that one flush evaluates

A flush comes as far as the first module that blocks, and evaluates the modules before it that wait,
each once, where it first occurs in the order.  The module says so of every store and every order, in
which modules may occur more than once or be unknown.  Main statement: `LoadOrder.flush_stretch`, what a
flush calls, reports, keeps and leaves, with and without an evaluation that stops it.
-/

set_option autoImplicit false

namespace ModuleLoader

/-! ## Modules that wait -/

/-- A module that waits to be evaluated: the id it is kept under, its record and its code. -/
structure ReadyModule where
  id : String
  record : ModuleRecord
  code : String
deriving DecidableEq, Repr

namespace ModuleStore

/-- The module kept under an id, if it waits to be evaluated. -/
def ready? (s : ModuleStore) (id : String) : Option ReadyModule :=
  (s.get? id).bind fun record =>
    match record.state with
    | .retrieved code => some ⟨id, record, code⟩
    | _ => none

/-- The modules of a list that wait to be evaluated, each once, in the order of their first
occurrences. -/
def readyAmong (s : ModuleStore) (ids : List String) : List ReadyModule :=
  (ids.filterMap s.ready?).eraseDups

instance (s : ModuleStore) (id : String) : Decidable (s.Blocks id) :=
  match h : s.get? id with
  | none => isTrue fun record hr => by simp [h] at hr
  | some record =>
    match hs : record.state with
    | .requested => isTrue fun r hr => .inl (by simp_all)
    | .failed (.retrieval failure) => isTrue fun r hr => .inr ⟨failure, by simp_all⟩
    | .retrieved _ | .evaluated | .failed (.evaluation _) =>
      isFalse fun hb => by simpa [hs] using hb record h

/-- The ids of a list before the first that blocks. -/
def stretch (s : ModuleStore) (ids : List String) : List String :=
  ids.takeWhile fun id => !decide (s.Blocks id)

variable {s : ModuleStore} {id : String} {rest : List String}

/-- A module is found ready just when it is retrieved, with the record and the code it has. -/
theorem ready?_eq_some_iff {m : ReadyModule} :
    s.ready? id = some m ↔ m.id = id ∧ s.Ready id m.record m.code := by
  unfold ready? Ready
  cases hg : s.get? id with
  | none => simp
  | some record =>
    cases m with
    | mk own kept code =>
      cases hs : record.state <;> simp [hs] <;> grind

/-- A settled module is not found ready. -/
theorem Settled.ready?_eq_none (h : s.Settled id) : s.ready? id = none := by
  cases hr : s.ready? id with
  | none => rfl
  | some m => exact absurd h (ready?_eq_some_iff.1 hr).2.not_settled

/-- The stretch ends before a module that blocks. -/
theorem stretch_blocks (h : s.Blocks id) : s.stretch (id :: rest) = [] := by
  simp [stretch, h]

/-- The stretch goes on past a module that does not block. -/
theorem stretch_passes (h : ¬ s.Blocks id) : s.stretch (id :: rest) = id :: s.stretch rest := by
  simp [stretch, h]

/-- A settled module is not among those ready. -/
theorem readyAmong_settled (h : s.Settled id) :
    s.readyAmong (id :: rest) = s.readyAmong rest := by
  rw [readyAmong, List.filterMap_cons_none h.ready?_eq_none]
  rfl

/-- The same modules block after one is concluded that was ready. -/
theorem blocks_conclude {record : ModuleRecord} {code : String} (h : s.Ready id record code)
    (result : Except EvaluationFailure Unit) (other : String) :
    (s.conclude id record result).Blocks other ↔ s.Blocks other := by
  by_cases he : other = id
  · rw [he]
    exact iff_of_false (settled_conclude s id record result).not_blocks h.not_blocks
  · exact Blocks.congr (get?_conclude_of_ne s record result he)

/-- Behind its stretch a list ends or goes on with a module that blocks. -/
theorem blocks_of_getElem?_stretch {ids : List String} {other : String}
    (h : ids[(s.stretch ids).length]? = some other) : s.Blocks other := by
  induction ids with
  | nil => cases h
  | cons first ids ih =>
    by_cases hb : s.Blocks first
    · rw [stretch_blocks hb] at h
      cases h
      exact hb
    · rw [stretch_passes hb] at h
      exact ih h

/-- Concluding a module that was ready leaves the stretch as it is. -/
theorem stretch_conclude {record : ModuleRecord} {code : String} (h : s.Ready id record code)
    (result : Except EvaluationFailure Unit) :
    (s.conclude id record result).stretch rest = s.stretch rest := by
  simp only [stretch, blocks_conclude h result]

/-- A module that has been evaluated does not wait any more, wherever else it occurs. -/
theorem filterMap_ready?_conclude {m : ReadyModule} (h : s.Ready m.id m.record m.code)
    (result : Except EvaluationFailure Unit) (ids : List String) :
    ids.filterMap (s.conclude m.id m.record result).ready? =
      (ids.filterMap s.ready?).filter (fun other => !other == m) := by
  induction ids with
  | nil => rfl
  | cons other ids ih =>
    by_cases he : other = m.id
    · have hnone := (settled_conclude s m.id m.record result).ready?_eq_none
      have hsome : s.ready? m.id = some m := ready?_eq_some_iff.2 ⟨rfl, h⟩
      rw [he, List.filterMap_cons_none hnone, List.filterMap_cons_some hsome, ih,
        List.filter_cons_of_neg (by simp)]
    · have hsame : (s.conclude m.id m.record result).ready? other = s.ready? other := by
        simp only [ready?, get?_conclude_of_ne s m.record result he]
      cases hr : s.ready? other with
      | none => rw [List.filterMap_cons_none (hsame.trans hr), List.filterMap_cons_none hr, ih]
      | some waiting =>
        have hne : waiting ≠ m := by
          rintro rfl
          exact he (ready?_eq_some_iff.1 hr).1.symm
        rw [List.filterMap_cons_some (hsame.trans hr), List.filterMap_cons_some hr, ih,
          List.filter_cons_of_pos (by simpa using hne)]

/-- The modules that wait are the first one and those that wait once it has been evaluated. -/
theorem readyAmong_ready {m : ReadyModule} (h : s.Ready m.id m.record m.code)
    (result : Except EvaluationFailure Unit) :
    s.readyAmong (m.id :: rest) =
      m :: (s.conclude m.id m.record result).readyAmong rest := by
  have hsome : s.ready? m.id = some m := ready?_eq_some_iff.2 ⟨rfl, h⟩
  rw [readyAmong, List.filterMap_cons_some hsome, List.eraseDups_cons, readyAmong,
    filterMap_ready?_conclude h]

/-- The modules found ready are so, with the record and the code noted of them. -/
theorem ready_of_mem_readyAmong {m : ReadyModule} {ids : List String}
    (h : m ∈ s.readyAmong ids) : s.Ready m.id m.record m.code := by
  obtain ⟨own, -, hown⟩ := List.mem_filterMap.1 (List.mem_eraseDups.1 h)
  obtain ⟨rfl, hready⟩ := ready?_eq_some_iff.1 hown
  exact hready

/-- A concluded module is not found ready again. -/
theorem id_ne_of_mem_readyAmong {m : ReadyModule} {record : ModuleRecord}
    {result : Except EvaluationFailure Unit} {ids : List String}
    (h : m ∈ (s.conclude id record result).readyAmong ids) : m.id ≠ id := by
  rintro rfl
  exact (ready_of_mem_readyAmong h).not_settled (settled_conclude s m.id record result)

end ModuleStore

/-! ## Evaluating them in turn -/

/-- What becomes of some modules that are evaluated in turn, whether an evaluation fails or not. -/
def Evaluator.inTurn {σ : Type} (evaluate : Evaluator σ) : List ReadyModule → σ →
    List (ReadyModule × Except EvaluationFailure Unit) × σ
  | [], state => ([], state)
  | m :: rest, state =>
    let (result, state) := evaluate m.record m.code state
    let (results, state) := evaluate.inTurn rest state
    ((m, result) :: results, state)

/-- A report on some modules and on what the flush waits for. -/
def FlushReport.on (results : List (ReadyModule × Except EvaluationFailure Unit))
    (blockedOn : Option String) : FlushReport where
  evaluated := results.filterMap fun
    | (m, .ok ()) => some m.id
    | (_, .error _) => none
  failed := results.filterMap fun
    | (_, .ok ()) => none
    | (_, .error failure) => some failure
  blockedOn := blockedOn

namespace Evaluator

variable {σ : Type} (evaluate : Evaluator σ)

/-- An evaluator that takes note of its calls is called with the modules, in their order. -/
theorem inTurn_recorded (modules : List ReadyModule) (state : σ)
    (seen : List (ModuleRecord × String)) :
    (evaluate.recorded.inTurn modules (state, seen)).1 = (evaluate.inTurn modules state).1 ∧
      (evaluate.recorded.inTurn modules (state, seen)).2 =
        ((evaluate.inTurn modules state).2, seen ++ modules.map fun m => (m.record, m.code)) := by
  induction modules generalizing state seen with
  | nil => simp [inTurn]
  | cons m rest ih =>
    obtain ⟨hresults, hstate⟩ :=
      ih (evaluate m.record m.code state).2 (seen ++ [(m.record, m.code)])
    simp only [inTurn, recorded, hresults, hstate, List.map_cons, List.append_assoc,
      List.singleton_append, and_self]

end Evaluator

namespace Flush

open ModuleStore

variable {σ : Type} {policy : FailurePolicy} {evaluate : Evaluator σ}

/-- A report of results, with one more result noted, is the report of the longer list. -/
theorem noting_on (m : ReadyModule) (result : Except EvaluationFailure Unit)
    (results : List (ReadyModule × Except EvaluationFailure Unit)) (blockedOn : Option String) :
    (FlushReport.on results blockedOn).noting m.id result =
      FlushReport.on ((m, result) :: results) blockedOn := by
  cases result <;> rfl

/-- A flush that no failure stops evaluates all modules that wait before the first that blocks, and
waits for that one. -/
theorem through_stretch (ids : List String) (store : ModuleStore) (state : σ)
    (hgo : policy = .failFast →
      ∀ e ∈ (evaluate.inTurn (store.readyAmong (store.stretch ids)) state).1, e.2 = .ok ()) :
    let modules := store.readyAmong (store.stretch ids)
    let f := through policy evaluate ids store state
    f.passed = (store.stretch ids).length ∧ f.state = (evaluate.inTurn modules state).2 ∧
      f.outcome = .ok (.on (evaluate.inTurn modules state).1 ids[f.passed]?) ∧
      (∀ e ∈ (evaluate.inTurn modules state).1,
        f.store.get? e.1.id = some { e.1.record with state := .ofOutcome e.2 }) ∧
      ∀ id ∉ modules.map (·.id), f.store.get? id = store.get? id := by
  induction ids generalizing store state with
  | nil => exact ⟨rfl, rfl, rfl, List.forall_mem_nil _, fun _ _ => rfl⟩
  | cons id rest ih =>
    rcases store.settled_or_blocks_or_ready id with hs | hb | ⟨record, code, hr⟩
    · rw [stretch_passes hs.not_blocks, readyAmong_settled hs] at hgo ⊢
      obtain ⟨hpassed, hstate, houtcome, hstore, hother⟩ := ih store state hgo
      rw [through_settled hs]
      exact ⟨congrArg (· + 1) hpassed, hstate, houtcome, hstore, hother⟩
    · rw [stretch_blocks hb, through_blocks hb]
      exact ⟨rfl, rfl, rfl, List.forall_mem_nil _, fun _ _ => rfl⟩
    · obtain ⟨result, state', he⟩ : ∃ result state', evaluate record code state = (result, state') :=
        ⟨_, _, rfl⟩
      let m : ReadyModule := ⟨id, record, code⟩
      have hwaiting : store.readyAmong (id :: store.stretch rest) =
          m :: (store.conclude id record result).readyAmong
            ((store.conclude id record result).stretch rest) := by
        rw [stretch_conclude hr]
        exact readyAmong_ready (m := m) hr result
      rw [stretch_passes hr.not_blocks, hwaiting] at hgo ⊢
      simp only [Evaluator.inTurn, m, he, List.forall_mem_cons] at hgo ⊢
      have hfirst : ∀ failure, result = .error failure → policy = .failForward := by
        rintro failure rfl
        cases policy with
        | failForward => rfl
        | failFast => cases (hgo rfl).1
      obtain ⟨hpassed, hstate, houtcome, hstore, hother⟩ :=
        ih (store.conclude id record result) state' fun hp => (hgo hp).2
      rw [through_ready hr he hfirst]
      have hlater : ∀ other ∈ (store.conclude id record result).readyAmong
          ((store.conclude id record result).stretch rest), other.id ≠ id :=
        fun other ho => id_ne_of_mem_readyAmong ho
      refine ⟨?passed, hstate, ?outcome, ⟨?own, hstore⟩, ?other⟩
      case passed =>
        rw [stretch_conclude hr] at hpassed
        exact congrArg (· + 1) hpassed
      case outcome =>
        simp only [passing, reporting, houtcome, List.getElem?_cons_succ]
        exact congrArg Except.ok (noting_on m result _ _)
      case own =>
        refine (hother id fun hmem => ?_).trans (Table.get?_set_self store id _)
        obtain ⟨other, ho, heq⟩ := List.mem_map.1 hmem
        exact hlater other ho heq
      case other =>
        intro other ho
        rw [List.map_cons, List.mem_cons, not_or] at ho
        exact (hother other ho.2).trans (get?_conclude_of_ne store record result ho.1)

/-- A flush whose first module blocks, or that has no module, does nothing. -/
theorem through_idle {ids : List String} {store : ModuleStore}
    (h : ∀ id, ids[0]? = some id → store.Blocks id) (state : σ) :
    through policy evaluate ids store state = ⟨0, store, state, .ok (.on [] ids[0]?)⟩ := by
  cases ids with
  | nil => rfl
  | cons id rest => exact through_blocks (h id rfl)

/-- A flush that a failure stops evaluates the modules that wait up to the one that fails, and comes
just past it. -/
theorem through_failure (ids : List String) (store : ModuleStore) (state : σ)
    {before : List ReadyModule} {m : ReadyModule} {after : List ReadyModule}
    {failure : EvaluationFailure} {final : σ}
    (hmodules : store.readyAmong (store.stretch ids) = before ++ m :: after)
    (hbefore : ∀ e ∈ (evaluate.inTurn before state).1, e.2 = .ok ())
    (hfails : evaluate m.record m.code (evaluate.inTurn before state).2 = (.error failure, final)) :
    let f := through .failFast evaluate ids store state
    f.passed = ids.idxOf m.id + 1 ∧ f.state = final ∧ f.outcome = .error failure ∧
      (∀ b ∈ before, f.store.get? b.id = some { b.record with state := .evaluated }) ∧
      f.store.get? m.id = some { m.record with state := .failed (.evaluation failure) } ∧
      ∀ id ∉ (before ++ [m]).map (·.id), f.store.get? id = store.get? id := by
  induction ids generalizing before store state with
  | nil => cases before <;> cases hmodules
  | cons id rest ih =>
    rcases store.settled_or_blocks_or_ready id with hs | hb | ⟨record, code, hr⟩
    · rw [stretch_passes hs.not_blocks, readyAmong_settled hs] at hmodules
      obtain ⟨hpassed, hfinal⟩ := ih store state hmodules hbefore hfails
      have hne : id ≠ m.id := by
        rintro rfl
        have hmem : m ∈ store.readyAmong (store.stretch rest) := by simp [hmodules]
        exact (ready_of_mem_readyAmong hmem).not_settled hs
      rw [through_settled hs, List.idxOf_cons_ne _ hne]
      exact ⟨congrArg (· + 1) hpassed, hfinal⟩
    · rw [stretch_blocks hb] at hmodules
      cases before <;> cases hmodules
    · rw [stretch_passes hr.not_blocks] at hmodules
      cases before with
      | nil =>
        rw [readyAmong_ready (m := ⟨id, record, code⟩) hr (.error failure)] at hmodules
        obtain ⟨rfl, -⟩ := List.cons.inj hmodules
        have hstops : through .failFast evaluate (id :: rest) store state =
            ⟨1, store.conclude id record (.error failure), final, .error failure⟩ :=
          through_stops hr hfails
        rw [hstops]
        refine ⟨by simp, rfl, rfl, nofun, Table.get?_set_self store id _, ?_⟩
        intro other ho
        exact get?_conclude_of_ne store record _ (by simpa using ho)
      | cons b before =>
        simp only [Evaluator.inTurn, List.forall_mem_cons] at hbefore hfails
        obtain ⟨hok, hbefore⟩ := hbefore
        rw [readyAmong_ready (m := ⟨id, record, code⟩) hr (.ok ()), List.cons_append] at hmodules
        obtain ⟨rfl, htail⟩ := List.cons.inj hmodules
        have hlater : ∀ other ∈ before ++ m :: after, other.id ≠ id :=
          fun other ho => id_ne_of_mem_readyAmong (htail ▸ ho)
        rw [← stretch_conclude hr (.ok ())] at htail
        obtain ⟨hpassed, hstate, houtcome, hdone, hfailed, hother⟩ :=
          ih _ (evaluate record code state).2 htail hbefore hfails
        rw [through_ready hr (Prod.ext hok rfl) nofun,
          List.idxOf_cons_ne _ (hlater m (by simp)).symm]
        refine ⟨congrArg (· + 1) hpassed, hstate, ?outcome, ?done, hfailed, ?other⟩
        case outcome =>
          simp only [passing, reporting, houtcome]
          rfl
        case done =>
          refine List.forall_mem_cons.2 ⟨?_, hdone⟩
          refine (hother id fun hmem => ?_).trans (Table.get?_set_self store id _)
          obtain ⟨other, ho, heq⟩ := List.mem_map.1 hmem
          refine hlater other ?_ heq
          rw [List.mem_append, List.mem_singleton] at ho
          simpa using ho.imp_right .inl
        case other =>
          intro other ho
          rw [List.cons_append, List.map_cons, List.mem_cons, not_or] at ho
          exact (hother other ho.2).trans (get?_conclude_of_ne store record _ ho.1)

end Flush

/-! ## One flush -/

namespace LoadOrder

open ModuleStore

variable {σ : Type}

/-- One flush of any order over any store.  It comes as far as the first module from the cursor on
that blocks: it evaluates each module before it that waits, once and in order, reports those that
succeeded, those that failed and the one it waits for, changes no other record, and has nothing left
to do for another flush.  Where the loader is to stop at a failure and an evaluation fails, it does so
up to the first that fails, whose failure it answers: the cursor is just past that module, the modules
evaluated before it are evaluated, it has failed, and all other records are as they were. -/
theorem flush_stretch (o : LoadOrder) (policy : FailurePolicy) (evaluate : Evaluator σ)
    (store : ModuleStore) (state : σ) :
    let modules := store.readyAmong (store.stretch o.pending)
    let results := (evaluate.inTurn modules state).1
    let stop := o.cursor + (store.stretch o.pending).length
    let f := o.flush policy evaluate store state
    let noted := (o.flush policy evaluate.recorded store (state, [])).2.state
    f.1.order = o.order ∧
      (∀ id, o.order[stop]? = some id → store.Blocks id) ∧
      ((policy = .failFast → ∀ e ∈ results, e.2 = .ok ()) →
        f.2.outcome = .ok (.on results o.order[stop]?) ∧ f.1.cursor = stop ∧
          noted = (f.2.state, modules.map fun m => (m.record, m.code)) ∧
          (∀ e ∈ results,
            f.2.store.get? e.1.id = some { e.1.record with state := .ofOutcome e.2 }) ∧
          (∀ id ∉ modules.map (·.id), f.2.store.get? id = store.get? id) ∧
          ∀ policy' (evaluate' : Evaluator σ) state',
            f.1.flush policy' evaluate' f.2.store state' =
              (f.1, ⟨0, f.2.store, state', .ok (.on [] o.order[stop]?)⟩)) ∧
      (policy = .failFast → ∀ (before : List ReadyModule) (m : ReadyModule)
          (after : List ReadyModule) (failure : EvaluationFailure), modules = before ++ m :: after →
        (∀ e ∈ (evaluate.inTurn before state).1, e.2 = .ok ()) →
        (evaluate m.record m.code (evaluate.inTurn before state).2).1 = .error failure →
        f.2.outcome = .error failure ∧ f.1.cursor = o.cursor + o.pending.idxOf m.id + 1 ∧
          noted = (f.2.state, (before ++ [m]).map fun m => (m.record, m.code)) ∧
          (∀ b ∈ before, f.2.store.get? b.id = some { b.record with state := .evaluated }) ∧
          f.2.store.get? m.id =
            some { m.record with state := .failed (.evaluation failure) } ∧
          ∀ id ∉ (before ++ [m]).map (·.id), f.2.store.get? id = store.get? id) := by
  intro modules results stop f noted
  have hblocks : ∀ id, o.order[stop]? = some id → store.Blocks id := by
    intro id hid
    rw [← List.getElem?_drop] at hid
    exact blocks_of_getElem?_stretch hid
  refine ⟨rfl, hblocks, ?goes, ?fails⟩
  case goes =>
    intro hgo
    obtain ⟨hpassed, hstate, houtcome, hstore, hother⟩ :=
      Flush.through_stretch o.pending store state hgo
    have hcursor : f.1.cursor = stop := congrArg (o.cursor + ·) hpassed
    have hwaits : o.pending[(store.stretch o.pending).length]? = o.order[stop]? :=
      List.getElem?_drop
    rw [hpassed, hwaits] at houtcome
    obtain ⟨hresults, hnoted⟩ := evaluate.inTurn_recorded modules state []
    have hcalls := (@Flush.through_stretch _ policy evaluate.recorded o.pending store
      (state, []) (fun hp => by rw [hresults]; exact hgo hp)).2.1
    refine ⟨houtcome, hcursor, ?_, hstore, hother, ?_⟩
    · rw [show f.2.state = (evaluate.inTurn modules state).2 from hstate]
      exact hcalls.trans hnoted
    · intro policy' evaluate' state'
      have hnext : f.1.pending[0]? = o.order[stop]? := by
        rw [LoadOrder.pending, hcursor, List.getElem?_drop]
        rfl
      -- The module waited for is not one of those evaluated, so its record is as before.
      have hstill : ∀ id, f.1.pending[0]? = some id → f.2.store.Blocks id := by
        intro id hid
        have hb := hblocks id (hnext.symm.trans hid)
        refine (Blocks.congr (hother id fun hmem => ?_)).2 hb
        obtain ⟨m, hm, rfl⟩ := List.mem_map.1 hmem
        exact (ready_of_mem_readyAmong hm).not_blocks hb
      rw [LoadOrder.flush, Flush.through_idle hstill, hnext]
      rfl
  case fails =>
    rintro rfl before m after failure hmodules hbefore hfailure
    obtain ⟨hpassed, hstate, houtcome, hdone, hfailed, hother⟩ :=
      Flush.through_failure o.pending store state hmodules hbefore (Prod.ext hfailure rfl)
    obtain ⟨hresults, hnoted⟩ := evaluate.inTurn_recorded before state []
    have hcalls := (@Flush.through_failure _ evaluate.recorded o.pending store (state, []) before
      m after failure _ hmodules (by rw [hresults]; exact hbefore)
      (Prod.ext (by rw [hnoted]; exact hfailure) rfl)).2.1
    refine ⟨houtcome, ?_, ?_, hdone, hfailed, hother⟩
    · show o.cursor + _ = _
      rw [hpassed, Nat.add_assoc]
    · rw [show f.2.state = (evaluate m.record m.code (evaluate.inTurn before state).2).2 from hstate,
        show noted = (evaluate.recorded m.record m.code (evaluate.recorded.inTurn before
          (state, [])).2).2 from hcalls, hnoted, List.map_append]
      rfl

/-- Under an order in which the first module occurs twice, the second one fails and stops the flush:
the third is left as it was, and the cursor is just past the second. -/
theorem flush_stretch_stopped :
    let waiting := fun id => ModuleRecord.bare id (.retrieved ("code of " ++ id))
    let store : ModuleStore := .ofList [("a", waiting "a"), ("b", waiting "b"), ("c", waiting "c")]
    let failure : EvaluationFailure := ⟨"b", "Uncaught boom", some 1, none⟩
    let evaluate : Evaluator (List String) := fun record _ seen =>
      (if record.id = "b" then .error failure else .ok (), seen ++ [record.id])
    let o : LoadOrder := ⟨["a", "a", "b", "c", "d"], 0⟩
    let f := o.flush .failFast evaluate store []
    f.2.outcome = .error failure ∧ f.1.cursor = 3 ∧
      f.2.store.get? "b" = some (.bare "b" (.failed (.evaluation failure))) ∧
      f.2.store.get? "c" = some (waiting "c") := by
  intro waiting store failure evaluate o f
  have hmodules : store.readyAmong (store.stretch o.pending) =
      [⟨"a", waiting "a", "code of a"⟩] ++
        ⟨"b", waiting "b", "code of b"⟩ :: [⟨"c", waiting "c", "code of c"⟩] := by
    decide +kernel +revert
  have hbefore : ∀ e ∈ (evaluate.inTurn [⟨"a", waiting "a", "code of a"⟩] []).1, e.2 = .ok () :=
    List.forall_mem_singleton.2 rfl
  have hcursor : o.cursor + o.pending.idxOf "b" + 1 = 3 := by decide +kernel +revert
  have hother : store.get? "c" = some (waiting "c") := by decide +kernel +revert
  obtain ⟨-, -, -, hstops⟩ := o.flush_stretch .failFast evaluate store []
  obtain ⟨houtcome, hpast, -, -, hfailed, hkept⟩ :=
    hstops rfl _ _ _ failure hmodules hbefore rfl
  exact ⟨houtcome, hpast.trans hcursor, hfailed, (hkept "c" (by decide)).trans hother⟩

end LoadOrder

end ModuleLoader
