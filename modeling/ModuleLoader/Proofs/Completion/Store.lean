import ModuleLoader.Completion.Store

/-!
# What a store says of its modules

A module is settled when an evaluation has left it behind, it is ready when its code is there and
waits, and in all other states it blocks the modules after it.  The module says what each move of a
store does to these three, and orders stores by `Follows`: only retrieved modules have changed, and
they are settled.
-/

set_option autoImplicit false

namespace ModuleLoader

namespace ModuleState

/-- The state in which an evaluation leaves a module. -/
def ofOutcome : Except EvaluationFailure Unit → ModuleState
  | .ok () => .evaluated
  | .error failure => .failed (.evaluation failure)

/-- Whether a state is one that an evaluation leaves. -/
def isSettled : ModuleState → Bool
  | .evaluated | .failed (.evaluation _) => true
  | _ => false

/-- A module is settled by the outcome of its evaluation. -/
@[simp] theorem isSettled_ofOutcome (result : Except EvaluationFailure Unit) :
    (ofOutcome result).isSettled = true := by
  cases result <;> rfl

/-- The settled states are those that evaluations come to. -/
theorem isSettled_iff {s : ModuleState} : s.isSettled = true ↔ ∃ result, s = ofOutcome result := by
  constructor
  · intro h
    match s, h with
    | .evaluated, _ => exact ⟨.ok (), rfl⟩
    | .failed (.evaluation failure), _ => exact ⟨.error failure, rfl⟩
  · rintro ⟨result, rfl⟩
    exact isSettled_ofOutcome result

/-- Nothing follows a settled state. -/
theorem allows_of_isSettled {s : ModuleState} (h : s.isSettled = true) (next : ModuleState) :
    s.allows next = false := by
  obtain ⟨result, rfl⟩ := isSettled_iff.1 h
  apply allows_of_isTerminal
  cases result <;> rfl

/-- A retrieved module may come to any outcome of its evaluation. -/
theorem allows_ofOutcome (code : String) (result : Except EvaluationFailure Unit) :
    (retrieved code).allows (ofOutcome result) = true := by
  cases result <;> rfl

end ModuleState

namespace ModuleStore

/-! ## Three kinds of modules -/

/-- The module has been evaluated, or has failed while it was. -/
def Settled (s : ModuleStore) (id : String) : Prop :=
  ∃ record, s.get? id = some record ∧ record.state.isSettled = true

/-- The module is unknown, still requested, or could not be retrieved. -/
def Blocks (s : ModuleStore) (id : String) : Prop :=
  ∀ record, s.get? id = some record →
    record.state = .requested ∨ ∃ failure, record.state = .failed (.retrieval failure)

/-- The module is retrieved and waits to be evaluated. -/
def Ready (s : ModuleStore) (id : String) (record : ModuleRecord) (code : String) : Prop :=
  s.get? id = some record ∧ record.state = .retrieved code

/-- A module is settled, blocks, or is ready to be evaluated. -/
theorem settled_or_blocks_or_ready (s : ModuleStore) (id : String) :
    s.Settled id ∨ s.Blocks id ∨ ∃ record code, s.Ready id record code := by
  cases h : s.get? id with
  | none => exact .inr (.inl fun record hr => by simp [h] at hr)
  | some record =>
    cases hs : record.state with
    | requested => exact .inr (.inl fun r hr => .inl (by simp_all))
    | retrieved code => exact .inr (.inr ⟨record, code, h, hs⟩)
    | evaluated => exact .inl ⟨record, h, by simp [hs, ModuleState.isSettled]⟩
    | failed cause =>
      cases cause with
      | retrieval failure => exact .inr (.inl fun r hr => .inr ⟨failure, by simp_all⟩)
      | evaluation failure => exact .inl ⟨record, h, by simp [hs, ModuleState.isSettled]⟩

/-- A settled module does not block. -/
theorem Settled.not_blocks {s : ModuleStore} {id : String} (h : s.Settled id) : ¬ s.Blocks id := by
  intro hb
  obtain ⟨record, hr, hs⟩ := h
  rcases hb record hr with he | ⟨failure, he⟩ <;> simp [he, ModuleState.isSettled] at hs

/-- A module that is ready is not settled. -/
theorem Ready.not_settled {s : ModuleStore} {id : String} {record : ModuleRecord} {code : String}
    (h : s.Ready id record code) : ¬ s.Settled id := by
  rintro ⟨r, hr, hs⟩
  obtain ⟨hg, hc⟩ := h
  rw [hg] at hr
  cases hr
  simp [hc, ModuleState.isSettled] at hs

/-- A module that is ready does not block. -/
theorem Ready.not_blocks {s : ModuleStore} {id : String} {record : ModuleRecord} {code : String}
    (h : s.Ready id record code) : ¬ s.Blocks id := by
  intro hb
  rcases hb record h.1 with he | ⟨failure, he⟩ <;> simp [h.2] at he

/-- Whether a module is settled depends on its record alone. -/
theorem Settled.congr {s t : ModuleStore} {id : String} (h : t.get? id = s.get? id) :
    t.Settled id ↔ s.Settled id := by
  unfold Settled
  rw [h]

/-- Whether a module blocks depends on its record alone. -/
theorem Blocks.congr {s t : ModuleStore} {id : String} (h : t.get? id = s.get? id) :
    t.Blocks id ↔ s.Blocks id := by
  unfold Blocks
  rw [h]

/-! ## Moves and evaluations -/

/-- A move that the record allows replaces the record's state and nothing else. -/
theorem advance_of_allows {s : ModuleStore} {id : String} {record : ModuleRecord}
    {next : ModuleState} (h : s.get? id = some record) (ha : record.state.allows next = true) :
    s.advance id next = (true, s.set id { record with state := next }) := by
  simp [advance, h, ModuleRecord.advance?, ha]

/-- A state that does not allow the next one is kept, and the store says so. -/
theorem advance_of_not_allows {s : ModuleStore} {id : String} {record : ModuleRecord}
    {next : ModuleState} (h : s.get? id = some record) (ha : record.state.allows next = false) :
    s.advance id next = (false, s) := by
  simp [advance, h, ModuleRecord.advance?, ha]

/-- A module without a record does not advance. -/
theorem advance_of_none {s : ModuleStore} {id : String} {next : ModuleState}
    (h : s.get? id = none) : s.advance id next = (false, s) := by
  simp [advance, h]

/-- The store after a retrieved module has been evaluated. -/
def conclude (s : ModuleStore) (id : String) (record : ModuleRecord)
    (result : Except EvaluationFailure Unit) : ModuleStore :=
  s.set id { record with state := .ofOutcome result }

/-- Concluding a module leaves the other records alone. -/
theorem get?_conclude_of_ne (s : ModuleStore) {id other : String} (record : ModuleRecord)
    (result : Except EvaluationFailure Unit) (h : other ≠ id) :
    (s.conclude id record result).get? other = s.get? other :=
  Table.get?_set_of_ne s _ h

/-- A concluded module is settled. -/
theorem settled_conclude (s : ModuleStore) (id : String) (record : ModuleRecord)
    (result : Except EvaluationFailure Unit) : (s.conclude id record result).Settled id :=
  ⟨_, Table.get?_set_self s id _, ModuleState.isSettled_ofOutcome result⟩

/-- What is settled stays so when a module is concluded. -/
theorem Settled.conclude {s : ModuleStore} {other : String} (h : s.Settled other) (id : String)
    (record : ModuleRecord) (result : Except EvaluationFailure Unit) :
    (s.conclude id record result).Settled other := by
  by_cases he : other = id
  · rw [he]
    exact settled_conclude s id record result
  · exact (Settled.congr (get?_conclude_of_ne s record result he)).2 h

/-! ## Stores that follow one another -/

/-- One store follows another when records differ only in that retrieved modules are settled. -/
def Follows (t s : ModuleStore) : Prop :=
  ∀ id, t.get? id = s.get? id ∨ ∃ record code result,
    s.Ready id record code ∧ t.get? id = some { record with state := .ofOutcome result }

/-- A store follows itself. -/
theorem Follows.refl (s : ModuleStore) : s.Follows s := fun _ => .inl rfl

/-- A store follows the one in which a module was ready that it has concluded. -/
theorem follows_conclude {s : ModuleStore} {id : String} {record : ModuleRecord} {code : String}
    (h : s.Ready id record code) (result : Except EvaluationFailure Unit) :
    (s.conclude id record result).Follows s := by
  intro other
  by_cases he : other = id
  · subst he
    exact .inr ⟨record, code, result, h, Table.get?_set_self s other _⟩
  · exact .inl (get?_conclude_of_ne s record result he)

/-- The record of a settled module is the same in every store that follows. -/
theorem Follows.get?_of_settled {t s : ModuleStore} (h : t.Follows s) {id : String}
    (hs : s.Settled id) : t.get? id = s.get? id := by
  rcases h id with he | ⟨record, code, result, hr, -⟩
  · exact he
  · exact absurd hs hr.not_settled

/-- What is settled stays so in every store that follows. -/
theorem Follows.settled {t s : ModuleStore} (h : t.Follows s) {id : String} (hs : s.Settled id) :
    t.Settled id := (Settled.congr (h.get?_of_settled hs)).2 hs

/-- A module that is retrieved later was retrieved before, with the same record. -/
theorem Follows.ready {t s : ModuleStore} (h : t.Follows s) {id : String} {record : ModuleRecord}
    {code : String} (hr : t.Ready id record code) : s.Ready id record code := by
  rcases h id with he | ⟨r, c, result, hs, ht⟩
  · exact ⟨he ▸ hr.1, hr.2⟩
  · refine absurd ?_ hr.not_settled
    exact ⟨_, ht, ModuleState.isSettled_ofOutcome result⟩

/-- What follows a store that follows another one follows this one too. -/
theorem Follows.trans {u t s : ModuleStore} (h : u.Follows t) (h' : t.Follows s) : u.Follows s := by
  intro id
  rcases h id with he | ⟨record, code, result, hr, hu⟩
  · rw [he]
    exact h' id
  · exact .inr ⟨record, code, result, h'.ready hr, hu⟩

/-! ## Registering, advancing and forcing -/

/-- A module gets a new record only if it has none. -/
theorem get?_ensure (s : ModuleStore) (spec : ModuleSpec) (id : String) :
    (s.ensure spec).2.get? id =
      if id = spec.id ∧ s.get? id = none then some (.requested spec) else s.get? id := by
  unfold ensure
  by_cases he : id = spec.id
  · subst he
    cases h : s.get? spec.id with
    | none => simp
    | some record => simp [h]
  · cases h : s.get? spec.id with
    | none => simp [he, Table.get?_set_of_ne]
    | some record => simp [he]

/-- What is settled stays so when a record is made. -/
theorem Settled.ensure {s : ModuleStore} {id : String} (h : s.Settled id) (spec : ModuleSpec) :
    (s.ensure spec).2.Settled id := by
  obtain ⟨record, hr, hs⟩ := h
  refine ⟨record, ?_, hs⟩
  rw [get?_ensure, if_neg (by simp [hr])]
  exact hr

/-- Advancing a module leaves the other records alone. -/
theorem get?_advance_of_ne (s : ModuleStore) {id other : String} (next : ModuleState)
    (h : other ≠ id) : (s.advance id next).2.get? other = s.get? other := by
  unfold advance
  split
  · exact Table.get?_set_of_ne s _ h
  · rfl

/-- What is settled stays so when a module advances, this one included. -/
theorem Settled.advance {s : ModuleStore} {other : String} (h : s.Settled other) (id : String)
    (next : ModuleState) : (s.advance id next).2.Settled other := by
  by_cases he : other = id
  · subst he
    obtain ⟨record, hr, hs⟩ := h
    rw [advance_of_not_allows hr (ModuleState.allows_of_isSettled hs next)]
    exact ⟨record, hr, hs⟩
  · exact (Settled.congr (get?_advance_of_ne s next he)).2 h

/-- A regular move either changes nothing, or replaces a state that allows it. -/
theorem advance_cases (s : ModuleStore) (id : String) (next : ModuleState) :
    s.advance id next = (false, s) ∨ ∃ record, s.get? id = some record ∧
      record.state.allows next = true ∧
      s.advance id next = (true, s.set id { record with state := next }) := by
  cases h : s.get? id with
  | none => exact .inl (advance_of_none h)
  | some record =>
    cases ha : record.state.allows next with
    | false => exact .inl (advance_of_not_allows h ha)
    | true => exact .inr ⟨record, rfl, ha, advance_of_allows h ha⟩

/-- Forcing the state of a module leaves the other records alone. -/
theorem get?_force_of_ne (s : ModuleStore) {id other : String} (state : ModuleState)
    (h : other ≠ id) : (s.force id state).get? other = s.get? other := by
  unfold force
  split <;> exact Table.get?_set_of_ne s _ h

/-- A forced module has the state it was given, in a bare record if it had none. -/
theorem get?_force_self (s : ModuleStore) (id : String) (state : ModuleState) :
    (s.force id state).get? id =
      some { (s.get? id).getD (.bare id state) with state := state } := by
  unfold force
  split
  · rename_i record h
    simp [h]
  · rename_i h
    simp [h, ModuleRecord.bare]

/-- A module that an outcome is forced on is settled. -/
theorem settled_force (s : ModuleStore) (id : String) (result : Except EvaluationFailure Unit) :
    (s.force id (.ofOutcome result)).Settled id :=
  ⟨_, get?_force_self s id _, ModuleState.isSettled_ofOutcome result⟩

/-- What is settled stays so when an outcome is forced on a module. -/
theorem Settled.force {s : ModuleStore} {other : String} (h : s.Settled other) (id : String)
    (result : Except EvaluationFailure Unit) : (s.force id (.ofOutcome result)).Settled other := by
  by_cases he : other = id
  · rw [he]
    exact settled_force s id result
  · exact (Settled.congr (get?_force_of_ne s _ he)).2 h

/-! ## Requested modules -/

/-- The module's retrieval has been asked for, and has come to nothing yet. -/
def Requested (s : ModuleStore) (id : String) : Prop :=
  ∃ record, s.get? id = some record ∧ record.state = .requested

/-- A requested module blocks. -/
theorem Requested.blocks {s : ModuleStore} {id : String} (h : s.Requested id) : s.Blocks id := by
  obtain ⟨record, hr, hs⟩ := h
  intro r hg
  rw [hr] at hg
  cases hg
  exact .inl hs

/-- The same modules are requested in a store that follows. -/
theorem Follows.requested {t s : ModuleStore} (h : t.Follows s) {id : String} :
    t.Requested id ↔ s.Requested id := by
  rcases h id with he | ⟨record, code, result, hr, ht⟩
  · unfold Requested
    rw [he]
  · constructor
    · rintro ⟨r, hg, hs⟩
      rw [ht] at hg
      cases hg
      cases result <;> cases hs
    · intro hs
      exact absurd hs.blocks hr.not_blocks

/-- The same modules are known in a store that follows. -/
theorem Follows.get?_eq_none {t s : ModuleStore} (h : t.Follows s) {id : String} :
    t.get? id = none ↔ s.get? id = none := by
  rcases h id with he | ⟨record, code, result, hr, ht⟩
  · rw [he]
  · simp [ht, hr.1]

/-- Advancing makes no module known. -/
theorem get?_advance_eq_none (s : ModuleStore) (id : String) (next : ModuleState) {other : String} :
    (s.advance id next).2.get? other = none ↔ s.get? other = none := by
  rcases s.advance_cases id next with h | ⟨record, hr, -, h⟩
  · rw [h]
  · rw [h, Table.get?_set]
    split
    · rename_i he
      simp [he, hr]
    · rfl

/-- After a module advanced beyond its request, only others are requested, and they were before. -/
theorem requested_of_advance {s : ModuleStore} {id : String} {next : ModuleState}
    (hn : next ≠ .requested) {other : String} (h : (s.advance id next).2.Requested other) :
    s.Requested other ∧ other ≠ id := by
  obtain ⟨r, hg, hs⟩ := h
  have hne : other ≠ id := by
    rintro rfl
    rcases s.advance_cases other next with ha | ⟨record, hr, -, ha⟩
    · rw [ha] at hg
      have hallows : r.state.allows next = true := by
        rw [hs]
        cases next <;> simp_all [ModuleState.allows]
      rw [advance_of_allows hg hallows] at ha
      cases ha
    · rw [ha, Table.get?_set_self] at hg
      cases hg
      exact hn hs
  rw [get?_advance_of_ne s next hne] at hg
  exact ⟨⟨r, hg, hs⟩, hne⟩

/-- Making a record adds at most its own module to those requested. -/
theorem requested_of_ensure {s : ModuleStore} {spec : ModuleSpec} {other : String}
    (h : (s.ensure spec).2.Requested other) : s.Requested other ∨ other = spec.id := by
  obtain ⟨r, hg, hs⟩ := h
  rw [get?_ensure] at hg
  split at hg
  · rename_i hc
    exact .inr hc.1
  · exact .inl ⟨r, hg, hs⟩

/-- Unknown are, after a record was made, the other modules that were unknown before. -/
theorem get?_ensure_eq_none (s : ModuleStore) (spec : ModuleSpec) {other : String} :
    (s.ensure spec).2.get? other = none ↔ s.get? other = none ∧ other ≠ spec.id := by
  rw [get?_ensure]
  by_cases he : other = spec.id
  · cases hg : s.get? other <;> simp [he]
  · simp [he]

/-- Forcing an outcome adds nothing to the modules requested. -/
theorem requested_of_force {s : ModuleStore} {id : String} {result : Except EvaluationFailure Unit}
    {other : String} (h : (s.force id (.ofOutcome result)).Requested other) : s.Requested other := by
  by_cases he : other = id
  · rw [he] at h
    exact absurd h.blocks (settled_force s id result).not_blocks
  · obtain ⟨r, hg, hs⟩ := h
    rw [get?_force_of_ne s _ he] at hg
    exact ⟨r, hg, hs⟩

/-- What is known stays so when a state is forced. -/
theorem get?_ne_none_of_force {s : ModuleStore} {other : String} (h : s.get? other ≠ none)
    (id : String) (state : ModuleState) : (s.force id state).get? other ≠ none := by
  by_cases he : other = id
  · rw [he, get?_force_self]
    simp
  · rwa [get?_force_of_ne s _ he]

end ModuleStore

end ModuleLoader
