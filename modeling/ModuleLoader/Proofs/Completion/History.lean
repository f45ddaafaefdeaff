import ModuleLoader.Proofs.Completion.Flush

/-!
# The order of evaluation

A store of records and a load order are changed by any number of moves: records are made, advanced
and forced, modules are enqueued, and the order is flushed under either policy with any evaluator.
The history of such a run lists the payloads that records accepted, the modules settled by force,
and every call of an evaluator with the position in the load order that it was made for.  Main
statement: `run_inOrder`, the calls follow the load order, come at most once for each module, are
made with the one payload that its record accepted, and never after the module was settled.
-/

set_option autoImplicit false

namespace ModuleLoader

/-- A call of an evaluator, with the position in the load order that it was made for. -/
structure Call where
  position : Nat
  record : ModuleRecord
  code : String
deriving DecidableEq, Repr

/-! ## Calls of a flush -/

namespace Flush

variable {σ : Type}

/-- The calls a flush makes when the first module of the list has the given position. -/
def calls (policy : FailurePolicy) (evaluate : Evaluator σ) :
    Nat → List String → ModuleStore → σ → List Call
  | _, [], _, _ => []
  | position, id :: rest, store, state =>
    match store.get? id with
    | none => []
    | some record =>
      match record.state with
      | .requested | .failed (.retrieval _) => []
      | .evaluated | .failed (.evaluation _) => calls policy evaluate (position + 1) rest store state
      | .retrieved code =>
        ⟨position, record, code⟩ ::
          match evaluate record code state, policy with
          | (.error _, _), .failFast => []
          | (result, state'), _ =>
            calls policy evaluate (position + 1) rest (store.conclude id record result) state'

variable {policy : FailurePolicy} {evaluate : Evaluator σ} {id : String} {rest : List String}
  {store : ModuleStore} {state : σ}

/-- Nothing is called from a module on that blocks. -/
theorem calls_blocks (position : Nat) (h : store.Blocks id) :
    calls policy evaluate position (id :: rest) store state = [] := by
  cases hg : store.get? id with
  | none => simp [calls, hg]
  | some record => rcases h record hg with he | ⟨failure, he⟩ <;> simp [calls, hg, he]

/-- A settled module is passed over without a call. -/
theorem calls_settled (position : Nat) (h : store.Settled id) :
    calls policy evaluate position (id :: rest) store state =
      calls policy evaluate (position + 1) rest store state := by
  obtain ⟨record, hg, hs⟩ := h
  obtain ⟨result, he⟩ := ModuleState.isSettled_iff.1 hs
  cases result <;> simp [calls, hg, he, ModuleState.ofOutcome]

/-- One call is made for a retrieved module, before those for the modules after it. -/
theorem calls_ready (position : Nat) {record : ModuleRecord} {code : String}
    {result : Except EvaluationFailure Unit} {state' : σ} (h : store.Ready id record code)
    (he : evaluate record code state = (result, state'))
    (hgo : ∀ failure, result = .error failure → policy = .failForward) :
    calls policy evaluate position (id :: rest) store state =
      ⟨position, record, code⟩ ::
        calls policy evaluate (position + 1) rest (store.conclude id record result) state' := by
  obtain ⟨hg, hs⟩ := h
  cases result with
  | ok u => simp [calls, hg, hs, he]
  | error failure =>
    cases hgo failure rfl
    simp [calls, hg, hs, he]

/-- A module that fails under a loader that stops at failures is the last one called. -/
theorem calls_stops (position : Nat) {record : ModuleRecord} {code : String}
    {failure : EvaluationFailure} {state' : σ} (h : store.Ready id record code)
    (he : evaluate record code state = (.error failure, state')) :
    calls .failFast evaluate position (id :: rest) store state = [⟨position, record, code⟩] := by
  obtain ⟨hg, hs⟩ := h
  simp [calls, hg, hs, he]

end Flush

/-- An evaluator that also notes in its state what it is called with. -/
def Evaluator.recorded {σ : Type} (evaluate : Evaluator σ) :
    Evaluator (σ × List (ModuleRecord × String)) :=
  fun record code s =>
    ((evaluate record code s.1).1, (evaluate record code s.1).2, s.2 ++ [(record, code)])

namespace Flush

variable {σ : Type}

/-- The listed calls are those that the evaluator receives, whether or not it takes note of them. -/
theorem recorded_through (policy : FailurePolicy) (evaluate : Evaluator σ) (position : Nat)
    (ids : List String) (store : ModuleStore) (state : σ)
    (seen : List (ModuleRecord × String)) :
    calls policy evaluate.recorded position ids store (state, seen) =
        calls policy evaluate position ids store state ∧
      through policy evaluate.recorded ids store (state, seen) =
        let f := through policy evaluate ids store state
        { f with state := (f.state, seen ++
          (calls policy evaluate position ids store state).map fun c => (c.record, c.code)) } := by
  induction ids generalizing position store state seen with
  | nil => simp [through, calls]
  | cons id rest ih =>
    rcases store.settled_or_blocks_or_ready id with hs | hb | ⟨record, code, hr⟩
    · obtain ⟨hcalls, hthrough⟩ := ih (position + 1) store state seen
      rw [through_settled hs, through_settled hs, calls_settled position hs,
        calls_settled position hs, hthrough]
      exact ⟨hcalls, rfl⟩
    · rw [through_blocks hb, through_blocks hb, calls_blocks position hb, calls_blocks position hb]
      simp
    · obtain ⟨result, state', he⟩ : ∃ result state', evaluate record code state = (result, state') :=
        ⟨_, _, rfl⟩
      have her : evaluate.recorded record code (state, seen) =
          (result, state', seen ++ [(record, code)]) := by simp [Evaluator.recorded, he]
      by_cases hgo : ∀ failure, result = .error failure → policy = .failForward
      · obtain ⟨hcalls, hthrough⟩ := ih (position + 1) (store.conclude id record result) state'
          (seen ++ [(record, code)])
        rw [through_ready hr he hgo, through_ready hr her hgo, calls_ready position hr he hgo,
          calls_ready position hr her hgo, hcalls, hthrough]
        simp [passing, reporting]
      · obtain ⟨failure, rfl, rfl⟩ := stops_of_not_goesOn hgo
        rw [through_stops hr he, through_stops hr her, calls_stops position hr he,
          calls_stops position hr her]
        simp

end Flush

/-! ## Histories -/

namespace Completion

/-- What happens in a run of a store and a load order. -/
inductive Event where
  /-- A record took a payload. -/
  | accepted (id code : String)
  /-- A module was counted as loaded or as failed, whatever its state was. -/
  | settled (id : String)
  /-- An evaluator was called. -/
  | called (call : Call)
deriving DecidableEq, Repr

namespace Event

/-- The call that an event is, if it is one. -/
def call? : Event → Option Call
  | called c => some c
  | _ => none

/-- The id and payload of a record that took one. -/
def payload? : Event → Option (String × String)
  | accepted id code => some (id, code)
  | _ => none

end Event

/-- A history in which every call comes at a later position than the ones before it, is the first
of its module, has the payload that the module's record accepted, and is made for a module that was
not settled by force; and in which no record accepts two payloads. -/
inductive Orderly : List Event → Prop where
  | nil : Orderly []
  | accepted {history : List Event} (h : Orderly history) {id code : String}
      (first : ∀ other, .accepted id other ∉ history) : Orderly (history ++ [.accepted id code])
  | settled {history : List Event} (h : Orderly history) (id : String) :
      Orderly (history ++ [.settled id])
  | called {history : List Event} (h : Orderly history) {call : Call}
      (later : ∀ c, .called c ∈ history → c.position < call.position)
      (first : ∀ c, .called c ∈ history → c.record.id ≠ call.record.id)
      (payload : .accepted call.record.id call.code ∈ history)
      (unsettled : .settled call.record.id ∉ history) : Orderly (history ++ [.called call])

/-- A store, a load order and the state of an evaluator, with the history that led to them. -/
structure World (σ : Type) where
  store : ModuleStore
  order : LoadOrder
  state : σ
  history : List Event

/-- A move in a run. -/
inductive Move (σ : Type) where
  | ensure (spec : ModuleSpec)
  | advance (id : String) (next : ModuleState)
  | markLoaded (id : String)
  /-- Count a module as evaluated, or as failed in evaluation. -/
  | force (id : String) (result : Except EvaluationFailure Unit)
  | enqueue (id : String)
  | flush (policy : FailurePolicy) (evaluate : Evaluator σ)

variable {σ : Type}

namespace World

/-- Nothing has happened yet. -/
def initial (state : σ) : World σ := ⟨.empty, .initial, state, []⟩

/-- The event of a regular move: the payload, if the record took one. -/
def advanced (id : String) : Bool → ModuleState → List Event
  | true, .retrieved code => [.accepted id code]
  | _, _ => []

/-- Make one move. -/
def step (w : World σ) : Move σ → World σ
  | .ensure spec => { w with store := (w.store.ensure spec).2 }
  | .advance id next =>
    let (moved, store) := w.store.advance id next
    { w with store, history := w.history ++ advanced id moved next }
  | .markLoaded id =>
    { w with store := w.store.markLoaded id, history := w.history ++ [.settled id] }
  | .force id result =>
    { w with store := w.store.force id (.ofOutcome result), history := w.history ++ [.settled id] }
  | .enqueue id => { w with order := w.order.enqueue id }
  | .flush policy evaluate =>
    let (order, f) := w.order.flush policy evaluate w.store w.state
    let calls := Flush.calls policy evaluate w.order.cursor w.order.pending w.store w.state
    ⟨f.store, order, f.state, w.history ++ calls.map .called⟩

/-- Make several moves in turn. -/
def run (w : World σ) (moves : List (Move σ)) : World σ := moves.foldl step w

/-- The calls made so far, oldest first. -/
def calls (w : World σ) : List Call := w.history.filterMap Event.call?

/-- The payloads accepted so far, oldest first. -/
def payloads (w : World σ) : List (String × String) := w.history.filterMap Event.payload?

/-! ## What every move keeps -/

/-- What the history, the records and the order have to do with each other. -/
structure Consistent (w : World σ) : Prop where
  orderly : Orderly w.history
  /-- A record is kept under its own id. -/
  known : ∀ id record, w.store.get? id = some record → record.id = id
  passed : ∀ id ∈ w.order.order.take w.order.cursor, w.store.Settled id
  cursor_le : w.order.cursor ≤ w.order.order.length
  placed : ∀ c, .called c ∈ w.history →
    c.position < w.order.cursor ∧ w.order.order[c.position]? = some c.record.id
  subsequence : (w.calls.map (·.record.id)).Sublist (w.order.order.take w.order.cursor)
  called : ∀ c, .called c ∈ w.history → w.store.Settled c.record.id
  settled : ∀ id, .settled id ∈ w.history → w.store.Settled id
  accepted : ∀ id code, .accepted id code ∈ w.history →
    ∃ record, w.store.get? id = some record ∧ record.state ≠ .requested
  ready : ∀ id record code, w.store.Ready id record code → .accepted id code ∈ w.history

/-- At the start nothing has happened and nothing is ordered. -/
theorem consistent_initial (state : σ) : (initial state).Consistent where
  orderly := .nil
  known := by simp [initial]
  passed := by simp [initial, LoadOrder.initial]
  cursor_le := Nat.le_refl _
  placed := by simp [initial]
  subsequence := by simp [initial, calls]
  called := by simp [initial]
  settled := by simp [initial]
  accepted := by simp [initial]
  ready := by
    intro id record code h
    simp [initial, ModuleStore.Ready] at h

/-- Changing records keeps a world consistent if settled modules stay settled, no record goes back
to being requested, and no module becomes ready without an event. -/
theorem Consistent.restore {w : World σ} (h : w.Consistent) {store : ModuleStore}
    (known : ∀ id record, store.get? id = some record → record.id = id)
    (settled : ∀ id, w.store.Settled id → store.Settled id)
    (moved : ∀ id record, w.store.get? id = some record → record.state ≠ .requested →
      ∃ r, store.get? id = some r ∧ r.state ≠ .requested)
    (ready : ∀ id record code, store.Ready id record code →
      ∃ r, w.store.Ready id r code) : { w with store }.Consistent where
  orderly := h.orderly
  known := known
  passed id hid := settled id (h.passed id hid)
  cursor_le := h.cursor_le
  placed := h.placed
  subsequence := h.subsequence
  called c hc := settled _ (h.called c hc)
  settled id hid := settled id (h.settled id hid)
  accepted id code hid := by
    obtain ⟨record, hr, hs⟩ := h.accepted id code hid
    exact moved id record hr hs
  ready id record code hr := by
    obtain ⟨r, hr⟩ := ready id record code hr
    exact h.ready id r code hr

/-- Making a record keeps the history consistent with the store. -/
theorem Consistent.ensure {w : World σ} (h : w.Consistent) (spec : ModuleSpec) :
    { w with store := (w.store.ensure spec).2 }.Consistent := by
  refine h.restore ?known (fun id hs => hs.ensure spec) ?moved ?ready
  case known =>
    intro id record hr
    rw [ModuleStore.get?_ensure] at hr
    split at hr
    · rename_i hc
      cases hr
      exact hc.1.symm
    · exact h.known id record hr
  case moved =>
    intro id record hr hs
    refine ⟨record, ?_, hs⟩
    rw [ModuleStore.get?_ensure, if_neg (by simp [hr])]
    exact hr
  case ready =>
    rintro id record code ⟨hr, hs⟩
    rw [ModuleStore.get?_ensure] at hr
    split at hr
    · cases hr
      cases hs
    · exact ⟨record, hr, hs⟩

/-- A record whose state is changed keeps its id. -/
theorem Consistent.known_set {w : World σ} (h : w.Consistent) {id : String} {record : ModuleRecord}
    (hr : w.store.get? id = some record) (state : ModuleState) (other : String) (r : ModuleRecord)
    (ho : (w.store.set id { record with state := state }).get? other = some r) : r.id = other := by
  rw [Table.get?_set] at ho
  split at ho
  · rename_i he
    cases ho
    rw [he]
    exact h.known id record hr
  · exact h.known other r ho

/-- A record may go on to a state its own allows, if this is not a retrieved one, which has a
payload. -/
theorem Consistent.replace {w : World σ} (h : w.Consistent) {id : String} {record : ModuleRecord}
    (hr : w.store.get? id = some record) {next : ModuleState}
    (ha : record.state.allows next = true) (hn : ∀ code, next ≠ .retrieved code) :
    { w with store := w.store.set id { record with state := next } }.Consistent := by
  refine h.restore (h.known_set hr next) ?settled ?moved ?ready
  case settled =>
    intro other hs
    have hadv := hs.advance id next
    rwa [ModuleStore.advance_of_allows hr ha] at hadv
  case moved =>
    intro other r ho hs
    rw [Table.get?_set]
    split
    · refine ⟨_, rfl, ?_⟩
      rintro rfl
      cases hst : record.state <;> simp [hst, ModuleState.allows] at ha
    · exact ⟨r, ho, hs⟩
  case ready =>
    rintro other r code ⟨ho, hs⟩
    rw [Table.get?_set] at ho
    split at ho
    · cases ho
      exact absurd hs (hn code)
    · exact ⟨r, ho, hs⟩

/-- Settling a module by hand keeps the history consistent with the store. -/
theorem Consistent.force {w : World σ} (h : w.Consistent) (id : String)
    (result : Except EvaluationFailure Unit) :
    { w with store := w.store.force id (.ofOutcome result) }.Consistent := by
  refine h.restore ?known (fun other hs => hs.force id result) ?moved ?ready
  case known =>
    intro other r ho
    by_cases he : other = id
    · subst he
      rw [ModuleStore.get?_force_self] at ho
      cases ho
      cases hg : w.store.get? other with
      | none => rfl
      | some record => exact h.known other record hg
    · rw [ModuleStore.get?_force_of_ne _ _ he] at ho
      exact h.known other r ho
  case moved =>
    intro other r ho hs
    by_cases he : other = id
    · subst he
      refine ⟨_, ModuleStore.get?_force_self _ _ _, ?_⟩
      cases result <;> simp [ModuleState.ofOutcome]
    · exact ⟨r, by rw [ModuleStore.get?_force_of_ne _ _ he]; exact ho, hs⟩
  case ready =>
    intro other r code hr
    by_cases he : other = id
    · subst he
      exact absurd (ModuleStore.settled_force _ _ _) hr.not_settled
    · rw [ModuleStore.Ready, ModuleStore.get?_force_of_ne _ _ he] at hr
      exact ⟨r, hr⟩

/-- That a module was settled may be noted whenever it is settled. -/
theorem Consistent.noteSettled {w : World σ} (h : w.Consistent) {id : String}
    (hs : w.store.Settled id) :
    { w with history := w.history ++ [Event.settled id] }.Consistent where
  orderly := .settled h.orderly id
  known := h.known
  passed := h.passed
  cursor_le := h.cursor_le
  placed c hc := h.placed c (by simpa using hc)
  subsequence := by simpa [calls, List.filterMap_cons, Event.call?] using h.subsequence
  called c hc := h.called c (by simpa using hc)
  settled other ho := by
    rcases List.mem_append.1 ho with ho | ho
    · exact h.settled other ho
    · have he : other = id := by simpa using ho
      rw [he]
      exact hs
  accepted other code ho := h.accepted other code (by simpa using ho)
  ready other r code hr := List.mem_append_left _ (h.ready other r code hr)

/-- A record that is still requested may accept a payload, which is its first. -/
theorem Consistent.accept {w : World σ} (h : w.Consistent) {id : String} {record : ModuleRecord}
    (hr : w.store.get? id = some record) (hs : record.state = .requested) (code : String) :
    { w with
      store := w.store.set id { record with state := .retrieved code }
      history := w.history ++ [Event.accepted id code] }.Consistent := by
  have hset : ∀ other, w.store.Settled other →
      ModuleStore.Settled (w.store.set id { record with state := .retrieved code }) other := by
    intro other ho
    have hadv := ho.advance id (.retrieved code)
    rwa [ModuleStore.advance_of_allows hr (by rw [hs]; rfl)] at hadv
  have hfirst : ∀ other, Event.accepted id other ∉ w.history := by
    intro other ho
    obtain ⟨r, hg, hne⟩ := h.accepted id other ho
    rw [hr] at hg
    cases hg
    exact hne hs
  exact {
    orderly := .accepted h.orderly hfirst
    known := h.known_set hr _
    passed := fun other ho => hset other (h.passed other ho)
    cursor_le := h.cursor_le
    placed := fun c hc => h.placed c (by simpa using hc)
    subsequence := by simpa [calls, List.filterMap_cons, Event.call?] using h.subsequence
    called := fun c hc => hset _ (h.called c (by simpa using hc))
    settled := fun other ho => hset other (h.settled other (by simpa using ho))
    accepted := by
      intro other c ho
      show ∃ r, (w.store.set id _).get? other = some r ∧ r.state ≠ .requested
      rw [Table.get?_set]
      split
      · exact ⟨_, rfl, by simp⟩
      · rename_i hne
        have ho' : Event.accepted other c ∈ w.history := by simpa [hne] using ho
        exact h.accepted other c ho'
    ready := by
      rintro other r c ⟨ho, hc⟩
      rw [Table.get?_set] at ho
      split at ho
      · rename_i he
        cases ho
        cases hc
        simp [he]
      · exact List.mem_append_left _ (h.ready other r c ⟨ho, hc⟩) }

/-- Ordering a module keeps the history consistent with the store. -/
theorem Consistent.enqueue {w : World σ} (h : w.Consistent) (id : String) :
    { w with order := w.order.enqueue id }.Consistent := by
  have htake : (w.order.order ++ [id]).take w.order.cursor = w.order.order.take w.order.cursor :=
    List.take_append_of_le_length h.cursor_le
  exact {
    h with
    passed := by
      intro other ho
      rw [LoadOrder.enqueue, htake] at ho
      exact h.passed other ho
    cursor_le := by
      have hle := h.cursor_le
      simp only [LoadOrder.enqueue, List.length_append]
      omega
    placed := by
      intro c hc
      obtain ⟨hlt, hat⟩ := h.placed c hc
      have hle := h.cursor_le
      refine ⟨hlt, ?_⟩
      rw [LoadOrder.enqueue, List.getElem?_append_left (by omega)]
      exact hat
    subsequence := by
      rw [LoadOrder.enqueue, htake]
      exact h.subsequence }

/-- What the cursor has before it once it has passed the first pending module. -/
theorem take_passed {o : LoadOrder} {id : String} {rest : List String}
    (h : o.pending = id :: rest) :
    o.cursor < o.order.length ∧ o.order[o.cursor]? = some id ∧
      o.order.take (o.cursor + 1) = o.order.take o.cursor ++ [id] ∧
      o.order.drop (o.cursor + 1) = rest := by
  have hlt : o.cursor < o.order.length := by
    refine Nat.lt_of_not_le fun hge => ?_
    rw [LoadOrder.pending, List.drop_eq_nil_of_le hge] at h
    cases h
  have hcons := List.drop_eq_getElem_cons hlt
  rw [LoadOrder.pending, hcons] at h
  obtain ⟨rfl, hrest⟩ := List.cons.inj h
  exact ⟨hlt, List.getElem?_eq_getElem hlt, List.take_succ_eq_append_getElem hlt, hrest⟩

/-- The cursor may go past a settled module. -/
theorem Consistent.pass {w : World σ} (h : w.Consistent) {id : String} {rest : List String}
    (hp : w.order.pending = id :: rest) (hs : w.store.Settled id) :
    { w with order := { w.order with cursor := w.order.cursor + 1 } }.Consistent := by
  obtain ⟨hlt, -, htake, -⟩ := take_passed hp
  exact {
    h with
    passed := by
      intro other ho
      rw [htake] at ho
      rcases List.mem_append.1 ho with ho | ho
      · exact h.passed other ho
      · rw [List.mem_singleton.1 ho]
        exact hs
    cursor_le := hlt
    placed := by
      intro c hc
      obtain ⟨hc, hat⟩ := h.placed c hc
      exact ⟨Nat.lt_succ_of_lt hc, hat⟩
    subsequence := by
      rw [htake]
      exact h.subsequence.trans (List.sublist_append_left _ _) }

/-- The cursor may go past a module that is called and concluded. -/
theorem Consistent.call {w : World σ} (h : w.Consistent) {id : String} {rest : List String}
    (hp : w.order.pending = id :: rest) {record : ModuleRecord} {code : String}
    (hr : w.store.Ready id record code) (result : Except EvaluationFailure Unit) (state : σ) :
    Consistent ⟨w.store.conclude id record result,
      { w.order with cursor := w.order.cursor + 1 }, state,
      w.history ++ [Event.called ⟨w.order.cursor, record, code⟩]⟩ := by
  obtain ⟨hlt, hat, htake, -⟩ := take_passed hp
  have hid : record.id = id := h.known id record hr.1
  have hsettled : ∀ other, w.store.Settled other → (w.store.conclude id record result).Settled other :=
    fun other ho => ho.conclude id record result
  exact {
    orderly := by
      refine .called h.orderly ?later ?first ?payload ?unsettled
      case later =>
        intro c hc
        exact (h.placed c hc).1
      case first =>
        intro c hc he
        have hs := h.called c hc
        rw [he, hid] at hs
        exact hr.not_settled hs
      case payload =>
        rw [hid]
        exact h.ready id record code hr
      case unsettled =>
        intro hs
        rw [hid] at hs
        exact hr.not_settled (h.settled id hs)
    known := h.known_set hr.1 _
    passed := by
      intro other ho
      rw [htake] at ho
      rcases List.mem_append.1 ho with ho | ho
      · exact hsettled other (h.passed other ho)
      · rw [List.mem_singleton.1 ho]
        exact ModuleStore.settled_conclude w.store id record result
    cursor_le := hlt
    placed := by
      intro c hc
      rcases List.mem_append.1 hc with hc | hc
      · obtain ⟨hc, hcat⟩ := h.placed c hc
        exact ⟨Nat.lt_succ_of_lt hc, hcat⟩
      · obtain rfl : c = ⟨w.order.cursor, record, code⟩ := by simpa using hc
        refine ⟨Nat.lt_succ_self _, ?_⟩
        rw [hid]
        exact hat
    subsequence := by
      rw [htake]
      simpa [calls, List.filterMap_cons, Event.call?, hid] using
        h.subsequence.append (List.Sublist.refl [id])
    called := by
      intro c hc
      rcases List.mem_append.1 hc with hc | hc
      · exact hsettled _ (h.called c hc)
      · obtain rfl : c = ⟨w.order.cursor, record, code⟩ := by simpa using hc
        rw [hid]
        exact ModuleStore.settled_conclude w.store id record result
    settled := by
      intro other ho
      exact hsettled other (h.settled other (by simpa using ho))
    accepted := by
      intro other c ho
      show ∃ r, (w.store.set id _).get? other = some r ∧ r.state ≠ .requested
      rw [Table.get?_set]
      split
      · refine ⟨_, rfl, ?_⟩
        cases result <;> simp [ModuleState.ofOutcome]
      · exact h.accepted other c (by simpa using ho)
    ready := by
      intro other r c ho
      have hf := ModuleStore.follows_conclude hr result
      exact List.mem_append_left _ (h.ready other r c (hf.ready ho)) }

/-- A flush keeps the history consistent, call by call. -/
theorem Consistent.flush {w : World σ} (h : w.Consistent) (policy : FailurePolicy)
    (evaluate : Evaluator σ) : (w.step (.flush policy evaluate)).Consistent := by
  -- The flush is followed module by module: each one passed leaves a world of its own, and what
  -- remains is the flush of that world.
  refine Flush.through_induction policy evaluate
    (motive := fun ids store state f => ∀ w : World σ, w.Consistent → w.order.pending = ids →
      w.store = store → w.state = state →
      Consistent ⟨f.store, { w.order with cursor := w.order.cursor + f.passed }, f.state,
        w.history ++
          (Flush.calls policy evaluate w.order.cursor ids store state).map Event.called⟩)
    ?drained ?blocked ?settled ?ready ?stops w.order.pending w.store w.state w h rfl rfl rfl
  case drained =>
    rintro _ _ w h - rfl rfl
    simpa [Flush.calls] using h
  case blocked =>
    rintro id rest _ _ hb w h - rfl rfl
    simpa [Flush.calls_blocks _ hb] using h
  case settled =>
    rintro id rest _ _ f hs ih w h hp rfl rfl
    have hnext := ih _ (h.pass hp hs) (take_passed hp).2.2.2 rfl rfl
    rw [Flush.calls_settled _ hs]
    simpa [Flush.passing, Nat.add_assoc, Nat.add_comm 1] using hnext
  case ready =>
    rintro id rest _ _ record code result state' f hr he hgo ih w h hp rfl rfl
    have hnext := ih _ (h.call hp hr result state') (take_passed hp).2.2.2 rfl rfl
    rw [Flush.calls_ready _ hr he hgo]
    simpa [Flush.passing, Flush.reporting, Nat.add_assoc, Nat.add_comm 1] using hnext
  case stops =>
    rintro id rest _ _ record code failure state' hr he rfl w h hp rfl rfl
    rw [Flush.calls_stops _ hr he]
    exact h.call hp hr (.error failure) state'

/-- Every move keeps the history consistent with the store and the order. -/
theorem Consistent.step {w : World σ} (h : w.Consistent) (move : Move σ) :
    (w.step move).Consistent := by
  cases move with
  | ensure spec => exact h.ensure spec
  | advance id next =>
    rcases w.store.advance_cases id next with hno | ⟨record, hr, ha, hadv⟩
    · simpa [World.step, hno, advanced] using h
    · simp only [World.step, hadv]
      by_cases hn : ∀ code, next ≠ .retrieved code
      · have hnone : advanced id true next = [] := by
          cases next with
          | retrieved code => exact absurd rfl (hn code)
          | _ => rfl
        simpa [hnone] using h.replace hr ha hn
      · obtain ⟨code, rfl⟩ : ∃ code, next = .retrieved code := by
          push Not at hn
          exact hn
        -- Only a requested record allows a payload.
        have hs : record.state = .requested := by
          cases hst : record.state <;> simp [hst, ModuleState.allows] at ha ⊢
        exact h.accept hr hs code
  | markLoaded id => exact (h.force id (.ok ())).noteSettled (ModuleStore.settled_force _ id (.ok ()))
  | force id result => exact (h.force id result).noteSettled (ModuleStore.settled_force _ id result)
  | enqueue id => exact h.enqueue id
  | flush policy evaluate => exact h.flush policy evaluate

/-- So does every run. -/
theorem Consistent.run {w : World σ} (h : w.Consistent) (moves : List (Move σ)) :
    (w.run moves).Consistent := by
  induction moves generalizing w with
  | nil => exact h
  | cons move moves ih => exact ih (h.step move)

end World

/-! ## What an orderly history says -/

namespace Orderly

/-- A list of pairwise related elements may be extended by one that all of them are related to. -/
theorem pairwise_concat {α : Type} {R : α → α → Prop} {l : List α} {a : α} (h : l.Pairwise R)
    (ha : ∀ b ∈ l, R b a) : (l ++ [a]).Pairwise R := by
  rw [List.pairwise_append]
  refine ⟨h, List.pairwise_singleton R a, ?_⟩
  intro b hb c hc
  rw [List.mem_singleton.1 hc]
  exact ha b hb

/-- The calls of a history are the events that are calls. -/
theorem mem_calls {history : List Event} {c : Call} :
    c ∈ history.filterMap Event.call? ↔ .called c ∈ history := by
  rw [List.mem_filterMap]
  constructor
  · rintro ⟨e, he, hc⟩
    cases e <;> simp [Event.call?] at hc
    rwa [← hc]
  · intro h
    exact ⟨_, h, rfl⟩

/-- The payloads of a history are those of its events in which a record took one. -/
theorem mem_payloads {history : List Event} {p : String × String} :
    p ∈ history.filterMap Event.payload? ↔ .accepted p.1 p.2 ∈ history := by
  rw [List.mem_filterMap]
  constructor
  · rintro ⟨e, he, hp⟩
    cases e <;> simp [Event.payload?] at hp
    rwa [← hp]
  · intro h
    exact ⟨_, h, rfl⟩

/-- In an orderly history the calls are in the order of their positions, and no two are for one
module. -/
theorem pairwise_calls {history : List Event} (h : Orderly history) :
    (history.filterMap Event.call?).Pairwise fun c d =>
      c.position < d.position ∧ c.record.id ≠ d.record.id := by
  induction h with
  | nil => exact .nil
  | accepted h first ih => simpa [List.filterMap_cons, Event.call?] using ih
  | settled h id ih => simpa [List.filterMap_cons, Event.call?] using ih
  | @called history h call later first payload unsettled ih =>
    rw [List.filterMap_append]
    refine pairwise_concat ih fun c hc => ?_
    have hc := mem_calls.1 hc
    exact ⟨later c hc, first c hc⟩

/-- In an orderly history no module has two payloads. -/
theorem pairwise_payloads {history : List Event} (h : Orderly history) :
    (history.filterMap Event.payload?).Pairwise fun p q => p.1 ≠ q.1 := by
  induction h with
  | nil => exact .nil
  | @accepted history h id code first ih =>
    rw [List.filterMap_append]
    refine pairwise_concat ih fun p hp => ?_
    rintro rfl
    exact first _ (mem_payloads.1 hp)
  | settled h id ih => simpa [List.filterMap_cons, Event.payload?] using ih
  | called h later first payload unsettled ih =>
    simpa [List.filterMap_cons, Event.payload?] using ih

/-- An entry of a list with one more at its end is that one, or an entry of the list. -/
theorem split_concat {α : Type} {l before after : List α} {a b : α}
    (h : l ++ [a] = before ++ b :: after) :
    (before = l ∧ b = a) ∨ ∃ rest, l = before ++ b :: rest := by
  rcases List.eq_nil_or_concat after with rfl | ⟨rest, c, rfl⟩
  · obtain ⟨hl, ha⟩ := List.append_inj' h rfl
    exact .inl ⟨hl.symm, (List.cons.inj ha).1.symm⟩
  · right
    have hl : l ++ [a] = (before ++ b :: rest) ++ [c] := by
      rw [h, List.concat_eq_append, List.append_assoc, List.cons_append]
    exact ⟨rest, List.append_inj_left' hl rfl⟩

/-- What precedes a call in an orderly history: its payload, and no settling of its module. -/
theorem before_call {history : List Event} (h : Orderly history) {before after : List Event}
    {c : Call} (he : history = before ++ .called c :: after) :
    .accepted c.record.id c.code ∈ before ∧ .settled c.record.id ∉ before := by
  induction h generalizing after with
  | nil => simp at he
  | accepted h first ih =>
    rcases split_concat he with ⟨-, hc⟩ | ⟨rest, he⟩
    · cases hc
    · exact ih he
  | settled h id ih =>
    rcases split_concat he with ⟨-, hc⟩ | ⟨rest, he⟩
    · cases hc
    · exact ih he
  | called h later first payload unsettled ih =>
    rcases split_concat he with ⟨rfl, hc⟩ | ⟨rest, he⟩
    · cases hc
      exact ⟨payload, unsettled⟩
    · exact ih he

end Orderly

namespace World

/-- What holds of all evaluation in a world. -/
structure InOrder (w : World σ) : Prop where
  /-- Calls come in the order of the positions that they are made for. -/
  positions : (w.calls.map (·.position)).Pairwise (· < ·)
  /-- A call is for the module at its position. -/
  placed : ∀ c ∈ w.calls, w.order.order[c.position]? = some c.record.id
  /-- The calls are part of the load order. -/
  subsequence : (w.calls.map (·.record.id)).Sublist w.order.order
  /-- No module gets two calls. -/
  once : (w.calls.map (·.record.id)).Nodup
  /-- No record accepts two payloads. -/
  payloadOnce : (w.payloads.map (·.1)).Nodup
  /-- A call comes after the record has accepted the payload that the call is made with. -/
  payload : ∀ before c after, w.history = before ++ .called c :: after →
    .accepted c.record.id c.code ∈ before
  /-- A module that was settled by force gets no call any more. -/
  unsettled : ∀ before c after, w.history = before ++ .called c :: after →
    .settled c.record.id ∉ before
  /-- Every module before the cursor is evaluated, or has failed in evaluation. -/
  passed : ∀ id ∈ w.order.order.take w.order.cursor, w.store.Settled id

/-- A consistent history is in order. -/
theorem Consistent.inOrder {w : World σ} (h : w.Consistent) : w.InOrder where
  positions := by
    rw [List.pairwise_map]
    exact h.orderly.pairwise_calls.imp fun hc => hc.1
  placed c hc := (h.placed c (Orderly.mem_calls.1 hc)).2
  subsequence := h.subsequence.trans (List.take_sublist _ _)
  once := by
    rw [List.nodup_iff_pairwise_ne, List.pairwise_map]
    exact h.orderly.pairwise_calls.imp fun hc => hc.2
  payloadOnce := by
    rw [List.nodup_iff_pairwise_ne, List.pairwise_map]
    exact h.orderly.pairwise_payloads
  payload before c after he := (h.orderly.before_call he).1
  unsettled before c after he := (h.orderly.before_call he).2
  passed := h.passed

end World

/-! ## The listed calls are all calls -/

/-- The move in which an evaluator also notes what it is called with. -/
def Move.recorded : Move σ → Move (σ × List (ModuleRecord × String))
  | .ensure spec => .ensure spec
  | .advance id next => .advance id next
  | .markLoaded id => .markLoaded id
  | .force id result => .force id result
  | .enqueue id => .enqueue id
  | .flush policy evaluate => .flush policy evaluate.recorded

namespace World

/-- The world in which the evaluator's state also holds what it has been called with. -/
def recorded (w : World σ) : World (σ × List (ModuleRecord × String)) :=
  ⟨w.store, w.order, (w.state, w.calls.map fun c => (c.record, c.code)), w.history⟩

/-- Nothing is lost from calls that are taken out of their events again. -/
theorem filterMap_called (cs : List Call) : cs.filterMap (Event.call? ∘ Event.called) = cs :=
  List.filterMap_some

/-- An evaluator that takes notes changes nothing in a step but its notes. -/
theorem step_recorded (w : World σ) (move : Move σ) :
    w.recorded.step move.recorded = (w.step move).recorded := by
  cases move with
  | ensure spec => rfl
  | advance id next =>
    rcases w.store.advance_cases id next with hno | ⟨record, -, -, hadv⟩
    · simp [step, recorded, Move.recorded, hno, advanced, calls]
    · cases next <;> simp [step, recorded, Move.recorded, hadv, advanced, calls,
        List.filterMap_cons, Event.call?]
  | markLoaded id => simp [step, recorded, Move.recorded, calls, List.filterMap_cons, Event.call?]
  | force id result => simp [step, recorded, Move.recorded, calls, List.filterMap_cons, Event.call?]
  | enqueue id => rfl
  | flush policy evaluate =>
    obtain ⟨hcalls, hthrough⟩ := Flush.recorded_through policy evaluate w.order.cursor
      w.order.pending w.store w.state (w.calls.map fun c => (c.record, c.code))
    simp only [step, recorded, Move.recorded, LoadOrder.flush, hcalls, hthrough]
    simp only [calls, List.filterMap_append, List.filterMap_map, filterMap_called, List.map_append]

/-- So it is for a whole run. -/
theorem run_recorded (w : World σ) (moves : List (Move σ)) :
    w.recorded.run (moves.map Move.recorded) = (w.run moves).recorded := by
  induction moves generalizing w with
  | nil => rfl
  | cons move moves ih =>
    show (w.recorded.step move.recorded).run (moves.map Move.recorded) =
      ((w.step move).run moves).recorded
    rw [step_recorded, ih]

/-- In every run of moves on a new store and a new order all evaluation is in order, and the calls
of the run are those that its evaluators see. -/
theorem run_inOrder (state : σ) (moves : List (Move σ)) :
    ((initial state).run moves).InOrder ∧
      ((initial (state, [])).run (moves.map Move.recorded)).state.2 =
        ((initial state).run moves).calls.map fun c => (c.record, c.code) := by
  constructor
  · exact ((consistent_initial state).run moves).inOrder
  · have h := run_recorded (initial state) moves
    have hinit : (initial state).recorded = initial (state, []) := rfl
    rw [hinit] at h
    rw [h, recorded]

end World

end Completion

end ModuleLoader
