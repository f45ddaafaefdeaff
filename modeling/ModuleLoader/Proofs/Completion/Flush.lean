import Mathlib.Tactic.Push
import ModuleLoader.Completion.Order
import ModuleLoader.Proofs.Completion.Store

/-!
# What one flush does

A flush passes settled modules, evaluates retrieved ones and stops at all others.  Each of these has
one equation of `Flush.through`, and everything else about flushes is proved from them by
`through_induction`.  Main statement: `through_standing`, every module passed is settled afterwards
and no other record has changed.
-/

set_option autoImplicit false

namespace ModuleLoader

namespace FlushReport

/-- A report with what became of one more module in front. -/
def noting (id : String) : Except EvaluationFailure Unit → FlushReport → FlushReport
  | .ok (), r => r.withEvaluated id
  | .error failure, r => r.withFailed failure

end FlushReport

namespace Flush

open ModuleStore

variable {σ : Type} {policy : FailurePolicy} {evaluate : Evaluator σ} {id : String}
  {rest : List String} {store : ModuleStore} {state : σ}

/-- A flush stops at a module that blocks and waits for it. -/
theorem through_blocks (h : store.Blocks id) :
    through policy evaluate (id :: rest) store state = ⟨0, store, state, .ok (.waitingFor id)⟩ := by
  cases hg : store.get? id with
  | none => simp [through, hg]
  | some record =>
    rcases h record hg with he | ⟨failure, he⟩ <;> simp [through, hg, he]

/-- A flush passes over a settled module. -/
theorem through_settled (h : store.Settled id) :
    through policy evaluate (id :: rest) store state =
      (through policy evaluate rest store state).passing := by
  obtain ⟨record, hg, hs⟩ := h
  obtain ⟨result, he⟩ := ModuleState.isSettled_iff.1 hs
  cases result <;> simp [through, hg, he, ModuleState.ofOutcome]

/-- A flush evaluates a retrieved module and goes on, unless the evaluation fails and the loader is
to stop then. -/
theorem through_ready {record : ModuleRecord} {code : String}
    {result : Except EvaluationFailure Unit} {state' : σ} (h : store.Ready id record code)
    (he : evaluate record code state = (result, state'))
    (hgo : ∀ failure, result = .error failure → policy = .failForward) :
    through policy evaluate (id :: rest) store state =
      ((through policy evaluate rest (store.conclude id record result) state').reporting
        (.noting id result)).passing := by
  obtain ⟨hg, hs⟩ := h
  have ha := advance_of_allows hg (by rw [hs]; exact ModuleState.allows_ofOutcome code result)
  cases result with
  | ok u =>
    simp only [ModuleState.ofOutcome] at ha
    simp only [through, hg, hs, he, ha]
    rfl
  | error failure =>
    cases hgo failure rfl
    simp only [ModuleState.ofOutcome] at ha
    simp only [through, hg, hs, he, ha]
    rfl

/-- A flush that is to stop at a failed evaluation has passed the module that failed. -/
theorem through_stops {record : ModuleRecord} {code : String} {failure : EvaluationFailure}
    {state' : σ} (h : store.Ready id record code)
    (he : evaluate record code state = (.error failure, state')) :
    through .failFast evaluate (id :: rest) store state =
      ⟨1, store.conclude id record (.error failure), state', .error failure⟩ := by
  obtain ⟨hg, hs⟩ := h
  have ha := advance_of_allows hg
    (by rw [hs]; exact ModuleState.allows_ofOutcome code (.error failure))
  simp only [ModuleState.ofOutcome] at ha
  simp only [through, hg, hs, he, ha]
  rfl

/-- A flush does not go on only where an evaluation fails and the loader is to stop at failures. -/
theorem stops_of_not_goesOn {result : Except EvaluationFailure Unit}
    (h : ¬ ∀ failure, result = .error failure → policy = .failForward) :
    ∃ failure, result = .error failure ∧ policy = .failFast := by
  push Not at h
  obtain ⟨failure, hf, hp⟩ := h
  cases policy with
  | failForward => exact absurd rfl hp
  | failFast => exact ⟨failure, hf, rfl⟩

/-- A property of flushes holds if it holds of those that stop and is kept by those that pass one
more module. -/
theorem through_induction (policy : FailurePolicy) (evaluate : Evaluator σ)
    {motive : List String → ModuleStore → σ → Flush σ → Prop}
    (drained : ∀ store state, motive [] store state ⟨0, store, state, .ok .idle⟩)
    (blocked : ∀ id rest store state, store.Blocks id →
      motive (id :: rest) store state ⟨0, store, state, .ok (.waitingFor id)⟩)
    (settled : ∀ id rest store state f, store.Settled id → motive rest store state f →
      motive (id :: rest) store state f.passing)
    (ready : ∀ id rest store state record code result state' f, store.Ready id record code →
      evaluate record code state = (result, state') →
      (∀ failure, result = .error failure → policy = .failForward) →
      motive rest (store.conclude id record result) state' f →
      motive (id :: rest) store state (f.reporting (.noting id result)).passing)
    (stops : ∀ id rest store state record code failure state', store.Ready id record code →
      evaluate record code state = (.error failure, state') → policy = .failFast →
      motive (id :: rest) store state
        ⟨1, store.conclude id record (.error failure), state', .error failure⟩)
    (ids : List String) (store : ModuleStore) (state : σ) :
    motive ids store state (through policy evaluate ids store state) := by
  induction ids generalizing store state with
  | nil => exact drained store state
  | cons id rest ih =>
    rcases store.settled_or_blocks_or_ready id with hs | hb | ⟨record, code, hr⟩
    · rw [through_settled hs]
      exact settled id rest store state _ hs (ih store state)
    · rw [through_blocks hb]
      exact blocked id rest store state hb
    · obtain ⟨result, state', he⟩ : ∃ result state', evaluate record code state = (result, state') :=
        ⟨_, _, rfl⟩
      by_cases hgo : ∀ failure, result = .error failure → policy = .failForward
      · rw [through_ready hr he hgo]
        exact ready id rest store state record code result state' _ hr he hgo (ih _ state')
      · obtain ⟨failure, rfl, rfl⟩ := stops_of_not_goesOn hgo
        rw [through_stops hr he]
        exact stops id rest store state record code failure state' hr he rfl

/-- A flush that goes on after failures is never stopped by one, and ends at a module that blocks or
at the end. -/
theorem through_failForward (evaluate : Evaluator σ) (ids : List String) (store : ModuleStore)
    (state : σ) :
    let f := through .failForward evaluate ids store state
    (∃ r, f.outcome = .ok r) ∧ ∀ id ∈ (ids.drop f.passed).head?, f.store.Blocks id := by
  refine through_induction .failForward evaluate (motive := fun ids _ _ f =>
    (∃ r, f.outcome = .ok r) ∧ ∀ id ∈ (ids.drop f.passed).head?, f.store.Blocks id)
    ?drained ?blocked ?settled ?ready ?stops ids store state
  case drained =>
    intro store state
    exact ⟨⟨_, rfl⟩, by simp⟩
  case blocked =>
    intro id rest store state hb
    refine ⟨⟨_, rfl⟩, ?_⟩
    intro other ho
    rw [List.drop_zero, List.head?_cons, Option.mem_some_iff] at ho
    rw [← ho]
    exact hb
  case settled =>
    intro id rest store state f hs ih
    exact ih
  case ready =>
    intro id rest store state record code result state' f hr he hgo ⟨⟨r, hout⟩, hend⟩
    refine ⟨⟨r.noting id result, ?_⟩, hend⟩
    simp only [passing, reporting, hout]
    rfl
  case stops =>
    intro id rest store state record code failure state' hr he hp
    cases hp

/-- The modules a flush passes are settled afterwards, and no other record has changed. -/
theorem through_standing (ids : List String) (store : ModuleStore) (state : σ) :
    let f := through policy evaluate ids store state
    f.passed ≤ ids.length ∧ f.store.Follows store ∧
      ∀ id ∈ ids.take f.passed, f.store.Settled id := by
  refine through_induction policy evaluate (motive := fun ids store _ f => f.passed ≤ ids.length ∧
    f.store.Follows store ∧ ∀ id ∈ ids.take f.passed, f.store.Settled id)
    ?drained ?blocked ?settled ?ready ?stops ids store state
  case drained =>
    intro store state
    exact ⟨Nat.le_refl _, .refl _, by simp⟩
  case blocked =>
    intro id rest store state hb
    exact ⟨Nat.zero_le _, .refl _, by simp⟩
  case settled =>
    intro id rest store state f hs ⟨hle, hf, hall⟩
    refine ⟨Nat.succ_le_succ hle, hf, ?_⟩
    intro other ho
    rcases List.mem_cons.1 ho with rfl | ho
    · exact hf.settled hs
    · exact hall other ho
  case ready =>
    intro id rest store state record code result state' f hr he hgo ⟨hle, hf, hall⟩
    refine ⟨Nat.succ_le_succ hle, hf.trans (follows_conclude hr result), ?_⟩
    intro other ho
    rcases List.mem_cons.1 ho with rfl | ho
    · exact hf.settled (settled_conclude store other record result)
    · exact hall other ho
  case stops =>
    intro id rest store state record code failure state' hr he hp
    refine ⟨Nat.succ_le_succ (Nat.zero_le _), follows_conclude hr _, ?_⟩
    intro other ho
    simp only [List.take_succ_cons, List.take_zero, List.mem_singleton] at ho
    rw [ho]
    exact settled_conclude store id record _

end Flush

end ModuleLoader
