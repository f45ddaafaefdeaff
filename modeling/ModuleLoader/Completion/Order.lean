import ModuleLoader.Completion.Store

/-!
# Ordered completion

Retrievals finish in any order, but evaluation follows the load order.  The order has a cursor
before which every module is settled.  A flush walks on from the cursor: it evaluates retrieved
modules, passes settled ones, and stops at the first that is unknown, still requested or whose
retrieval failed.
-/

set_option autoImplicit false

namespace ModuleLoader

/-- What follows a failed evaluation. -/
inductive FailurePolicy where
  /-- Report it and go on with the next module. -/
  | failForward
  /-- Report it and stop. -/
  | failFast
deriving DecidableEq, Repr

/-- What one flush did. -/
structure FlushReport where
  /-- The modules evaluated, in order. -/
  evaluated : List String
  /-- The failures that were passed over, in order. -/
  failed : List EvaluationFailure
  /-- The module the order waits for. -/
  blockedOn : Option String
deriving DecidableEq, Repr

namespace FlushReport

/-- The report of a flush that did nothing. -/
def idle : FlushReport := ⟨[], [], none⟩

/-- The report of a flush that waits for a module. -/
def waitingFor (id : String) : FlushReport := ⟨[], [], some id⟩

/-- A report with one more evaluated module in front. -/
def withEvaluated (id : String) (r : FlushReport) : FlushReport :=
  { r with evaluated := id :: r.evaluated }

/-- A report with one more failure in front. -/
def withFailed (f : EvaluationFailure) (r : FlushReport) : FlushReport :=
  { r with failed := f :: r.failed }

end FlushReport

/-- The load order and how much of it is settled. -/
structure LoadOrder where
  order : List String
  cursor : Nat
deriving DecidableEq, Repr

namespace LoadOrder

/-- The order of a loader that was asked for nothing yet. -/
def initial : LoadOrder := ⟨[], 0⟩

/-- The order with a module at its end; the cursor stays. -/
def enqueue (o : LoadOrder) (id : String) : LoadOrder := { o with order := o.order ++ [id] }

/-- The modules from the cursor on. -/
def pending (o : LoadOrder) : List String := o.order.drop o.cursor

/-- Whether the cursor has passed every module. -/
def isDrained (o : LoadOrder) : Bool := o.cursor == o.order.length

end LoadOrder

/-- How a module's code is evaluated, on a state of its own that a failure may change too. -/
abbrev Evaluator (σ : Type) := ModuleRecord → String → σ → Except EvaluationFailure Unit × σ

/-- A flush in full: how many modules the cursor passed, what became of the records and of the
evaluator's state, and the report or the failure that stopped it. -/
structure Flush (σ : Type) where
  passed : Nat
  store : ModuleStore
  state : σ
  outcome : Except EvaluationFailure FlushReport

namespace Flush

variable {σ : Type}

/-- A flush that passed one more module first. -/
def passing (f : Flush σ) : Flush σ := { f with passed := f.passed + 1 }

/-- A flush whose report is changed; a failure that stopped it stays. -/
def reporting (g : FlushReport → FlushReport) (f : Flush σ) : Flush σ :=
  { f with outcome := f.outcome.map g }

/-- Walk over modules in turn: evaluate the retrieved ones, pass over the settled ones, and stop at
the first that is waited for or, where the policy says so, at the first that fails. -/
def through (policy : FailurePolicy) (evaluate : Evaluator σ) :
    List String → ModuleStore → σ → Flush σ
  | [], store, state => ⟨0, store, state, .ok .idle⟩
  | id :: rest, store, state =>
    match store.get? id with
    | none => ⟨0, store, state, .ok (.waitingFor id)⟩
    | some record =>
      match record.state with
      | .requested | .failed (.retrieval _) => ⟨0, store, state, .ok (.waitingFor id)⟩
      | .evaluated | .failed (.evaluation _) => (through policy evaluate rest store state).passing
      | .retrieved code =>
        match evaluate record code state with
        | (.ok (), state') =>
          ((through policy evaluate rest (store.advance id .evaluated).2 state').reporting
            (·.withEvaluated id)).passing
        | (.error failure, state') =>
          let store' := (store.advance id (.failed (.evaluation failure))).2
          match policy with
          | .failForward =>
            ((through policy evaluate rest store' state').reporting (·.withFailed failure)).passing
          | .failFast => ⟨1, store', state', .error failure⟩

end Flush

namespace LoadOrder

variable {σ : Type}

/-- Walk on from the cursor, and leave the cursor behind the modules that were passed. -/
def flush (o : LoadOrder) (policy : FailurePolicy) (evaluate : Evaluator σ) (store : ModuleStore)
    (state : σ) : LoadOrder × Flush σ :=
  let f := Flush.through policy evaluate o.pending store state
  ({ o with cursor := o.cursor + f.passed }, f)

end LoadOrder

end ModuleLoader
