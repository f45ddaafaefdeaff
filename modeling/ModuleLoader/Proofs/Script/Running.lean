import ModuleLoader.Proofs.Script.Trailing
import ModuleLoader.Script.Engine

/-!
# Running does not depend on where statements stand

A script that runs reads the places of its statements only to say where it failed.  Programs that
are alike but for their places therefore leave the same engine and the same names behind, with one
value or with one fault at places that correspond.  Main statements: `Run.statements_alike`, and
`Engine.evaluate_passedOver` for a source with lines behind it.
-/

set_option autoImplicit false

namespace ModuleLoader.Script

/-- Two outcomes of a script: one value, or one fault at the places of related spans. -/
def OutcomesAlike (σ : Span → Span → Prop) (r r' : Except ScriptError Value) : Prop :=
  (∃ v, r = .ok v ∧ r' = .ok v) ∨
    ∃ (fault : Fault) (s s' : Span), σ s s' ∧ r = .error (fault.at s.place) ∧
      r' = .error (fault.at s'.place)

/-- A program in two parts is run part by part, and the second only if the first succeeds. -/
theorem Run.statements_append (r : Run) (last : Value) (front rest : Program) :
    Run.statements r last (front ++ rest) =
      match Run.statements r last front with
      | (.ok v, r') => Run.statements r' v rest
      | (.error err, r') => (.error err, r') := by
  induction front generalizing r last with
  | nil => rfl
  | cons s front ih =>
    simp only [List.cons_append, Run.statements]
    cases r.perform s.action with
    | mk result r' =>
      cases result with
      | error f => rfl
      | ok v => exact ih r' v

/-- A run of two parts that succeeds is a run of the first and from there a run of the second. -/
theorem Run.exists_of_statements_append {r r' : Run} {last v : Value} {front rest : Program}
    (h : Run.statements r last (front ++ rest) = (.ok v, r')) :
    ∃ w mid, Run.statements r last front = (.ok w, mid) ∧ Run.statements mid w rest = (.ok v, r') := by
  rw [Run.statements_append] at h
  rcases hfront : Run.statements r last front with ⟨err | w, mid⟩
  · rw [hfront] at h
    cases h
  · rw [hfront] at h
    exact ⟨w, mid, rfl, h⟩

/-- Programs that differ in their spans alone do the same, and fail alike. -/
theorem Run.statements_alike {ρ : Span → Span → Prop} {program program' : Program}
    (h : List.Forall₂ (Statement.Alike ρ) program program') (r : Run) (last : Value) :
    OutcomesAlike ρ (Run.statements r last program).1 (Run.statements r last program').1 ∧
      (Run.statements r last program').2 = (Run.statements r last program).2 := by
  induction h generalizing r last with
  | nil => exact ⟨.inl ⟨last, rfl, rfl⟩, rfl⟩
  | @cons s s' program program' hs _ ih =>
    simp only [Run.statements, hs.action]
    cases r.perform s.action with
    | mk result r' =>
      cases result with
      | error f => exact ⟨.inr ⟨f, s.span, s'.span, hs.span, rfl, rfl⟩, rfl⟩
      | ok v => exact ih r' v

namespace Engine

/-- A source that is a program is run against the names bound for it. -/
theorem evaluate_of_ok {source : String} {program : Program} (h : parseProgram source = .ok program)
    (e : Engine) (bindings : Table Value) : e.evaluate source bindings =
      ((Run.statements ⟨e, bindings⟩ .undefined program).1,
        (Run.statements ⟨e, bindings⟩ .undefined program).2.engine) := by
  unfold evaluate
  rw [h]
  rfl

/-- A source that is no program leaves the engine as it is. -/
theorem evaluate_of_error {source : String} {err : SyntaxError}
    (h : parseProgram source = .error err) (e : Engine) (bindings : Table Value) :
    e.evaluate source bindings = (.error err.toScriptError, e) := by
  unfold evaluate
  rw [h]

/-- Lines are counted from one. -/
theorem one_le_line {e : Engine} {source : String} {bindings : Table Value} {err : ScriptError}
    (h : (e.evaluate source bindings).1 = .error err) : 1 ≤ err.line := by
  rcases parseProgram_places source with
    ⟨program, program', hok, -, hprogram⟩ | ⟨parse, -, herror, -, -, s, s', hplaces, hplace, -⟩
  · rw [evaluate_of_ok hok] at h
    rcases (Run.statements_alike hprogram ⟨e, bindings⟩ .undefined).1 with
      ⟨v, hv, -⟩ | ⟨fault, s, s', ⟨hwithin, -⟩, hfault, -⟩
    · cases hv.symm.trans h
    · cases hfault.symm.trans h
      exact hwithin.line_le.1
  · rw [evaluate_of_error herror] at h
    cases h
    show 1 ≤ parse.place.line
    rw [hplace]
    rcases hplaces with ⟨hwithin, -⟩ | ⟨hend, -⟩
    · exact hwithin.line_le.1
    · rw [hend, line_endOf]
      unfold lineCount
      omega

/-- A source with lines behind it that are passed over comes to what it comes to by itself, unless it
stops short: then it fails in the same words at the end of the lines. -/
theorem evaluate_passedOver {source lines : String} {v : List Char}
    (hlines : lines.toList = '\n' :: v) (h : PassedOver source lines) (e : Engine)
    (bindings : Table Value) :
    (¬StopsShort source ∧
      OutcomesAlike
        (fun s s' => Place.Within Place.start source.toList s.place ∧ s'.place = s.place)
        (e.evaluate source bindings).1 (e.evaluate (source ++ lines) bindings).1) ∨
      StopsShort source ∧ ∃ fault : Fault,
        (e.evaluate source bindings).1 = .error (fault.at (endOf source)) ∧
          (e.evaluate (source ++ lines) bindings).1 =
            .error (fault.at (endOf (source ++ lines))) := by
  rcases parseProgram_passedOver hlines h with
    ⟨program, program', hok, hok', hprogram⟩ |
      ⟨err, err', herror, herror', hcause, s, s', hplaces, hplace, hplace'⟩
  · left
    constructor
    · rintro ⟨cause, hstops⟩
      cases hok.symm.trans hstops
    · rw [evaluate_of_ok hok, evaluate_of_ok hok']
      exact (Run.statements_alike hprogram ⟨e, bindings⟩ .undefined).1
  · rw [evaluate_of_error herror, evaluate_of_error herror']
    have hown : err.toScriptError = (Fault.malformed err.cause).at s.place := by
      rw [← hplace]
      rfl
    have hwhole : err'.toScriptError = (Fault.malformed err.cause).at s'.place := by
      rw [← hplace', ← hcause]
      rfl
    rcases hplaces with ⟨hwithin, hsame⟩ | ⟨hend, hend'⟩
    · left
      constructor
      · rintro ⟨cause, hstops⟩
        cases herror.symm.trans hstops
        exact hwithin.ne_endOf hplace.symm
      · right
        exact ⟨_, s, s', ⟨hwithin, hsame⟩, congrArg _ hown, congrArg _ hwhole⟩
    · right
      refine ⟨⟨err.cause, ?_⟩, .malformed err.cause, ?_, ?_⟩
      · rw [herror, ← hend, ← hplace]
      · rw [hown, hend]
      · rw [hwhole, hend']

end Engine

end ModuleLoader.Script
