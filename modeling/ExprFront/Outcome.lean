import ExprFront.Failure

/-!
# Outcomes

An operation on a state either answers or fails, and either way it leaves a state
behind.  `runSteps` drives a sequence of such operations: what a failed step leaves is
where the next one starts.
-/

namespace ExprFront

/-- An answer, or a failure; either way the state that it leaves. -/
abbrev Outcome (σ α : Type) := EStateM.Result Failure σ α

/-- The states and answers of a run of steps.  A step that fails leaves its state to
the next one. -/
def runSteps {σ ι α : Type} (step : σ → ι → Outcome σ α) : σ → List ι → List (Except Failure α × σ)
  | _, [] => []
  | s, i :: is =>
    match step s i with
    | .ok a s' => (.ok a, s') :: runSteps step s' is
    | .error e s' => (.error e, s') :: runSteps step s' is

end ExprFront
