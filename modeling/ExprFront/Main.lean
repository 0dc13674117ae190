import ExprFront.CommandLine.Run

/-!
# The executable

Reads the standard input if a source asks for it, runs the command and prints what it
leaves.
-/

namespace ExprFront.CommandLine

/-- Does some source stand for the standard input? -/
def readsInput (argv : List String) : Bool :=
  match Arguments.read argv with
  | .ok a => "-" ∈ a.sources
  | .error _ => false

end ExprFront.CommandLine

/-- Runs the command on the process's arguments and streams. -/
def main (argv : List String) : IO UInt32 := do
  let stdin ← if ExprFront.CommandLine.readsInput argv then (← IO.getStdin).readToEnd else pure ""
  match ExprFront.CommandLine.run argv stdin with
  | .ok r =>
    (← IO.getStdout).putStr r.output
    (← IO.getStderr).putStr r.errors
    return r.status.toUInt32
  | .error e =>
    (← IO.getStderr).putStr (e.message ++ "\n")
    return 1
