import EpochClaims.Walkthrough.Basic

/-!
Prints the walkthrough for the environment of the process.
-/

open EpochClaims in
/-- Prints the lines of the walkthrough and returns its exit code. -/
def main : IO UInt32 := do
  let env : Config.Environment :=
    ⟨(← IO.getEnv Config.orchestratorVariable).map .text,
      ← IO.getEnv Config.validatorsVariable,
      (← IO.getEnv Config.policyVariable).map .text⟩
  let (lines, code) := Walkthrough.transcript env
  lines.forM IO.println
  return code
