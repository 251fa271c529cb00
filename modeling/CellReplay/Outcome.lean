import CellReplay.Reply
import CellReplay.Text.Blank
import CellReplay.Text.Join

/-!
# Outcome

What becomes of running a program, and what a caller is told about it.

* `Call`           — a program with its arguments and the time it may take.
* `Outcome`        — it ended, or it could not be run to its end.
* `Interpretation` — the reply for an outcome, and whether the program ended cleanly in time.
-/

namespace CellReplay

open Text

structure Call where
  program : String
  args : List String
  timeoutMs : Nat
  deriving DecidableEq, Repr

/-- A program that ended: with an exit code unless a signal ended it, and what it had printed. -/
structure Finished where
  exitCode : Option Int
  output : String
  deriving DecidableEq, Repr

def Finished.success (f : Finished) : Bool := f.exitCode = some 0

inductive RunFault
  | timeout (ms : Int)
  | spawnFailed (reason : String)
  | io (reason : String)
  deriving DecidableEq, Repr

def RunFault.message : RunFault → String
  | .timeout ms => "Process timeout after " ++ decimalInt ms ++ "ms"
  | .spawnFailed reason => "Spawn failed: " ++ reason
  | .io reason => "IO error: " ++ reason

abbrev Outcome := Except RunFault Finished

structure Interpretation where
  completed : Bool
  reply : Reply
  deriving DecidableEq, Repr

namespace Interpretation

/-- What replies begin with if the code failed, and if the program could not be started. -/
def executionError : String := "Error executing command, due to syntax or execution time : "
def launchError : String := "Error executing command, : "

def failed (content : String) : Interpretation := ⟨false, .error content⟩

/-- How an unclean end is described. -/
def ending : Option Int → String
  | some code => "process exited with status " ++ decimalInt code
  | none => "process was terminated by a signal"

/-- The reply for an outcome. Output is trimmed; behind an error it stands on lines of its own. -/
def ofOutcome : Outcome → Interpretation
  | .ok f =>
    let output := trimmed f.output
    if f.success then ⟨true, .ok output⟩
    else if output.isEmpty then failed (executionError ++ ending f.exitCode)
    else failed (executionError ++ ending f.exitCode ++ "\n" ++ output)
  | .error (.timeout ms) =>
    failed (executionError ++ "process timed out after " ++ decimalInt ms ++ "ms")
  | .error e => failed (launchError ++ e.message)

theorem completed_iff_isOk (o : Outcome) : (ofOutcome o).completed = (ofOutcome o).reply.isOk := by
  rcases o with e | f
  · cases e <;> rfl
  · simp only [ofOutcome]
    split
    · rfl
    · split <;> rfl

end Interpretation

end CellReplay
