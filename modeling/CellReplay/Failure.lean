import CellReplay.Request

/-!
# Failure

Failures of the operations beneath a call: a store that fails, or a status that cannot change as
asked.
-/

namespace CellReplay

inductive Failure
  | domain (t : InvalidTransition)
  | database (reason : String)
  deriving DecidableEq, Repr

def Failure.message : Failure → String
  | .domain t => "Domain error: " ++ t.message
  | .database reason => "Database error: " ++ reason

end CellReplay
