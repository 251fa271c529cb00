import CellReplay.Outcome

/-!
# Runner

Runs that are told beforehand: a list of outcomes to give one after the other, the last again and
again.
-/

namespace CellReplay

/-- The outcomes still to come; the last one stays. -/
structure Scripted where
  outcomes : List Outcome
  deriving Repr

namespace Scripted

def quiet : Outcome := .ok ⟨some 0, ""⟩

def next (s : Scripted) : Outcome × Scripted :=
  match s.outcomes with
  | [] => (quiet, s)
  | [o] => (o, s)
  | o :: os => (o, ⟨os⟩)

end Scripted

end CellReplay
