/-!
# Text.Run

Code points in runs: consecutive code points that share a value, in ascending order.

* `valueAt` — the value of the run that a code point is in.
-/

namespace CellReplay.Text

/-- The code points `first` to `last`, all of one value. -/
structure Run (α : Type) where
  first : Nat
  last : Nat
  value : α
  deriving DecidableEq, Repr

/-- The last of the runs `low` to `high - 1` that begins at `n` or before it, halving the span
`fuel` times at most. -/
def findRun {α : Type} (runs : Array (Run α)) (n : Nat) : Nat → Nat → Nat → Nat
  | 0, low, _ => low
  | fuel + 1, low, high =>
    if high ≤ low + 1 then low
    else
      let mid := (low + high) / 2
      if (runs[mid]?.elim false fun r => r.first ≤ n) then findRun runs n fuel mid high
      else findRun runs n fuel low mid

/-- The value of the run that `n` is in. -/
def valueAt? {α : Type} (runs : Array (Run α)) (n : Nat) : Option α :=
  (runs[findRun runs n 32 0 runs.size]?).bind fun r =>
    if r.first ≤ n ∧ n ≤ r.last then some r.value else none

end CellReplay.Text
