import CellReplay.Session

/-!
# Replay

The code that is handed to an interpreter: the fragments of a session, oldest first, and then the
new code.
-/

namespace CellReplay

/-- What becomes of double quotes in code. -/
inductive Quoting
  | normalize
  | verbatim
  deriving DecidableEq, Repr

/-- Every double quote made single. -/
def normalizeQuotes (code : String) : String :=
  String.ofList (code.toList.map fun c => if c = '"' then '\'' else c)

def Quoting.apply : Quoting → String → String
  | .normalize, code => normalizeQuotes code
  | .verbatim, code => code

/-- The code to run. Quoting applies to each fragment and not to the separator. -/
def replay (history : Option (List String)) (code separator : String) (q : Quoting) : String :=
  match history with
  | some fragments => Text.join separator ((fragments ++ [code]).map q.apply)
  | none => q.apply code

end CellReplay
