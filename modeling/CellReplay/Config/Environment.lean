import CellReplay.Config.Path

/-!
# Config.Environment

Variables of the environment that set properties: their names begin with `NOTEBOOK__`, in any case,
and `__` stands for a point in what follows.
-/

namespace CellReplay.Config

/-- What the names of such variables begin with, in lower case. -/
def variableMark : String := "notebook__"

/-- A text with every two underscores replaced by a point, from the left. -/
def pointed : List Char → List Char
  | '_' :: '_' :: cs => '.' :: pointed cs
  | c :: cs => c :: pointed cs
  | [] => []

def keyOfVariable (name : String) : Option String :=
  let cs := (Text.lowercase name).toList
  if variableMark.toList.isPrefixOf cs then
    some (String.ofList (pointed (cs.drop variableMark.toList.length)))
  else none

/-- The layer of the environment: of variables that set the same key the last one counts. -/
def environmentLayer (vars : Table String String) : List (String × Tree) :=
  (Table.ofList (vars.entries.filterMap fun (n, v) =>
    (keyOfVariable n).map fun k => (k, Tree.scalar v))).entries

end CellReplay.Config
