import CellReplay.Config.Tree
import CellReplay.Text.Integer

/-!
# Config.Path

Keys at the top of a layer, which may spell a way through the tree: names with points between them,
and numbers in brackets for the elements of lists.

* `Path.ofKey` — the way that a key spells. A key that spells none is a name as a whole.
* `Path.set`   — a value at the end of a path.
-/

namespace CellReplay.Config

/-- Names that lead into tables. Where an element of a list comes next, the path ends, because what
lists hold does not count. -/
structure Path where
  tables : List String
  last : String
  toElement : Bool
  deriving DecidableEq, Repr

namespace Path

def isNameChar (c : Char) : Bool := c.isAlphanum || c = ' ' || c = '_' || c = '-'

inductive Step
  | name (s : String)
  | element
  deriving DecidableEq, Repr

def isGap (c : Char) : Bool := c = ' ' || c = '\t'

/-- A number in brackets, which may have a minus sign, behind the opening one. -/
def element (cs : List Char) : Option (List Char) :=
  let cs := cs.dropWhile isGap
  let (negative, cs) := match cs with | '-' :: cs => (true, cs) | cs => (false, cs)
  match cs.span Char.isDigit with
  | ([], _) => none
  | (ds, rest) =>
    match Text.readDigits (Text.maxInt64 + if negative then 1 else 0) .tooLarge 0 ds,
        rest.dropWhile isGap with
    | .ok _, ']' :: rest => some rest
    | _, _ => none

def nameStep (cs : List Char) : Option (Step × List Char) :=
  match cs.span isNameChar with
  | ([], _) => none
  | (n, rest) => some (.name (String.ofList n), rest)

/-- The steps behind the first name; `fuel` bounds their number. -/
def steps : Nat → List Char → Option (List Step)
  | _, [] => some []
  | 0, _ => none
  | fuel + 1, '.' :: cs => do
    let (s, rest) ← nameStep cs
    return s :: (← steps fuel rest)
  | fuel + 1, '[' :: cs => do
    let rest ← element cs
    return .element :: (← steps fuel rest)
  | _ + 1, _ => none

def ofSteps (before : List String) (name : String) : List Step → Path
  | [] => ⟨before, name, false⟩
  | .element :: _ => ⟨before, name, true⟩
  | .name n :: ss => ofSteps (before ++ [name]) n ss

def ofKey (key : String) : Path :=
  let parsed : Option Path := do
    match ← nameStep key.toList with
    | (.name n, rest) => return ofSteps [] n (← steps rest.length rest)
    | (.element, _) => none
  parsed.getD ⟨[], key, false⟩

def set (p : Path) (v : Tree) (root : Tree) : Tree :=
  root |> Tree.setAt p.tables p.last (if p.toElement then .list else v)

end Path

end CellReplay.Config
