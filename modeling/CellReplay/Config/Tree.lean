import CellReplay.Properties
import CellReplay.Text.Case

/-!
# Config.Tree

Configuration as a tree of named values.

* `Tree`         — a scalar, a list, or a table of trees.
* `Tree.set`     — a value under a name, in lower case. Tables are merged entry by entry; any other
  value takes the place of what was there.
* `Tree.setAt`   — the same at the end of a path.
* `Tree.leaves`  — the scalars under the dotted names that lead to them.
* `Tree.flatten` — the leaves as properties.
-/

namespace CellReplay.Config

inductive Tree
  | scalar (text : String)
  | list
  | table (entries : List (String × Tree))
  deriving Repr

namespace Tree

mutual

def decEq : (t u : Tree) → Decidable (t = u)
  | scalar s, scalar r => decidable_of_iff (s = r) (by simp)
  | list, list => isTrue rfl
  | table es, table fs => @decidable_of_iff _ (es = fs) (by simp) (decEqAll es fs)
  | scalar _, list => isFalse nofun
  | scalar _, table _ => isFalse nofun
  | list, scalar _ => isFalse nofun
  | list, table _ => isFalse nofun
  | table _, scalar _ => isFalse nofun
  | table _, list => isFalse nofun

def decEqAll : (es fs : List (String × Tree)) → Decidable (es = fs)
  | [], [] => isTrue rfl
  | [], _ :: _ => isFalse nofun
  | _ :: _, [] => isFalse nofun
  | (k, t) :: es, (n, u) :: fs =>
    have := decEq t u
    have := decEqAll es fs
    decidable_of_iff (k = n ∧ t = u ∧ es = fs) (by simp [and_assoc])

end

instance : DecidableEq Tree := decEq

/-- The entries of a table; a tree that is no table has none. -/
def entries : Tree → List (String × Tree)
  | table es => es
  | scalar _ => []
  | list => []

/-- The tree with `v` under a name as it stands. A tree that is no table becomes one. -/
def put (root : Tree) (name : String) (v : Tree) : Tree := table (replace name v root.entries)

mutual

def set (name : String) : Tree → Tree → Tree
  | scalar t, root => root.put (Text.lowercase name) (scalar t)
  | list, root => root.put (Text.lowercase name) list
  | table es, root =>
    let name := Text.lowercase name
    root.put name (setAll es ((lookup name root.entries).getD (table [])))

def setAll : List (String × Tree) → Tree → Tree
  | [], root => root
  | (k, v) :: es, root => setAll es (set k v root)

end

/-- Sets a value under the last of the names, in the table that the names before it lead to. What is
no table on the way becomes one. -/
def setAt : List String → String → Tree → Tree → Tree
  | [], name, v, root => set name v root
  | k :: ks, name, v, root =>
    let k := Text.lowercase k
    root.put k (setAt ks name v ((lookup k root.entries).getD (table [])))

/-- A name behind those that lead to it. -/
def dotted (before name : String) : String := if before = "" then name else before ++ "." ++ name

mutual

/-- The leaves of a tree that stands under the name `place`. -/
def leaves (place : String) : Tree → List (String × String)
  | scalar t => [(place, t)]
  | list => []
  | table es => leavesOf place es

def leavesOf (place : String) : List (String × Tree) → List (String × String)
  | [] => []
  | (k, v) :: es => leaves (dotted place k) v ++ leavesOf place es

end

/-- All leaves as properties. The top of the tree has no name. -/
def flatten (t : Tree) : Properties := Table.ofList (leavesOf "" t.entries)

end Tree

end CellReplay.Config
