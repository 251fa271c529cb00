import CellReplay.Table
import CellReplay.Toml.Value

/-!
# Toml.Document

What the statements of a document build.

* `Item`        — an entry of a table that may still grow.
* `Statement`   — a header or a pair of key and value.
* `ofStatements` — the entries that a list of statements builds, if none is at odds with another.
* `inline`      — the same for the pairs of a table within a value.

A table is opened by one header, or grows by dotted keys of one place; tables on the way to either
come into being by the way. What has been opened in one manner cannot be opened in another.
-/

namespace CellReplay.Toml

/-- How a table came into being. -/
inductive Origin
  | header
  | implied
  | dotted
  deriving DecidableEq, Repr

/-- An entry of a table. Only the last table of a list of tables can grow. -/
inductive Item
  | value (v : Value)
  | table (origin : Origin) (entries : List (String × Item))
  | tables (earlier : List Value) (last : List (String × Item))

abbrev Entries := List (String × Item)

mutual

def Item.toValue : Item → Value
  | .value v => v
  | .table _ es => .table (toValues es)
  | .tables earlier last => .array (earlier ++ [.table (toValues last)])

def toValues : Entries → List (String × Value)
  | [] => []
  | (k, i) :: es => (k, i.toValue) :: toValues es

end

/-- Changes the table at the end of a path. Tables that are missing come into being. Dotted keys do
not lead through tables that have a header. -/
def changeAt (dotted : Bool) (change : Origin × Entries → Option Entries) :
    List String → Origin × Entries → Option Entries
  | [], t => change t
  | k :: ks, (_, es) =>
    match lookup k es with
    | none =>
      let o : Origin := if dotted then .dotted else .implied
      (changeAt dotted change ks (o, [])).map fun es' => replace k (.table o es') es
    | some (.value _) => none
    | some (.table o es') =>
      if dotted && o = .header then none
      else (changeAt dotted change ks (o, es')).map fun es' => replace k (.table o es') es
    | some (.tables earlier last) =>
      (changeAt dotted change ks (.header, last)).map fun last => replace k (.tables earlier last) es

/-- Puts a value at a dotted key: the names before the last one, and the last. -/
def putPair (path : List String) (key : String) (v : Value) : Origin × Entries → Option Entries :=
  changeAt true (fun (o, es) =>
    if decide (o = .dotted) = path.isEmpty then none
    else if (lookup key es).isSome then none
    else some (replace key (.value v) es)) path

def openTable (key : String) : Origin × Entries → Option Entries := fun (_, es) =>
  match lookup key es with
  | none => some (replace key (.table .header []) es)
  | some (.table .implied es') => some (replace key (.table .header es') es)
  | some _ => none

def openNext (key : String) : Origin × Entries → Option Entries := fun (_, es) =>
  match lookup key es with
  | none => some (replace key (.tables [] []) es)
  | some (.tables earlier last) =>
    some (replace key (.tables (earlier ++ [.table (toValues last)]) []) es)
  | some _ => none

inductive Statement
  | pair (path : List String) (key : String) (value : Value)
  | table (path : List String) (key : String)
  | nextTable (path : List String) (key : String)
  deriving Repr

/-- A document that is built: its entries, and the path of the table that pairs go to. -/
structure Building where
  entries : Entries
  here : List String

def Building.follow (b : Building) : Statement → Option Building
  | .pair path key v =>
    (changeAt false (putPair path key v) b.here (.header, b.entries)).map ({ b with entries := · })
  | .table path key =>
    (changeAt false (openTable key) path (.header, b.entries)).map (⟨·, path ++ [key]⟩)
  | .nextTable path key =>
    (changeAt false (openNext key) path (.header, b.entries)).map (⟨·, path ++ [key]⟩)

def ofStatements (ss : List Statement) : Option (List (String × Value)) :=
  (ss.foldlM Building.follow ⟨[], []⟩).map fun b => toValues b.entries

/-- The table of pairs that stand together between braces. -/
def inline (pairs : List (List String × String × Value)) : Option Value :=
  (pairs.foldlM (fun es (path, key, v) => putPair path key v (.header, es)) []).map
    fun es => .table (toValues es)

end CellReplay.Toml
