import CellReplay.Decimal.Shortest

/-!
# Toml.Value

The values that a TOML document holds.

* `Value`       — scalars, arrays, and tables whose entries stand in order.
* `Value.text?` — the text of a scalar.
-/

namespace CellReplay.Toml

open Decimal

/-- A floating point number, or one of those that are no number of the line. -/
inductive Floating
  | finite (d : Double)
  | infinite (negative : Bool)
  | undefined
  deriving DecidableEq, Repr

def Floating.text : Floating → String
  | .finite d => positional d
  | .infinite negative => sign negative ++ "inf"
  | .undefined => "NaN"

/-- A value. A moment is a date, a time of day or both, and is kept as it is written out. -/
inductive Value
  | text (s : String)
  | integer (n : Int)
  | floating (x : Floating)
  | boolean (b : Bool)
  | moment (s : String)
  | array (items : List Value)
  | table (entries : List (String × Value))
  deriving Repr

def Value.text? : Value → Option String
  | .text s => some s
  | .integer n => some (Text.decimalInt n)
  | .floating x => some x.text
  | .boolean b => some (if b then "true" else "false")
  | .moment s => some s
  | .array _ => none
  | .table _ => none

end CellReplay.Toml
