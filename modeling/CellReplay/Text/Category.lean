import CellReplay.Text.CategoryTable
import CellReplay.Text.Run

/-!
# Text.Category

The general category of a character.

* `Category`      — the thirty categories and the short names that the standard gives them.
* `categoryTable` — the runs of `categoryRuns`, each with its first code point and its last.
* `categoryOf`    — the category of a code point.
-/

namespace CellReplay.Text

inductive Category
  | lu | ll | lt | lm | lo
  | mn | mc | me
  | nd | nl | no
  | pc | pd | ps | pe | pi | pf | po
  | sm | sc | sk | so
  | zs | zl | zp
  | cc | cf | cs | co | cn
  deriving DecidableEq, Repr

namespace Category

/-- The letter that stands for a category in `categoryRuns`. -/
def ofLetter? : Char → Option Category
  | 'u' => some .lu | 'l' => some .ll | 't' => some .lt | 'm' => some .lm | 'o' => some .lo
  | 'n' => some .mn | 'c' => some .mc | 'e' => some .me
  | 'd' => some .nd | 'r' => some .nl | 'f' => some .no
  | 'k' => some .pc | 'h' => some .pd | 's' => some .ps | 'x' => some .pe
  | 'i' => some .pi | 'j' => some .pf | 'p' => some .po
  | 'M' => some .sm | 'C' => some .sc | 'K' => some .sk | 'O' => some .so
  | 'Z' => some .zs | 'L' => some .zl | 'P' => some .zp
  | 'A' => some .cc | 'F' => some .cf | 'S' => some .cs | 'V' => some .co | 'N' => some .cn
  | _ => none

def isLetter (c : Category) : Bool := c ∈ [lu, ll, lt, lm, lo]

def isMark (c : Category) : Bool := c ∈ [mn, mc, me]

end Category

/-- The runs that a run-length text spells, from code point `start` on. A run is closed when the
next letter, or the end, shows how long it is. -/
def decodeCategories : Nat → Option Category → Nat → List Char → List (Run Category)
  | start, some c, n, [] => [⟨start, start + max n 1 - 1, c⟩]
  | _, none, _, [] => []
  | start, current, n, ch :: cs =>
    if ch.isDigit then decodeCategories start current (n * 10 + (ch.toNat - 48)) cs
    else
      match current with
      | none => decodeCategories start (Category.ofLetter? ch) 0 cs
      | some c =>
        ⟨start, start + max n 1 - 1, c⟩ ::
          decodeCategories (start + max n 1) (Category.ofLetter? ch) 0 cs

def categoryTable : Array (Run Category) :=
  (decodeCategories 0 none 0 (categoryRuns.flatMap String.toList)).toArray

def categoryOf (n : Nat) : Category := (valueAt? categoryTable n).getD .cn

end CellReplay.Text
