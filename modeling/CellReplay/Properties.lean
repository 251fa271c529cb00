import CellReplay.Table
import CellReplay.Text.Join

/-!
# Properties

Settings of the program: texts under dotted names.
-/

namespace CellReplay

abbrev Properties := Table String String

def Properties.names (p : Properties) : List String := Text.sortBy (· ≤ ·) p.keys

end CellReplay
