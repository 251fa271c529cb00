/-!
# Text.Blank

Blanks are the characters of Unicode's `White_Space` property.

* `isBlank`      — the property.
* `trimStart`, `trimEnd`, `trim` — blanks taken off the ends.
* `splitBlank`   — the text before the first blank and the text after it.
-/

namespace CellReplay.Text

/-- The `White_Space` property, range by range. -/
def isBlank (c : Char) : Bool :=
  let n := c.toNat
  (0x09 ≤ n && n ≤ 0x0D) || n == 0x20 || n == 0x85 || n == 0xA0 || n == 0x1680 ||
    (0x2000 ≤ n && n ≤ 0x200A) || n == 0x2028 || n == 0x2029 || n == 0x202F || n == 0x205F ||
    n == 0x3000

def trimStart (cs : List Char) : List Char := cs.dropWhile isBlank

def trimEnd (cs : List Char) : List Char := (cs.reverse.dropWhile isBlank).reverse

def trim (cs : List Char) : List Char := trimEnd (trimStart cs)

/-- The text up to the first blank and the text after that blank; nothing follows if there is no
blank. -/
def splitBlank (cs : List Char) : List Char × List Char :=
  (cs.takeWhile (!isBlank ·), (cs.dropWhile (!isBlank ·)).drop 1)

def trimmed (s : String) : String := String.ofList (trim s.toList)

end CellReplay.Text
