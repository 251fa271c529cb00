import CellReplay.Text.Run
import CellReplay.Text.ScriptTable

/-!
# Text.Script

The script of a character, and the few characters whose alphabetic or upper case nature does not
follow from their category.
-/

namespace CellReplay.Text

/-- The runs that a run-length text spells, from code point `start` on: four letters, then perhaps
a count. -/
def decodeScripts : Nat → List Char → Nat → List Char → List (Run String)
  | _, [], _, [] => []
  | start, name, n, [] => [⟨start, start + max n 1 - 1, String.ofList name⟩]
  | start, name, n, ch :: cs =>
    if ch.isDigit then decodeScripts start name (n * 10 + (ch.toNat - 48)) cs
    else if name.length < 4 then decodeScripts start (name ++ [ch]) 0 cs
    else
      ⟨start, start + max n 1 - 1, String.ofList name⟩ ::
        decodeScripts (start + max n 1) [ch] 0 cs

def scriptTable : Array (Run String) :=
  (decodeScripts 0 [] 0 (scriptRuns.flatMap String.toList)).toArray

/-- The four letters of a code point's script; `Zzzz` stands for none. -/
def scriptOf (n : Nat) : String := (valueAt? scriptTable n).getD "Zzzz"

/-- Marks and symbols that are alphabetic. -/
def isOtherAlphabetic (c : Char) : Bool :=
  otherAlphabetic.any fun r => r.1 ≤ c.toNat && c.toNat ≤ r.2

/-- Numerals and symbols with the shape of upper case letters. -/
def isOtherUppercase (c : Char) : Bool :=
  let n := c.toNat
  [(0x2160, 0x216F), (0x24B6, 0x24CF), (0x1F130, 0x1F149), (0x1F150, 0x1F169),
    (0x1F170, 0x1F189)].any fun r => r.1 ≤ n && n ≤ r.2

end CellReplay.Text
