import CellReplay.Json.Parser

/-!
# Json.Printer

Writing JSON without blanks. Quotes, backslashes and control characters are escaped and nothing
else.

* `Json.print` — the text of a value.
-/

namespace CellReplay.Json

def hexDigit (n : Nat) : Char := if n < 10 then Char.ofNat (48 + n) else Char.ofNat (87 + n)

def escaped (c : Char) : List Char :=
  match c with
  | '"' => ['\\', '"']
  | '\\' => ['\\', '\\']
  | '\x08' => ['\\', 'b']
  | '\x0C' => ['\\', 'f']
  | '\n' => ['\\', 'n']
  | '\r' => ['\\', 'r']
  | '\t' => ['\\', 't']
  | c =>
    if c.toNat < 0x20 then ['\\', 'u', '0', '0', hexDigit (c.toNat / 16), hexDigit (c.toNat % 16)]
    else [c]

def printString (s : String) : List Char := ['"'] ++ s.toList.flatMap escaped ++ ['"']

def printNumeral (n : Numeral) : List Char :=
  (if n.negative then ['-'] else []) ++ n.whole ++
    n.fraction.elim [] ('.' :: ·) ++
    n.exponent.elim [] fun (negative, ds) => 'e' :: (if negative then '-' :: ds else ds)

mutual

/-- A string that spells no text is written as an empty one. -/
def printChars : Json → List Char
  | .null => "null".toList
  | .bool b => (if b then "true" else "false").toList
  | .number n => printNumeral n
  | .string t => printString (t.getD "")
  | .array [] => ['[', ']']
  | .array (j :: js) => ['['] ++ printChars j ++ printItems js
  | .object [] => ['\x7b', '\x7d']
  | .object ((k, j) :: ms) =>
    ['\x7b'] ++ printString (k.getD "") ++ [':'] ++ printChars j ++ printMembers ms

def printItems : List Json → List Char
  | [] => [']']
  | j :: js => [','] ++ printChars j ++ printItems js

def printMembers : List (Option String × Json) → List Char
  | [] => ['\x7d']
  | (k, j) :: ms => [','] ++ printString (k.getD "") ++ [':'] ++ printChars j ++ printMembers ms

end

def print (j : Json) : String := String.ofList j.printChars

/-- The value of an integer, of a text, and of members with names that are texts. -/
def ofInt (n : Int) : Json :=
  .number ⟨n < 0, Nat.toDigits 10 n.natAbs, none, none⟩

def ofText (s : String) : Json := .string (some s)

def ofMembers (ms : List (String × Json)) : Json := .object (ms.map fun m => (some m.1, m.2))

end CellReplay.Json
