import CellReplay.Text.Utf8

/-!
# Shell.Bytes

A shell works on bytes. Here a text of bytes is a list of characters below 256, each of which stands
for the byte of its number, so that bytes that are ASCII read as what they are.
-/

namespace CellReplay.Shell

open Text

abbrev Bytes := List Char

namespace Bytes

def ofBytes (bs : List UInt8) : Bytes := bs.map fun b => Char.ofNat b.toNat

def toBytes (cs : Bytes) : List UInt8 := cs.map fun c => UInt8.ofNat c.toNat

def ofText (s : String) : Bytes := ofBytes (Utf8.encode s.toList)

def toText (cs : Bytes) : String := String.ofList (Utf8.decodeLossy (toBytes cs))

def ofNat (n : Nat) : Bytes := Nat.toDigits 10 n

def ofInt (n : Int) : Bytes := (decimalInt n).toList

end Bytes

/-- The parts of a text between the signs `mark`; a mark at the end ends the last part. -/
def linesOf (mark : Char) : Bytes → List Bytes
  | [] => []
  | c :: cs =>
    if c = mark then [] :: linesOf mark cs
    else
      match linesOf mark cs with
      | [] => [[c]]
      | l :: ls => (c :: l) :: ls

def isDigit (c : Char) : Bool := '0' ≤ c && c ≤ '9'

/-- Whether a character may begin a name, and whether it may go on in one. -/
def isNameStart (c : Char) : Bool := c.isAlpha || c = '_'
def isNameChar (c : Char) : Bool := isNameStart c || isDigit c

def isName (cs : Bytes) : Bool :=
  match cs with
  | [] => false
  | c :: cs => isNameStart c && cs.all isNameChar

def natOf? (cs : Bytes) : Option Nat :=
  if cs ≠ [] ∧ cs.all isDigit then some (cs.foldl (fun n c => n * 10 + (c.toNat - 48)) 0) else none

end CellReplay.Shell
