import CellReplay.Json.Value
import CellReplay.Text.Integer

/-!
# Json.Parser

Reading JSON.

* `Json.parse` — the value of a whole text, `none` if the text is no JSON.

The readers of nested values take as fuel the number of characters that they may consume.
-/

namespace CellReplay.Json

open Text

def isSpace (c : Char) : Bool := c = ' ' || c = '\n' || c = '\t' || c = '\r'

def skipSpace (cs : List Char) : List Char := cs.dropWhile isSpace

def isDigit (c : Char) : Bool := '0' ≤ c && c ≤ '9'

def digits (cs : List Char) : Option (List Char × List Char) :=
  match cs.span isDigit with
  | ([], _) => none
  | r => some r

/-- The digits before a point: no zero comes first unless it stands alone. -/
def wholePart (cs : List Char) : Option (List Char × List Char) := do
  let (ds, rest) ← digits cs
  if ds.head? = some '0' ∧ ds.length ≠ 1 then none else some (ds, rest)

def fractionPart : List Char → Option (Option (List Char) × List Char)
  | '.' :: cs => (digits cs).map fun (ds, rest) => (some ds, rest)
  | cs => some (none, cs)

def exponentPart (cs : List Char) : Option (Option (Bool × List Char) × List Char) :=
  let after := fun (cs : List Char) =>
    let (negative, cs) :=
      match cs with
      | '+' :: cs => (false, cs)
      | '-' :: cs => (true, cs)
      | cs => (false, cs)
    (digits cs).map fun (ds, rest) => (some (negative, ds), rest)
  match cs with
  | 'e' :: cs => after cs
  | 'E' :: cs => after cs
  | cs => some (none, cs)

def numeral (cs : List Char) : Option (Numeral × List Char) := do
  let (negative, cs) := match cs with | '-' :: cs => (true, cs) | cs => (false, cs)
  let (whole, cs) ← wholePart cs
  let (fraction, cs) ← fractionPart cs
  let (exponent, cs) ← exponentPart cs
  return (⟨negative, whole, fraction, exponent⟩, cs)

def hexValue? (c : Char) : Option Nat :=
  if '0' ≤ c ∧ c ≤ '9' then some (c.toNat - 48)
  else if 'a' ≤ c ∧ c ≤ 'f' then some (c.toNat - 87)
  else if 'A' ≤ c ∧ c ≤ 'F' then some (c.toNat - 55)
  else none

def fourHex : List Char → Option (Nat × List Char)
  | a :: b :: c :: d :: rest => do
    return (((← hexValue? a) * 16 + (← hexValue? b)) * 256 +
      ((← hexValue? c) * 16 + (← hexValue? d)), rest)
  | _ => none

def simpleEscape? : Char → Option Char
  | '"' => some '"'
  | '\\' => some '\\'
  | '/' => some '/'
  | 'b' => some '\x08'
  | 'f' => some '\x0C'
  | 'n' => some '\n'
  | 'r' => some '\r'
  | 't' => some '\t'
  | _ => none

def isHighHalf (n : Nat) : Bool := 0xD800 ≤ n && n ≤ 0xDBFF

def isLowHalf (n : Nat) : Bool := 0xDC00 ≤ n && n ≤ 0xDFFF

/-- The pieces of a string: characters, and the halves of characters that escapes spell. -/
inductive Piece
  | char (c : Char)
  | half (n : Nat)
  deriving DecidableEq, Repr

/-- The pieces up to the closing quote. -/
def pieces : Nat → List Char → Option (List Piece × List Char)
  | 0, _ => none
  | fuel + 1, cs =>
    match cs with
    | [] => none
    | '"' :: rest => some ([], rest)
    | '\\' :: 'u' :: rest => do
      let (n, rest) ← fourHex rest
      let (ps, rest) ← pieces fuel rest
      let p := if isHighHalf n || isLowHalf n then Piece.half n else .char (Char.ofNat n)
      return (p :: ps, rest)
    | '\\' :: c :: rest => do
      let c ← simpleEscape? c
      let (ps, rest) ← pieces fuel rest
      return (.char c :: ps, rest)
    | c :: rest =>
      if c = '\\' ∨ c.toNat < 0x20 then none
      else (pieces fuel rest).map fun (ps, rest) => (.char c :: ps, rest)

/-- The text of pieces; a half stands for nothing unless it is the first of two that belong
together. -/
def textOf : List Piece → Option (List Char)
  | [] => some []
  | .char c :: ps => (textOf ps).map (c :: ·)
  | .half a :: .half b :: ps =>
    if isHighHalf a && isLowHalf b then
      (textOf ps).map (Char.ofNat (0x10000 + (a - 0xD800) * 0x400 + (b - 0xDC00)) :: ·)
    else none
  | .half _ :: _ => none

def stringBody (cs : List Char) : Option (Option String × List Char) :=
  (pieces (cs.length + 1) cs).map fun (ps, rest) => ((textOf ps).map String.ofList, rest)

def word (w : List Char) (cs : List Char) : Option (List Char) :=
  if w.isPrefixOf cs then some (cs.drop w.length) else none

mutual

def value : Nat → List Char → Option (Json × List Char)
  | 0, _ => none
  | fuel + 1, cs =>
    match skipSpace cs with
    | '"' :: cs => (stringBody cs).map fun (t, rest) => (.string t, rest)
    | '[' :: cs =>
      match skipSpace cs with
      | ']' :: rest => some (.array [], rest)
      | cs => (items fuel cs).map fun (js, rest) => (.array js, rest)
    | '\x7b' :: cs =>
      match skipSpace cs with
      | '\x7d' :: rest => some (.object [], rest)
      | cs => (members fuel cs).map fun (ms, rest) => (.object ms, rest)
    | 'n' :: cs => (word "ull".toList cs).map (.null, ·)
    | 't' :: cs => (word "rue".toList cs).map (.bool true, ·)
    | 'f' :: cs => (word "alse".toList cs).map (.bool false, ·)
    | cs => (numeral cs).map fun (n, rest) => (.number n, rest)

def items : Nat → List Char → Option (List Json × List Char)
  | 0, _ => none
  | fuel + 1, cs => do
    let (j, rest) ← value fuel cs
    match skipSpace rest with
    | ',' :: rest =>
      let (js, rest) ← items fuel rest
      return (j :: js, rest)
    | ']' :: rest => return ([j], rest)
    | _ => none

def members : Nat → List Char → Option (List (Option String × Json) × List Char)
  | 0, _ => none
  | fuel + 1, cs =>
    match skipSpace cs with
    | '"' :: cs => do
      let (k, rest) ← stringBody cs
      match skipSpace rest with
      | ':' :: rest =>
        let (j, rest) ← value fuel rest
        match skipSpace rest with
        | ',' :: rest =>
          let (ms, rest) ← members fuel rest
          return ((k, j) :: ms, rest)
        | '\x7d' :: rest => return ([(k, j)], rest)
        | _ => none
      | _ => none
    | _ => none

end

def parse (s : String) : Option Json :=
  let cs := s.toList
  match value (2 * cs.length + 1) cs with
  | some (j, rest) => if skipSpace rest = [] then some j else none
  | none => none

end CellReplay.Json
