import CellReplay.Toml.Document
import CellReplay.Toml.Quoted
import CellReplay.Toml.Scalar

/-!
# Toml.Parser

Reading a TOML document.

* `statements` — the statements of a text, line by line.
* `parse`      — the entries of the document, `none` if the text is none.

Readers of nested values take as fuel the number of characters that they may consume.
-/

namespace CellReplay.Toml

/-- How many values may be nested in each other, and how many names a key may have. -/
def maxDepth : Nat := 79

def skipGap (cs : List Char) : List Char := cs.dropWhile isGap

/-- The rest behind blanks, line breaks and comments. -/
def skipLines (inComment : Bool) : List Char → List Char
  | [] => []
  | '\n' :: cs => skipLines false cs
  | '\r' :: '\n' :: cs => skipLines false cs
  | c :: cs =>
    if inComment then (if isPlain c then skipLines true cs else c :: cs)
    else if isGap c then skipLines false cs
    else if c = '#' then skipLines true cs
    else c :: cs

/-- The rest behind the end of a line, which blanks and a comment may precede. -/
def lineEnd (cs : List Char) : Option (List Char) :=
  let cs := skipGap cs
  let cs := match cs with | '#' :: cs => cs.dropWhile isPlain | cs => cs
  match cs with
  | [] => some []
  | '\n' :: cs => some cs
  | '\r' :: '\n' :: cs => some cs
  | _ => none

def isBare (c : Char) : Bool := c.isAlphanum || c = '_' || c = '-'

def name (cs : List Char) : Option (String × List Char) :=
  match cs with
  | '"' :: cs => (basic cs).map fun (k, rest) => (String.ofList k, rest)
  | '\'' :: cs => (literal cs).map fun (k, rest) => (String.ofList k, rest)
  | cs =>
    match cs.span isBare with
    | ([], _) => none
    | (k, rest) => some (String.ofList k, rest)

/-- Names with points between them; blanks may surround each. -/
def dottedNames : Nat → List Char → Option (List String × List Char)
  | 0, _ => none
  | fuel + 1, cs => do
    let (k, rest) ← name (skipGap cs)
    match skipGap rest with
    | '.' :: rest => (dottedNames fuel rest).map fun (ks, rest) => (k :: ks, rest)
    | rest => return ([k], rest)

/-- A key: the names before the last one, and the last. -/
def key (cs : List Char) : Option (List String × String × List Char) := do
  let (ks, rest) ← dottedNames (cs.length + 1) cs
  let last ← ks.getLast?
  if ks.length ≤ maxDepth then return (ks.dropLast, last, rest) else none

mutual

/-- A value, within `depth` more levels of arrays and tables. -/
def value : Nat → Nat → List Char → Option (Value × List Char)
  | 0, _, _ => none
  | fuel + 1, depth, cs =>
    match cs with
    | '"' :: _ => (quotedText cs).map fun (t, rest) => (.text (String.ofList t), rest)
    | '\'' :: _ => (quotedText cs).map fun (t, rest) => (.text (String.ofList t), rest)
    | '[' :: cs =>
      match depth with
      | 0 => none
      | d + 1 => (items fuel d (skipLines false cs)).map fun (vs, rest) => (.array vs, rest)
    | '\x7b' :: cs =>
      match depth with
      | 0 => none
      | d + 1 =>
        match skipGap cs with
        | '\x7d' :: rest => some (.table [], rest)
        | cs => do
          let (ps, rest) ← pairs fuel d cs
          return (← inline ps, rest)
    | 't' :: cs => (afterWord "rue".toList cs).map (.boolean true, ·)
    | 'f' :: cs => (afterWord "alse".toList cs).map (.boolean false, ·)
    | cs => (moment cs).orElse fun _ => number cs

/-- The values of an array, of which the last may have a comma behind it. -/
def items : Nat → Nat → List Char → Option (List Value × List Char)
  | 0, _, _ => none
  | fuel + 1, depth, cs =>
    match cs with
    | ']' :: rest => some ([], rest)
    | cs => do
      let (v, rest) ← value fuel depth cs
      match skipLines false rest with
      | ',' :: rest =>
        (items fuel depth (skipLines false rest)).map fun (vs, rest) => (v :: vs, rest)
      | ']' :: rest => return ([v], rest)
      | _ => none

def pairs : Nat → Nat → List Char → Option (List (List String × String × Value) × List Char)
  | 0, _, _ => none
  | fuel + 1, depth, cs => do
    let (path, k, rest) ← key cs
    let (v, rest) ← value fuel depth (skipGap (← expect '=' rest))
    match skipGap rest with
    | ',' :: rest => (pairs fuel depth rest).map fun (ps, rest) => ((path, k, v) :: ps, rest)
    | '\x7d' :: rest => return ([(path, k, v)], rest)
    | _ => none

end

/-- A pair of key and value on a line of its own. -/
def pairLine (cs : List Char) : Option (Statement × List Char) := do
  let (path, k, rest) ← key cs
  let cs := skipGap (← expect '=' rest)
  let (v, rest) ← value (2 * cs.length + 1) maxDepth cs
  return (.pair path k v, ← lineEnd rest)

/-- A header behind its opening brackets. -/
def header (make : List String → String → Statement) (close : List Char) (cs : List Char) :
    Option (Statement × List Char) := do
  let (path, k, rest) ← key cs
  return (make path k, ← lineEnd (← afterWord close rest))

def statement (cs : List Char) : Option (Statement × List Char) :=
  match cs with
  | '[' :: '[' :: cs => header .nextTable "]]".toList cs
  | '[' :: cs => header .table "]".toList cs
  | cs => pairLine cs

/-- The statements of a text; `fuel` bounds their number. -/
def statements : Nat → List Char → Option (List Statement)
  | 0, _ => none
  | fuel + 1, cs =>
    match skipGap cs with
    | [] => some []
    | '\n' :: rest => statements fuel rest
    | '\r' :: '\n' :: rest => statements fuel rest
    | '#' :: rest => do statements fuel (← lineEnd ('#' :: rest))
    | cs => do
      let (s, rest) ← statement cs
      return s :: (← statements fuel rest)

/-- The mark that may stand before a text to tell how it is encoded. -/
def withoutMark : List Char → List Char
  | '\uFEFF' :: cs => cs
  | cs => cs

def parse (s : String) : Option (List (String × Value)) :=
  let cs := withoutMark s.toList
  (statements (cs.length + 1) cs).bind ofStatements

end CellReplay.Toml
