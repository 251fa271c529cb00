/-!
# Toml.Quoted

Texts between quotes, in four forms: with escapes or without, on one line or on several. The readers
begin behind the opening quotes and give back the rest behind the closing ones.

* `basic`, `literal`           — on one line, with escapes and without.
* `basicLines`, `literalLines` — on several lines. A line may be joined to the next.
-/

namespace CellReplay.Toml

def isPlain (c : Char) : Bool := c = '\t' || (0x20 ≤ c.toNat && c.toNat ≠ 0x7F)

def isGap (c : Char) : Bool := c = ' ' || c = '\t'

def simpleEscape? : Char → Option Char
  | 'b' => some '\x08'
  | 't' => some '\t'
  | 'n' => some '\n'
  | 'f' => some '\x0C'
  | 'r' => some '\r'
  | '"' => some '"'
  | '\\' => some '\\'
  | _ => none

def hexValue? (c : Char) : Option Nat :=
  if '0' ≤ c ∧ c ≤ '9' then some (c.toNat - 48)
  else if 'a' ≤ c ∧ c ≤ 'f' then some (c.toNat - 87)
  else if 'A' ≤ c ∧ c ≤ 'F' then some (c.toNat - 55)
  else none

/-- The character of a number written in hexadecimal digits. -/
def hexChar? (ds : List Char) : Option Char := do
  let vs ← ds.mapM hexValue?
  let n := vs.foldl (fun n v => n * 16 + v) 0
  if n < 0xD800 ∨ (0xDFFF < n ∧ n < 0x110000) then some (Char.ofNat n) else none

/-- What one more character makes of a text that is read. -/
def withChar (c : Option Char) (r : Option (List Char × List Char)) :
    Option (List Char × List Char) := do
  let c ← c
  let (cs, rest) ← r
  return (c :: cs, rest)

def basic : List Char → Option (List Char × List Char)
  | [] => none
  | '"' :: rest => some ([], rest)
  | '\\' :: 'u' :: a :: b :: c :: d :: rest => withChar (hexChar? [a, b, c, d]) (basic rest)
  | '\\' :: 'U' :: a :: b :: c :: d :: e :: f :: g :: h :: rest =>
    withChar (hexChar? [a, b, c, d, e, f, g, h]) (basic rest)
  | '\\' :: c :: rest => withChar (simpleEscape? c) (basic rest)
  | c :: rest => withChar (if isPlain c && c ≠ '\\' then some c else none) (basic rest)

def literal : List Char → Option (List Char × List Char)
  | [] => none
  | '\'' :: rest => some ([], rest)
  | c :: rest => withChar (if isPlain c then some c else none) (literal rest)

/-- Where a reader of several lines stands: in the text, behind a backslash that has to end the
line, or in the blanks behind such an end. -/
inductive Standing
  | inText
  | beforeBreak
  | afterBreak
  deriving DecidableEq, Repr

/-- The rest behind closing quotes, of which two more may belong to the text. -/
def closing (q : Char) (rest : List Char) : List Char × List Char :=
  match rest with
  | a :: b :: rest' =>
    if a = q ∧ b = q then ([q, q], rest') else if a = q then ([q], b :: rest') else ([], a :: b :: rest')
  | [a] => if a = q then ([q], []) else ([], [a])
  | [] => ([], [])

def basicLines : Standing → List Char → Option (List Char × List Char)
  | _, [] => none
  | .beforeBreak, '\n' :: rest => basicLines .afterBreak rest
  | .beforeBreak, '\r' :: '\n' :: rest => basicLines .afterBreak rest
  | .beforeBreak, c :: rest => if isGap c then basicLines .beforeBreak rest else none
  | .afterBreak, '\n' :: rest => basicLines .afterBreak rest
  | .afterBreak, ' ' :: rest => basicLines .afterBreak rest
  | .afterBreak, '\t' :: rest => basicLines .afterBreak rest
  | .afterBreak, '\r' :: '\n' :: rest => basicLines .afterBreak rest
  | _, '"' :: '"' :: '"' :: rest => some (closing '"' rest)
  | _, '\\' :: 'u' :: a :: b :: c :: d :: rest =>
    withChar (hexChar? [a, b, c, d]) (basicLines .inText rest)
  | _, '\\' :: 'U' :: a :: b :: c :: d :: e :: f :: g :: h :: rest =>
    withChar (hexChar? [a, b, c, d, e, f, g, h]) (basicLines .inText rest)
  | _, '\\' :: '\n' :: rest => basicLines .afterBreak rest
  | _, '\\' :: '\r' :: '\n' :: rest => basicLines .afterBreak rest
  | _, '\\' :: c :: rest =>
    if isGap c then basicLines .beforeBreak rest
    else withChar (simpleEscape? c) (basicLines .inText rest)
  | _, '\r' :: '\n' :: rest => withChar (some '\n') (basicLines .inText rest)
  | _, c :: rest =>
    withChar (if c = '\n' || (isPlain c && c ≠ '\\') then some c else none) (basicLines .inText rest)

def literalLines : List Char → Option (List Char × List Char)
  | [] => none
  | '\'' :: '\'' :: '\'' :: rest => some (closing '\'' rest)
  | '\r' :: '\n' :: rest => withChar (some '\n') (literalLines rest)
  | c :: rest => withChar (if c = '\n' || isPlain c then some c else none) (literalLines rest)

/-- A line break right behind the opening quotes is no part of the text. -/
def withoutFirstBreak : List Char → List Char
  | '\n' :: rest => rest
  | '\r' :: '\n' :: rest => rest
  | cs => cs

/-- A text in any of the forms. -/
def quotedText (cs : List Char) : Option (List Char × List Char) :=
  match cs with
  | '"' :: '"' :: '"' :: rest => basicLines .inText (withoutFirstBreak rest)
  | '"' :: rest => basic rest
  | '\'' :: '\'' :: '\'' :: rest => literalLines (withoutFirstBreak rest)
  | '\'' :: rest => literal rest
  | _ => none

end CellReplay.Toml
