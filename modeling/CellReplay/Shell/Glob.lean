import CellReplay.Shell.Bytes

/-!
# Shell.Glob

Patterns of texts, as in choices and in names of files.

* `Glob.ofChars`   — the pattern of characters; quoted ones stand for themselves.
* `Glob.matches`   — a text as a whole has a pattern.
* `dropStart`, `dropEnd` — a text without the shortest or longest part that has a pattern.
-/

namespace CellReplay.Shell

inductive Member
  | range (low high : Char)
  | kind (test : String)
  deriving DecidableEq, Repr

inductive Glob
  | char (c : Char)
  | any
  | many
  | oneOf (negated : Bool) (members : List Member)
  deriving DecidableEq, Repr

def Member.has (c : Char) : Member → Bool
  | range low high => low ≤ c && c ≤ high
  | kind test =>
    match test with
    | "alpha" => c.isAlpha
    | "digit" => isDigit c
    | "alnum" => c.isAlphanum
    | "upper" => c.isUpper
    | "lower" => c.isLower
    | "space" => c = ' ' || ('\t' ≤ c && c ≤ '\r')
    | "blank" => c = ' ' || c = '\t'
    | "punct" => '!' ≤ c && c ≤ '~' && !c.isAlphanum
    | "print" => ' ' ≤ c && c ≤ '~'
    | "graph" => '!' ≤ c && c ≤ '~'
    | "cntrl" => c < ' ' || c = '\x7f'
    | "xdigit" => isDigit c || ('a' ≤ c && c ≤ 'f') || ('A' ≤ c && c ≤ 'F')
    | _ => false

def Glob.has (c : Char) : Glob → Bool
  | char d => c = d
  | any => true
  | many => false
  | oneOf negated ms => ms.any (·.has c) != negated

/-- The members of a set up to the bracket that closes it; a bracket in the first place is a
member. -/
def membersOf : Nat → Bool → List (Char × Bool) → Option (List Member × List (Char × Bool))
  | 0, _, _ => none
  | _, _, [] => none
  | fuel + 1, first, (c, q) :: cs =>
    let add := fun (m : Member) (rest : List (Char × Bool)) =>
      (membersOf fuel false rest).map fun (ms, rest) => (m :: ms, rest)
    if c = ']' && !q && !first then some ([], cs)
    else
      match cs with
      | (':', false) :: rest =>
        if c = '[' && !q then
          let name := (rest.takeWhile (·.1 ≠ ':')).map (·.1)
          match rest.drop name.length with
          | (':', _) :: (']', _) :: rest => add (.kind (String.ofList name)) rest
          | _ => add (.range c c) cs
        else add (.range c c) cs
      | ('-', false) :: (d, e) :: rest =>
        if d = ']' && !e then add (.range c c) cs else add (.range c d) rest
      | cs => add (.range c c) cs

/-- The pattern of characters, each with whether it is quoted. -/
def Glob.ofChars : Nat → List (Char × Bool) → List Glob
  | 0, _ => []
  | _, [] => []
  | fuel + 1, (c, q) :: cs =>
    if q then .char c :: ofChars fuel cs
    else if c = '*' then .many :: ofChars fuel cs
    else if c = '?' then .any :: ofChars fuel cs
    else if c = '[' then
      let (negated, inner) := match cs with
        | ('!', false) :: rest => (true, rest)
        | ('^', false) :: rest => (true, rest)
        | cs => (false, cs)
      match membersOf fuel true inner with
      | some (ms, rest) => .oneOf negated ms :: ofChars fuel rest
      | none => .char c :: ofChars fuel cs
    else .char c :: ofChars fuel cs

def globOf (cs : List (Char × Bool)) : List Glob := Glob.ofChars (cs.length + 1) cs

/-- Whether a pattern can match more than one text. -/
def isOpen (g : List Glob) : Bool := g.any fun p => match p with | .char _ => false | _ => true

def Glob.matches : List Glob → Bytes → Bool
  | [], cs => cs.isEmpty
  | .many :: ps, cs => manyMatches (Glob.matches ps) cs
  | _ :: _, [] => false
  | p :: ps, c :: cs => p.has c && Glob.matches ps cs
where
  /-- Some rest of the text passes the test. -/
  manyMatches (test : Bytes → Bool) : Bytes → Bool
    | [] => test []
    | c :: cs => test (c :: cs) || manyMatches test cs

/-- The lengths of the beginnings of a text. -/
def lengths (cs : Bytes) : List Nat := List.range (cs.length + 1)

def dropStart (longest : Bool) (g : List Glob) (cs : Bytes) : Bytes :=
  let ns := if longest then (lengths cs).reverse else lengths cs
  match ns.find? fun n => Glob.matches g (cs.take n) with
  | some n => cs.drop n
  | none => cs

def dropEnd (longest : Bool) (g : List Glob) (cs : Bytes) : Bytes :=
  let ns := if longest then lengths cs else (lengths cs).reverse
  match ns.find? fun n => Glob.matches g (cs.drop n) with
  | some n => cs.take n
  | none => cs

end CellReplay.Shell
