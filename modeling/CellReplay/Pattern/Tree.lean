/-!
# Pattern.Tree

Patterns as they are written: the parse tree, before flags have taken effect.

* `PropertyName`      — a property of characters as a pattern asks for it.
* `ClassTree`, `Tree` — bracketed classes, and whole patterns.
* `Tree.depth`        — how deeply a pattern nests. A sequence or a list of alternatives is one
  level, however many members it has; so its right spine is not counted again.
-/

namespace CellReplay.Pattern

inductive Flag
  | ignoreCase
  | multiLine
  | dotAll
  | swapGreed
  | unicode
  | crlf
  | verbose
  deriving DecidableEq, Repr

/-- Flags in the order in which they are written, each set or cleared. -/
abbrev FlagChange := List (Flag × Bool)

/-- A character, and whether two hexadecimal digits spell it, which is how bytes are spelled. -/
structure Literal where
  char : Char
  isByteEscape : Bool
  deriving DecidableEq, Repr

/-- The classes `\d`, `\s` and `\w`. -/
inductive Shorthand
  | digit
  | blank
  | word
  deriving DecidableEq, Repr

/-- The classes that a bracket can name, as in `[:alpha:]`. -/
inductive AsciiClass
  | alnum | alpha | ascii | blank | cntrl | digit | graph | lower | print | punct | space | upper
  | word | xdigit
  deriving DecidableEq, Repr

/-- A property by its name, as in `\p{Greek}`, or by a value of a named property, as in
`\p{script=Greek}`. -/
inductive PropertyName
  | named (name : List Char)
  | valued (name value : List Char)
  deriving DecidableEq, Repr

inductive SetOp
  | inter
  | diff
  | symmDiff
  deriving DecidableEq, Repr

inductive ClassTree
  | nothing
  | literal (l : Literal)
  | range (first last : Literal)
  | ascii (k : AsciiClass) (negated : Bool)
  | shorthand (k : Shorthand) (negated : Bool)
  | property (p : PropertyName) (negated : Bool)
  | bracketed (negated : Bool) (t : ClassTree)
  | union (s t : ClassTree)
  | op (o : SetOp) (s t : ClassTree)
  deriving DecidableEq, Repr

inductive Assertion
  | lineStart
  | lineEnd
  | textStart
  | textEnd
  | boundary
  | noBoundary
  | wordStart
  | wordEnd
  | wordStartHalf
  | wordEndHalf
  deriving DecidableEq, Repr

inductive Tree
  | empty
  | flags (change : FlagChange)
  | literal (l : Literal)
  | dot
  | assertion (a : Assertion)
  | shorthand (k : Shorthand) (negated : Bool)
  | property (p : PropertyName) (negated : Bool)
  | bracketed (negated : Bool) (t : ClassTree)
  | repeated (t : Tree) (min : Nat) (max : Option Nat)
  | group (change : FlagChange) (t : Tree)
  | alternatives (s t : Tree)
  | sequence (s t : Tree)
  deriving DecidableEq, Repr

/-- How deeply a class nests below its own bracket. -/
def ClassTree.depth : ClassTree → Nat
  | .bracketed _ t => t.depth + 1
  | .union s t => max (s.depth + 1) (match t with | .union _ _ => t.depth | _ => t.depth + 1)
  | .op _ s t => max s.depth t.depth + 1
  | _ => 0

def Tree.depth : Tree → Nat
  | .bracketed _ t => t.depth + 1
  | .repeated t _ _ => t.depth + 1
  | .group _ t => t.depth + 1
  | .alternatives s t =>
    max (s.depth + 1) (match t with | .alternatives _ _ => t.depth | _ => t.depth + 1)
  | .sequence s t =>
    max (s.depth + 1) (match t with | .sequence _ _ => t.depth | _ => t.depth + 1)
  | _ => 0

/-- A class of several members, of one, or of none. -/
def ClassTree.ofMembers : List ClassTree → ClassTree
  | [] => .nothing
  | [t] => t
  | t :: ts => .union t (ofMembers ts)

def Tree.ofSequence : List Tree → Tree
  | [] => .empty
  | [t] => t
  | t :: ts => .sequence t (ofSequence ts)

def Tree.ofAlternatives : List Tree → Tree
  | [] => .empty
  | [t] => t
  | t :: ts => .alternatives t (ofAlternatives ts)

end CellReplay.Pattern
