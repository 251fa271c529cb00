import CellReplay.Pattern.Engine
import CellReplay.Pattern.Parser

/-!
# Pattern.Meaning

The regular expression that a parsed pattern stands for. A flag takes effect from where it is set
to the end of its group, across the alternatives of that group.

* `ClassTree.set?`   — the characters of a class.
* `Tree.regex?`      — the expression of a tree and the flags behind it.
* `spelled?`         — the expression of a pattern's text.
* `compile?`         — the expression of a text that does not make too large a program.

Without the flag for all scripts a class is a class of ASCII characters; what would let bytes
through that are no text is refused.
-/

namespace CellReplay.Pattern

/-- The flags that bear on what is matched. -/
structure Flags where
  ignoreCase : Bool := false
  multiLine : Bool := false
  dotAll : Bool := false
  unicode : Bool := true
  crlf : Bool := false
  deriving DecidableEq, Repr

def Flags.change (f : Flags) (change : FlagChange) : Flags where
  ignoreCase := flagAfter .ignoreCase change f.ignoreCase
  multiLine := flagAfter .multiLine change f.multiLine
  dotAll := flagAfter .dotAll change f.dotAll
  unicode := flagAfter .unicode change f.unicode
  crlf := flagAfter .crlf change f.crlf

namespace Flags

/-- A set closed under case, where case is ignored. -/
def fold (f : Flags) (s : CharSet) : CharSet :=
  if f.ignoreCase then (if f.unicode then .folded s else .asciiFolded s) else s

/-- The complement, which ASCII classes have none of. -/
def negate? (f : Flags) (negated : Bool) (s : CharSet) : Option CharSet :=
  if negated then (if f.unicode then some (.compl s) else none) else some s

end Flags

def isAscii (c : Char) : Bool := c.toNat < 0x80

open CharSet in
def AsciiClass.set : AsciiClass → CharSet
  | .alnum => ofRanges [('0', '9'), ('A', 'Z'), ('a', 'z')]
  | .alpha => ofRanges [('A', 'Z'), ('a', 'z')]
  | .ascii => range '\x00' '\x7F'
  | .blank => ofRanges [('\t', '\t'), (' ', ' ')]
  | .cntrl => ofRanges [('\x00', '\x1F'), ('\x7F', '\x7F')]
  | .digit => range '0' '9'
  | .graph => range '!' '~'
  | .lower => range 'a' 'z'
  | .print => range ' ' '~'
  | .punct => ofRanges [('!', '/'), (':', '@'), ('[', '\x60'), ('\x7b', '~')]
  | .space => ofRanges [('\t', '\r'), (' ', ' ')]
  | .upper => range 'A' 'Z'
  | .word => ofRanges [('0', '9'), ('A', 'Z'), ('_', '_'), ('a', 'z')]
  | .xdigit => ofRanges [('0', '9'), ('A', 'F'), ('a', 'f')]

def Shorthand.set (unicode : Bool) : Shorthand → CharSet
  | .digit => if unicode then .property .digit else AsciiClass.digit.set
  | .blank => if unicode then .property .blank else AsciiClass.space.set
  | .word => if unicode then .property .word else AsciiClass.word.set

def propertySet? (E : Engine) (f : Flags) (p : PropertyName) (negated : Bool) : Option CharSet :=
  if f.unicode then (E.property? p).bind fun s => f.negate? negated (f.fold s) else none

def SetOp.set (s t : CharSet) : SetOp → CharSet
  | .inter => .inter s t
  | .diff => .diff s t
  | .symmDiff => .symmDiff s t

def ClassTree.set? (E : Engine) (f : Flags) : ClassTree → Option CharSet
  | .nothing => some .empty
  | .literal l => if f.unicode || isAscii l.char then some (.single l.char) else none
  | .range a b =>
    if f.unicode || (isAscii a.char && isAscii b.char) then some (.range a.char b.char) else none
  | .ascii k negated => f.negate? negated (f.fold k.set)
  | .shorthand k negated => f.negate? negated (k.set f.unicode)
  | .property p negated => propertySet? E f p negated
  | .bracketed negated t => do f.negate? negated (f.fold (← t.set? E f))
  | .union s t => do return .union (← s.set? E f) (← t.set? E f)
  | .op o s t => do return o.set (f.fold (← s.set? E f)) (f.fold (← t.set? E f))

def Assertion.look (f : Flags) : Assertion → Look
  | .lineStart => if f.multiLine then (if f.crlf then .crlfStart else .lineStart) else .textStart
  | .lineEnd => if f.multiLine then (if f.crlf then .crlfEnd else .lineEnd) else .textEnd
  | .textStart => .textStart
  | .textEnd => .textEnd
  | .boundary => .boundary (!f.unicode)
  | .noBoundary => .noBoundary (!f.unicode)
  | .wordStart => .wordStart (!f.unicode)
  | .wordEnd => .wordEnd (!f.unicode)
  | .wordStartHalf => .wordStartHalf (!f.unicode)
  | .wordEndHalf => .wordEndHalf (!f.unicode)

/-- A character by itself. A byte beyond ASCII is no character. -/
def literalSet? (f : Flags) (l : Literal) : Option CharSet :=
  if f.unicode then some (f.fold (.single l.char))
  else if isAscii l.char then some (f.fold (.single l.char))
  else if l.isByteEscape then none
  else some (.single l.char)

/-- Any character, or any that ends no line. -/
def dotSet? (f : Flags) : Option CharSet :=
  if !f.unicode then none
  else if f.dotAll then some (.property .any)
  else if f.crlf then some (.compl (.union (.single '\r') (.single '\n')))
  else some (.compl (.single '\n'))

def Tree.regex? (E : Engine) (f : Flags) : Tree → Option (Regex × Flags)
  | .empty => some (.empty, f)
  | .flags change => some (.empty, f.change change)
  | .literal l => (literalSet? f l).map fun s => (.set s, f)
  | .dot => (dotSet? f).map fun s => (.set s, f)
  | .assertion a => some (.look (a.look f), f)
  | .shorthand k negated => (f.negate? negated (k.set f.unicode)).map fun s => (.set s, f)
  | .property p negated => (propertySet? E f p negated).map fun s => (.set s, f)
  | .bracketed negated t => do
    return (.set (← f.negate? negated (f.fold (← t.set? E f))), f)
  | .repeated t min max => do
    let (r, f) ← t.regex? E f
    return (.rep r min max, f)
  | .group change t => do return ((← t.regex? E (f.change change)).1, f)
  | .alternatives s t => do
    let (r, f) ← s.regex? E f
    let (r', f) ← t.regex? E f
    return (.alt r r', f)
  | .sequence s t => do
    let (r, f) ← s.regex? E f
    let (r', f) ← t.regex? E f
    return (.cat r r', f)

/-- The expression that a text spells, if it is well formed and the engine knows its properties. -/
def spelled? (E : Engine) (source : List Char) : Option Regex := do
  return (← (← parse source).regex? E {}).1

def compile? (E : Engine) (source : List Char) : Option Regex :=
  (spelled? E source).filter (E.fits source)

end CellReplay.Pattern
