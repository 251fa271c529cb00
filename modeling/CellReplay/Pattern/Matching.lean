import CellReplay.Pattern.Regex

/-!
# Pattern.Matching

Deciding whether an expression matches. A set of positions is a number whose bit `i` stands for
position `i`; an expression takes each set of positions to the set of those at which it can end.

* `Plan`         — an expression with its tests done once for each position of one text.
* `Plan.after`   — the positions that an expression reaches from some positions.
* `Regex.isFound` — the expression matches somewhere in the text.
-/

namespace CellReplay.Pattern

/-- The positions of a text, the end among them, whose two neighbours pass a test. -/
def positionsFrom (test : Option Char → Option Char → Bool) (before : Option Char) :
    List Char → Nat
  | [] => (test before none).toNat
  | c :: cs => (test before (some c)).toNat + 2 * positionsFrom test (some c) cs

/-- An expression over one text: a test passed in place, a test of the character that is passed
over, and what is composed of these. -/
inductive Plan
  | skip
  | stay (mask : Nat)
  | move (mask : Nat)
  | cat (p q : Plan)
  | alt (p q : Plan)
  | rep (p : Plan) (min : Nat) (max : Option Nat)
  deriving DecidableEq, Repr

def Regex.plan (text : List Char) : Regex → Plan
  | .empty => .skip
  | .set s => .move (positionsFrom (fun _ next => next.elim false s.contains) none text)
  | .look l => .stay (positionsFrom (fun before next => l.holds before next) none text)
  | .cat r s => .cat (r.plan text) (s.plan text)
  | .alt r s => .alt (r.plan text) (s.plan text)
  | .rep r min max => .rep (r.plan text) min max

/-- `n` times `f`; no position is reached from none. -/
def times (f : Nat → Nat) : Nat → Nat → Nat
  | 0, s => s
  | n + 1, s => if s = 0 then 0 else times f n (f s)

/-- What `f` reaches in at most `n` further steps: `new` are the positions reached in the last
step and not before it, `seen` all that have been reached. -/
def upTo (f : Nat → Nat) : Nat → Nat → Nat → Nat
  | 0, _, seen => seen
  | n + 1, new, seen =>
    let next := f new
    let fresh := next ^^^ (next &&& seen)
    if fresh = 0 then seen else upTo f n fresh (seen ||| fresh)

/-- The positions reached from the positions `s` of a text of `length` characters. -/
def Plan.after (length : Nat) : Plan → Nat → Nat
  | .skip, s => s
  | .stay mask, s => s &&& mask
  | .move mask, s => (s &&& mask) <<< 1
  | .cat p q, s => q.after length (p.after length s)
  | .alt p q, s => p.after length s ||| q.after length s
  | .rep p min max, s =>
    let first := times (p.after length) min s
    upTo (p.after length) (max.elim (length + 1) (· - min)) first first

namespace Regex

def isFound (r : Regex) (text : List Char) : Bool :=
  (r.plan text).after text.length (1 <<< (text.length + 1) - 1) ≠ 0

def isWhole (r : Regex) (text : List Char) : Bool :=
  ((r.plan text).after text.length 1).testBit text.length

end Regex

end CellReplay.Pattern
