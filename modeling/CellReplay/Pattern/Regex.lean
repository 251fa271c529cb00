import CellReplay.Pattern.CharSet

/-!
# Pattern.Regex

Regular expressions with assertions about their surroundings.

* `Look.holds`    — an assertion, given the characters on both sides of a position.
* `Regex.Matches` — the expression matches the text between two positions.
* `Regex.Found`   — it matches somewhere in the text.
-/

namespace CellReplay.Pattern

/-- Assertions about a position. Those about words know words of all scripts or ASCII words. -/
inductive Look
  | textStart
  | textEnd
  | lineStart
  | lineEnd
  | crlfStart
  | crlfEnd
  | boundary (ascii : Bool)
  | noBoundary (ascii : Bool)
  | wordStart (ascii : Bool)
  | wordEnd (ascii : Bool)
  | wordStartHalf (ascii : Bool)
  | wordEndHalf (ascii : Bool)
  deriving DecidableEq, Repr

def wordAt (ascii : Bool) (c : Option Char) : Bool :=
  c.elim false (if ascii then isAsciiWordChar else isWordChar)

/-- The assertion between the characters `before` and `after`. -/
def Look.holds (before after : Option Char) : Look → Bool
  | .textStart => before.isNone
  | .textEnd => after.isNone
  | .lineStart => before.isNone || before = some '\n'
  | .lineEnd => after.isNone || after = some '\n'
  | .crlfStart => before.isNone || before = some '\n' || (before = some '\r' && after ≠ some '\n')
  | .crlfEnd => after.isNone || after = some '\r' || (after = some '\n' && before ≠ some '\r')
  | .boundary a => wordAt a before != wordAt a after
  | .noBoundary a => wordAt a before == wordAt a after
  | .wordStart a => !wordAt a before && wordAt a after
  | .wordEnd a => wordAt a before && !wordAt a after
  | .wordStartHalf a => !wordAt a before
  | .wordEndHalf a => !wordAt a after

inductive Regex
  | empty
  | set (s : CharSet)
  | look (l : Look)
  | cat (r s : Regex)
  | alt (r s : Regex)
  | rep (r : Regex) (min : Nat) (max : Option Nat)
  deriving DecidableEq, Repr

/-- The character before position `i`. -/
def charBefore (text : List Char) : Nat → Option Char
  | 0 => none
  | i + 1 => text[i]?

/-- `n` steps of a relation. -/
def Steps (r : Nat → Nat → Prop) : Nat → Nat → Nat → Prop
  | 0, i, j => i = j
  | n + 1, i, j => ∃ k, r i k ∧ Steps r n k j

namespace Regex

/-- The expression matches the text from position `i` to position `j`. -/
def Matches (text : List Char) : Regex → Nat → Nat → Prop
  | .empty, i, j => i = j
  | .set s, i, j => j = i + 1 ∧ ∃ c, text[i]? = some c ∧ s.contains c = true
  | .look l, i, j => i = j ∧ i ≤ text.length ∧ l.holds (charBefore text i) text[i]? = true
  | .cat r s, i, j => ∃ k, r.Matches text i k ∧ s.Matches text k j
  | .alt r s, i, j => r.Matches text i j ∨ s.Matches text i j
  | .rep r min max, i, j =>
    ∃ n, min ≤ n ∧ (∀ m ∈ max, n ≤ m) ∧ Steps (r.Matches text) n i j

def Found (r : Regex) (text : List Char) : Prop :=
  ∃ i j, i ≤ text.length ∧ r.Matches text i j

def MatchesWhole (r : Regex) (text : List Char) : Prop := r.Matches text 0 text.length

end Regex

end CellReplay.Pattern
