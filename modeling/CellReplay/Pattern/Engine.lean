import CellReplay.Pattern.Property
import CellReplay.Pattern.Regex

/-!
# Pattern.Engine

What patterns mean beyond their own syntax is the business of the engine that compiles them: the
properties of characters that it has names for, and the programs that it takes for too large.

* `Engine`        — any engine.
* `Engine.tabled` — the engine that patterns are run with here. Its names are those of tables that
  do not hold every name, and it only estimates how large a program is.
-/

namespace CellReplay.Pattern

structure Engine where
  /-- The characters that have a property, if the engine knows its name. -/
  property? : PropertyName → Option CharSet
  /-- The program for a text, which spells the expression, is not too large. -/
  fits : List Char → Regex → Bool

/-! ## Size -/

/-- An estimate of the bytes for the states that tell a set from its complement. -/
def CharSet.size : CharSet → Nat
  | .empty => 32
  | .range a b => if b.toNat < 0x80 then 32 else if a = b then 96 else 320
  | .property p =>
    match p with
    | .blank => 900
    | .digit => 5400
    | .word => 50000
    | .category _ => 30000
    | .script _ => 4000
    | .any => 320
    | .ascii => 32
    | _ => 45000
  | .union s t => s.size + t.size
  | .inter s t | .diff s t => max s.size t.size
  | .symmDiff s t => s.size + t.size
  | .compl s => s.size + 320
  | .folded s => 2 * s.size
  | .asciiFolded s => s.size + 32

def Regex.size : Regex → Nat
  | .empty => 32
  | .set s => s.size
  | .look _ => 32
  | .cat r s => r.size + s.size
  | .alt r s => r.size + s.size + 36
  | .rep r min none => max min 1 * r.size + 72
  | .rep r min (some max) => min * r.size + (max - min) * (r.size + 72) + 32

def maxSize : Nat := 10485760

def Engine.tabled : Engine where
  property? := PropertyName.set?
  fits _ r := r.size ≤ maxSize

end CellReplay.Pattern
