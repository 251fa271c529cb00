import CellReplay.Decimal.Double
import CellReplay.Text.Join

/-!
# Decimal.Shortest

The shortest decimal that reads back as a number, and two ways to write it.

* `shortest`     — digits and the place of the point.
* `positional`   — always with all places, as in `0.000001`.
* `scientific`   — with an exponent where the number is large or small, as in `1e-06`.
-/

namespace CellReplay.Decimal

open Text

def digitCount (n : Nat) : Nat := (Nat.toDigits 10 n).length

/-- The exponent of the first digit of a positive fraction: the greatest `k` with `10 ^ k` at most
the fraction. -/
def leadingExponent (num den : Nat) : Int :=
  if den ≤ num then (digitCount (num / den) : Int) - 1
  else -(digitCount ((num + den - 1) / num - 1) : Int)

/-- `num / den` in units of `10 ^ k`, as a fraction. -/
def inUnits (num den : Nat) (k : Int) : Nat × Nat :=
  match k with
  | .ofNat j => (num, den * tenTo j)
  | .negSucc j => (num * tenTo (j + 1), den)

/-- The numbers that round to a magnitude, as fractions: the ends of their interval, which belong to
it if the mantissa is even. -/
structure Interval where
  low : Nat × Nat
  high : Nat × Nat
  closed : Bool

def Magnitude.interval (x : Magnitude) : Interval :=
  let quarter := fun (n : Nat) => (Magnitude.mk n (x.exponent - 2)).ratio
  let below := if x.mantissa = 1 <<< 52 ∧ x.exponent ≠ minExponent then 1 else 2
  ⟨quarter (4 * x.mantissa - below), quarter (4 * x.mantissa + 2), x.mantissa % 2 = 0⟩

def Interval.contains (i : Interval) (num den : Nat) : Bool :=
  let l := i.low.1 * den
  let m := num * i.low.2
  let h := i.high.1 * den
  let n := num * i.high.2
  if i.closed then l ≤ m && n ≤ h else l < m && n < h

/-- A decimal of `n` digits that reads back: of the two neighbours of the number among the decimals
of that many digits, the one that does so, or the nearer one. -/
def candidate (x : Magnitude) (n : Nat) : Option (Nat × Int) :=
  let (num, den) := x.ratio
  let k := leadingExponent num den - (n : Int) + 1
  let (a, b) := inUnits num den k
  let d := a / b
  let value := fun (d : Nat) => match k with
    | .ofNat j => (d * tenTo j, 1)
    | .negSucc j => (d, tenTo (j + 1))
  let fits := fun (d : Nat) => x.interval.contains (value d).1 (value d).2
  let r := a % b
  if fits d && (!fits (d + 1) || 2 * r < b || (2 * r = b && d % 2 = 0)) then some (d, k)
  else if fits (d + 1) then some (d + 1, k)
  else none

/-- The digits of the shortest decimal and the number of them that stand before the point, which may
be negative. -/
def shortest (x : Magnitude) : List Char × Int :=
  if x.isZero then (['0'], 1)
  else
    match (List.range 17).findSome? fun i => candidate x (i + 1) with
    | some (d, k) =>
      let ds := Nat.toDigits 10 d
      let trimmed := (ds.reverse.dropWhile (· = '0')).reverse
      (trimmed, (ds.length : Int) + k)
    | none => (['0'], 1)

def zeros (n : Nat) : List Char := List.replicate n '0'

/-- Digits with a point after the first `p` of them; no point after all of them. -/
def placed (ds : List Char) (p : Int) : List Char :=
  if p ≤ 0 then ['0', '.'] ++ zeros (-p).toNat ++ ds
  else if ds.length ≤ p.toNat then ds ++ zeros (p.toNat - ds.length)
  else ds.take p.toNat ++ ['.'] ++ ds.drop p.toNat

def sign (negative : Bool) : String := if negative then "-" else ""

/-- All places, and no point in a whole number. -/
def positional (x : Double) : String :=
  let (ds, p) := shortest x.magnitude
  sign x.negative ++ String.ofList (placed ds p)

/-- An exponent with its sign and at least two digits. -/
def exponentText (e : Int) : List Char :=
  let ds := Nat.toDigits 10 e.natAbs
  (if e < 0 then '-' else '+') :: zeros (2 - ds.length) ++ ds

/-- From 0.00001 up to below 10 ^ 16 with all places, and with `.0` behind a whole number; else one
digit, perhaps more behind a point, and an exponent. -/
def scientific (x : Double) : String :=
  let (ds, p) := shortest x.magnitude
  let digits :=
    if -5 < p ∧ p ≤ 16 then
      if (ds.length : Int) ≤ p then placed ds p ++ ['.', '0'] else placed ds p
    else
      ds.take 1 ++ (if ds.length = 1 then [] else '.' :: ds.drop 1) ++ ['e'] ++ exponentText (p - 1)
  sign x.negative ++ String.ofList digits

end CellReplay.Decimal
