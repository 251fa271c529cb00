/-!
# Decimal.Double

Numbers of 64-bit floating point: 53 binary digits and an exponent.

* `Magnitude`      — `mantissa * 2 ^ exponent`, in its normal form.
* `roundRatio`     — the magnitude nearest to a quotient, the even one of two that are as near.
* `ofDecimal`      — the magnitude nearest to a decimal number.
* `Double`         — a magnitude with a sign.
-/

namespace CellReplay.Decimal

structure Magnitude where
  mantissa : Nat
  exponent : Int
  deriving DecidableEq, Repr

/-- The least exponent, which numbers near zero share. -/
def minExponent : Int := -1074
def maxExponent : Int := 971
def maxMantissa : Nat := 1 <<< 53

def tenTo (k : Nat) : Nat := Nat.pow 10 k

/-- `num / den` to the nearest whole number, a half to the even one. -/
def divNearest (num den : Nat) : Nat :=
  let q := num / den
  let r := num % den
  if 2 * r < den then q
  else if den < 2 * r then q + 1
  else if q % 2 = 0 then q else q + 1

/-- `num / den` in units of `2 ^ e`, as a fraction. -/
def scaled (num den : Nat) (e : Int) : Nat × Nat :=
  match e with
  | .ofNat k => (num, den <<< k)
  | .negSucc k => (num <<< (k + 1), den)

/-- The exponent with which a positive quotient has 53 binary digits, or the least one. -/
def exponentOf (num den : Nat) : Int :=
  let guess : Int := (num.log2 : Int) - den.log2 - 52
  let (a, b) := scaled num den guess
  max minExponent (if a / b < 1 <<< 52 then guess - 1 else guess)

/-- The nearest magnitude, if it is not too large. -/
def roundRatio (num den : Nat) : Option Magnitude :=
  if num = 0 then some ⟨0, minExponent⟩
  else
    let e := exponentOf num den
    let (a, b) := scaled num den e
    let m := divNearest a b
    let r : Magnitude := if m = maxMantissa then ⟨m / 2, e + 1⟩ else ⟨m, e⟩
    if r.exponent ≤ maxExponent then some r else none

/-- `digits * 10 ^ e`, rounded. -/
def ofDecimal (digits : Nat) (e : Int) : Option Magnitude :=
  match e with
  | .ofNat k => roundRatio (digits * tenTo k) 1
  | .negSucc k => roundRatio digits (tenTo (k + 1))

namespace Magnitude

def ratio (x : Magnitude) : Nat × Nat :=
  match x.exponent with
  | .ofNat k => (x.mantissa <<< k, 1)
  | .negSucc k => (x.mantissa, 1 <<< (k + 1))

def mul (x y : Magnitude) : Option Magnitude :=
  roundRatio (x.ratio.1 * y.ratio.1) (x.ratio.2 * y.ratio.2)

def div (x y : Magnitude) : Option Magnitude :=
  roundRatio (x.ratio.1 * y.ratio.2) (x.ratio.2 * y.ratio.1)

def isZero (x : Magnitude) : Bool := x.mantissa = 0

end Magnitude

structure Double where
  negative : Bool
  magnitude : Magnitude
  deriving DecidableEq, Repr

example : ofDecimal 5 (-1) = some ⟨2 ^ 52, -53⟩ := by decide +kernel
example : ofDecimal 5 (-324) = some ⟨1, -1074⟩ := by decide +kernel
example : ofDecimal 1 309 = none := by decide +kernel

end CellReplay.Decimal
