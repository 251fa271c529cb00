import CellReplay.Decimal.Shortest

/-!
# Decimal.Places

Quotients written with a given number of decimal places.

* `fixed`      — digits in front of the point and behind it.
* `scientific` — one digit in front of the point, and an exponent.
* `general`    — the shorter of the two, with a given number of digits that count.

All round to the nearest, a half to the even digit.
-/

namespace CellReplay.Decimal.Places

def exponentDigits : Nat := 2

def padded (n : Nat) (ds : List Char) : List Char := List.replicate (n - ds.length) '0' ++ ds

/-- Digits with a point so that `places` of them are behind it. -/
def pointed (places : Nat) (n : Nat) : List Char :=
  let ds := padded (places + 1) (Nat.toDigits 10 n)
  let front := ds.take (ds.length - places)
  if places = 0 then front else front ++ '.' :: ds.drop (ds.length - places)

def fixed (num den places : Nat) : List Char := pointed places (divNearest (num * tenTo places) den)

/-- The digits of a quotient, `places + 1` of them, as one number, with the place of the first. -/
def rounded (num den places : Nat) : Nat × Int :=
  if num = 0 then (0, 0)
  else
    let e := leadingExponent num den
    let (a, b) := inUnits num den (e - places)
    let n := divNearest a b
    if n = tenTo (places + 1) then (n / 10, e + 1) else (n, e)

def exponentText (mark : Char) (e : Int) : List Char :=
  mark :: (if e < 0 then '-' else '+') :: padded exponentDigits (Nat.toDigits 10 e.natAbs)

def scientific (mark : Char) (num den places : Nat) : List Char :=
  let (n, e) := rounded num den places
  pointed places n ++ exponentText mark e

/-- Digits without zeros at their end, if they have a point. -/
def stripped (ds : List Char) : List Char :=
  if ds.contains '.' then
    (((ds.reverse.dropWhile (· = '0')).dropWhile (· = '.'))).reverse
  else ds

/-- With `digits` digits that count; zeros at the end go unless all are kept. -/
def general (keeps : Bool) (mark : Char) (num den digits : Nat) : List Char :=
  let digits := max digits 1
  let (n, e) := rounded num den (digits - 1)
  let shown := fun (ds : List Char) => if keeps then ds else stripped ds
  if -4 ≤ e ∧ e < digits then shown (fixed num den (digits - 1 - e).toNat)
  else shown (pointed (digits - 1) n) ++ exponentText mark e

example : fixed 5 2 0 = ['2'] := by decide +kernel
example : scientific 'e' 12345678 1000 2 = "1.23e+04".toList := by decide +kernel
example : general false 'e' 1 10000 6 = "0.0001".toList := by decide +kernel

end CellReplay.Decimal.Places
