import CellReplay.Text.Integer
import CellReplay.Toml.Value

/-!
# Toml.Scalar

Numbers and moments as they are written in a TOML document. A reader takes characters from the front
of a text and gives back the rest.

* `number` — integers in four bases, and floating point numbers.
* `moment` — dates and times of day.
-/

namespace CellReplay.Toml

open Decimal Text

def isDecimal (c : Char) : Bool := (digitValue? c).isSome

/-- Digits in a row; a single underscore may stand between two of them. -/
def digitsAfter (ok : Char → Bool) : List Char → Option (List Char × List Char)
  | [] => some ([], [])
  | ['_'] => none
  | '_' :: c :: cs => if ok c then (digitsAfter ok cs).map fun (ds, rest) => (c :: ds, rest) else none
  | c :: cs =>
    if ok c then (digitsAfter ok cs).map fun (ds, rest) => (c :: ds, rest) else some ([], c :: cs)

/-- The same, with a digit first. -/
def digits (ok : Char → Bool) : List Char → Option (List Char × List Char)
  | c :: cs => if ok c then (digitsAfter ok cs).map fun (ds, rest) => (c :: ds, rest) else none
  | [] => none

/-- Decimal digits of which only a single one may be zero at the front. -/
def wholeDigits : List Char → Option (List Char × List Char)
  | '0' :: cs => some (['0'], cs)
  | cs => digits isDecimal cs

def signed (cs : List Char) : Option Bool × List Char :=
  match cs with
  | '+' :: cs => (some false, cs)
  | '-' :: cs => (some true, cs)
  | cs => (none, cs)

/-- The value of a digit of any base. -/
def baseDigit (c : Char) : Nat :=
  if '0' ≤ c ∧ c ≤ '9' then c.toNat - 48
  else if 'a' ≤ c ∧ c ≤ 'f' then c.toNat - 87
  else c.toNat - 55

def isBaseDigit (base : Nat) (c : Char) : Bool :=
  (('0' ≤ c && c ≤ '9') || ('a' ≤ c && c ≤ 'f') || ('A' ≤ c && c ≤ 'F')) && baseDigit c < base

def valueIn (base : Nat) (ds : List Char) : Nat := ds.foldl (fun n d => n * base + baseDigit d) 0

/-- An integer of a base other than ten, behind its mark. It has no sign. -/
def integerIn (base : Nat) (cs : List Char) : Option (Value × List Char) := do
  let (ds, rest) ← digits (isBaseDigit base) cs
  let n := valueIn base ds
  if n ≤ maxInt64 then some (.integer n, rest) else none

def decimalInteger (cs : List Char) : Option (Value × List Char) := do
  let (sign, cs) := signed cs
  let (ds, rest) ← wholeDigits cs
  let n : Int := valueIn 10 ds
  let n := if sign = some true then -n else n
  if -(maxInt64 : Int) - 1 ≤ n ∧ n ≤ maxInt64 then some (.integer n, rest) else none

def integer (cs : List Char) : Option (Value × List Char) :=
  match cs with
  | '0' :: 'x' :: cs => integerIn 16 cs
  | '0' :: 'o' :: cs => integerIn 8 cs
  | '0' :: 'b' :: cs => integerIn 2 cs
  | cs => decimalInteger cs

/-- The exponent behind its letter. -/
def exponentDigits (cs : List Char) : Option (Int × List Char) := do
  let (sign, cs) := signed cs
  let (ds, rest) ← digits isDecimal cs
  let n : Int := valueIn 10 ds
  return (if sign = some true then -n else n, rest)

def optionalExponent (cs : List Char) : Option (Int × List Char) :=
  match cs with
  | 'e' :: cs => exponentDigits cs
  | 'E' :: cs => exponentDigits cs
  | cs => some (0, cs)

/-- The number nearest to `n * 10 ^ e`. What is too large is infinite. -/
def nearest (negative : Bool) (n : Nat) (e : Int) : Floating :=
  let top := (digitCount n : Int) + e
  if n = 0 ∨ top < -400 then .finite ⟨negative, ⟨0, minExponent⟩⟩
  else if 400 < top then .infinite negative
  else
    match ofDecimal n e with
    | some m => .finite ⟨negative, m⟩
    | none => .infinite negative

/-- Digits with a fraction, an exponent or both. A positive number must not be too large. -/
def fractional (cs : List Char) : Option (Value × List Char) := do
  let (sign, cs) := signed cs
  let (whole, cs) ← wholeDigits cs
  let (fraction, e, rest) ← match cs with
    | '.' :: cs => do
      let (fs, cs) ← digits isDecimal cs
      let (e, rest) ← optionalExponent cs
      some (fs, e, rest)
    | 'e' :: cs => (exponentDigits cs).map fun (e, rest) => ([], e, rest)
    | 'E' :: cs => (exponentDigits cs).map fun (e, rest) => ([], e, rest)
    | _ => none
  let x := nearest (sign = some true) (valueIn 10 (whole ++ fraction)) (e - fraction.length)
  if x = .infinite false then none else some (.floating x, rest)

def afterWord (w : List Char) (cs : List Char) : Option (List Char) :=
  if w.isPrefixOf cs then some (cs.drop w.length) else none

def special (cs : List Char) : Option (Value × List Char) :=
  let (sign, cs) := signed cs
  match afterWord "inf".toList cs, afterWord "nan".toList cs with
  | some rest, _ => some (.floating (.infinite (sign = some true)), rest)
  | none, some rest => some (.floating .undefined, rest)
  | none, none => none

/-- A number. What begins like a fraction or an exponent has to be one. -/
def number (cs : List Char) : Option (Value × List Char) :=
  match special cs with
  | some r => some r
  | none =>
    match wholeDigits (signed cs).2 with
    | some (_, '.' :: _) => fractional cs
    | some (_, 'e' :: _) => fractional cs
    | some (_, 'E' :: _) => fractional cs
    | _ => integer cs

/-! ## Dates and times -/

/-- A number of two digits within bounds. -/
def twoDigits (low high : Nat) : List Char → Option (Nat × List Char)
  | a :: b :: cs => do
    let n := (← digitValue? a) * 10 + (← digitValue? b)
    if low ≤ n ∧ n ≤ high then some (n, cs) else none
  | _ => none

def fourDigits : List Char → Option (Nat × List Char)
  | a :: b :: cs => do
    let (n, cs) ← twoDigits 0 99 (a :: b :: cs)
    let (m, cs) ← twoDigits 0 99 cs
    return (n * 100 + m, cs)
  | _ => none

def expect (c : Char) : List Char → Option (List Char)
  | d :: cs => if d = c then some cs else none
  | [] => none

def isLeap (year : Nat) : Bool := year % 4 = 0 && (year % 100 ≠ 0 || year % 400 = 0)

def daysIn (year month : Nat) : Nat :=
  if month = 2 then (if isLeap year then 29 else 28)
  else if month ∈ [4, 6, 9, 11] then 30 else 31

/-- Decimal digits with zeros before them up to a width. -/
def padded (width n : Nat) : List Char :=
  let ds := Nat.toDigits 10 n
  List.replicate (width - ds.length) '0' ++ ds

def date (cs : List Char) : Option (List Char × List Char) := do
  let (year, cs) ← fourDigits cs
  let (month, cs) ← twoDigits 1 12 (← expect '-' cs)
  let (day, cs) ← twoDigits 1 31 (← expect '-' cs)
  if day ≤ daysIn year month then
    some (padded 4 year ++ ['-'] ++ padded 2 month ++ ['-'] ++ padded 2 day, cs)
  else none

/-- Digits behind the point of a second: nine count, and zeros at the end are not written. -/
def secondFraction (ds : List Char) : List Char :=
  match ((ds.take 9).reverse.dropWhile (· = '0')).reverse with
  | [] => []
  | ds => '.' :: ds

def timeOfDay (cs : List Char) : Option (List Char × List Char) := do
  let (hour, cs) ← twoDigits 0 23 cs
  let (minute, cs) ← twoDigits 0 59 (← expect ':' cs)
  let (second, cs) ← twoDigits 0 60 (← expect ':' cs)
  let whole := padded 2 hour ++ [':'] ++ padded 2 minute ++ [':'] ++ padded 2 second
  match cs with
  | '.' :: d :: cs =>
    if isDecimal d then
      some (whole ++ secondFraction (d :: cs.takeWhile isDecimal), cs.dropWhile isDecimal)
    else some (whole, '.' :: d :: cs)
  | cs => some (whole, cs)

/-- The distance from universal time, if there is one. -/
def offset (cs : List Char) : Option (List Char × List Char) :=
  let clock := fun (sign : Char) (cs : List Char) => do
    let (hour, cs) ← twoDigits 0 23 cs
    let (minute, cs) ← twoDigits 0 59 (← expect ':' cs)
    let sign := if hour = 0 ∧ minute = 0 then '+' else sign
    some (sign :: padded 2 hour ++ [':'] ++ padded 2 minute, cs)
  match cs with
  | 'Z' :: cs => some (['Z'], cs)
  | 'z' :: cs => some (['Z'], cs)
  | '+' :: cs => clock '+' cs
  | '-' :: cs => clock '-' cs
  | cs => some ([], cs)

/-- A time of day behind a date, if there is one. -/
def timeAfterDate (cs : List Char) : Option (List Char × List Char) :=
  match cs with
  | c :: rest =>
    if c ∈ ['T', 't', ' '] then
      match timeOfDay rest with
      | some (t, rest) => (offset rest).map fun (o, rest) => ('T' :: t ++ o, rest)
      | none => some ([], c :: rest)
    else some ([], c :: rest)
  | [] => some ([], [])

def moment (cs : List Char) : Option (Value × List Char) :=
  match date cs with
  | some (d, rest) =>
    (timeAfterDate rest).map fun (t, rest) => (.moment (String.ofList (d ++ t)), rest)
  | none => (timeOfDay cs).map fun (t, rest) => (.moment (String.ofList t), rest)

end CellReplay.Toml
