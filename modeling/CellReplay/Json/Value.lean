import CellReplay.Decimal.Shortest

/-!
# Json.Value

JSON as it is read from a text: numbers keep their digits, and a string that spells no text is kept
as such, because whether that matters depends on who reads the value.

* `Json`            — values; the members of an object stand in order and may repeat.
* `Numeral.number?` — the number that a numeral stands for, if it has a place among numbers.
* `Json.isSound`    — a value is sound all through and not nested too deeply.
-/

namespace CellReplay

open Decimal

/-- A number as it is spelled: the digits before a point, those behind it, and an exponent. -/
structure Numeral where
  negative : Bool
  whole : List Char
  fraction : Option (List Char)
  exponent : Option (Bool × List Char)
  deriving DecidableEq, Repr

inductive Json
  | null
  | bool (b : Bool)
  | number (n : Numeral)
  | string (text : Option String)
  | array (items : List Json)
  | object (members : List (Option String × Json))
  deriving Repr

/-- A number: an integer of 64 bits, with or without a sign, or a floating point number. -/
inductive Number
  | integer (n : Int)
  | double (d : Double)
  deriving DecidableEq, Repr

namespace Numeral

def maxUInt64 : Nat := 18446744073709551615
def maxExponent : Nat := 2147483647

/-- The digits that fit into 64 bits, those that are left over, and the number of those taken. -/
def takeDigits : Nat → Nat → List Char → Nat × Nat × List Char
  | n, taken, [] => (n, taken, [])
  | n, taken, c :: cs =>
    let next := n * 10 + (c.toNat - 48)
    if next ≤ maxUInt64 then takeDigits next (taken + 1) cs else (n, taken, c :: cs)

/-- A significand with a power of ten, scaled in steps of at most 308 places. Every step rounds;
there are `fuel` steps at most. -/
def scale : Nat → Magnitude → Int → Option Magnitude
  | 0, m, _ => some m
  | fuel + 1, m, e =>
    if e.natAbs ≤ 308 then do
      let p ← ofDecimal (tenTo e.natAbs) 0
      if 0 ≤ e then m.mul p else m.div p
    else if m.isZero then some m
    else if 0 ≤ e then none
    else do scale fuel (← m.div (← ofDecimal (tenTo 308) 0)) (e + 308)

/-- The exponent that is written, if it fits into 32 bits. -/
def writtenExponent (n : Numeral) : Option Int :=
  match n.exponent with
  | none => some 0
  | some (negative, ds) =>
    let e := ds.foldl (fun e c => e * 10 + (c.toNat - 48)) 0
    if e ≤ maxExponent then some (if negative then -(e : Int) else e) else none

/-- The floating point number of a numeral. Digits beyond those that fit into 64 bits only count as
places before the point, and not at all behind it. -/
def double? (n : Numeral) : Option Double := do
  let (whole, _, lost) := takeDigits 0 0 n.whole
  let (significand, places, _) :=
    if lost = [] then takeDigits whole 0 (n.fraction.getD [])
    else
      match n.fraction with
      | some fs => takeDigits whole 0 fs
      | none => (whole, 0, [])
  match n.writtenExponent with
  | some e =>
    let total := (lost.length : Int) - places + e
    let m ← ofDecimal significand 0
    return ⟨n.negative, ← scale (total.natAbs / 308 + 1) m total⟩
  | none =>
    match n.exponent with
    | some (true, _) => return ⟨n.negative, ⟨0, minExponent⟩⟩
    | _ => if significand = 0 then some ⟨n.negative, ⟨0, minExponent⟩⟩ else none

/-- The number of a numeral: an integer if it is written as one, is no negative zero and fits. -/
def number? (n : Numeral) : Option Number :=
  let (whole, _, lost) := takeDigits 0 0 n.whole
  if n.fraction.isNone && n.exponent.isNone && lost.isEmpty then
    if !n.negative then some (.integer whole)
    else if 0 < whole && whole ≤ 9223372036854775808 then some (.integer (-(whole : Int)))
    else (ofDecimal whole 0).map fun m => .double ⟨true, m⟩
  else n.double?.map .double

end Numeral

def Number.text : Number → String
  | .integer n => Text.decimalInt n
  | .double d => scientific d

namespace Json

mutual

/-- Every string spells a text, every number has a place, and no more than `depth` values are nested
in each other. -/
def isSound (depth : Nat) : Json → Bool
  | .null | .bool _ => true
  | .number n => n.number?.isSome
  | .string t => t.isSome
  | .array items => match depth with | 0 => false | d + 1 => areSound d items
  | .object members => match depth with | 0 => false | d + 1 => membersSound d members

def areSound (depth : Nat) : List Json → Bool
  | [] => true
  | j :: js => isSound depth j && areSound depth js

def membersSound (depth : Nat) : List (Option String × Json) → Bool
  | [] => true
  | (k, j) :: ms => k.isSome && isSound depth j && membersSound depth ms

end

end Json

end CellReplay
