import CellReplay.Shell.Bytes
import CellReplay.Text.Integer

/-!
# Shell.Arithmetic

Arithmetic within a shell, on integers of 64 bits that wrap around.

* `Expr`        — expressions, read by `Expr.read`.
* `Expr.value`  — the value of one, with the variables that it sets.
-/

namespace CellReplay.Shell

inductive ArithmeticError
  | expectingPrimary
  | expectingEnd
  | expectingColon
  | expectingClose
  | divisionByZero
  | illegalNumber (text : Bytes)
  deriving DecidableEq, Repr

namespace Arithmetic

inductive Operator
  | times | divide | rest | plus | minus | left | right | less | lessEqual | greater | greaterEqual
  | equal | notEqual | bitAnd | bitXor | bitOr | and | or
  deriving DecidableEq, Repr

inductive Unary
  | keep | negate | flip | not
  deriving DecidableEq, Repr

inductive Expr
  | number (n : Int)
  | name (x : Bytes)
  | unary (op : Unary) (e : Expr)
  | binary (op : Operator) (a b : Expr)
  | choose (c a b : Expr)
  | set (x : Bytes) (op : Option Operator) (e : Expr)
  deriving Repr

/-- An integer of 64 bits with the same remainder. -/
def wrap (n : Int) : Int := n.bmod UInt64.size

def ofBool (b : Bool) : Int := if b then 1 else 0

/-- The bits of an integer, and the integer of bits. -/
def bits (n : Int) : Nat := (n % UInt64.size).toNat

def ofBits (n : Nat) : Int := wrap n

def applyUnary : Unary → Int → Int
  | .keep, n => n
  | .negate, n => wrap (-n)
  | .flip, n => wrap (-n - 1)
  | .not, n => ofBool (n = 0)

def applyBinary : Operator → Int → Int → Except ArithmeticError Int
  | .times, a, b => .ok (wrap (a * b))
  | .divide, a, b => if b = 0 then .error .divisionByZero else .ok (wrap (a.tdiv b))
  | .rest, a, b => if b = 0 then .error .divisionByZero else .ok (wrap (a.tmod b))
  | .plus, a, b => .ok (wrap (a + b))
  | .minus, a, b => .ok (wrap (a - b))
  | .left, a, b => .ok (wrap (a <<< (bits b % 64)))
  | .right, a, b => .ok (a >>> (bits b % 64))
  | .less, a, b => .ok (ofBool (a < b))
  | .lessEqual, a, b => .ok (ofBool (a ≤ b))
  | .greater, a, b => .ok (ofBool (b < a))
  | .greaterEqual, a, b => .ok (ofBool (b ≤ a))
  | .equal, a, b => .ok (ofBool (a = b))
  | .notEqual, a, b => .ok (ofBool (a ≠ b))
  | .bitAnd, a, b => .ok (ofBits (bits a &&& bits b))
  | .bitXor, a, b => .ok (ofBits (bits a ^^^ bits b))
  | .bitOr, a, b => .ok (ofBits (bits a ||| bits b))
  | .and, a, b => .ok (ofBool (a ≠ 0 && b ≠ 0))
  | .or, a, b => .ok (ofBool (a ≠ 0 || b ≠ 0))

/-! ## Reading -/

def isSpace (c : Char) : Bool := c = ' ' || c = '\t' || c = '\n'

def skip (cs : Bytes) : Bytes := cs.dropWhile isSpace

/-- The operators of two operands with their signs, and how tightly they bind. -/
def operators : List (String × Operator × Nat) := [
  ("<<", .left, 8), (">>", .right, 8), ("<=", .lessEqual, 7), (">=", .greaterEqual, 7),
  ("==", .equal, 6), ("!=", .notEqual, 6), ("&&", .and, 2), ("||", .or, 1), ("*", .times, 10),
  ("/", .divide, 10), ("%", .rest, 10), ("+", .plus, 9), ("-", .minus, 9), ("<", .less, 7),
  (">", .greater, 7), ("&", .bitAnd, 5), ("^", .bitXor, 4), ("|", .bitOr, 3)]

/-- The operators that may stand in front of the equals sign of an assignment. -/
def assignable : List Operator :=
  [.times, .divide, .rest, .plus, .minus, .left, .right, .bitAnd, .bitXor, .bitOr]

/-- An operator at the front that is not the start of an assignment. -/
def operatorAt (cs : Bytes) : Option (Operator × Nat × Bytes) := do
  let (sign, op, level) ← operators.find? fun o => o.1.toList.isPrefixOf cs
  let rest := cs.drop sign.toList.length
  if op ∈ assignable && rest.head? = some '=' && (rest.drop 1).head? ≠ some '=' then none
  else some (op, level, rest)

/-- The operator of an assignment behind a name. -/
def assignmentAt (cs : Bytes) : Option (Option Operator × Bytes) :=
  match cs with
  | '=' :: '=' :: _ => none
  | '=' :: rest => some (none, rest)
  | cs => do
    let (sign, op, _) ← operators.find? fun o => o.2.1 ∈ assignable && o.1.toList.isPrefixOf cs
    match cs.drop sign.toList.length with
    | '=' :: rest => some (some op, rest)
    | _ => none

def digitOf (c : Char) : Nat :=
  if isDigit c then c.toNat - 48
  else if 'a' ≤ c ∧ c ≤ 'z' then c.toNat - 87
  else if 'A' ≤ c ∧ c ≤ 'Z' then c.toNat - 55
  else 99

/-- A number in decimal, in octal behind a zero, or in hexadecimal behind a zero and an `x`. Too
large a number counts as the largest one. -/
def numberOf (cs : Bytes) : Option Int :=
  let inBase := fun (base : Nat) (ds : Bytes) =>
    if ds ≠ [] ∧ ds.all fun c => digitOf c < base then
      some ((min (ds.foldl (fun n c => n * base + digitOf c) 0) Text.maxInt64 : Nat) : Int)
    else none
  match cs with
  | ['0'] => some 0
  | '0' :: 'x' :: ds => inBase 16 ds
  | '0' :: 'X' :: ds => inBase 16 ds
  | '0' :: ds => inBase 8 ds
  | ds => inBase 10 ds

abbrev Reader (α : Type) := Bytes → Except ArithmeticError (α × Bytes)

mutual

/-- An expression of the lowest level: an assignment or a choice. -/
def expr : Nat → Reader Expr
  | 0, _ => .error .expectingPrimary
  | fuel + 1, cs => do
    let cs := skip cs
    let assigned : Option (Bytes × Option Operator × Bytes) := do
      let (x, rest) := cs.span isNameChar
      if isName x then
        let (op, rest) ← assignmentAt (skip rest)
        return (x, op, rest)
      else none
    match assigned with
    | some (x, op, rest) =>
      let (e, rest) ← expr fuel rest
      return (.set x op e, rest)
    | none =>
      let (c, rest) ← level fuel 1 cs
      match skip rest with
      | '?' :: rest =>
        let (a, rest) ← expr fuel rest
        match skip rest with
        | ':' :: rest =>
          let (b, rest) ← expr fuel rest
          return (.choose c a b, rest)
        | _ => .error .expectingColon
      | rest => return (c, rest)

/-- Operands with operators between them that bind at least as tightly as the level. -/
def level : Nat → Nat → Reader Expr
  | 0, _, _ => .error .expectingPrimary
  | fuel + 1, n, cs => do
    let (a, rest) ← operand fuel cs
    further fuel n a rest

/-- The operators that follow an operand. -/
def further : Nat → Nat → Expr → Reader Expr
  | 0, _, _, _ => .error .expectingPrimary
  | fuel + 1, n, a, cs => do
    let cs := skip cs
    match operatorAt cs with
    | some (op, k, rest) =>
      if n ≤ k then
        let (b, rest) ← level fuel (k + 1) rest
        further fuel n (.binary op a b) rest
      else return (a, cs)
    | none => return (a, cs)

def operand : Nat → Reader Expr
  | 0, _ => .error .expectingPrimary
  | fuel + 1, cs => do
    let under := fun (op : Unary) (cs : Bytes) => do
      let (e, rest) ← operand fuel cs
      return (Expr.unary op e, rest)
    match skip cs with
    | '+' :: cs => under .keep cs
    | '-' :: cs => under .negate cs
    | '~' :: cs => under .flip cs
    | '!' :: cs => under .not cs
    | '(' :: cs =>
      let (e, rest) ← expr fuel cs
      match skip rest with
      | ')' :: rest => return (e, rest)
      | _ => .error .expectingClose
    | c :: cs =>
      let (x, rest) := (c :: cs).span fun c => isNameChar c
      if isDigit c then
        match numberOf x with
        | some n => return (.number n, rest)
        | none => .error .expectingEnd
      else if isName x then return (.name x, rest)
      else .error .expectingPrimary
    | [] => .error .expectingPrimary

end

def Expr.read (cs : Bytes) : Except ArithmeticError Expr := do
  if skip cs = [] then return .number 0
  let (e, rest) ← expr (20 * cs.length + 20) cs
  if skip rest = [] then return e else .error .expectingEnd

/-! ## Values -/

/-- Variables by name: those that were there, and on top those that have been set. -/
abbrev Variables := Bytes → Option Bytes

def setVariable (vs : Variables) (x : Bytes) (n : Int) : Variables := fun y =>
  if y = x then some (Bytes.ofInt n) else vs y

/-- The number that a text spells, perhaps behind a sign. -/
def signedNumber (cs : Bytes) : Option Int :=
  match skip cs with
  | '-' :: cs => (numberOf cs).map (- ·)
  | '+' :: cs => numberOf cs
  | cs => numberOf cs

/-- The number that a variable holds; one that is not set or empty holds zero. -/
def valueOf (vs : Variables) (x : Bytes) : Except ArithmeticError Int :=
  match vs x with
  | none | some [] => .ok 0
  | some t =>
    match signedNumber ((skip t).reverse.dropWhile isSpace).reverse with
    | some n => .ok n
    | none => .error (.illegalNumber t)

/-- A value, the variables behind it, and the names that have been set. -/
abbrev Result := Int × Variables × List (Bytes × Int)

def Expr.value (vs : Variables) (done : List (Bytes × Int)) : Expr → Except ArithmeticError Result
  | .number n => .ok (n, vs, done)
  | .name x => do return (← valueOf vs x, vs, done)
  | .unary op e => do
    let (n, vs, done) ← e.value vs done
    return (applyUnary op n, vs, done)
  | .binary .and a b => do
    let (n, vs, done) ← a.value vs done
    if n = 0 then return (0, vs, done)
    let (m, vs, done) ← b.value vs done
    return (ofBool (m ≠ 0), vs, done)
  | .binary .or a b => do
    let (n, vs, done) ← a.value vs done
    if n ≠ 0 then return (1, vs, done)
    let (m, vs, done) ← b.value vs done
    return (ofBool (m ≠ 0), vs, done)
  | .binary op a b => do
    let (n, vs, done) ← a.value vs done
    let (m, vs, done) ← b.value vs done
    return (← applyBinary op n m, vs, done)
  | .choose c a b => do
    let (n, vs, done) ← c.value vs done
    if n ≠ 0 then a.value vs done else b.value vs done
  | .set x op e => do
    let (n, vs, done) ← e.value vs done
    let n ← match op with
      | none => .ok n
      | some op => do applyBinary op (← valueOf vs x) n
    return (n, setVariable vs x n, done ++ [(x, n)])

/-- The value of a text, and the variables that it sets in order. -/
def evaluate (vs : Variables) (cs : Bytes) : Except ArithmeticError (Int × List (Bytes × Int)) := do
  let (n, _, done) ← (← Expr.read cs).value vs []
  return (n, done)

end Arithmetic

/-- The complaint about an expression. -/
def ArithmeticError.message (text : Bytes) : ArithmeticError → Bytes
  | illegalNumber t => "Illegal number: ".toList ++ t
  | e =>
    let what := match e with
      | expectingPrimary => "expecting primary"
      | expectingEnd => "expecting EOF"
      | expectingColon => "expecting ':'"
      | expectingClose => "expecting ')'"
      | divisionByZero => "division by zero"
      | illegalNumber _ => ""
    "arithmetic expression: ".toList ++ what.toList ++ ": \"".toList ++ text ++ ['"']

end CellReplay.Shell
