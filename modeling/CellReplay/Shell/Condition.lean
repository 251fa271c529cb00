import CellReplay.Host.Files
import CellReplay.Shell.Arithmetic

/-!
# Shell.Condition

What `test` finds out: texts and numbers compared, files looked at, and all of these combined.

* `Condition.holds` — whether the arguments hold, or what is wrong with them.
-/

namespace CellReplay.Shell

inductive ConditionError
  | message (operator : Option Bytes) (text : String)
  | illegalNumber (text : Bytes)
  deriving DecidableEq, Repr

def ConditionError.text : ConditionError → Bytes
  | message none t => t.toList
  | message (some o) t => o ++ ": ".toList ++ t.toList
  | illegalNumber t => "Illegal number: ".toList ++ t

namespace Condition

def unaryOperators : List Bytes :=
  ["-n", "-z", "-e", "-f", "-d", "-r", "-w", "-x", "-s", "-L", "-h", "-t", "-p", "-S", "-b", "-c",
    "-u", "-g", "-k", "-O", "-G"].map (·.toList)

def binaryOperators : List Bytes :=
  ["=", "!=", "<", ">", "-eq", "-ne", "-lt", "-le", "-gt", "-ge", "-nt", "-ot", "-ef"].map (·.toList)

inductive Kind
  | nothing
  | operand
  | unary
  | binary
  | negation
  | conjunction
  | disjunction
  | opening
  | closing
  deriving DecidableEq, Repr

/-- What an argument may be as an operator. -/
def kindOf (t : Bytes) : Kind :=
  if unaryOperators.contains t then .unary
  else if binaryOperators.contains t then .binary
  else
    match String.ofList t with
    | "!" => .negation
    | "-a" => .conjunction
    | "-o" => .disjunction
    | "(" => .opening
    | ")" => .closing
    | _ => .operand

/-- What the first of some arguments is, by what comes behind it. -/
def kindAt : List Bytes → Kind
  | [] => .nothing
  | t :: rest =>
    match kindOf t, rest with
    | .unary, [] => .operand
    | .unary, a :: _ :: _ => if kindOf a = .binary then .operand else .unary
    | .opening, [] => .operand
    | k, _ => k

def isTrueFor (f : Files) (cwd : List String) (op path : Bytes) : Bool :=
  let node := f.find cwd (Bytes.toText path)
  match String.ofList op with
  | "-n" => path ≠ []
  | "-z" => path = []
  | "-e" | "-r" | "-w" | "-O" | "-G" => node.toBool
  | "-f" => match node with | .ok .directory => false | .ok _ => true | .error _ => false
  | "-d" => match node with | .ok .directory => true | _ => false
  | "-x" => match node with | .ok .directory => true | .ok (.program _) => true | _ => false
  | "-s" => match node with | .ok (.file []) => false | .ok _ => true | .error _ => false
  | _ => false

/-- An integer of 64 bits in decimal digits, perhaps behind a sign and between blanks. -/
def numberOf (t : Bytes) : Except ConditionError Int :=
  let u := ((Arithmetic.skip t).reverse.dropWhile Arithmetic.isSpace).reverse
  let n := match u with
    | '-' :: ds => (natOf? ds).map fun n => -(n : Int)
    | '+' :: ds => (natOf? ds).map Int.ofNat
    | ds => (natOf? ds).map Int.ofNat
  match n.filter fun n => -(Text.maxInt64 : Int) - 1 ≤ n ∧ n ≤ Text.maxInt64 with
  | some n => .ok n
  | none => .error (.illegalNumber t)

def compare (op a b : Bytes) : Except ConditionError Bool := do
  match String.ofList op with
  | "=" => return a = b
  | "!=" => return a ≠ b
  | "<" => return a < b
  | ">" => return b < a
  | "-eq" => return (← numberOf a) = (← numberOf b)
  | "-ne" => return (← numberOf a) ≠ (← numberOf b)
  | "-lt" => return (← numberOf a) < (← numberOf b)
  | "-le" => return (← numberOf a) ≤ (← numberOf b)
  | "-gt" => return (← numberOf b) < (← numberOf a)
  | "-ge" => return (← numberOf b) ≤ (← numberOf a)
  | _ => return false

/-- Reads arguments whose first one is of a known kind. What is left begins with the last argument
that has been read. -/
abbrev Reader := Kind → List Bytes → Except ConditionError (Bool × List Bytes)

mutual

def primary (unary : Bytes → Bytes → Bool) : Nat → Reader
  | 0, _, as => .ok (false, as)
  | fuel + 1, kind, as =>
    match kind, as with
    | .nothing, as => .ok (false, as)
    | _, [] => .ok (false, [])
    | .opening, _ :: as => do
      if kindAt as = .closing then return (false, as)
      else
        let (b, rest) ← disjunction unary fuel (kindAt as) as
        if kindAt (rest.drop 1) = .closing then return (b, rest.drop 1)
        else .error (.message none "closing paren expected")
    | .unary, op :: as =>
      match as with
      | [] => .error (.message (some op) "argument expected")
      | a :: rest => .ok (unary op a, a :: rest)
    | _, a :: rest =>
      match kindAt rest, rest with
      | .binary, op :: b :: rest => do return (← compare op a b, b :: rest)
      | .binary, op :: [] => .error (.message (some op) "argument expected")
      | _, rest => .ok (a ≠ [], a :: rest)

def negation (unary : Bytes → Bytes → Bool) : Nat → Reader
  | 0, _, as => .ok (false, as)
  | fuel + 1, kind, as =>
    if kind = .negation then do
      let next := kindAt (as.drop 1)
      let (b, rest) ← negation unary fuel next (if next = .nothing then as else as.drop 1)
      return (!b, rest)
    else primary unary fuel kind as

def conjunction (unary : Bytes → Bytes → Bool) : Nat → Reader
  | 0, _, as => .ok (false, as)
  | fuel + 1, kind, as => do
    let (b, rest) ← negation unary fuel kind as
    if kindAt (rest.drop 1) = .conjunction then
      let (c, rest) ← conjunction unary fuel (kindAt (rest.drop 2)) (rest.drop 2)
      return (b && c, rest)
    else return (b, rest)

def disjunction (unary : Bytes → Bytes → Bool) : Nat → Reader
  | 0, _, as => .ok (false, as)
  | fuel + 1, kind, as => do
    let (b, rest) ← conjunction unary fuel kind as
    if kindAt (rest.drop 1) = .disjunction then
      let (c, rest) ← disjunction unary fuel (kindAt (rest.drop 2)) (rest.drop 2)
      return (b || c, rest)
    else return (b, rest)

end

def whole (unary : Bytes → Bytes → Bool) (kind : Kind) (as : List Bytes) : Except ConditionError Bool := do
  match ← disjunction unary (4 * as.length + 8) kind as with
  | (_, a :: _ :: _) => .error (.message (some a) "unexpected operator")
  | (b, _) => return b

/-- Whether the arguments hold. With three or four of them, a comparison goes before all else, and
then parentheses or a negation around the rest. -/
def judged (unary : Bytes → Bytes → Bool) (as : List Bytes) : Except ConditionError Bool :=
  let around := fun (a : Bytes) (rest : List Bytes) =>
    if a = ['('] ∧ rest.getLast? = some [')'] then
      some (whole unary (kindAt rest.dropLast) rest.dropLast)
    else none
  match as with
  | [] => .ok false
  | [a, op, b] =>
    if kindOf op = .binary then compare op a b
    else
      match around a [op, b] with
      | some r => r
      | none => if a = ['!'] then (judged unary [op, b]).map (!·) else whole unary (kindAt as) as
  | [a, b, c, d] =>
    match around a [b, c, d] with
    | some r => r
    | none => if a = ['!'] then (judged unary [b, c, d]).map (!·) else whole unary (kindAt as) as
  | as => whole unary (kindAt as) as
termination_by as.length

def holds (f : Files) (cwd : List String) (as : List Bytes) : Except ConditionError Bool :=
  judged (isTrueFor f cwd) as

end Condition

end CellReplay.Shell
