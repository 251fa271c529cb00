import CellReplay.Decimal.Places
import CellReplay.Shell.Arithmetic

/-!
# Shell.Print

What `echo` and `printf` write.

* `echoed`   — arguments with blanks between them; escapes are read in them.
* `formatted` — a format filled with arguments, again and again until they are used up.
-/

namespace CellReplay.Shell

def isOctal (c : Char) : Bool := '0' ≤ c && c ≤ '7'

def byte (n : Nat) : Char := Char.ofNat (n % 256)

/-- At most `n` octal digits, as a byte. -/
def octal (n : Nat) (cs : Bytes) : Char × Bytes :=
  let ds := (cs.take n).takeWhile isOctal
  (byte (ds.foldl (fun n c => n * 8 + (c.toNat - 48)) 0), cs.drop ds.length)

def letterEscape? : Char → Option Char
  | '\\' => some '\\'
  | 'a' => some '\x07'
  | 'b' => some '\x08'
  | 'e' => some '\x1b'
  | 'f' => some '\x0c'
  | 'n' => some '\n'
  | 'r' => some '\r'
  | 't' => some '\t'
  | 'v' => some '\x0b'
  | _ => none

/-- What a backslash and what follows it stand for in a format. -/
def formatEscape (cs : Bytes) : Char × Bytes :=
  match cs with
  | [] => ('\\', [])
  | c :: rest =>
    if isOctal c then octal 3 cs
    else
      match letterEscape? c with
      | some e => (e, rest)
      | none => ('\\', cs)

/-- A text with its escapes read, and whether one of them asks to stop all output. An octal number
has a zero in front of it. -/
def unescaped : Nat → Bytes → Bytes × Bool
  | 0, _ => ([], false)
  | _, [] => ([], false)
  | fuel + 1, cs =>
    let with' := fun (c : Char) (rest : Bytes) =>
      let (t, stop) := unescaped fuel rest
      (c :: t, stop)
    match cs with
    | '\\' :: 'c' :: _ => ([], true)
    | '\\' :: '0' :: rest => let (c, rest) := octal 3 rest; with' c rest
    | '\\' :: rest => let (c, rest) := formatEscape rest; with' c rest
    | c :: rest => with' c rest
    | [] => ([], false)

def spaced : List Bytes → Bytes
  | [] => []
  | [a] => a
  | a :: as => a ++ ' ' :: spaced as

def echoed (args : List Bytes) : Bytes :=
  let (args, newline) := match args with
    | ['-', 'n'] :: as => (as, false)
    | as => (as, true)
  let all := spaced args
  let (t, stop) := unescaped (all.length + 1) all
  t ++ if newline && !stop then ['\n'] else []

/-! ## Formats -/

/-- How a value is to be laid out. -/
structure Layout where
  left : Bool
  zeros : Bool
  plus : Bool
  blank : Bool
  other : Bool
  width : Nat
  precision : Option Nat
  deriving Repr

def Layout.none : Layout := ⟨false, false, false, false, false, 0, .none⟩

def Layout.withFlag (l : Layout) (c : Char) : Option Layout :=
  match c with
  | '-' => some { l with left := true }
  | '0' => some { l with zeros := true }
  | '+' => some { l with plus := true }
  | ' ' => some { l with blank := true }
  | '#' => some { l with other := true }
  | _ => .none

def Layout.flags (l : Layout) : Bytes → Layout × Bytes
  | [] => (l, [])
  | c :: cs =>
    match l.withFlag c with
    | some l => l.flags cs
    | .none => (l, c :: cs)

def Layout.pad (l : Layout) (t : Bytes) : Bytes :=
  let gap := List.replicate (l.width - t.length) ' '
  if l.left then t ++ gap else gap ++ t

def Layout.text (l : Layout) (t : Bytes) : Bytes :=
  l.pad (match l.precision with | some n => t.take n | .none => t)

/-- A number: what stands before its digits, and the digits. -/
def Layout.digits (l : Layout) (mark ds : Bytes) : Bytes :=
  let ds := match l.precision with
    | some n => List.replicate (n - ds.length) '0' ++ ds
    | .none => ds
  if l.zeros && !l.left && l.precision.isNone then
    mark ++ List.replicate (l.width - mark.length - ds.length) '0' ++ ds
  else l.pad (mark ++ ds)

def Layout.signed (l : Layout) (n : Int) : Bytes :=
  let mark := if n < 0 then ['-'] else if l.plus then ['+'] else if l.blank then [' '] else []
  l.digits mark (Nat.toDigits 10 n.natAbs)

def Layout.unsigned (l : Layout) (letter : Char) (n : Nat) : Bytes :=
  match letter with
  | 'o' =>
    let ds := Nat.toDigits 8 n
    l.digits [] (if l.other && ds.head? ≠ some '0' then '0' :: ds else ds)
  | 'x' => l.digits (if l.other && n ≠ 0 then ['0', 'x'] else []) (Nat.toDigits 16 n)
  | 'X' => l.digits (if l.other && n ≠ 0 then ['0', 'X'] else [])
      ((Nat.toDigits 16 n).map Char.toUpper)
  | _ => l.digits [] (Nat.toDigits 10 n)

/-- What is wrong with an argument that ought to be a number, if `rest` is left of it. -/
def conversionFault (t rest : Bytes) (isNone inRange : Bool) : Option Bytes :=
  if t = [] then none
  else if isNone then some (t ++ ": expected numeric value".toList)
  else if rest ≠ [] then some (t ++ ": not completely converted".toList)
  else if !inRange then some (t ++ ": Numerical result out of range".toList)
  else none

/-- The sign in front of a number: whether it is a minus, and what follows. -/
def signOf : Bytes → Bool × Bytes
  | '-' :: u => (true, u)
  | '+' :: u => (false, u)
  | u => (false, u)

/-- A number as an argument: its value, and what is to be complained about. -/
def argumentNumber (signed : Bool) (t : Bytes) : Int × Option Bytes :=
  match t with
  | '\'' :: c :: _ => (c.toNat, none)
  | '"' :: c :: _ => (c.toNat, none)
  | t =>
    let (negative, u) := signOf (Arithmetic.skip t)
    let ds := match u with
      | '0' :: 'x' :: v => '0' :: 'x' :: v.takeWhile fun c => Arithmetic.digitOf c < 16
      | '0' :: v => '0' :: v.takeWhile fun c => Arithmetic.digitOf c < 8
      | u => u.takeWhile isDigit
    let n := (digitsValue ds : Int)
    let n := if negative then -n else n
    let m := if signed then max (-(Text.maxInt64 : Int) - 1) (min n Text.maxInt64)
      else if Text.maxUInt64 < n.natAbs then (Text.maxUInt64 : Int)
      else n
    (m, conversionFault t (u.drop ds.length) (ds = []) (m = n))
where
  digitsValue : Bytes → Nat
    | '0' :: 'x' :: v => v.foldl (fun n c => n * 16 + Arithmetic.digitOf c) 0
    | '0' :: v => v.foldl (fun n c => n * 8 + Arithmetic.digitOf c) 0
    | v => v.foldl (fun n c => n * 10 + Arithmetic.digitOf c) 0

/-- A number with a fraction: a quotient, infinite, or none at all. -/
inductive Real
  | ratio (num den : Nat)
  | infinite
  | notNumber
  deriving DecidableEq, Repr

def decimalFront (u : Bytes) : Option (Nat × Int × Bytes) :=
  let whole := u.takeWhile isDigit
  let (fraction, rest) := match u.dropWhile isDigit with
    | '.' :: v => (v.takeWhile isDigit, v.dropWhile isDigit)
    | v => ([], v)
  if whole = [] ∧ fraction = [] then none
  else
    let value := fun (ds : Bytes) => ds.foldl (fun n c => n * 10 + Arithmetic.digitOf c) 0
    let digits := value (whole ++ fraction)
    let scale := -(fraction.length : Int)
    match rest with
    | c :: v =>
      let (negative, w) := signOf v
      let e := w.takeWhile isDigit
      if (c = 'e' ∨ c = 'E') ∧ e ≠ [] then
        let n := min (value e) 100000
        some (digits, scale + (if negative then -(n : Int) else n), w.drop e.length)
      else some (digits, scale, rest)
    | [] => some (digits, scale, [])

/-- A number with a fraction as an argument: whether it is negative, and its value. -/
def argumentReal (t : Bytes) : Bool × Real × Option Bytes :=
  match t with
  | '\'' :: c :: _ => (false, .ratio c.toNat 1, none)
  | '"' :: c :: _ => (false, .ratio c.toNat 1, none)
  | t =>
    let (negative, u) := signOf (Arithmetic.skip t)
    let word := fun (w : String) => w.toList.isPrefixOf (u.map Char.toLower)
    let named := fun (r : Real) (n : Nat) =>
      (negative, r, conversionFault t (u.drop n) false true)
    if word "infinity" then named .infinite 8
    else if word "inf" then named .infinite 3
    else if word "nan" then named .notNumber 3
    else
      match decimalFront u with
      | none => (false, .ratio 0 1, conversionFault t u true true)
      | some (digits, e, rest) =>
        match Decimal.ofDecimal digits e with
        | some m => (negative, .ratio m.ratio.1 m.ratio.2, conversionFault t rest false true)
        | none => (negative, .infinite, conversionFault t rest false false)

/-- A number with a fraction in one of the forms that a letter stands for. -/
def Layout.real (l : Layout) (letter : Char) (negative : Bool) (r : Real) : Bytes :=
  let mark := if negative then ['-'] else if l.plus then ['+'] else if l.blank then [' '] else []
  let small := letter.toLower
  let e := if letter.isUpper then 'E' else 'e'
  let places := l.precision.getD 6
  let cased := fun (t : String) => if letter.isUpper then t.toList.map Char.toUpper else t.toList
  let plain := { l with precision := .none }
  match r with
  | .infinite => plain.pad (mark ++ cased "inf")
  | .notNumber => plain.pad (mark ++ cased "nan")
  | .ratio num den =>
    let ds := if small = 'f' then Decimal.Places.fixed num den places
      else if small = 'e' then Decimal.Places.scientific e num den places
      else Decimal.Places.general l.other e num den places
    plain.digits mark ds

/-- What has been written of a format, the last piece first, the arguments that are left, the
complaints, whether output is to stop, and whether it stops because the format is wrong. -/
structure Filling where
  pieces : List Bytes
  args : List Bytes
  complaints : List Bytes
  stop : Bool
  isWrong : Bool
  deriving Repr

def Filling.put (f : Filling) (t : Bytes) : Filling := { f with pieces := t :: f.pieces }

def Filling.wrong (f : Filling) (complaint : Bytes) : Filling :=
  { f with complaints := f.complaints ++ [complaint], stop := true, isWrong := true }

def Filling.output (f : Filling) : Bytes := f.pieces.reverse.flatten

def Filling.next (f : Filling) : Bytes × Filling :=
  match f.args with
  | [] => ([], f)
  | a :: as => (a, { f with args := as })

def Filling.number (f : Filling) (signed : Bool) : Int × Filling :=
  let (a, f) := f.next
  let (n, complaint) := argumentNumber signed a
  (n, { f with complaints := f.complaints ++ complaint.toList })

/-- A width or a precision, which may be an argument. -/
def Filling.measure (f : Filling) (cs : Bytes) : Int × Bytes × Filling :=
  match cs with
  | '*' :: cs => let (n, f) := f.number true; (n, cs, f)
  | cs => ((natOf? (cs.takeWhile isDigit)).getD 0, cs.dropWhile isDigit, f)

def Filling.directive (f : Filling) (all : Bytes) : Filling × Bytes :=
  let (l, cs) := Layout.none.flags all
  let (w, cs, f) := f.measure cs
  let l := { l with width := w.natAbs, left := l.left || w < 0 }
  let (l, cs, f) := match cs with
    | '.' :: cs =>
      let (p, cs, f) := f.measure cs
      ({ l with precision := if p < 0 then none else some p.toNat }, cs, f)
    | cs => (l, cs, f)
  let read := all.take (all.length - cs.length)
  match cs with
  | [] => (f.wrong "missing format character".toList, [])
  | 's' :: cs => let (a, f) := f.next; (f.put (l.text a), cs)
  | 'b' :: cs =>
    let (a, f) := f.next
    let (t, stop) := unescaped (a.length + 1) a
    ({ f.put (l.text t) with stop := stop }, cs)
  | 'c' :: cs => let (a, f) := f.next; (f.put (l.pad [a.headD '\x00']), cs)
  | c :: cs =>
    if c = 'd' ∨ c = 'i' then let (n, f) := f.number true; (f.put (l.signed n), cs)
    else if c ∈ ['o', 'u', 'x', 'X'] then
      let (n, f) := f.number false
      (f.put (l.unsigned c (Arithmetic.bits n)), cs)
    else if c ∈ ['f', 'F', 'e', 'E', 'g', 'G'] then
      let (a, f) := f.next
      let (negative, r, complaint) := argumentReal a
      let f := { f with complaints := f.complaints ++ complaint.toList }
      (f.put (l.real c negative r), cs)
    else (f.wrong ('%' :: read ++ c :: ": invalid directive".toList), [])

/-- A format once through; the pieces of output are in the filling. -/
def Filling.once : Nat → Filling → Bytes → Filling
  | 0, f, _ => f
  | _, f, [] => f
  | fuel + 1, f, c :: cs =>
    if f.stop then f
    else if c = '\\' then
      let (e, rest) := formatEscape cs
      Filling.once fuel (f.put [e]) rest
    else if c = '%' then
      match cs with
      | '%' :: cs => Filling.once fuel (f.put ['%']) cs
      | cs => let (f, rest) := f.directive cs; Filling.once fuel f rest
    else Filling.once fuel (f.put [c]) cs

/-- A format as often as there are arguments for it, but once at least. -/
def Filling.all (format : Bytes) : Nat → Filling → Filling
  | 0, f => f
  | fuel + 1, f =>
    let g := Filling.once (format.length + 1) f format
    if g.stop || g.args.isEmpty || g.args.length = f.args.length then g else Filling.all format fuel g

/-- A format filled with arguments. -/
def formatted (format : Bytes) (args : List Bytes) : Filling :=
  Filling.all format (args.length + 1) ⟨[], args, [], false, false⟩

end CellReplay.Shell
