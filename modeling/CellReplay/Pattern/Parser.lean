import CellReplay.Pattern.CharSet
import CellReplay.Pattern.Tree
import CellReplay.Text.Integer

/-!
# Pattern.Parser

Reading a pattern.

* `escape`  — what a backslash begins.
* `members` — the members of a bracketed class, up to its bracket.
* `body`    — alternatives, up to the parenthesis that closes them or the end.
* `parse`   — a whole pattern, `none` if it is not well formed or nests deeper than `maxDepth`.

In verbose mode, blanks and comments between the parts of a pattern say nothing; `skip` passes
over them. Each recursive reader takes as fuel the number of characters it may consume.
-/

namespace CellReplay.Pattern

open Text

def maxDepth : Nat := 250

/-- What lies behind a comment: all after the end of the line. -/
def skipComment (cs : List Char) : List Char := (cs.dropWhile (· ≠ '\n')).drop 1

/-- Blanks and comments passed over, with the text's length as fuel. -/
def skipFrom : Nat → List Char → List Char
  | fuel + 1, c :: cs =>
    if isBlank c then skipFrom fuel cs
    else if c = '#' then skipFrom fuel (skipComment cs)
    else c :: cs
  | _, cs => cs

/-- In verbose mode, blanks and comments passed over. -/
def skip (verbose : Bool) (cs : List Char) : List Char :=
  if verbose then skipFrom cs.length cs else cs

def isHexDigit (c : Char) : Bool :=
  c.isDigit || ('a' ≤ c && c ≤ 'f') || ('A' ≤ c && c ≤ 'F')

def hexValue (cs : List Char) : Nat :=
  cs.foldl (fun n c => n * 16 + (if c.isDigit then c.toNat - 48 else c.toLower.toNat - 87)) 0

def charAt? (n : Nat) : Option Char :=
  if n.isValidChar then some (Char.ofNat n) else none

/-- Members `p` accepts, each followed by skipping, and the rest. -/
def takeSkipping (verbose : Bool) (p : Char → Bool) : Nat → List Char → List Char × List Char
  | fuel + 1, c :: cs =>
    if p c then
      let r := takeSkipping verbose p fuel (skip verbose cs)
      (c :: r.1, r.2)
    else ([], c :: cs)
  | _, cs => ([], cs)

def span (verbose : Bool) (p : Char → Bool) (cs : List Char) : List Char × List Char :=
  takeSkipping verbose p cs.length cs

/-! ## Escapes -/

/-- Characters that mean something by themselves. -/
def isMeta (c : Char) : Bool := c ∈ "\\.+*?()|[]\x7b\x7d^$#&-~".toList

/-- Characters that a backslash leaves as they are. -/
def isEscapable (c : Char) : Bool :=
  isMeta c || (c.toNat < 0x80 && !c.isAlphanum && c ≠ '<' && c ≠ '>')

/-- The parts of a pattern that a backslash can begin. -/
inductive Escape
  | literal (l : Literal)
  | assertion (a : Assertion)
  | shorthand (k : Shorthand) (negated : Bool)
  | property (p : PropertyName) (negated : Bool)
  deriving DecidableEq, Repr

/-- `digits` hexadecimal digits, or any number of them in braces. -/
def hexEscape (verbose : Bool) (digits : Nat) (cs : List Char) :
    Option (Literal × List Char) :=
  match skip verbose cs with
  | '\x7b' :: cs =>
    match span verbose isHexDigit (skip verbose cs) with
    | (ds, '\x7d' :: rest) =>
      if ds = [] then none else (charAt? (hexValue ds)).map fun c => (⟨c, false⟩, rest)
    | _ => none
  | cs => do
    let (ds, rest) ← fixed digits cs
    let c ← charAt? (hexValue ds)
    return (⟨c, digits = 2⟩, rest)
where
  fixed : Nat → List Char → Option (List Char × List Char)
    | n + 1, c :: cs =>
      if isHexDigit c then
        if n = 0 then some ([c], cs)
        else (fixed n (skip verbose cs)).map fun (ds, rest) => (c :: ds, rest)
      else none
    | _, _ => none

/-- The first place where `mark` stands: what is before it and what is after. -/
def splitAt? (mark : List Char) : List Char → Option (List Char × List Char)
  | [] => none
  | c :: cs =>
    if mark.isPrefixOf (c :: cs) then some ([], (c :: cs).drop mark.length)
    else (splitAt? mark cs).map fun (a, b) => (c :: a, b)

/-- A property in braces: a name, or a name and a value. Every sign between the two is read as
equality. -/
def propertyName (name : List Char) : PropertyName :=
  match ([['!', '='], [':'], ['=']]).findSome? (splitAt? · name) with
  | some (n, v) => .valued n v
  | none => .named name

def propertyEscape (verbose : Bool) (cs : List Char) : Option (PropertyName × List Char) :=
  match skip verbose cs with
  | '\x7b' :: cs =>
    match span verbose (· ≠ '\x7d') (skip verbose cs) with
    | (name, _ :: rest) => some (propertyName name, rest)
    | _ => none
  | '\\' :: _ => none
  | c :: rest => some (.named [c], rest)
  | [] => none

def boundaryNames : List (String × Assertion) := [
  ("start", .wordStart), ("end", .wordEnd), ("start-half", .wordStartHalf),
  ("end-half", .wordEndHalf)]

/-- A word boundary; braces behind it narrow it unless they begin a count. -/
def boundaryEscape (verbose : Bool) (cs : List Char) : Option (Assertion × List Char) :=
  match cs with
  | '\x7b' :: inner =>
    let isNameChar := fun (c : Char) => c.isAlpha || c == '-'
    match skip verbose inner with
    | [] => none
    | c :: more =>
      if isNameChar c then
        match span verbose isNameChar (c :: more) with
        | (name, '\x7d' :: rest) => (boundaryNames.lookup (String.ofList name)).map (·, rest)
        | _ => none
      else some (.boundary, cs)
  | cs => some (.boundary, cs)

def escape (verbose : Bool) : List Char → Option (Escape × List Char)
  | [] => none
  | c :: cs =>
    let literal := fun n => some (Escape.literal ⟨Char.ofNat n, false⟩, cs)
    match c with
    | 'x' => (hexEscape verbose 2 cs).map fun (l, rest) => (.literal l, rest)
    | 'u' => (hexEscape verbose 4 cs).map fun (l, rest) => (.literal l, rest)
    | 'U' => (hexEscape verbose 8 cs).map fun (l, rest) => (.literal l, rest)
    | 'p' => (propertyEscape verbose cs).map fun (p, rest) => (.property p false, rest)
    | 'P' => (propertyEscape verbose cs).map fun (p, rest) => (.property p true, rest)
    | 'd' => some (.shorthand .digit false, cs)
    | 'D' => some (.shorthand .digit true, cs)
    | 's' => some (.shorthand .blank false, cs)
    | 'S' => some (.shorthand .blank true, cs)
    | 'w' => some (.shorthand .word false, cs)
    | 'W' => some (.shorthand .word true, cs)
    | 'a' => literal 0x07
    | 'f' => literal 0x0C
    | 't' => literal 0x09
    | 'n' => literal 0x0A
    | 'r' => literal 0x0D
    | 'v' => literal 0x0B
    | 'A' => some (.assertion .textStart, cs)
    | 'z' => some (.assertion .textEnd, cs)
    | 'B' => some (.assertion .noBoundary, cs)
    | '<' => some (.assertion .wordStart, cs)
    | '>' => some (.assertion .wordEnd, cs)
    | 'b' => (boundaryEscape verbose cs).map fun (a, rest) => (.assertion a, rest)
    | c => if isEscapable c then literal c.toNat else none

/-! ## Bracketed classes -/

def asciiNames : List (String × AsciiClass) := [
  ("alnum", .alnum), ("alpha", .alpha), ("ascii", .ascii), ("blank", .blank), ("cntrl", .cntrl),
  ("digit", .digit), ("graph", .graph), ("lower", .lower), ("print", .print), ("punct", .punct),
  ("space", .space), ("upper", .upper), ("word", .word), ("xdigit", .xdigit)]

/-- A named class behind its opening bracket, if one is there. -/
def asciiClass? : List Char → Option (ClassTree × List Char)
  | ':' :: cs =>
    let (negated, cs) := match cs with | '^' :: cs => (true, cs) | cs => (false, cs)
    match cs.span (· ≠ ':') with
    | (name, ':' :: ']' :: rest) =>
      (asciiNames.lookup (String.ofList name)).map fun k => (.ascii k negated, rest)
    | _ => none
  | _ => none

/-- A single character of a class, or an escape. -/
def classItem (verbose : Bool) : List Char → Option (Escape × List Char)
  | [] => none
  | '\\' :: cs => escape verbose cs
  | c :: cs => some (.literal ⟨c, false⟩, cs)

def Escape.member? : Escape → Option ClassTree
  | .literal l => some (.literal l)
  | .shorthand k negated => some (.shorthand k negated)
  | .property p negated => some (.property p negated)
  | .assertion _ => none

/-- The character behind a `-`, passed over blanks and over the sign of a comment. -/
def peekBehind (verbose : Bool) (cs : List Char) : Option Char :=
  if verbose then
    match cs.dropWhile isBlank with
    | '#' :: more => ((more.dropWhile isBlank).head?).or cs.head?
    | more => more.head?.or cs.head?
  else cs.head?

/-- A member of a class that is no class itself: a character, an escape or a range. A `-` before
the closing bracket or before another `-` makes no range. -/
def classRange (verbose : Bool) (cs : List Char) : Option (ClassTree × List Char) := do
  let (first, rest) ← classItem verbose cs
  match skip verbose rest with
  | [] => none
  | '-' :: more =>
    if peekBehind verbose more ∈ [some ']', some '-'] then
      return (← first.member?, '-' :: more)
    else
      let (last, rest) ← classItem verbose (skip verbose more)
      match first, last with
      | .literal a, .literal b => if a.char ≤ b.char then some (.range a b, rest) else none
      | _, _ => none
  | rest => return (← first.member?, rest)

/-- What follows an opening bracket: whether the class is negated, and the signs that are
themselves members because they come first. -/
def classOpening (verbose : Bool) (cs : List Char) : Bool × List ClassTree × List Char :=
  let (negated, cs) :=
    match skip verbose cs with
    | '^' :: cs => (true, skip verbose cs)
    | cs => (false, cs)
  let sign : Char → ClassTree := fun c => .literal ⟨c, false⟩
  match span verbose (· = '-') cs with
  | ([], ']' :: rest) => (negated, [sign ']'], skip verbose rest)
  | (dashes, rest) => (negated, dashes.map sign, rest)

/-- The operator of a class, if two equal signs spell one. -/
def setOp? : List Char → Option (SetOp × List Char)
  | '&' :: '&' :: cs => some (.inter, cs)
  | '-' :: '-' :: cs => some (.diff, cs)
  | '~' :: '~' :: cs => some (.symmDiff, cs)
  | _ => none

/-- An operator and what stands before it, waiting for what stands behind it. -/
def applyPending : Option (SetOp × ClassTree) → ClassTree → ClassTree
  | none, t => t
  | some (o, s), t => .op o s t

/-- The members of a class up to its closing bracket. Operators bind from the left, all alike.
`done` are the members since the last operator, last first. -/
def members (verbose : Bool) :
    Nat → Option (SetOp × ClassTree) → List ClassTree → List Char →
      Option (ClassTree × List Char)
  | 0, _, _, _ => none
  | fuel + 1, pending, done, cs =>
    let whole := applyPending pending (.ofMembers done.reverse)
    match skip verbose cs with
    | [] => none
    | ']' :: rest => some (whole, rest)
    | '[' :: inner =>
      match asciiClass? inner with
      | some (t, rest) => members verbose fuel pending (t :: done) rest
      | none => do
        let (negated, first, more) := classOpening verbose inner
        let (t, rest) ← members verbose fuel none first.reverse more
        members verbose fuel pending (.bracketed negated t :: done) rest
    | cs =>
      match setOp? cs with
      | some (o, rest) => members verbose fuel (some (o, whole)) [] rest
      | none => do
        let (t, rest) ← classRange verbose cs
        members verbose fuel pending (t :: done) rest

/-- A bracketed class behind its opening bracket. -/
def bracketed (verbose : Bool) (cs : List Char) : Option (Tree × List Char) := do
  let (negated, first, more) := classOpening verbose cs
  let (t, rest) ← members verbose (cs.length + 1) none first.reverse more
  return (.bracketed negated t, rest)

/-! ## Repetition -/

/-- The number that `digits` spell, if 32 bits hold it. -/
def countOf? (digits : List Char) : Option Nat :=
  match readNat 4294967295 digits with
  | .ok n => if digits.head? = some '+' then none else some n
  | .error _ => none

/-- The digits of a count, with the blanks around them passed over in any mode. -/
def countDigits (verbose : Bool) (cs : List Char) : List Char × List Char :=
  let (digits, rest) := span verbose Char.isDigit (cs.dropWhile isBlank)
  (digits, skip verbose (rest.dropWhile isBlank))

/-- A count in braces, behind the opening one. -/
def count (verbose : Bool) (cs : List Char) : Option ((Nat × Option Nat) × List Char) := do
  let (digits, rest) := countDigits verbose (skip verbose cs)
  let min ← countOf? digits
  match rest with
  | '\x7d' :: rest => return ((min, some min), rest)
  | ',' :: rest =>
    match skip verbose rest with
    | '\x7d' :: rest => return ((min, none), rest)
    | rest =>
      let (digits, rest) := countDigits verbose rest
      let max ← countOf? digits
      match rest with
      | '\x7d' :: rest => if min ≤ max then some ((min, some max), rest) else none
      | _ => none
  | _ => none

/-- Passes over the sign of a repetition that prefers fewer copies; which copies are preferred
makes no difference to what is matched. -/
def passLazy : List Char → List Char
  | '?' :: cs => cs
  | cs => cs

/-- A repetition operator, if one comes next; its own part is `none` if it is malformed. -/
def repetition? (verbose : Bool) : List Char → Option (Option ((Nat × Option Nat) × List Char))
  | '?' :: cs => some (some ((0, some 1), passLazy cs))
  | '*' :: cs => some (some ((0, none), passLazy cs))
  | '+' :: cs => some (some ((1, none), passLazy cs))
  | '\x7b' :: cs =>
    some ((count verbose cs).map fun (c, rest) => (c, passLazy (skip verbose rest)))
  | _ => none

/-- A part repeated; flags alone cannot be. -/
def Tree.repeat? (min : Nat) (max : Option Nat) : Tree → Option Tree
  | .flags _ => none
  | t => some (.repeated t min max)

/-! ## Groups -/

def Flag.ofChar? : Char → Option Flag
  | 'i' => some .ignoreCase
  | 'm' => some .multiLine
  | 's' => some .dotAll
  | 'U' => some .swapGreed
  | 'u' => some .unicode
  | 'R' => some .crlf
  | 'x' => some .verbose
  | _ => none

def flagItems (clearing : Bool) (done : FlagChange) : List Char → Option (FlagChange × List Char)
  | [] => none
  | '-' :: cs =>
    if clearing || cs.head? = some ':' || cs.head? = some ')' then none
    else flagItems true done cs
  | c :: cs =>
    if c = ':' ∨ c = ')' then some (done, c :: cs)
    else
      match Flag.ofChar? c with
      | none => none
      | some f =>
        if done.any (·.1 = f) then none else flagItems clearing (done ++ [(f, !clearing)]) cs

def isNameStart (c : Char) : Bool := c = '_' || Property.alphabetic.holds c

def isNameChar (c : Char) : Bool :=
  isNameStart c || c ∈ ['.', '[', ']'] || categoryOf c.toNat ∈ [Category.nd, .nl, .no]

def groupName (cs : List Char) : Option (List Char × List Char) :=
  match cs.span (· ≠ '>') with
  | (c :: name, _ :: rest) =>
    if isNameStart c && name.all isNameChar then some (c :: name, rest) else none
  | _ => none

/-- What an opening parenthesis begins. -/
inductive Opening
  | flags (change : FlagChange)
  | group (change : FlagChange)
  | named (name : List Char)
  deriving DecidableEq, Repr

/-- What follows an opening parenthesis. Looking around is no part of these patterns. -/
def opening (verbose : Bool) (cs : List Char) : Option (Opening × List Char) :=
  match skip verbose cs with
  | '?' :: '=' :: _ | '?' :: '!' :: _ | '?' :: '<' :: '=' :: _ | '?' :: '<' :: '!' :: _ => none
  | '?' :: 'P' :: '<' :: cs | '?' :: '<' :: cs => (groupName cs).map fun (n, r) => (.named n, r)
  | '?' :: cs =>
    match flagItems false [] cs with
    | some (change, ')' :: rest) => if change = [] then none else some (.flags change, rest)
    | some (change, _ :: rest) => some (.group change, rest)
    | _ => none
  | cs => some (.group [], cs)

/-- What a flag is after a change. -/
def flagAfter (f : Flag) (change : FlagChange) (before : Bool) : Bool :=
  (change.lookup f).getD before

/-- A part of a pattern that is neither a group nor a class: an escape, a sign or a character. -/
def atom (verbose : Bool) : List Char → Option (Tree × List Char)
  | [] => none
  | '\\' :: cs => (escape verbose cs).map fun (e, rest) =>
    match e with
    | .literal l => (.literal l, rest)
    | .assertion a => (.assertion a, rest)
    | .shorthand k negated => (.shorthand k negated, rest)
    | .property p negated => (.property p negated, rest)
  | '.' :: cs => some (.dot, cs)
  | '^' :: cs => some (.assertion .lineStart, cs)
  | '$' :: cs => some (.assertion .lineEnd, cs)
  | '[' :: cs => bracketed verbose cs
  | c :: cs => some (.literal ⟨c, false⟩, cs)

/-- Alternatives up to a closing parenthesis or the end; with them the names that groups have
taken and what is left. `branches` are the alternatives that are complete and `done` the members
of the last one, both last first. -/
def body : Nat → Bool → List (List Char) → List Tree → List Tree → List Char →
    Option (Tree × List (List Char) × List Char)
  | 0, _, _, _, _, _ => none
  | fuel + 1, verbose, names, branches, done, cs =>
    let branch := Tree.ofSequence done.reverse
    match skip verbose cs with
    | [] => some (.ofAlternatives (branch :: branches).reverse, names, [])
    | ')' :: rest => some (.ofAlternatives (branch :: branches).reverse, names, ')' :: rest)
    | '|' :: rest => body fuel verbose names (branch :: branches) [] rest
    | '(' :: rest => do
      match ← opening verbose rest with
      | (.flags change, rest) =>
        body fuel (flagAfter .verbose change verbose) names branches (.flags change :: done) rest
      | (.group change, rest) =>
        let (t, names, rest) ← body fuel (flagAfter .verbose change verbose) names [] [] rest
        match rest with
        | [] => none
        | _ :: rest => body fuel verbose names branches (.group change t :: done) rest
      | (.named name, rest) =>
        if name ∈ names then none
        else
          let (t, names, rest) ← body fuel verbose (name :: names) [] [] rest
          match rest with
          | [] => none
          | _ :: rest => body fuel verbose names branches (.group [] t :: done) rest
    | cs =>
      match repetition? verbose cs with
      | some r => do
        let ((min, max), rest) ← r
        match done with
        | [] => none
        | t :: done => body fuel verbose names branches ((← t.repeat? min max) :: done) rest
      | none => do
        let (t, rest) ← atom verbose cs
        body fuel verbose names branches (t :: done) rest

def parse (cs : List Char) : Option Tree :=
  match body (cs.length + 1) false [] [] [] cs with
  | some (t, _, []) => if t.depth ≤ maxDepth then some t else none
  | _ => none

example : (parse "%[a-z]+ (x|y)*".toList).isSome = true := by decide +kernel
example : parse "(?x) a \\b #)".toList =
    some (.sequence (.flags [(.verbose, true)]) (.sequence (.literal ⟨'a', false⟩)
      (.assertion .boundary))) := by decide +kernel
example : parse ")".toList = none := by decide +kernel

end CellReplay.Pattern
