import CellReplay.Pattern.Matching
import CellReplay.Pattern.Meaning
import CellReplay.Shell.Condition
import CellReplay.Shell.Glob
import CellReplay.Shell.Print

/-!
# Shell.Tools

The programs that come with a machine, each as a function of what it is given.

* `Task`   — arguments, input, variables and files.
* `Yield`  — output, complaints, exit status, the time it takes, and the files afterwards.
* `tool?`  — the program of a name.

Only the options that cells commonly use are known.
-/

namespace CellReplay.Shell

structure Task where
  args : List Bytes
  input : Bytes
  vars : List (Bytes × Bytes)
  files : Files
  cwd : List String

/-- How much a program takes of its input. Who takes all ends no sooner than the input does. -/
inductive Intake
  | nothing
  | beginning
  | all
  deriving DecidableEq, Repr

/-- What a program comes to. -/
structure Yield where
  output : Bytes
  complaint : Bytes
  status : Nat
  micros : Nat
  intake : Intake
  endless : Bool
  files : Files

namespace Yield

def quiet (t : Task) : Yield := ⟨[], [], 0, 0, .nothing, false, t.files⟩

def write (t : Task) (output : Bytes) : Yield := { quiet t with output := output }

def complain (t : Task) (status : Nat) (text : String) : Yield :=
  { quiet t with complaint := text.toList ++ ['\n'], status := status }

end Yield

open Yield

def unlines (ls : List Bytes) : Bytes := ls.flatMap (· ++ ['\n'])

/-- A text between the signs that error messages put around names. -/
def marked (t : Bytes) : Bytes := '\'' :: t ++ ['\'']

/-! ## Files as input -/

def zeroDevice : Bytes := "/dev/zero".toList

/-- How many bytes are taken of a source that has no end. -/
def plenty : Nat := 1048576

def fileText (t : Task) (path : Bytes) : Except String Bytes :=
  if path = ['-'] then .ok t.input
  else if path = zeroDevice then .ok (List.replicate plenty '\x00')
  else
    match t.files.find t.cwd (Bytes.toText path), t.files.contentAt t.cwd (Bytes.toText path) with
    | _, some bytes => .ok (Bytes.ofBytes bytes)
    | .ok _, none => .error "Is a directory"
    | .error .notDirectory, none => .error "Not a directory"
    | .error _, none => .error "No such file or directory"

/-- The texts of files one after the other, and complaints about those that cannot be read. Without
names the input is read. -/
def readAll (name : String) (t : Task) (paths : List Bytes) (before : String) :
    List Bytes × Bytes :=
  let paths := if paths.isEmpty then [['-']] else paths
  paths.foldl (fun (texts, complaints) p =>
    match fileText t p with
    | .ok x => (texts ++ [x], complaints)
    | .error e => (texts, complaints ++ (name ++ ": " ++ before).toList ++ p ++ ": ".toList ++
        e.toList ++ ['\n'])) ([], [])

def intakeFor (paths : List Bytes) : Intake :=
  if paths.isEmpty || paths.contains ['-'] then .all else .nothing

/-- A program that makes one text of all that it reads. -/
def filter (name : String) (t : Task) (paths : List Bytes) (f : Bytes → Bytes) : Yield :=
  let (texts, complaints) := readAll name t paths ""
  ⟨f texts.flatten, complaints, if complaints = [] then 0 else 1, 0, intakeFor paths, false, t.files⟩

/-! ## Options -/

/-- Splits arguments into options and the rest. Options in `valued` take a value. -/
def splitOptions (valued : List Char) : List Bytes → List (Char × Bytes) × List Bytes
  | [] => ([], [])
  | ['-', '-'] :: as => ([], as)
  | ('-' :: c :: v) :: as =>
    if c ∈ valued then
      if v = [] then
        match as with
        | w :: as => let (os, rest) := splitOptions valued as; ((c, w) :: os, rest)
        | [] => ([(c, [])], [])
      else let (os, rest) := splitOptions valued as; ((c, v) :: os, rest)
    else
      let (os, rest) := splitOptions valued as
      (((c :: v).map fun c => (c, [])) ++ os, rest)
  | a :: as => let (os, rest) := splitOptions valued as; (os, a :: rest)

def option? (os : List (Char × Bytes)) (c : Char) : Option Bytes := os.lookup c

def isGiven (os : List (Char × Bytes)) (c : Char) : Bool := (option? os c).isSome

/-! ## Single programs -/

/-- A number of seconds, perhaps with a fraction and a unit, in millionths of a second. -/
def microsOf (cs : Bytes) : Option Nat :=
  let whole := cs.takeWhile isDigit
  let rest := cs.dropWhile isDigit
  let (fraction, unit) := match rest with
    | '.' :: rest => (rest.takeWhile isDigit, rest.dropWhile isDigit)
    | rest => ([], rest)
  let scale? := match unit with
    | [] | ['s'] => some 1
    | ['m'] => some 60
    | ['h'] => some 3600
    | ['d'] => some 86400
    | _ => none
  if whole = [] ∧ fraction = [] then none
  else scale?.map fun scale =>
    let digits := (fraction ++ List.replicate 6 '0').take 6
    ((natOf? whole).getD 0 * 1000000 + (natOf? digits).getD 0) * scale

def sleep (t : Task) : Yield :=
  match t.args with
  | [] => complain t 1 "sleep: missing operand\nTry 'sleep --help' for more information."
  | as =>
    match as.find? fun a => (microsOf a).isNone with
    | some a => { quiet t with
        status := 1
        complaint := "sleep: invalid time interval ".toList ++ marked a ++
          "\nTry 'sleep --help' for more information.\n".toList }
    | none => { quiet t with micros := (as.filterMap microsOf).foldl (· + ·) 0 }

/-- The characters of a set as `tr` is given it. -/
def setOf : Nat → Bytes → Bytes
  | 0, _ => []
  | _, [] => []
  | fuel + 1, cs =>
    match cs with
    | '[' :: ':' :: rest =>
      let name := rest.takeWhile (· ≠ ':')
      (List.range 256).filterMap (fun n =>
        if (Member.kind (String.ofList name)).has (Char.ofNat n) then some (Char.ofNat n) else none) ++
        setOf fuel (rest.drop (name.length + 2))
    | '\\' :: rest => let (c, rest) := formatEscape rest; further fuel c rest
    | c :: rest => further fuel c rest
    | [] => []
where
  /-- The characters from `c` on, if a range stands there. -/
  further (fuel : Nat) (c : Char) (rest : Bytes) : Bytes :=
    match rest with
    | '-' :: d :: rest =>
      (List.range (d.toNat + 1 - c.toNat)).map (fun n => Char.ofNat (c.toNat + n)) ++ setOf fuel rest
    | rest => c :: setOf fuel rest

def squeeze (set : Bytes) : Bytes → Bytes
  | [] => []
  | [c] => [c]
  | c :: d :: cs => if c = d ∧ c ∈ set then squeeze set (d :: cs) else c :: squeeze set (d :: cs)

def translate (source target : Bytes) (c : Char) : Char :=
  match source.findIdx? (· = c) with
  | some i => (target[i]?).getD (target.getLastD c)
  | none => c

def tr (t : Task) : Yield :=
  let (os, sets) := splitOptions [] t.args
  let sets := sets.map fun s => setOf (s.length + 1) s
  let has := fun (s : Bytes) (c : Char) => s.contains c != isGiven os 'c'
  let out := fun (x : Bytes) => { write t x with intake := .all }
  match sets with
  | [a] =>
    if isGiven os 'd' then out (t.input.filter fun c => !has a c)
    else if isGiven os 's' then out (squeeze a t.input)
    else { complain t 1 "tr: missing operand" with intake := .nothing }
  | [a, b] =>
    let mapped :=
      if isGiven os 'c' then t.input.map fun c => if a.contains c then c else b.getLastD c
      else t.input.map (translate a b)
    out (if isGiven os 's' then squeeze b mapped else mapped)
  | _ => complain t 1 "tr: missing operand"

/-- The first lines of a text, at most `n`. -/
def firstLines : Nat → Bytes → Bytes
  | 0, _ => []
  | _, [] => []
  | n + 1, c :: cs => if c = '\n' then c :: firstLines n cs else c :: firstLines (n + 1) cs

def lastLines (n : Nat) (cs : Bytes) : Bytes :=
  let ls := linesOf '\n' cs
  let kept := ls.drop (ls.length - n)
  if cs.getLast? = some '\n' ∨ kept = [] then unlines kept
  else unlines kept.dropLast ++ kept.getLastD []

/-- Options that are numbers, as in `-5`. -/
def withCounts (as : List Bytes) : List Bytes :=
  as.map fun a => match a with
    | '-' :: d :: ds => if (natOf? (d :: ds)).isSome then "-n".toList ++ d :: ds else a
    | a => a

def head (t : Task) : Yield :=
  let (os, paths) := splitOptions ['n', 'c'] (withCounts t.args)
  let cut := fun (x : Bytes) => match option? os 'c' with
    | some n => x.take ((natOf? n).getD 0)
    | none => firstLines (((option? os 'n').bind natOf?).getD 10) x
  let y := filter "head" t paths cut
  let isOpen := (cut (t.input ++ ['\n'])).length > (cut t.input).length
  { y with intake := if y.intake = .all && !isOpen then .beginning else y.intake }

def tail (t : Task) : Yield :=
  let (os, paths) := splitOptions ['n', 'c'] (withCounts t.args)
  filter "tail" t paths fun x =>
    match option? os 'c' with
    | some ('+' :: n) => x.drop ((natOf? n).getD 1 - 1)
    | some n => x.drop (x.length - (natOf? n).getD 0)
    | none =>
      match option? os 'n' with
      | some ('+' :: n) => unlines ((linesOf '\n' x).drop ((natOf? n).getD 1 - 1))
      | n => lastLines ((n.bind natOf?).getD 10) x

def wordCount (x : Bytes) : Nat :=
  (x.foldl (fun (n, inside) c =>
    if c = ' ' || ('\t' ≤ c && c ≤ '\r') then (n, false)
    else (if inside then n else n + 1, true)) (0, false)).1

def wc (t : Task) : Yield :=
  let (os, paths) := splitOptions [] t.args
  let counts := fun (x : Bytes) =>
    let chosen := fun (c : Char) (n : Nat) => if os.isEmpty || isGiven os c then [n] else []
    chosen 'l' (x.count '\n') ++ chosen 'w' (wordCount x) ++ chosen 'c' x.length
  let shown := fun (ns : List Nat) (width : Nat) =>
    spaced (ns.map fun n => { Layout.none with width := width }.pad (Bytes.ofNat n))
  match paths with
  | [] =>
    let ns := counts t.input
    { write t (shown ns (if ns.length = 1 then 1 else 7) ++ ['\n']) with intake := .all }
  | ps =>
    let (texts, complaints) := readAll "wc" t ps ""
    let lines := (ps.zip texts).map fun (p, x) =>
      let ns := counts x
      shown ns (if ns.length = 1 then 1 else (Bytes.ofNat x.length).length) ++ ' ' :: p
    ⟨unlines lines, complaints, if complaints = [] then 0 else 1, 0, intakeFor ps, false, t.files⟩

def seq (t : Task) : Yield :=
  match t.args.map Arithmetic.signedNumber with
  | [some n] => write t (count 1 1 n)
  | [some a, some b] => write t (count a 1 b)
  | [some a, some s, some b] => write t (count a s b)
  | _ => complain t 1 "seq: missing operand\nTry 'seq --help' for more information."
where
  count (a s b : Int) : Bytes :=
    let n := if s = 0 then 0 else ((b - a).fdiv s + 1).toNat
    unlines ((List.range (min n plenty)).map fun (i : Nat) => Bytes.ofInt (a + s * i))

def sort (t : Task) : Yield :=
  let (os, paths) := splitOptions ['k', 't'] t.args
  filter "sort" t paths fun x =>
    let value := fun (l : Bytes) => (Arithmetic.signedNumber
      (let u := Arithmetic.skip l; u.takeWhile fun c => isDigit c || c = '-')).getD 0
    let le := fun (a b : Bytes) =>
      if isGiven os 'n' then value a < value b || (value a = value b && !(b < a)) else !(b < a)
    let ls := Text.sortBy le (linesOf '\n' x)
    let ls := if isGiven os 'r' then ls.reverse else ls
    unlines (if isGiven os 'u' then ls.eraseDups else ls)

/-- Lines that are the same in a row, and how many there are. -/
def runsOf : List Bytes → List (Nat × Bytes)
  | [] => []
  | l :: ls =>
    match runsOf ls with
    | (n, m) :: rs => if l = m then (n + 1, m) :: rs else (1, l) :: (n, m) :: rs
    | [] => [(1, l)]

def uniq (t : Task) : Yield :=
  let (os, paths) := splitOptions [] t.args
  filter "uniq" t paths fun x => unlines <| (runsOf (linesOf '\n' x)).map fun (n, l) =>
    if isGiven os 'c' then { Layout.none with width := 7 }.pad (Bytes.ofNat n) ++ ' ' :: l else l

/-- The numbers that a list of ranges names, from one on up to a bound. -/
def rangesOf (bound : Nat) (spec : Bytes) : List Nat :=
  (linesOf ',' spec).flatMap fun r =>
    let a := r.takeWhile isDigit
    match r.drop a.length with
    | '-' :: b =>
      let low := (natOf? a).getD 1
      let high := (natOf? b).getD bound
      (List.range (min high bound + 1 - low)).map (· + low)
    | _ => (natOf? a).toList

def cut (t : Task) : Yield :=
  let (os, paths) := splitOptions ['c', 'b', 'd', 'f'] t.args
  filter "cut" t paths fun x => unlines <| (linesOf '\n' x).map fun l =>
    let pick := fun (spec : Bytes) (cells : List Bytes) =>
      cells.zipIdx.filterMap fun (c, i) =>
        if (rangesOf cells.length spec).contains (i + 1) then some c else none
    match option? os 'f' with
    | some spec =>
      let d := ((option? os 'd').bind (·.head?)).getD '\t'
      if l.contains d then
        (pick spec (linesOf d (l ++ [d]))).foldl
          (fun (done : Option Bytes) c => some (done.elim c (· ++ d :: c))) none |>.getD []
      else l
    | none =>
      (pick (((option? os 'c').orElse fun _ => option? os 'b').getD []) (l.map fun c => [c])).flatten

def baseName (t : Task) : Yield :=
  match t.args with
  | a :: more =>
    let plain := (a.reverse.dropWhile (· = '/'))
    let last := (plain.takeWhile (· ≠ '/')).reverse
    let last := if plain = [] then ['/'] else last
    let last := match more with
      | s :: _ =>
        if s.reverse.isPrefixOf last.reverse && last ≠ s then last.take (last.length - s.length) else last
      | [] => last
    write t (last ++ ['\n'])
  | [] => complain t 1 "basename: missing operand\nTry 'basename --help' for more information."

def directoryName (t : Task) : Yield :=
  match t.args with
  | a :: _ =>
    let above := (a.reverse.dropWhile (· = '/')).dropWhile (· ≠ '/')
    let d := (above.dropWhile (· = '/')).reverse
    write t ((if d ≠ [] then d else if above = [] && !a.all (· = '/') then ['.'] else ['/']) ++ ['\n'])
  | [] => complain t 1 "dirname: missing operand\nTry 'dirname --help' for more information."

/-- A change of the files for each path, as long as it succeeds. -/
def changing (name : String) (t : Task) (paths : List Bytes)
    (f : Files → String → Except String Files) : Yield :=
  let (files, complaints) := paths.foldl (fun (files, complaints) p =>
    match f files (Bytes.toText p) with
    | .ok files => (files, complaints)
    | .error e => (files, complaints ++ (name ++ ": ").toList ++ e.toList ++ ['\n'])) (t.files, [])
  { quiet t with files := files, complaint := complaints, status := if complaints = [] then 0 else 1 }

def inQuotes (s : String) : String := "'" ++ s ++ "'"

def plainReason : FileError → String
  | .notFound => "No such file or directory"
  | .denied => "Permission denied"
  | .notDirectory => "Not a directory"
  | .isDirectory => "Is a directory"
  | .nulByte => "Invalid argument"

def touch (t : Task) : Yield :=
  changing "touch" t (splitOptions [] t.args).2 fun f p =>
    match f.find t.cwd p with
    | .ok _ => .ok f
    | .error _ => (f.write t.cwd p []).mapError fun e =>
        "cannot touch " ++ inQuotes p ++ ": " ++ plainReason e

def makeDirectory (t : Task) : Yield :=
  let (os, paths) := splitOptions [] t.args
  changing "mkdir" t paths fun f p =>
    let why := fun (e : String) => "cannot create directory " ++ Bytes.toText (marked (Bytes.ofText p)) ++ ": " ++ e
    if isGiven os 'p' then (f.addAll t.cwd p).mapError fun e => why (plainReason e)
    else
      match f.find t.cwd p, f.place t.cwd p with
      | .ok _, _ => .error (why "File exists")
      | .error _, .ok place =>
        if f.get? place.dropLast = some .directory then .ok (f.put place .directory)
        else .error (why "No such file or directory")
      | .error _, .error e => .error (why (plainReason e))

def remove (t : Task) : Yield :=
  let (os, paths) := splitOptions [] t.args
  changing "rm" t paths fun f p =>
    match f.find t.cwd p, f.place t.cwd p with
    | .ok .directory, .ok place =>
      if isGiven os 'r' || isGiven os 'R' then .ok ⟨f.nodes.keep fun q => !place.isPrefixOf q⟩
      else .error ("cannot remove " ++ inQuotes p ++ ": Is a directory")
    | .ok _, .ok place => .ok ⟨f.nodes.erase place⟩
    | _, _ =>
      if isGiven os 'f' then .ok f
      else .error ("cannot remove " ++ inQuotes p ++ ": No such file or directory")

/-- The names within a directory, in order. -/
def namesIn (f : Files) (place : List String) : List String :=
  Text.sortBy (· ≤ ·) (f.nodes.keys.filterMap fun k =>
    if k.dropLast = place ∧ k ≠ [] then k.getLast? else none)

def listNames (t : Task) : Yield :=
  let paths := (splitOptions [] t.args).2
  let paths := if paths.isEmpty then [['.']] else paths
  let (out, complaints) := paths.foldl (fun (out, complaints) p =>
    let s := Bytes.toText p
    match t.files.find t.cwd s, t.files.place t.cwd s with
    | .ok .directory, .ok place =>
      (out ++ ((namesIn t.files place).filter (!".".isPrefixOf ·)).map Bytes.ofText, complaints)
    | .ok _, _ => (out ++ [p], complaints)
    | .error e, _ => (out, complaints ++ ("ls: cannot access " ++ inQuotes s ++ ": " ++
        plainReason e ++ "\n").toList)) ([], [])
  { write t (unlines out) with complaint := complaints, status := if complaints = [] then 0 else 2 }

def environmentLines (t : Task) : Bytes := unlines (t.vars.map fun (k, v) => k ++ '=' :: v)

def printVariables (t : Task) : Yield :=
  match t.args with
  | [] => write t (environmentLines t)
  | as =>
    let found := as.filterMap fun a => t.vars.lookup a
    { write t (unlines found) with status := if found.length = as.length then 0 else 1 }

def tee (t : Task) : Yield :=
  let (os, paths) := splitOptions [] t.args
  let y := changing "tee" t paths fun f p =>
    let old := if isGiven os 'a' then (f.contentAt t.cwd p).getD [] else []
    (f.write t.cwd p (old ++ Bytes.toBytes t.input)).mapError fun e => p ++ ": " ++ plainReason e
  { y with output := t.input, intake := .all }

/-- `echo` as a program of its own: it reads escapes only if it is told to. -/
def echoProgram (t : Task) : Yield :=
  let isOption := fun (a : Bytes) => match a with
    | '-' :: c :: cs => (c :: cs).all (· ∈ ['n', 'e', 'E'])
    | _ => false
  let given := (t.args.takeWhile isOption).flatten
  let args := t.args.dropWhile isOption
  let all := spaced args
  let (out, stop) := if (given.filter (· ∈ ['e', 'E'])).getLast? = some 'e' then
      unescaped (all.length + 1) all else (all, false)
  write t (out ++ if given.contains 'n' || stop then [] else ['\n'])

def printfProgram (t : Task) : Yield :=
  match t.args with
  | [] => complain t 1 "printf: missing operand\nTry 'printf --help' for more information."
  | format :: args =>
    let f := formatted format args
    { write t f.output with
      complaint := unlines (f.complaints.map ("printf: ".toList ++ ·))
      status := if f.complaints.isEmpty then 0 else 1 }

def conditionOf (name : String) (t : Task) (args : List Bytes) : Yield :=
  match Condition.holds t.files t.cwd args with
  | .ok b => { quiet t with status := if b then 0 else 1 }
  | .error e => { quiet t with complaint := (name ++ ": ").toList ++ e.text ++ ['\n'], status := 2 }

def bracket (t : Task) : Yield :=
  if t.args.getLast? = some [']'] then conditionOf "[" t t.args.dropLast
  else complain t 2 "[: missing ]"

def calculate (t : Task) : Yield :=
  match t.args with
  | [a, op, b] =>
    match Arithmetic.signedNumber a, Arithmetic.signedNumber b with
    | some x, some y =>
      let answer := fun (n : Int) =>
        { write t (Bytes.ofInt n ++ ['\n']) with status := if n = 0 then 1 else 0 }
      match String.ofList op with
      | "+" => answer (x + y)
      | "-" => answer (x - y)
      | "*" => answer (x * y)
      | "/" => if y = 0 then complain t 2 "expr: division by zero" else answer (x.tdiv y)
      | "%" => if y = 0 then complain t 2 "expr: division by zero" else answer (x.tmod y)
      | "=" => answer (Arithmetic.ofBool (x = y))
      | "!=" => answer (Arithmetic.ofBool (x ≠ y))
      | "<" => answer (Arithmetic.ofBool (x < y))
      | ">" => answer (Arithmetic.ofBool (y < x))
      | "<=" => answer (Arithmetic.ofBool (x ≤ y))
      | ">=" => answer (Arithmetic.ofBool (y ≤ x))
      | _ => complain t 2 "expr: syntax error"
    | _, _ => complain t 2 "expr: non-integer argument"
  | [a] => { write t (a ++ ['\n']) with status := if a = [] || a = ['0'] then 1 else 0 }
  | _ => complain t 2 "expr: syntax error"

/-- The signs that stand for themselves in a basic expression unless there is a backslash before
them, while in an extended one it is the other way round. -/
def basicSigns : List Char := ['(', ')', '\x7b', '\x7d', '+', '?', '|']

/-- A basic expression as an extended one. -/
def extendedOf (inClass atStart : Bool) : Bytes → Bytes
  | [] => []
  | '\\' :: c :: cs =>
    if inClass then '\\' :: '\\' :: extendedOf true false (c :: cs)
    else if c ∈ basicSigns then c :: extendedOf false (c = '(' || c = '|') cs
    else '\\' :: c :: extendedOf false false cs
  | '[' :: ']' :: cs => if inClass then '\\' :: '[' :: extendedOf true false (']' :: cs)
    else '[' :: '\\' :: ']' :: extendedOf true false cs
  | c :: cs =>
    if inClass then c :: extendedOf (c ≠ ']') false cs
    else if c = '[' then c :: extendedOf true false cs
    else if c ∈ basicSigns || (c = '*' && atStart) then '\\' :: c :: extendedOf false false cs
    else c :: extendedOf false (c = '^' && atStart) cs

/-- Whether a text holds another one. -/
def holdsText (wanted t : Bytes) : Bool :=
  (List.range (t.length + 1)).any fun n => wanted.isPrefixOf (t.drop n)

/-- The lines that an expression is found in. -/
def grep (t : Task) : Yield :=
  let (os, args) := splitOptions ['e'] t.args
  let (wanted, paths) := match option? os 'e', args with
    | some w, ps => (w, ps)
    | none, w :: ps => (w, ps)
    | none, [] => ([], [])
  let spelled := if isGiven os 'E' then wanted else extendedOf false true wanted
  let spelled := if isGiven os 'i' then "(?i)".toList ++ spelled else spelled
  let regex := if isGiven os 'F' then none else Pattern.compile? .tabled spelled
  let holds := fun (l : Bytes) =>
    (match regex with
      | some r => if isGiven os 'x' then r.isWhole l else r.isFound l
      | none => if isGiven os 'x' then wanted = l else holdsText wanted l) != isGiven os 'v'
  let found := fun (x : Bytes) => (linesOf '\n' x).filter holds
  let y := filter "grep" t paths fun x =>
    if isGiven os 'q' then []
    else if isGiven os 'c' then Bytes.ofNat (found x).length ++ ['\n']
    else if isGiven os 'n' then
      unlines (((linesOf '\n' x).zipIdx.filter fun (l, _) => holds l).map fun (l, n) =>
        Bytes.ofNat (n + 1) ++ ':' :: l)
    else unlines (found x)
  let any := (readAll "grep" t paths "").1.any fun x => found x ≠ []
  { y with status := if y.complaint ≠ [] then 2 else if any then 0 else 1 }

/-- The programs by name. A shell is none of them: it runs in the same manner as its caller. -/
def tool? (name : String) : Option (Task → Yield) :=
  match name with
  | "true" => some quiet
  | "false" => some fun t => { quiet t with status := 1 }
  | "echo" => some echoProgram
  | "printf" => some printfProgram
  | "cat" => some fun t => filter "cat" t (splitOptions [] t.args).2 id
  | "sleep" => some sleep
  | "test" => some fun t => conditionOf "test" t t.args
  | "[" => some bracket
  | "tr" => some tr
  | "head" => some head
  | "tail" => some tail
  | "wc" => some wc
  | "seq" => some seq
  | "sort" => some sort
  | "uniq" => some uniq
  | "rev" => some fun t => filter "rev" t t.args fun x => unlines ((linesOf '\n' x).map List.reverse)
  | "cut" => some cut
  | "yes" => some fun t =>
    let l := if t.args.isEmpty then ['y'] else spaced t.args
    { write t (unlines (List.replicate (plenty / (l.length + 1) / 8 + 1) l)) with endless := true }
  | "tee" => some tee
  | "basename" => some baseName
  | "dirname" => some directoryName
  | "touch" => some touch
  | "mkdir" => some makeDirectory
  | "rm" => some remove
  | "ls" => some listNames
  | "pwd" => some fun t => write t ('/' :: Bytes.ofText (Text.join "/" t.cwd) ++ ['\n'])
  | "printenv" => some printVariables
  | "expr" => some calculate
  | "grep" => some grep
  | "id" => some fun t =>
    let (os, _) := splitOptions [] t.args
    write t (if isGiven os 'n' then "root\n".toList
      else if isGiven os 'u' || isGiven os 'g' then "0\n".toList
      else "uid=0(root) gid=0(root) groups=0(root)\n".toList)
  | _ => none

end CellReplay.Shell
