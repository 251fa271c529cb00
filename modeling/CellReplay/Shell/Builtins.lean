import CellReplay.Shell.Fields
import CellReplay.Shell.Parser
import CellReplay.Shell.Redirection

/-!
# Shell.Builtins

The commands that a shell carries out itself, apart from those that carry out others.

* `Found`    — what a name stands for.
* `Builtin`  — arguments and a state to a state. An error is what is complained about.
* `builtin?` — the builtin of a name.
-/

namespace CellReplay.Shell

/-! ## Names -/

def ordinaryBuiltins : List Bytes :=
  ["[", "alias", "cd", "chdir", "command", "echo", "false", "getopts", "hash", "jobs", "kill",
    "printf", "pwd", "read", "test", "true", "type", "ulimit", "umask", "unalias", "wait"].map (·.toList)

/-- What a name stands for. -/
inductive Found
  | special
  | routine (r : Routine)
  | builtin
  | program (path : Bytes) (tool : String)
  | unknown (status : Nat) (reason : String)

def usualPath : Bytes := "/usr/local/sbin:/usr/local/bin:/usr/sbin:/usr/bin:/sbin:/bin".toList

/-- The parts of a list of places. An empty one is the current directory. -/
def placesOf (path : Bytes) : List Bytes :=
  go [] path
where
  go (p : Bytes) : Bytes → List Bytes
    | [] => [p.reverse]
    | ':' :: cs => p.reverse :: go [] cs
    | c :: cs => go (c :: p) cs

namespace State

def programAt (s : State) (path : Bytes) : Found :=
  match s.all.files.find s.self.cwd (Bytes.toText path) with
  | .ok (.program n) => .program path n
  | .ok _ => .unknown 126 "Permission denied"
  | .error .denied => .unknown 126 "Permission denied"
  | .error _ => .unknown 127 "not found"

/-- The first program of a name in some places. -/
def searched (s : State) (name : Bytes) (nearest : Found) : List Bytes → Found
  | [] => nearest
  | p :: ps =>
    match s.programAt (if p = [] then name else p ++ '/' :: name) with
    | .program path n => .program path n
    | .unknown 126 r => s.searched name (.unknown 126 r) ps
    | _ => s.searched name nearest ps

def programOf (s : State) (name : Bytes) : Found :=
  if name.contains '/' then s.programAt name
  else if name = [] then .unknown 127 "not found"
  else s.searched name (.unknown 127 "not found") (placesOf ((s.value? "PATH".toList).getD []))

def lookup (s : State) (name : Bytes) : Found :=
  if specialBuiltins.contains name then .special
  else
    match s.self.functions.get? name with
    | some r => .routine r
    | none => if ordinaryBuiltins.contains name then .builtin else s.programOf name

/-- Writes the output of a builtin, and complains if nobody takes it. -/
def print (s : State) (text : Bytes) : State :=
  match (s.withStatus 0).write 1 text with
  | (true, s) => s
  | (false, s) =>
    if s.isGone then s
    else (s.warn (s.self.builtin.getD [] ++ ": I/O error".toList)).withStatus 1

end State

abbrev Builtin := List Bytes → State → Except Bytes State

def fault {α : Type} (text : String) : Except Bytes α := .error (Bytes.ofText text)

def badNumber {α : Type} (t : Bytes) : Except Bytes α := .error ("Illegal number: ".toList ++ t)

def number (t : Bytes) : Except Bytes Nat :=
  match natOf? t with
  | some n => if n < 2147483648 then .ok n else badNumber t
  | none => badNumber t

/-- Splits arguments into option letters, with the values of those in `valued`, and the rest. -/
def optionsOf (letters valued : List Char) : List Bytes → Except Bytes (List (Char × Bytes) × List Bytes)
  | [] => .ok ([], [])
  | ['-', '-'] :: as => .ok ([], as)
  | ('-' :: c :: cs) :: as => do
    let rec among : Bytes → Except Bytes (List (Char × Bytes) × Option Char)
      | [] => .ok ([], none)
      | c :: cs =>
        if c ∈ valued then
          if cs = [] then .ok ([], some c) else .ok ([(c, cs)], none)
        else if c ∈ letters then do
          let (os, open') ← among cs
          return ((c, []) :: os, open')
        else .error ("Illegal option -".toList ++ [c])
    let (os, waiting) ← among (c :: cs)
    match waiting, as with
    | some c, v :: as =>
      let (more, rest) ← optionsOf letters valued as
      return (os ++ (c, v) :: more, rest)
    | some c, [] => .error ("No arg for -".toList ++ c :: " option".toList)
    | none, as =>
      let (more, rest) ← optionsOf letters valued as
      return (os ++ more, rest)
  | as => .ok ([], as)

/-- A text in single quotes; those within it stand in double ones. -/
def singleQuoted (t : Bytes) : Bytes :=
  '\'' :: go false t
where
  go : Bool → Bytes → Bytes
    | false, [] => ['\'']
    | true, [] => ['"']
    | false, '\'' :: cs => '\'' :: '"' :: '\'' :: go true cs
    | false, c :: cs => c :: go false cs
    | true, '\'' :: cs => '\'' :: go true cs
    | true, c :: cs => '"' :: '\'' :: c :: go false cs

/-- Splits an argument at its first equals sign, if it names a variable. -/
def namedValue (a : Bytes) : Except Bytes (Bytes × Option Bytes) :=
  let name := a.takeWhile (· ≠ '=')
  let value := (a.dropWhile (· ≠ '=')).tail?
  if isName name then .ok (name, value) else .error (name ++ ": bad variable name".toList)

namespace Builtin

/-! ## Output and conditions -/

def echo : Builtin := fun args s => .ok (s.print (echoed args))

def printf : Builtin := fun args s => do
  match ← optionsOf [] [] args with
  | (_, []) => fault "usage: printf format [arg ...]"
  | (_, format :: args) =>
    let f := formatted format args
    let s := f.complaints.foldl (fun s c => s.warn c) s
    let s := s.print f.output
    return if f.isWrong then s.withStatus 2 else if f.complaints.isEmpty then s else s.withStatus 1

def test (args : List Bytes) (s : State) : Except Bytes State :=
  match Condition.holds s.all.files s.self.cwd args with
  | .ok b => .ok (s.withStatus (if b then 0 else 1))
  | .error e => .error e.text

def bracketTest : Builtin := fun args s =>
  if args.getLast? = some [']'] then test args.dropLast s else fault "missing ]"

/-! ## Directories -/

def cd : Builtin := fun args s => do
  let (_, rest) ← optionsOf ['L', 'P'] [] args
  let target := match rest with
    | [] => s.home
    | ['-'] :: _ => (s.value? "OLDPWD".toList).getD []
    | d :: _ => d
  if target = [] then return s.withStatus 0
  else
    let there := (s.all.files.place s.self.cwd (Bytes.toText target)).toOption.filter fun p =>
      s.all.files.get? p = some .directory
    match there with
    | none => .error ("can't cd to ".toList ++ target)
    | some place =>
      let moved := (s.putVariable "OLDPWD".toList ⟨some s.directory, true, false⟩).putVariable "PWD".toList
        ⟨some (State.pathOf place), true, false⟩
      let moved := { moved with self := { moved.self with cwd := place } }
      return if rest.head? = some ['-'] then moved.print (State.pathOf place ++ ['\n'])
        else moved.withStatus 0

def pwd : Builtin := fun _ s => .ok (s.print (s.directory ++ ['\n']))

/-! ## Flow -/

def leave : Builtin := fun args s =>
  match args with
  | [] => .ok (s.withFlow .leaving)
  | n :: _ => do return (s.withStatus (← number n)).withFlow .leaving

def goBack : Builtin := fun args s =>
  match args with
  | [] => .ok (s.withFlow .returning)
  | n :: _ => do return (s.withStatus (← number n)).withFlow .returning

/-- Leaves loops, or goes on with the next round of one. -/
def jump (flow : Nat → Flow) : Builtin := fun args s => do
  let n ← match args with
    | [] => pure 1
    | a :: _ => do
      let n ← number a
      if n = 0 then badNumber a else pure n
  let s := s.withStatus 0
  return if s.self.loops = 0 then s else s.withFlow (flow (min n s.self.loops))

/-! ## Variables -/

/-- Prints variables as commands that set them. -/
def listed (word : Bytes) (chosen : Variable → Bool) (s : State) : State :=
  let vs := s.self.vars.entries.filter fun (_, v) => chosen v
  let sorted := vs.mergeSort fun a b => String.ofList a.1 ≤ String.ofList b.1
  s.print (sorted.flatMap fun (k, v) =>
    (if word = [] then [] else word ++ [' ']) ++ k ++
      (match v.value with | some x => '=' :: singleQuoted x | none => []) ++ ['\n'])

/-- Sets variables that are given with a value, and marks all. -/
def marking (word : String) (chosen : Variable → Bool) (mark : State → Bytes → State) : Builtin :=
  fun args s => do
    let (os, rest) ← optionsOf ['p'] [] args
    if !os.isEmpty || rest.isEmpty then return listed word.toList chosen s
    else
      rest.foldlM (fun s a => do
        let (name, value) ← namedValue a
        let s ← match value with
          | some v => s.set? name v
          | none => pure s
        return mark s name) (s.withStatus 0)

def unset : Builtin := fun args s => do
  let (os, rest) ← optionsOf ['f', 'v'] [] args
  let functions := (os.getLast?.map (·.1)) = some 'f'
  rest.foldlM (fun s a =>
    if functions then
      .ok { s with self := { s.self with functions := s.self.functions.erase a } }
    else if s.isReadOnly a then .error (State.readOnlyFault a)
    else if !isName a then .error (a ++ ": bad variable name".toList)
    else .ok (s.restore a none)) (s.withStatus 0)

/-- Remembers a variable until the function ends. -/
def remember (s : State) (name : Bytes) : State :=
  match s.self.locals with
  | [] => s
  | frame :: frames =>
    if frame.any (·.1 = name) then s
    else
      let frame := (name, s.self.vars.get? name) :: frame
      { s with self := { s.self with locals := frame :: frames } }

def makeLocal : Builtin := fun args s =>
  if s.self.locals.isEmpty then fault "not in a function"
  else
    args.foldlM (fun s a => do
      let (name, value) ← namedValue a
      let s := remember s name
      match value with
      | some v => s.set? name v
      | none => return s.putVariable name (s.variableOr name)) (s.withStatus 0)

/-! ## Options and arguments -/

def withOption (o : Options) (c : Char) (on : Bool) : Option Options :=
  match c with
  | 'e' => some { o with stopOnError := on }
  | 'u' => some { o with demandSet := on }
  | 'x' => some { o with trace := on }
  | 'f' => some { o with noGlob := on }
  | c => if c ∈ ['a', 'b', 'C', 'E', 'I', 'i', 'm', 'n', 's', 'v', 'V'] then some o else none

def optionNames : List (String × Char) := [
  ("errexit", 'e'), ("nounset", 'u'), ("xtrace", 'x'), ("noglob", 'f'), ("allexport", 'a'),
  ("notify", 'b'), ("noclobber", 'C'), ("emacs", 'E'), ("ignoreeof", 'I'), ("interactive", 'i'),
  ("monitor", 'm'), ("noexec", 'n'), ("stdin", 's'), ("verbose", 'v'), ("vi", 'V')]

/-- The options of a list of letters. -/
def lettersOn (on : Bool) : Bytes → Options → Except Bytes Options
  | [], o => .ok o
  | c :: cs, o =>
    match withOption o c on with
    | some o => lettersOn on cs o
    | none => .error ("Illegal option ".toList ++ [if on then '-' else '+', c])

/-- Options in front, and the arguments behind them if there are any. -/
def settings : List Bytes → Options → Except Bytes (Options × Option (List Bytes))
  | [], o => .ok (o, none)
  | ['-', '-'] :: as, o => .ok (o, some as)
  | ['-'] :: as, o => .ok ({ o with trace := false }, if as.isEmpty then none else some as)
  | [sign, 'o'] :: name :: as, o =>
    if sign = '-' ∨ sign = '+' then
      match optionNames.find? (·.1.toList = name) with
      | some (_, c) => settings as ((withOption o c (sign = '-')).getD o)
      | none => .error ("Illegal option ".toList ++ sign :: 'o' :: ' ' :: name)
    else .ok (o, some ([sign, 'o'] :: name :: as))
  | ('-' :: cs) :: as, o => do settings as (← lettersOn true cs o)
  | ('+' :: cs) :: as, o => do settings as (← lettersOn false cs o)
  | as, o => .ok (o, some as)

def set : Builtin := fun args s =>
  if args.isEmpty then .ok (listed [] (·.value.isSome) s)
  else do
    let (o, as?) ← settings args s.self.options
    return { s with self := { s.self with
      options := o, status := 0, arguments := as?.getD s.self.arguments } }

def shift : Builtin := fun args s => do
  let n ← match args with
    | [] => pure 1
    | a :: _ => number a
  if s.self.arguments.length < n then fault "can't shift that many"
  else return { s with self := { s.self with arguments := s.self.arguments.drop n, status := 0 } }

/-- What reading one option letter comes to: the letter, its value, a complaint, the next argument
and the letter in it to go on with. -/
structure Letter where
  letter : Char
  value : Option Bytes
  complaint : Bytes
  next : Nat
  offset : Nat
  atEnd : Bool

/-- Reads the option letter at an offset of the argument before the `next` one, or else at the front
of that. -/
def letterAt (spec : Bytes) (args : List Bytes) (next offset : Nat) : Letter :=
  let silent := spec.head? = some ':'
  let current := if next ≤ 1 ∨ offset = 0 then [] else (args.getD (next - 2) []).drop offset
  let ended := fun (next : Nat) => (⟨'?', none, [], next, 0, true⟩ : Letter)
  let read := fun (c : Char) (rest : Bytes) (next offset : Nat) =>
    let after := if rest = [] then 0 else offset + 1
    match (spec.dropWhile (· = ':')).dropWhile (· ≠ c) with
    | [] =>
      if silent then ⟨'?', some [c], [], next, after, false⟩
      else ⟨'?', none, "Illegal option -".toList ++ [c], next, after, false⟩
    | _ :: ':' :: _ =>
      if rest ≠ [] then ⟨c, some rest, [], next, 0, false⟩
      else
        match args[next - 1]? with
        | some v => ⟨c, some v, [], next + 1, 0, false⟩
        | none =>
          if silent then ⟨':', some [c], [], next, 0, false⟩
          else ⟨'?', none, "No arg for -".toList ++ c :: " option".toList, next, 0, false⟩
    | _ => ⟨c, some [], [], next, after, false⟩
  match current with
  | c :: rest => read c rest next offset
  | [] =>
    match args[next - 1]? with
    | some ['-', '-'] => ended (next + 1)
    | some ('-' :: c :: rest) => read c rest (next + 1) 1
    | _ => ended next

def getopts : Builtin := fun args s =>
  match args with
  | spec :: name :: rest => do
    let index := ((s.value? "OPTIND".toList).bind natOf?).getD 1
    let l := letterAt spec (if rest.isEmpty then s.self.arguments else rest) (max index 1) s.self.letter
    let s := if l.complaint = [] then s else (s.write 2 (l.complaint ++ ['\n'])).2
    let s := s.restore "OPTARG".toList (l.value.map fun v => ⟨some v, false, false⟩)
    let s ← s.set? "OPTIND".toList (Bytes.ofNat l.next)
    let s ← s.set? name [l.letter]
    return { s with self := { s.self with letter := l.offset, status := if l.atEnd then 1 else 0 } }
  | _ => fault "Usage: getopts optstring var [arg...]"

/-! ## Reading -/

/-- The characters of a line with whether they are quoted, how many bytes have been taken, and
whether the line has an end. -/
def lineOf (raw : Bool) (line : List (Char × Bool)) (taken : Nat) : Bytes → List (Char × Bool) × Nat × Bool
  | [] => (line.reverse, taken, false)
  | '\n' :: _ => (line.reverse, taken + 1, true)
  | '\\' :: cs =>
    if raw then lineOf raw (('\\', false) :: line) (taken + 1) cs
    else
      match cs with
      | [] => (line.reverse, taken + 1, false)
      | '\n' :: cs => lineOf raw line (taken + 2) cs
      | c :: cs => lineOf raw ((c, true) :: line) (taken + 2) cs
  | c :: cs => lineOf raw (if c = '\x00' then line else (c, false) :: line) (taken + 1) cs

def isBlankIn (separators : Bytes) : Char × Bool → Bool
  | (c, quoted) => !quoted && separators.contains c && (c = ' ' || c = '\t' || c = '\n')

def separatesIn (separators : Bytes) : Char × Bool → Bool
  | (c, quoted) => !quoted && separators.contains c

/-- The field at the front of a line, and the rest behind what separates it. -/
def firstField (separators : Bytes) (line : List (Char × Bool)) : List (Char × Bool) × List (Char × Bool) :=
  let field := line.takeWhile (!separatesIn separators ·)
  let rest := (line.dropWhile (!separatesIn separators ·)).dropWhile (isBlankIn separators)
  match rest with
  | [] => (field, [])
  | c :: cs =>
    if separatesIn separators c then (field, cs.dropWhile (isBlankIn separators)) else (field, c :: cs)

/-- The values that a line gives to some names; the last one takes all that is left. -/
def spread (separators : Bytes) : List Bytes → List (Char × Bool) → List (Bytes × Bytes)
  | [], _ => []
  | [name], line =>
    let (field, rest) := firstField separators line
    if rest = [] then [(name, field.map (·.1))]
    else
      let kept := (line.reverse.dropWhile (isBlankIn separators)).reverse
      [(name, kept.map (·.1))]
  | name :: names, line =>
    let (field, rest) := firstField separators line
    (name, field.map (·.1)) :: spread separators names rest

def read : Builtin := fun args s => do
  let (os, names) ← optionsOf ['r'] ['p'] args
  if names.isEmpty then fault "arg count"
  else
    let (input, ends) := s.readable 0
    let (line, taken, isWhole) := lineOf (os.any (·.1 = 'r')) [] 0 input
    let s := s.waitUntil (if isWhole then s.arrival 0 taken else ends)
    let s := s.consume 0 taken
    let line := line.dropWhile (isBlankIn s.separators)
    let s ← (spread s.separators names line).foldlM (fun s (name, value) =>
      if isName name then s.set? name value else .error (name ++ ": bad variable name".toList)) s
    return s.withStatus (if isWhole then 0 else 1)

/-! ## Signals and jobs -/

def listTraps (s : State) : State :=
  let sorted := s.self.traps.entries.mergeSort fun a b => a.1 ≤ b.1
  s.print (sorted.flatMap fun (n, action) =>
    "trap -- ".toList ++ singleQuoted action ++ ' ' :: signalName n ++ ['\n'])

def setTrap (action : Option Bytes) (s : State) (name : Bytes) : State :=
  match signalOf? name with
  | none => (s.write 2 ("trap: ".toList ++ name ++ ": bad trap\n".toList)).2.withStatus 1
  | some n =>
    let traps := match action with
      | none => s.self.traps.erase n
      | some a => s.self.traps.put n a
    { s with self := { s.self with traps := traps } }

def trap : Builtin := fun args s =>
  let args := if args.head? = some ['-', '-'] then args.drop 1 else args
  let s := s.withStatus 0
  match args with
  | [] => .ok (listTraps s)
  | [name] => .ok (setTrap none s name)
  | action :: names =>
    if (natOf? action).isSome then .ok (args.foldl (setTrap none) s)
    else .ok (names.foldl (setTrap (if action = ['-'] then none else some action)) s)

def killUsage : String :=
  "Usage: kill [-s sigspec | -signum | -sigspec] [pid | job]... or\nkill -l [exitstatus]"

/-- Whether a process can be sent anything. -/
def isKnown (s : State) (n : Nat) : Bool :=
  n = 0 || (s.self.id ≤ n && n < s.all.nextId) || n = s.self.shellId || n = s.self.parentId

def targetOf (s : State) (t : Bytes) : Except Bytes Nat :=
  match t with
  | '%' :: n =>
    match (natOf? n).bind fun n => s.self.jobs[n - 1]? with
    | some j => .ok j.process
    | none => .error ("No such job: ".toList ++ t)
  | '-' :: _ => .ok 0
  | t => number t

def sendAll (signal : Nat) (targets : List Bytes) (s : State) : Except Bytes State :=
  targets.foldlM (fun s t => do
    let n ← targetOf s t
    return if s.isGone then s
      else if isKnown s n then s.send n signal
      else (s.warn "No such process\n".toList).withStatus 1) (s.withStatus 0)

def nameOfStatus (s : State) (t : Bytes) : Except Bytes State := do
  let n ← number t
  let n := if n > 128 then n - 128 else n
  if 0 < n ∧ n < 65 then return s.print (signalName n ++ ['\n'])
  else .error ("invalid signal number or exit status: ".toList ++ t)

def kill : Builtin := fun args s =>
  match args with
  | [] => fault killUsage
  | ['-', 'l'] :: [] =>
    .ok (s.print (unlines (['0'] :: (List.range 64).map fun n => signalName (n + 1))))
  | ['-', 'l'] :: t :: _ => nameOfStatus s t
  | ['-', 's'] :: name :: targets =>
    match signalOf? name with
    | some n => if targets.isEmpty then fault killUsage else sendAll n targets s
    | none => .error ("invalid signal number or name: ".toList ++ name)
  | ['-', '-'] :: targets => if targets.isEmpty then fault killUsage else sendAll signalTerm targets s
  | ('-' :: c :: cs) :: targets =>
    match signalOf? (c :: cs) with
    | some n => if targets.isEmpty then fault killUsage else sendAll n targets s
    | none => .error ("Illegal option -".toList ++ [c])
  | targets => sendAll signalTerm targets s

/-- Says that a signal has ended a process, unless that goes without saying. -/
def report (s : State) (signal : Option Nat) : State :=
  match signal with
  | none => s
  | some n =>
    let text := signalReport n
    if text = "" then s else (s.write 2 (text.toList ++ ['\n'])).2

/-- Waits until a time; a signal that is cared for ends the waiting with a status of its own. -/
def waitFor (s : State) (time status : Nat) : State × Bool :=
  let caught := (s.coming time).find? fun g => (s.self.traps.get? g.number).any (· ≠ [])
  match caught with
  | some g => ((s.waitUntil g.time).withStatus (128 + g.number), false)
  | none => ((s.waitUntil time).withStatus status, true)

def wait : Builtin := fun args s =>
  match args with
  | [] =>
    let (s, done) := waitFor s (s.self.jobs.foldl (fun t j => max t j.ends) 0) 0
    .ok (if done then { s with self := { s.self with jobs := [] } } else s)
  | args =>
    args.foldlM (fun s t => do
      let n ← targetOf s t
      match s.self.jobs.find? (·.process = n) with
      | none => return s.withStatus 127
      | some j =>
        let (s, done) := waitFor s j.ends j.status
        return if done && !s.isGone then
            let s := if j.isReaped then s else report s j.signal
            { s with self := { s.self with jobs := s.self.jobs.filter (·.process ≠ n) } }
          else s) s

/-! ## What names stand for -/

/-- Describes a name, in a sentence or by what one would write to have it. -/
def describeName (verbose : Bool) (s : State) (name : Bytes) : State :=
  let say := fun (text : String) (plain : Bytes) =>
    s.print (if verbose then name ++ ' ' :: text.toList ++ ['\n'] else plain ++ ['\n'])
  if reservedWords.contains name then say "is a shell keyword" name
  else
    match s.lookup name with
    | .special => say "is a special shell builtin" name
    | .routine _ => say "is a shell function" name
    | .builtin => say "is a shell builtin" name
    | .program path _ => s.print ((if verbose then name ++ " is ".toList else []) ++ path ++ ['\n'])
    | .unknown _ _ =>
      (if verbose then s.print (name ++ ": not found\n".toList) else s).withStatus 127

def tellKind : Builtin := fun args s =>
  .ok (args.foldl (fun s n => if s.isGone then s
    else
      let t := describeName true s n
      if t.self.status = 0 then t.withStatus s.self.status else t) (s.withStatus 0))

/-! ## The rest -/

def quietly : Builtin := fun _ s => .ok (s.withStatus 0)

def limits : Builtin := fun args s =>
  if args.all fun a => a.head? = some '-' then .ok (s.print "unlimited\n".toList) else quietly args s

def umask : Builtin := fun args s =>
  if args.isEmpty then .ok (s.print "0022\n".toList) else quietly args s

def times : Builtin := fun _ s =>
  .ok (s.print "0m0.000000s 0m0.000000s\n0m0.000000s 0m0.000000s\n".toList)

end Builtin

open Builtin in
/-- The builtins that carry out no other commands. -/
def builtin? (name : Bytes) : Option Builtin :=
  match String.ofList name with
  | ":" => some quietly
  | "true" => some quietly
  | "false" => some fun _ s => .ok (s.withStatus 1)
  | "echo" => some echo
  | "printf" => some printf
  | "test" => some test
  | "[" => some bracketTest
  | "cd" => some cd
  | "chdir" => some cd
  | "pwd" => some pwd
  | "exit" => some leave
  | "return" => some goBack
  | "break" => some (jump .breaking)
  | "continue" => some (jump .continuing)
  | "export" => some (marking "export" (·.exported) State.exportName)
  | "readonly" => some (marking "readonly" (·.readOnly) State.forbid)
  | "unset" => some unset
  | "local" => some makeLocal
  | "set" => some set
  | "shift" => some shift
  | "getopts" => some getopts
  | "read" => some read
  | "trap" => some trap
  | "kill" => some kill
  | "wait" => some wait
  | "type" => some tellKind
  | "ulimit" => some limits
  | "umask" => some umask
  | "times" => some times
  | "jobs" => some quietly
  | "hash" => some quietly
  | "alias" => some quietly
  | "unalias" => some quietly
  | _ => none

end CellReplay.Shell
