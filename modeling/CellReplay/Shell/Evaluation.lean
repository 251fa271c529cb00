import CellReplay.Shell.Builtins

/-!
# Shell.Evaluation

Carrying out commands.

* `cellsOf`    — what the parts of a word expand to.
* `run`        — a command, in a state.
* `script`     — a text, line after line.
* `runProgram` — a program in the place of a process. A shell is one of them.

Everything takes fuel; a process that has run out of it counts as frozen.
-/

namespace CellReplay.Shell

/-! ## Time -/

/-- The time that a command, a copy of a process and the start of a program take. -/
def commandMicros : Nat := 5
def forkMicros : Nat := 300
def programMicros : Nat := 1200

/-- How deep functions may call each other. -/
def deepestCall : Nat := 600

/-! ## Processes -/

namespace State

/-- Keeps of the traps only what is ignored. -/
def untrapped (s : State) : State :=
  let traps := s.self.traps.keep fun n => n ≠ 0 ∧ s.self.traps.get? n = some []
  { s with self := { s.self with traps := traps, pending := [] } }

/-- A copy of a shell as a process of its own, which does not know of the jobs. -/
def fork (s : State) : State :=
  let (id, s) := s.freshId
  let s := s.untrapped
  { s with self := { s.self with id := id, jobs := [] } }

def hasTraps (s : State) : Bool := s.self.traps.entries.any fun (_, action) => action ≠ []

/-- The shell goes on when a process that it waits for has ended. -/
def await (s child : State) : State :=
  let child := child.released
  let (status, signal) := child.outcome
  let s := { s with all := child.all }.waitUntil child.ends
  if s.isGone then s else (Builtin.report s.reap signal).withStatus status

/-- What becomes of a loop after a round: whether there is another one. -/
def afterRound (s : State) : Bool × State :=
  match s.self.flow with
  | .going => (true, s)
  | .continuing n => if n ≤ 1 then (true, s.withFlow .going) else (false, s.withFlow (.continuing (n - 1)))
  | .breaking n => (false, s.withFlow (if n ≤ 1 then .going else .breaking (n - 1)))
  | _ => (false, s)

/-- A text is read next; lines are counted in it. -/
def reading (s : State) (text : Bytes) : State :=
  { s with self := { s.self with breaks := breaks text } }

def withBreaks (s : State) (n : Nat) : State := { s with self := { s.self with breaks := n } }

def withBuiltin (s : State) (b : Option Bytes) : State := { s with self := { s.self with builtin := b } }

def setAll (s : State) (values : List (Bytes × Bytes)) : State :=
  values.foldl (fun s (k, v) => if s.isGoing then s.assign k v else s) s

/-- Variables that are set and exported for one command, and how they have been before. -/
def setForOne (s : State) (values : List (Bytes × Bytes)) : State × List (Bytes × Option Variable) :=
  let before := values.map fun (k, _) => (k, s.self.vars.get? k)
  (values.foldl (fun s (k, v) => if s.isGoing then (s.assign k v).exportName k else s) s, before)

def restoreAll (s : State) (before : List (Bytes × Option Variable)) : State :=
  before.foldr (fun (k, v) s => s.restore k v) s

/-- Shows a command before it is carried out, if that is wanted. -/
def traced (s : State) (values : List (Bytes × Bytes)) (fields : List Bytes) : State :=
  if s.self.options.trace && (values ≠ [] || fields ≠ []) then
    let sign := (s.value? "PS4".toList).getD "+ ".toList
    (s.write 2 (sign ++ spaced (values.map (fun (k, v) => k ++ '=' :: v) ++ fields) ++ ['\n'])).2
  else s

end State

/-! ## Words -/

/-- What a word is expanded for: to fields, to one text, or as the text of an expansion whose own
characters may split as well. -/
inductive Use
  | fields
  | text
  | argument
  deriving DecidableEq, Repr

def Use.within : Use → Use
  | .text => .text
  | _ => .argument

/-- Puts a home directory in the place of a tilde at the front. -/
def tildeFront (s : State) (colons : Bool) (w : Word) : Word :=
  match w with
  | .char '~' false :: ps =>
    let goesOn := fun (p : Part) => match p with
      | .char c false => c ≠ '/' && !(colons && c = ':')
      | _ => false
    let (name, quoted) := wordText (ps.takeWhile goesOn)
    let rest := ps.dropWhile goesOn
    let closed := match rest with
      | [] => true
      | .char _ false :: _ => true
      | _ => false
    let home := if name = [] then s.value? "HOME".toList
      else if name = "root".toList then some "/root".toList
      else none
    match home with
    | some h => if closed && !quoted then h.map (Part.char · true) ++ rest else w
    | none => w
  | w => w

/-- Puts home directories in the places of tildes, in front and behind colons. -/
def tildeAll (s : State) (w : Word) : Word :=
  go (w.length + 1) (tildeFront s true w)
where
  go : Nat → Word → Word
    | 0, w => w
    | _, [] => []
    | fuel + 1, .char ':' false :: ps => .char ':' false :: go fuel (tildeFront s true ps)
    | fuel + 1, p :: ps => p :: go fuel ps

def valueCells (quoted : Bool) (v : Bytes) : List Cell :=
  if quoted then .mark :: Cell.ofBytes true false v else Cell.ofBytes false true v

def argumentCells (s : State) (use : Use) (name : Bytes) (quoted : Bool) : List Cell :=
  let args := s.self.arguments
  let joint := if name = ['@'] then [' ']
    else
      match s.value? "IFS".toList with
      | none => [' ']
      | some [] => []
      | some (c :: _) => [c]
  if use = .text || (quoted && name = ['*']) then
    valueCells quoted (args.intersperse joint).flatten
  else (args.map (valueCells quoted)).intersperse [.stop] |>.flatten

def withoutEnd (t : Bytes) : Bytes := (t.reverse.dropWhile (· = '\n')).reverse

/-- Commands that take assignments as arguments. -/
def declaring : List Bytes := ["export", "readonly", "local"].map (·.toList)

/-! ## Programs -/

/-- How a shell is called. -/
structure Invocation where
  options : Options
  isCommand : Bool
  readsInput : Bool
  rest : List Bytes

def Invocation.letters (v : Invocation) : Bytes → Except Bytes Invocation
  | [] => .ok v
  | 'c' :: cs => { v with isCommand := true }.letters cs
  | 's' :: cs => { v with readsInput := true }.letters cs
  | c :: cs =>
    match Builtin.withOption v.options c true with
    | some o => { v with options := o }.letters cs
    | none => .error ("Illegal option -".toList ++ [c])

def Invocation.read (v : Invocation) : List Bytes → Except Bytes Invocation
  | ['-', '-'] :: as => .ok { v with rest := as }
  | ['-'] :: as => .ok { v with rest := as }
  | ['-', 'o'] :: name :: as =>
    match Builtin.optionNames.find? (·.1.toList = name) with
    | some (_, c) => { v with options := (Builtin.withOption v.options c true).getD v.options }.read as
    | none => .error ("Illegal option -o ".toList ++ name)
  | ('-' :: cs) :: as => do (← v.letters cs).read as
  | as => .ok { v with rest := as }

/-- The variables that a shell starts with. -/
def firstVariables (environment : List (Bytes × Bytes)) (parent : Nat) (cwd : Bytes) :
    Table Bytes Variable :=
  let given : Table Bytes Variable :=
    Table.ofList (environment.map fun (k, v) => (k, ⟨some v, true, false⟩))
  let plain := fun (t : String) => (⟨some t.toList, false, false⟩ : Variable)
  let own : List (Bytes × Variable) := [
    ("IFS".toList, plain " \t\n"), ("OPTIND".toList, plain "1"), ("PS1".toList, plain "# "),
    ("PS2".toList, plain "> "), ("PPID".toList, ⟨some (Bytes.ofNat parent), false, false⟩),
    ("PWD".toList, ⟨some cwd, true, false⟩)]
  let usual : List (Bytes × Variable) := [
    ("PATH".toList, ⟨some usualPath, false, false⟩), ("PS4".toList, plain "+ ")]
  let t := own.foldl (fun t (k, v) => t.put k v) given
  usual.foldl (fun t (k, v) => if t.contains k then t else t.put k v) t

/-- A process as a shell that has just begun. -/
def State.asShell (s : State) (name : Bytes) (o : Options) (args : List Bytes) : State :=
  { s with self := { s.self with
      shellId := s.self.id
      name := name
      status := 0
      flow := .going
      vars := firstVariables s.exports s.self.parentId s.directory
      arguments := args
      functions := .empty
      locals := []
      options := o
      jobs := []
      lastJob := none
      loops := 0
      isTested := false
      substituted := none
      builtin := none
      letter := 0
      breaks := 0
      line := 0 } }

/-- The process runs one of the programs that are functions of what they are given. -/
def State.useTool (s : State) (name : Bytes) (f : Task → Yield) (args : List Bytes) : State :=
  let (input, ends) := s.readable 0
  let y := f ⟨args, input, s.exports, s.all.files, s.self.cwd⟩
  let s := if y.intake = .all then s.waitUntil ends else s
  let s := if y.intake = .nothing then s else s.consume 0 input.length
  let s := s.tick y.micros
  if s.isGone then s
  else
    let s := { s with all := { s.all with files := y.files } }
    let s := (s.write 2 y.complaint).2
    let (taken, s) := s.write 1 y.output
    if s.isGone then s
    else if !taken then
      let s := (s.write 2 (name ++ ": write error: Bad file descriptor\n".toList)).2
      (s.withStatus 1).withFlow .leaving
    else if y.endless then
      let closing := match s.self.channels.get? 1 with
        | some (.pipe id) => s.all.known.closed.get? id
        | _ => none
      match closing with
      | some t => (s.waitUntil (t + 1)).deliver signalPipe
      | none => s.waitUntil s.never
    else (s.withStatus y.status).withFlow .leaving

/-- What `env` is asked for: the variables, and the command for which they are. -/
def environmentFor (vs : List (Bytes × Bytes)) : List Bytes → List (Bytes × Bytes) × List Bytes
  | ['-', 'i'] :: as => environmentFor [] as
  | ['-'] :: as => environmentFor [] as
  | ['-', 'u'] :: name :: as => environmentFor (vs.filter (·.1 ≠ name)) as
  | a :: as =>
    if a.contains '=' then
      let name := a.takeWhile (· ≠ '=')
      environmentFor (vs.filter (·.1 ≠ name) ++ [(name, (a.dropWhile (· ≠ '=')).drop 1)]) as
    else (vs, a :: as)
  | [] => (vs, [])

/-- A builtin is carried out. A complaint of a special one ends the shell. -/
def State.perform (s : State) (isFatal : Bool) (name : Bytes) (b : Builtin) (args : List Bytes) : State :=
  let before := s.self.builtin
  let s := s.withBuiltin (some name)
  match b args s with
  | .ok t => t.withBuiltin before
  | .error e =>
    let t := (s.warn e).withBuiltin before
    if t.isGone then t
    else if isFatal then (t.withStatus 2).withFlow .leaving
    else t.withStatus 2

def tellNames : List Bytes → State → State
  | ['-', 'v'] :: names, s => names.foldl (Builtin.describeName false) (s.withStatus 0)
  | ['-', 'V'] :: names, s => names.foldl (Builtin.describeName true) (s.withStatus 0)
  | _, s => s.withStatus 0

/-! ## Commands -/

namespace Evaluation

mutual

/-- The cells of parts, behind those in `done`, the last of which come first. -/
def cellsOf : Nat → Use → List (List Cell) → List Part → State → List Cell × State
  | _, _, done, [], s => (done.reverse.flatten, s)
  | 0, _, _, _, s => ([], s.withFlow .frozen)
  | fuel + 1, use, done, p :: ps, s =>
    if !s.isGoing then ([], s)
    else
      match p with
      | .char c quoted => cellsOf fuel use ([.char c quoted (use = .argument)] :: done) ps s
      | .empty => cellsOf fuel use ([.mark] :: done) ps s
      | .parameter name m argument quoted =>
        let (cs, s) := parameterCells fuel use name m argument quoted s
        cellsOf fuel use (cs :: done) ps s
      | .command c quoted =>
        let (t, s) := substitute fuel c s
        cellsOf fuel use (valueCells quoted t :: done) ps s
      | .arithmetic e quoted =>
        let (cs, s) := cellsOf fuel .text [] e s
        if !s.isGoing then ([], s)
        else
          match Arithmetic.evaluate s.value? (Cell.text cs) with
          | .error e => ([], s.abort (e.message (Cell.text cs)))
          | .ok (n, sets) =>
            let s := s.setAll (sets.map fun (k, v) => (k, Bytes.ofInt v))
            cellsOf fuel use (valueCells quoted (Bytes.ofInt n) :: done) ps s

/-- The cells of a parameter, as its modifier wants them. -/
def parameterCells : Nat → Use → Bytes → Modifier → List Part → Bool → State → List Cell × State
  | 0, _, _, _, _, _, s => ([], s.withFlow .frozen)
  | fuel + 1, use, name, m, argument, quoted, s =>
    let isAll := name = ['@'] || name = ['*']
    let value := if isAll then
        if s.self.arguments.isEmpty then none else some (s.self.arguments.intersperse [' ']).flatten
      else s.parameter? name
    let shown := fun (s : State) =>
      if isAll then argumentCells s use name quoted
      else valueCells quoted ((s.parameter? name).getD [])
    let nothing := valueCells quoted []
    let isGiven := fun (colon : Bool) => match value with
      | none => false
      | some v => !(colon && v = [])
    let isMissing := value = none && !isAll && s.self.options.demandSet
    let missing := ([], s.abort (name ++ ": parameter not set".toList))
    let instead := fun (_ : Unit) =>
      let (cs, s) := cellsOf fuel use.within [] argument s
      (if quoted then .mark :: cs else cs, s)
    let trimmed := fun (cut : List Glob → Bytes → Bytes) =>
      if isMissing then missing
      else
        let (cs, s) := cellsOf fuel .text [] argument s
        (valueCells quoted (cut (globOf (Cell.pattern cs)) (value.getD [])), s)
    match m with
    | .bad => ([], s.abort "Bad substitution".toList)
    | .plain => if isMissing then missing else (shown s, s)
    | .length =>
      if isMissing then missing
      else
        (valueCells quoted (Bytes.ofNat (value.getD []).length), s)
    | .default colon => if isGiven colon then (shown s, s) else instead ()
    | .instead colon => if isGiven colon then instead () else (nothing, s)
    | .assign colon =>
      if isGiven colon then (shown s, s)
      else
        let (cs, s) := cellsOf fuel .text [] argument s
        if !s.isGoing then ([], s)
        else if !isName name then ([], s.abort (name ++ ": bad variable name".toList))
        else
          let s := s.assign name (Cell.text cs)
          (shown s, s)
    | .demand colon =>
      if isGiven colon then (shown s, s)
      else
        let (cs, s) := cellsOf fuel .text [] argument s
        let usual := if colon then "parameter not set or null" else "parameter not set"
        let said := if argument.isEmpty then usual.toList else Cell.text cs
        ([], if s.isGoing then s.abort (name ++ ": ".toList ++ said) else s)
    | .dropEnd longest => trimmed (dropEnd longest)
    | .dropStart longest => trimmed (dropStart longest)

/-- What a command writes, without the line breaks at its end. -/
def substitute : Nat → Command → State → Bytes × State
  | 0, _, s => ([], s.withFlow .frozen)
  | fuel + 1, c, s =>
    let (pipe, s) := s.freshId
    let s := s.tick forkMicros
    if s.isGone then ([], s)
    else
      let child := s.fork
      let child := child.withChannels (child.self.channels.put 1 (.pipe pipe))
      let child := (finish fuel (run fuel true c child)).released
      let (status, signal) := child.outcome
      let (pieces, s) := { s with all := child.all }.drain pipe
      let s := s.waitUntil (max child.ends (s.held pipe))
      if s.isGone then ([], s)
      else
        let s := Builtin.report s.reap signal
        (withoutEnd (pieces.flatMap (·.2)), { s with self := { s.self with substituted := some status } })

def wordFields : Nat → Word → State → List Bytes × State
  | 0, _, s => ([], s.withFlow .frozen)
  | fuel + 1, w, s =>
    let (cs, s) := cellsOf fuel .fields [] (tildeFront s false w) s
    if !s.isGoing then ([], s)
    else ((fieldsOf s.separators [] none false cs).flatMap (globbed s), s)

def textOf : Nat → Word → State → Bytes × State
  | 0, _, s => ([], s.withFlow .frozen)
  | fuel + 1, w, s =>
    let (cs, s) := cellsOf fuel .text [] w s
    (Cell.text cs, s)

/-- The fields of words, behind those in `done`, which are in reverse. -/
def allFields : Nat → Bool → List Bytes → List Word → State → List Bytes × State
  | _, _, done, [], s => (done.reverse, s)
  | 0, _, _, _, s => ([], s.withFlow .frozen)
  | fuel + 1, declares, done, w :: ws, s =>
    if !s.isGoing then ([], s)
    else
      match if declares then assignmentOf w else none with
      | some (name, value) =>
        let (t, s) := textOf fuel (tildeAll s value) s
        allFields fuel declares ((name ++ '=' :: t) :: done) ws s
      | none =>
        let (fs, s) := wordFields fuel w s
        let declares := declares || (done.isEmpty && match fs with
          | f :: _ => f ∈ declaring && (s.self.functions.get? f).isNone
          | [] => false)
        allFields fuel declares (fs.reverse ++ done) ws s

/-- The redirections of a command with their targets. -/
def routesOf : Nat → List Redirect → State → List Route × State
  | _, [], s => ([], s)
  | 0, _, s => ([], s.withFlow .frozen)
  | fuel + 1, .mk descriptor kind target :: rs, s =>
    if !s.isGoing then ([], s)
    else
      let (t, s) := textOf fuel (if kind = .here then target else tildeFront s false target) s
      let (more, s) := routesOf fuel rs s
      (⟨descriptor, kind, t⟩ :: more, s)

def valuesOf : Nat → List (Bytes × Word) → State → List (Bytes × Bytes) × State
  | _, [], s => ([], s)
  | 0, _, s => ([], s.withFlow .frozen)
  | fuel + 1, (name, w) :: as, s =>
    if !s.isGoing then ([], s)
    else
      let (t, s) := textOf fuel (tildeAll s w) s
      let (more, s) := valuesOf fuel as s
      ((name, t) :: more, s)

/-- Carries out a command. Nothing comes behind the `last` one of a shell, so that a program may take
the place of the shell. -/
def run : Nat → Bool → Command → State → State
  | 0, _, _, s => s.withFlow .frozen
  | fuel + 1, last, c, s =>
    if !s.isGoing then s
    else
      match c with
      | .nothing => s
      | .simple line as ws rs => settle fuel (simple fuel last line as ws rs s)
      | .sequence a b => run fuel last b (run fuel false a s)
      | .both a b =>
        let s := tested fuel a s
        if s.isGoing && s.self.status = 0 then run fuel last b s else s
      | .either a b =>
        let s := tested fuel a s
        if s.isGoing && s.self.status ≠ 0 then run fuel last b s else s
      | .negated a =>
        let s := tested fuel a s
        if s.isGoing then s.withStatus (if s.self.status = 0 then 1 else 0) else s
      | .background a => behind fuel a s
      | .pipeline cs => settle fuel (stages fuel none cs 0 (s.tick commandMicros))
      | .subshell a => settle fuel (apart fuel last a s)
      | .branch condition yes no =>
        let s := tested fuel condition s
        if !s.isGoing then s
        else if s.self.status = 0 then run fuel last yes s
        else run fuel last no (s.withStatus 0)
      | .loop stopsOn condition body =>
        let t := loop fuel stopsOn condition body 0
          { s with self := { s.self with loops := s.self.loops + 1 } }
        { t with self := { t.self with loops := s.self.loops } }
      | .each name ws body =>
        let (values, s) := match ws with
          | some ws => allFields fuel false [] ws s
          | none => (s.self.arguments, s)
        if !s.isGoing then s
        else
          let t := rounds fuel name values body
            ({ s with self := { s.self with loops := s.self.loops + 1 } }.withStatus 0)
          { t with self := { t.self with loops := s.self.loops } }
      | .choice w arms =>
        let (t, s) := textOf fuel (tildeFront s false w) s
        if s.isGoing then choose fuel last t arms (s.withStatus 0) else s
      | .function name body =>
        let functions := s.self.functions.put name ⟨body, s.self.breaks⟩
        { s with self := { s.self with functions := functions, status := 0 } }
      | .redirected a [] => run fuel last a s
      | .redirected a rs =>
        let (routes, s) := routesOf fuel rs s
        if !s.isGoing then s
        else
          match s.redirectAll routes with
          | .error e => (s.warn e).withStatus 2
          | .ok t => (run fuel false a t).withChannels s.self.channels

/-- Traps are run that signals have called for; then a failure may end the shell. -/
def settle : Nat → State → State
  | 0, s => s.withFlow .frozen
  | fuel + 1, s =>
    match s.isGoing, s.self.pending with
    | true, n :: ns =>
      let status := s.self.status
      let t := { s with self := { s.self with pending := ns } }
      let action := (t.self.traps.get? n).getD []
      let t := (script fuel false action (t.reading action)).withBreaks s.self.breaks
      settle fuel (if t.isGoing then t.withStatus status else t)
    | true, [] =>
      let o := s.self.options
      if o.stopOnError && !s.self.isTested && s.self.status ≠ 0 then s.withFlow .leaving else s
    | false, _ => s

/-- A command whose failure is looked at. -/
def tested : Nat → Command → State → State
  | 0, _, s => s.withFlow .frozen
  | fuel + 1, c, s => (run fuel false c (s.withTested true)).withTested s.self.isTested

/-- A command in a process of its own. -/
def apart : Nat → Bool → Command → State → State
  | 0, _, _, s => s.withFlow .frozen
  | fuel + 1, last, c, s =>
    if last && !s.hasTraps then finish fuel (run fuel true c s)
    else
      let s := s.tick forkMicros
      if s.isGone then s else s.await (finish fuel (run fuel true c s.fork))

/-- A command in the background, which reads nothing and does not care about the keyboard. -/
def behind : Nat → Command → State → State
  | 0, _, s => s.withFlow .frozen
  | fuel + 1, c, s =>
    let s := s.tick forkMicros
    if s.isGone then s
    else
      let child := (s.fork.withChannels (s.self.channels.put 0 .null)).withTested false
      let traps := (child.self.traps.put 2 []).put 3 []
      let child := { child with self := { child.self with traps := traps } }
      let child := (finish fuel (run fuel true c child)).released
      let (status, signal) := child.outcome
      let job : Job := ⟨child.self.id, child.ends, status, signal, false⟩
      let s := { s with all := child.all }
      { s with self := { s.self with
          jobs := s.self.jobs ++ [job], lastJob := some job.process, status := 0 } }

/-- Commands side by side, each of which reads what the one before writes. The status is that of the
last one. -/
def stages : Nat → Option (Channel × Nat) → List Command → Nat → State → State
  | _, _, [], _, s => s
  | 0, _, _, _, s => s.withFlow .frozen
  | fuel + 1, input, c :: cs, latest, s =>
    let s := s.tick forkMicros
    if s.isGone then s
    else
      let (pipe, s) := s.freshId
      let child := s.fork
      let channels := match input with
        | some (x, _) => child.self.channels.put 0 x
        | none => child.self.channels
      let channels := if cs.isEmpty then channels else channels.put 1 (.pipe pipe)
      let child := (finish fuel (run fuel true c (child.withChannels channels))).released
      let (status, signal) := child.outcome
      let all := match input with
        | some (_, id) =>
          if child.self.flow = .frozen then child.all
          else
            let seen := { child.all.seen with closed := child.all.seen.closed.put id child.ends }
            { child.all with seen := seen }
        | none => child.all
      let s := { s with all := all }
      let latest := max latest child.ends
      if cs.isEmpty then
        let s := s.waitUntil latest
        if s.isGone then s else (Builtin.report s.reap signal).withStatus status
      else
        let (pieces, s) := s.drain pipe
        let (source, s) := s.addSource ⟨pieces, s.held pipe⟩
        stages fuel (some (source, pipe)) cs latest s

/-- Rounds of a loop; `status` is what it ends with. -/
def loop : Nat → Bool → Command → Command → Nat → State → State
  | 0, _, _, _, _, s => s.withFlow .frozen
  | fuel + 1, stopsOn, condition, body, status, s =>
    let (goesOn, s) := (tested fuel condition (s.tick commandMicros)).afterRound
    if !goesOn then s
    else if (s.self.status = 0) = stopsOn then s.withStatus status
    else
      let (goesOn, s) := (run fuel false body s).afterRound
      if goesOn then loop fuel stopsOn condition body s.self.status s else s

def rounds : Nat → Bytes → List Bytes → Command → State → State
  | _, _, [], _, s => s
  | 0, _, _, _, s => s.withFlow .frozen
  | fuel + 1, name, v :: vs, body, s =>
    let (goesOn, s) := (run fuel false body ((s.assign name v).tick commandMicros)).afterRound
    if goesOn then rounds fuel name vs body s else s

/-- The first arm that has a pattern for a text. -/
def choose : Nat → Bool → Bytes → List (List Word × Command) → State → State
  | _, _, _, [], s => s
  | 0, _, _, _, s => s.withFlow .frozen
  | fuel + 1, last, t, (ws, body) :: arms, s =>
    let (found, s) := fits fuel t ws s
    if !s.isGoing then s
    else if found then run fuel last body s
    else choose fuel last t arms s

def fits : Nat → Bytes → List Word → State → Bool × State
  | _, _, [], s => (false, s)
  | 0, _, _, s => (false, s.withFlow .frozen)
  | fuel + 1, t, w :: ws, s =>
    let (cs, s) := cellsOf fuel .text [] (tildeFront s false w) s
    if !s.isGoing then (false, s)
    else if Glob.matches (globOf (Cell.pattern cs)) t then (true, s)
    else fits fuel t ws s

def simple : Nat → Bool → Nat → List (Bytes × Word) → List Word → List Redirect → State → State
  | 0, _, _, _, _, _, s => s.withFlow .frozen
  | fuel + 1, last, line, as, ws, rs, s =>
    let s := { s with self := { s.self with line := s.self.breaks + 1 - line, substituted := none } }
    let (fields, s) := allFields fuel false [] ws (s.tick commandMicros)
    if !s.isGoing then s
    else
      match fields with
      | name :: args => dispatch fuel last false name args as rs s
      | [] =>
        let (routes, s) := routesOf fuel rs s
        if !s.isGoing then s
        else
          match s.redirectAll routes with
          | .error e => (s.warn e).withStatus 2
          | .ok t =>
            let (values, t) := valuesOf fuel as t
            let t := if t.isGoing then (t.traced values []).setAll values else t
            let t := t.withChannels s.self.channels
            if t.isGoing then t.withStatus (t.self.substituted.getD 0) else t

/-- A command by its name. If it `isPlain`, functions do not count and complaints end nothing. -/
def dispatch : Nat → Bool → Bool → Bytes → List Bytes → List (Bytes × Word) → List Redirect →
    State → State
  | 0, _, _, _, _, _, _, s => s.withFlow .frozen
  | fuel + 1, last, isPlain, name, args, as, rs, s =>
    let found := if isPlain then
        { s with self := { s.self with functions := .empty } }.lookup name
      else s.lookup name
    let next := match found, args with
      | .builtin, ['-', '-'] :: a :: as => some (a, as)
      | .builtin, ['-', 'p'] :: a :: as => some (a, as)
      | .builtin, a :: as => if a.head? = some '-' then none else some (a, as)
      | _, _ => none
    match if name = "command".toList then next else none with
    | some (a, args) => dispatch fuel last true a args as rs s
    | none =>
      let (routes, s) := routesOf fuel rs s
      if !s.isGoing then s
      else
        let isFatal := match found with
          | .special => !isPlain
          | _ => false
        match s.redirectAll routes with
        | .error e =>
          let s := (s.warn e).withStatus 2
          if isFatal then s.withFlow .leaving else s
        | .ok t =>
          let (values, t) := valuesOf fuel as t
          let t := if t.isGoing then t.traced values (name :: args) else t
          let back := fun (t : State) => t.withChannels s.self.channels
          if !t.isGoing then back t
          else
            match found with
            | .special =>
              let t := t.setAll values
              if !t.isGoing then back t
              else if name = "exec".toList then special fuel isFatal name args t
              else back (special fuel isFatal name args t)
            | found =>
              let (t, before) := t.setForOne values
              if !t.isGoing then back t
              else
                let t := match found with
                  | .routine r => back (call fuel r args t)
                  | .builtin =>
                    match builtin? name with
                    | some b => back (t.perform false name b args)
                    | none => back (tellNames args t)
                  | .program _ tool =>
                    if last && !t.hasTraps then runProgram fuel tool name args t
                    else back (launch fuel tool name args t)
                  | .unknown status reason =>
                    back ((t.warn (name ++ ": ".toList ++ reason.toList)).withStatus status)
                  | .special => t
                t.restoreAll before

/-- The special builtins, some of which carry out other commands. -/
def special : Nat → Bool → Bytes → List Bytes → State → State
  | 0, _, _, _, s => s.withFlow .frozen
  | fuel + 1, isFatal, name, args, s =>
    let before := s.self.builtin
    if name = "eval".toList then
      let text := spaced args
      if skipLines false text = [] then s.withStatus 0
      else
        let t := script fuel false text ((s.reading text).withBuiltin (some name))
        (t.withBreaks s.self.breaks).withBuiltin before
    else if name = ['.'] then
      let s := s.withBuiltin (some name)
      match args with
      | [] => s.withStatus 0 |>.withBuiltin before
      | path :: _ =>
        match s.all.files.find s.self.cwd (Bytes.toText path),
            s.all.files.contentAt s.self.cwd (Bytes.toText path), path.contains '/' with
        | .ok _, some bytes, true =>
          let text := Bytes.ofBytes bytes
          let t := script fuel false text ((s.withStatus 0).reading text)
          let t := (t.withBreaks s.self.breaks).withBuiltin before
          if t.self.flow = .returning then t.withFlow .going else t
        | .error e, _, true =>
          s.abort ("cannot open ".toList ++ path ++ ": ".toList ++ (openReason e).toList)
        | _, _, _ => s.abort (path ++ ": not found".toList)
    else if name = "exec".toList then
      match args with
      | [] => s.withStatus 0
      | program :: args =>
        match s.programOf program with
        | .program _ tool => runProgram fuel tool program args s
        | .unknown status reason =>
          let s := (s.withBuiltin (some name)).warn (program ++ ": ".toList ++ reason.toList)
          if s.isGone then s else (s.withStatus status).withFlow .leaving
        | _ => s
    else
      match builtin? name with
      | some b => s.perform isFatal name b args
      | none => s.withStatus 0

/-- A function with its own arguments and variables. -/
def call : Nat → Routine → List Bytes → State → State
  | 0, _, _, s => s.withFlow .frozen
  | fuel + 1, r, args, s =>
    let p := s.self
    if deepestCall ≤ p.calls then s.withFlow (.killed signalSegv)
    else
      let t := run fuel false r.body { s with self := { p with
        arguments := args, loops := 0, calls := p.calls + 1, breaks := r.breaks
        locals := [] :: p.locals } }
      let t := t.restoreAll (t.self.locals.headD [])
      let t := { t with self := { t.self with
        arguments := p.arguments, loops := p.loops, calls := p.calls, breaks := p.breaks
        locals := p.locals } }
      if t.self.flow = .returning then t.withFlow .going else t

/-- A program in a process of its own. -/
def launch : Nat → String → Bytes → List Bytes → State → State
  | 0, _, _, _, s => s.withFlow .frozen
  | fuel + 1, tool, name, args, s =>
    let s := s.tick forkMicros
    if s.isGone then s else s.await (runProgram fuel tool name args s.fork)

/-- The process becomes a program, and runs to its end. -/
def runProgram : Nat → String → Bytes → List Bytes → State → State
  | 0, _, _, _, s => s.withFlow .frozen
  | fuel + 1, tool, name, args, s =>
    let s := s.untrapped.tick programMicros
    if s.isGone then s
    else if tool = "sh" ∨ tool = "dash" then beShell fuel name args s
    else if tool = "env" then
      let (vs, command) := environmentFor s.exports args
      let vars := Table.ofList (vs.map fun (k, v) => (k, (⟨some v, true, false⟩ : Variable)))
      match command with
      | [] => s.useTool name (fun t => .write t (unlines (vs.map fun (k, v) => k ++ '=' :: v))) []
      | program :: args =>
        match s.programOf program with
        | .program _ tool =>
          runProgram fuel tool program args { s with self := { s.self with vars := vars } }
        | _ =>
          let text := name ++ ": ".toList ++ marked program ++ ": No such file or directory\n".toList
          ((s.write 2 text).2.withStatus 127).withFlow .leaving
    else
      match tool? tool with
      | some f => s.useTool name f args
      | none => (s.withStatus 0).withFlow .leaving

/-- The process is a shell from now on. -/
def beShell : Nat → Bytes → List Bytes → State → State
  | 0, _, _, s => s.withFlow .frozen
  | fuel + 1, name, args, s =>
    let plain := s.asShell name .none []
    match Invocation.read ⟨.none, false, false, []⟩ args with
    | .error e => plain.abort e
    | .ok v =>
      let go := fun (name text : Bytes) (args : List Bytes) (last : Bool) =>
        finish fuel (script fuel last text ((s.asShell name v.options args).reading text))
      match v.isCommand, v.readsInput, v.rest with
      | true, _, [] => plain.abort "-c requires an argument".toList
      | true, _, [text] => go name text [] true
      | true, _, text :: name :: args => go name text args true
      | false, false, path :: args =>
        match s.all.files.find s.self.cwd (Bytes.toText path),
            s.all.files.contentAt s.self.cwd (Bytes.toText path) with
        | .ok _, some bytes => go path (Bytes.ofBytes bytes) args true
        | .error e, _ =>
          plain.abort ("cannot open ".toList ++ path ++ ": ".toList ++ (openReason e).toList)
        | .ok _, none => plain.abort ("cannot open ".toList ++ path ++ ": Is a directory".toList)
      | false, _, rest =>
        let (text, ends) := s.readable 0
        let s := (s.consume 0 text.length).waitUntil ends
        if s.isGone then s
        else finish fuel (script fuel false text ((s.asShell name v.options rest).reading text))

/-- A text is carried out, line after line. What is behind a mistake is not. -/
def script : Nat → Bool → Bytes → State → State
  | 0, _, _, s => s.withFlow .frozen
  | fuel + 1, last, text, s =>
    if !s.isGoing then s
    else
      match readLine text with
      | .ok none => s
      | .ok (some (c, rest)) =>
        script fuel last rest (run fuel (last && skipLines false rest = []) c s)
      | .error e =>
        let line := s.self.breaks + 1 - e.breaksLeft
        { s with self := { s.self with line := line } }.abort
          ("Syntax error: ".toList ++ e.fault.message.toList)

/-- A shell comes to its end, and does what it was told to do there. -/
def finish : Nat → State → State
  | 0, s => s.withFlow .frozen
  | fuel + 1, s =>
    if s.isGone then s
    else
      match s.self.traps.get? 0 with
      | none => s.withFlow .leaving
      | some [] => s.withFlow .leaving
      | some action =>
        let traps := s.self.traps.erase 0
        let t := { s with self := { s.self with
          traps := traps, flow := .going, isTested := false, loops := 0, builtin := none } }
        let t := script fuel false action (t.reading action)
        if t.isGone || t.self.flow = .leaving then t else (t.withStatus s.self.status).withFlow .leaving

end

end Evaluation

end CellReplay.Shell
