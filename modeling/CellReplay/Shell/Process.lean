import CellReplay.Shell.Signals
import CellReplay.Shell.Syntax
import CellReplay.Shell.Tools

/-!
# Shell.Process

A shell that runs, and what it shares with the processes around it.

* `Channel` — what a descriptor leads to.
* `Outside` — files, pipes and signals, which all processes see.
* `Process` — what a shell has for itself: a copy of it is a subshell.
* `State`   — both together.

Time is counted in millionths of a second from the start. A process whose clock passes the deadline
is frozen: nobody is left to see what it would do. Processes that run side by side are followed one
after the other: what is written to a pipe is kept with the time at which it was, and what a process
will do to another one that has already been followed is told beforehand (`Foresight`).
-/

namespace CellReplay.Shell

inductive Channel
  | null
  | pipe (id : Nat)
  | source (id : Nat)
  | file (id : Nat)
  deriving DecidableEq, Repr

structure OpenFile where
  place : List String
  offset : Nat
  appends : Bool
  deriving Repr

/-- Input that is still to be read: its pieces with the times at which they came, and when it ends. -/
structure Source where
  pieces : List (Nat × Bytes)
  ends : Nat
  deriving Repr

structure Writing where
  time : Nat
  pipe : Nat
  bytes : Bytes
  deriving Repr

/-- A signal on its way from a process to another one; 0 stands for all processes. -/
structure Signal where
  sender : Nat
  process : Nat
  time : Nat
  number : Nat
  deriving DecidableEq, Repr

/-- Signals that processes send each other, and when the last reader of a pipe ends. -/
structure Foresight where
  signals : List Signal
  closed : Table Nat Nat
  deriving DecidableEq, Repr

def Foresight.none : Foresight := ⟨[], .empty⟩

/-- What all processes see. `known` is what is told beforehand and `seen` what has come about. -/
structure Outside where
  files : Files
  writings : List Writing
  sources : Table Nat Source
  opened : Table Nat OpenFile
  held : Table Nat Nat
  nextId : Nat
  known : Foresight
  seen : Foresight
  deadline : Nat

structure Variable where
  value : Option Bytes
  exported : Bool
  readOnly : Bool
  deriving Repr

/-- How a process goes on behind a command. -/
inductive Flow
  | going
  | leaving
  | returning
  | breaking (loops : Nat)
  | continuing (loops : Nat)
  | killed (signal : Nat)
  | frozen
  deriving DecidableEq, Repr

/-- A process in the background, with its end, and whether the shell has come to know of that. -/
structure Job where
  process : Nat
  ends : Nat
  status : Nat
  signal : Option Nat
  isReaped : Bool
  deriving Repr

structure Options where
  stopOnError : Bool
  demandSet : Bool
  trace : Bool
  noGlob : Bool
  deriving DecidableEq, Repr

def Options.none : Options := ⟨false, false, false, false⟩

/-- A function, with the line breaks of the text that it stands in. -/
structure Routine where
  body : Command
  breaks : Nat

structure Process where
  id : Nat
  shellId : Nat
  parentId : Nat
  name : Bytes
  clock : Nat
  status : Nat
  flow : Flow
  vars : Table Bytes Variable
  arguments : List Bytes
  functions : Table Bytes Routine
  locals : List (List (Bytes × Option Variable))
  channels : Table Nat Channel
  cwd : List String
  options : Options
  traps : Table Nat Bytes
  pending : List Nat
  jobs : List Job
  lastJob : Option Nat
  loops : Nat
  calls : Nat
  isTested : Bool
  substituted : Option Nat
  builtin : Option Bytes
  letter : Nat
  breaks : Nat
  line : Nat

structure State where
  self : Process
  all : Outside

namespace State

def isGoing (s : State) : Bool := s.self.flow = .going

/-- Nothing comes any more of a process that a signal has ended or that is frozen. -/
def isGone (s : State) : Bool :=
  match s.self.flow with
  | .killed _ => true
  | .frozen => true
  | _ => false

def withFlow (s : State) (f : Flow) : State := { s with self := { s.self with flow := f } }

def withStatus (s : State) (n : Nat) : State := { s with self := { s.self with status := n } }

def withChannels (s : State) (cs : Table Nat Channel) : State :=
  { s with self := { s.self with channels := cs } }

def withTested (s : State) (b : Bool) : State := { s with self := { s.self with isTested := b } }

/-! ## Time and signals -/

/-- A signal comes to the process. The one that always ends a process cannot be caught. -/
def deliver (s : State) (n : Nat) : State :=
  let act := if n = signalKill ∨ n = 19 then none else s.self.traps.get? n
  match act with
  | some [] => s
  | some _ => { s with self := { s.self with pending := s.self.pending ++ [n] } }
  | none =>
    if isHarmless n then s
    else if isStopping n then s.withFlow .frozen
    else s.withFlow (.killed n)

def setClock (s : State) (time : Nat) : State := { s with self := { s.self with clock := time } }

/-- The signals that come to the process from now up to a time. -/
def coming (s : State) (time : Nat) : List Signal :=
  (s.all.known.signals.filter fun g =>
    (g.process = s.self.id ∨ g.process = 0) ∧ g.sender ≠ s.self.id ∧ s.self.clock < g.time ∧
      g.time ≤ time).mergeSort
      fun a b => a.time ≤ b.time

/-- Time goes by. A signal on the way may end the process. -/
def tick (s : State) (micros : Nat) : State :=
  if s.isGone then s
  else
    let time := s.self.clock + micros
    let s := if s.all.known.signals.isEmpty then s
      else (s.coming time).foldl (fun s g => if s.isGone then s else (s.setClock g.time).deliver g.number) s
    if s.isGone then s
    else
      let s := s.setClock time
      if s.all.deadline < time then s.withFlow .frozen else s

def waitUntil (s : State) (time : Nat) : State := s.tick (time - s.self.clock)

/-- The shell comes to know of the jobs that have ended, as it does while it waits for another
process. -/
def reap (s : State) : State :=
  let jobs := s.self.jobs.map fun j => { j with isReaped := j.isReaped || j.ends ≤ s.self.clock }
  { s with self := { s.self with jobs := jobs } }

/-- A time that never comes. -/
def never (s : State) : Nat := s.all.deadline + 1

/-- When the process has ended. -/
def ends (s : State) : Nat := if s.self.flow = .frozen then s.never else s.self.clock

/-- The status that others see of a process that has ended, and the signal that has ended it. -/
def outcome (s : State) : Nat × Option Nat :=
  match s.self.flow with
  | .killed n => (128 + n, some n)
  | _ => (s.self.status % 256, none)

def freshId (s : State) : Nat × State :=
  (s.all.nextId, { s with all := { s.all with nextId := s.all.nextId + 1 } })

/-- Sends a signal: to the process itself at once, to others for the time when they look. -/
def send (s : State) (process number : Nat) : State :=
  let noted := fun (s : State) =>
    let g : Signal := ⟨s.self.id, process, s.self.clock, number⟩
    { s with all := { s.all with seen := { s.all.seen with signals := s.all.seen.signals ++ [g] } } }
  if process = s.self.id then s.deliver number
  else if process = 0 then (noted s).deliver number
  else noted s

/-! ## Pipes and files -/

def held (s : State) (pipe : Nat) : Nat := (s.all.held.get? pipe).getD 0

/-- A process with these channels has been there until some time. -/
def hold (s : State) (channels : Table Nat Channel) (time : Nat) : State :=
  channels.entries.foldl (fun s (_, p) =>
    match p with
    | .pipe id => { s with all := { s.all with held := s.all.held.put id (max (s.held id) time) } }
    | _ => s) s

/-- The process has ended: it lets go of its channels. -/
def released (s : State) : State := s.hold s.self.channels s.ends

/-- All that has been written to a pipe, in the order of time; it is taken out. -/
def drain (s : State) (pipe : Nat) : List (Nat × Bytes) × State :=
  let (mine, others) := s.all.writings.partition (·.pipe = pipe)
  let ordered := mine.reverse.mergeSort fun a b => a.time ≤ b.time
  (ordered.map fun w => (w.time, w.bytes), { s with all := { s.all with writings := others } })

/-- A channel to input that is told. -/
def addSource (s : State) (x : Source) : Channel × State :=
  let (id, s) := s.freshId
  (.source id, { s with all := { s.all with sources := s.all.sources.put id x } })

def putFile (s : State) (place : List String) (bytes : Bytes) : State :=
  { s with all := { s.all with files := s.all.files.put place (.file (Bytes.toBytes bytes)) } }

def fileBytes (s : State) (place : List String) : Bytes :=
  match s.all.files.get? place with
  | some (.file bs) => Bytes.ofBytes bs
  | some (.program _) => Bytes.ofBytes Files.programContent
  | _ => []

/-- Writes to a descriptor, if it is open for that. Who writes to a pipe that nobody reads any more
gets a signal. -/
def write (s : State) (descriptor : Nat) (bytes : Bytes) : Bool × State :=
  if bytes = [] || s.isGone then (true, s)
  else
    match s.self.channels.get? descriptor with
    | none => (false, s)
    | some .null => (true, s)
    | some (.source _) => (false, s)
    | some (.pipe id) =>
      if (s.all.known.closed.get? id).any (· < s.self.clock) then (false, s.deliver signalPipe)
      else
        (true, { s with all := { s.all with writings := ⟨s.self.clock, id, bytes⟩ :: s.all.writings } })
    | some (.file id) =>
      match s.all.opened.get? id with
      | none => (false, s)
      | some o =>
        let old := s.fileBytes o.place
        let start := if o.appends then old.length else o.offset
        let padded := old.take start ++ List.replicate (start - old.length) '\x00'
        let s := s.putFile o.place (padded ++ bytes ++ old.drop (start + bytes.length))
        let o := { o with offset := start + bytes.length }
        (true, { s with all := { s.all with opened := s.all.opened.put id o } })

/-- What can be read from a descriptor, and when it ends. -/
def readable (s : State) (descriptor : Nat) : Bytes × Nat :=
  match s.self.channels.get? descriptor with
  | some (.source id) =>
    match s.all.sources.get? id with
    | some x => (x.pieces.flatMap (·.2), x.ends)
    | none => ([], 0)
  | some (.file id) =>
    match s.all.opened.get? id with
    | some o => ((s.fileBytes o.place).drop o.offset, 0)
    | none => ([], 0)
  | _ => ([], 0)

/-- When the first bytes of some pieces are there. -/
def arrivalIn : List (Nat × Bytes) → Nat → Nat
  | [], _ => 0
  | (t, bs) :: ps, n => if n = 0 then 0 else if n ≤ bs.length then t else max t (arrivalIn ps (n - bs.length))

def arrival (s : State) (descriptor n : Nat) : Nat :=
  match s.self.channels.get? descriptor with
  | some (.source id) =>
    match s.all.sources.get? id with
    | some x => arrivalIn x.pieces n
    | none => 0
  | _ => 0

def dropIn : List (Nat × Bytes) → Nat → List (Nat × Bytes)
  | [], _ => []
  | (t, bs) :: ps, n => if n < bs.length then (t, bs.drop n) :: ps else dropIn ps (n - bs.length)

/-- The state after `n` bytes have been read. -/
def consume (s : State) (descriptor n : Nat) : State :=
  match s.self.channels.get? descriptor with
  | some (.source id) =>
    match s.all.sources.get? id with
    | some x =>
      let x := { x with pieces := dropIn x.pieces n }
      { s with all := { s.all with sources := s.all.sources.put id x } }
    | none => s
  | some (.file id) =>
    match s.all.opened.get? id with
    | some o =>
      let o := { o with offset := o.offset + n }
      { s with all := { s.all with opened := s.all.opened.put id o } }
    | none => s
  | _ => s

/-! ## Messages -/

def warn (s : State) (text : Bytes) : State :=
  let caller := match s.self.builtin with
    | some n => n ++ ": ".toList
    | none => []
  let place := s.self.name ++ ": ".toList ++ Bytes.ofNat s.self.line ++ ": ".toList
  (s.write 2 (place ++ caller ++ text ++ ['\n'])).2

/-- A complaint that ends the shell. -/
def abort (s : State) (text : Bytes) : State :=
  let s := s.warn text
  if s.isGone then s else (s.withStatus 2).withFlow .leaving

/-! ## Variables -/

def value? (s : State) (name : Bytes) : Option Bytes :=
  (s.self.vars.get? name).bind (·.value)

def isReadOnly (s : State) (name : Bytes) : Bool :=
  (s.self.vars.get? name).any (·.readOnly)

def readOnlyFault (name : Bytes) : Bytes := name ++ ": is read only".toList

def putVariable (s : State) (name : Bytes) (v : Variable) : State :=
  { s with self := { s.self with vars := s.self.vars.put name v } }

/-- Sets a variable, unless it may only be read. Reading options begins anew with their index. -/
def set? (s : State) (name value : Bytes) : Except Bytes State :=
  if s.isReadOnly name then .error (readOnlyFault name)
  else
    let exported := (s.self.vars.get? name).any (·.exported)
    let s := if name = "OPTIND".toList then { s with self := { s.self with letter := 0 } } else s
    .ok (s.putVariable name ⟨some value, exported, false⟩)

/-- Sets a variable; one that may only be read ends the shell. -/
def assign (s : State) (name value : Bytes) : State :=
  match s.set? name value with
  | .ok s => s
  | .error e => s.abort e

def variableOr (s : State) (name : Bytes) : Variable :=
  (s.self.vars.get? name).getD ⟨none, false, false⟩

def exportName (s : State) (name : Bytes) : State :=
  s.putVariable name { s.variableOr name with exported := true }

def forbid (s : State) (name : Bytes) : State :=
  s.putVariable name { s.variableOr name with readOnly := true }

/-- A variable as it has been before. -/
def restore (s : State) (name : Bytes) : Option Variable → State
  | some v => s.putVariable name v
  | none => { s with self := { s.self with vars := s.self.vars.erase name } }

def exports (s : State) : List (Bytes × Bytes) :=
  s.self.vars.entries.filterMap fun (k, v) =>
    if v.exported then v.value.map (k, ·) else none

def separators (s : State) : Bytes := (s.value? "IFS".toList).getD [' ', '\t', '\n']

def home (s : State) : Bytes := (s.value? "HOME".toList).getD []

def pathOf (place : List String) : Bytes := '/' :: Bytes.ofText (Text.join "/" place)

def directory (s : State) : Bytes := pathOf s.self.cwd

def flags (s : State) : Bytes :=
  let o := s.self.options
  (if o.stopOnError then ['e'] else []) ++ (if o.noGlob then ['f'] else []) ++
    (if o.trace then ['x'] else []) ++ (if o.demandSet then ['u'] else [])

/-- The value of a parameter that has a single one. -/
def parameter? (s : State) (name : Bytes) : Option Bytes :=
  match name with
  | ['#'] => some (Bytes.ofNat s.self.arguments.length)
  | ['?'] => some (Bytes.ofNat s.self.status)
  | ['$'] => some (Bytes.ofNat s.self.shellId)
  | ['-'] => some s.flags
  | ['!'] => s.self.lastJob.map Bytes.ofNat
  | name =>
    match natOf? name with
    | some 0 => some s.self.name
    | some (n + 1) => s.self.arguments[n]?
    | none => s.value? name

end State

end CellReplay.Shell
