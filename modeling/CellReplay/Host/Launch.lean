import CellReplay.Host.Files
import CellReplay.Host.Pipes
import CellReplay.Shell.Evaluation

/-!
# Host.Launch

Programs that are started on a machine, as processes with two pipes for what they print.

* `Surrounds`        — files and variables that a program gets to see.
* `Surrounds.found`  — the program of a name.
* `Surrounds.course` — a program, from its start up to its end or until its time is over.
* `Surrounds.run`    — the same, with what it has printed as a text, its pipes read as soon as
  something arrives.
-/

namespace CellReplay

open Text Shell

/-- The variables that programs get to see unless others are named. -/
def usualVariables : List String := ["PATH", "HOME", "USER", "LANG", "LC_ALL", "TMPDIR"]

structure Surrounds where
  files : Files
  cwd : List String
  vars : List (String × String)

namespace Surrounds

/-- Only variables that are allowed are seen, in the order of their names. -/
def ofVariables (files : Files) (cwd : List String) (all : Table String String)
    (allowed : List String) : Surrounds :=
  let chosen := all.keep fun k => k ∈ allowed
  ⟨files, cwd, chosen.entries.mergeSort fun a b => a.1 ≤ b.1⟩

def programAt (m : Surrounds) (path : String) : Except FileError String :=
  match m.files.find m.cwd path with
  | .ok (.program n) => .ok n
  | .ok _ => .error .denied
  | .error e => .error e

/-- The first program of a name in some places; what may not be run is passed over. -/
def searched (m : Surrounds) (name : String) (nearest : FileError) : List String →
    Except FileError String
  | [] => .error nearest
  | p :: ps =>
    match m.programAt (if p = "" then name else p ++ "/" ++ name) with
    | .ok n => .ok n
    | .error .denied => m.searched name .denied ps
    | .error _ => m.searched name nearest ps

/-- The program of a name: a path if there is a slash in it, and else one in the usual places. -/
def found (m : Surrounds) (name : String) : Except FileError String :=
  if name.toList.contains '/' then m.programAt name
  else if name = "" then .error .notFound
  else
    let places := (m.vars.lookup "PATH").getD "/bin:/usr/bin"
    m.searched name .notFound ((placesOf places.toList).map String.ofList)

/-- The pipes of a program, and its number as a process. -/
def outputPipe : Nat := 1
def complaintPipe : Nat := 2
def firstProcess : Nat := 1000

/-- A process that has just been started. It has nothing to read. -/
def process (m : Surrounds) : Process where
  id := firstProcess
  shellId := firstProcess
  parentId := 1
  name := []
  clock := 0
  status := 0
  flow := .going
  vars := Table.ofList (m.vars.map fun (k, v) =>
    (Bytes.ofText k, ⟨some (Bytes.ofText v), true, false⟩))
  arguments := []
  functions := .empty
  locals := []
  channels := Table.ofList [(0, .null), (1, .pipe outputPipe), (2, .pipe complaintPipe)]
  cwd := m.cwd
  options := .none
  traps := .empty
  pending := []
  jobs := []
  lastJob := none
  loops := 0
  calls := 0
  isTested := false
  substituted := none
  builtin := none
  letter := 0
  breaks := 0
  line := 0

def outside (m : Surrounds) (deadline : Nat) (known : Foresight) : Outside where
  files := m.files
  writings := []
  sources := .empty
  opened := .empty
  held := .empty
  nextId := firstProcess + 1
  known := known
  seen := .none
  deadline := deadline

/-- More steps than any run takes in its time. -/
def plentyOfSteps : Nat := 4000000

/-- A program from its start to its end, if this is known of the time to come. -/
def trial (m : Surrounds) (tool : String) (call : Call) (known : Foresight) : State :=
  let s : State := ⟨m.process, m.outside (1000 * call.timeoutMs) known⟩
  let args := call.args.map Bytes.ofText
  (Evaluation.runProgram plentyOfSteps tool (Bytes.ofText call.program) args s).released

/-- Follows a program again and again until nothing new is seen of the time to come. -/
def settled (f : Foresight → State) : Nat → Foresight → State
  | 0, known => f known
  | n + 1, known =>
    let s := f known
    if s.all.seen = known then s else settled f n s.all.seen

/-- What has been printed, by the pipes that it came from, in the order of time. -/
def arrivals (s : State) : List (Outlet × List UInt8) :=
  let mine := s.all.writings.reverse.filter fun w => w.pipe = outputPipe ∨ w.pipe = complaintPipe
  (mine.mergeSort fun a b => a.time ≤ b.time).map fun w =>
    (if w.pipe = outputPipe then .output else .complaints, Bytes.toBytes w.bytes)

/-- Starts a program and waits until it has ended and nobody can print on its behalf any more. -/
def course (m : Surrounds) (call : Call) : Except RunFault Course × Files :=
  let refused := fun (e : FileError) =>
    (Except.error (RunFault.spawnFailed (call.program ++ ": " ++ e.message)), m.files)
  if (call.program :: call.args).any fun a => a.toList.contains '\x00' then refused .nulByte
  else
    match m.found call.program with
    | .error e => refused e
    | .ok tool =>
      let s := settled (m.trial tool call) 8 .none
      let ends := max s.ends (max (s.held outputPipe) (s.held complaintPipe))
      if s.all.deadline < ends ∨ call.timeoutMs = 0 then
        (.error (.timeout ((call.timeoutMs : Int).bmod UInt64.size)), s.all.files)
      else
        let code := match s.self.flow with
          | .killed _ => none
          | _ => some ((s.self.status % 256 : Nat) : Int)
        (.ok ⟨code, arrivals s⟩, s.all.files)

/-- Runs a program whose pipes are read as soon as something arrives. -/
def run (m : Surrounds) (call : Call) : Outcome × Files :=
  let (r, files) := m.course call
  (r.map fun c => c.finished (Merge.inOrder (Merge.picks c.arrivals)), files)

end Surrounds

end CellReplay
