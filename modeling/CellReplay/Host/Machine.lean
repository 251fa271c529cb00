import CellReplay.Host.Launch
import CellReplay.Runner
import CellReplay.Service.World

/-!
# Host.Machine

The machine that programs run on: its files, its variables, how runs come about, and whether
programs on it reach each other over a network.
-/

namespace CellReplay

inductive Runs
  | scripted (s : Scripted)
  | real
  deriving Repr

structure Machine where
  files : Files
  cwd : List String
  «variables» : Table String String
  runs : Runs
  network : Bool

namespace Machine

/-- The home directory: that of the superuser, unless a variable names one. -/
def home (m : Machine) : String :=
  match m.«variables».get? "HOME" with
  | none | some "" => "/root"
  | some h => h

/-- Starts a program that gets to see some of the variables. -/
def launch (m : Machine) (allowed : List String) (call : Call) : Outcome × Machine :=
  let (o, files) := (Surrounds.ofVariables m.files m.cwd m.«variables» allowed).run call
  (o, { m with files := files })

def run (m : Machine) (call : Call) : Outcome × Machine :=
  match m.runs with
  | .scripted s => let (o, s) := s.next; (o, { m with runs := .scripted s })
  | .real => m.launch usualVariables call

def surroundings : Surroundings Machine := ⟨fun m => m.files.isThere, run⟩

end Machine

end CellReplay
