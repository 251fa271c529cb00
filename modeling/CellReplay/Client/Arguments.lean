import CellReplay.Session
import CellReplay.Table

/-!
# Client.Arguments

The command line of the client.

* `Command`          — what the client is asked to do.
* `CommandLine.read` — the command and the address of the server, if the arguments are good.

An option takes its value from the next argument, or behind `=`; a short one also without it. What
begins with a hyphen and has more to it is an option, unless `--` came before.
-/

namespace CellReplay.Client

inductive Command
  | execute (code : String) (session : Option SessionId)
  | status
  | version
  deriving DecidableEq, Repr

structure CommandLine where
  url : String
  command : Command
  deriving DecidableEq, Repr

/-- The variable that names the server, and its address without it. -/
def urlVariable : String := "NOTEBOOK_RPC_URL"
def defaultUrl : String := "http://127.0.0.1:9528"

inductive Argument
  | plain (s : String)
  | option (name : String) (value : Option String)
  | rest
  deriving DecidableEq, Repr

def Argument.read (s : String) : Argument :=
  match s.toList with
  | ['-', '-'] => .rest
  | '-' :: '-' :: cs =>
    match cs.span (· ≠ '=') with
    | (n, '=' :: v) => .option (String.ofList ('-' :: '-' :: n)) (some (String.ofList v))
    | (n, _) => .option (String.ofList ('-' :: '-' :: n)) none
  | ['-', c] => .option (String.ofList ['-', c]) none
  | '-' :: c :: '=' :: v => .option (String.ofList ['-', c]) (some (String.ofList v))
  | '-' :: c :: v => .option (String.ofList ['-', c]) (some (String.ofList v))
  | _ => .plain s

/-- A value that stands in an argument of its own: anything that is no option. -/
def ownValue (s : String) : Option String :=
  match Argument.read s with
  | .plain v => some v
  | _ => none

/-- The arguments of `exec`: one cell and at most one session. After `--` all are plain. -/
structure Given where
  code : Option String
  session : Option SessionId
  deriving DecidableEq, Repr

def Given.withCode (g : Given) (s : String) : Option Given :=
  if g.code.isNone then some { g with code := some s } else none

def Given.withSession (g : Given) (s : String) : Option Given :=
  if g.session.isNone then
    (SessionId.read s.toList).toOption.map fun i => { g with session := some i }
  else none

def isSessionOption (name : String) : Bool := name = "-s" || name = "--session"

def readExecute (g : Given) : List String → Option Given
  | [] => some g
  | a :: as =>
    match Argument.read a with
    | .plain s => (g.withCode s).bind fun g => readExecute g as
    | .rest => as.foldlM Given.withCode g
    | .option name (some v) =>
      if isSessionOption name then (g.withSession v).bind fun g => readExecute g as else none
    | .option name none =>
      if isSessionOption name then
        match as with
        | v :: as => do readExecute (← g.withSession (← ownValue v)) as
        | [] => none
      else none

def Command.read (name : String) (arguments : List String) : Option Command :=
  match name with
  | "exec" => do
    let g ← readExecute ⟨none, none⟩ arguments
    return .execute (← g.code) g.session
  | "status" => if arguments = [] ∨ arguments = ["--"] then some .status else none
  | _ => none

namespace CommandLine

/-- The command line, with the address that is given so far and the one that counts if none is. -/
def readWith (fallback : String) (given : Option String) : List String → Option CommandLine
  | [] => none
  | a :: as =>
    match Argument.read a with
    | .plain name => (Command.read name as).map fun c => ⟨given.getD fallback, c⟩
    | .option "--version" none => some ⟨given.getD fallback, .version⟩
    | .option "-V" none => some ⟨given.getD fallback, .version⟩
    | .option "--rpc-url" (some v) =>
      if given.isNone then readWith fallback (some v) as else none
    | .option "--rpc-url" none =>
      match as with
      | v :: as => if given.isNone then do readWith fallback (some (← ownValue v)) as else none
      | [] => none
    | _ => none

def read (vars : Table String String) (arguments : List String) : Option CommandLine :=
  readWith ((vars.get? urlVariable).getD defaultUrl) none arguments

end CommandLine

end CellReplay.Client
