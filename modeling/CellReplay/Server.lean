import CellReplay.Config.Server
import CellReplay.Host.Machine

/-!
# Server

How a server comes up on a machine: it reads its configuration, opens its storage, makes sure of the
configured contexts and of the default session, and listens.

* `openStorage` — the store of a configuration.
* `bootstrap`   — contexts and session that are to be there.
* `start`       — all of it, or why the server does not come up.
-/

namespace CellReplay

open Config

inductive StartError
  | config (e : ConfigError)
  | directory (path : String)
  | database (e : DatabaseError)
  | contexts (e : Failure)
  | session (e : Failure)
  | address (host : String) (port : Nat)
  deriving DecidableEq, Repr

def StartError.message : StartError → String
  | .config e => e.message
  | .directory path => "Failed to create " ++ path
  | .database .versionTaken => "Migration failed"
  | .database _ => "DB pool creation failed"
  | .contexts _ => "Context bootstrap failed"
  | .session _ => "Session bootstrap failed"
  | .address host port =>
    let place := host ++ ":" ++ Text.decimal port
    "RPC server start failed: Failed to build server on " ++ place ++
      ": failed to lookup address information: Temporary failure in name resolution"

/-- A store with the place that it is kept at, on a machine that has it open. -/
structure Opened where
  store : Store
  target : Target
  machine : Machine

/-- A database with all its tables, made if it is not there. -/
def openDatabase (t : Target) (m : Machine) : Except DatabaseError Opened := do
  let (d, f) ← m.files.openDatabase m.cwd t
  let (r, d) := d.upgrade
  let () ← r
  return ⟨.database d, t, { m with files := f }⟩

/-- Nothing is kept; this is also where a store in memory is. -/
def nowhere : Target := ⟨.memory, false⟩

def openUrl (url : String) (m : Machine) : Except DatabaseError Opened := do
  openDatabase (← Target.ofUrl url) m

/-- The machine after the store has been closed. -/
def Opened.close (o : Opened) : Machine :=
  match o.store with
  | .memory _ => o.machine
  | .database d | .closed d =>
    { o.machine with files := o.machine.files.closeDatabase o.machine.cwd o.target d }

/-- The store closed and opened again; one in memory goes on. -/
def Opened.reopen (o : Opened) : Except DatabaseError Opened :=
  match o.store with
  | .memory _ => .ok o
  | .database _ | .closed _ => openDatabase o.target o.close

/-- The directory of a path of its own is made first. -/
def openStorage (s : Storage) (m : Machine) : Except StartError Opened := do
  match s with
  | .memory => return ⟨.memory .empty, nowhere, m⟩
  | .database url path =>
    let m ← match path.bind Files.parentOf with
      | none => .ok m
      | some parent =>
        match m.files.addAll m.cwd parent with
        | .ok f => .ok { m with files := f }
        | .error _ => .error (StartError.directory parent)
    (openUrl url m).mapError .database

/-- Makes sure of contexts, and then of the default session. -/
def bootstrap (c : ServerConfig) (s : Store) : Except StartError Store :=
  match s.seedContexts c.contexts with
  | (.error e, _) => .error (.contexts e)
  | (.ok _, s) =>
    match c.defaultSession with
    | none => .ok s
    | some id =>
      match s.seedSession ⟨c.defaultContext.name, id⟩ with
      | (.error e, _) => .error (.session e)
      | (.ok _, s) => .ok s

/-- Whether a host is written as an address, or is one that every machine knows. -/
def isAddress (host : String) : Bool :=
  let cs := host.toList
  host = "localhost" || (cs ≠ [] && cs.all fun c => c.isDigit || c = '.') ||
    (cs.contains ':' && cs.all fun c =>
      c.isDigit || c = '.' || c = ':' || ('a' ≤ c && c ≤ 'f') || ('A' ≤ c && c ≤ 'F'))

structure Running where
  service : Service
  opened : Opened

def start (m : Machine) : Except StartError Running := do
  let c ← (loadServerConfig m.files m.cwd m.«variables» m.home).mapError .config
  let o ← openStorage c.storage m
  let s ← bootstrap c o.store
  if isAddress c.host then
    return ⟨⟨.ofProperties c.properties, c.properties⟩, { o with store := s }⟩
  else .error (.address c.host c.port)

end CellReplay
