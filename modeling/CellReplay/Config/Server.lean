import CellReplay.Config.Layers
import CellReplay.Context

/-!
# Config.Server

What the properties say about the server itself.

* `Storage.ofText`            — where contexts and sessions are kept.
* `ServerConfig.ofProperties` — the whole configuration, or what is wrong with a property.
* `ServerConfig.contexts`     — the contexts that the server makes sure of.
* `loadServerConfig`          — the configuration of a machine.
-/

namespace CellReplay.Config

open Text

/-- A path in which `~` at the front, alone or before a slash, stands for the home directory. -/
def expandHome (home path : String) : String :=
  match path.toList with
  | ['~'] => home
  | '~' :: '/' :: cs => home ++ String.ofList ('/' :: cs)
  | _ => path

inductive Storage
  | memory
  | database (url : String) (path : Option String)
  deriving DecidableEq, Repr

/-- `memory`, a URL of a database, or the path of one. -/
def Storage.ofText (home raw : String) : Storage :=
  if raw = "memory" then .memory
  else if "sqlite:".toList.isPrefixOf raw.toList then .database raw none
  else .database ("sqlite://" ++ expandHome home raw) (some (expandHome home raw))

inductive ConfigError
  | unreadable
  | invalid (key raw : String) (cause : IntegerError)
  deriving DecidableEq, Repr

namespace ConfigError

def message : ConfigError → String
  | unreadable => "Failed to build configuration"
  | invalid key raw _ => "Invalid " ++ key ++ ": '" ++ raw ++ "'"

def causes : ConfigError → List String
  | unreadable => []
  | invalid _ _ cause => [cause.message]

end ConfigError

structure ServerConfig where
  properties : Properties
  host : String
  port : Nat
  storage : Storage
  defaultContext : Context
  defaultSession : Option SessionId
  extraContexts : List Context
  deriving DecidableEq, Repr

/-- What the properties of further contexts begin with; the rest of the name is the language. -/
def contextsMark : String := "interpreters."

namespace ServerConfig

def portOf (p : Properties) : Except ConfigError Nat :=
  match p.get? portKey with
  | none => .ok defaultPort
  | some raw => (readNat maxUInt16 raw.toList).mapError (.invalid portKey raw)

/-- The session that is there from the start; an empty text asks for none. -/
def defaultSessionOf (p : Properties) : Except ConfigError (Option SessionId) :=
  match p.get? sessionKey with
  | none => .ok (some Config.defaultSession)
  | some "" => .ok none
  | some raw => ((SessionId.read raw.toList).map some).mapError (.invalid sessionKey raw)

/-- The rest of a name behind the mark of contexts. -/
def languageOf (key : String) : Option String :=
  if contextsMark.toList.isPrefixOf key.toList then
    some (String.ofList (key.toList.drop contextsMark.toList.length))
  else none

/-- A context for every property that begins with the mark, in the order of their names. -/
def extraContextsOf (home : String) (p : Properties) : List Context :=
  p.names.filterMap fun key => do
    return ⟨← languageOf key, expandHome home (← p.get? key)⟩

def ofProperties (home : String) (p : Properties) : Except ConfigError ServerConfig := do
  let port ← portOf p
  let session ← defaultSessionOf p
  return {
    properties := p
    host := (p.get? hostKey).getD defaultHost
    port := port
    storage := .ofText home ((p.get? databaseKey).getD defaultDatabase)
    defaultContext := ⟨(p.get? nameKey).getD defaultName,
      expandHome home ((p.get? pathKey).getD defaultPath)⟩
    defaultSession := session
    extraContexts := extraContextsOf home p }

/-- The default context, and the further ones that have another name. -/
def contexts (c : ServerConfig) : List Context :=
  c.defaultContext :: c.extraContexts.filter (·.name ≠ c.defaultContext.name)

end ServerConfig

/-- The variable that holds the path of the file, and the path without it. -/
def fileVariable : String := "NOTEBOOK_CONFIG"
def defaultFile : String := "~/.notebook/notebook.toml"

def loadServerConfig (f : Files) (cwd : List String) (vars : Table String String)
    (home : String) : Except ConfigError ServerConfig :=
  let path := expandHome home ((vars.get? fileVariable).getD defaultFile)
  match loadProperties f cwd vars (some path) with
  | none => .error .unreadable
  | some p => ServerConfig.ofProperties home p

end CellReplay.Config
