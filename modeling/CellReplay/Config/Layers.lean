import CellReplay.Classifier
import CellReplay.Config.Environment
import CellReplay.Host.Files
import CellReplay.Toml.Parser
import CellReplay.Text.Utf8

/-!
# Config.Layers

The properties of a program, from three layers: defaults, a file, and the environment. A later layer
has its way over an earlier one.

* `propertiesOf`   — the properties of layers.
* `loadProperties` — those of a machine with a file.
-/

namespace CellReplay.Config

mutual

def treeOf : Toml.Value → Tree
  | .text s => .scalar s
  | .integer n => .scalar (Text.decimalInt n)
  | .floating x => .scalar x.text
  | .boolean b => .scalar (if b then "true" else "false")
  | .moment s => .scalar s
  | .array _ => .list
  | .table es => .table (treesOf es)

def treesOf : List (String × Toml.Value) → List (String × Tree)
  | [] => []
  | (k, v) :: es => (k, treeOf v) :: treesOf es

end

/-! ## Names of properties and their defaults -/

def nameKey : String := "default.interpreter.name"
def pathKey : String := "default.interpreter.path"
def sessionKey : String := "default.session.id"
def hostKey : String := "server.host"
def portKey : String := "server.port"
def databaseKey : String := "database.url"

def defaultName : String := "python"
def defaultPath : String := "/usr/bin/python3"
def defaultSession : SessionId := ⟨321, by decide, by decide⟩
def defaultHost : String := "127.0.0.1"
def defaultPort : Nat := 9528
def defaultDatabase : String := "~/.notebook/notebook.db"

def defaultLayer : List (String × Tree) := [
  (Classifier.patternKey, .scalar Classifier.defaultPattern),
  (nameKey, .scalar defaultName),
  (pathKey, .scalar defaultPath),
  (hostKey, .scalar defaultHost),
  (portKey, .scalar (Text.decimal defaultPort)),
  (databaseKey, .scalar defaultDatabase)]

def overlay (t : Tree) (layer : List (String × Tree)) : Tree :=
  layer.foldl (fun t (k, v) => (Path.ofKey k).set v t) t

/-- The properties of layers, the first of which lies at the bottom. -/
def propertiesOf (layers : List (List (String × Tree))) : Properties :=
  (layers.foldl overlay (.table [])).flatten

/-! ## The file -/

/-- A path with `.toml` behind its last name. -/
def withSuffix (path : String) : Option String :=
  match (Files.names path.toList).reverse.dropWhile (· ∈ ["", "."]) with
  | [] => none
  | last :: before =>
    if last = ".." then none
    else some (Text.join "/" (before.reverse ++ [last ++ ".toml"]))

/-- What a file holds, if there is one: the file at the path, or else the one with the suffix. -/
def fileContent (f : Files) (cwd : List String) (path : String) : Option (List UInt8) :=
  (f.contentAt cwd path).orElse fun _ => (withSuffix path).bind (f.contentAt cwd)

/-- The layer of a file. Bytes that are no text are replaced, and a mark of the encoding is passed
over. -/
def fileLayer (bytes : List UInt8) : Option (List (String × Tree)) :=
  let bytes := match bytes with | 0xEF :: 0xBB :: 0xBF :: bs => bs | bs => bs
  (Toml.parse (String.ofList (Text.Utf8.decodeLossy bytes))).map treesOf

/-- All properties, if the file is sound. A file that is not there sets none. -/
def loadProperties (f : Files) (cwd : List String) (vars : Table String String)
    (path : Option String) : Option Properties := do
  let file ← match path.bind (fileContent f cwd) with
    | some bytes => fileLayer bytes
    | none => some []
  return propertiesOf [defaultLayer, file, environmentLayer vars]

end CellReplay.Config
