import CellReplay.Store.Url
import CellReplay.Table
import CellReplay.Text.Join

/-!
# Host.Files

The files of the machine that programs run on.

* `Files.find`   — the node at a path, walking one name after the other.
* `Files.write`, `Files.makeDirs`, `Files.remove` — changes, which fail without effect.
* `Files.openDatabase`, `Files.closeDatabase` — a database that is kept in a file.
* `Files.system` — a machine with the usual programs and nothing else.

A file is known by the names on the way to it from the root.
-/

namespace CellReplay

inductive Node
  | directory
  | file (content : List UInt8)
  | program (name : String)
  | database (d : Database)
  deriving DecidableEq, Repr

inductive FileError
  | notFound
  | denied
  | notDirectory
  | isDirectory
  | nulByte
  deriving DecidableEq, Repr

def FileError.message : FileError → String
  | .notFound => "No such file or directory (os error 2)"
  | .denied => "Permission denied (os error 13)"
  | .notDirectory => "Not a directory (os error 20)"
  | .isDirectory => "Is a directory (os error 21)"
  | .nulByte => "nul byte found in provided data"

structure Files where
  nodes : Table (List String) Node
  deriving DecidableEq, Repr

namespace Files

/-- The names between the slashes of a path. -/
def names (path : List Char) : List String :=
  go [] path
where
  go (name : List Char) : List Char → List String
    | [] => [String.ofList name.reverse]
    | '/' :: cs => String.ofList name.reverse :: go [] cs
    | c :: cs => go (c :: name) cs

def get? (f : Files) (place : List String) : Option Node :=
  if place = [] then some .directory else f.nodes.get? place

/-- Follows names from a place that is a directory. The last name need not be there. -/
def walk (f : Files) : List String → List String → Except FileError (List String)
  | place, [] => .ok place
  | place, n :: ns =>
    if f.get? place = none then .error .notFound
    else if f.get? place ≠ some .directory then .error .notDirectory
    else if n = "" ∨ n = "." then f.walk place ns
    else if n = ".." then f.walk place.dropLast ns
    else f.walk (place ++ [n]) ns

/-- Where a path leads, from the directory `cwd` if it does not begin at the root. -/
def place (f : Files) (cwd : List String) (path : String) : Except FileError (List String) :=
  let cs := path.toList
  if cs.any (· = '\x00') then .error .nulByte
  else
    match cs with
    | [] => .error .notFound
    | '/' :: cs => f.walk [] (names cs)
    | cs => f.walk cwd (names cs)

def find (f : Files) (cwd : List String) (path : String) : Except FileError Node := do
  let p ← f.place cwd path
  match f.get? p with
  | some n => .ok n
  | none => .error .notFound

/-- What programs and databases begin with; what follows is not text. -/
def programContent : List UInt8 := [0x7F, 0x45, 0x4C, 0x46]
def databaseContent : List UInt8 := Text.Utf8.encode "SQLite format 3\x00".toList

/-- What is in a file; directories and what is not there have no content. -/
def contentAt (f : Files) (cwd : List String) (path : String) : Option (List UInt8) :=
  match f.find cwd path with
  | .ok (.file bytes) => some bytes
  | .ok (.program _) => some programContent
  | .ok (.database _) => some databaseContent
  | .ok .directory => none
  | .error _ => none

def isThere (f : Files) (path : String) : Bool := (f.find [] path).toBool

def put (f : Files) (place : List String) (n : Node) : Files := ⟨f.nodes.put place n⟩

/-- Puts a file where its directory is there. -/
def write (f : Files) (cwd : List String) (path : String) (content : List UInt8) :
    Except FileError Files := do
  let p ← f.place cwd path
  match f.get? p.dropLast, f.get? p with
  | _, some .directory => .error .isDirectory
  | _, some (.program _) => .error .denied
  | _, some (.database _) => .error .denied
  | some .directory, _ => .ok (f.put p (.file content))
  | some _, _ => .error .notDirectory
  | none, _ => .error .notFound

/-- The directories on the way to a place. -/
def withDirs (f : Files) (done : List String) : List String → Files
  | [] => f
  | n :: ns =>
    let here := done ++ [n]
    (if f.get? here = none then f.put here .directory else f).withDirs here ns

/-- Makes the directories on the way to a place, unless something else is in the way. -/
def addDirs (f : Files) (done : List String) : List String → Except FileError Files
  | [] => .ok f
  | n :: ns =>
    let here := if n = "" ∨ n = "." then done else if n = ".." then done.dropLast else done ++ [n]
    match f.get? here with
    | none => (f.put here .directory).addDirs here ns
    | some .directory => f.addDirs here ns
    | some _ => .error .notDirectory

def addAll (f : Files) (cwd : List String) (path : String) : Except FileError Files :=
  match path.toList with
  | [] => .ok f
  | '/' :: cs => f.addDirs [] (names cs)
  | cs => if cs.any (· = '\x00') then .error .nulByte else f.addDirs cwd (names cs)

/-- The path of the directory that the last name of a path is in. -/
def parentOf (path : String) : Option String :=
  let trimmed := fun (ns : List String) => ns.dropWhile (· ∈ ["", "."])
  match trimmed (names path.toList).reverse with
  | [] => none
  | _ :: before =>
    let rooted := path.toList.head? = some '/'
    match trimmed before with
    | [] => some (if rooted then "/" else "")
    | ns => some (Text.join "/" ns.reverse)

def plainNames (path : String) : List String :=
  (names path.toList).filter fun n => n ≠ "" && n ≠ "."

def makeDirs (f : Files) (path : String) : Files := f.withDirs [] (plainNames path)

/-- Puts a file and the directories on the way to it. -/
def writeAll (f : Files) (path : String) (content : List UInt8) : Files :=
  let ns := plainNames path
  (f.withDirs [] ns.dropLast).put ns (.file content)

/-- Takes away what is at a path, with all that is in it. -/
def remove (f : Files) (path : String) : Files :=
  let ns := plainNames path
  if ns = [] then f else ⟨f.nodes.keep fun p => !ns.isPrefixOf p⟩

/-! ## Databases -/

/-- The database at a target. A file that is missing or empty becomes one without tables. -/
def openDatabase (f : Files) (cwd : List String) (t : Target) :
    Except DatabaseError (Database × Files) :=
  match t.location with
  | .memory => .ok (.empty, f)
  | .file path =>
    match f.place cwd path with
    | .error _ => .error .cannotOpen
    | .ok place =>
      match f.get? place.dropLast, f.get? place with
      | _, some (.database d) => .ok (d, f)
      | _, some (.file []) => .ok (.empty, f.put place (.database .empty))
      | _, some (.file _) => .error .notDatabase
      | _, some (.program _) => .error .notDatabase
      | _, some .directory => .error .cannotOpen
      | some .directory, none =>
        if t.readOnly then .error .cannotOpen else .ok (.empty, f.put place (.database .empty))
      | _, none => .error .cannotOpen

/-- The files after a database has been closed. One in memory is lost. -/
def closeDatabase (f : Files) (cwd : List String) (t : Target) (d : Database) : Files :=
  match t.location with
  | .memory => f
  | .file path =>
    match f.place cwd path with
    | .error _ => f
    | .ok place => f.put place (.database d)

/-! ## A plain machine -/

/-- Directories of a plain machine, and the programs in its `bin`. -/
def systemDirs : List (List String) := [
  ["bin"], ["boot"], ["dev"], ["etc"], ["home"], ["lib"], ["lib64"], ["media"], ["mnt"], ["opt"],
  ["proc"], ["root"], ["run"], ["sbin"], ["srv"], ["sys"], ["tmp"], ["usr"], ["usr", "bin"], ["usr", "lib"], ["usr", "local"],
  ["usr", "local", "bin"], ["usr", "sbin"], ["var"], ["var", "tmp"]]

def programs : List String := [
  "sh", "dash", "echo", "cat", "true", "false", "sleep", "printf", "test", "[", "tr", "pwd", "env",
  "kill", "wc", "head", "tail", "seq", "printenv", "rev", "yes", "sort", "uniq", "ls", "mkdir",
  "rm", "touch", "grep", "sed", "basename", "dirname", "expr", "id", "date", "cut", "tee"]

def passwd : String := "root:x:0:0:root:/root:/bin/sh\n"

def system : Files where
  nodes := Table.ofList <|
    systemDirs.map (·, .directory) ++
    programs.flatMap (fun n => [(["bin", n], .program n), (["usr", "bin", n], .program n)]) ++
    [(["dev", "null"], .file []), (["etc", "passwd"], .file (Text.Utf8.encode passwd.toList))]

end Files

end CellReplay
