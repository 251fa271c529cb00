import CellReplay.Store.Database
import CellReplay.Text.Integer
import CellReplay.Text.Quoted
import CellReplay.Text.Utf8

/-!
# Store.Url

Where a database is, as a URL says it.

* `Location.ofUrl`  — the place, once all parameters are understood.
* `isMemoryUrl`     — the URL looks like one of a database in memory.

The scheme is taken off, the parameters stand behind the first `?`, and what is left is a path in
which `%` and two hexadecimal digits stand for a byte.
-/

namespace CellReplay

open Text

inductive Location
  | memory
  | file (path : String)
  deriving DecidableEq, Repr

/-- A place, and whether it may only be read. -/
structure Target where
  location : Location
  readOnly : Bool
  deriving DecidableEq, Repr

/-- A text without all the copies of `mark` that it begins with, `fuel` at most. -/
def dropMarks (mark : List Char) : Nat → List Char → List Char
  | 0, cs => cs
  | fuel + 1, cs =>
    if mark.isPrefixOf cs then dropMarks mark fuel (cs.drop mark.length) else cs

/-- Some text stands in another. -/
def occursIn (mark : List Char) : List Char → Bool
  | [] => mark.isEmpty
  | c :: cs => mark.isPrefixOf (c :: cs) || occursIn mark cs

def isMemoryUrl (url : String) : Bool :=
  occursIn ":memory:".toList url.toList || occursIn "mode=memory".toList url.toList

def hexDigit? (c : Char) : Option Nat :=
  if '0' ≤ c ∧ c ≤ '9' then some (c.toNat - 48)
  else if 'a' ≤ c ∧ c ≤ 'f' then some (c.toNat - 87)
  else if 'A' ≤ c ∧ c ≤ 'F' then some (c.toNat - 55)
  else none

/-- The bytes of a text in which `%` and two hexadecimal digits stand for a byte. -/
def percentDecode : List Char → List UInt8
  | [] => []
  | '%' :: a :: b :: cs =>
    match hexDigit? a, hexDigit? b with
    | some x, some y => UInt8.ofNat (x * 16 + y) :: percentDecode cs
    | _, _ => Utf8.encode ['%'] ++ percentDecode (a :: b :: cs)
  | c :: cs => Utf8.encode [c] ++ percentDecode cs

/-- The parts of a text between the signs `mark`. -/
def splitOn (mark : Char) : List Char → List (List Char)
  | [] => [[]]
  | c :: cs =>
    if c = mark then [] :: splitOn mark cs
    else
      match splitOn mark cs with
      | [] => [[c]]
      | p :: ps => (c :: p) :: ps

/-- A name or a value among parameters, where `+` stands for a space. -/
def formDecode (cs : List Char) : String :=
  String.ofList (Utf8.decodeLossy (percentDecode (cs.map fun c => if c = '+' then ' ' else c)))

/-- The parameters of a URL, in order. -/
def parameters (cs : List Char) : List (String × String) :=
  ((splitOn '&' cs).filter (· ≠ [])).map fun p =>
    (formDecode (p.takeWhile (· ≠ '=')), formDecode ((p.dropWhile (· ≠ '=')).drop 1))

namespace Target

def unknownValue (name value : String) : DatabaseError :=
  .configuration ("unknown value " ++ quoted value ++ " for \x60" ++ name ++ "\x60")

/-- What one parameter makes of a target. -/
def withParameter (t : Target) : String × String → Except DatabaseError Target
  | ("mode", v) =>
    match v with
    | "ro" => .ok { t with readOnly := true }
    | "rw" | "rwc" => .ok t
    | "memory" => .ok { t with location := .memory }
    | v => .error (unknownValue "mode" v)
  | ("cache", v) => if v ∈ ["private", "shared"] then .ok t else .error (unknownValue "cache" v)
  | ("immutable", v) =>
    if v ∈ ["true", "1", "false", "0"] then .ok t else .error (unknownValue "immutable" v)
  | ("vfs", _) => .ok t
  | (k, _) =>
    .error (.configuration
      ("unknown query parameter \x60" ++ k ++ "\x60 while parsing connection URL"))

/-- The place that a URL names. An empty path is a database that lasts as long as it is open. -/
def ofUrl (url : String) : Except DatabaseError Target := do
  let cs := url.toList
  let cs := dropMarks "sqlite:".toList cs.length (dropMarks "sqlite://".toList cs.length cs)
  let path := cs.takeWhile (· ≠ '?')
  let location ←
    if path = ":memory:".toList || path = [] then .ok Location.memory
    else
      match Utf8.decode (percentDecode path) with
      | .ok p => .ok (Location.file (String.ofList p))
      | .error e => .error (.configuration e)
  (parameters ((cs.dropWhile (· ≠ '?')).drop 1)).foldlM withParameter ⟨location, false⟩

end Target

end CellReplay
