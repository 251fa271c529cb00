import CellReplay.Context
import CellReplay.Json.Printer
import CellReplay.Reply
import CellReplay.Request

/-!
# Wire

The values of this program as JSON. A value with named parts is an object; it may also be read from
an array of its parts in their order. Members of other names are passed over, whatever they hold.

* `fields?`      — the parts of a value with named parts.
* `….toJson`, `….ofJson?` — writing and reading each type.
* `ExecuteOrder` — what a caller sends to have a cell run.
-/

namespace CellReplay

namespace Json

def text? : Json → Option String
  | .string t => t
  | _ => none

/-- An integer of 64 bits with a sign, written as one. -/
def sessionId? : Json → Option SessionId
  | .number n =>
    match n.number? with
    | some (.integer i) => SessionId.ofInt? i
    | _ => none
  | _ => none

def texts? : Json → Option (List String)
  | .array items => items.mapM text?
  | _ => none

/-- A value that may be missing or null. -/
def optional {α : Type} (read : Json → Option α) : Option Json → Option (Option α)
  | none => some none
  | some .null => some none
  | some j => (read j).map some

/-- A value of a closed list of names: the name, or an object that maps the name to null. -/
def variant? : Json → Option String
  | .string t => t
  | .object [(some k, .null)] => some k
  | _ => none

/-- The parts with the given names, in their order. An object must have no name twice; an array has
all parts, or at least `least` of them. -/
def fields? (names : List String) (least : Nat) : Json → Option (List (Option Json))
  | .object ms =>
    if ms.all (·.1.isSome) &&
        names.all (fun n => (ms.filter (·.1 = some n)).length ≤ 1) then
      some (names.map fun n => (ms.find? (·.1 = some n)).map Prod.snd)
    else none
  | .array items =>
    if least ≤ items.length ∧ items.length ≤ names.length then
      some ((items.map some) ++ List.replicate (names.length - items.length) none)
    else none
  | _ => none

end Json

open Json

def Status.toJson (s : Status) : Json := ofText s.text

def Status.ofJson? (j : Json) : Option Status := j.variant?.bind Status.ofText?

def ReplyKind.toJson (k : ReplyKind) : Json := ofText k.text

def ReplyKind.ofJson? (j : Json) : Option ReplyKind := j.variant?.bind ReplyKind.ofText?

def SessionId.toJson (i : SessionId) : Json := ofInt i.val

def Request.toJson (r : Request) : Json :=
  ofMembers [("language", ofText r.language), ("code", ofText r.code),
    ("session_id", r.sessionId.elim .null (·.toJson)), ("status", r.status.toJson)]

def Request.ofJson? (j : Json) : Option Request := do
  match ← j.fields? ["language", "code", "session_id", "status"] 4 with
  | [some l, some c, id, some s] =>
    return ⟨← l.text?, ← c.text?, ← optional sessionId? id, ← Status.ofJson? s⟩
  | _ => none

def Reply.toJson (r : Reply) : Json :=
  ofMembers [("kind", r.kind.toJson), ("content", ofText r.content)]

def Reply.ofJson? (j : Json) : Option Reply := do
  match ← j.fields? ["kind", "content"] 2 with
  | [some k, some c] => return ⟨← ReplyKind.ofJson? k, ← c.text?⟩
  | _ => none

def Session.toJson (s : Session) : Json :=
  ofMembers [("id", s.id.toJson), ("context", ofText s.context),
    ("history", .array (s.history.map ofText))]

def Session.ofJson? (j : Json) : Option Session := do
  match ← j.fields? ["id", "context", "history"] 3 with
  | [some i, some c, some h] => return ⟨← c.text?, ← i.sessionId?, ← h.texts?⟩
  | _ => none

def SessionKey.toJson (k : SessionKey) : Json :=
  ofMembers [("context", ofText k.context), ("id", k.id.toJson)]

def SessionKey.ofJson? (j : Json) : Option SessionKey := do
  match ← j.fields? ["context", "id"] 2 with
  | [some c, some i] => return ⟨← c.text?, ← i.sessionId?⟩
  | _ => none

def Context.toJson (c : Context) : Json :=
  ofMembers [("name", ofText c.name), ("executable_path", ofText c.path)]

def Context.ofJson? (j : Json) : Option Context := do
  match ← j.fields? ["name", "executable_path"] 2 with
  | [some n, some p] => return ⟨← n.text?, ← p.text?⟩
  | _ => none

/-- An order to run a cell. The session is named by any value. -/
structure ExecuteOrder where
  code : String
  session : Option Json
  deriving Repr

namespace ExecuteOrder

/-- How deeply the value of a session may nest: one level less than a whole text. -/
def maxDepth : Nat := 126

def ofJson? (j : Json) : Option ExecuteOrder := do
  match ← j.fields? ["code", "session_id"] 1 with
  | [some c, s] =>
    let session ← optional (fun j => if j.isSound maxDepth then some j else none) s
    return ⟨← c.text?, session⟩
  | _ => none

/-- The field that names the session: the text of a number, or a text. -/
def sessionField (o : ExecuteOrder) : Option String :=
  match o.session with
  | some (.number n) => n.number?.map Number.text
  | some (.string t) => t
  | _ => none

end ExecuteOrder

end CellReplay
