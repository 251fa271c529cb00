import CellReplay.Json.Parser
import CellReplay.Wire

/-!
# Rpc.Message

What a body says that is sent to the server, and what is answered.

* `Body.read`      — one message or a batch of them.
* `Message.ofJson` — a request that wants an answer, a notification that wants none, or neither.
* `Response`       — the answer to one request, under the request's own id.
* `Answer`         — the answer to a body, and how it goes out.
-/

namespace CellReplay.Rpc

inductive CallId
  | null
  | number (n : Nat)
  | text (s : String)
  deriving DecidableEq, Repr

def CallId.toJson : CallId → Json
  | null => .null
  | number n => Json.ofInt n
  | text s => Json.ofText s

/-- An unsigned integer of 64 bits, a text or null. -/
def CallId.ofJson? : Json → Option CallId
  | .null => some null
  | .string t => t.map text
  | .number n =>
    match n.number? with
    | some (.integer (.ofNat k)) => if k ≤ Text.maxUInt64 then some (number k) else none
    | _ => none
  | _ => none

/-- A request: a method, and parameters, which are null if they are not given. -/
structure Invocation where
  id : CallId
  method : String
  params : Json
  deriving Repr

inductive Message
  | invocation (i : Invocation)
  | notification
  | invalid (id : Option CallId)
  deriving Repr

def version : String := "2.0"

namespace Message

/-- The method of a message that names its version. -/
def methodOf (jsonrpc method : Option Json) : Option String := do
  let v ← (← jsonrpc).text?
  if v = version then (← method).text? else none

def invocation? (j : Json) : Option Invocation := do
  match ← j.fields? ["jsonrpc", "id", "method", "params"] 4 with
  | [v, some id, m, params] => return ⟨← CallId.ofJson? id, ← methodOf v m, params.getD .null⟩
  | _ => none

def isNotification (j : Json) : Bool :=
  match j.fields? ["jsonrpc", "method", "params"] 3 with
  | some [v, m, _] => (methodOf v m).isSome
  | _ => false

def idOf? (j : Json) : Option CallId := do
  match ← j.fields? ["id"] 1 with
  | [some id] => CallId.ofJson? id
  | _ => none

/-- A request, if it has a valid id; else a notification, if it names a method; else neither. -/
def ofJson (j : Json) : Message :=
  match invocation? j with
  | some i => .invocation i
  | none => if isNotification j then .notification else .invalid (idOf? j)

end Message

/-! ## Bodies -/

inductive Body
  | single (m : Message)
  | batch (ms : List Message)
  | unreadable
  | malformed
  deriving Repr

/-- How many characters of blanks may stand before a message. -/
def maxBlanks : Nat := 127

def isBlank (c : Char) : Bool := c = ' ' || c = '\t' || c = '\n' || c = '\r' || c = '\x0C'

/-- A message is an object and a batch an array; what begins with anything else is no body at all.
One whose text is no JSON is malformed. -/
def Body.read (s : String) : Body :=
  let cs := s.toList
  let rest := cs.dropWhile isBlank
  if maxBlanks < (cs.takeWhile isBlank).length then .unreadable
  else
    match rest with
    | '\x7b' :: _ =>
      match Json.parse (String.ofList rest) with
      | some j => .single (Message.ofJson j)
      | none => .malformed
    | '[' :: _ =>
      match Json.parse (String.ofList rest) with
      | some (.array js) => .batch (js.map Message.ofJson)
      | _ => .malformed
    | _ => .unreadable

/-! ## Answers -/

inductive Fault
  | parseError
  | invalidRequest
  | methodNotFound
  | invalidParams
  deriving DecidableEq, Repr

def Fault.code : Fault → Int
  | parseError => -32700
  | invalidRequest => -32600
  | methodNotFound => -32601
  | invalidParams => -32602

def Fault.message : Fault → String
  | parseError => "Parse error"
  | invalidRequest => "Invalid request"
  | methodNotFound => "Method not found"
  | invalidParams => "Invalid params"

structure Response where
  id : CallId
  outcome : Except Fault Json

def Response.toJson (r : Response) : Json :=
  Json.ofMembers <| [("jsonrpc", Json.ofText version), ("id", r.id.toJson)] ++
    match r.outcome with
    | .ok j => [("result", j)]
    | .error e => [("error",
        Json.ofMembers [("code", Json.ofInt e.code), ("message", Json.ofText e.message)])]

/-- The answer to a body. -/
inductive Answer
  | refused
  | one (r : Response)
  | many (rs : List Response)
  | silent

namespace Answer

/-- The status under which an answer goes out: only a body that is none at all is refused. -/
def status : Answer → Nat
  | refused => 400
  | one _ => 200
  | many _ => 200
  | silent => 200

def toJson? : Answer → Option Json
  | refused => some (Response.toJson ⟨.null, .error .parseError⟩)
  | one r => some r.toJson
  | many rs => some (.array (rs.map Response.toJson))
  | silent => none

def text (a : Answer) : String := (a.toJson?.map Json.print).getD ""

end Answer

end CellReplay.Rpc
