import CellReplay.Rpc.Message
import CellReplay.Service.Calls

/-!
# Rpc.Methods

The methods of the server, and what it does with a body.

* `respond`     — the answer to one request.
* `Rpc.answer`  — the answer to a body: the requests of a batch run in order.

Whatever becomes of a cell that runs, the answer is a result; only requests that are no good are
answered by a fault.
-/

namespace CellReplay.Rpc

open Program

def statusMethod : String := "notebook.status.v1"

def executeMethod : String := "notebook.execute.v1"

def alive : String := "Alive!"

def executeOrder (s : Service) (o : ExecuteOrder) : Program Json := do
  return (← s.execute o.code o.sessionField).toJson

def respond (s : Service) (i : Invocation) : Program Response := do
  if i.method = statusMethod then return ⟨i.id, .ok (Json.ofText alive)⟩
  else if i.method = executeMethod then
    match ExecuteOrder.ofJson? i.params with
    | some o => return ⟨i.id, .ok (← executeOrder s o)⟩
    | none => return ⟨i.id, .error .invalidParams⟩
  else return ⟨i.id, .error .methodNotFound⟩

/-- The responses to the messages of a batch; a notification has none. -/
def respondAll (s : Service) : List Message → Program (List Response)
  | [] => return []
  | .invocation i :: ms => do
    let r ← respond s i
    return r :: (← respondAll s ms)
  | .notification :: ms => respondAll s ms
  | .invalid id :: ms => do
    return ⟨id.getD .null, .error .invalidRequest⟩ :: (← respondAll s ms)

/-- What answers a batch with these responses; an empty batch is no request. -/
def batchAnswer (ms : List Message) (rs : List Response) : Answer :=
  if ms.isEmpty then .one ⟨.null, .error .invalidRequest⟩
  else if rs.isEmpty then .silent
  else .many rs

def answer (s : Service) (body : String) : Program Answer := do
  match Body.read body with
  | .unreadable => return .refused
  | .malformed => return .one ⟨.null, .error .parseError⟩
  | .single (.invocation i) => return .one (← respond s i)
  | .single .notification => return .silent
  | .single (.invalid (some id)) => return .one ⟨id, .error .invalidRequest⟩
  | .single (.invalid none) => return .one ⟨.null, .error .parseError⟩
  | .batch ms => return batchAnswer ms (← respondAll s ms)

end CellReplay.Rpc
