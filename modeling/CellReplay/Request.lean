import CellReplay.Session

/-!
# Request

What a cell asks for: code in a language, in a session or in none.

* `Status`           — how far a request is from being interpreted.
* `Request.confirm`  — settles whether the session of a request is known.
* `Request.promote`  — the session of a request has been created.
-/

namespace CellReplay

inductive Status
  | noNeedForSession
  | noSessionId
  | noInterpreterFound
  | wrongSyntax
  | good
  deriving DecidableEq, Repr

namespace Status

def code : Status → Int
  | noNeedForSession => -800
  | noSessionId => -850
  | noInterpreterFound => -900
  | wrongSyntax => -950
  | good => -1000

def text : Status → String
  | noNeedForSession => "NO_NEED_FOR_SESSION"
  | noSessionId => "NO_SESSION_ID"
  | noInterpreterFound => "NO_INTERPRETER_FOUND"
  | wrongSyntax => "WRONG_SYNTAX"
  | good => "GOOD"

def all : List Status := [noNeedForSession, noSessionId, noInterpreterFound, wrongSyntax, good]

def ofText? (t : String) : Option Status := all.find? (·.text = t)

theorem ofText?_text (s : Status) : ofText? s.text = some s := by cases s <;> decide

end Status

structure Request where
  language : String
  code : String
  sessionId : Option SessionId
  status : Status
  deriving DecidableEq, Repr

/-- A change of status that no request makes. -/
structure InvalidTransition where
  source : Status
  target : Status
  deriving DecidableEq, Repr

def InvalidTransition.message (t : InvalidTransition) : String :=
  "Invalid request status transition: " ++ t.source.text ++ " -> " ++ t.target.text

namespace Request

def isNewSession (r : Request) : Bool := r.status = .noSessionId

def needsSession (r : Request) : Bool := r.status = .good || r.status = .noSessionId

/-- A missing session has been created. -/
def promote (r : Request) : Except InvalidTransition Request :=
  if r.status = .noSessionId then .ok { r with status := .good } else .error ⟨r.status, .good⟩

/-- No interpreter is known for the language, whatever was known before. -/
def markNoInterpreter (r : Request) : Request := { r with status := .noInterpreterFound }

/-- Settles a request that needs a session; others stay as they are. -/
def confirm (r : Request) (known : Bool) : Request :=
  if r.needsSession then { r with status := if known then .good else .noSessionId } else r

end Request

end CellReplay
