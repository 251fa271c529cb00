import CellReplay.Classifier
import CellReplay.Service.Program

/-!
# Service.Calls

The calls that the service answers.

* `Service.classify` — the request of a cell, with what the store knows about its session.
* `Service.dispatch` — runs a request, in its session if it has one.
* `Service.execute`  — one after the other.

No failure leaves a call: it becomes the content of a reply.
-/

namespace CellReplay

structure Service where
  classifier : Classifier
  properties : Properties
  deriving DecidableEq, Repr

namespace Service

open Program

def noInterpreter (language : String) : Reply :=
  .error ("No interpreter found for '" ++ language ++ "'")

def noHandler (language : String) : Reply :=
  .error ("Interpreter '" ++ language ++ "' is not available on this server")

def noSessionId : Reply := .error "Request needs a session but carries no session id"

def wrongSyntax (language : String) : Reply :=
  .error ("Request for '" ++ language ++ "' has wrong syntax")

def rejected (pattern : String) : Reply :=
  .error ("Couldn't parse input code, check that it matches following regex : '" ++ pattern ++ "'")

def internalError (e : Failure) : Reply := .error ("Internal error: " ++ e.message)

/-- The request of a cell that the classifier takes. If a lookup fails, the status stays as far as
it has been settled. -/
def classify (s : Service) (raw : String) (field : Option String) : Program (Option Request) :=
  match s.classifier.classify raw field with
  | none => return none
  | some r => do
    match ← ask (.findContext r.language) with
    | .error _ => return some r
    | .ok none => return some r.markNoInterpreter
    | .ok (some c) =>
      match if r.needsSession then r.sessionId else none with
      | none => return some r
      | some id =>
        match ← ask (.findSession ⟨c.name, id⟩) with
        | .ok session => return some (r.confirm session.isSome)
        | .error _ => return some r

/-- Runs code behind a history, if the context has a handler. -/
def interpret (s : Service) (c : Context) (history : Option (List String)) (code : String) :
    Program (Option Interpretation) := do
  match ← ask (.resolve c) with
  | none => return none
  | some h =>
    let call := h.kind.call c (s.properties.settingsFor c.name) history code
    return some (.ofOutcome (← ask (.run call)))

/-- The session under a key, made if it is not there. -/
def openSession (k : SessionKey) : Program (Except Failure Session) := do
  match ← ask (.findSession k) with
  | .error e => return .error e
  | .ok (some session) => return .ok session
  | .ok none =>
    match ← ask (.saveSession k.newSession) with
    | .error e => return .error e
    | .ok () => return .ok k.newSession

/-- Runs a request behind the history of its session, which is there. Code that ended cleanly and
printed nothing becomes part of the history. -/
def interpretIn (s : Service) (c : Context) (session : Session) (r : Request) :
    Program (Except Failure Reply) := do
  match ← s.interpret c (some session.history) r.code with
  | none => return .ok (noHandler c.name)
  | some outcome =>
    if outcome.completed && outcome.reply.content.isEmpty then
      match ← ask (.saveSession (session.append r.code)) with
      | .error e => return .error e
      | .ok () => return .ok outcome.reply
    else return .ok outcome.reply

/-- What is done while the lock of the session is held. -/
def interpretLocked (s : Service) (c : Context) (k : SessionKey) (r : Request) :
    Program (Except Failure Reply × Request) := do
  match ← openSession k with
  | .error e => return (.error e, r)
  | .ok session =>
    if r.isNewSession then
      match r.promote with
      | .error t => return (.error (.domain t), r)
      | .ok r => return (← s.interpretIn c session r, r)
    else return (← s.interpretIn c session r, r)

def interpretSession (s : Service) (c : Context) (id : SessionId) (r : Request) :
    Program (Except Failure Reply × Request) := do
  let k : SessionKey := ⟨c.name, id⟩
  ask (.acquire k)
  let answer ← s.interpretLocked c k r
  ask (.release k)
  return answer

def interpretAlone (s : Service) (c : Context) (r : Request) : Program Reply := do
  match ← s.interpret c none r.code with
  | none => return noHandler c.name
  | some outcome => return outcome.reply

def tryDispatch (s : Service) (r : Request) : Program (Except Failure Reply × Request) := do
  match ← ask (.findContext r.language) with
  | .error e => return (.error e, r)
  | .ok none => return (.ok (noInterpreter r.language), r.markNoInterpreter)
  | .ok (some c) =>
    match r.status with
    | .noNeedForSession => return (.ok (← s.interpretAlone c r), r)
    | .good | .noSessionId =>
      match r.sessionId with
      | some id => s.interpretSession c id r
      | none => return (.ok noSessionId, r)
    | .noInterpreterFound => return (.ok (noInterpreter r.language), r)
    | .wrongSyntax => return (.ok (wrongSyntax r.language), r)

/-- Runs a request; with the reply comes the request as it has become. -/
def dispatch (s : Service) (r : Request) : Program (Reply × Request) := do
  match ← s.tryDispatch r with
  | (.ok reply, r) => return (reply, r)
  | (.error e, r) => return (internalError e, r)

def execute (s : Service) (raw : String) (field : Option String) : Program Reply := do
  match ← s.classify raw field with
  | none => return rejected s.classifier.source
  | some r => return (← s.dispatch r).1

end Service

end CellReplay
