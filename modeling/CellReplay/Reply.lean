/-!
# Reply

What a caller gets back: what a program printed, or why nothing was computed.
-/

namespace CellReplay

inductive ReplyKind
  | result
  | error
  deriving DecidableEq, Repr

namespace ReplyKind

def text : ReplyKind → String
  | result => "result"
  | error => "error"

def ofText? (t : String) : Option ReplyKind := [result, error].find? (·.text = t)

theorem ofText?_text (k : ReplyKind) : ofText? k.text = some k := by cases k <;> decide

end ReplyKind

structure Reply where
  kind : ReplyKind
  content : String
  deriving DecidableEq, Repr

namespace Reply

def ok (content : String) : Reply := ⟨.result, content⟩

def error (content : String) : Reply := ⟨.error, content⟩

def isOk (r : Reply) : Bool := r.kind = .result

def isError (r : Reply) : Bool := r.kind = .error

end Reply

end CellReplay
