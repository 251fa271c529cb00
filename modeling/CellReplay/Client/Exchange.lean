import CellReplay.Client.Arguments
import CellReplay.Json.Parser
import CellReplay.Rpc.Methods

/-!
# Client.Exchange

What the client sends, what it makes of the reply, and what it shows.

* `Command.body`   — the body that is sent.
* `readReply`      — the result within a reply, or what is wrong with it.
* `shown`          — how the client ends, and the texts that it writes.

Texts are coloured only if that is asked for.
-/

namespace CellReplay.Client

/-- The message that a command sends; only two commands send one. -/
def Command.message? : Command → Option Json
  | .execute code session => some (call Rpc.executeMethod
      (Json.ofMembers [("code", Json.ofText code), ("session_id", session.elim .null (·.toJson))]))
  | .status => some (call Rpc.statusMethod (.array []))
  | .version => none
where
  call (method : String) (params : Json) : Json :=
    Json.ofMembers [("jsonrpc", Json.ofText Rpc.version), ("method", Json.ofText method),
      ("params", params), ("id", Json.ofInt 1)]

/-- The code that a command runs, if it is to be read from the input. -/
def Command.withInput (c : Command) (input : String) : Command :=
  match c with
  | .execute "-" session => .execute input session
  | c => c

inductive CallError
  | unreachable
  | unreadable
  | fault (code : Int) (message : String)
  | noResult
  | unexpected
  deriving DecidableEq, Repr

def CallError.message : CallError → String
  | unreachable => "Failed to connect to server"
  | unreadable => "Failed to parse response"
  | fault code message => "RPC error (" ++ Text.decimalInt code ++ "): " ++ message
  | noResult => "No result in response"
  | unexpected => "Unexpected execute result"

def int32? : Json → Option Int
  | .number n =>
    match n.number? with
    | some (.integer i) => if -2147483648 ≤ i ∧ i ≤ 2147483647 then some i else none
    | _ => none
  | _ => none

def faultOf (j : Json) : Option (Int × String) := do
  match ← j.fields? ["code", "message"] 2 with
  | [some c, some m] => return (← int32? c, ← m.text?)
  | _ => none

/-- How deeply a result may nest: one level less than a whole text. -/
def maxDepth : Nat := 126

/-- The result and the fault of a reply, of which either may be missing. -/
def partsOf (j : Json) : Option (Option Json × Option (Int × String)) := do
  match ← j.fields? ["result", "error"] 2 with
  | [r, e] =>
    let result ← Json.optional (fun j => if j.isSound maxDepth then some j else none) r
    return (result, ← Json.optional faultOf e)
  | _ => none

/-- The result within the text of a reply; a fault goes before a result. -/
def readReply (body : String) : Except CallError Json :=
  match (Json.parse body).bind partsOf with
  | none => .error .unreadable
  | some (_, some (code, message)) => .error (.fault code message)
  | some (some r, none) => .ok r
  | some (none, none) => .error .noResult

/-- The result of a call, for which the server may be out of reach. -/
def receive (reply : Option String) : Except CallError Json :=
  match reply with
  | none => .error .unreachable
  | some body => readReply body

/-! ## What is shown -/

/-- How a program ends that runs to its end, and what it has written. -/
structure Shown where
  exit : Nat
  stdout : String
  stderr : String
  deriving DecidableEq, Repr

inductive Style
  | bold
  | red
  | green
  deriving DecidableEq, Repr

def Style.mark : Style → List Char
  | bold => "\x1b[1m".toList
  | red => "\x1b[31m".toList
  | green => "\x1b[32m".toList

def plainMark : List Char := "\x1b[0m".toList

/-- A text in which the style begins anew behind every mark that ends styles. -/
def restyled (mark : List Char) : Nat → List Char → List Char
  | _, [] => []
  | 0, c :: cs =>
    if plainMark.isPrefixOf (c :: cs) then
      c :: restyled mark (plainMark.length - 1) cs
    else c :: restyled mark 0 cs
  | 1, c :: cs => c :: mark ++ restyled mark 0 cs
  | n + 2, c :: cs => c :: restyled mark (n + 1) cs

def styled (coloured : Bool) (style : Style) (s : String) : String :=
  if coloured then
    String.ofList (style.mark ++ restyled style.mark 0 s.toList ++ plainMark)
  else s

/-- Whether colours are asked for, as the output is no terminal. -/
def isColoured (vars : Table String String) : Bool :=
  match vars.get? "CLICOLOR_FORCE" with
  | none => false
  | some v => v ≠ "0"

def failed (e : CallError) : Shown := ⟨1, "", "Error: " ++ e.message ++ "\n"⟩

def resultOf? (j : Json) : Option (String × String) := do
  match ← j.fields? ["kind", "content"] 2 with
  | [some k, some c] => return (← k.text?, ← c.text?)
  | _ => none

def showResult (coloured : Bool) (j : Json) : Shown :=
  match resultOf? j with
  | none => failed .unexpected
  | some (kind, content) =>
    if kind = "error" then ⟨1, "", styled coloured .red content ++ "\n"⟩
    else ⟨0, if content.isEmpty then "" else content ++ "\n", ""⟩

def line (coloured : Bool) (label value : String) : String :=
  "  " ++ styled coloured .bold label ++ " " ++ value ++ "\n"

def showStatus (coloured : Bool) (url : String) : Except CallError Json → Shown
  | .ok j => ⟨0, line coloured "RPC URL:" url ++
      line coloured "Status:" (styled coloured .green (j.text?.getD "unknown")), ""⟩
  | .error e => ⟨1, line coloured "Status:" (styled coloured .red "OFFLINE") ++
      line coloured "Error:" e.message, ""⟩

def showVersion : Shown := ⟨0, "notebook 0.1.0\n", ""⟩

/-- What a command line comes to, with the body of the server's reply if there was one. -/
def shown (coloured : Bool) (l : CommandLine) (reply : Option String) : Shown :=
  match l.command with
  | .version => showVersion
  | .status => showStatus coloured l.url (receive reply)
  | .execute _ _ =>
    match receive reply with
    | .ok j => showResult coloured j
    | .error e => failed e

def usageExit : Nat := 2

end CellReplay.Client
