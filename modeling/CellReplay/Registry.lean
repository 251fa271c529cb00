import CellReplay.Context
import CellReplay.Outcome
import CellReplay.Replay
import CellReplay.Settings
import CellReplay.Text.Case

/-!
# Registry

Handlers know how to run the code of a language. A registry makes one for each language on first
use and keeps it.

* `HandlerKind.call`  — the program call for some code.
* `typeName`          — the name under which a language's kind of handler is registered.
* `Registry.resolve`  — the handler of a context, made if there is none yet.
-/

namespace CellReplay

open Text

inductive HandlerKind
  | python
  | shell
  deriving DecidableEq, Repr

namespace HandlerKind

def defaultSeparator : HandlerKind → String
  | python => "|"
  | shell => "\n"

def quoting : HandlerKind → Quoting
  | python => .normalize
  | shell => .verbatim

/-- The call that runs code behind the fragments of a session, if there is one. -/
def call (k : HandlerKind) (c : Context) (s : Settings) (history : Option (List String))
    (code : String) : Call :=
  ⟨c.path, ["-c", replay history code (s.separatorOr k.defaultSeparator) k.quoting], s.timeoutMs⟩

end HandlerKind

/-- A handler that has been made; `serial` tells it from all others of its registry. -/
structure Handler where
  serial : Nat
  kind : HandlerKind
  language : String
  deriving DecidableEq, Repr

/-- A language with its first character in upper case, and `Handler` behind it. -/
def typeName (language : String) : String :=
  match language.toList with
  | [] => "Handler"
  | c :: cs => String.ofList (upper c ++ cs) ++ "Handler"

structure Registry where
  factories : Table String HandlerKind
  cache : Table String Handler
  deriving DecidableEq, Repr

namespace Registry

def builtin : Table String HandlerKind :=
  Table.ofList [("PythonHandler", .python), ("ShellHandler", .shell)]

def new (factories : Table String HandlerKind) : Registry := ⟨factories, .empty⟩

/-- The handler of a context. A new one is made only if the context's program is there; a handler
made before is found by the language alone. -/
def resolve (r : Registry) (isThere : String → Bool) (c : Context) : Option Handler × Registry :=
  match r.factories.get? (typeName c.name) with
  | none => (none, r)
  | some kind =>
    match r.cache.get? c.name with
    | some h => (some h, r)
    | none =>
      if isThere c.path then
        let h : Handler := ⟨r.cache.size, kind, c.name⟩
        (some h, { r with cache := r.cache.put c.name h })
      else (none, r)

def cachedCount (r : Registry) : Nat := r.cache.size

end Registry

/-- The text for a context whose program is missing. -/
def missingExecutable (c : Context) : String :=
  "Interpreter '" ++ c.name ++ "' has no executable at " ++ c.path

end CellReplay
