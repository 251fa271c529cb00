import CellReplay.Request

/-!
# Cell

A cell is raw text, `%language code`. Reading one never fails: what is missing shows in the status
of the request.

* `Cell.split` — the language and the code of a cell.
* `Cell.read`  — the request of a cell and of the field that names a session.
-/

namespace CellReplay.Cell

open Text

def marker : Char := '%'

/-- The language, which is the first word without its markers, and the code behind it. -/
def split (raw : List Char) : List Char × List Char :=
  let (head, body) := splitBlank (trimStart raw)
  (head.filter (· ≠ marker), trim body)

/-- The request of a cell. One without a language or without code has wrong syntax and no
session. -/
def read (raw : String) (field : Option String) : Request :=
  let (language, code) := split raw.toList
  if language.isEmpty || code.isEmpty then
    ⟨String.ofList language, String.ofList code, none, .wrongSyntax⟩
  else
    let id := SessionId.ofField field
    ⟨String.ofList language, String.ofList code, id,
      if id.isSome then .good else .noNeedForSession⟩

end CellReplay.Cell
