import CellReplay.Cell
import CellReplay.Pattern.Matching
import CellReplay.Pattern.Meaning
import CellReplay.Properties

/-!
# Classifier

Which cells are taken at all. A classifier holds a pattern, and a cell has to match it as a whole;
without a pattern, or with one that is not well formed, it takes none.

* `Classifier.compiledBy` — the classifier of a pattern's text, given the engine that compiles it.
* `Classifier.ofPattern`  — the one that is run here.
* `Classifier.accepts`    — a cell matches.
* `Classifier.classify`   — the request of a cell that matches.
-/

namespace CellReplay

open Text

structure Classifier where
  source : String
  regex : Option Pattern.Regex
  deriving DecidableEq, Repr

namespace Classifier

def patternKey : String := "global.request.pattern"

/-- A language of ASCII letters, blanks, and code that may take several lines. -/
def defaultPattern : String := "%[A-Za-z]+\\s+[\\s\\S]+"

/-- A pattern's text within what makes it match from start to end. -/
def enclosed (source : List Char) : List Char := "^(?:".toList ++ source ++ ")$".toList

def compiledBy (E : Pattern.Engine) (pattern : Option String) : Classifier :=
  let source := trim (pattern.getD "").toList
  ⟨String.ofList source, if source.isEmpty then none else Pattern.compile? E (enclosed source)⟩

def ofPattern (pattern : Option String) : Classifier := compiledBy .tabled pattern

def ofProperties (p : Properties) : Classifier := ofPattern (p.get? patternKey)

def accepts (c : Classifier) (raw : String) : Bool :=
  !raw.isEmpty && c.regex.elim false (·.isFound raw.toList)

/-- The request of a cell; one that matches but lacks a language or code is refused too. -/
def classify (c : Classifier) (raw : String) (field : Option String) : Option Request :=
  if c.accepts raw then
    let r := Cell.read raw field
    if r.status = .wrongSyntax then none else some r
  else none

end Classifier

end CellReplay
