import CellReplay.Properties
import CellReplay.Text.Blank
import CellReplay.Text.Integer

/-!
# Settings

The properties of one language, which stand under `interpreter.<language>.`.

* `Settings.property`  — a property by its name within the language.
* `Settings.timeoutMs` — how long a program may run.
* `Properties.settingsFor` — the settings of a language among all properties.
-/

namespace CellReplay

open Text

structure Settings where
  language : String
  properties : Properties
  deriving DecidableEq, Repr

namespace Settings

/-- What the full names of a language's properties begin with. -/
def scope (language : String) : String := "interpreter." ++ language ++ "."

/-- Milliseconds that a program may run unless a property says otherwise. -/
def defaultTimeoutMs : Nat := 5000

def get? (s : Settings) (name : String) : Option String := s.properties.get? name

def property (s : Settings) (key : String) : Option String := s.get? (scope s.language ++ key)

/-- The timeout property, or the default if it is missing or no number of 64 bits. -/
def timeoutMs (s : Settings) : Nat :=
  ((s.property "timeout").bind fun raw =>
    (readNat maxUInt64 (trim raw.toList)).toOption).getD defaultTimeoutMs

def separatorOr (s : Settings) (default : String) : String :=
  (s.property "separator").getD default

end Settings

def Properties.settingsFor (p : Properties) (language : String) : Settings :=
  ⟨language, p.keep fun k => (Settings.scope language).toList.isPrefixOf k.toList⟩

end CellReplay
