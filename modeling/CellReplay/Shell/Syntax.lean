import CellReplay.Shell.Bytes

/-!
# Shell.Syntax

Commands of a shell as they are written.

* `Part`     — what words are made of: characters and expansions, each quoted or not.
* `Redirect` — where a descriptor of a command leads.
* `Command`  — simple commands and what is built of them.
-/

namespace CellReplay.Shell

/-- What an expansion makes of a parameter. A colon makes empty values count as unset. -/
inductive Modifier
  | plain
  | length
  | default (colon : Bool)
  | assign (colon : Bool)
  | demand (colon : Bool)
  | instead (colon : Bool)
  | dropEnd (longest : Bool)
  | dropStart (longest : Bool)
  | bad
  deriving DecidableEq, Repr

inductive RedirectKind
  | read
  | write
  | append
  | readWrite
  | duplicate
  | here
  deriving DecidableEq, Repr

mutual

inductive Part
  | char (c : Char) (quoted : Bool)
  | empty
  | parameter (name : Bytes) (modifier : Modifier) (argument : List Part) (quoted : Bool)
  | command (c : Command) (quoted : Bool)
  | arithmetic (expression : List Part) (quoted : Bool)

inductive Redirect
  | mk (descriptor : Nat) (kind : RedirectKind) (target : List Part)

inductive Command
  | nothing
  | simple (line : Nat) (assignments : List (Bytes × List Part)) (words : List (List Part))
      (redirects : List Redirect)
  | sequence (first second : Command)
  | both (first second : Command)
  | either (first second : Command)
  | negated (c : Command)
  | background (c : Command)
  | pipeline (stages : List Command)
  | subshell (c : Command)
  | branch (condition yes no : Command)
  | loop (stopsOn : Bool) (condition body : Command)
  | each (name : Bytes) (words : Option (List (List Part))) (body : Command)
  | choice (word : List Part) (arms : List (List (List Part) × Command))
  | function (name : Bytes) (body : Command)
  | redirected (c : Command) (redirects : List Redirect)

end

abbrev Word := List Part

/-- One command behind another. -/
def Command.andThen : Command → Command → Command
  | .nothing, d => d
  | c, .nothing => c
  | c, d => .sequence c d

/-- The words that have a meaning of their own at the start of a command. -/
def reservedWords : List Bytes :=
  ["!", "case", "do", "done", "elif", "else", "esac", "fi", "for", "if", "in", "then", "until",
    "while", "\x7b", "\x7d"].map (·.toList)

/-- The signs that end a word, the longer ones first. -/
def operators : List Bytes :=
  [";;", "&&", "||", ";", "&", "|", "(", ")"].map (·.toList)

def isOperatorChar (c : Char) : Bool := c ∈ [';', '&', '|', '(', ')', '<', '>']

def isGap (c : Char) : Bool := c = ' ' || c = '\t'

end CellReplay.Shell
