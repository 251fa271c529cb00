import CellReplay.Shell.Process

/-!
# Shell.Fields

What words come to: fields, which are split at separators and may stand for the names of files.

* `Cell`     — what expansions are made of.
* `fieldsOf` — the fields that cells make.
* `globbed`  — a field as the names of files that it matches.
-/

namespace CellReplay.Shell

/-- A character, with whether it is quoted and whether it may split a field; the sign that there is
a field; and the end of one. -/
inductive Cell
  | char (c : Char) (quoted splits : Bool)
  | mark
  | stop
  deriving DecidableEq, Repr

namespace Cell

def ofBytes (quoted splits : Bool) (t : Bytes) : List Cell := t.map (.char · quoted splits)

def text (cs : List Cell) : Bytes :=
  cs.filterMap fun c => match c with | .char c _ _ => some c | _ => none

def pattern (cs : List Cell) : List (Char × Bool) :=
  cs.filterMap fun c => match c with | .char c q _ => some (c, q) | _ => none

end Cell

/-- A field with its characters in reverse, under way. -/
abbrev Pending := Option (List (Char × Bool))

/-- The fields that cells make, put behind those in `done`, which are in reverse. Blanks among the
separators end a field; any other separator ends one even if it is empty, unless blanks have just
done so. -/
def fieldsOf (separators : Bytes) (done : List (List (Char × Bool))) (current : Pending)
    (afterBlank : Bool) : List Cell → List (List (Char × Bool))
  | [] => (current.toList.map List.reverse ++ done).reverse
  | .mark :: cs => fieldsOf separators done (some (current.getD [])) false cs
  | .stop :: cs => fieldsOf separators (current.toList.map List.reverse ++ done) none false cs
  | .char c quoted splits :: cs =>
    if splits && !quoted && separators.contains c then
      let blank := c = ' ' || c = '\t' || c = '\n'
      match current with
      | some f => fieldsOf separators (f.reverse :: done) none blank cs
      | none =>
        if blank then fieldsOf separators done none afterBlank cs
        else if afterBlank then fieldsOf separators done none false cs
        else fieldsOf separators ([] :: done) none false cs
    else fieldsOf separators done (some ((c, quoted) :: current.getD [])) false cs

/-- The parts of a pattern between slashes. -/
def globParts (part : List (Char × Bool)) : List (Char × Bool) → List (List (Char × Bool))
  | [] => [part.reverse]
  | (c, q) :: cs => if c = '/' then part.reverse :: globParts [] cs else globParts ((c, q) :: part) cs

/-- The names that a pattern of parts leads to, from a directory that is reached by `before`. -/
def expandParts (f : Files) (place : List String) (before : Bytes) :
    List (List (Char × Bool)) → List Bytes
  | [] => [before]
  | p :: ps =>
    let plain := p.map (·.1)
    let next := fun (n : Bytes) =>
      if ps.isEmpty then [before ++ n]
      else
        expandParts f (if n = [] then place else place ++ [Bytes.toText n]) (before ++ n ++ ['/']) ps
    if isOpen (globOf p) then
      ((namesIn f place).map Bytes.ofText).flatMap fun n =>
        let hidden := n.head? = some '.' && plain.head? ≠ some '.'
        if !hidden && Glob.matches (globOf p) n then next n else []
    else if plain = [] || (f.get? (place ++ [Bytes.toText plain])).isSome then next plain
    else []

/-- A field as the names of files that it matches, or as it stands if there are none. -/
def globbed (s : State) (field : List (Char × Bool)) : List Bytes :=
  let plain := field.map (·.1)
  if s.self.options.noGlob || !isOpen (globOf field) then [plain]
  else
    let found := match globParts [] field with
      | [] :: ps => expandParts s.all.files [] ['/'] ps
      | ps => expandParts s.all.files s.self.cwd [] ps
    if found.isEmpty then [plain] else found

end CellReplay.Shell
