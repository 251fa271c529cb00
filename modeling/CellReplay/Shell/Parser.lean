import CellReplay.Shell.Syntax

/-!
# Shell.Parser

Reading commands.

* `readLine`     — the commands of one line and those that they go on with, and the rest.
* `SyntaxError`  — what is wrong with a text, and where.

The readers take fuel; a reader that has used it up reports the end of the text.
-/

namespace CellReplay.Shell

inductive SyntaxFault
  | unexpected (token : String) (wanted : Option String)
  | openQuote
  | openBackquote
  | openBrace
  | openArithmetic
  | loopVariable
  | functionName
  | descriptor
  deriving DecidableEq, Repr

def SyntaxFault.message : SyntaxFault → String
  | unexpected token none => token ++ " unexpected"
  | unexpected token (some wanted) => token ++ " unexpected (expecting " ++ wanted ++ ")"
  | openQuote => "Unterminated quoted string"
  | openBackquote => "EOF in backquote substitution"
  | openBrace => "Missing '\x7d'"
  | openArithmetic => "Missing '))'"
  | loopVariable => "Bad for loop variable"
  | functionName => "Bad function name"
  | descriptor => "Bad fd number"

/-- A fault, and how many line breaks stand behind it. -/
structure SyntaxError where
  fault : SyntaxFault
  breaksLeft : Nat
  deriving Repr

def breaks (cs : Bytes) : Nat := cs.count '\n'

abbrev Reader (α : Type) := Bytes → Except SyntaxError (α × Bytes)

def fail {α : Type} (f : SyntaxFault) (rest : Bytes) : Except SyntaxError α :=
  .error ⟨f, breaks rest⟩

/-! ## Between words -/

/-- The rest behind blanks, joined lines and a comment. -/
def skipGap (inComment : Bool) : Bytes → Bytes
  | [] => []
  | '\\' :: '\n' :: cs => if inComment then '\n' :: cs else skipGap false cs
  | c :: cs =>
    if inComment then (if c = '\n' then c :: cs else skipGap true cs)
    else if isGap c then skipGap false cs
    else if c = '#' then skipGap true cs
    else c :: cs

/-- The rest behind blanks, comments and line breaks. -/
def skipLines (inComment : Bool) : Bytes → Bytes
  | [] => []
  | '\\' :: '\n' :: cs => skipLines false cs
  | c :: cs =>
    if c = '\n' then skipLines false cs
    else if inComment then skipLines true cs
    else if isGap c then skipLines false cs
    else if c = '#' then skipLines true cs
    else c :: cs

def endsWord (c : Char) : Bool := isGap c || c = '\n' || isOperatorChar c

def isSpecial (c : Char) : Bool := c ∈ ['\\', '\'', '"', '$', '\x60']

/-- The word at the front, if it is made of plain characters only. -/
def plainWord (cs : Bytes) : Option Bytes :=
  match cs.span fun c => !endsWord c && !isSpecial c with
  | ([], _) => none
  | (w, []) => some w
  | (w, c :: _) => if endsWord c then some w else none

/-- The rest behind a reserved word, if it stands at the front. -/
def afterReserved (w : String) (cs : Bytes) : Option Bytes :=
  if plainWord cs = some w.toList then some (cs.drop w.toList.length) else none

/-- The rest behind an operator, if it stands at the front and no longer one does. -/
def afterOperator (op : String) (cs : Bytes) : Option Bytes :=
  match operators.find? (·.isPrefixOf cs) with
  | some o => if o = op.toList then some (cs.drop o.length) else none
  | none => none

/-- Whether a redirection stands at the front. -/
def isRedirect (cs : Bytes) : Bool :=
  match cs with
  | '<' :: _ | '>' :: _ => true
  | d :: '<' :: _ | d :: '>' :: _ => isDigit d
  | _ => false

/-- What stands at the front, as messages call it. Reserved words count as such only where one may
stand. -/
def describe (reserves : Bool) (cs : Bytes) : String :=
  match cs with
  | [] => "end of file"
  | '\n' :: _ => "newline"
  | cs =>
    match operators.find? (·.isPrefixOf cs) with
    | some o => "\"" ++ String.ofList o ++ "\""
    | none =>
      if isRedirect cs then "redirection"
      else
        match plainWord cs with
        | some w => if reserves && reservedWords.contains w then "\"" ++ String.ofList w ++ "\"" else "word"
        | none => "word"

def unexpected {α : Type} (wanted : Option String) (cs : Bytes) : Except SyntaxError α :=
  fail (.unexpected (describe true cs) wanted) cs

/-- A parenthesis is missing behind a word. -/
def unclosed {α : Type} (cs : Bytes) : Except SyntaxError α :=
  fail (.unexpected (describe false cs) (some "\")\"")) cs

/-! ## Words -/

/-- Where characters stand; this decides which of them end the text and which quote. -/
inductive Place
  | word
  | double
  | brace (quoted : Bool)
  | here
  | arithmetic (depth : Nat)
  deriving DecidableEq, Repr

def Place.isQuoted : Place → Bool
  | word => false
  | double => true
  | brace q => q
  | here => true
  | arithmetic _ => true

/-- Whether the text of a place ends before the character. -/
def Place.endsAt : Place → Bytes → Bool
  | _, [] => true
  | word, c :: _ => endsWord c
  | double, c :: _ => c = '"'
  | brace _, c :: _ => c = '\x7d'
  | here, _ => false
  | arithmetic d, c :: _ => d = 0 && c = ')'

/-- The characters up to a quote, each of them quoted. -/
def single : Bytes → Option (List Part × Bytes)
  | [] => none
  | '\'' :: cs => some ([], cs)
  | c :: cs => (single cs).map fun (ps, rest) => (.char c true :: ps, rest)

/-- A pair of quotes with nothing between them still makes a word. -/
def orEmpty (ps : List Part) : List Part := if ps.isEmpty then [.empty] else ps

/-- The text up to a backquote, with the backslashes taken off that protect signs in it. -/
def backquoted (inDouble : Bool) : Bytes → Option (Bytes × Bytes)
  | [] => none
  | '\x60' :: cs => some ([], cs)
  | '\\' :: c :: cs =>
    (backquoted inDouble cs).map fun (t, rest) =>
      (if c ∈ ['\\', '\x60', '$'] || (inDouble && c = '"') then c :: t else '\\' :: c :: t, rest)
  | c :: cs => (backquoted inDouble cs).map fun (t, rest) => (c :: t, rest)

def specialNames : List Char := ['@', '*', '#', '?', '-', '$', '!']

/-- The name of a parameter at the front. -/
def parameterName (cs : Bytes) : Option (Bytes × Bytes) :=
  match cs with
  | [] => none
  | c :: rest =>
    if isNameStart c then some (cs.takeWhile isNameChar, cs.dropWhile isNameChar)
    else if isDigit c then some (cs.takeWhile isDigit, cs.dropWhile isDigit)
    else if c ∈ specialNames then some ([c], rest)
    else none

/-- What is done with a parameter between braces, behind its name. -/
def modifierOf (cs : Bytes) : Modifier × Bytes :=
  match cs with
  | '\x7d' :: _ => (.plain, cs)
  | ':' :: '-' :: cs => (.default true, cs)
  | ':' :: '=' :: cs => (.assign true, cs)
  | ':' :: '?' :: cs => (.demand true, cs)
  | ':' :: '+' :: cs => (.instead true, cs)
  | '-' :: cs => (.default false, cs)
  | '=' :: cs => (.assign false, cs)
  | '?' :: cs => (.demand false, cs)
  | '+' :: cs => (.instead false, cs)
  | '%' :: '%' :: cs => (.dropEnd true, cs)
  | '%' :: cs => (.dropEnd false, cs)
  | '#' :: '#' :: cs => (.dropStart true, cs)
  | '#' :: cs => (.dropStart false, cs)
  | cs => (.bad, cs)

/-- Plain characters in front of an equals sign that name a variable. -/
def assignmentOf (w : Word) : Option (Bytes × Word) :=
  go [] w
where
  go (name : Bytes) : Word → Option (Bytes × Word)
    | .char '=' false :: ps => if isName name.reverse then some (name.reverse, ps) else none
    | .char c false :: ps => if isNameChar c then go (c :: name) ps else none
    | _ => none

/-- The characters of a word, and whether any of them is quoted. -/
def wordText : Word → Bytes × Bool
  | [] => ([], false)
  | .char c q :: ps => (c :: (wordText ps).1, q || (wordText ps).2)
  | .empty :: ps => ((wordText ps).1, true)
  | _ :: ps => wordText ps

/-- The lines up to one that holds a mark only, and the rest behind that. -/
def untilMark (stripTabs : Bool) (mark : Bytes) : Nat → Bytes → Bytes × Bytes
  | 0, cs => ([], cs)
  | _, [] => ([], [])
  | fuel + 1, cs =>
    let line := cs.takeWhile (· ≠ '\n')
    let after := (cs.dropWhile (· ≠ '\n')).drop 1
    let line := if stripTabs then line.dropWhile (· = '\t') else line
    if line = mark then ([], after)
    else
      let (body, rest) := untilMark stripTabs mark fuel after
      (line ++ ['\n'] ++ body, rest)

/-- Commands that end the shell if they fail, and that no function may be named after. -/
def specialBuiltins : List Bytes :=
  [".", ":", "break", "continue", "eval", "exec", "exit", "export", "local", "readonly", "return",
    "set", "shift", "times", "trap", "unset"].map (·.toList)

/-! ## Commands -/

/-- How a list of commands ends: with the line, or with a word or sign that its surroundings ask
for. A list may have to hold a command. -/
inductive ListKind
  | line
  | inner
  | innerOrEmpty
  deriving DecidableEq, Repr

def endsList (cs : Bytes) : Bool :=
  match cs with
  | [] => true
  | cs =>
    (afterOperator ")" cs).isSome || (afterOperator ";;" cs).isSome ||
      ["do", "done", "elif", "else", "esac", "fi", "then", "\x7d"].any
        fun w => (afterReserved w cs).isSome

mutual

/-- The parts of a text up to where its place ends. -/
def parts : Nat → Place → Reader (List Part)
  | 0, _, cs => fail .openQuote cs
  | fuel + 1, p, cs =>
    let more := fun (ps : List Part) (p : Place) (rest : Bytes) => do
      let (qs, rest) ← parts fuel p rest
      return (ps ++ qs, rest)
    let quoted := p.isQuoted
    if p.endsAt cs then .ok ([], cs)
    else
      match cs with
      | [] => .ok ([], [])
      | '\\' :: '\n' :: cs => more [] p cs
      | '\\' :: c :: cs =>
        if !quoted || c ∈ ['$', '\x60', '\\'] || (c = '"' && p ≠ .here) ||
            (c = '\x7d' && p = .brace true) then
          more [.char c true] p cs
        else more [.char '\\' true, .char c true] p cs
      | ['\\'] => more [.char '\\' true] p []
      | '\'' :: cs =>
        if quoted then more [.char '\'' true] p cs
        else
          match single cs with
          | some (ps, rest) => more (orEmpty ps) p rest
          | none => fail .openQuote []
      | '"' :: cs =>
        match p with
        | .here => more [.char '"' true] p cs
        | .arithmetic _ => more [] p cs
        | _ => do
          match ← parts fuel .double cs with
          | (ps, '"' :: rest) => more (orEmpty ps) p rest
          | _ => fail .openQuote []
      | '$' :: cs => do
        let (ps, rest) ← dollar fuel quoted cs
        more ps p rest
      | '\x60' :: cs =>
        match backquoted (p = .double) cs with
        | some (t, rest) => do
          let c ← whole fuel t
          more [.command c quoted] p rest
        | none => fail .openBackquote []
      | c :: cs =>
        let p := match p, c with
          | .arithmetic d, '(' => .arithmetic (d + 1)
          | .arithmetic d, ')' => .arithmetic (d - 1)
          | p, _ => p
        more [.char c quoted] p cs

def dollar : Nat → Bool → Reader (List Part)
  | 0, _, cs => fail .openQuote cs
  | fuel + 1, quoted, cs =>
    match cs with
    | '(' :: '(' :: cs => do
      match ← parts fuel (.arithmetic 0) cs with
      | (ps, ')' :: ')' :: rest) => return ([.arithmetic ps quoted], rest)
      | (_, rest) => fail .openArithmetic rest
    | '(' :: cs => do
      let (c, rest) ← list fuel .innerOrEmpty cs
      match skipGap false rest with
      | ')' :: rest => return ([.command c quoted], rest)
      | rest => unexpected (some "\")\"") rest
    | '\x7b' :: cs => braced fuel quoted cs
    | c :: rest =>
      if isNameStart c then
        return ([.parameter (cs.takeWhile isNameChar) .plain [] quoted], cs.dropWhile isNameChar)
      else if isDigit c || c ∈ specialNames then return ([.parameter [c] .plain [] quoted], rest)
      else return ([.char '$' quoted], cs)
    | [] => return ([.char '$' quoted], [])

def braced : Nat → Bool → Reader (List Part)
  | 0, _, cs => fail .openBrace cs
  | fuel + 1, quoted, cs =>
    let plain := fun (cs : Bytes) => do
      match parameterName cs with
      | some (n, rest) =>
        let (m, rest) := modifierOf rest
        let place := match m with
          | .dropEnd _ => Place.brace false
          | .dropStart _ => .brace false
          | _ => .brace quoted
        match ← parts fuel place rest with
        | (ps, '\x7d' :: rest) => return ([.parameter n m ps quoted], rest)
        | (_, rest) => fail .openBrace rest
      | none =>
        match ← parts fuel (.brace quoted) cs with
        | (_, '\x7d' :: rest) => return ([.parameter [] .bad [] quoted], rest)
        | (_, rest) => fail .openBrace rest
    match cs with
    | '#' :: rest =>
      match parameterName rest with
      | some (n, '\x7d' :: rest) => return ([.parameter n .length [] quoted], rest)
      | _ => plain cs
    | cs => plain cs

/-- A text that is a program as a whole. -/
def whole : Nat → Bytes → Except SyntaxError Command
  | 0, cs => fail .openBackquote cs
  | fuel + 1, cs => do
    match ← list fuel .innerOrEmpty cs with
    | (c, rest) => if skipLines false rest = [] then return c else unexpected none rest

def word : Nat → Reader Word
  | 0, cs => unexpected none cs
  | fuel + 1, cs => do
    match ← parts fuel .word cs with
    | ([], rest) => unexpected none rest
    | r => return r

/-- A redirection that stands at the front. -/
def redirect : Nat → Reader Redirect
  | 0, cs => unexpected none cs
  | fuel + 1, cs => do
    let (given, cs) := match cs with
      | d :: rest => if isDigit d then (some (d.toNat - 48), rest) else (none, cs)
      | [] => (none, cs)
    let onto := fun (usual : Nat) (kind : RedirectKind) (rest : Bytes) => do
      let (w, rest) ← word fuel (skipGap false rest)
      return (Redirect.mk (given.getD usual) kind w, rest)
    let copy := fun (usual : Nat) (rest : Bytes) => do
      let (w, rest') ← word fuel (skipGap false rest)
      match wordText w with
      | (t, false) =>
        if t = ['-'] || (natOf? t).isSome || w.any (fun p => match p with | .char _ _ => false | _ => true)
        then return (Redirect.mk (given.getD usual) .duplicate w, rest')
        else fail .descriptor rest'
      | _ => fail .descriptor rest'
    let hereDocument := fun (strip : Bool) (rest : Bytes) => do
      let (w, rest) ← word fuel (skipGap false rest)
      let (mark, quoted) := wordText w
      let line := rest.takeWhile (· ≠ '\n')
      let after := (rest.dropWhile (· ≠ '\n')).drop 1
      let (body, after) := untilMark strip mark (after.length + 1) after
      let ps ← if quoted then pure (body.map (Part.char · true))
        else (parts fuel .here body).map (·.1)
      return (Redirect.mk (given.getD 0) .here ps, line ++ '\n' :: after)
    match cs with
    | '<' :: '<' :: '-' :: cs => hereDocument true cs
    | '<' :: '<' :: cs => hereDocument false cs
    | '<' :: '&' :: cs => copy 0 cs
    | '<' :: '>' :: cs => onto 0 .readWrite cs
    | '<' :: cs => onto 0 .read cs
    | '>' :: '>' :: cs => onto 1 .append cs
    | '>' :: '&' :: cs => copy 1 cs
    | '>' :: '|' :: cs => onto 1 .write cs
    | '>' :: cs => onto 1 .write cs
    | cs => unexpected none cs

def redirects : Nat → Reader (List Redirect)
  | 0, cs => .ok ([], cs)
  | fuel + 1, cs => do
    let cs := skipGap false cs
    if isRedirect cs then
      let (r, rest) ← redirect fuel cs
      let (rs, rest) ← redirects fuel rest
      return (r :: rs, rest)
    else return ([], cs)

/-- Assignments, words and redirections up to the end of a simple command. The line of a command is
the one on which its first word ends. -/
def simple : Nat → Option Nat → List (Bytes × Word) → List Word → List Redirect → Reader Command
  | 0, _, _, _, _, cs => unexpected none cs
  | fuel + 1, line, as, ws, rs, cs => do
    let cs := skipGap false cs
    if isRedirect cs then
      let (r, rest) ← redirect fuel cs
      simple fuel (some (line.getD (breaks cs))) as ws (rs ++ [r]) rest
    else
      match cs with
      | [] => return (.simple (line.getD 0) as ws rs, cs)
      | c :: after =>
        if c = '(' ∧ ws.length = 1 ∧ as = [] ∧ rs.isEmpty then
          match skipGap false after with
          | ')' :: rest =>
            let (name, quoted) := wordText (ws.headD [])
            if quoted || !isName name || name ∈ specialBuiltins then fail .functionName rest
            else
              let (body, rest) ← command fuel (skipLines false rest)
              return (.function name body, rest)
          | rest => unclosed rest
        else if endsWord c then return (.simple (line.getD (breaks cs)) as ws rs, cs)
        else
          let (w, rest) ← word fuel cs
          let line := some (line.getD (breaks rest))
          match assignmentOf w with
          | some a =>
            if ws.isEmpty then simple fuel line (as ++ [a]) ws rs rest
            else simple fuel line as (ws ++ [w]) rs rest
          | none => simple fuel line as (ws ++ [w]) rs rest

/-- A command with the redirections behind it, if it is not a simple one. -/
def command : Nat → Reader Command
  | 0, cs => unexpected none cs
  | fuel + 1, cs => do
    let cs := skipGap false cs
    let expectWord := fun (w : String) (cs : Bytes) =>
      match afterReserved w (skipGap false cs) with
      | some rest => Except.ok rest
      | none => unexpected (some ("\"" ++ w ++ "\"")) (skipGap false cs)
    let withRedirects := fun (c : Command) (rest : Bytes) => do
      match ← redirects fuel rest with
      | ([], rest) => return (c, rest)
      | (rs, rest) => return (Command.redirected c rs, rest)
    if let some rest := afterOperator "(" cs then
      let (c, rest) ← list fuel .inner rest
      match afterOperator ")" (skipGap false rest) with
      | some rest => withRedirects (.subshell c) rest
      | none => unexpected (some "\")\"") (skipGap false rest)
    else if let some rest := afterReserved "\x7b" cs then
      let (c, rest) ← list fuel .inner rest
      withRedirects (.redirected c []) (← expectWord "\x7d" rest)
    else if let some rest := afterReserved "if" cs then
      let (c, rest) ← branches fuel rest
      withRedirects c (← expectWord "fi" rest)
    else if let some rest := afterReserved "while" cs then
      let (c, rest) ← list fuel .inner rest
      let (body, rest) ← list fuel .inner (← expectWord "do" rest)
      withRedirects (.loop false c body) (← expectWord "done" rest)
    else if let some rest := afterReserved "until" cs then
      let (c, rest) ← list fuel .inner rest
      let (body, rest) ← list fuel .inner (← expectWord "do" rest)
      withRedirects (.loop true c body) (← expectWord "done" rest)
    else if let some rest := afterReserved "for" cs then
      let rest := skipGap false rest
      let name ← match plainWord rest with
        | some n => if isName n then pure n else fail .loopVariable rest
        | none => fail .loopVariable rest
      let rest := rest.drop name.length
      let (ws, rest) ← match afterReserved "in" (skipLines false rest) with
        | some rest => do
          let (ws, rest) ← wordsOf fuel rest
          match rest with
          | ';' :: rest => pure (some ws, rest)
          | '\n' :: rest => pure (some ws, rest)
          | rest => unexpected none rest
        | none =>
          match skipGap false rest with
          | ';' :: rest => pure (none, rest)
          | rest => pure (none, rest)
      let (body, rest) ← list fuel .inner (← expectWord "do" (skipLines false rest))
      withRedirects (.each name ws body) (← expectWord "done" rest)
    else if let some rest := afterReserved "case" cs then
      let (w, rest) ← word fuel (skipGap false rest)
      let (arms, rest) ← arms fuel (skipLines false (← expectWord "in" (skipLines false rest)))
      withRedirects (.choice w arms) rest
    else if (plainWord cs).any (· ∈ reservedWords) then unexpected none cs
    else
      match cs with
      | [] => unexpected none cs
      | c :: _ =>
        if endsWord c && !isRedirect cs then unexpected none cs
        else simple fuel none [] [] [] cs

def wordsOf : Nat → Reader (List Word)
  | 0, cs => unexpected none cs
  | fuel + 1, cs => do
    let cs := skipGap false cs
    match cs with
    | [] => return ([], cs)
    | c :: _ =>
      if endsWord c then return ([], cs)
      else
        let (w, rest) ← word fuel cs
        let (ws, rest) ← wordsOf fuel rest
        return (w :: ws, rest)

/-- A condition with what follows from it, up to the word that closes all. -/
def branches : Nat → Reader Command
  | 0, cs => unexpected none cs
  | fuel + 1, cs => do
    let (c, rest) ← list fuel .inner cs
    match afterReserved "then" (skipGap false rest) with
    | none => unexpected (some "\"then\"") (skipGap false rest)
    | some rest =>
      let (yes, rest) ← list fuel .inner rest
      let rest := skipGap false rest
      if let some rest := afterReserved "elif" rest then
        let (no, rest) ← branches fuel rest
        return (.branch c yes no, rest)
      else if let some rest := afterReserved "else" rest then
        let (no, rest) ← list fuel .inner rest
        return (.branch c yes no, rest)
      else return (.branch c yes .nothing, rest)

/-- The patterns of an arm, and the rest behind the parenthesis that closes them. Whatever stands in
the place of a pattern is taken for one. -/
def patterns : Nat → Reader (List Word)
  | 0, cs => unexpected none cs
  | fuel + 1, cs => do
    let cs := skipGap false cs
    let sign := match cs with
      | [] => some []
      | '\n' :: _ => some ['\n']
      | cs => operators.find? (·.isPrefixOf cs)
    let (w, rest) ← match sign with
      | some o => pure (o.map (Part.char · true), cs.drop o.length)
      | none => word fuel cs
    match skipGap false rest with
    | '|' :: rest => do
      let (ws, rest) ← patterns fuel rest
      return (w :: ws, rest)
    | ')' :: rest => return ([w], rest)
    | rest => unclosed rest

/-- The arms of a choice, and the rest behind the word that closes it. -/
def arms : Nat → Reader (List (List Word × Command))
  | 0, cs => unexpected none cs
  | fuel + 1, cs => do
    let cs := skipLines false cs
    if let some rest := afterReserved "esac" cs then return ([], rest)
    else
      let cs := (afterOperator "(" cs).getD cs
      let (ws, rest) ← patterns fuel cs
      let (body, rest) ← list fuel .innerOrEmpty rest
      let rest := skipLines false rest
      if let some rest := afterReserved "esac" rest then return ([(ws, body)], rest)
      else
        match afterOperator ";;" rest with
        | some rest => do
          let (more, rest) ← arms fuel rest
          return ((ws, body) :: more, rest)
        | none => unexpected (some "\";;\"") rest

def stages : Nat → Reader (List Command)
  | 0, cs => unexpected none cs
  | fuel + 1, cs => do
    let (c, rest) ← command fuel cs
    match afterOperator "|" (skipGap false rest) with
    | some rest => do
      let (more, rest) ← stages fuel (skipLines false rest)
      return (c :: more, rest)
    | none => return ([c], rest)

def pipeline : Nat → Reader Command
  | 0, cs => unexpected none cs
  | fuel + 1, cs => do
    let cs := skipGap false cs
    if let some rest := afterReserved "!" cs then
      let (c, rest) ← pipeline fuel rest
      return (.negated c, rest)
    else
      match ← stages fuel cs with
      | ([c], rest) => return (c, rest)
      | (more, rest) => return (.pipeline more, rest)

/-- Pipelines that depend on how the ones before them end. -/
def chain : Nat → Command → Reader Command
  | 0, c, cs => .ok (c, cs)
  | fuel + 1, c, cs => do
    let cs := skipGap false cs
    if let some rest := afterOperator "&&" cs then
      let (d, rest) ← pipeline fuel (skipLines false rest)
      chain fuel (.both c d) rest
    else if let some rest := afterOperator "||" cs then
      let (d, rest) ← pipeline fuel (skipLines false rest)
      chain fuel (.either c d) rest
    else return (c, cs)

def list : Nat → ListKind → Reader Command
  | 0, _, cs => unexpected none cs
  | fuel + 1, kind, cs => do
    let cs := if kind = .line then skipGap false cs else skipLines false cs
    match cs with
    | [] => return (.nothing, cs)
    | '\n' :: _ => return (.nothing, cs)
    | cs =>
      if kind = .innerOrEmpty && endsList cs then return (.nothing, cs)
      else
        let (c, rest) ← pipeline fuel cs
        let (c, rest) ← chain fuel c rest
        let next := if kind = .line then ListKind.line else .innerOrEmpty
        let rest := skipGap false rest
        if let some rest := afterOperator "&" rest then
          let (d, rest) ← list fuel next rest
          return (Command.andThen (.background c) d, rest)
        else if let some rest := afterOperator ";" rest then
          let (d, rest) ← list fuel next rest
          return (Command.andThen c d, rest)
        else
          match rest with
          | [] => return (c, rest)
          | '\n' :: _ =>
            if kind = .line then return (c, rest)
            else
              let (d, rest) ← list fuel next rest
              return (Command.andThen c d, rest)
          | rest => if kind = .line then unexpected none rest else return (c, rest)

end

/-- The commands of the next line, and the rest behind it; nothing at the end of the text. -/
def readLine (cs : Bytes) : Except SyntaxError (Option (Command × Bytes)) :=
  match skipGap false cs with
  | [] => .ok none
  | '\n' :: rest => .ok (some (.nothing, rest))
  | cs =>
    match list (20 * cs.length + 100) .line cs with
    | .error e => .error e
    | .ok (c, rest) => .ok (some (c, (skipGap false rest).drop 1))

end CellReplay.Shell
