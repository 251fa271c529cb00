import CellReplay.Text.Category

/-!
# Text.Quoted

A text as messages quote it: between double quotes, with what would not show written as an escape.
-/

namespace CellReplay.Text

/-- Characters that show by themselves. Marks that change the character before them do not. -/
def isShown (c : Char) : Bool :=
  c = ' ' || categoryOf c.toNat ∉
    [Category.cc, .cf, .cs, .co, .cn, .zl, .zp, .zs, .mn, .me]

def quotedChar (c : Char) : List Char :=
  match c with
  | '\x00' => ['\\', '0']
  | '\t' => ['\\', 't']
  | '\r' => ['\\', 'r']
  | '\n' => ['\\', 'n']
  | '"' => ['\\', '"']
  | '\\' => ['\\', '\\']
  | c =>
    if isShown c then [c] else "\\u\x7b".toList ++ Nat.toDigits 16 c.toNat ++ ['\x7d']

def quoted (s : String) : String :=
  "\"" ++ String.ofList (s.toList.flatMap quotedChar) ++ "\""

end CellReplay.Text
