import CellReplay.Text.CaseTable
import CellReplay.Text.Category

/-!
# Text.Case

Case of characters and texts, after Unicode's full case mappings.

* `upper`, `lower` — the characters that one character becomes.
* `lowercase`      — the lower case of a text, with the form of sigma that ends a word.
-/

namespace CellReplay.Text

/-- The distance by which some run moves `n`. -/
def CaseRun.shift? (r : CaseRun) (n : Nat) : Option Int :=
  if r.first ≤ n ∧ n < r.first + r.count * r.stride ∧ (n - r.first) % r.stride = 0 then some r.shift
  else none

def mapCase (sequences : List (Nat × List Nat)) (runs : List CaseRun) (c : Char) : List Char :=
  match sequences.lookup c.toNat with
  | some cs => cs.map Char.ofNat
  | none =>
    match runs.findSome? (·.shift? c.toNat) with
    | some d => [Char.ofNat ((c.toNat : Int) + d).toNat]
    | none => [c]

def upper (c : Char) : List Char := mapCase upperSequences upperRuns c

def lower (c : Char) : List Char := mapCase lowerSequences lowerRuns c

/-- Characters with case: cased letters, and letters, numbers and symbols that look like them. -/
def isCased (c : Char) : Bool :=
  let n := c.toNat
  categoryOf n ∈ [Category.lu, Category.ll, Category.lt] ||
    [(0xAA, 0xAA), (0xBA, 0xBA), (0x2B0, 0x2B8), (0x2C0, 0x2C1), (0x2E0, 0x2E4), (0x345, 0x345),
      (0x37A, 0x37A), (0x10FC, 0x10FC), (0x1D2C, 0x1D6A), (0x1D78, 0x1D78), (0x1D9B, 0x1DBF),
      (0x2071, 0x2071), (0x207F, 0x207F), (0x2090, 0x209C), (0x2160, 0x217F), (0x24B6, 0x24E9),
      (0x2C7C, 0x2C7D), (0xA69C, 0xA69D), (0xA770, 0xA770), (0xA7F2, 0xA7F4), (0xA7F8, 0xA7F9),
      (0xAB5C, 0xAB5F), (0xAB69, 0xAB69), (0x10780, 0x10780), (0x10783, 0x10785),
      (0x10787, 0x107B0), (0x107B2, 0x107BA), (0x1E030, 0x1E06D), (0x1F130, 0x1F149),
      (0x1F150, 0x1F169), (0x1F170, 0x1F189)].any fun r => r.1 ≤ n && n ≤ r.2

/-- Characters that stand inside a word without being part of its case: marks, modifiers and the
punctuation of abbreviations. -/
def isCaseIgnorable (c : Char) : Bool :=
  let n := c.toNat
  categoryOf n ∈ [Category.mn, Category.me, Category.cf, Category.lm, Category.sk] ||
    n ∈ [0x27, 0x2E, 0x3A, 0xB7, 0x387, 0x55F, 0x5F4, 0x2018, 0x2019, 0x2024, 0x2027, 0xFE13,
      0xFE52, 0xFE55, 0xFF07, 0xFF0E, 0xFF1A]

/-- A sigma ends a word if a cased character stands before it and none after it, characters that
have no part in case aside. -/
def endsWord (before after : List Char) : Bool :=
  let cased := fun cs : List Char => ((cs.dropWhile isCaseIgnorable).head?).elim false isCased
  cased before && !cased after

/-- The lower case of the text after `before`, which is held last character first. -/
def lowercaseFrom (before : List Char) : List Char → List Char
  | [] => []
  | c :: cs =>
    (if c = 'Σ' then [if endsWord before cs then 'ς' else 'σ'] else lower c) ++
      lowercaseFrom (c :: before) cs

def lowercase (s : String) : String := String.ofList (lowercaseFrom [] s.toList)

end CellReplay.Text
