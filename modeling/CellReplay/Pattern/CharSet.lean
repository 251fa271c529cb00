import CellReplay.Text.Blank
import CellReplay.Text.Case
import CellReplay.Text.Script

/-!
# Pattern.CharSet

Sets of characters as a pattern writes them: ranges, properties, and combinations of sets. A set
means its `contains`; nothing is ever enumerated.
-/

namespace CellReplay.Pattern

open Text

/-- Characters of words: letters, marks, decimal digits, connectors and what joins or resembles
them. -/
def isWordChar (c : Char) : Bool :=
  let n := c.toNat
  let k := categoryOf n
  k.isLetter || k.isMark || k ∈ [Category.nl, Category.nd, Category.pc] ||
    n == 0x200C || n == 0x200D || (0x24B6 ≤ n && n ≤ 0x24E9) || (0x1F130 ≤ n && n ≤ 0x1F149) ||
    (0x1F150 ≤ n && n ≤ 0x1F169) || (0x1F170 ≤ n && n ≤ 0x1F189)

def isAsciiWordChar (c : Char) : Bool := c.isAlphanum || c == '_'

/-- A property of characters that a pattern can name. -/
inductive Property
  | blank
  | digit
  | word
  | category (cs : List Category)
  | script (code : String)
  | alphabetic
  | cased
  | lowercase
  | uppercase
  | any
  | ascii
  | assigned
  deriving DecidableEq, Repr

def Property.holds (c : Char) : Property → Bool
  | .blank => isBlank c
  | .digit => categoryOf c.toNat = .nd
  | .word => isWordChar c
  | .category cs => categoryOf c.toNat ∈ cs
  | .script code => scriptOf c.toNat = code
  | .alphabetic => (categoryOf c.toNat).isLetter || categoryOf c.toNat = .nl || isOtherAlphabetic c
  | .cased => isCased c
  | .lowercase => isCased c && categoryOf c.toNat ∉ [Category.lu, Category.lt] && !isOtherUppercase c
  | .uppercase => categoryOf c.toNat = .lu || isOtherUppercase c
  | .any => true
  | .ascii => c.toNat < 0x80
  | .assigned => categoryOf c.toNat ≠ .cn

/-- The characters that differ from `c` in case only, `c` among them. -/
def caseVariants (c : Char) : List Char :=
  match foldGroups.find? (c.toNat ∈ ·) with
  | some g => g.map Char.ofNat
  | none =>
    match foldPairs.findSome? (·.shift? c.toNat) with
    | some d => [c, Char.ofNat ((c.toNat : Int) + d).toNat]
    | none =>
      match foldPairs.find? fun r => (r.shift? ((c.toNat : Int) - r.shift).toNat).isSome with
      | some r => [Char.ofNat ((c.toNat : Int) - r.shift).toNat, c]
      | none => [c]

/-- The ASCII letter of the other case, and `c` itself. -/
def asciiCaseVariants (c : Char) : List Char :=
  if c.isUpper then [c, c.toLower] else if c.isLower then [c.toUpper, c] else [c]

inductive CharSet
  | empty
  | range (first last : Char)
  | property (p : Property)
  | union (s t : CharSet)
  | inter (s t : CharSet)
  | diff (s t : CharSet)
  | symmDiff (s t : CharSet)
  | compl (s : CharSet)
  | folded (s : CharSet)
  | asciiFolded (s : CharSet)
  deriving DecidableEq, Repr

namespace CharSet

def contains : CharSet → Char → Bool
  | empty, _ => false
  | range a b, c => a ≤ c && c ≤ b
  | property p, c => p.holds c
  | union s t, c => s.contains c || t.contains c
  | inter s t, c => s.contains c && t.contains c
  | diff s t, c => s.contains c && !t.contains c
  | symmDiff s t, c => s.contains c != t.contains c
  | compl s, c => !s.contains c
  | folded s, c => (caseVariants c).any s.contains
  | asciiFolded s, c => (asciiCaseVariants c).any s.contains

def single (c : Char) : CharSet := range c c

def ofRanges (rs : List (Char × Char)) : CharSet :=
  rs.foldr (fun r s => union (range r.1 r.2) s) empty

theorem contains_single {c d : Char} : (single c).contains d = true ↔ d = c := by
  simp only [single, contains, Bool.and_eq_true, decide_eq_true_eq]
  exact ⟨fun ⟨h₁, h₂⟩ => Char.le_antisymm h₂ h₁, fun h => h ▸ ⟨Char.le_refl _, Char.le_refl _⟩⟩

end CharSet

end CellReplay.Pattern
