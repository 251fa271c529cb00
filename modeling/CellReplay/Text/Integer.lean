import CellReplay.Text.Blank

/-!
# Text.Integer

Decimal integers within bounds, read as a whole text: an optional sign, then ASCII digits only.
Reading goes from the left and stops at the first fault, so a number that grows out of its bounds
is reported before a bad character further right.
-/

namespace CellReplay.Text

inductive IntegerError
  | empty
  | invalidDigit
  | tooLarge
  | tooSmall
  deriving DecidableEq, Repr

def IntegerError.message : IntegerError → String
  | .empty => "cannot parse integer from empty string"
  | .invalidDigit => "invalid digit found in string"
  | .tooLarge => "number too large to fit in target type"
  | .tooSmall => "number too small to fit in target type"

def digitValue? (c : Char) : Option Nat :=
  if '0' ≤ c ∧ c ≤ '9' then some (c.toNat - '0'.toNat) else none

/-- Digits after `acc`, failing with `excess` as soon as the value passes `bound`. -/
def readDigits (bound : Nat) (excess : IntegerError) : Nat → List Char → Except IntegerError Nat
  | acc, [] => .ok acc
  | acc, c :: cs =>
    match digitValue? c with
    | none => .error .invalidDigit
    | some d =>
      if acc * 10 + d ≤ bound then readDigits bound excess (acc * 10 + d) cs else .error excess

/-- A non-negative integer up to `bound`; only `+` is a sign. -/
def readNat (bound : Nat) : List Char → Except IntegerError Nat
  | [] => .error .empty
  | ['+'] => .error .invalidDigit
  | '+' :: cs => readDigits bound .tooLarge 0 cs
  | cs => readDigits bound .tooLarge 0 cs

/-- An integer from `-(bound + 1)` to `bound`. -/
def readInt (bound : Nat) : List Char → Except IntegerError Int
  | [] => .error .empty
  | ['+'] | ['-'] => .error .invalidDigit
  | '-' :: cs => (readDigits (bound + 1) .tooSmall 0 cs).map fun n : Nat => -(n : Int)
  | '+' :: cs => (readDigits bound .tooLarge 0 cs).map fun n : Nat => (n : Int)
  | cs => (readDigits bound .tooLarge 0 cs).map fun n : Nat => (n : Int)

/-- The greatest unsigned integers of 16 and 64 bits, and the greatest signed one of 64. -/
def maxUInt16 : Nat := 65535
def maxUInt64 : Nat := 18446744073709551615
def maxInt64 : Nat := 9223372036854775807

/-- What reading the digits keeps within bounds. -/
theorem readDigits_le {bound : Nat} {excess : IntegerError} {acc n : Nat} {cs : List Char}
    (hacc : acc ≤ bound) (h : readDigits bound excess acc cs = .ok n) : n ≤ bound := by
  induction cs generalizing acc with
  | nil => simp only [readDigits, Except.ok.injEq] at h; omega
  | cons c cs ih =>
    simp only [readDigits] at h
    split at h
    · cases h
    · split at h
      · next hle => exact ih hle h
      · cases h

theorem readInt_bounds {bound : Nat} {n : Int} {cs : List Char} (h : readInt bound cs = .ok n) :
    -((bound : Int) + 1) ≤ n ∧ n ≤ bound := by
  have map_ok {b : Nat} {o : IntegerError} {f : Nat → Int} {cs : List Char} {n : Int}
      (h : (readDigits b o 0 cs).map f = .ok n) : ∃ m, m ≤ b ∧ f m = n := by
    cases hr : readDigits b o 0 cs with
    | error e => rw [hr] at h; cases h
    | ok m =>
      rw [hr] at h
      cases h
      exact ⟨m, readDigits_le (Nat.zero_le _) hr, rfl⟩
  unfold readInt at h
  split at h
  · cases h
  · cases h
  · cases h
  · obtain ⟨m, hm, rfl⟩ := map_ok h; omega
  · obtain ⟨m, hm, rfl⟩ := map_ok h; omega
  · obtain ⟨m, hm, rfl⟩ := map_ok h; omega

end CellReplay.Text
