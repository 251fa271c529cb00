import CellReplay.Text.Join

/-!
# Text.Utf8

Bytes read as UTF-8 text, with U+FFFD in place of what is no UTF-8.

* `encode`      — the bytes of a text.
* `decode`      — the text of bytes that are UTF-8.
* `decodeLossy` — the text of any bytes: each longest run that begins a character and cannot be
  completed, or else each single bad byte, becomes one U+FFFD.

The decoder is a machine over bytes: `Pending` says what the character begun so far still needs.
-/

namespace CellReplay.Text.Utf8

def encode (cs : List Char) : List UInt8 := cs.flatMap String.utf8EncodeChar

/-- The bytes still owed after the first ones of a character, the range of the next of them, and
the bits read so far. -/
structure Pending where
  owed : Nat
  low : Nat
  high : Nat
  bits : Nat
  deriving DecidableEq, Repr

/-- What the first byte of a character opens, if it can be one; 0 bytes owed is a whole
character. -/
def Pending.ofFirst (b : Nat) : Option Pending :=
  if b ≤ 0x7F then some ⟨0, 0, 0, b⟩
  else if 0xC2 ≤ b ∧ b ≤ 0xDF then some ⟨1, 0x80, 0xBF, b - 0xC0⟩
  else if b = 0xE0 then some ⟨2, 0xA0, 0xBF, 0⟩
  else if b = 0xED then some ⟨2, 0x80, 0x9F, 0xD⟩
  else if 0xE1 ≤ b ∧ b ≤ 0xEF then some ⟨2, 0x80, 0xBF, b - 0xE0⟩
  else if b = 0xF0 then some ⟨3, 0x90, 0xBF, 0⟩
  else if 0xF1 ≤ b ∧ b ≤ 0xF3 then some ⟨3, 0x80, 0xBF, b - 0xF0⟩
  else if b = 0xF4 then some ⟨3, 0x80, 0x8F, 4⟩
  else none

/-- The machine after one more byte, if the byte continues the character. -/
def Pending.next (p : Pending) (b : Nat) : Option Pending :=
  if p.low ≤ b ∧ b ≤ p.high then some ⟨p.owed - 1, 0x80, 0xBF, p.bits * 64 + (b - 0x80)⟩ else none

def replacement : Char := '\uFFFD'

/-- A byte where a character may begin: the text it completes and what is then pending. -/
def firstByte (b : Nat) : List Char × Option Pending :=
  match Pending.ofFirst b with
  | none => ([replacement], none)
  | some q => if q.owed = 0 then ([Char.ofNat q.bits], none) else ([], some q)

/-- One byte: the text it completes and what is then pending. -/
def step : Option Pending → Nat → List Char × Option Pending
  | none, b => firstByte b
  | some p, b =>
    match p.next b with
    | none => (replacement :: (firstByte b).1, (firstByte b).2)
    | some q => if q.owed = 0 then ([Char.ofNat q.bits], none) else ([], some q)

/-- The text of the bytes that follow what is pending. -/
def decodeFrom : Option Pending → List UInt8 → List Char
  | none, [] => []
  | some _, [] => [replacement]
  | p, b :: bs => (step p b.toNat).1 ++ decodeFrom (step p b.toNat).2 bs

def decodeLossy (bs : List UInt8) : List Char := decodeFrom none bs

/-- Where bytes stop being text: the index of the first character that is none, and the number of
bytes that show it, unless the bytes only end too early. -/
def firstFault (start index : Nat) : Option Pending → List UInt8 → Option (Nat × Option Nat)
  | none, [] => none
  | some _, [] => some (start, none)
  | none, b :: bs =>
    match Pending.ofFirst b.toNat with
    | none => some (index, some 1)
    | some q => firstFault index (index + 1) (if q.owed = 0 then none else some q) bs
  | some p, b :: bs =>
    match p.next b.toNat with
    | none => some (start, some (index - start))
    | some q => firstFault start (index + 1) (if q.owed = 0 then none else some q) bs

/-- The text of bytes that are text throughout, or what is wrong with them. -/
def decode (bs : List UInt8) : Except String (List Char) :=
  match firstFault 0 0 none bs with
  | none => .ok (decodeLossy bs)
  | some (i, some n) =>
    .error ("invalid utf-8 sequence of " ++ decimal n ++ " bytes from index " ++ decimal i)
  | some (i, none) => .error ("incomplete utf-8 byte sequence from index " ++ decimal i)

example : decodeLossy [0x61, 0xC3, 0xED, 0xA0, 0x80, 0xF0, 0x9F, 0x98] =
    ['a', replacement, replacement, replacement, replacement, replacement] := by decide +kernel

end CellReplay.Text.Utf8
