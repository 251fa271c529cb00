import CellReplay.Text.Blank
import CellReplay.Text.Integer
import CellReplay.Text.Join

/-!
# Session

Sessions keep the code that is replayed before the next cell of the same language.

* `SessionId`  — a number that 64 bits hold, and its reading from a text field.
* `SessionKey` — a session's identity: its number counts within one context only.
* `Session`    — a key with the fragments accepted so far, oldest first.
-/

namespace CellReplay

open Text

structure SessionId where
  val : Int
  lower : -(maxInt64 + 1 : Int) ≤ val
  upper : val ≤ maxInt64
  deriving DecidableEq, Repr

namespace SessionId

def ofInt? (n : Int) : Option SessionId :=
  if h : -(maxInt64 + 1 : Int) ≤ n ∧ n ≤ maxInt64 then some ⟨n, h.1, h.2⟩ else none

theorem eq_of_val {i j : SessionId} (h : i.val = j.val) : i = j := by
  cases i
  cases j
  cases h
  rfl

theorem ofInt?_val (i : SessionId) : ofInt? i.val = some i := dif_pos ⟨i.lower, i.upper⟩

def read (cs : List Char) : Except IntegerError SessionId :=
  match h : readInt maxInt64 cs with
  | .ok n => .ok ⟨n, (readInt_bounds h).1, (readInt_bounds h).2⟩
  | .error e => .error e

/-- The session that a caller names. A field that is missing, blank or no number names none. -/
def ofField (field : Option String) : Option SessionId :=
  field.bind fun s => (read (trim s.toList)).toOption

def text (i : SessionId) : String := decimalInt i.val

end SessionId

structure SessionKey where
  context : String
  id : SessionId
  deriving DecidableEq, Repr

def SessionKey.text (k : SessionKey) : String := k.context ++ "#" ++ k.id.text

structure Session where
  context : String
  id : SessionId
  history : List String
  deriving DecidableEq, Repr

namespace Session

def key (s : Session) : SessionKey := ⟨s.context, s.id⟩

def isEmpty (s : Session) : Bool := s.history.isEmpty

/-- The session with one more fragment, which becomes the newest. -/
def append (s : Session) (fragment : String) : Session :=
  { s with history := s.history ++ [fragment] }

theorem key_append (s : Session) (fragment : String) : (s.append fragment).key = s.key := rfl

end Session

def SessionKey.newSession (k : SessionKey) : Session := ⟨k.context, k.id, []⟩

end CellReplay
