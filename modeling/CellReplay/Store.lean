import CellReplay.Failure
import CellReplay.Store.Database
import CellReplay.Store.Memory

/-!
# Store

What a program remembers: contexts, and sessions with their histories. A store is kept in memory or
in a database; each operation on it works as a whole or not at all.
-/

namespace CellReplay

inductive Store
  | memory (m : MemoryStore)
  | database (d : Database)
  | closed (d : Database)
  deriving DecidableEq, Repr

namespace Store

def failure (e : DatabaseError) : Failure := .database e.message

def lift {α : Type} (r : Except DatabaseError α) : Except Failure α := r.mapError failure

@[simp]
theorem lift_ok {α : Type} (a : α) : lift (.ok a) = .ok a := rfl

theorem lift_eq_ok {α : Type} {r : Except DatabaseError α} {a : α} (h : lift r = .ok a) :
    r = .ok a := by
  cases r with
  | error e => cases h
  | ok b => cases h; rfl

def findContext (s : Store) (name : String) : Except Failure (Option Context) :=
  match s with
  | memory m => .ok (m.findContext name)
  | database d => lift (d.findContext name)
  | closed _ => .error (failure .closed)

def findSession (s : Store) (k : SessionKey) : Except Failure (Option Session) :=
  match s with
  | memory m => .ok (m.findSession k)
  | database d => lift (d.findSession k)
  | closed _ => .error (failure .closed)

def findSessions (s : Store) (context : String) : Except Failure (List Session) :=
  match s with
  | memory m => .ok (m.findSessions context)
  | database d => lift (d.findSessions context)
  | closed _ => .error (failure .closed)

def saveContext (s : Store) (c : Context) : Except Failure Unit × Store :=
  match s with
  | memory m => (.ok (), memory (m.saveContext c))
  | database d => let (r, d) := d.saveContext c; (lift r, database d)
  | closed d => (.error (failure .closed), closed d)

def saveSession (s : Store) (x : Session) : Except Failure Unit × Store :=
  match s with
  | memory m => (.ok (), memory (m.saveSession x))
  | database d => let (r, d) := d.saveSession x; (lift r, database d)
  | closed d => (.error (failure .closed), closed d)

def migrate (s : Store) : Except Failure Unit × Store :=
  match s with
  | memory m => (.ok (), memory m)
  | database d => let (r, d) := d.upgrade; (lift r, database d)
  | closed d => (.error (failure .closed), closed d)

/-- Saves every context whose name is not there yet, and counts them. -/
def seedContexts (s : Store) : List Context → Except Failure Nat × Store
  | [] => (.ok 0, s)
  | c :: cs =>
    match s.findContext c.name with
    | .error e => (.error e, s)
    | .ok (some _) => s.seedContexts cs
    | .ok none =>
      match s.saveContext c with
      | (.error e, s) => (.error e, s)
      | (.ok (), s) => let (n, s) := s.seedContexts cs; (n.map (· + 1), s)

/-- Makes sure that a session is there, and tells whether it had to be made. -/
def seedSession (s : Store) (k : SessionKey) : Except Failure Bool × Store :=
  match s.findSession k with
  | .error e => (.error e, s)
  | .ok (some _) => (.ok false, s)
  | .ok none => let (r, s) := s.saveSession k.newSession; (r.map fun _ => true, s)

theorem saveSession_error {s t : Store} {x : Session} {e : Failure}
    (h : s.saveSession x = (.error e, t)) : t = s := by
  cases s with
  | memory m => simp [saveSession] at h
  | database d =>
    simp only [saveSession, Database.saveSession, Database.transaction] at h
    split at h
    · simp [lift_ok] at h
    · cases h; rfl
  | closed d => cases h; rfl

end Store

end CellReplay
