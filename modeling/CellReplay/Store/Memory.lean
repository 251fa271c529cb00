import CellReplay.Context
import CellReplay.Session
import CellReplay.Table

/-!
# Store.Memory

A store that lasts as long as the program: a map of contexts and a map of sessions.
-/

namespace CellReplay

structure MemoryStore where
  contexts : Table String Context
  sessions : Table SessionKey Session
  deriving DecidableEq, Repr

namespace MemoryStore

def empty : MemoryStore := ⟨.empty, .empty⟩

def findContext (m : MemoryStore) (name : String) : Option Context := m.contexts.get? name

def saveContext (m : MemoryStore) (c : Context) : MemoryStore :=
  { m with contexts := m.contexts.put c.name c }

/-- The sessions of a context, in the order of their numbers. -/
def findSessions (m : MemoryStore) (context : String) : List Session :=
  Text.sortBy (fun s t => s.id.val ≤ t.id.val)
    ((m.sessions.entries.map Prod.snd).filter (·.context = context))

def findSession (m : MemoryStore) (k : SessionKey) : Option Session :=
  (m.findSessions k.context).find? (·.id = k.id)

def saveSession (m : MemoryStore) (s : Session) : MemoryStore :=
  { m with sessions := m.sessions.put s.key s }

/-- The session stored under a key, and how many sessions there are. -/
def peek (m : MemoryStore) (k : SessionKey) : Option Session := m.sessions.get? k

def sessionCount (m : MemoryStore) : Nat := m.sessions.size

end MemoryStore

end CellReplay
