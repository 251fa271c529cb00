import CellReplay.Context
import CellReplay.Session
import CellReplay.Table

/-!
# Store.Database

A relational database of four tables, any of which may be missing.

* `Database`       — the rows of each table.
* `DatabaseError`  — why a statement fails.
* statements       — each reads or changes rows and fails without effect.
* `transaction`    — several statements of which either all count or none.
* `saveSession`, `findSession`, `findSessions` — a session in rows: one for itself, and one for each
  fragment with its position.
* `upgrade`        — puts the tables there, once; `migrate` is what comes of it.

A row of `sessions` belongs to a row of `contexts`, and a fragment to a row of `sessions`.
-/

namespace CellReplay

inductive TableName
  | versions
  | contexts
  | sessions
  | history
  deriving DecidableEq, Repr

def TableName.text : TableName → String
  | versions => "schema_version"
  | contexts => "interpreter_contexts"
  | sessions => "sessions"
  | history => "session_history"

def TableName.ofText? (s : String) : Option TableName :=
  [versions, contexts, sessions, history].find? (·.text = s)

/-- Why a statement or a connection fails. -/
inductive DatabaseError
  | noTable (t : TableName)
  | noParentTable (t : TableName)
  | noParentRow
  | positionTaken
  | fragmentTaken
  | versionTaken
  | cannotOpen
  | notDatabase
  | closed
  | configuration (reason : String)
  deriving DecidableEq, Repr

def DatabaseError.message : DatabaseError → String
  | .noTable t => "Database error [1]: no such table: " ++ t.text
  | .noParentTable t => "Database error [1]: no such table: main." ++ t.text
  | .noParentRow => "Foreign key constraint violation: FOREIGN KEY constraint failed (787)"
  | .positionTaken =>
    "Unique constraint violation: UNIQUE constraint failed: session_history.context_name, " ++
      "session_history.session_id, session_history.position (1555)"
  | .fragmentTaken =>
    "Unique constraint violation: UNIQUE constraint failed: session_history.fragment (2067)"
  | .versionTaken =>
    "Unique constraint violation: UNIQUE constraint failed: schema_version.version (1555)"
  | .cannotOpen => "Database error [14]: unable to open database file"
  | .notDatabase => "Database error [26]: file is not a database"
  | .closed => "attempted to acquire a connection on a closed pool"
  | .configuration reason => "error with configuration: " ++ reason

structure FragmentRow where
  key : SessionKey
  position : Nat
  fragment : String
  deriving DecidableEq, Repr

structure Database where
  versions : Option (List Int)
  contexts : Option (List Context)
  sessions : Option (List SessionKey)
  history : Option (List FragmentRow)
  uniqueFragments : Bool
  deriving DecidableEq, Repr

namespace Database

/-- A database without tables. -/
def empty : Database := ⟨none, none, none, none, false⟩

/-- The rows of a table that has to be there. -/
def need {α : Type} (t : TableName) (rows : Option α) : Except DatabaseError α :=
  match rows with
  | some r => .ok r
  | none => .error (.noTable t)

/-! ## Reading -/

def findContext (d : Database) (name : String) : Except DatabaseError (Option Context) := do
  return (← need .contexts d.contexts).find? (·.name = name)

/-- The numbers of a context's sessions, ascending. -/
def sessionIds (d : Database) (context : String) : Except DatabaseError (List SessionId) := do
  return Text.sortBy (fun i j => i.val ≤ j.val)
    (((← need .sessions d.sessions).filter (·.context = context)).map (·.id))

def inOrder (a b : FragmentRow) : Bool :=
  a.key.id.val < b.key.id.val || (a.key.id = b.key.id && a.position ≤ b.position)

/-- The fragments of a context's sessions, by session and position. -/
def fragmentsOfContext (d : Database) (context : String) :
    Except DatabaseError (List FragmentRow) := do
  return Text.sortBy inOrder ((← need .history d.history).filter (·.key.context = context))

def hasSession (d : Database) (k : SessionKey) : Except DatabaseError Bool := do
  return k ∈ (← need .sessions d.sessions)

/-- The fragments of a session by position. -/
def fragmentsOf (d : Database) (k : SessionKey) : Except DatabaseError (List String) := do
  return (Text.sortBy inOrder ((← need .history d.history).filter (·.key = k))).map (·.fragment)

/-- The sessions with the given numbers, each with those of the fragments that are its own. -/
def assemble (context : String) (ids : List SessionId) (rows : List FragmentRow) : List Session :=
  ids.map fun id => ⟨context, id, (rows.filter (·.key.id = id)).map (·.fragment)⟩

/-- Reads the sessions of a context in two steps: `first` for the sessions that there are, `second`
for their fragments. -/
def findSessionsIn (first second : Database) (context : String) :
    Except DatabaseError (List Session) := do
  let ids ← first.sessionIds context
  let rows ← second.fragmentsOfContext context
  return assemble context ids rows

/-- Reads a session in two steps. A session that is not there at the first is not looked for. -/
def findSessionIn (first second : Database) (k : SessionKey) :
    Except DatabaseError (Option Session) := do
  if ← first.hasSession k then
    return some ⟨k.context, k.id, ← second.fragmentsOf k⟩
  else return none

def findSessions (d : Database) (context : String) : Except DatabaseError (List Session) :=
  findSessionsIn d d context

def findSession (d : Database) (k : SessionKey) : Except DatabaseError (Option Session) :=
  findSessionIn d d k

/-! ## Writing -/

/-- A new context, or a new path for one that is there. -/
def upsertContext (d : Database) (c : Context) : Except DatabaseError Database := do
  let rows ← need .contexts d.contexts
  let rows :=
    if rows.any (·.name = c.name) then rows.map fun r => if r.name = c.name then c else r
    else rows ++ [c]
  return { d with contexts := some rows }

/-- A row for a session, unless there is one. -/
def insertSession (d : Database) (k : SessionKey) : Except DatabaseError Database := do
  let rows ← need .sessions d.sessions
  match d.contexts with
  | none => throw (.noParentTable .contexts)
  | some parents =>
    if k ∈ rows then return d
    else if parents.any (·.name = k.context) then return { d with sessions := some (rows ++ [k]) }
    else throw .noParentRow

def deleteFragments (d : Database) (k : SessionKey) : Except DatabaseError Database := do
  return { d with history := some ((← need .history d.history).filter (·.key ≠ k)) }

def insertFragment (d : Database) (r : FragmentRow) : Except DatabaseError Database := do
  let rows ← need .history d.history
  match d.sessions with
  | none => throw (.noParentTable .sessions)
  | some parents =>
    if rows.any fun x => x.key = r.key && x.position = r.position then throw .positionTaken
    else if d.uniqueFragments && rows.any (·.fragment = r.fragment) then throw .fragmentTaken
    else if r.key ∈ parents then return { d with history := some (rows ++ [r]) }
    else throw .noParentRow

/-- The fragments of a session, numbered from `position` on. -/
def insertFragments (d : Database) (k : SessionKey) :
    Nat → List String → Except DatabaseError Database
  | _, [] => return d
  | position, f :: fs => do
    insertFragments (← d.insertFragment ⟨k, position, f⟩) k (position + 1) fs

/-- What the statements make of the database if all of them succeed; else the database as it was
before the first. -/
def transaction (d : Database) (statements : Database → Except DatabaseError Database) :
    Except DatabaseError Unit × Database :=
  match statements d with
  | .ok d' => (.ok (), d')
  | .error e => (.error e, d)

/-- The statements that save a session: its row, and its fragments in place of the old ones. -/
def saveStatements (s : Session) (d : Database) : Except DatabaseError Database := do
  let d ← d.insertSession s.key
  let d ← d.deleteFragments s.key
  d.insertFragments s.key 0 s.history

def saveSession (d : Database) (s : Session) : Except DatabaseError Unit × Database :=
  d.transaction (saveStatements s)

def saveContext (d : Database) (c : Context) : Except DatabaseError Unit × Database :=
  d.transaction (upsertContext · c)

/-! ## Tables -/

/-- The highest version that is recorded, 0 if there is none. -/
def currentVersion (d : Database) : Int :=
  match d.versions with
  | none => 0
  | some [] => 0
  | some (v :: vs) => vs.foldl max v

/-- A table without rows, unless the table is there. -/
def createTable (d : Database) : TableName → Database
  | .versions => { d with versions := some (d.versions.getD []) }
  | .contexts => { d with contexts := some (d.contexts.getD []) }
  | .sessions => { d with sessions := some (d.sessions.getD []) }
  | .history => { d with history := some (d.history.getD []) }

/-- Records a version that is not recorded yet. -/
def insertVersion (d : Database) (v : Int) : Except DatabaseError Database := do
  let rows ← need .versions d.versions
  if v ∈ rows then throw .versionTaken else return { d with versions := some (rows ++ [v]) }

/-- The statements that make version 1 of the tables. -/
def initialSchema (d : Database) : Except DatabaseError Database :=
  ([.versions, .contexts, .sessions, .history].foldl createTable d).insertVersion 1

/-- Brings the tables to version 1, unless a version from 1 on is recorded. -/
def upgrade (d : Database) : Except DatabaseError Unit × Database :=
  if d.currentVersion < 1 then d.transaction initialSchema else (.ok (), d)

/-- What `upgrade` leads to: all tables are there and version 1 is recorded, unless a version from 1
on was recorded before. Tables that are there stay as they are. -/
def migrate (d : Database) : Database :=
  if d.currentVersion < 1 then
    { d with
      versions := some (d.versions.getD [] ++ [1])
      contexts := some (d.contexts.getD [])
      sessions := some (d.sessions.getD [])
      history := some (d.history.getD []) }
  else d

def hasTable (d : Database) : TableName → Bool
  | .versions => d.versions.isSome
  | .contexts => d.contexts.isSome
  | .sessions => d.sessions.isSome
  | .history => d.history.isSome

/-- The database without some sessions and without their fragments. -/
def deleteSessions (d : Database) (gone : SessionKey → Bool) : Database :=
  { d with
    sessions := d.sessions.map (·.filter fun k => !gone k)
    history := d.history.map (·.filter fun r =>
      !((d.sessions.getD []).contains r.key && gone r.key)) }

/-- The database without a table. The rows that belonged to rows of the table go with them. -/
def dropTable (d : Database) : TableName → Database
  | .versions => { d with versions := none }
  | .contexts =>
    { d.deleteSessions fun k => (d.contexts.getD []).any (·.name = k.context) with contexts := none }
  | .sessions => { d.deleteSessions fun _ => true with sessions := none }
  | .history => { d with history := none, uniqueFragments := false }

/-- The recorded versions, ascending; none without their table. -/
def recordedVersions (d : Database) : List Int := Text.sortBy (· ≤ ·) (d.versions.getD [])

/-- Records these versions and no others. -/
def setVersions (d : Database) (vs : List Int) : Database :=
  { d with versions := d.versions.map fun _ => vs.eraseDups }

/-- No fragment may be stored twice from now on, unless some already is. -/
def requireUniqueFragments (d : Database) : Database :=
  match d.history with
  | some rows => { d with uniqueFragments := decide (rows.map (·.fragment)).Nodup || d.uniqueFragments }
  | none => d

end Database

end CellReplay
