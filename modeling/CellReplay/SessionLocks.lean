import CellReplay.Session
import CellReplay.Table

/-!
# SessionLocks

Mutual exclusion of the calls on one session.

A call that wants a session's lock looks up the mutex of the session, or puts a new one into the
map, and queues there. A free mutex goes to the first in its queue. A call that lets go first frees
the mutex, which hands it on, and then, as a step of its own, takes the session's entry out of the
map if nobody refers to the mutex there.

* `Phase`, `Claim`  — where a call is on its way through the lock.
* `SessionLocks`    — the map and all claims, in the order in which they queued.
* `enter`, `resume`, `release`, `prune`, `cancel` — the steps that a call can take.
* `settle`          — takes all steps that are due.
-/

namespace CellReplay

/-- Where a claim stands: in the queue; given the mutex but not aware of it; holding it; or done
with it and about to look whether the entry is still needed. -/
inductive Phase
  | waiting
  | granted
  | holding
  | leaving
  deriving DecidableEq, Repr

/-- A call, named by `ticket`, and the mutex it refers to. -/
structure Claim (τ : Type) where
  ticket : τ
  key : SessionKey
  mutex : Nat
  phase : Phase
  deriving DecidableEq, Repr

/-- The claim keeps others out. -/
def Claim.owns {τ : Type} (c : Claim τ) : Bool := c.phase = .granted || c.phase = .holding

/-- The claim refers to its mutex. -/
def Claim.refers {τ : Type} (c : Claim τ) : Bool := c.phase ≠ .leaving

/-- The mutex of each session in use, the claims, and the number of the next new mutex. -/
structure SessionLocks (τ : Type) where
  entries : Table SessionKey Nat
  claims : List (Claim τ)
  fresh : Nat
  deriving DecidableEq, Repr

namespace SessionLocks

variable {τ : Type} [DecidableEq τ]

def empty : SessionLocks τ := ⟨.empty, [], 0⟩

def len (l : SessionLocks τ) : Nat := l.entries.size

def phaseOf (l : SessionLocks τ) (t : τ) : Option Phase :=
  (l.claims.find? (·.ticket = t)).map (·.phase)

def isOwned (l : SessionLocks τ) (mutex : Nat) : Bool :=
  l.claims.any fun c => c.mutex = mutex && c.owns

def withPhase (l : SessionLocks τ) (t : τ) (p : Phase) : SessionLocks τ :=
  { l with claims := l.claims.map fun c => if c.ticket = t then { c with phase := p } else c }

/-- The first that waits for a mutex gets it, if nobody owns it. -/
def grantFirst (mutex : Nat) : List (Claim τ) → List (Claim τ)
  | [] => []
  | c :: cs =>
    if c.mutex = mutex ∧ c.phase = .waiting then { c with phase := .granted } :: cs
    else c :: grantFirst mutex cs

def handOver (l : SessionLocks τ) (mutex : Nat) : SessionLocks τ :=
  if l.isOwned mutex then l else { l with claims := grantFirst mutex l.claims }

/-- A new claim looks up the mutex, or makes one, and queues. -/
def enter (l : SessionLocks τ) (t : τ) (key : SessionKey) : SessionLocks τ :=
  let (mutex, l) : Nat × SessionLocks τ :=
    match l.entries.get? key with
    | some m => (m, l)
    | none => (l.fresh, { l with entries := l.entries.put key l.fresh, fresh := l.fresh + 1 })
  handOver { l with claims := l.claims ++ [⟨t, key, mutex, .waiting⟩] } mutex

/-- A claim becomes aware that the mutex is its own. -/
def resume (l : SessionLocks τ) (t : τ) : SessionLocks τ :=
  if l.phaseOf t = some .granted then l.withPhase t .holding else l

/-- A holder frees the mutex, which goes to the next in the queue. -/
def release (l : SessionLocks τ) (t : τ) : SessionLocks τ :=
  match l.claims.find? (·.ticket = t) with
  | some c => if c.phase = .holding then (l.withPhase t .leaving).handOver c.mutex else l
  | none => l

def drop (l : SessionLocks τ) (t : τ) : SessionLocks τ :=
  { l with claims := l.claims.filter (·.ticket ≠ t) }

/-- A claim that has let go looks at the mutex that its session has in the map now; if nobody refers
to that one, the entry goes. -/
def prune (l : SessionLocks τ) (t : τ) : SessionLocks τ :=
  match l.claims.find? (·.ticket = t) with
  | some c =>
    if c.phase = .leaving then
      let l := l.drop t
      match l.entries.get? c.key with
      | some m =>
        if l.claims.any fun d => d.mutex = m && d.refers then l
        else { l with entries := l.entries.erase c.key }
      | none => l
    else l
  | none => l

/-- A call is dropped. One that waits just goes; one that has been given the mutex hands it on and
goes; a holder begins to let go. None but the holder will look after the entry. -/
def cancel (l : SessionLocks τ) (t : τ) : SessionLocks τ :=
  match l.claims.find? (·.ticket = t) with
  | some c =>
    match c.phase with
    | .waiting => l.drop t
    | .granted => (l.drop t).handOver c.mutex
    | .holding => l.release t
    | .leaving => l
  | none => l

/-- One round over the claims: those given a mutex take it, those that have let go look after the
entry. -/
def round (l : SessionLocks τ) : SessionLocks τ :=
  l.claims.foldl (fun l c => (l.resume c.ticket).prune c.ticket) l

/-- The tickets of the claims in a phase. -/
def inPhase (l : SessionLocks τ) (p : Phase) : List τ :=
  (l.claims.filter (·.phase = p)).map (·.ticket)

end SessionLocks

/-! ## Orders -/

/-- What callers do to the locks, by the name of the call. -/
inductive LockOrder
  | acquire (handle : String) (key : SessionKey)
  | release (handle : String)
  | cancel (handle : String)
  deriving DecidableEq, Repr

/-- Locks with the calls that will let go as soon as they hold their lock. -/
structure LockDesk where
  locks : SessionLocks String
  hasty : List String
  deriving DecidableEq, Repr

namespace LockDesk

def empty : LockDesk := ⟨.empty, []⟩

/-- Takes all steps that are due; each round of them lets at most one hasty call through per
session, so as many rounds are run as there are claims. -/
def settleFrom : Nat → LockDesk → LockDesk
  | 0, d => d
  | n + 1, d =>
    let l := d.locks.round
    settleFrom n ⟨(d.hasty.foldl (·.release ·) l).round, d.hasty⟩

def settle (d : LockDesk) : LockDesk :=
  let d := settleFrom (d.locks.claims.length + 1) d
  { d with hasty := d.hasty.filter fun h => (d.locks.phaseOf h).isSome }

/-- The desk after an order, when nothing is left to do. -/
def follow (d : LockDesk) : LockOrder → LockDesk
  | .acquire h key => settle { d with locks := d.locks.enter h key }
  | .release h =>
    if (d.locks.phaseOf h).isSome then settle { d with hasty := h :: d.hasty } else d
  | .cancel h => settle { d with locks := d.locks.cancel h }

def held (d : LockDesk) : List String := Text.sortBy (· ≤ ·) (d.locks.inPhase .holding)

/-- The calls that wait and do not only wait to let go. -/
def waiting (d : LockDesk) : List String :=
  Text.sortBy (· ≤ ·) ((d.locks.inPhase .waiting).filter (· ∉ d.hasty))

end LockDesk

end CellReplay
