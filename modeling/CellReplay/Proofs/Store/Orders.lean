import CellReplay.Proofs.Store.Lookup

/-!
# Proofs.Store.Orders

Everything that callers can ask of a store, one order after the other.

* `StoreOrder`, `StoreAnswer` — an order and what the store says to it.
* `Store.follow`, `Store.followAll` — one order, and a run of them.
* `Store.keyed_followAll` — what is in memory stands under its own name or key after any run.
* `Grounded` — a run in which a session's context is saved before the session is.
-/

namespace CellReplay

inductive StoreOrder
  | findContext (name : String)
  | saveContext (c : Context)
  | findSessions (context : String)
  | findSession (k : SessionKey)
  | saveSession (s : Session)
  | seedContexts (cs : List Context)
  | seedSession (k : SessionKey)
  | migrate
  deriving DecidableEq, Repr

inductive StoreAnswer
  | done (r : Except Failure Unit)
  | context (r : Except Failure (Option Context))
  | session (r : Except Failure (Option Session))
  | sessions (r : Except Failure (List Session))
  | counted (r : Except Failure Nat)
  | made (r : Except Failure Bool)

namespace Store

def follow (s : Store) : StoreOrder → StoreAnswer × Store
  | .findContext n => (.context (s.findContext n), s)
  | .saveContext c => let (r, s) := s.saveContext c; (.done r, s)
  | .findSessions c => (.sessions (s.findSessions c), s)
  | .findSession k => (.session (s.findSession k), s)
  | .saveSession x => let (r, s) := s.saveSession x; (.done r, s)
  | .seedContexts cs => let (r, s) := s.seedContexts cs; (.counted r, s)
  | .seedSession k => let (r, s) := s.seedSession k; (.made r, s)
  | .migrate => let (r, s) := s.migrate; (.done r, s)

def followAll (s : Store) : List StoreOrder → List StoreAnswer × Store
  | [] => ([], s)
  | o :: os =>
    let (a, s) := s.follow o
    let (as, s) := s.followAll os
    (a :: as, s)

theorem keyed_seedContexts {s : Store} (hs : s.Keyed) (cs : List Context) :
    (s.seedContexts cs).2.Keyed := by
  induction cs generalizing s with
  | nil => exact hs
  | cons c cs ih =>
    unfold seedContexts
    split
    · exact hs
    · exact ih hs
    · have hc := keyed_saveContext hs c
      split
      · rename_i h; rwa [h] at hc
      · rename_i h; rw [h] at hc; exact ih hc

theorem keyed_seedSession {s : Store} (hs : s.Keyed) (k : SessionKey) :
    (s.seedSession k).2.Keyed := by
  unfold seedSession
  split
  · exact hs
  · exact hs
  · exact keyed_saveSession hs rfl

theorem keyed_follow {s : Store} (hs : s.Keyed) (o : StoreOrder) : (s.follow o).2.Keyed := by
  cases o with
  | findContext n => exact hs
  | saveContext c => exact keyed_saveContext hs c
  | findSessions c => exact hs
  | findSession k => exact hs
  | saveSession x => exact keyed_saveSession hs rfl
  | seedContexts cs => exact keyed_seedContexts hs cs
  | seedSession k => exact keyed_seedSession hs k
  | migrate => cases s <;> exact hs

theorem keyed_followAll {s : Store} (hs : s.Keyed) (os : List StoreOrder) :
    (s.followAll os).2.Keyed := by
  induction os generalizing s with
  | nil => exact hs
  | cons o os ih => exact ih (keyed_follow hs o)

end Store

namespace StoreOrder

/-- The contexts that are stored after an order, beside those that were before. -/
def contexts : StoreOrder → List String
  | saveContext c => [c.name]
  | seedContexts cs => cs.map (·.name)
  | _ => []

/-- The context that a session of this order belongs to. -/
def parent? : StoreOrder → Option String
  | saveSession s => some s.context
  | seedSession k => some k.context
  | _ => none

end StoreOrder

/-- No session is saved or seeded before its context; `known` are the contexts saved so far. -/
def Grounded (known : List String) : List StoreOrder → Prop
  | [] => True
  | o :: os => (∀ c ∈ o.parent?, c ∈ known) ∧ Grounded (known ++ o.contexts) os

end CellReplay
