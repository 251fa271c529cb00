import CellReplay.Proofs.Store.Orders
import CellReplay.Proofs.Store.Seeding
import CellReplay.Proofs.Store.Upgrade

/-!
# Proofs.Store.Growth

What a store has found once it finds ever after: nothing that callers can ask of a store takes a
context or a session away.

* `Store.knowsContext`, `Store.knowsSession` — a lookup succeeds and finds something.
* `Store.Grows`  — between two stores, nothing has been lost.
* `grows_follow` — every order is of this kind.
-/

namespace CellReplay

theorem Database.exists_tables_of_findSession {d : Database} {k : SessionKey} {x : Session}
    (h : d.findSession k = .ok (some x)) :
    ∃ keys rows, d.sessions = some keys ∧ d.history = some rows := by
  unfold findSession findSessionIn hasSession fragmentsOf need at h
  cases hs : d.sessions with
  | none => rw [hs] at h; cases h
  | some keys =>
    cases hr : d.history with
    | none =>
      rw [hs, hr] at h
      by_cases hk : k ∈ keys <;> simp [hk, bind, Except.bind, pure, Except.pure] at h
    | some rows => exact ⟨keys, rows, rfl, rfl⟩

namespace Store

def knowsContext (s : Store) (n : String) : Bool :=
  match s.findContext n with
  | .ok c => c.isSome
  | .error _ => false

def knowsSession (s : Store) (k : SessionKey) : Bool :=
  match s.findSession k with
  | .ok x => x.isSome
  | .error _ => false

variable {s t u : Store}

theorem knowsContext_iff {n : String} :
    s.knowsContext n ↔ ∃ c, s.findContext n = .ok (some c) := by
  unfold knowsContext
  rcases s.findContext n with e | _ | c <;> simp

theorem knowsSession_iff {k : SessionKey} :
    s.knowsSession k ↔ ∃ x, s.findSession k = .ok (some x) := by
  unfold knowsSession
  rcases s.findSession k with e | _ | x <;> simp

structure Grows (s t : Store) : Prop where
  keyed : t.Keyed
  contexts : ∀ n, s.knowsContext n → t.knowsContext n
  sessions : ∀ k, s.knowsSession k → t.knowsSession k

theorem grows_refl (hs : s.Keyed) : Grows s s := ⟨hs, fun _ h => h, fun _ h => h⟩

theorem Grows.trans (h₁ : Grows s t) (h₂ : Grows t u) : Grows s u :=
  ⟨h₂.keyed, fun n h => h₂.contexts n (h₁.contexts n h), fun k h => h₂.sessions k (h₁.sessions k h)⟩

theorem saveContext_error {c : Context} {e : Failure} (h : s.saveContext c = (.error e, t)) :
    t = s := by
  cases s with
  | memory m => cases h
  | database d =>
    simp only [saveContext, Database.saveContext, Database.transaction] at h
    split at h
    · cases h
    · cases h; rfl
  | closed d => cases h; rfl

theorem knowsSession_saveSession {x : Session} (hs : s.Keyed)
    (h : s.saveSession x = (.ok (), t)) (k : SessionKey) :
    t.knowsSession k ↔ k = x.key ∨ s.knowsSession k := by
  rw [knowsSession_iff, knowsSession_iff, findSession_saveSession hs h]
  by_cases hk : k = x.key <;> simp [hk]

theorem knowsContext_saveContext {c : Context} (h : s.saveContext c = (.ok (), t)) (n : String) :
    t.knowsContext n ↔ n = c.name ∨ s.knowsContext n := by
  rw [knowsContext_iff, knowsContext_iff, findContext_saveContext h]
  by_cases hn : c.name = n
  · simp [hn]
  · simp [hn, Ne.symm hn]

theorem grows_saveSession (hs : s.Keyed) (x : Session) : Grows s (s.saveSession x).2 := by
  rcases h : s.saveSession x with ⟨e | _, t⟩
  · rw [saveSession_error h]
    exact grows_refl hs
  · refine ⟨keyed_saveSession hs h, fun n hn => ?_, fun k hk => ?_⟩
    · rw [knowsContext, findContext_saveSession h]
      exact hn
    · exact (knowsSession_saveSession hs h k).mpr (.inr hk)

theorem grows_saveContext (hs : s.Keyed) (c : Context) : Grows s (s.saveContext c).2 := by
  have hkeyed := keyed_saveContext hs c
  rcases h : s.saveContext c with ⟨e | _, t⟩
  · rw [saveContext_error h]
    exact grows_refl hs
  · rw [h] at hkeyed
    refine ⟨hkeyed, fun n hn => (knowsContext_saveContext h n).mpr (.inr hn), fun k hk => ?_⟩
    rw [knowsSession, findSession_saveContext h]
    exact hk

theorem grows_seedContexts (hs : s.Keyed) (cs : List Context) : Grows s (s.seedContexts cs).2 := by
  induction cs generalizing s with
  | nil => exact grows_refl hs
  | cons c cs ih =>
    unfold seedContexts
    split
    · exact grows_refl hs
    · exact ih hs
    · have hsaved := grows_saveContext hs c
      split
      · next h => rwa [h] at hsaved
      · next h =>
        rw [h] at hsaved
        exact hsaved.trans (ih hsaved.keyed)

theorem grows_seedSession (hs : s.Keyed) (k : SessionKey) : Grows s (s.seedSession k).2 := by
  unfold seedSession
  split
  · exact grows_refl hs
  · exact grows_refl hs
  · exact grows_saveSession hs k.newSession

theorem grows_migrate (hs : s.Keyed) : Grows s s.migrate.2 := by
  cases s with
  | memory m => exact grows_refl hs
  | closed d => exact grows_refl hs
  | database d =>
    have hkeeps := Database.keeps_migrate d
    rw [migrate, Database.upgrade_eq_migrate]
    refine ⟨trivial, fun n hn => ?_, fun k hk => ?_⟩
    · obtain ⟨c, hc⟩ := knowsContext_iff.mp hn
      obtain ⟨rows, hrows, -⟩ := database_findContext_some hc
      rw [findContext, Database.findContext_eq hrows] at hc
      refine knowsContext_iff.mpr ⟨c, ?_⟩
      rw [findContext, Database.findContext_eq (hkeeps.contexts rows hrows)]
      exact hc
    · obtain ⟨x, hx⟩ := knowsSession_iff.mp hk
      obtain ⟨keys, rows, hkeys, hrows⟩ := Database.exists_tables_of_findSession (lift_eq_ok hx)
      rw [findSession, Database.findSession_eq hkeys hrows] at hx
      refine knowsSession_iff.mpr ⟨x, ?_⟩
      rw [findSession,
        Database.findSession_eq (hkeeps.sessions keys hkeys) (hkeeps.history rows hrows)]
      exact hx

theorem grows_follow (hs : s.Keyed) (o : StoreOrder) : Grows s (s.follow o).2 := by
  cases o with
  | findContext n => exact grows_refl hs
  | saveContext c => exact grows_saveContext hs c
  | findSessions c => exact grows_refl hs
  | findSession k => exact grows_refl hs
  | saveSession x => exact grows_saveSession hs x
  | seedContexts cs => exact grows_seedContexts hs cs
  | seedSession k => exact grows_seedSession hs k
  | migrate => exact grows_migrate hs

end Store

end CellReplay
