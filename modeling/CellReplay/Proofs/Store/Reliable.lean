import CellReplay.Proofs.Store.Agreement

/-!
# Proofs.Store.Reliable

Stores whose operations do not fail: one in memory, and a database with all its tables. Either holds
what a pair of maps holds, and is read and written like them.

* `Store.Holds`   — the maps that a store stands for.
* `Store.SameAs`  — two stores that cannot be told apart by reading them.
* `sameAs_of_get?` — so are two that stand for maps with the same values.
-/

namespace CellReplay

namespace Store

/-- A store that does not fail, and what it holds. -/
def Holds : Store → MemoryStore → Prop
  | memory m', m => m' = m ∧ m.Keyed
  | database d, m => Agrees m d
  | closed _, _ => False

variable {s t : Store} {m n : MemoryStore}

theorem Holds.keyed (h : s.Holds m) : m.Keyed := by
  cases s with
  | memory m' => exact h.2
  | database d => exact Agrees.keyed h
  | closed d => exact h.elim

theorem Holds.findContext (h : s.Holds m) (name : String) :
    s.findContext name = .ok (m.contexts.get? name) := by
  cases s with
  | memory m' => rw [h.1]; rfl
  | database d => rw [Store.findContext, Agrees.findContext h]; rfl
  | closed d => exact h.elim

theorem Holds.findSession (h : s.Holds m) (k : SessionKey) :
    s.findSession k = .ok (m.sessions.get? k) := by
  rw [← MemoryStore.findSession_eq_get? h.keyed]
  cases s with
  | memory m' => rw [h.1]; rfl
  | database d => rw [Store.findSession, Agrees.findSession h]; rfl
  | closed d => exact h.elim

theorem Holds.findSessions (h : s.Holds m) (context : String) :
    s.findSessions context = .ok (m.findSessions context) := by
  cases s with
  | memory m' => rw [h.1]; rfl
  | database d => rw [Store.findSessions, Agrees.findSessions h]; rfl
  | closed d => exact h.elim

theorem Holds.saveSession (h : s.Holds m) {x : Session}
    (hx : (m.contexts.get? x.context).isSome) :
    ∃ t, s.saveSession x = (.ok (), t) ∧ t.Holds (m.saveSession x) := by
  cases s with
  | memory m' => rw [h.1]; exact ⟨_, rfl, rfl, MemoryStore.keyed_saveSession h.2 x⟩
  | database d =>
    obtain ⟨hd, ha⟩ := Agrees.saveSession h hx
    refine ⟨.database (d.stored x), ?_, ha⟩
    rw [Store.saveSession, hd]
    rfl
  | closed d => exact h.elim

/-- What is stored reads alike. -/
structure SameAs (s t : Store) : Prop where
  findContext : ∀ name, s.findContext name = t.findContext name
  findSession : ∀ k, s.findSession k = t.findSession k
  findSessions : ∀ context, s.findSessions context = t.findSessions context

theorem sameAs_of_get? (hs : s.Holds m) (ht : t.Holds n)
    (hcontexts : ∀ name, m.contexts.get? name = n.contexts.get? name)
    (hsessions : ∀ k, m.sessions.get? k = n.sessions.get? k) : s.SameAs t where
  findContext name := by rw [hs.findContext, ht.findContext, hcontexts]
  findSession k := by rw [hs.findSession, ht.findSession, hsessions]
  findSessions context := by
    rw [hs.findSessions, ht.findSessions]
    -- both are ascending, so it is enough that they have the same members
    refine congrArg Except.ok (Text.eq_of_ascending (f := fun s : Session => s.id.val)
      (MemoryStore.findSessions_ascending hs.keyed context)
      (MemoryStore.findSessions_ascending ht.keyed context) fun x => ?_)
    rw [MemoryStore.mem_findSessions_iff hs.keyed, MemoryStore.mem_findSessions_iff ht.keyed,
      hsessions]

end Store

end CellReplay
