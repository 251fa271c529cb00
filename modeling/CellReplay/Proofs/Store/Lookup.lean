import CellReplay.Proofs.Store.Rows
import CellReplay.Store

/-!
# Proofs.Store.Lookup

What the lookups of a store answer before and after a session is saved, in memory and in a database
alike.

* `Store.Keyed`            — everything in memory stands under its own name or key. A database keeps
  names and keys within its rows, so there is nothing to ask of it.
* `Store.history`          — the history of a session, empty if there is no such session.
* `findSession_saveSession`, `findContext_saveSession`, `keyed_saveSession`, `history_saveSession` —
  what a save that succeeds does to them.
-/

namespace CellReplay

/-- Contexts stand under their names and sessions under their keys. -/
structure MemoryStore.Keyed (m : MemoryStore) : Prop where
  contexts : ∀ n c, m.contexts.get? n = some c → c.name = n
  sessions : ∀ k s, m.sessions.get? k = some s → s.key = k

namespace MemoryStore

theorem keyed_empty : empty.Keyed :=
  ⟨fun _ _ h => (nomatch h), fun _ _ h => (nomatch h)⟩

theorem keyed_saveContext {m : MemoryStore} (h : m.Keyed) (c : Context) :
    (m.saveContext c).Keyed := by
  refine ⟨fun n c' hn => ?_, h.sessions⟩
  simp only [saveContext, Table.get?_put] at hn
  split at hn
  · rename_i hc; cases hn; exact hc
  · exact h.contexts n c' hn

theorem keyed_saveSession {m : MemoryStore} (h : m.Keyed) (s : Session) :
    (m.saveSession s).Keyed := by
  refine ⟨h.contexts, fun k s' hk => ?_⟩
  simp only [saveSession, Table.get?_put] at hk
  split at hk
  · rename_i hs; cases hk; exact hs
  · exact h.sessions k s' hk

theorem mem_values_iff {m : MemoryStore} (h : m.Keyed) (s : Session) :
    s ∈ m.sessions.entries.map Prod.snd ↔ m.sessions.get? s.key = some s := by
  rw [Table.get?_eq_some_iff]
  constructor
  · intro hm
    obtain ⟨⟨k, s'⟩, he, rfl⟩ := List.mem_map.mp hm
    rw [h.sessions k s' ((Table.get?_eq_some_iff _ _ _).mpr he)]
    exact he
  · intro hm
    exact List.mem_map.mpr ⟨_, hm, rfl⟩

theorem mem_findSessions_iff {m : MemoryStore} (h : m.Keyed) (context : String) (s : Session) :
    s ∈ m.findSessions context ↔ m.sessions.get? s.key = some s ∧ s.context = context := by
  rw [findSessions, Text.mem_sortBy, List.mem_filter, mem_values_iff h, decide_eq_true_eq]

theorem findSessions_ascending {m : MemoryStore} (hm : m.Keyed) (context : String) :
    (m.findSessions context).Pairwise fun s t => s.id.val < t.id.val := by
  refine Text.sortBy_ascending (f := fun s : Session => s.id.val) ?_
  have hkeys : m.sessions.entries.Pairwise fun e f => e.1 ≠ f.1 :=
    List.pairwise_map.mp m.sessions.nodup
  have hvalues : (m.sessions.entries.map Prod.snd).Pairwise fun s t => s.key ≠ t.key := by
    refine List.pairwise_map.mpr (hkeys.imp_of_mem ?_)
    intro e f he hf hne
    rw [hm.sessions _ _ ((Table.get?_eq_some_iff _ _ _).mpr he),
      hm.sessions _ _ ((Table.get?_eq_some_iff _ _ _).mpr hf)]
    exact hne
  refine (hvalues.sublist List.filter_sublist).imp_of_mem ?_
  intro s t hs ht hne hid
  have hsc : s.context = context := of_decide_eq_true (List.mem_filter.mp hs).2
  have htc : t.context = context := of_decide_eq_true (List.mem_filter.mp ht).2
  exact hne (by rw [Session.key, Session.key, hsc, htc, SessionId.eq_of_val hid])

theorem findSession_eq_get? {m : MemoryStore} (h : m.Keyed) (k : SessionKey) :
    m.findSession k = m.sessions.get? k := by
  have hkey {s : Session} (hs : s ∈ m.findSessions k.context) (hi : s.id = k.id) : s.key = k := by
    have hc := ((mem_findSessions_iff h _ s).mp hs).2
    rw [Session.key, hc, hi]
  cases hf : m.findSession k with
  | some s =>
    have hs := List.mem_of_find?_eq_some hf
    have hk := hkey hs (by simpa using List.find?_some hf)
    rw [← hk, ((mem_findSessions_iff h _ s).mp hs).1]
  | none =>
    cases hg : m.sessions.get? k with
    | none => rfl
    | some s =>
      have hk := h.sessions k s hg
      have hs : s ∈ m.findSessions k.context :=
        (mem_findSessions_iff h _ s).mpr ⟨by rw [hk]; exact hg, by rw [← hk]; rfl⟩
      have hno := List.find?_eq_none.mp hf s hs
      exact absurd (decide_eq_true (by rw [← hk]; rfl : s.id = k.id)) hno

end MemoryStore

namespace Store

/-- What is in memory stands under its own name or key. -/
def Keyed : Store → Prop
  | memory m => m.Keyed
  | database _ => True
  | closed _ => True

def history (s : Store) (k : SessionKey) : List String :=
  match s.findSession k with
  | .ok (some x) => x.history
  | _ => []

theorem findContext_name {s : Store} (hs : s.Keyed) {n : String} {c : Context}
    (h : s.findContext n = .ok (some c)) : c.name = n := by
  cases s with
  | memory m => exact hs.contexts n c (Except.ok.inj h)
  | database d =>
    have hd := lift_eq_ok h
    unfold Database.findContext Database.need at hd
    cases hc : d.contexts with
    | none => rw [hc] at hd; cases hd
    | some rows =>
      simp only [hc, bind, Except.bind, pure, Except.pure, Except.ok.injEq] at hd
      simpa using List.find?_some hd
  | closed d => cases h

theorem findSession_key {s : Store} {k : SessionKey} {x : Session}
    (h : s.findSession k = .ok (some x)) : x.key = k := by
  cases s with
  | memory m =>
    simp only [findSession, Except.ok.injEq] at h
    have hi : x.id = k.id := by simpa using List.find?_some h
    have hc := List.mem_of_find?_eq_some h
    rw [MemoryStore.findSessions, Text.mem_sortBy, List.mem_filter, decide_eq_true_eq] at hc
    rw [Session.key, hc.2, hi]
  | database d =>
    have hd := lift_eq_ok h
    simp only [Database.findSession, Database.findSessionIn, bind, Except.bind] at hd
    split at hd
    · cases hd
    · split at hd
      · split at hd
        · cases hd
        · cases hd; rfl
      · cases hd
  | closed d => cases h

theorem database_saveSession_ok {d : Database} {x : Session} {t : Store}
    (h : (database d).saveSession x = (.ok (), t)) :
    d.HasSessionTables ∧ t = database (d.stored x) := by
  rcases hs : d.saveSession x with ⟨e | _, d'⟩
  · rw [saveSession, hs] at h
    cases h
  · rw [saveSession, hs] at h
    obtain ⟨htables, rfl⟩ := Database.saveSession_ok hs
    cases h
    exact ⟨htables, rfl⟩

theorem keyed_saveContext {s : Store} (hs : s.Keyed) (c : Context) : (s.saveContext c).2.Keyed := by
  cases s with
  | memory m => exact MemoryStore.keyed_saveContext hs c
  | database d => trivial
  | closed d => trivial

theorem keyed_saveSession {s t : Store} {x : Session} {r : Except Failure Unit} (hs : s.Keyed)
    (h : s.saveSession x = (r, t)) : t.Keyed := by
  cases s with
  | memory m => cases h; exact MemoryStore.keyed_saveSession hs x
  | database d => cases h; trivial
  | closed d => cases h; trivial

theorem findContext_saveSession {s t : Store} {x : Session} (h : s.saveSession x = (.ok (), t))
    (n : String) : t.findContext n = s.findContext n := by
  cases s with
  | memory m => cases h; rfl
  | database d =>
    rw [(database_saveSession_ok h).2]
    exact congrArg lift (Database.findContext_stored d x n)
  | closed d => cases h

/-- After a save that succeeded, the session is found under its key, and all others as before. -/
theorem findSession_saveSession {s t : Store} {x : Session} (hs : s.Keyed)
    (h : s.saveSession x = (.ok (), t)) (k : SessionKey) :
    t.findSession k = if k = x.key then .ok (some x) else s.findSession k := by
  cases s with
  | memory m =>
    cases h
    have hput : (m.saveSession x).sessions.get? k =
        if x.key = k then some x else m.sessions.get? k := Table.get?_put _ _ _ _
    simp only [findSession, MemoryStore.findSession_eq_get? (MemoryStore.keyed_saveSession hs x),
      MemoryStore.findSession_eq_get? hs, hput, eq_comm (b := k)]
    split <;> rfl
  | database d =>
    obtain ⟨htables, rfl⟩ := database_saveSession_ok h
    simp only [findSession, Database.findSession_stored htables]
    split <;> rfl
  | closed d => cases h

theorem history_saveSession {s t : Store} {x : Session} (hs : s.Keyed)
    (h : s.saveSession x = (.ok (), t)) (k : SessionKey) :
    t.history k = if k = x.key then x.history else s.history k := by
  simp only [history, findSession_saveSession hs h]
  by_cases hk : k = x.key
  · rw [if_pos hk, if_pos hk]
  · rw [if_neg hk, if_neg hk]

theorem history_of_findSession {s : Store} {k : SessionKey} {x : Session}
    (h : s.findSession k = .ok (some x)) : s.history k = x.history := by
  rw [history, h]

theorem history_of_findSession_none {s : Store} {k : SessionKey}
    (h : s.findSession k = .ok none) : s.history k = [] := by
  rw [history, h]

end Store

end CellReplay
