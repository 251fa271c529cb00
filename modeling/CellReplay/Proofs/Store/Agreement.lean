import CellReplay.Proofs.Store.Lookup
import CellReplay.Proofs.Store.Orders
import CellReplay.Proofs.Store.Upgrade

/-!
# Proofs.Store.Agreement

A store in memory and a database cannot be told apart by what they answer.

`Agrees` relates a map of contexts and a map of sessions to the rows of a database that hold the
same. Every order keeps it (`AgreeOn.follow`) and is answered alike on both sides, so a run from
empty stores is (`answers_agree`), as long as sessions are saved under contexts that are known: the
database insists on that and the map does not.
-/

namespace CellReplay

open Database (fragmentsIn inOrder)

/-- The rows of a database hold what the maps hold. -/
structure Agrees (m : MemoryStore) (d : Database) : Prop where
  keyed : m.Keyed
  contexts : ∃ rows, d.contexts = some rows ∧
    ∀ n, rows.find? (·.name = n) = m.contexts.get? n
  sessions : ∃ keys, d.sessions = some keys ∧ keys.Nodup ∧
    ∀ k, k ∈ keys ↔ (m.sessions.get? k).isSome
  history : ∃ rows, d.history = some rows ∧
    ∀ k s, m.sessions.get? k = some s → fragmentsIn rows k = s.history
  uniqueFragments : d.uniqueFragments = false
  migrated : d.currentVersion = 1

theorem find?_replaced (rows : List Context) (c : Context) (n : String) :
    (rows.map fun r => if r.name = c.name then c else r).find? (·.name = n) =
      if c.name = n then (rows.find? (·.name = n)).map fun _ => c else rows.find? (·.name = n) := by
  induction rows with
  | nil => simp
  | cons r rows ih =>
    rw [List.map_cons, List.find?_cons, List.find?_cons, ih]
    by_cases hr : r.name = c.name <;> by_cases hn : c.name = n
    · simp [hr, hn]
    · simp [hr, hn]
    · subst hn
      simp [hr]
    · simp [hr, hn]

theorem find?_upsert (rows : List Context) (c : Context) (n : String) :
    (if rows.any (·.name = c.name) then rows.map fun r => if r.name = c.name then c else r
      else rows ++ [c]).find? (·.name = n) =
      if c.name = n then some c else rows.find? (·.name = n) := by
  by_cases hany : rows.any (·.name = c.name)
  · rw [if_pos hany, find?_replaced]
    split
    · rename_i hn
      subst hn
      obtain ⟨r, hr, hrn⟩ := List.any_eq_true.mp hany
      obtain ⟨x, hx⟩ : ∃ x, rows.find? (·.name = c.name) = some x :=
        Option.isSome_iff_exists.mp (List.find?_isSome.mpr ⟨r, hr, hrn⟩)
      rw [hx]; rfl
    · rfl
  · rw [if_neg hany, List.find?_append]
    split
    · rename_i hn
      subst hn
      have hnone : rows.find? (·.name = c.name) = none := by
        refine List.find?_eq_none.mpr fun r hr hrn => hany ?_
        exact List.any_eq_true.mpr ⟨r, hr, hrn⟩
      simp [hnone]
    · rename_i hn
      simp [hn]

namespace Agrees

variable {m : MemoryStore} {d : Database}

theorem hasSessionTables (h : Agrees m d) : d.HasSessionTables := by
  obtain ⟨_, hc, _⟩ := h.contexts
  obtain ⟨_, hs, _⟩ := h.sessions
  obtain ⟨_, hr, _⟩ := h.history
  exact ⟨by rw [hc]; rfl, by rw [hs]; rfl, by rw [hr]; rfl⟩

theorem empty : Agrees .empty (Database.migrate .empty) where
  keyed := MemoryStore.keyed_empty
  contexts := ⟨[], rfl, fun _ => rfl⟩
  sessions := ⟨[], rfl, .nil, fun _ => by simp [MemoryStore.empty, Table.get?_empty]⟩
  history := ⟨[], rfl, fun _ _ h => by simp [MemoryStore.empty, Table.get?_empty] at h⟩
  uniqueFragments := rfl
  migrated := rfl

/-! ## Reading -/

theorem findContext (h : Agrees m d) (n : String) : d.findContext n = .ok (m.findContext n) := by
  obtain ⟨rows, hrows, hfind⟩ := h.contexts
  simp only [Database.findContext, Database.need, hrows, bind, Except.bind, pure, Except.pure, hfind]
  rfl

theorem findSession (h : Agrees m d) (k : SessionKey) :
    d.findSession k = .ok (m.findSession k) := by
  obtain ⟨keys, hkeys, -, hmem⟩ := h.sessions
  obtain ⟨rows, hrows, hfrag⟩ := h.history
  rw [Database.findSession_eq hkeys hrows, MemoryStore.findSession_eq_get? h.keyed]
  cases hg : m.sessions.get? k with
  | none => rw [if_neg fun hk => by simpa [hg] using (hmem k).mp hk]
  | some s =>
    rw [if_pos ((hmem k).mpr (by rw [hg]; rfl)), hfrag k s hg, ← h.keyed.sessions k s hg]
    rfl

/-- Both list a context's sessions by ascending number, so it is enough that they list the same. -/
theorem findSessions (h : Agrees m d) (context : String) :
    d.findSessions context = .ok (m.findSessions context) := by
  obtain ⟨keys, hkeys, hnodup, hmem⟩ := h.sessions
  obtain ⟨rows, hrows, hfrag⟩ := h.history
  rw [Database.findSessions_eq hkeys hrows]
  refine congrArg Except.ok (Text.eq_of_ascending (f := fun s : Session => s.id.val) ?_
    (MemoryStore.findSessions_ascending h.keyed context) fun s => ?_)
  · exact List.pairwise_map.mpr (Database.sessionIds_ascending hnodup context)
  · rw [MemoryStore.mem_findSessions_iff h.keyed, List.mem_map]
    constructor
    · rintro ⟨i, hi, rfl⟩
      obtain ⟨k, hk, rfl⟩ := List.mem_map.mp (Text.mem_sortBy.mp hi)
      obtain ⟨hk, hc⟩ := List.mem_filter.mp hk
      have hc : k.context = context := of_decide_eq_true hc
      obtain ⟨s, hs⟩ := Option.isSome_iff_exists.mp ((hmem k).mp hk)
      have hkey := h.keyed.sessions k s hs
      subst hc hkey
      rw [show (⟨s.key.context, s.key.id⟩ : SessionKey) = s.key from rfl, hfrag s.key s hs]
      exact ⟨hs, rfl⟩
    · rintro ⟨hs, rfl⟩
      refine ⟨s.id, Text.mem_sortBy.mpr (List.mem_map.mpr ⟨s.key, ?_, rfl⟩), ?_⟩
      · exact List.mem_filter.mpr ⟨(hmem s.key).mpr (by rw [hs]; rfl), decide_eq_true rfl⟩
      · rw [show (⟨s.context, s.id⟩ : SessionKey) = s.key from rfl, hfrag s.key s hs]

/-! ## Writing -/

theorem saveContext (h : Agrees m d) (c : Context) :
    ∃ d', d.saveContext c = (.ok (), d') ∧ Agrees (m.saveContext c) d' := by
  obtain ⟨rows, hrows, hfind⟩ := h.contexts
  let rows' :=
    if rows.any (·.name = c.name) then rows.map fun r => if r.name = c.name then c else r
    else rows ++ [c]
  have hfind' (n : String) : rows'.find? (·.name = n) = if c.name = n then some c else
      rows.find? (·.name = n) := find?_upsert rows c n
  refine ⟨{ d with contexts := some rows' }, ?_, ?_⟩
  · simp only [Database.saveContext, Database.transaction, Database.upsertContext, Database.need,
      hrows, bind, Except.bind, pure, Except.pure]
    rfl
  · refine ⟨MemoryStore.keyed_saveContext h.keyed c, ⟨rows', rfl, fun n => ?_⟩, h.sessions, h.history,
      h.uniqueFragments, h.migrated⟩
    rw [hfind' n, hfind n, MemoryStore.saveContext, Table.get?_put]

/-- The context that a session belongs to has to be known. -/
theorem saveSession (h : Agrees m d) {s : Session} (hc : (m.findContext s.context).isSome) :
    d.saveSession s = (.ok (), d.stored s) ∧ Agrees (m.saveSession s) (d.stored s) := by
  obtain ⟨parents, hparents, hfind⟩ := h.contexts
  obtain ⟨keys, hkeys, hnodup, hmem⟩ := h.sessions
  obtain ⟨rows, hrows, hfrag⟩ := h.history
  have hany : parents.any (·.name = s.context) := by
    obtain ⟨c, hc⟩ := Option.isSome_iff_exists.mp hc
    have hc : parents.find? (·.name = s.context) = some c := (hfind s.context).trans hc
    exact List.any_eq_true.mpr ⟨c, List.mem_of_find?_eq_some hc, by simpa using List.find?_some hc⟩
  constructor
  · rw [Database.saveSession, Database.transaction,
      Database.saveStatements_ok h.hasSessionTables h.uniqueFragments hparents hany]
  · refine ⟨MemoryStore.keyed_saveSession h.keyed s, h.contexts,
      ⟨_, by rw [Database.stored, hkeys]; rfl, ?_, fun k => ?_⟩,
      ⟨_, by rw [Database.stored, hrows]; rfl, fun k x hk => ?_⟩,
      h.uniqueFragments, h.migrated⟩
    · exact Database.nodup_stored_keys hnodup s.key
    · rw [Database.mem_stored_keys, MemoryStore.saveSession, Table.get?_put, hmem k]
      by_cases hk : s.key = k
      · simp [hk]
      · simp [hk, Ne.symm hk]
    · rw [MemoryStore.saveSession, Table.get?_put] at hk
      by_cases hsk : s.key = k
      · rw [if_pos hsk] at hk
        cases hk
        rw [← hsk, Database.fragmentsIn_own]
      · rw [if_neg hsk] at hk
        rw [Database.fragmentsIn_other rows s.history (Ne.symm hsk), hfrag k x hk]

theorem migrate (h : Agrees m d) : d.migrate = d := by
  rw [Database.migrate, h.migrated, if_neg (by decide)]

end Agrees

/-! ## Orders -/

/-- A store in memory and a database that agree, with the contexts in `known`. -/
structure AgreeOn (known : List String) (m : MemoryStore) (d : Database) : Prop where
  agrees : Agrees m d
  known : ∀ n ∈ known, (m.findContext n).isSome

namespace AgreeOn

variable {known : List String} {m : MemoryStore} {d : Database}

theorem empty : AgreeOn [] .empty (Database.migrate .empty) :=
  ⟨.empty, fun _ h => (nomatch h)⟩

theorem saveContext (h : AgreeOn known m d) (c : Context) :
    ∃ d', d.saveContext c = (.ok (), d') ∧ AgreeOn (known ++ [c.name]) (m.saveContext c) d' := by
  obtain ⟨d', hd, ha⟩ := h.agrees.saveContext c
  refine ⟨d', hd, ha, fun n hn => ?_⟩
  rw [MemoryStore.findContext, MemoryStore.saveContext, Table.get?_put]
  split
  · rfl
  · rename_i hne
    rcases List.mem_append.mp hn with hn | hn
    · exact h.known n hn
    · exact absurd (List.mem_singleton.mp hn).symm hne

theorem saveSession (h : AgreeOn known m d) {s : Session} (hc : s.context ∈ known) :
    d.saveSession s = (.ok (), d.stored s) ∧ AgreeOn known (m.saveSession s) (d.stored s) := by
  obtain ⟨hd, ha⟩ := h.agrees.saveSession (h.known _ hc)
  exact ⟨hd, ha, h.known⟩

theorem found (h : AgreeOn known m d) {n : String} (hn : (m.findContext n).isSome) :
    AgreeOn (known ++ [n]) m d := by
  refine ⟨h.agrees, fun x hx => ?_⟩
  rcases List.mem_append.mp hx with hx | hx
  · exact h.known x hx
  · rw [List.mem_singleton.mp hx]; exact hn

theorem seedContexts (h : AgreeOn known m d) (cs : List Context) :
    ∃ r m' d', (Store.memory m).seedContexts cs = (r, .memory m') ∧
      (Store.database d).seedContexts cs = (r, .database d') ∧
      AgreeOn (known ++ cs.map (·.name)) m' d' := by
  induction cs generalizing known m d with
  | nil => exact ⟨.ok 0, m, d, rfl, rfl, by rwa [List.map_nil, List.append_nil]⟩
  | cons c cs ih =>
    simp only [Store.seedContexts, Store.findContext, h.agrees.findContext, Store.lift_ok,
      List.map_cons]
    -- a context is known behind its turn, whether it was there before or is saved now
    rw [List.append_cons]
    cases hf : m.findContext c.name with
    | some x => exact ih (h.found (by rw [hf]; rfl))
    | none =>
      obtain ⟨d₁, hd, h₁⟩ := h.saveContext c
      obtain ⟨r, m', d', hm', hd', h'⟩ := ih h₁
      refine ⟨r.map (· + 1), m', d', ?_, ?_, h'⟩
      · simp only [Store.saveContext, hm']
      · simp only [Store.saveContext, hd, Store.lift_ok, hd']

theorem seedSession (h : AgreeOn known m d) {k : SessionKey} (hc : k.context ∈ known) :
    ∃ r m' d', (Store.memory m).seedSession k = (r, .memory m') ∧
      (Store.database d).seedSession k = (r, .database d') ∧ AgreeOn known m' d' := by
  simp only [Store.seedSession, Store.findSession, h.agrees.findSession, Store.lift_ok]
  cases m.findSession k with
  | some x => exact ⟨_, m, d, rfl, rfl, h⟩
  | none =>
    obtain ⟨hd, h'⟩ := h.saveSession (s := k.newSession) hc
    refine ⟨.ok true, _, _, rfl, ?_, h'⟩
    simp only [Store.saveSession, hd, Store.lift_ok, Except.map]

theorem follow (h : AgreeOn known m d) {o : StoreOrder} (hp : ∀ c ∈ o.parent?, c ∈ known) :
    ∃ a m' d', (Store.memory m).follow o = (a, .memory m') ∧
      (Store.database d).follow o = (a, .database d') ∧ AgreeOn (known ++ o.contexts) m' d' := by
  cases o with
  | findContext n =>
    refine ⟨.context (.ok (m.findContext n)), m, d, rfl, ?_, by simpa [StoreOrder.contexts] using h⟩
    simp only [Store.follow, Store.findContext, h.agrees.findContext]
    rfl
  | saveContext c =>
    obtain ⟨d', hd, h'⟩ := h.saveContext c
    refine ⟨.done (.ok ()), m.saveContext c, d', rfl, ?_, h'⟩
    simp only [Store.follow, Store.saveContext, hd]
    rfl
  | findSessions c =>
    refine ⟨.sessions (.ok (m.findSessions c)), m, d, rfl, ?_, by simpa [StoreOrder.contexts] using h⟩
    simp only [Store.follow, Store.findSessions, h.agrees.findSessions]
    rfl
  | findSession k =>
    refine ⟨.session (.ok (m.findSession k)), m, d, rfl, ?_, by simpa [StoreOrder.contexts] using h⟩
    simp only [Store.follow, Store.findSession, h.agrees.findSession]
    rfl
  | saveSession s =>
    obtain ⟨hd, h'⟩ := h.saveSession (hp s.context rfl)
    refine ⟨.done (.ok ()), m.saveSession s, d.stored s, rfl, ?_,
      by simpa [StoreOrder.contexts] using h'⟩
    simp only [Store.follow, Store.saveSession, hd]
    rfl
  | seedContexts cs =>
    obtain ⟨r, m', d', hm, hd, h'⟩ := h.seedContexts cs
    exact ⟨.counted r, m', d', by rw [Store.follow, hm], by rw [Store.follow, hd], h'⟩
  | seedSession k =>
    obtain ⟨r, m', d', hm, hd, h'⟩ := h.seedSession (hp k.context rfl)
    refine ⟨.made r, m', d', by rw [Store.follow, hm], by rw [Store.follow, hd], ?_⟩
    simpa [StoreOrder.contexts] using h'
  | migrate =>
    refine ⟨.done (.ok ()), m, d, rfl, ?_, by simpa [StoreOrder.contexts] using h⟩
    simp only [Store.follow, Store.migrate, Database.upgrade_eq_migrate, h.agrees.migrate,
      Store.lift_ok]

theorem followAll (h : AgreeOn known m d) {os : List StoreOrder} (hg : Grounded known os) :
    ∃ as m' d', (Store.memory m).followAll os = (as, .memory m') ∧
      (Store.database d).followAll os = (as, .database d') ∧ Agrees m' d' := by
  induction os generalizing known m d with
  | nil => exact ⟨[], m, d, rfl, rfl, h.agrees⟩
  | cons o os ih =>
    obtain ⟨a, m₁, d₁, hm₁, hd₁, h₁⟩ := h.follow hg.1
    obtain ⟨as, m', d', hm', hd', h'⟩ := ih h₁ hg.2
    exact ⟨a :: as, m', d', by rw [Store.followAll, hm₁]; simp only [hm'],
      by rw [Store.followAll, hd₁]; simp only [hd'], h'⟩

end AgreeOn

/-- Whatever is asked of a store in memory and of a freshly migrated database, both give the same
answers. Both list the sessions of a context by ascending number, and a session looked up alone is
the one of its number in that list. -/
theorem answers_agree (os : List StoreOrder) (h : Grounded [] os) :
    ((Store.memory .empty).followAll os).1 =
        ((Store.database (Database.migrate .empty)).followAll os).1 ∧
      ∀ context, ∃ xs : List Session, xs.Pairwise (fun s t => s.id.val < t.id.val) ∧
        ∀ s ∈ [((Store.memory .empty).followAll os).2,
            ((Store.database (Database.migrate .empty)).followAll os).2],
          s.findSessions context = .ok xs ∧
            ∀ i, s.findSession ⟨context, i⟩ = .ok (xs.find? (·.id = i)) := by
  obtain ⟨as, m, d, hm, hd, ha⟩ := AgreeOn.empty.followAll h
  rw [hm, hd]
  refine ⟨rfl, fun context => ⟨m.findSessions context,
    MemoryStore.findSessions_ascending ha.keyed context, ?_⟩⟩
  intro s hs
  rcases List.mem_pair.mp hs with rfl | rfl
  · exact ⟨rfl, fun i => rfl⟩
  · refine ⟨?_, fun i => ?_⟩
    · simp only [Store.findSessions, ha.findSessions]
      rfl
    · simp only [Store.findSession, ha.findSession]
      rfl

/-- A session whose history gets shorter, beside one with the same number under another context. -/
def shrinkingRun : List StoreOrder :=
  let k (c : String) : SessionKey := ⟨c, ⟨-7, by decide, by decide⟩⟩
  [.saveContext ⟨"python", "/usr/bin/python3"⟩, .seedContexts [⟨"shell", "/bin/sh"⟩],
    .saveSession ⟨"python", (k "python").id, ["x = 1", "", "x = 1"]⟩, .seedSession (k "shell"),
    .saveSession ⟨"python", (k "python").id, ["y = 2"]⟩, .findSession (k "python"),
    .findSessions "shell"]

theorem answers_agree_shrinkingRun :
    Grounded [] shrinkingRun ∧ ((Store.memory .empty).followAll shrinkingRun).1 =
      ((Store.database (Database.migrate .empty)).followAll shrinkingRun).1 :=
  have h : Grounded [] shrinkingRun := by
    simp [Grounded, shrinkingRun, StoreOrder.parent?, StoreOrder.contexts]
  ⟨h, (answers_agree shrinkingRun h).1⟩

end CellReplay
