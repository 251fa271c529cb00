import CellReplay.Proofs.Store.Atomic
import CellReplay.Proofs.Store.Growth

/-!
# Proofs.Store.Consistent

The rows of a database fit together, whatever is asked of it and whatever goes wrong.

* `Database.Consistent` — the fragments of each session are numbered from 0 on, and every row has the
  row that it belongs to.
* `consistent_stored`, `consistent_saveContext`, `consistent_migrate` — what changes rows keeps that.
* `Consistent.findSession` — a session reads as its fragments in the order of their positions, and
  there is no fragment that no session reads.
* `Incident`, `Store.undergo` — orders, saves that break down between two statements, and a demand
  that makes saves fail.
* `consistent_undergone` — a database is consistent after any of this.
-/

namespace CellReplay

namespace Database

/-- The positions of a session's fragments. -/
def positionsOf (d : Database) (k : SessionKey) : List Nat :=
  ((d.history.getD []).filter (·.key = k)).map (·.position)

structure Consistent (d : Database) : Prop where
  tables : d.HasSessionTables
  /-- Every position from 0 on up to the last is there, once. -/
  positions : ∀ k, (d.positionsOf k).Perm (List.range (d.positionsOf k).length)
  /-- Every fragment belongs to a session. -/
  owners : ∀ r ∈ d.history.getD [], r.key ∈ d.sessions.getD []
  /-- Every session belongs to a context. -/
  parents : ∀ k ∈ d.sessions.getD [], k.context ∈ (d.contexts.getD []).map (·.name)
  keys : (d.sessions.getD []).Nodup
  names : ((d.contexts.getD []).map (·.name)).Nodup

variable {d d' : Database}

/-- It depends on three tables only. -/
theorem Consistent.congr (h : d.Consistent) (hc : d'.contexts = d.contexts)
    (hs : d'.sessions = d.sessions) (hr : d'.history = d.history) : d'.Consistent where
  tables := ⟨hc ▸ h.tables.contexts, hs ▸ h.tables.sessions, hr ▸ h.tables.history⟩
  positions k := by
    rw [positionsOf, hr]
    exact h.positions k
  owners := by
    rw [hs, hr]
    exact h.owners
  parents := by
    rw [hc, hs]
    exact h.parents
  keys := by
    rw [hs]
    exact h.keys
  names := by
    rw [hc]
    exact h.names

theorem consistent_fresh : (migrate .empty).Consistent where
  tables := ⟨rfl, rfl, rfl⟩
  positions _ := .refl _
  owners _ h := nomatch h
  parents _ h := nomatch h
  keys := .nil
  names := .nil

/-! ## Sessions -/

theorem stored_sessions {keys : List SessionKey} (hs : d.sessions = some keys) (s : Session) :
    (d.stored s).sessions = some (if s.key ∈ keys then keys else keys ++ [s.key]) := by
  rw [stored, hs, Option.map_some]

theorem stored_history {rows : List FragmentRow} (hr : d.history = some rows) (s : Session) :
    (d.stored s).history =
      some (rows.filter (·.key ≠ s.key) ++ fragmentRows s.key 0 s.history) := by
  rw [stored, hr, Option.map_some]

/-- A session that has been saved is numbered from 0 on, and the others are as they were. -/
theorem positionsOf_stored (h : d.history.isSome) (s : Session) (k : SessionKey) :
    (d.stored s).positionsOf k =
      if k = s.key then List.range s.history.length else d.positionsOf k := by
  obtain ⟨rows, hrows⟩ := Option.isSome_iff_exists.mp h
  rw [positionsOf, positionsOf, stored_history hrows, hrows, Option.getD_some, Option.getD_some]
  by_cases hk : k = s.key
  · rw [if_pos hk, hk, filter_key_own, map_position_fragmentRows, List.range_eq_range']
  · rw [if_neg hk, filter_key_other rows s.history hk]

/-- Under a context that is there, a session is stored without harm. -/
theorem consistent_stored (h : d.Consistent) {s : Session}
    (hc : s.context ∈ (d.contexts.getD []).map (·.name)) : (d.stored s).Consistent := by
  obtain ⟨keys, hkeys⟩ := Option.isSome_iff_exists.mp h.tables.sessions
  obtain ⟨rows, hrows⟩ := Option.isSome_iff_exists.mp h.tables.history
  have howners := h.owners
  have hparents := h.parents
  have hnodup := h.keys
  rw [hkeys, hrows, Option.getD_some, Option.getD_some] at howners
  rw [hkeys, Option.getD_some] at hparents hnodup
  have hs := stored_sessions hkeys s
  have hr := stored_history hrows s
  refine ⟨⟨h.tables.contexts, by rw [hs]; rfl, by rw [hr]; rfl⟩, fun k => ?_, ?_, ?_, ?_, h.names⟩
  · rw [positionsOf_stored h.tables.history]
    split
    · rw [List.length_range]
    · exact h.positions k
  · rw [hs, hr, Option.getD_some, Option.getD_some]
    intro r hrow
    rw [mem_stored_keys]
    rcases List.mem_append.mp hrow with hold | hnew
    · exact .inr (howners r (List.mem_filter.mp hold).1)
    · exact .inl (key_of_mem_fragmentRows hnew)
  · rw [hs, Option.getD_some]
    intro k hk
    rcases mem_stored_keys.mp hk with rfl | hold
    · exact hc
    · exact hparents k hold
  · rw [hs, Option.getD_some]
    exact nodup_stored_keys hnodup s.key

theorem insertSession_parent {k : SessionKey} (h : d.insertSession k = .ok d') :
    k ∈ d.sessions.getD [] ∨ k.context ∈ (d.contexts.getD []).map (·.name) := by
  unfold insertSession need at h
  cases hs : d.sessions with
  | none => rw [hs] at h; cases h
  | some keys =>
    rw [hs] at h
    cases hc : d.contexts with
    | none => rw [hc] at h; cases h
    | some parents =>
      rw [hc] at h
      simp only [bind, Except.bind] at h
      split at h
      · next hk => exact .inl hk
      · split at h
        · next hany =>
          obtain ⟨c, hmem, hname⟩ := List.any_eq_true.mp hany
          exact .inr (List.mem_map.mpr ⟨c, hmem, of_decide_eq_true hname⟩)
        · cases h

/-- A session that can be saved belongs to a context that is there. -/
theorem Consistent.context_of_saved (h : d.Consistent) {s : Session}
    (hs : saveStatements s d = .ok d') : s.context ∈ (d.contexts.getD []).map (·.name) := by
  unfold saveStatements at hs
  cases h₁ : d.insertSession s.key with
  | error e => rw [h₁] at hs; cases hs
  | ok d₁ =>
    rcases insertSession_parent h₁ with hold | hnew
    · exact h.parents s.key hold
    · exact hnew

theorem consistent_saveSession (h : d.Consistent) (s : Session) :
    (d.saveSession s).2.Consistent := by
  rw [saveSession, transaction]
  cases hs : saveStatements s d with
  | error e => exact h
  | ok d₁ =>
    obtain ⟨-, rfl⟩ := saveStatements_eq_stored hs
    exact consistent_stored h (h.context_of_saved hs)

/-- A save that breaks down in front of the statement with number `n`, for a reason that lies in no
row. -/
def saveBroken (d : Database) (s : Session) (n : Nat) (e : DatabaseError) :
    Except DatabaseError Unit × Database :=
  d.transaction fun d => do
    let _ ← (s.statements.take n).foldlM SaveStatement.run d
    throw e

/-- Whatever its statements had done by then is undone. -/
theorem saveBroken_eq (d : Database) (s : Session) (n : Nat) (e : DatabaseError) :
    ∃ e', d.saveBroken s n e = (.error e', d) := by
  rw [saveBroken, transaction]
  cases (s.statements.take n).foldlM SaveStatement.run d with
  | error e' => exact ⟨e', rfl⟩
  | ok d' => exact ⟨e, rfl⟩

/-! ## Contexts and tables -/

theorem names_upserted (rows : List Context) (c : Context) :
    (if rows.any (·.name = c.name) then rows.map fun r => if r.name = c.name then c else r
      else rows ++ [c]).map (·.name) =
      if c.name ∈ rows.map (·.name) then rows.map (·.name) else rows.map (·.name) ++ [c.name] := by
  have hany : rows.any (·.name = c.name) = true ↔ c.name ∈ rows.map (·.name) := by
    simp [List.any_eq_true]
  by_cases hc : c.name ∈ rows.map (·.name)
  · rw [if_pos (hany.mpr hc), if_pos hc, List.map_map]
    refine List.map_congr_left fun r _ => ?_
    rw [Function.comp_apply]
    split
    · next hr => exact hr.symm
    · rfl
  · rw [if_neg (mt hany.mp hc), if_neg hc, List.map_append, List.map_singleton]

/-- A context that is saved takes no name away and adds none twice. -/
theorem consistent_saveContext (h : d.Consistent) (c : Context) :
    (d.saveContext c).2.Consistent := by
  rw [saveContext, transaction]
  cases hu : d.upsertContext c with
  | error e => exact h
  | ok d' =>
    obtain ⟨rows, hrows, rfl⟩ := upsertContext_ok hu
    have hparents := h.parents
    have hnames := h.names
    rw [hrows, Option.getD_some] at hparents hnames
    refine ⟨⟨rfl, h.tables.sessions, h.tables.history⟩, h.positions, h.owners, fun k hk => ?_, h.keys, ?_⟩
    · rw [Option.getD_some, names_upserted]
      split
      · exact hparents k hk
      · exact List.mem_append_left _ (hparents k hk)
    · rw [Option.getD_some, names_upserted]
      split
      · exact hnames
      · next hc =>
        refine List.nodup_append.mpr ⟨hnames, List.nodup_singleton _, fun a ha b hb => ?_⟩
        rw [List.mem_singleton.mp hb]
        rintro rfl
        exact hc ha

/-- The tables are there, so an upgrade can only record a version. -/
theorem consistent_migrate (h : d.Consistent) : d.migrate.Consistent := by
  have hkeeps := keeps_migrate d
  obtain ⟨contexts, hc⟩ := Option.isSome_iff_exists.mp h.tables.contexts
  obtain ⟨keys, hs⟩ := Option.isSome_iff_exists.mp h.tables.sessions
  obtain ⟨rows, hr⟩ := Option.isSome_iff_exists.mp h.tables.history
  refine h.congr ?_ ?_ ?_
  · rw [hkeeps.contexts contexts hc, hc]
  · rw [hkeeps.sessions keys hs, hs]
  · rw [hkeeps.history rows hr, hr]

theorem consistent_requireUniqueFragments (h : d.Consistent) :
    d.requireUniqueFragments.Consistent := by
  unfold requireUniqueFragments
  split
  · exact h.congr rfl rfl rfl
  · exact h

/-! ## Reading -/

/-- Put in order, the fragments of a session stand in their positions. -/
theorem Consistent.sorted_positions (h : d.Consistent) {rows : List FragmentRow}
    (hr : d.history = some rows) (k : SessionKey) :
    (Text.sortBy inOrder (rows.filter (·.key = k))).map (·.position) =
      List.range (d.positionsOf k).length := by
  have hpositions := h.positions k
  rw [positionsOf, hr, Option.getD_some] at hpositions ⊢
  have hperm := ((Text.sortBy_perm inOrder (rows.filter (·.key = k))).map (·.position)).trans hpositions
  have hordered : ((Text.sortBy inOrder (rows.filter (·.key = k))).map (·.position)).Pairwise
      fun i j => i ≤ j := by
    refine List.pairwise_map.mpr
      ((Text.sortBy_pairwise (rows.filter (·.key = k))).imp_of_mem fun {a b} ha hb hab => ?_)
    have hkey {r : FragmentRow} (hmem : r ∈ Text.sortBy inOrder (rows.filter (·.key = k))) :
        r.key = k := of_decide_eq_true (List.mem_filter.mp (Text.mem_sortBy.mp hmem)).2
    rw [inOrder_iff, hkey ha, hkey hb] at hab
    rcases hab with hlt | hle
    · exact absurd hlt (lt_irrefl _)
    · exact hle.2
  exact List.Perm.eq_of_pairwise (fun _ _ _ _ => Nat.le_antisymm) hordered List.pairwise_le_range hperm

/-- A session reads as its fragments, each in its position, and every fragment is read like that. -/
theorem Consistent.findSession (h : d.Consistent) {k : SessionKey} (hk : k ∈ d.sessions.getD []) :
    ∃ x, d.findSession k = .ok (some x) ∧
      ∀ i f, x.history[i]? = some f ↔ ⟨k, i, f⟩ ∈ d.history.getD [] := by
  obtain ⟨keys, hs⟩ := Option.isSome_iff_exists.mp h.tables.sessions
  obtain ⟨rows, hr⟩ := Option.isSome_iff_exists.mp h.tables.history
  rw [hs, Option.getD_some] at hk
  refine ⟨⟨k.context, k.id, fragmentsIn rows k⟩, by rw [findSession_eq hs hr, if_pos hk], fun i f => ?_⟩
  have hsorted := h.sorted_positions hr k
  rw [hr, Option.getD_some]
  change (fragmentsIn rows k)[i]? = some f ↔ _
  rw [fragmentsIn, List.getElem?_map]
  have hmem {r : FragmentRow} : r ∈ Text.sortBy inOrder (rows.filter (·.key = k)) ↔
      r ∈ rows ∧ r.key = k := by
    rw [Text.mem_sortBy, List.mem_filter, decide_eq_true_eq]
  generalize Text.sortBy inOrder (rows.filter (·.key = k)) = sorted at hsorted hmem ⊢
  have hposition {j : Nat} {r : FragmentRow} (hj : sorted[j]? = some r) : r.position = j := by
    have hrange : (sorted.map (·.position))[j]? = some r.position := by
      rw [List.getElem?_map, hj, Option.map_some]
    rw [hsorted] at hrange
    obtain ⟨_, hj⟩ := List.getElem?_eq_some_iff.mp hrange
    rw [← hj, List.getElem_range]
  constructor
  · intro hf
    obtain ⟨r, hi, rfl⟩ := Option.map_eq_some_iff.mp hf
    obtain ⟨hrow, rfl⟩ := hmem.mp (List.mem_of_getElem? hi)
    obtain rfl := hposition hi
    exact hrow
  · intro hrow
    obtain ⟨j, hj⟩ := List.mem_iff_getElem?.mp (hmem.mpr ⟨hrow, rfl⟩)
    obtain rfl : i = j := hposition hj
    rw [hj, Option.map_some]

end Database

/-! ## Runs -/

/-- What can happen to a store. An order that breaks down outside a save has done nothing, or it has
been a shorter order. -/
inductive Incident
  /-- An order is followed, whether it goes through or fails. -/
  | order (o : StoreOrder)
  /-- A save breaks down in front of one of its statements. -/
  | breakdown (x : Session) (n : Nat) (e : DatabaseError)
  /-- No fragment may be stored twice from now on, so that saves may fail at any fragment. -/
  | uniqueness

namespace Store

def undergo (s : Store) : Incident → Store
  | .order o => (s.follow o).2
  | .breakdown x n e =>
    match s with
    | database d => database (d.saveBroken x n e).2
    | s => s
  | .uniqueness =>
    match s with
    | database d => database d.requireUniqueFragments
    | s => s

/-- The store is a database whose rows fit together. -/
def IsConsistent (s : Store) : Prop := ∃ d, s = database d ∧ d.Consistent

variable {s : Store}

theorem isConsistent_saveContext (h : s.IsConsistent) (c : Context) :
    (s.saveContext c).2.IsConsistent := by
  obtain ⟨d, rfl, hd⟩ := h
  exact ⟨(d.saveContext c).2, rfl, Database.consistent_saveContext hd c⟩

theorem isConsistent_saveSession (h : s.IsConsistent) (x : Session) :
    (s.saveSession x).2.IsConsistent := by
  obtain ⟨d, rfl, hd⟩ := h
  exact ⟨(d.saveSession x).2, rfl, Database.consistent_saveSession hd x⟩

theorem isConsistent_seedContexts (h : s.IsConsistent) (cs : List Context) :
    (s.seedContexts cs).2.IsConsistent := by
  induction cs generalizing s with
  | nil => exact h
  | cons c cs ih =>
    unfold seedContexts
    split
    · exact h
    · exact ih h
    · have hsaved := isConsistent_saveContext h c
      split
      · next hsave => rwa [hsave] at hsaved
      · next hsave =>
        rw [hsave] at hsaved
        exact ih hsaved

theorem isConsistent_seedSession (h : s.IsConsistent) (k : SessionKey) :
    (s.seedSession k).2.IsConsistent := by
  unfold seedSession
  split
  · exact h
  · exact h
  · exact isConsistent_saveSession h k.newSession

theorem isConsistent_migrate (h : s.IsConsistent) : s.migrate.2.IsConsistent := by
  obtain ⟨d, rfl, hd⟩ := h
  rw [migrate, Database.upgrade_eq_migrate]
  exact ⟨d.migrate, rfl, Database.consistent_migrate hd⟩

theorem isConsistent_follow (h : s.IsConsistent) (o : StoreOrder) : (s.follow o).2.IsConsistent := by
  cases o with
  | findContext n => exact h
  | saveContext c => exact isConsistent_saveContext h c
  | findSessions c => exact h
  | findSession k => exact h
  | saveSession x => exact isConsistent_saveSession h x
  | seedContexts cs => exact isConsistent_seedContexts h cs
  | seedSession k => exact isConsistent_seedSession h k
  | migrate => exact isConsistent_migrate h

theorem isConsistent_undergo (h : s.IsConsistent) (i : Incident) : (s.undergo i).IsConsistent := by
  cases i with
  | order o => exact isConsistent_follow h o
  | breakdown x n e =>
    obtain ⟨d, rfl, hd⟩ := h
    obtain ⟨e', hbroken⟩ := Database.saveBroken_eq d x n e
    exact ⟨d, by rw [undergo, hbroken], hd⟩
  | uniqueness =>
    obtain ⟨d, rfl, hd⟩ := h
    exact ⟨d.requireUniqueFragments, rfl, Database.consistent_requireUniqueFragments hd⟩

theorem isConsistent_undergone (h : s.IsConsistent) (is : List Incident) :
    (is.foldl undergo s).IsConsistent := by
  induction is generalizing s with
  | nil => exact h
  | cons i is ih => exact ih (isConsistent_undergo h i)

end Store

/-- Whatever is asked of a database since its tables were made, and however many saves have failed or
broken down: the fragments of each session are numbered from 0 on without a gap and without a second
one at any number, every fragment belongs to a session, and every session to a context. So a session
reads as its fragments, all of them and no others, in their order. -/
theorem consistent_undergone (is : List Incident) :
    ∃ d, is.foldl Store.undergo (.database (Database.migrate .empty)) = .database d ∧ d.Consistent ∧
      ∀ k ∈ d.sessions.getD [], ∃ x, d.findSession k = .ok (some x) ∧
        ∀ i f, x.history[i]? = some f ↔ ⟨k, i, f⟩ ∈ d.history.getD [] := by
  obtain ⟨d, hd, hconsistent⟩ :=
    Store.isConsistent_undergone ⟨_, rfl, Database.consistent_fresh⟩ is
  exact ⟨d, hd, hconsistent, fun k hk => hconsistent.findSession hk⟩

def troubledKey : SessionKey := ⟨"python", ⟨11, by decide, by decide⟩⟩

/-- A save breaks down behind its first new fragment, one finds its second fragment taken, and one has no
context. -/
def troubledRun : List Incident :=
  let other : SessionId := ⟨-5, by decide, by decide⟩
  [.order (.saveContext ⟨"python", "/usr/bin/python3"⟩),
    .order (.saveSession ⟨"python", troubledKey.id, ["x = 1", "", "y = 2"]⟩),
    .order (.saveSession ⟨"python", troubledKey.id, ["x = 1", "y = 2"]⟩),
    .breakdown ⟨"python", troubledKey.id, ["z = 3", "z"]⟩ 3 .closed, .uniqueness,
    .order (.saveSession ⟨"python", other, ["n = 0", "y = 2"]⟩),
    .order (.saveSession ⟨"shell", other, []⟩), .order .migrate,
    .order (.seedSession ⟨"python", other⟩)]

theorem consistent_undergone_troubled :
    ∃ d x, troubledRun.foldl Store.undergo (.database (Database.migrate .empty)) = .database d ∧
      d.Consistent ∧
      d.history = some [⟨troubledKey, 0, "x = 1"⟩, ⟨troubledKey, 1, "y = 2"⟩] ∧
      d.findSession troubledKey = .ok (some x) ∧ x.history[1]? = some "y = 2" := by
  obtain ⟨d, hd, hconsistent, hread⟩ := consistent_undergone troubledRun
  have hrows : d.history = some [⟨troubledKey, 0, "x = 1"⟩, ⟨troubledKey, 1, "y = 2"⟩] := by
    cases hd
    rfl
  have hmem : troubledKey ∈ d.sessions.getD [] := by
    cases hd
    decide
  obtain ⟨x, hx, hfragments⟩ := hread troubledKey hmem
  exact ⟨d, x, hd, hconsistent, hrows, hx, (hfragments 1 "y = 2").mpr (by rw [hrows]; decide)⟩

end CellReplay
