import CellReplay.Proofs.Text.Sorting
import CellReplay.Store.Database

/-!
# Proofs.Store.Rows

What the statements that save a session make of the rows of a database.

* `Database.stored`              — the database with the rows of one session in place of its old ones.
* `saveStatements_eq_stored`     — statements that succeed lead to `stored` and to nothing else.
* `saveSession_ok`, `saveSession_error` — a save has stored the session, or has changed nothing.
* `saveStatements_ok`            — they succeed on tables that are there, under a known context.
* `findSessionIn_eq`, `findSessionsIn_eq` — what the two steps of a read give.
* `findSession_stored`           — a read after `stored` gives the session that was saved, and all
  others as before.
-/

namespace CellReplay

/-- The rows of a session's fragments, numbered from `position` on. -/
def fragmentRows (k : SessionKey) : Nat → List String → List FragmentRow
  | _, [] => []
  | position, f :: fs => ⟨k, position, f⟩ :: fragmentRows k (position + 1) fs

theorem key_of_mem_fragmentRows {k : SessionKey} {n : Nat} {fs : List String} {r : FragmentRow}
    (h : r ∈ fragmentRows k n fs) : r.key = k := by
  induction fs generalizing n with
  | nil => cases h
  | cons f fs ih =>
    rcases List.mem_cons.mp h with rfl | h
    · rfl
    · exact ih h

theorem le_position_of_mem_fragmentRows {k : SessionKey} {n : Nat} {fs : List String}
    {r : FragmentRow} (h : r ∈ fragmentRows k n fs) : n ≤ r.position := by
  induction fs generalizing n with
  | nil => cases h
  | cons f fs ih =>
    rcases List.mem_cons.mp h with rfl | h
    · exact le_refl _
    · exact Nat.le_of_succ_le (ih h)

theorem map_fragment_fragmentRows (k : SessionKey) (n : Nat) (fs : List String) :
    (fragmentRows k n fs).map (·.fragment) = fs := by
  induction fs generalizing n with
  | nil => rfl
  | cons f fs ih => simp only [fragmentRows, List.map_cons, ih]

theorem map_position_fragmentRows (k : SessionKey) (n : Nat) (fs : List String) :
    (fragmentRows k n fs).map (·.position) = List.range' n fs.length := by
  induction fs generalizing n with
  | nil => rfl
  | cons f fs ih => rw [fragmentRows, List.map_cons, ih, List.length_cons, List.range'_succ]

theorem inOrder_iff (a b : FragmentRow) :
    Database.inOrder a b = true ↔
      a.key.id.val < b.key.id.val ∨ (a.key.id.val = b.key.id.val ∧ a.position ≤ b.position) := by
  have hid : a.key.id = b.key.id ↔ a.key.id.val = b.key.id.val :=
    ⟨fun h => by rw [h], SessionId.eq_of_val⟩
  simp only [Database.inOrder, Bool.or_eq_true, Bool.and_eq_true, decide_eq_true_eq, hid]

instance inOrder_total : Std.Total fun a b => Database.inOrder a b = true := by
  constructor
  intro a b
  simp only [inOrder_iff]
  omega

instance inOrder_trans : IsTrans FragmentRow fun a b => Database.inOrder a b = true := by
  constructor
  intro a b c
  simp only [inOrder_iff]
  omega

theorem fragmentRows_inOrder (k : SessionKey) (n : Nat) (fs : List String) :
    (fragmentRows k n fs).Pairwise fun a b => Database.inOrder a b = true := by
  induction fs generalizing n with
  | nil => exact .nil
  | cons f fs ih =>
    refine List.pairwise_cons.mpr ⟨fun r hr => (inOrder_iff _ _).mpr (.inr ?_), ih (n + 1)⟩
    have hk := key_of_mem_fragmentRows hr
    have hp := le_position_of_mem_fragmentRows hr
    exact ⟨by rw [hk], Nat.le_of_succ_le hp⟩

namespace Database

def fragmentsIn (rows : List FragmentRow) (k : SessionKey) : List String :=
  (Text.sortBy inOrder (rows.filter (·.key = k))).map (·.fragment)

/-- The database with a session's rows in place of those it had. -/
def stored (d : Database) (s : Session) : Database :=
  { d with
    sessions := d.sessions.map fun keys => if s.key ∈ keys then keys else keys ++ [s.key]
    history := d.history.map fun rows =>
      rows.filter (·.key ≠ s.key) ++ fragmentRows s.key 0 s.history }

structure HasSessionTables (d : Database) : Prop where
  contexts : d.contexts.isSome
  sessions : d.sessions.isSome
  history : d.history.isSome

/-! ## The statements -/

theorem insertSession_ok {d d' : Database} {k : SessionKey} (h : d.insertSession k = .ok d') :
    d.contexts.isSome ∧ ∃ keys, d.sessions = some keys ∧
      d' = { d with sessions := some (if k ∈ keys then keys else keys ++ [k]) } := by
  unfold insertSession need at h
  cases hs : d.sessions with
  | none => rw [hs] at h; cases h
  | some keys =>
    rw [hs] at h
    cases hc : d.contexts with
    | none => rw [hc] at h; cases h
    | some parents =>
      rw [hc] at h
      simp only [bind, Except.bind, pure, Except.pure] at h
      split at h
      · rename_i hk; cases h
        exact ⟨rfl, keys, rfl, by rw [if_pos hk, ← hs, ← hc]⟩
      · rename_i hk
        split at h
        · cases h; exact ⟨rfl, keys, rfl, by rw [if_neg hk]⟩
        · cases h

theorem deleteFragments_ok {d d' : Database} {k : SessionKey} (h : d.deleteFragments k = .ok d') :
    ∃ rows, d.history = some rows ∧ d' = { d with history := some (rows.filter (·.key ≠ k)) } := by
  unfold deleteFragments need at h
  cases hr : d.history with
  | none => rw [hr] at h; cases h
  | some rows => rw [hr] at h; cases h; exact ⟨rows, rfl, rfl⟩

theorem insertFragment_ok {d d' : Database} {r : FragmentRow} {rows : List FragmentRow}
    (hr : d.history = some rows) (h : d.insertFragment r = .ok d') :
    d' = { d with history := some (rows ++ [r]) } := by
  unfold insertFragment need at h
  rw [hr] at h
  simp only [bind, Except.bind, pure, Except.pure] at h
  split at h
  · cases h
  · split at h
    · cases h
    · split at h
      · cases h
      · split at h
        · cases h; rfl
        · cases h

theorem insertFragments_ok {d d' : Database} {k : SessionKey} {n : Nat} {fs : List String}
    {rows : List FragmentRow} (hr : d.history = some rows)
    (h : d.insertFragments k n fs = .ok d') :
    d' = { d with history := some (rows ++ fragmentRows k n fs) } := by
  induction fs generalizing d n rows with
  | nil =>
    cases h
    rw [fragmentRows, List.append_nil, ← hr]
  | cons f fs ih =>
    unfold insertFragments at h
    cases hi : d.insertFragment ⟨k, n, f⟩ with
    | error e => rw [hi] at h; cases h
    | ok d₁ =>
      rw [hi] at h
      have h₁ := insertFragment_ok hr hi
      subst h₁
      have h₂ := ih rfl h
      rw [h₂, fragmentRows, List.append_assoc, List.singleton_append]

theorem saveStatements_eq_stored {d d' : Database} {s : Session}
    (h : saveStatements s d = .ok d') : d.HasSessionTables ∧ d' = d.stored s := by
  unfold saveStatements at h
  cases h₁ : d.insertSession s.key with
  | error e => rw [h₁] at h; cases h
  | ok d₁ =>
    rw [h₁] at h
    obtain ⟨hc, keys, hkeys, rfl⟩ := insertSession_ok h₁
    simp only [bind, Except.bind] at h
    split at h
    · cases h
    · rename_i d₂ h₂
      obtain ⟨rows, hrows, rfl⟩ := deleteFragments_ok h₂
      have hrows : d.history = some rows := hrows
      have h₃ := insertFragments_ok rfl h
      refine ⟨⟨hc, by rw [hkeys]; rfl, by rw [hrows]; rfl⟩, ?_⟩
      rw [h₃, stored, hkeys, hrows]
      rfl

theorem saveSession_ok {d d' : Database} {s : Session} (h : d.saveSession s = (.ok (), d')) :
    d.HasSessionTables ∧ d' = d.stored s := by
  rw [saveSession, transaction] at h
  cases hs : saveStatements s d with
  | error e => rw [hs] at h; cases h
  | ok d₁ =>
    rw [hs] at h
    cases h
    exact saveStatements_eq_stored hs

theorem saveSession_error {d d' : Database} {s : Session} {e : DatabaseError}
    (h : d.saveSession s = (.error e, d')) : d' = d := by
  rw [saveSession, transaction] at h
  split at h
  · cases h
  · cases h
    rfl

theorem insertFragments_free {d : Database} {k : SessionKey} {n : Nat} (fs : List String)
    {rows : List FragmentRow} {keys : List SessionKey} (hr : d.history = some rows)
    (hs : d.sessions = some keys) (hk : k ∈ keys) (hu : d.uniqueFragments = false)
    (hfree : ∀ r ∈ rows, r.key = k → r.position < n) :
    d.insertFragments k n fs = .ok { d with history := some (rows ++ fragmentRows k n fs) } := by
  induction fs generalizing d n rows with
  | nil => rw [insertFragments, fragmentRows, List.append_nil, ← hr]; rfl
  | cons f fs ih =>
    -- all rows of the session stand before `n`, so the row at `n` is new
    have hpos : (rows.any fun x => decide (x.key = k) && decide (x.position = n)) = false := by
      rw [List.any_eq_false]
      intro r hr hx
      simp only [Bool.and_eq_true, decide_eq_true_eq] at hx
      exact absurd hx.2 (Nat.ne_of_lt (hfree r hr hx.1))
    have hone : d.insertFragment ⟨k, n, f⟩ =
        .ok { d with history := some (rows ++ [⟨k, n, f⟩]) } := by
      simp [insertFragment, need, hr, hs, hk, hu, hpos, bind, Except.bind, pure, Except.pure]
    rw [insertFragments, hone]
    refine (ih (d := { d with history := some (rows ++ [⟨k, n, f⟩]) }) rfl hs hu ?_).trans ?_
    · intro r hr hrk
      rcases List.mem_append.mp hr with hr | hr
      · exact Nat.lt_succ_of_lt (hfree r hr hrk)
      · rw [List.mem_singleton.mp hr]; exact Nat.lt_succ_self n
    · rw [fragmentRows, List.append_assoc, List.singleton_append]

/-- Saving goes through if the tables are there, the session or its context is known, and nothing
forbids a fragment to be stored twice. -/
theorem saveStatements_ok {d : Database} {s : Session} {parents : List Context}
    (h : d.HasSessionTables) (hu : d.uniqueFragments = false) (hp : d.contexts = some parents)
    (hc : parents.any (·.name = s.context)) : saveStatements s d = .ok (d.stored s) := by
  obtain ⟨keys, hkeys⟩ := Option.isSome_iff_exists.mp h.sessions
  obtain ⟨rows, hrows⟩ := Option.isSome_iff_exists.mp h.history
  have h₁ : d.insertSession s.key =
      .ok { d with sessions := some (if s.key ∈ keys then keys else keys ++ [s.key]) } := by
    by_cases hk : s.key ∈ keys
    · simp [insertSession, need, hkeys, hp, hk, bind, Except.bind, pure, Except.pure]
      rw [← hkeys, ← hp]
    · have hc' : parents.any (fun x => decide (x.name = s.key.context)) = true := hc
      simp [insertSession, need, hkeys, hp, hk, hc', bind, Except.bind, pure, Except.pure]
  have hmem : s.key ∈ if s.key ∈ keys then keys else keys ++ [s.key] := by
    split
    · assumption
    · simp
  have h₃ := insertFragments_free s.history (k := s.key) (n := 0)
    (d := { d with
      sessions := some (if s.key ∈ keys then keys else keys ++ [s.key])
      history := some (rows.filter (·.key ≠ s.key)) }) rfl rfl hmem hu ?_
  · simp only [saveStatements, h₁, deleteFragments, need, hrows, bind, Except.bind, pure,
      Except.pure]
    rw [h₃, stored, hkeys, hrows]
    rfl
  · intro r hr hrk
    simp [hrk] at hr

/-! ## Reading back -/

/-- Among the rows of a session that has been saved there are its new ones only. -/
theorem filter_key_own (rows : List FragmentRow) (k : SessionKey) (fs : List String) :
    (rows.filter (·.key ≠ k) ++ fragmentRows k 0 fs).filter (·.key = k) = fragmentRows k 0 fs := by
  have hold : (rows.filter (·.key ≠ k)).filter (·.key = k) = [] := by
    rw [List.filter_filter, List.filter_eq_nil_iff]
    intro r _
    simp
  have hnew : (fragmentRows k 0 fs).filter (·.key = k) = fragmentRows k 0 fs := by
    rw [List.filter_eq_self]
    intro r hr
    simp [key_of_mem_fragmentRows hr]
  rw [List.filter_append, hold, hnew, List.nil_append]

/-- The rows of the other sessions are what they were. -/
theorem filter_key_other (rows : List FragmentRow) {j k : SessionKey} (fs : List String)
    (h : j ≠ k) : (rows.filter (·.key ≠ k) ++ fragmentRows k 0 fs).filter (·.key = j) =
      rows.filter (·.key = j) := by
  have hold : (rows.filter (·.key ≠ k)).filter (·.key = j) = rows.filter (·.key = j) := by
    rw [List.filter_filter]
    refine List.filter_congr fun r _ => ?_
    by_cases hr : r.key = j
    · simp [hr, h]
    · simp [hr]
  have hnew : (fragmentRows k 0 fs).filter (·.key = j) = [] := by
    rw [List.filter_eq_nil_iff]
    intro r hr
    simp [key_of_mem_fragmentRows hr, Ne.symm h]
  rw [List.filter_append, hold, hnew, List.append_nil]

theorem fragmentsIn_own (rows : List FragmentRow) (k : SessionKey) (fs : List String) :
    fragmentsIn (rows.filter (·.key ≠ k) ++ fragmentRows k 0 fs) k = fs := by
  rw [fragmentsIn, filter_key_own, Text.sortBy_eq_self (fragmentRows_inOrder k 0 fs),
    map_fragment_fragmentRows]

theorem fragmentsIn_other (rows : List FragmentRow) {j k : SessionKey} (fs : List String)
    (h : j ≠ k) :
    fragmentsIn (rows.filter (·.key ≠ k) ++ fragmentRows k 0 fs) j = fragmentsIn rows j := by
  rw [fragmentsIn, filter_key_other rows fs h, fragmentsIn]

/-- What a read in two steps gives: the session if it is there at the first, with the fragments that it
has at the second. -/
theorem findSessionIn_eq {d d' : Database} {keys : List SessionKey} {rows : List FragmentRow}
    (hs : d.sessions = some keys) (hr : d'.history = some rows) (k : SessionKey) :
    findSessionIn d d' k =
      .ok (if k ∈ keys then some ⟨k.context, k.id, fragmentsIn rows k⟩ else none) := by
  by_cases hk : k ∈ keys <;>
    simp [findSessionIn, hasSession, fragmentsOf, fragmentsIn, need, hs, hr, hk,
      bind, Except.bind, pure, Except.pure]

theorem findSession_eq {d : Database} {keys : List SessionKey} {rows : List FragmentRow}
    (hs : d.sessions = some keys) (hr : d.history = some rows) (k : SessionKey) :
    d.findSession k =
      .ok (if k ∈ keys then some ⟨k.context, k.id, fragmentsIn rows k⟩ else none) :=
  findSessionIn_eq hs hr k

/-- Reading all sessions of a context gives each the fragments that a read of it alone gives. -/
theorem findSessionsIn_eq {d d' : Database} {keys : List SessionKey} {rows : List FragmentRow}
    (hs : d.sessions = some keys) (hr : d'.history = some rows) (context : String) :
    findSessionsIn d d' context =
      .ok ((Text.sortBy (fun i j => decide (i.val ≤ j.val))
        ((keys.filter (·.context = context)).map (·.id))).map fun i =>
          ⟨context, i, fragmentsIn rows ⟨context, i⟩⟩) := by
  -- the rows of a context are sorted as one list, and picking a session out keeps their order
  have hrows (i : SessionId) :
      (Text.sortBy inOrder (rows.filter (·.key.context = context))).filter (·.key.id = i) =
        Text.sortBy inOrder (rows.filter (·.key = ⟨context, i⟩)) := by
    rw [Text.filter_sortBy, List.filter_filter]
    congr 1
    refine List.filter_congr fun r _ => ?_
    rcases r with ⟨⟨c, j⟩, n, f⟩
    simp only [SessionKey.mk.injEq, Bool.decide_and, Bool.and_comm]
  simp only [findSessionsIn, sessionIds, fragmentsOfContext, assemble, need, hs, hr,
    bind, Except.bind, pure, Except.pure, hrows, fragmentsIn]

theorem findSessions_eq {d : Database} {keys : List SessionKey} {rows : List FragmentRow}
    (hs : d.sessions = some keys) (hr : d.history = some rows) (context : String) :
    d.findSessions context =
      .ok ((Text.sortBy (fun i j => decide (i.val ≤ j.val))
        ((keys.filter (·.context = context)).map (·.id))).map fun i =>
          ⟨context, i, fragmentsIn rows ⟨context, i⟩⟩) :=
  findSessionsIn_eq hs hr context

theorem mem_findSessionsIn {d d' : Database} {keys : List SessionKey} {rows : List FragmentRow}
    (hs : d.sessions = some keys) (hr : d'.history = some rows) (context : String) :
    ∃ xs, findSessionsIn d d' context = .ok xs ∧
      ∀ x, x ∈ xs ↔ x.context = context ∧ x.key ∈ keys ∧ x.history = fragmentsIn rows x.key := by
  refine ⟨_, findSessionsIn_eq hs hr context, fun x => ?_⟩
  simp only [List.mem_map, Text.mem_sortBy, List.mem_filter, decide_eq_true_eq]
  constructor
  · rintro ⟨i, ⟨k, ⟨hk, rfl⟩, rfl⟩, rfl⟩
    exact ⟨rfl, hk, rfl⟩
  · rintro ⟨rfl, hk, hh⟩
    refine ⟨x.id, ⟨x.key, ⟨hk, rfl⟩, rfl⟩, ?_⟩
    rw [show (⟨x.context, x.id⟩ : SessionKey) = x.key from rfl, ← hh]

theorem sessionIds_ascending {keys : List SessionKey} (hn : keys.Nodup) (context : String) :
    (Text.sortBy (fun i j : SessionId => decide (i.val ≤ j.val))
      ((keys.filter (·.context = context)).map (·.id))).Pairwise fun i j => i.val < j.val := by
  refine Text.sortBy_ascending (f := SessionId.val) (List.pairwise_map.mpr ?_)
  refine (hn.sublist List.filter_sublist).imp_of_mem ?_
  intro j k hj hk hne hid
  have hjc : j.context = context := of_decide_eq_true (List.mem_filter.mp hj).2
  have hkc : k.context = context := of_decide_eq_true (List.mem_filter.mp hk).2
  refine hne ?_
  rcases j with ⟨c, i⟩
  rcases k with ⟨c', i'⟩
  simp only at hjc hkc hid
  rw [hjc, hkc, SessionId.eq_of_val hid]

theorem mem_stored_keys {keys : List SessionKey} {j k : SessionKey} :
    (j ∈ if k ∈ keys then keys else keys ++ [k]) ↔ j = k ∨ j ∈ keys := by
  split
  · rename_i hk
    constructor
    · exact .inr
    · rintro (rfl | h) <;> assumption
  · rw [List.mem_append, List.mem_singleton, or_comm]

theorem nodup_stored_keys {keys : List SessionKey} (h : keys.Nodup) (k : SessionKey) :
    (if k ∈ keys then keys else keys ++ [k]).Nodup := by
  split
  · exact h
  · next hk =>
    refine List.nodup_append.mpr ⟨h, List.nodup_singleton k, fun a ha b hb => ?_⟩
    rw [List.mem_singleton.mp hb]
    rintro rfl
    exact hk ha

/-- After a session has been saved, a read finds it, and finds all others as they were. -/
theorem findSession_stored {d : Database} (h : d.HasSessionTables) (s : Session) (k : SessionKey) :
    (d.stored s).findSession k = if k = s.key then .ok (some s) else d.findSession k := by
  obtain ⟨keys, hkeys⟩ := Option.isSome_iff_exists.mp h.sessions
  obtain ⟨rows, hrows⟩ := Option.isSome_iff_exists.mp h.history
  have hs : (d.stored s).sessions = some (if s.key ∈ keys then keys else keys ++ [s.key]) := by
    rw [stored, hkeys]; rfl
  have hr : (d.stored s).history =
      some (rows.filter (·.key ≠ s.key) ++ fragmentRows s.key 0 s.history) := by
    rw [stored, hrows]; rfl
  rw [findSession_eq hs hr, findSession_eq hkeys hrows]
  by_cases hk : k = s.key
  · subst hk
    rw [if_pos (mem_stored_keys.mpr (.inl rfl)), fragmentsIn_own, if_pos rfl]
    rfl
  · rw [fragmentsIn_other rows s.history hk, if_neg hk]
    simp only [mem_stored_keys, hk, false_or]

theorem findContext_stored (d : Database) (s : Session) (n : String) :
    (d.stored s).findContext n = d.findContext n := rfl

end Database

end CellReplay
