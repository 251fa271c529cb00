import CellReplay.Proofs.Store.Rows

/-!
# Proofs.Store.Atomic

A session is saved as a whole or not at all.

* `SaveStatement`, `statementsOf` — the statements that save a session, one for each fragment.
* `saveStatements_eq`             — saving runs them one after the other.
* `foldlM_eq_error_iff`           — such a run fails if one of them fails on what those before it made.
* `saveSession_atomic`            — whichever fails, no row has changed; if none fails, the session is
  stored as it was given, and nothing else has changed.
-/

namespace CellReplay

/-- A statement by which a session is saved. -/
inductive SaveStatement
  | insertSession (k : SessionKey)
  | deleteFragments (k : SessionKey)
  | insertFragment (r : FragmentRow)
  deriving DecidableEq, Repr

namespace SaveStatement

def run (d : Database) : SaveStatement → Except DatabaseError Database
  | insertSession k => d.insertSession k
  | deleteFragments k => d.deleteFragments k
  | insertFragment r => d.insertFragment r

end SaveStatement

/-- The session's row, the end of its old fragments, and its fragments by position. -/
def Session.statements (s : Session) : List SaveStatement :=
  .insertSession s.key :: .deleteFragments s.key ::
    (fragmentRows s.key 0 s.history).map .insertFragment

/-- A run of steps fails where a step fails on what the steps before it have made. -/
theorem foldlM_eq_error_iff {α β ε : Type} {f : β → α → Except ε β} {xs : List α} {b : β} {e : ε} :
    xs.foldlM f b = .error e ↔
      ∃ before x after c, xs = before ++ x :: after ∧ before.foldlM f b = .ok c ∧
        f c x = .error e := by
  constructor
  · intro h
    induction xs generalizing b with
    | nil => cases h
    | cons x xs ih =>
      rw [List.foldlM_cons] at h
      cases hx : f b x with
      | error e' =>
        rw [hx] at h
        cases h
        exact ⟨[], x, xs, b, rfl, rfl, hx⟩
      | ok c =>
        rw [hx] at h
        obtain ⟨before, y, after, w, rfl, hw, hy⟩ := ih h
        refine ⟨x :: before, y, after, w, rfl, ?_, hy⟩
        rw [List.foldlM_cons, hx]
        exact hw
  · rintro ⟨before, x, after, c, rfl, hc, hx⟩
    rw [List.foldlM_append, hc]
    change (x :: after).foldlM f c = _
    rw [List.foldlM_cons, hx]
    rfl

namespace Database

theorem insertFragments_eq (d : Database) (k : SessionKey) (n : Nat) (fs : List String) :
    d.insertFragments k n fs =
      ((fragmentRows k n fs).map SaveStatement.insertFragment).foldlM SaveStatement.run d := by
  induction fs generalizing d n with
  | nil => rfl
  | cons f fs ih =>
    rw [insertFragments, fragmentRows, List.map_cons, List.foldlM_cons, SaveStatement.run]
    cases d.insertFragment ⟨k, n, f⟩ with
    | error e => rfl
    | ok d' => exact ih d' (n + 1)

theorem saveStatements_eq (d : Database) (s : Session) :
    saveStatements s d = s.statements.foldlM SaveStatement.run d := by
  rw [saveStatements, Session.statements, List.foldlM_cons, SaveStatement.run]
  cases d.insertSession s.key with
  | error e => rfl
  | ok d₁ =>
    change _ = List.foldlM SaveStatement.run d₁ _
    rw [List.foldlM_cons, SaveStatement.run]
    change (d₁.deleteFragments s.key >>= _) = _
    cases d₁.deleteFragments s.key with
    | error e => rfl
    | ok d₂ => exact insertFragments_eq d₂ s.key 0 s.history

/-- What is found once a session has been saved: the session as it was given, and all else as it was
before. -/
structure Saved (d d' : Database) (s : Session) : Prop where
  found : d'.findSession s.key = .ok (some s)
  others : ∀ k, k ≠ s.key → d'.findSession k = d.findSession k
  listed : ∀ context, ∃ xs xs', d.findSessions context = .ok xs ∧
    d'.findSessions context = .ok xs' ∧
      ∀ x, x ∈ xs' ↔ x = s ∧ context = s.context ∨ x ∈ xs ∧ x.key ≠ s.key
  contexts : d'.contexts = d.contexts
  versions : d'.versions = d.versions
  otherRows : d'.history.map (·.filter (·.key ≠ s.key)) = d.history.map (·.filter (·.key ≠ s.key))
  otherKeys : ∀ k, k ≠ s.key → (k ∈ d'.sessions.getD [] ↔ k ∈ d.sessions.getD [])

theorem mem_findSessions {d : Database} {keys : List SessionKey} {rows : List FragmentRow}
    (hs : d.sessions = some keys) (hr : d.history = some rows) (context : String) :
    ∃ xs, d.findSessions context = .ok xs ∧
      ∀ x, x ∈ xs ↔ x.context = context ∧ x.key ∈ keys ∧ x.history = fragmentsIn rows x.key :=
  mem_findSessionsIn hs hr context

theorem findSessions_stored {d : Database} (h : d.HasSessionTables) (s : Session)
    (context : String) :
    ∃ xs xs', d.findSessions context = .ok xs ∧ (d.stored s).findSessions context = .ok xs' ∧
      ∀ x, x ∈ xs' ↔ x = s ∧ context = s.context ∨ x ∈ xs ∧ x.key ≠ s.key := by
  obtain ⟨keys, hkeys⟩ := Option.isSome_iff_exists.mp h.sessions
  obtain ⟨rows, hrows⟩ := Option.isSome_iff_exists.mp h.history
  have hs : (d.stored s).sessions = some (if s.key ∈ keys then keys else keys ++ [s.key]) := by
    rw [stored, hkeys]; rfl
  have hr : (d.stored s).history =
      some (rows.filter (·.key ≠ s.key) ++ fragmentRows s.key 0 s.history) := by
    rw [stored, hrows]; rfl
  obtain ⟨xs, hxs, hmem⟩ := mem_findSessions hkeys hrows context
  obtain ⟨xs', hxs', hmem'⟩ := mem_findSessions hs hr context
  refine ⟨xs, xs', hxs, hxs', fun x => ?_⟩
  rw [hmem, hmem', mem_stored_keys]
  by_cases hk : x.key = s.key
  · -- of the saved session's key there is the saved session only
    have hx : x.history = s.history ↔ x = s := by
      obtain ⟨hc, hi⟩ := SessionKey.mk.inj hk
      refine ⟨fun hh => ?_, fun hxs => by rw [hxs]⟩
      cases x
      cases s
      simp only at hc hi hh
      rw [hc, hi, hh]
    rw [hk, fragmentsIn_own, hx]
    constructor
    · rintro ⟨hc, -, rfl⟩
      exact .inl ⟨rfl, hc.symm⟩
    · rintro (⟨rfl, hc⟩ | ⟨-, hne⟩)
      · exact ⟨hc.symm, .inl rfl, rfl⟩
      · exact absurd rfl hne
  · have hx : x ≠ s := fun hxs => hk (by rw [hxs])
    simp only [hk, fragmentsIn_other rows s.history hk, hx, false_or, false_and, ne_eq,
      not_false_eq_true, and_true]

theorem saved_stored {d : Database} (h : d.HasSessionTables) (s : Session) :
    d.Saved (d.stored s) s where
  found := by rw [findSession_stored h, if_pos rfl]
  others k hk := by rw [findSession_stored h, if_neg hk]
  listed := findSessions_stored h s
  contexts := rfl
  versions := rfl
  otherRows := by
    rw [stored, Option.map_map]
    refine congrArg (Option.map · d.history) (funext fun rows => ?_)
    have hnew : (fragmentRows s.key 0 s.history).filter (·.key ≠ s.key) = [] := by
      rw [List.filter_eq_nil_iff]
      intro r hr
      simp [key_of_mem_fragmentRows hr]
    rw [Function.comp_apply, List.filter_append, hnew, List.append_nil, List.filter_filter]
    simp only [Bool.and_self]
  otherKeys k hk := by
    rw [stored]
    cases d.sessions with
    | none => rfl
    | some keys =>
      simp only [Option.map_some, Option.getD_some, mem_stored_keys, hk, false_or]

/-- Saving a session fails where one of its statements fails on what those before it have made, and
then the database is as it was before the first. If none fails, the session is stored as it was given,
and everything else is as it was. -/
theorem saveSession_atomic (d : Database) (s : Session) :
    (∀ e d', d.saveSession s = (.error e, d') ↔ d' = d ∧
      ∃ before x after w, s.statements = before ++ x :: after ∧
        before.foldlM SaveStatement.run d = .ok w ∧ x.run w = .error e) ∧
    ∀ d', d.saveSession s = (.ok (), d') → d.Saved d' s := by
  refine ⟨fun e d' => ?_, fun d' h => ?_⟩
  · rw [← foldlM_eq_error_iff, ← saveStatements_eq, saveSession, transaction]
    cases saveStatements s d with
    | ok d₁ => simp
    | error e₁ => simp [and_comm, eq_comm]
  · rw [saveSession, transaction] at h
    cases hs : saveStatements s d with
    | ok d₁ =>
      rw [hs] at h
      cases h
      obtain ⟨htables, rfl⟩ := saveStatements_eq_stored hs
      exact saved_stored htables s
    | error e => rw [hs] at h; cases h

def crowdedKey : SessionKey := ⟨"python", ⟨8, by decide, by decide⟩⟩

/-- Two sessions of one fragment each, where no fragment may be stored twice. -/
def crowded : Database :=
  ⟨some [1], some [⟨"python", "/usr/bin/python3"⟩, ⟨"shell", "/bin/sh"⟩],
    some [crowdedKey, ⟨"shell", crowdedKey.id⟩],
    some [⟨crowdedKey, 0, "x = 1"⟩, ⟨⟨"shell", crowdedKey.id⟩, 0, "y = 2"⟩], true⟩

/-- The old fragment is gone and a new one is stored when the next is found to be taken. -/
theorem saveSession_atomic_crowded :
    crowded.saveSession ⟨"python", crowdedKey.id, ["z = 3", "y = 2"]⟩ =
        (.error .fragmentTaken, crowded) ∧
      ∃ d', crowded.saveSession ⟨"python", crowdedKey.id, ["z = 3"]⟩ = (.ok (), d') ∧
        crowded.Saved d' ⟨"python", crowdedKey.id, ["z = 3"]⟩ := by
  have hok : crowded.saveSession ⟨"python", crowdedKey.id, ["z = 3"]⟩ =
      (.ok (), crowded.stored ⟨"python", crowdedKey.id, ["z = 3"]⟩) := rfl
  refine ⟨((saveSession_atomic crowded _).1 _ _).mpr ⟨rfl, [_, _, _], _, [], _, rfl, rfl, rfl⟩,
    _, hok, (saveSession_atomic crowded _).2 _ hok⟩

end Database

end CellReplay
