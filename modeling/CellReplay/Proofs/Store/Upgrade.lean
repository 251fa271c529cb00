import CellReplay.Store.Database
import Mathlib.Data.Int.Order.Basic
import Mathlib.Order.MinMax

/-!
# Proofs.Store.Upgrade

Bringing the tables of a database up to date does not fail and loses nothing, whatever tables are
missing and whatever versions are recorded.

* `currentVersion_lt_one_iff` — the highest version tells whether any version from 1 on is recorded.
* `initialSchema_eq`          — version 1 can be recorded where it is not recorded yet.
* `upgrade_eq_migrate`        — so an upgrade goes through, and `migrate` is what it leads to.
* `upgrade_conservative`      — all rows are kept; missing tables are made if no version from 1 on
  is recorded, else nothing is changed; a second upgrade changes nothing.
-/

namespace CellReplay.Database

theorem foldl_max_lt_iff (vs : List Int) (a b : Int) :
    vs.foldl max a < b ↔ a < b ∧ ∀ v ∈ vs, v < b := by
  induction vs generalizing a with
  | nil => simp
  | cons v vs ih => rw [List.foldl_cons, ih, max_lt_iff, List.forall_mem_cons, and_assoc]

theorem currentVersion_lt_one_iff (d : Database) :
    d.currentVersion < 1 ↔ ∀ v ∈ d.versions.getD [], v < 1 := by
  unfold currentVersion
  split
  · next h => simp [h]
  · next h => simp [h]
  · next v vs h => rw [foldl_max_lt_iff, h, Option.getD_some, List.forall_mem_cons]

theorem initialSchema_eq {d : Database} (h : 1 ∉ d.versions.getD []) :
    d.initialSchema = .ok { d with
      versions := some (d.versions.getD [] ++ [1])
      contexts := some (d.contexts.getD [])
      sessions := some (d.sessions.getD [])
      history := some (d.history.getD []) } := by
  simp [initialSchema, createTable, insertVersion, need, h, bind, Except.bind, pure, Except.pure]

theorem upgrade_eq_migrate (d : Database) : d.upgrade = (.ok (), d.migrate) := by
  unfold upgrade migrate
  split
  · next h =>
    -- version 1 is not recorded, because every recorded version is lower
    have hnew : 1 ∉ d.versions.getD [] := fun hm =>
      absurd ((currentVersion_lt_one_iff d).mp h 1 hm) (lt_irrefl 1)
    rw [transaction, initialSchema_eq hnew]
  · rfl

/-- Every row of every table is still there, in its place. -/
structure Keeps (d d' : Database) : Prop where
  versions : ∀ vs, d.versions = some vs → ∃ more, d'.versions = some (vs ++ more)
  contexts : ∀ rows, d.contexts = some rows → d'.contexts = some rows
  sessions : ∀ rows, d.sessions = some rows → d'.sessions = some rows
  history : ∀ rows, d.history = some rows → d'.history = some rows
  uniqueFragments : d'.uniqueFragments = d.uniqueFragments

theorem keeps_migrate (d : Database) : d.Keeps d.migrate := by
  unfold migrate
  split
  · exact ⟨fun vs h => ⟨[1], by rw [h]; rfl⟩, fun rows h => by rw [h]; rfl,
      fun rows h => by rw [h]; rfl, fun rows h => by rw [h]; rfl, rfl⟩
  · exact ⟨fun vs h => ⟨[], by rw [h, List.append_nil]⟩, fun _ h => h, fun _ h => h, fun _ h => h,
      rfl⟩

theorem migrate_of_recorded {d : Database} {v : Int} (hm : v ∈ d.versions.getD []) (hv : 1 ≤ v) :
    d.migrate = d := by
  refine if_neg fun h => ?_
  exact absurd ((currentVersion_lt_one_iff d).mp h v hm) (not_lt.mpr hv)

theorem migrate_of_unrecorded {d : Database} (h : ∀ v ∈ d.versions.getD [], v < 1) :
    d.migrate = { d with
      versions := some (d.versions.getD [] ++ [1])
      contexts := some (d.contexts.getD [])
      sessions := some (d.sessions.getD [])
      history := some (d.history.getD []) } :=
  if_pos ((currentVersion_lt_one_iff d).mpr h)

/-- Once the tables have been made, some version from 1 on is recorded. -/
theorem exists_recorded_migrate (d : Database) : ∃ v ∈ d.migrate.versions.getD [], 1 ≤ v := by
  by_cases h : ∀ v ∈ d.versions.getD [], v < 1
  · exact ⟨1, by rw [migrate_of_unrecorded h]; simp, le_refl 1⟩
  · obtain ⟨v, hm, hv⟩ : ∃ v ∈ d.versions.getD [], 1 ≤ v := by
      simpa only [not_forall, not_lt, exists_prop] using h
    exact ⟨v, by rwa [migrate_of_recorded hm hv], hv⟩

/-- An upgrade goes through on any database, with whatever tables missing and whatever versions
recorded, and keeps every row. If no version from 1 on is recorded, all tables are there afterwards
and version 1 is recorded behind the versions of before; else nothing has changed. A second upgrade
changes nothing. -/
theorem upgrade_conservative (d : Database) :
    ∃ d', d.upgrade = (.ok (), d') ∧ d.Keeps d' ∧
      ((∀ v ∈ d.versions.getD [], v < 1) →
        (∀ t, d'.hasTable t) ∧ d'.versions = some (d.versions.getD [] ++ [1])) ∧
      ((∃ v ∈ d.versions.getD [], 1 ≤ v) → d' = d) ∧
      d'.upgrade = (.ok (), d') := by
  refine ⟨d.migrate, upgrade_eq_migrate d, keeps_migrate d, fun h => ?_, ?_, ?_⟩
  · rw [migrate_of_unrecorded h]
    exact ⟨fun t => by cases t <;> rfl, rfl⟩
  · rintro ⟨v, hm, hv⟩
    exact migrate_of_recorded hm hv
  · obtain ⟨v, hm, hv⟩ := exists_recorded_migrate d
    rw [upgrade_eq_migrate, migrate_of_recorded hm hv]

end CellReplay.Database
