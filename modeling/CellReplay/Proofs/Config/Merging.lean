import CellReplay.Proofs.Config.Leaves

/-!
# Proofs.Config.Merging

Trees laid over one another. A tree that comes later says of each path that a text stands there, that
none does, or nothing; where it says nothing the path keeps what it had.

* `Tree.at?`, `Tree.scalarAt` — reading at a path, in a tree that is laid over others and in the
  result, where names are in lower case already.
* `Tree.merged` — a tree over what was there. All changes of a tree are of this form (`set_eq`,
  `setAt_eq_merged`).
* `Tree.verdict` — what a tree has to say of a path; `scalarAt_merged` is its meaning.
* `Tree.LeavesRoom` — the paths of which a tree says nothing.
* `Tree.laid` — texts at paths, laid over a tree one after the other.
-/

namespace CellReplay.Config.Tree

variable {kind : String → Prop} {t v : Tree} {es : List (String × Tree)} {path q : List String}
  {k text : String}

/-! ## Reading at a path -/

/-- Entries under their names in lower case. -/
def lowered (es : List (String × Tree)) : List (String × Tree) :=
  es.map fun e => (Text.lowercase e.1, e.2)

theorem lowered_cons (e : String × Tree) (es : List (String × Tree)) :
    lowered (e :: es) = (Text.lowercase e.1, e.2) :: lowered es := rfl

/-- The tree at a path, whose names are in lower case. -/
def at? : List String → Tree → Option Tree
  | [], t => some t
  | k :: ks, t => (lookup k (lowered t.entries)).bind (at? ks)

/-- The text at a path of a tree with names in lower case. -/
def scalarAt : List String → Tree → Option String
  | [], scalar s => some s
  | [], list => none
  | [], table _ => none
  | k :: ks, t => (lookup k t.entries).bind (scalarAt ks)

theorem mem_scalars_iff (h : Named kind id t) :
    (path, text) ∈ scalars t ↔ scalarAt path t = some text := by
  induction path generalizing t with
  | nil =>
    cases t with
    | scalar s => simp [scalars, scalarAt, eq_comm]
    | list => simp [scalars, scalarAt]
    | table es => simp [scalars, scalarAt, nil_notMem_scalarsOf]
  | cons k path ih =>
    cases h with
    | scalar s => simp [scalars, scalarAt, entries, lookup]
    | list => simp [scalars, scalarAt, entries, lookup]
    | table distinct names inside =>
      rw [scalars, cons_mem_scalarsOf, scalarAt, Option.bind_eq_some_iff]
      refine exists_congr fun v => ?_
      rw [entries, lookup_eq_some_iff distinct]
      exact and_congr_right fun he => ih (inside _ he)

/-! ## A tree over what was there -/

/-- A table is merged into the table that was there; anything else takes its place. -/
def merged : Tree → Option Tree → Tree
  | scalar s, _ => scalar s
  | list, _ => list
  | table es, old => setAll es (old.getD (table []))

theorem set_eq (name : String) (v root : Tree) : set name v root =
    root.put (Text.lowercase name) (merged v (lookup (Text.lowercase name) root.entries)) := by
  cases v <;> rw [set] <;> rfl

theorem setAll_cons (name : String) (v : Tree) (es : List (String × Tree)) (root : Tree) :
    setAll ((name, v) :: es) root = setAll es (set name v root) := by
  rw [setAll]

theorem setAll_nil (root : Tree) : setAll [] root = root := by
  rw [setAll]

theorem lookup_put (root : Tree) (name : String) (v : Tree) :
    lookup k (root.put name v).entries = if name = k then some v else lookup k root.entries :=
  lookup_replace name k v root.entries

/-- Each entry of a table goes over what the tree had under its name. -/
theorem lookup_setAll (h : (es.map fun e => Text.lowercase e.1).Nodup) (root : Tree) :
    lookup k (setAll es root).entries =
      ((lookup k (lowered es)).map fun v => merged v (lookup k root.entries)).or
        (lookup k root.entries) := by
  induction es generalizing root with
  | nil => rw [setAll_nil]; rfl
  | cons e es ih =>
    obtain ⟨name, v⟩ := e
    obtain ⟨hname, hes⟩ := List.nodup_cons.mp h
    rw [setAll_cons, ih hes, set_eq, lookup_put]
    by_cases hk : Text.lowercase name = k
    · -- no later entry has the name again, so the first one is all that changes it
      have hnone : lookup k (lowered es) = none := by
        rw [← Option.not_isSome_iff_eq_none, isSome_lookup_iff, lowered, List.map_map, ← hk]
        exact hname
      simp [lowered_cons, lookup, hk, hnone]
    · simp [lowered_cons, lookup, hk]

/-- What entries are laid over is a table afterwards, if there are any. -/
theorem scalarAt_nil_setAll (es : List (String × Tree)) (root : Tree) :
    scalarAt [] (setAll es root) = if es.isEmpty then scalarAt [] root else none := by
  induction es generalizing root with
  | nil => rw [setAll_nil]; rfl
  | cons e es ih =>
    rw [setAll_cons, ih, set_eq]
    cases es <;> rfl

/-! ## What a tree says of a path -/

inductive Verdict
  | stands (s : String)
  | nothing
  | silence
  deriving DecidableEq, Repr

def Verdict.outcome : Verdict → Option String → Option String
  | .stands s, _ => some s
  | .nothing, _ => none
  | .silence, old => old

theorem Verdict.outcome_eq_some_iff {d : Verdict} {old : Option String} :
    d.outcome old = some text ↔ d = .stands text ∨ d = .silence ∧ old = some text := by
  cases d <;> simp [Verdict.outcome]

/-- Where a tree has a scalar, the text stands. None stands where it has a list or a table with
entries, nor behind a scalar or a list. An empty table says nothing. -/
def verdict : List String → Tree → Verdict
  | [], scalar s => .stands s
  | [], list => .nothing
  | [], table es => if es.isEmpty then .silence else .nothing
  | _ :: _, scalar _ => .nothing
  | _ :: _, list => .nothing
  | k :: ks, table es => ((lookup k (lowered es)).map (verdict ks)).getD .silence

theorem Named.of_lookup {es : List (String × Tree)} (h : ∀ e ∈ es, Named kind Text.lowercase e.2)
    (hv : lookup k (lowered es) = some v) : Named kind Text.lowercase v := by
  obtain ⟨e, he, heq⟩ := List.mem_map.mp (mem_of_lookup hv)
  cases heq
  exact h e he

theorem scalarAt_merged (h : Named kind Text.lowercase v) (old : Option Tree) :
    scalarAt path (merged v old) = (verdict path v).outcome (old.bind (scalarAt path)) := by
  induction path generalizing v old with
  | nil =>
    cases v with
    | scalar s => rfl
    | list => rfl
    | table es =>
      rw [merged, scalarAt_nil_setAll, verdict]
      cases es with
      | nil => cases old <;> rfl
      | cons e es => rfl
  | cons k path ih =>
    cases h with
    | scalar s => rfl
    | list => rfl
    | table distinct names inside =>
      -- the entry under the first name goes over what was under that name
      rw [merged, scalarAt, lookup_setAll distinct, verdict]
      have hold : lookup k (old.getD (table [])).entries = old.bind (lookup k ·.entries) := by
        cases old <;> rfl
      have hbind : old.bind (scalarAt (k :: path)) =
          (old.bind (lookup k ·.entries)).bind (scalarAt path) := by
        cases old <;> rfl
      rw [hold, hbind]
      cases hv : lookup k (lowered _) with
      | none => rfl
      | some v => exact ih (.of_lookup inside hv) _

/-! ## Verdicts by what the tree holds -/

theorem verdict_eq_stands_iff : verdict path v = .stands text ↔ v.at? path = some (scalar text) := by
  induction path generalizing v with
  | nil =>
    cases v with
    | scalar s => simp [verdict, at?]
    | list => simp [verdict, at?]
    | table es => cases es <;> simp [verdict, at?]
  | cons k path ih =>
    cases v with
    | scalar s => simp [verdict, at?, entries, lowered, lookup]
    | list => simp [verdict, at?, entries, lowered, lookup]
    | table es =>
      rw [verdict, at?, entries]
      cases lookup k (lowered es) with
      | none => simp
      | some v => exact ih

/-- No scalar, list or table with entries stands at the path, and on the way there are only tables. -/
structure LeavesRoom (v : Tree) (path : List String) : Prop where
  here : ∀ u, v.at? path = some u → u = table []
  above : ∀ q, q <+: path → q ≠ path → ∀ u, v.at? q = some u → ∃ es, u = table es

theorem leavesRoom_cons : LeavesRoom (table es) (k :: path) ↔
    ∀ v, lookup k (lowered es) = some v → LeavesRoom v path := by
  have hat (ks : List String) : (table es).at? (k :: ks) = (lookup k (lowered es)).bind (at? ks) :=
    rfl
  constructor
  · intro h v hv
    constructor
    · intro u hu
      exact h.here u (by rw [hat, hv]; exact hu)
    · intro q hq hne u hu
      exact h.above (k :: q) (List.cons_prefix_cons.mpr ⟨rfl, hq⟩) (by simpa using hne) u
        (by rw [hat, hv]; exact hu)
  · intro h
    constructor
    · intro u hu
      obtain ⟨v, hv, hat⟩ := Option.bind_eq_some_iff.mp hu
      exact (h v hv).here u hat
    · intro q hq hne u hu
      cases q with
      | nil => exact ⟨es, (Option.some.inj hu).symm⟩
      | cons k' q =>
        obtain ⟨rfl, hpath⟩ := List.cons_prefix_cons.mp hq
        obtain ⟨v, hv, hat⟩ := Option.bind_eq_some_iff.mp hu
        exact (h v hv).above q hpath (by simpa using hne) u hat

theorem not_leavesRoom_cons (h : ∀ es, v ≠ table es) : ¬ LeavesRoom v (k :: path) := by
  intro hroom
  obtain ⟨es, hes⟩ := hroom.above [] List.nil_prefix (by simp) v rfl
  exact h es hes

theorem verdict_eq_silence_iff : verdict path v = .silence ↔ LeavesRoom v path := by
  induction path generalizing v with
  | nil =>
    have hroom : LeavesRoom v [] ↔ v = table [] := by
      constructor
      · intro h
        exact h.here v rfl
      · intro h
        exact ⟨fun u hu => (Option.some.inj hu).symm.trans h,
          fun q hq hne => absurd (List.prefix_nil.mp hq) hne⟩
    rw [hroom]
    cases v with
    | scalar s => simp [verdict]
    | list => simp [verdict]
    | table es => cases es <;> simp [verdict]
  | cons k path ih =>
    cases v with
    | scalar s => simp [verdict, not_leavesRoom_cons]
    | list => simp [verdict, not_leavesRoom_cons]
    | table es =>
      rw [verdict, leavesRoom_cons]
      cases lookup k (lowered es) with
      | none => simp
      | some v =>
        rw [Option.map_some, Option.getD_some]
        simp only [Option.some.injEq, forall_eq']
        exact ih

/-! ## Names of the result -/

theorem named_empty : Named kind id (table []) :=
  .table List.nodup_nil (by simp) (by simp)

theorem Named.table_entries {root : Tree} (h : Named kind id root) :
    Named kind id (Tree.table root.entries) := by
  cases h with
  | scalar s => exact named_empty
  | list => exact named_empty
  | table distinct names inside => exact .table distinct names inside

theorem Named.put {root : Tree} (h : Named kind id root) (hk : kind k) (hv : Named kind id v) :
    Named kind id (root.put k v) := by
  cases h.table_entries with
  | table distinct names inside =>
    refine .table (nodup_replace distinct) ?_ ?_
    · intro e he
      rcases mem_of_mem_replace he with rfl | he
      · exact hk
      · exact names e he
    · intro e he
      rcases mem_of_mem_replace he with rfl | he
      · exact hv
      · exact inside e he

theorem Named.setAll {root : Tree} (hroot : Named kind id root)
    (h : ∀ e ∈ es, kind (Text.lowercase e.1) ∧
      ∀ old : Option Tree, (∀ t ∈ old, Named kind id t) → Named kind id (merged e.2 old)) :
    Named kind id (setAll es root) := by
  induction es generalizing root with
  | nil => rwa [setAll_nil]
  | cons e es ih =>
    obtain ⟨⟨hname, hmerge⟩, hes⟩ := List.forall_mem_cons.mp h
    rw [setAll_cons, set_eq]
    refine ih (hroot.put hname (hmerge _ ?_)) hes
    intro t ht
    cases hroot with
    | scalar s => cases ht
    | list => cases ht
    | table _ _ inside => exact inside _ (mem_of_lookup ht)

/-- A tree over another one, with its names in lower case. -/
theorem Named.merged (hkind : ∀ k, kind k → kind (Text.lowercase k))
    (h : Named kind Text.lowercase v) (old : Option Tree) (hold : ∀ t ∈ old, Named kind id t) :
    Named kind id (merged v old) := by
  -- on the tree that comes later, because nothing is lost of the names of the other one
  induction h generalizing old with
  | scalar s => exact .scalar s
  | list => exact .list
  | table _ names _ ih =>
    have hroot : Named kind id (old.getD (.table [])) := by
      cases old with
      | none => exact named_empty
      | some t => exact hold t rfl
    exact hroot.setAll fun e he => ⟨hkind _ (names e he), fun old => ih e he old⟩

/-! ## Texts at paths -/

/-- A tree in which nothing but `leaf` stands, at the end of a path. -/
def spine (path : List String) (leaf : Tree) : Tree := path.foldr (fun k t => table [(k, t)]) leaf

theorem setAt_eq_merged (ks : List String) (name : String) (leaf root : Tree) :
    setAt ks name leaf root = merged (spine (ks ++ [name]) leaf) (some root) := by
  induction ks generalizing root with
  | nil => rw [setAt]; exact (setAll_nil _).symm
  | cons k ks ih =>
    rw [setAt, ih]
    have hinner : merged (spine (ks ++ [name]) leaf)
        (some ((lookup (Text.lowercase k) root.entries).getD (table []))) =
        merged (spine (ks ++ [name]) leaf) (lookup (Text.lowercase k) root.entries) := by
      cases ks <;> rfl
    rw [hinner, ← set_eq]
    exact (setAll_nil _).symm

theorem named_spine (h : ∀ k ∈ path, kind k) :
    Named kind Text.lowercase (spine path (scalar text)) := by
  induction path with
  | nil => exact .scalar text
  | cons k path ih =>
    obtain ⟨hk, hpath⟩ := List.forall_mem_cons.mp h
    exact .table (by simp) (List.forall_mem_singleton.mpr hk)
      (List.forall_mem_singleton.mpr (ih hpath))

/-- One of the paths leads on from the other or is the same. -/
def Comparable (p q : List String) : Prop := p <+: q ∨ q <+: p

instance (p q : List String) : Decidable (Comparable p q) :=
  inferInstanceAs (Decidable (p <+: q ∨ q <+: p))

/-- No text can stand on the way to another or behind it. -/
theorem verdict_spine (h : ∀ k ∈ path, Text.lowercase k = k) :
    verdict q (spine path (scalar text)) =
      if q = path then .stands text else if Comparable path q then .nothing else .silence := by
  induction path generalizing q with
  | nil => cases q <;> simp [spine, verdict, Comparable]
  | cons k path ih =>
    obtain ⟨hk, hpath⟩ := List.forall_mem_cons.mp h
    cases q with
    | nil => simp [spine, verdict, Comparable]
    | cons k' q =>
      have hcomparable : Comparable (k :: path) (k' :: q) ↔ k = k' ∧ Comparable path q := by
        simp only [Comparable, List.cons_prefix_cons, eq_comm (a := k'), ← and_or_left]
      have hverdict : verdict (k' :: q) (spine (k :: path) (scalar text)) =
          if k = k' then verdict q (spine path (scalar text)) else .silence := by
        rw [spine, List.foldr_cons, verdict, lowered_cons, hk, lookup]
        split <;> rfl
      rw [hverdict, ih hpath]
      by_cases hkk : k = k'
      · subst hkk
        simp [hcomparable]
      · simp [hkk, hcomparable, Ne.symm hkk]

/-- Texts at paths, laid over a tree one after the other. -/
def laid (root : Tree) (sets : List (List String × String)) : Tree :=
  sets.foldl (fun t s => merged (spine s.1 (scalar s.2)) (some t)) root

section Laid

variable {root : Tree} {sets : List (List String × String)}

theorem named_laid (hkind : ∀ k, kind k → kind (Text.lowercase k)) (hroot : Named kind id root)
    (h : ∀ s ∈ sets, ∀ k ∈ s.1, kind k) : Named kind id (laid root sets) := by
  induction sets generalizing root with
  | nil => exact hroot
  | cons s sets ih =>
    obtain ⟨hs, hsets⟩ := List.forall_mem_cons.mp h
    exact ih ((named_spine hs).merged hkind _ (by simpa using hroot)) hsets

/-- Where no path leads on from another, a text stands just where it was laid or, if none was laid on
the way or behind, where it stood before. -/
theorem scalarAt_laid (hlower : ∀ s ∈ sets, ∀ k ∈ s.1, Text.lowercase k = k)
    (hapart : sets.Pairwise fun s r => ¬ Comparable s.1 r.1) :
    scalarAt q (laid root sets) = some text ↔ (q, text) ∈ sets ∨
      (∀ s ∈ sets, ¬ Comparable s.1 q) ∧ scalarAt q root = some text := by
  induction sets generalizing root with
  | nil => simp [laid]
  | cons s sets ih =>
    obtain ⟨path, value⟩ := s
    obtain ⟨hpath, hlower⟩ := List.forall_mem_cons.mp hlower
    obtain ⟨hfirst, hapart⟩ := List.pairwise_cons.mp hapart
    have hmerge : scalarAt q (merged (spine path (scalar value)) (some root)) = some text ↔
        (q, text) = (path, value) ∨ ¬ Comparable path q ∧ scalarAt q root = some text := by
      have hnamed : Named (fun _ => True) Text.lowercase (spine path (scalar value)) :=
        named_spine fun _ _ => trivial
      rw [scalarAt_merged hnamed, verdict_spine hpath]
      by_cases hq : q = path
      · subst hq
        simp [Verdict.outcome, Comparable, eq_comm]
      · by_cases hc : Comparable path q <;> simp [Verdict.outcome, hq, hc]
    rw [laid, List.foldl_cons, ← laid, ih hlower hapart, hmerge, List.mem_cons,
      List.forall_mem_cons]
    constructor
    · rintro (h | ⟨hfree, h | ⟨hc, h⟩⟩)
      · exact .inl (.inr h)
      · exact .inl (.inl h)
      · exact .inr ⟨⟨hc, hfree⟩, h⟩
    · rintro ((h | h) | ⟨⟨hc, hfree⟩, h⟩)
      · -- the text laid first stays, because no other path leads on from its own
        obtain ⟨rfl, rfl⟩ := Prod.mk.inj h
        exact .inr ⟨fun s hs => fun hc => hfirst s hs hc.symm, .inl rfl⟩
      · exact .inl h
      · exact .inr ⟨hfree, .inr ⟨hc, h⟩⟩

end Laid

end CellReplay.Config.Tree
