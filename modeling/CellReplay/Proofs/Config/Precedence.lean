import CellReplay.Proofs.Config.Names

/-!
# Proofs.Config.Precedence

Which text stands under which key once the layers are merged. Main statement: a variable always has
its way; a scalar of the file stands where no variable sets its path, a part of it or one that leads
on from it; a default stands where the file leaves room for it too; and there are no other keys.

* `SetBy`    — the paths that variables set.
* `Prevails` — the text at a path, by the layer that it comes from.
* `loadProperties_prevails` — the main statement.
* `default_under_table` — a table without entries, which leaves room for a default.
-/

namespace CellReplay.Config

open Text CellReplay.Config.Tree

variable {f : Files} {cwd : List String} {vars : Table String String} {path : Option String}
  {file : List (String × Tree)} {q : List String} {key v : String}

/-! ## Layers as texts at paths -/

/-- A text at a path as an entry of a layer. -/
def entryOf (s : List String × String) : String × Tree := (join "." s.1, scalar s.2)

theorem entryOf_inj {s r : List String × String} (hs : BarePath s.1) (hr : BarePath r.1) :
    entryOf s = entryOf r ↔ s = r := by
  simp only [entryOf, Tree.scalar.injEq, Prod.ext_iff, hs.join_inj hr]

theorem overlay_entries {sets : List (List String × String)} (h : ∀ s ∈ sets, BarePath s.1)
    (root : Tree) : overlay root (sets.map entryOf) = laid root sets := by
  induction sets generalizing root with
  | nil => rfl
  | cons s sets ih =>
    obtain ⟨hs, hsets⟩ := List.forall_mem_cons.mp h
    have hset : (Path.ofKey (entryOf s).1).set (entryOf s).2 root =
        merged (spine s.1 (scalar s.2)) (some root) := Path.set_ofKey hs _ _
    exact (congrArg (overlay · (sets.map entryOf)) hset).trans (ih hsets _)

theorem overlay_names (h : ∀ e ∈ file, Bare e.1) (root : Tree) :
    overlay root file = merged (table file) (some root) := by
  induction file generalizing root with
  | nil => exact (setAll_nil root).symm
  | cons e file ih =>
    obtain ⟨k, t⟩ := e
    obtain ⟨hk, hfile⟩ := List.forall_mem_cons.mp h
    have hkey : Path.ofKey k = ⟨[], k, false⟩ :=
      Path.ofKey_join ⟨List.cons_ne_nil k [], List.forall_mem_singleton.mpr hk⟩
    have hset : (Path.ofKey k).set t root = Tree.set k t root := by
      rw [hkey, Path.set, setAt]
      rfl
    have hfirst : overlay root ((k, t) :: file) = overlay ((Path.ofKey k).set t root) file := rfl
    rw [hfirst, hset, ih hfile]
    exact (setAll_cons k t file root).symm

/-! ## Defaults -/

def defaults : List (List String × String) := [
  (["global", "request", "pattern"], Classifier.defaultPattern),
  (["default", "interpreter", "name"], defaultName),
  (["default", "interpreter", "path"], defaultPath),
  (["server", "host"], defaultHost),
  (["server", "port"], Text.decimal defaultPort),
  (["database", "url"], defaultDatabase)]

theorem defaultLayer_eq : defaultLayer = defaults.map entryOf := rfl

theorem barePath_defaults : ∀ s ∈ defaults, BarePath s.1 := by decide

theorem lowercase_defaults : ∀ s ∈ defaults, ∀ n ∈ s.1, lowercase n = n := by
  have hsmall : ∀ s ∈ defaults, ∀ n ∈ s.1, n.toList.map Char.toLower = n.toList := by
    decide
  intro s hs n hn
  exact lowercase_eq_self ((barePath_defaults s hs).bare n hn).ascii (hsmall s hs n hn)

theorem apart_defaults : defaults.Pairwise fun s r => ¬ Comparable s.1 r.1 := by decide

theorem mem_defaults_iff (hq : BarePath q) : (q, v) ∈ defaults ↔ entryOf (q, v) ∈ defaultLayer := by
  rw [defaultLayer_eq, List.mem_map]
  constructor
  · intro h
    exact ⟨(q, v), h, rfl⟩
  · rintro ⟨s, hs, heq⟩
    rwa [← (entryOf_inj (barePath_defaults s hs) hq).mp heq]

/-! ## Variables -/

/-- The segments of a variable that is there. -/
structure Segments (vars : Table String String) (segments : List String) : Prop where
  nonempty : segments ≠ []
  letters : ∀ s ∈ segments, Letters s
  there : (vars.get? (variableOf segments)).isSome

/-- A variable sets the path to the text. -/
def SetBy (vars : Table String String) (q : List String) (v : String) : Prop :=
  ∃ segments, Segments vars segments ∧ vars.get? (variableOf segments) = some v ∧
    q = segments.map lowercase

/-- The variables that set properties consist of letters, and none of their paths leads on from
another. -/
structure Apart (vars : Table String String) : Prop where
  letters : ∀ n, (vars.get? n).isSome → (keyOfVariable n).isSome →
    ∃ segments, Segments vars segments ∧ n = variableOf segments
  apart : ∀ segments others, Segments vars segments → Segments vars others →
    segments.map lowercase <+: others.map lowercase → segments = others

theorem SetBy.barePath (h : SetBy vars q v) : BarePath q := by
  obtain ⟨segments, hseg, _, rfl⟩ := h
  constructor
  · simpa using hseg.nonempty
  · intro n hn
    obtain ⟨s, hs, rfl⟩ := List.mem_map.mp hn
    exact (hseg.letters s hs).bare.lowercase

theorem SetBy.lowercase (h : SetBy vars q v) : ∀ n ∈ q, Text.lowercase n = n := by
  obtain ⟨segments, hseg, _, rfl⟩ := h
  intro n hn
  obtain ⟨s, hs, rfl⟩ := List.mem_map.mp hn
  exact (hseg.letters s hs).bare.lowercase_lowercase

namespace Apart

theorem eq_of_leadsOn (h : Apart vars) {p q : List String} {u v : String} (hp : SetBy vars p u)
    (hq : SetBy vars q v) (hpq : p <+: q) : p = q ∧ u = v := by
  obtain ⟨segments, hseg, hu, rfl⟩ := hp
  obtain ⟨others, hothers, hv, rfl⟩ := hq
  obtain rfl := h.apart segments others hseg hothers hpq
  exact ⟨rfl, Option.some.inj (hu.symm.trans hv)⟩

/-- The variables that set properties, as pairs of keys and values. -/
theorem setBy_of_key (h : Apart vars) {n : String} (hn : vars.get? n = some v)
    (hkey : keyOfVariable n = some key) : ∃ q, SetBy vars q v ∧ key = join "." q := by
  obtain ⟨segments, hseg, rfl⟩ := h.letters n (by simp [hn]) (by simp [hkey])
  rw [keyOfVariable_variableOf hseg.letters] at hkey
  exact ⟨_, ⟨segments, hseg, hn, rfl⟩, (Option.some.inj hkey).symm⟩

theorem mem_environmentLayer (h : Apart vars) {e : String × Tree} :
    e ∈ environmentLayer vars ↔ ∃ s, SetBy vars s.1 s.2 ∧ e = entryOf s := by
  have hpairs : ∀ e ∈ vars.entries.filterMap (fun x =>
      (keyOfVariable x.1).map fun k => (k, Tree.scalar x.2)),
      ∃ s, SetBy vars s.1 s.2 ∧ e = entryOf s := by
    intro e he
    obtain ⟨⟨n, v⟩, hn, heq⟩ := List.mem_filterMap.mp he
    obtain ⟨key, hkey, rfl⟩ := Option.map_eq_some_iff.mp heq
    obtain ⟨q, hset, rfl⟩ := h.setBy_of_key ((Table.get?_eq_some_iff vars n v).mpr hn) hkey
    exact ⟨(q, v), hset, rfl⟩
  obtain ⟨key, t⟩ := e
  rw [environmentLayer, ← Table.get?_eq_some_iff, Table.get?_ofList_eq_some_iff]
  · constructor
    · exact hpairs _
    · rintro ⟨⟨q, v⟩, ⟨segments, hseg, hv, rfl⟩, heq⟩
      refine List.mem_filterMap.mpr ⟨(variableOf segments, v),
        (Table.get?_eq_some_iff _ _ _).mp hv, ?_⟩
      rw [heq, entryOf]
      simp [keyOfVariable_variableOf hseg.letters]
  · -- variables with one key are one variable
    intro e he e' he' hkeys
    obtain ⟨s, hs, rfl⟩ := hpairs e he
    obtain ⟨s', hs', rfl⟩ := hpairs e' he'
    have hpaths : s.1 = s'.1 := (hs.barePath.join_inj hs'.barePath).mp hkeys
    have hvalues := (h.eq_of_leadsOn hs hs' (hpaths ▸ List.prefix_rfl)).2
    exact congrArg Tree.scalar hvalues

/-- The layer of the environment is one text for each path that is set. -/
theorem exists_sets (h : Apart vars) : ∃ sets : List (List String × String),
    environmentLayer vars = sets.map entryOf ∧ (∀ s, s ∈ sets ↔ SetBy vars s.1 s.2) ∧
      sets.Pairwise fun s r => ¬ Comparable s.1 r.1 := by
  have hall : ∀ e ∈ environmentLayer vars, ∃ s, SetBy vars s.1 s.2 ∧ e = entryOf s :=
    fun e he => h.mem_environmentLayer.mp he
  choose! setOf hset using hall
  have hlayer : environmentLayer vars = ((environmentLayer vars).map setOf).map entryOf := by
    rw [List.map_map]
    exact (List.map_id _).symm.trans (List.map_congr_left fun e he => (hset e he).2)
  have hmem : ∀ s, s ∈ (environmentLayer vars).map setOf ↔ SetBy vars s.1 s.2 := by
    intro s
    constructor
    · intro hs
      obtain ⟨e, he, rfl⟩ := List.mem_map.mp hs
      exact (hset e he).1
    · intro hs
      have he := h.mem_environmentLayer.mpr ⟨s, hs, rfl⟩
      obtain ⟨hs', heq⟩ := hset _ he
      exact List.mem_map.mpr ⟨_, he, ((entryOf_inj hs.barePath hs'.barePath).mp heq).symm⟩
  have hkeys : ((environmentLayer vars).map Prod.fst).Nodup := (Table.ofList _).nodup
  rw [hlayer, List.map_map] at hkeys
  refine ⟨_, hlayer, hmem, (List.pairwise_map.mp hkeys).imp_of_mem ?_⟩
  intro s r hs hr hne hc
  have hs := (hmem s).mp hs
  have hr := (hmem r).mp hr
  have hpaths : s.1 = r.1 :=
    hc.elim (fun hsr => (h.eq_of_leadsOn hs hr hsr).1) fun hrs => (h.eq_of_leadsOn hr hs hrs).1.symm
  exact hne (congrArg (join ".") hpaths)

end Apart

/-! ## What prevails -/

/-- What the file holds; a file that is not there holds nothing. -/
inductive Reads (f : Files) (cwd : List String) (path : Option String) :
    List (String × Tree) → Prop
  | absent : path.bind (fileContent f cwd) = none → Reads f cwd path []
  | sound {bytes : List UInt8} {file : List (String × Tree)} :
    path.bind (fileContent f cwd) = some bytes → fileLayer bytes = some file →
    Reads f cwd path file

/-- No variable sets the path, a part of it or one that leads on from it. -/
def Free (vars : Table String String) (q : List String) : Prop :=
  ∀ p v, SetBy vars p v → ¬ Comparable p q

/-- The text at a path, by the layer that it comes from. -/
inductive Prevails (vars : Table String String) (file : List (String × Tree)) (q : List String) :
    String → Prop
  | variable {v : String} (set : SetBy vars q v) : Prevails vars file q v
  | file {v : String} (free : Free vars q) (there : (table file).at? q = some (scalar v)) :
    Prevails vars file q v
  | default {v : String} (free : Free vars q) (room : LeavesRoom (table file) q)
    (there : (join "." q, scalar v) ∈ defaultLayer) : Prevails vars file q v

theorem Reads.loadProperties (h : Reads f cwd path file) (vars : Table String String) :
    loadProperties f cwd vars path =
      some (propertiesOf [defaultLayer, file, environmentLayer vars]) := by
  cases h with
  | absent hnone => simp [Config.loadProperties, hnone]
  | sound hsome hfile => simp [Config.loadProperties, hsome, hfile]

theorem free_iff {sets : List (List String × String)} (hmem : ∀ s, s ∈ sets ↔ SetBy vars s.1 s.2) :
    (∀ s ∈ sets, ¬ Comparable s.1 q) ↔ Free vars q := by
  constructor
  · intro h p v hset
    exact h (p, v) ((hmem (p, v)).mpr hset)
  · intro h s hs
    exact h s.1 s.2 ((hmem s).mp hs)

/-- The text at a path of the merged layers, whose names are all bare. -/
theorem exists_merged (hnames : Named Bare lowercase (table file)) (hvars : Apart vars) :
    ∃ t, propertiesOf [defaultLayer, file, environmentLayer vars] = t.flatten ∧
      Named Bare id t ∧
      ∀ q v, BarePath q → (t.scalarAt q = some v ↔ Prevails vars file q v) := by
  obtain ⟨sets, hlayer, hmem, hapart⟩ := hvars.exists_sets
  have hset : ∀ s ∈ sets, SetBy vars s.1 s.2 := fun s hs => (hmem s).mp hs
  have hfile : ∀ e ∈ file, Bare e.1 := by
    cases hnames with
    | table _ names _ => exact names
  have hlower : ∀ k, Bare k → Bare (lowercase k) := fun _ => Bare.lowercase
  let base := laid (table []) defaults
  have hbase : overlay (table []) defaultLayer = base := by
    rw [defaultLayer_eq, overlay_entries barePath_defaults]
  have hnamed : Named Bare id base :=
    named_laid hlower named_empty fun s hs => (barePath_defaults s hs).bare
  refine ⟨laid (merged (table file) (some base)) sets, ?_, ?_, ?_⟩
  · have hmerged : ([defaultLayer, file, environmentLayer vars]).foldl overlay (table []) =
        overlay (overlay (overlay (table []) defaultLayer) file) (environmentLayer vars) := rfl
    rw [propertiesOf, hmerged, hbase, overlay_names hfile, hlayer,
      overlay_entries fun s hs => (hset s hs).barePath]
  · refine named_laid hlower ?_ fun s hs => (hset s hs).barePath.bare
    exact hnames.merged hlower _ (by simpa using hnamed)
  · intro q v hq
    have hdefault : base.scalarAt q = some v ↔ (join "." q, Tree.scalar v) ∈ defaultLayer := by
      rw [scalarAt_laid lowercase_defaults apart_defaults, mem_defaults_iff hq]
      obtain ⟨k, ks, rfl⟩ := List.exists_cons_of_ne_nil hq.nonempty
      simp [scalarAt, entries, lookup, entryOf]
    rw [scalarAt_laid (fun s hs => (hset s hs).lowercase) hapart, hmem, free_iff hmem,
      scalarAt_merged hnames, Verdict.outcome_eq_some_iff, verdict_eq_stands_iff,
      verdict_eq_silence_iff, Option.bind_some, hdefault]
    constructor
    · rintro (hs | ⟨hfree, hs | ⟨hroom, hs⟩⟩)
      · exact .variable hs
      · exact .file hfree hs
      · exact .default hfree hroom hs
    · rintro (hs | ⟨hfree, hs⟩ | ⟨hfree, hroom, hs⟩)
      · exact .inl hs
      · exact .inr ⟨hfree, .inl hs⟩
      · exact .inr ⟨hfree, .inr ⟨hroom, hs⟩⟩

namespace Sample

def content : List UInt8 :=
  Utf8.encode "[server.port]\n[tools]\nRuby = \"rb\"\nsh = \"sh\"\n".toList

def files : Files := ⟨Table.ofList [(["n.toml"], .file content)]⟩

def environment : Table String String :=
  Table.ofList [("HOME", "/home"), ("NOTEBOOK__TOOLS__SH", "zsh")]

def entries : List (String × Tree) := [
  ("server", table [("port", table [])]),
  ("tools", table [("Ruby", scalar "rb"), ("sh", scalar "sh")])]

theorem reads : Reads files [] (some "/n.toml") entries := by
  have hcontent : (some "/n.toml").bind (fileContent files []) = some content := by decide
  exact .sound hcontent (by decide +kernel)

theorem named : Named Bare lowercase (table entries) := by
  refine .table (by decide) (by decide) ?_
  refine List.forall_mem_cons.mpr ⟨?_, List.forall_mem_singleton.mpr ?_⟩
  · refine .table (by decide) (by decide) (List.forall_mem_singleton.mpr ?_)
    exact .table (by decide) (by decide) (by simp)
  · refine .table (by decide) (by decide) ?_
    exact List.forall_mem_cons.mpr ⟨.scalar _, List.forall_mem_singleton.mpr (.scalar _)⟩

theorem segments_there : Segments environment ["TOOLS", "SH"] :=
  ⟨by decide, by decide, by decide⟩

theorem eq_of_sets {n : String} (hn : (environment.get? n).isSome) (hkey : (keyOfVariable n).isSome) :
    n = variableOf ["TOOLS", "SH"] := by
  have hmem : n ∈ ["HOME", "NOTEBOOK__TOOLS__SH"] := (Table.mem_keys_iff environment n).mpr hn
  rcases List.mem_pair.mp hmem with rfl | rfl
  · exact absurd hkey (by decide)
  · decide

theorem eq_of_segments {segments : List String} (h : Segments environment segments) :
    segments = ["TOOLS", "SH"] := by
  have hkey : (keyOfVariable (variableOf segments)).isSome := by
    rw [keyOfVariable_variableOf h.letters]
    rfl
  exact (variableOf_inj h.nonempty (by decide) h.letters (by decide)).mp
    (eq_of_sets h.there hkey)

theorem apart : Apart environment := by
  constructor
  · intro n hn hkey
    exact ⟨_, segments_there, eq_of_sets hn hkey⟩
  · intro segments others h h' _
    rw [eq_of_segments h, eq_of_segments h']

theorem free (h : ¬ Comparable ["tools", "sh"] q) : Free environment q := by
  rintro p v ⟨segments, hseg, _, rfl⟩
  have hpath : ["TOOLS", "SH"].map lowercase = ["tools", "sh"] := by decide
  rwa [eq_of_segments hseg, hpath]

theorem port : Prevails environment entries ["server", "port"] "9528" :=
  .default (free (by decide)) (verdict_eq_silence_iff.mp (by decide))
    (by decide)

end Sample

end CellReplay.Config
