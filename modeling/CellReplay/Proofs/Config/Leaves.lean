import CellReplay.Config.Tree
import CellReplay.Proofs.Text.Joining
import CellReplay.Proofs.Text.Sorting
import Mathlib.Data.List.Nodup

/-!
# Proofs.Config.Leaves

The tables of a tree have no order of their own, so a tree stands for all that differ from it in the
order of entries. Main statement: the properties do not depend on that order just if the leaves under
one dotted name have the same text.

* `Tree.scalars`   — the scalars of a tree with the names that lead to them, not joined yet.
* `Tree.Reordered` — the entries of tables in another order.
* `Tree.Named`     — trees whose names are of some kind, and distinct in each table.
* `Tree.flatten_reordered_iff` — the main statement, and names under which no two leaves stand
  together: those without a point, if no table at the top has the empty name.
-/

namespace CellReplay

/-! ## Properties that say the same -/

structure Properties.Same (p q : Properties) : Prop where
  get? : ∀ k, p.get? k = q.get? k
  names : p.names = q.names

theorem Properties.same_iff {p q : Properties} : p.Same q ↔ ∀ k, p.get? k = q.get? k := by
  constructor
  · exact Same.get?
  · intro h
    have hmem : ∀ k, k ∈ p.keys ↔ k ∈ q.keys := fun k => by
      rw [Table.mem_keys_iff, Table.mem_keys_iff, h]
    have hperm : p.keys.Perm q.keys := (List.perm_ext_iff_of_nodup p.nodup q.nodup).mpr hmem
    exact ⟨h, Text.sortBy_eq_of_perm hperm⟩

namespace Config.Tree

variable {t u : Tree} {es : List (String × Tree)} {path : List String} {text : String}

/-! ## Scalars and their paths -/

mutual

def scalars : Tree → List (List String × String)
  | scalar t => [([], t)]
  | list => []
  | table es => scalarsOf es

def scalarsOf : List (String × Tree) → List (List String × String)
  | [] => []
  | (k, v) :: es => (scalars v).map (fun x => (k :: x.1, x.2)) ++ scalarsOf es

end

/-- The name of a leaf, from the names that lead to it. -/
def spelled (path : List String) : String := path.foldl dotted ""

mutual

theorem leaves_eq (place : String) (t : Tree) :
    leaves place t = (scalars t).map fun x => (x.1.foldl dotted place, x.2) := by
  cases t with
  | scalar t => rfl
  | list => rfl
  | table es => exact leavesOf_eq place es

theorem leavesOf_eq (place : String) (es : List (String × Tree)) :
    leavesOf place es = (scalarsOf es).map fun x => (x.1.foldl dotted place, x.2) := by
  match es with
  | [] => rfl
  | (k, v) :: es =>
    rw [leavesOf, leaves_eq (dotted place k) v, leavesOf_eq place es, scalarsOf, List.map_append,
      List.map_map]
    rfl

end

theorem flatten_table (es : List (String × Tree)) :
    flatten (table es) = Table.ofList ((scalarsOf es).map fun x => (spelled x.1, x.2)) :=
  congrArg Table.ofList (leavesOf_eq "" es)

theorem scalarsOf_eq_flatMap (es : List (String × Tree)) :
    scalarsOf es = es.flatMap fun e => (scalars e.2).map fun x => (e.1 :: x.1, x.2) := by
  induction es with
  | nil => rfl
  | cons e es ih => rw [scalarsOf, ih, List.flatMap_cons]

theorem nil_notMem_scalarsOf : ([], text) ∉ scalarsOf es := by
  simp [scalarsOf_eq_flatMap]

theorem cons_mem_scalarsOf {k : String} :
    (k :: path, text) ∈ scalarsOf es ↔ ∃ v, (k, v) ∈ es ∧ (path, text) ∈ scalars v := by
  simp only [scalarsOf_eq_flatMap, List.mem_flatMap, List.mem_map, Prod.mk.injEq, List.cons.injEq]
  constructor
  · rintro ⟨⟨_, v⟩, he, ⟨p, s⟩, hx, ⟨rfl, rfl⟩, rfl⟩
    exact ⟨v, he, hx⟩
  · rintro ⟨v, he, hx⟩
    exact ⟨(k, v), he, (path, text), hx, ⟨rfl, rfl⟩, rfl⟩

/-! ## Other orders -/

/-- The same tree with the entries of its tables in another order. -/
inductive Reordered : Tree → Tree → Prop
  | refl (t : Tree) : Reordered t t
  | trans {t u v : Tree} : Reordered t u → Reordered u v → Reordered t v
  | entries {es fs : List (String × Tree)} : es.Perm fs → Reordered (table es) (table fs)
  | inside {k : String} {t u : Tree} (before after : List (String × Tree)) : Reordered t u →
    Reordered (table (before ++ (k, t) :: after)) (table (before ++ (k, u) :: after))

namespace Reordered

theorem scalars_perm (h : Reordered t u) : (scalars t).Perm (scalars u) := by
  induction h with
  | refl t => exact .refl _
  | trans _ _ iht ihu => exact iht.trans ihu
  | entries h =>
    simp only [scalars, scalarsOf_eq_flatMap]
    exact h.flatMap_right _
  | inside before after _ ih =>
    simp only [scalars, scalarsOf_eq_flatMap, List.flatMap_append, List.flatMap_cons]
    exact ((ih.map _).append_right _).append_left _

theorem exists_table (h : Reordered t u) : (∃ es, t = table es) → ∃ fs, u = table fs := by
  induction h with
  | refl t => exact id
  | trans _ _ iht ihu => exact ihu ∘ iht
  | entries h => exact fun _ => ⟨_, rfl⟩
  | inside => exact fun _ => ⟨_, rfl⟩

end Reordered

/-- Any of the scalars comes last in some order: on the way to it, each entry can be moved to the end
of its table. -/
theorem exists_reordered_last (h : (path, text) ∈ scalars t) :
    ∃ u rest, Reordered t u ∧ scalars u = rest ++ [(path, text)] := by
  induction path generalizing t with
  | nil =>
    cases t with
    | scalar s =>
      obtain rfl : text = s := by simpa [scalars] using h
      exact ⟨scalar text, [], .refl _, rfl⟩
    | list => cases h
    | table es => exact absurd h nil_notMem_scalarsOf
  | cons k path ih =>
    cases t with
    | scalar s => simp [scalars] at h
    | list => cases h
    | table es =>
      obtain ⟨v, he, hv⟩ := cons_mem_scalarsOf.mp h
      obtain ⟨u, rest, hu, hlast⟩ := ih hv
      obtain ⟨before, after, rfl⟩ := List.append_of_mem he
      have hmoved : (before ++ (k, v) :: after).Perm ((before ++ after) ++ [(k, v)]) :=
        List.perm_middle.trans (List.perm_append_singleton _ _).symm
      refine ⟨table ((before ++ after) ++ [(k, u)]),
        scalarsOf (before ++ after) ++ rest.map fun x => (k :: x.1, x.2),
        (Reordered.entries hmoved).trans (.inside _ [] hu), ?_⟩
      simp [scalars, scalarsOf_eq_flatMap, hlast]

/-! ## Names -/

/-- Trees whose names are all of one kind; in each table no two of them become the same. -/
inductive Named (kind : String → Prop) (become : String → String) : Tree → Prop
  | scalar (text : String) : Named kind become (scalar text)
  | list : Named kind become list
  | table {es : List (String × Tree)} (distinct : (es.map fun e => become e.1).Nodup)
    (names : ∀ e ∈ es, kind e.1) (inside : ∀ e ∈ es, Named kind become e.2) :
    Named kind become (table es)

namespace Named

variable {kind : String → Prop} {become : String → String}

theorem mono {kind' : String → Prop} (h : Named kind become t) (hkind : ∀ k, kind k → kind' k) :
    Named kind' become t := by
  induction h with
  | scalar s => exact .scalar s
  | list => exact .list
  | table distinct names _ ih => exact .table distinct (fun e he => hkind _ (names e he)) ih

theorem of_mem (h : Named kind become t) (hmem : (path, text) ∈ scalars t) :
    ∀ k ∈ path, kind k := by
  induction h generalizing path with
  | scalar s =>
    obtain ⟨rfl, rfl⟩ : path = [] ∧ text = s := by simpa [scalars] using hmem
    simp
  | list => cases hmem
  | table _ names _ ih =>
    cases path with
    | nil => exact absurd hmem nil_notMem_scalarsOf
    | cons k path =>
      obtain ⟨v, he, hv⟩ := cons_mem_scalarsOf.mp hmem
      exact List.forall_mem_cons.mpr ⟨names _ he, ih _ he hv⟩

/-- No two scalars of such a tree stand at the same place. -/
theorem nodup_paths (h : Named kind become t) : ((scalars t).map Prod.fst).Nodup := by
  induction h with
  | scalar => simp [scalars]
  | list => simp [scalars]
  | @table es distinct _ _ ih =>
    have hpaths : (scalars (Tree.table es)).map Prod.fst =
        es.flatMap fun e => ((scalars e.2).map Prod.fst).map (e.1 :: ·) := by
      simp [scalars, scalarsOf_eq_flatMap, List.map_flatMap, Function.comp_def]
    rw [hpaths, List.nodup_flatMap]
    constructor
    · intro e he
      exact (ih e he).map (List.cons_injective)
    · have hne : es.Pairwise fun e f => become e.1 ≠ become f.1 := List.pairwise_map.mp distinct
      refine hne.imp fun {e f} hef p hp hq => hef ?_
      obtain ⟨_, _, rfl⟩ := List.mem_map.mp hp
      obtain ⟨_, _, heq⟩ := List.mem_map.mp hq
      rw [(List.cons.inj heq).1]

end Named

theorem foldl_dotted {k : String} (h : k ≠ "") (path : List String) :
    path.foldl dotted k = Text.join "." (k :: path) := by
  induction path generalizing k with
  | nil => rfl
  | cons n path ih =>
    have hne : k ++ "." ++ n ≠ "" := by simp
    rw [List.foldl_cons, dotted, if_neg h, ih hne, Text.join_append_head,
      Text.join_cons (List.cons_ne_nil n path)]

/-- The dotted name of a path has a point before each name but the first, unless the first is
empty. -/
theorem spelled_eq_join (h : path.head? = some "" → path.tail = []) :
    spelled path = Text.join "." path := by
  cases path with
  | nil => rfl
  | cons k path =>
    by_cases hk : k = ""
    · subst hk
      obtain rfl : path = [] := h rfl
      rfl
    · exact foldl_dotted hk path

/-- Names without a point can be told from a dotted name. -/
theorem nodup_spelled (h : Named (fun k => '.' ∉ k.toList) id (table es))
    (htop : ∀ fs, ("", table fs) ∉ es) : ((scalarsOf es).map fun x => spelled x.1).Nodup := by
  have hspelled : ∀ x ∈ scalarsOf es, spelled x.1 = Text.join "." x.1 := by
    rintro ⟨path, text⟩ hx
    refine spelled_eq_join fun hhead => ?_
    obtain ⟨rest, rfl⟩ : ∃ rest, path = "" :: rest := by
      cases path with
      | nil => cases hhead
      | cons k rest => exact ⟨rest, by rw [Option.some.inj hhead]⟩
    obtain ⟨v, he, hv⟩ := cons_mem_scalarsOf.mp hx
    cases v with
    | scalar s =>
      obtain ⟨rfl, _⟩ : rest = [] ∧ text = s := by simpa [scalars] using hv
      rfl
    | list => cases hv
    | table fs => exact absurd he (htop fs)
  have hne : ∀ x ∈ scalarsOf es, x.1 ≠ [] := by
    rintro ⟨path, text⟩ hx rfl
    exact nil_notMem_scalarsOf hx
  have hjoined : (scalarsOf es).map (fun x => spelled x.1) =
      ((scalarsOf es).map Prod.fst).map (Text.join ".") := by
    rw [List.map_map]
    exact List.map_congr_left hspelled
  rw [hjoined]
  refine List.Nodup.map_on ?_ h.nodup_paths
  intro p hp q hq hpq
  obtain ⟨x, hx, rfl⟩ := List.mem_map.mp hp
  obtain ⟨y, hy, rfl⟩ := List.mem_map.mp hq
  exact (Text.join_inj rfl (hne x hx) (hne y hy) (h.of_mem hx) (h.of_mem hy)).mp hpq

/-! ## The properties of a tree -/

/-- Where leaves under one dotted name have the same text, the properties are the leaves. -/
theorem get?_flatten_eq_some_iff
    (h : ∀ x ∈ scalarsOf es, ∀ y ∈ scalarsOf es, spelled x.1 = spelled y.1 → x.2 = y.2)
    {key : String} :
    (flatten (table es)).get? key = some text ↔
      ∃ path, (path, text) ∈ scalarsOf es ∧ spelled path = key := by
  rw [flatten_table, Table.get?_ofList_eq_some_iff]
  · constructor
    · intro hmem
      obtain ⟨⟨path, _⟩, hx, heq⟩ := List.mem_map.mp hmem
      cases heq
      exact ⟨path, hx, rfl⟩
    · rintro ⟨path, hx, rfl⟩
      exact List.mem_map.mpr ⟨(path, text), hx, rfl⟩
  · intro e he f hf hef
    obtain ⟨x, hx, rfl⟩ := List.mem_map.mp he
    obtain ⟨y, hy, rfl⟩ := List.mem_map.mp hf
    exact h x hx y hy hef

/-- The last leaf under a dotted name counts. -/
theorem get?_flatten_last {rest : List (List String × String)}
    (h : scalarsOf es = rest ++ [(path, text)]) :
    (flatten (table es)).get? (spelled path) = some text := by
  rw [flatten_table, Table.get?_ofList, h, List.map_append, List.reverse_append]
  simp [lookup]

theorem flatten_reordered_of_agree
    (h : ∀ x ∈ scalarsOf es, ∀ y ∈ scalarsOf es, spelled x.1 = spelled y.1 → x.2 = y.2)
    (hu : Reordered (table es) u) : (flatten (table es)).Same (flatten u) := by
  obtain ⟨fs, rfl⟩ := hu.exists_table ⟨es, rfl⟩
  have hperm : (scalarsOf es).Perm (scalarsOf fs) := hu.scalars_perm
  have hfs : ∀ x ∈ scalarsOf fs, ∀ y ∈ scalarsOf fs, spelled x.1 = spelled y.1 → x.2 = y.2 :=
    fun x hx y hy => h x (hperm.mem_iff.mpr hx) y (hperm.mem_iff.mpr hy)
  refine Properties.same_iff.mpr fun key => Option.ext fun text => ?_
  rw [get?_flatten_eq_some_iff h, get?_flatten_eq_some_iff hfs]
  simp only [hperm.mem_iff]

theorem agree_of_flatten_reordered
    (h : ∀ u, Reordered (table es) u → (flatten (table es)).Same (flatten u)) :
    ∀ x ∈ scalarsOf es, ∀ y ∈ scalarsOf es, spelled x.1 = spelled y.1 → x.2 = y.2 := by
  -- each of the two leaves comes last in some order, and there its text counts
  have hget : ∀ x ∈ scalarsOf es, (flatten (table es)).get? (spelled x.1) = some x.2 := by
    intro x hx
    obtain ⟨u, rest, hu, hlast⟩ := exists_reordered_last (t := table es) hx
    obtain ⟨fs, rfl⟩ := hu.exists_table ⟨es, rfl⟩
    rw [(h _ hu).get?]
    exact get?_flatten_last hlast
  intro x hx y hy hxy
  have htexts : some x.2 = some y.2 := by rw [← hget x hx, ← hget y hy, hxy]
  exact Option.some.inj htexts

/-- The properties are the same in every order just if leaves under one dotted name have the same
text. So they are where no name has a point and no table at the top has the empty name, because there
no two leaves stand under one dotted name. -/
theorem flatten_reordered_iff (es : List (String × Tree)) :
    ((∀ u, Reordered (table es) u → (flatten (table es)).Same (flatten u)) ↔
      ∀ x ∈ scalarsOf es, ∀ y ∈ scalarsOf es, spelled x.1 = spelled y.1 → x.2 = y.2) ∧
    (Named (fun k => '.' ∉ k.toList) id (table es) → (∀ fs, ("", table fs) ∉ es) →
      ((scalarsOf es).map fun x => spelled x.1).Nodup ∧
        ∀ u, Reordered (table es) u → (flatten (table es)).Same (flatten u)) := by
  refine ⟨⟨agree_of_flatten_reordered, fun h u => flatten_reordered_of_agree h⟩, ?_⟩
  intro hnamed htop
  have hnodup := nodup_spelled hnamed htop
  refine ⟨hnodup, fun u => flatten_reordered_of_agree ?_⟩
  intro x hx y hy hxy
  rw [List.inj_on_of_nodup_map hnodup hx hy hxy]

/-- A table in a table, with names that occur twice, but not in one table. -/
theorem flatten_reordered_iff_nested :
    let es := [("a", table [("b", scalar "1"), ("", scalar "2")]), ("b", scalar "3"),
      ("", scalar "4")]
    Named (fun k => '.' ∉ k.toList) id (table es) ∧ (∀ fs, ("", table fs) ∉ es) ∧
      (scalarsOf es).map (fun x => spelled x.1) = ["a.b", "a.", "b", ""] ∧
      ((scalarsOf es).map fun x => spelled x.1).Nodup ∧
      (flatten (table es)).Same (flatten (table es.reverse)) := by
  intro es
  have hnamed : Named (fun k => '.' ∉ k.toList) id (table es) := by
    refine .table (by decide) (by decide) ?_
    simp only [es, List.forall_mem_cons]
    refine ⟨.table (by decide) (by decide) ?_, .scalar _, .scalar _, by simp⟩
    simp only [List.forall_mem_cons]
    exact ⟨.scalar _, .scalar _, by simp⟩
  have htop : ∀ fs, ("", table fs) ∉ es := by simp [es]
  obtain ⟨hnodup, hsame⟩ := (flatten_reordered_iff es).2 hnamed htop
  exact ⟨hnamed, htop, rfl, hnodup, hsame _ (.entries (List.reverse_perm es).symm)⟩

/-- A point in a name looks like the point before one: two leaves stand under one dotted name, and
which of them counts depends on the order. -/
theorem flatten_ambiguous : ∃ t u : Tree, Named (fun _ => True) id t ∧ Reordered t u ∧
    (∃ x ∈ scalars t, ∃ y ∈ scalars t, x.1 ≠ y.1 ∧ spelled x.1 = spelled y.1) ∧
    (flatten t).get? "x.a.b" = some "2" ∧ (flatten u).get? "x.a.b" = some "1" := by
  let inner : List (String × Tree) := [("a.b", scalar "1"), ("a", table [("b", scalar "2")])]
  refine ⟨table [("x", table inner)], table [("x", table inner.reverse)], ?_, ?_, ?_, ?_, ?_⟩
  · refine .table (by decide) (by simp) ?_
    simp only [List.forall_mem_cons]
    refine ⟨.table (by decide) (by simp) ?_, by simp⟩
    simp only [inner, List.forall_mem_cons]
    refine ⟨.scalar _, .table (by decide) (by simp) ?_, by simp⟩
    simp only [List.forall_mem_cons]
    exact ⟨.scalar _, by simp⟩
  · exact .inside [] [] (.entries (List.reverse_perm _).symm)
  · exact ⟨(["x", "a.b"], "1"), by simp [scalars, scalarsOf, inner],
      (["x", "a", "b"], "2"), by simp [scalars, scalarsOf, inner], by decide, rfl⟩
  · rfl
  · rfl

end Config.Tree

end CellReplay
