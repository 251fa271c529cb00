/-!
# Table

Finite maps. The entries stand in the order in which their keys came first.

* `Table.get?`, `Table.put`, `Table.keep` — the value at a key, a new one, a part of the table.
* `Table.ofList` — pairs put one after the other, so that the last one for a key counts.

`get?` is the view of a table: each operation has one equation through it.
-/

namespace CellReplay

def lookup {κ α : Type} [DecidableEq κ] (k : κ) : List (κ × α) → Option α
  | [] => none
  | e :: es => if e.1 = k then some e.2 else lookup k es

/-- The pairs with `k` now at `v`, in the place where `k` was or else at the end. -/
def replace {κ α : Type} [DecidableEq κ] (k : κ) (v : α) : List (κ × α) → List (κ × α)
  | [] => [(k, v)]
  | e :: es => if e.1 = k then (k, v) :: es else e :: replace k v es

theorem mem_keys_replace {κ α : Type} [DecidableEq κ] {k x : κ} {v : α} {es : List (κ × α)} :
    x ∈ (replace k v es).map Prod.fst ↔ x = k ∨ x ∈ es.map Prod.fst := by
  induction es with
  | nil => simp [replace]
  | cons e es ih =>
    unfold replace
    split
    · next h => simp [← h]
    · next h =>
      simp only [List.map_cons, List.mem_cons, ih]
      constructor
      · rintro (h | h | h) <;> simp [h]
      · rintro (h | h | h) <;> simp [h]

theorem mem_of_mem_replace {κ α : Type} [DecidableEq κ] {k : κ} {v : α} {es : List (κ × α)}
    {e : κ × α} (h : e ∈ replace k v es) : e = (k, v) ∨ e ∈ es := by
  induction es with
  | nil => exact .inl (List.mem_singleton.mp h)
  | cons f es ih =>
    unfold replace at h
    split at h
    · rcases List.mem_cons.mp h with h | h
      · exact .inl h
      · exact .inr (List.mem_cons_of_mem f h)
    · rcases List.mem_cons.mp h with rfl | h
      · exact .inr List.mem_cons_self
      · exact (ih h).imp id (List.mem_cons_of_mem f)

theorem nodup_replace {κ α : Type} [DecidableEq κ] {k : κ} {v : α} {es : List (κ × α)}
    (h : (es.map Prod.fst).Nodup) : ((replace k v es).map Prod.fst).Nodup := by
  induction es with
  | nil => simp [replace]
  | cons e es ih =>
    simp only [List.map_cons, List.nodup_cons] at h
    unfold replace
    split
    · next he =>
      simp only [List.map_cons, List.nodup_cons]
      exact ⟨he ▸ h.1, h.2⟩
    · next he =>
      simp only [List.map_cons, List.nodup_cons, mem_keys_replace, not_or]
      exact ⟨⟨he, h.1⟩, ih h.2⟩

theorem lookup_replace {κ α : Type} [DecidableEq κ] (k x : κ) (v : α) (es : List (κ × α)) :
    lookup x (replace k v es) = if k = x then some v else lookup x es := by
  induction es with
  | nil => simp [replace, lookup]
  | cons e es ih =>
    unfold replace
    split
    · next h =>
      by_cases hx : k = x
      · simp [lookup, hx]
      · simp [lookup, hx, h]
    · next h =>
      simp only [lookup, ih]
      by_cases hx : k = x
      · subst hx; simp [h]
      · simp [hx]

theorem lookup_eq_some_iff {κ α : Type} [DecidableEq κ] {k : κ} {v : α} {es : List (κ × α)}
    (h : (es.map Prod.fst).Nodup) : lookup k es = some v ↔ (k, v) ∈ es := by
  induction es with
  | nil => simp [lookup]
  | cons e es ih =>
    obtain ⟨x, y⟩ := e
    simp only [List.map_cons, List.nodup_cons] at h
    by_cases hk : x = k
    · subst hk
      have hx : (x, v) ∉ es := fun hm => h.1 (List.mem_map_of_mem hm)
      simp [lookup, hx, eq_comm]
    · simp [lookup, hk, ih h.2, Ne.symm hk]

theorem lookup_append {κ α : Type} [DecidableEq κ] (k : κ) (es fs : List (κ × α)) :
    lookup k (es ++ fs) = (lookup k es).or (lookup k fs) := by
  induction es with
  | nil => rfl
  | cons e es ih =>
    rw [List.cons_append, lookup, lookup]
    split
    · rfl
    · exact ih

theorem mem_of_lookup {κ α : Type} [DecidableEq κ] {k : κ} {v : α} {es : List (κ × α)}
    (h : lookup k es = some v) : (k, v) ∈ es := by
  induction es with
  | nil => cases h
  | cons e es ih =>
    rw [lookup] at h
    split at h
    · next hk =>
      cases h
      rw [← hk]
      exact List.mem_cons_self
    · exact List.mem_cons_of_mem _ (ih h)

theorem isSome_lookup_iff {κ α : Type} [DecidableEq κ] {k : κ} {es : List (κ × α)} :
    (lookup k es).isSome ↔ k ∈ es.map Prod.fst := by
  induction es with
  | nil => simp [lookup]
  | cons e es ih =>
    by_cases hk : e.1 = k
    · simp [lookup, hk]
    · simp [lookup, hk, ih, Ne.symm hk]

/-- A key that is not there comes last. -/
theorem replace_eq_append {κ α : Type} [DecidableEq κ] {k : κ} {es : List (κ × α)} (v : α)
    (h : lookup k es = none) : replace k v es = es ++ [(k, v)] := by
  induction es with
  | nil => rfl
  | cons e es ih =>
    rw [lookup] at h
    split at h
    · cases h
    · next hk => rw [replace, if_neg hk, ih h, List.cons_append]

structure Table (κ α : Type) where
  entries : List (κ × α)
  nodup : (entries.map Prod.fst).Nodup
  deriving DecidableEq, Repr

namespace Table

variable {κ α : Type} [DecidableEq κ]

def empty : Table κ α := ⟨[], .nil⟩

instance : Inhabited (Table κ α) := ⟨empty⟩

def get? (t : Table κ α) (k : κ) : Option α := lookup k t.entries

def contains (t : Table κ α) (k : κ) : Bool := (t.get? k).isSome

def put (t : Table κ α) (k : κ) (v : α) : Table κ α := ⟨replace k v t.entries, nodup_replace t.nodup⟩

def keys (t : Table κ α) : List κ := t.entries.map Prod.fst

def size (t : Table κ α) : Nat := t.entries.length

def keep (t : Table κ α) (p : κ → Bool) : Table κ α where
  entries := t.entries.filter fun e => p e.1
  nodup := (t.nodup.sublist (List.Sublist.map _ List.filter_sublist))

def erase (t : Table κ α) (k : κ) : Table κ α := t.keep (· ≠ k)

def ofList (es : List (κ × α)) : Table κ α := es.foldl (fun t e => t.put e.1 e.2) empty

omit [DecidableEq κ] in
theorem length_keys (t : Table κ α) : t.keys.length = t.size := List.length_map _

theorem get?_empty (k : κ) : (empty : Table κ α).get? k = none := rfl

theorem get?_put (t : Table κ α) (k x : κ) (v : α) :
    (t.put k v).get? x = if k = x then some v else t.get? x :=
  lookup_replace k x v t.entries

/-- Of the pairs with one key the last one counts. -/
theorem get?_ofList (es : List (κ × α)) (k : κ) : (ofList es).get? k = lookup k es.reverse := by
  have hput (t : Table κ α) : (es.foldl (fun t e => t.put e.1 e.2) t).get? k =
      (lookup k es.reverse).or (t.get? k) := by
    induction es generalizing t with
    | nil => rfl
    | cons e es ih =>
      rw [List.foldl_cons, ih, get?_put, List.reverse_cons, lookup_append, Option.or_assoc]
      congr 1
      rw [lookup]
      split <;> rfl
  exact (hput empty).trans Option.or_none

/-- Where pairs with the same key have the same value, their order does not count. -/
theorem get?_ofList_eq_some_iff {es : List (κ × α)}
    (h : ∀ e ∈ es, ∀ f ∈ es, e.1 = f.1 → e.2 = f.2) {k : κ} {v : α} :
    (ofList es).get? k = some v ↔ (k, v) ∈ es := by
  rw [get?_ofList]
  constructor
  · intro hv
    exact List.mem_reverse.mp (mem_of_lookup hv)
  · intro hmem
    have hsome : (lookup k es.reverse).isSome :=
      isSome_lookup_iff.mpr (List.mem_map_of_mem (List.mem_reverse.mpr hmem))
    obtain ⟨u, hu⟩ := Option.isSome_iff_exists.mp hsome
    rw [hu]
    exact congrArg some (h _ (List.mem_reverse.mp (mem_of_lookup hu)) _ hmem rfl)

theorem get?_keep (t : Table κ α) (p : κ → Bool) (k : κ) :
    (t.keep p).get? k = if p k then t.get? k else none := by
  simp only [get?, keep]
  generalize t.entries = es
  induction es with
  | nil => simp [lookup]
  | cons e es ih =>
    by_cases hk : e.1 = k
    · subst hk
      by_cases hp : p e.1 <;> simp_all [lookup]
    · by_cases hp : p e.1 <;> simp_all [lookup]

theorem get?_erase (t : Table κ α) (k x : κ) :
    (t.erase k).get? x = if x = k then none else t.get? x := by
  by_cases h : x = k <;> simp [erase, get?_keep, h]

theorem get?_eq_some_iff (t : Table κ α) (k : κ) (v : α) :
    t.get? k = some v ↔ (k, v) ∈ t.entries := lookup_eq_some_iff t.nodup

theorem mem_keys_iff (t : Table κ α) (k : κ) : k ∈ t.keys ↔ (t.get? k).isSome :=
  isSome_lookup_iff.symm

end Table

end CellReplay
