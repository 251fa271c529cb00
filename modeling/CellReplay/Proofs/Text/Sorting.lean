import CellReplay.Text.Join
import Mathlib.Data.List.Sort

/-!
# Proofs.Text.Sorting

What ordering by insertion does to a list. The order is a test that compares any two elements
(`Std.Total`) and composes (`IsTrans`).

* `sortBy_perm`, `sortBy_pairwise` — the result has the same elements and is in order.
* `sortBy_eq_self`  — a list that is in order stays as it is.
* `sortBy_eq_of_perm` — the result does not depend on the order before.
* `filter_sortBy`   — leaving elements out and ordering can be exchanged.
* `eq_of_ascending` — a list that ascends strictly is known from its elements.
-/

namespace CellReplay.Text

section Sorting

variable {α : Type} {le : α → α → Bool}

theorem insertBy_eq_orderedInsert (le : α → α → Bool) (x : α) (xs : List α) :
    insertBy le x xs = xs.orderedInsert (fun a b => le a b = true) x := by
  induction xs with
  | nil => rfl
  | cons y ys ih =>
    unfold insertBy
    rw [ih, List.orderedInsert_cons]

theorem sortBy_eq_insertionSort (le : α → α → Bool) (xs : List α) :
    sortBy le xs = xs.insertionSort (fun a b => le a b = true) := by
  induction xs with
  | nil => rfl
  | cons x xs ih => rw [sortBy, ih, insertBy_eq_orderedInsert, List.insertionSort_cons]

theorem sortBy_perm (le : α → α → Bool) (xs : List α) : (sortBy le xs).Perm xs := by
  rw [sortBy_eq_insertionSort]
  exact List.perm_insertionSort _ xs

theorem sortBy_pairwise [Std.Total fun a b => le a b = true] [IsTrans α fun a b => le a b = true]
    (xs : List α) : (sortBy le xs).Pairwise fun a b => le a b = true := by
  rw [sortBy_eq_insertionSort]
  exact List.pairwise_insertionSort _ xs

theorem sortBy_eq_self {xs : List α} (h : xs.Pairwise fun a b => le a b = true) :
    sortBy le xs = xs := by
  rw [sortBy_eq_insertionSort]
  exact h.insertionSort_eq

/-- Ordering the same elements gives the same list, if elements that come before each other are the
same. -/
theorem sortBy_eq_of_perm [Std.Total fun a b => le a b = true] [IsTrans α fun a b => le a b = true]
    [Std.Antisymm fun a b => le a b = true] {xs ys : List α} (h : xs.Perm ys) :
    sortBy le xs = sortBy le ys := by
  have hperm : (sortBy le xs).Perm (sortBy le ys) :=
    ((sortBy_perm le xs).trans h).trans (sortBy_perm le ys).symm
  refine List.Perm.eq_of_pairwise ?_ (sortBy_pairwise xs) (sortBy_pairwise ys) hperm
  intro a b _ _ hab hba
  exact Std.Antisymm.antisymm (r := fun a b => le a b = true) a b hab hba

theorem filter_insertBy [IsTrans α fun a b => le a b = true] {xs : List α} (p : α → Bool) (x : α)
    (h : xs.Pairwise fun a b => le a b = true) :
    (insertBy le x xs).filter p = if p x then insertBy le x (xs.filter p) else xs.filter p := by
  induction xs with
  | nil => simp [insertBy, List.filter_cons]
  | cons y ys ih =>
    obtain ⟨hy, hys⟩ := List.pairwise_cons.mp h
    by_cases hxy : le x y = true
    · -- everything behind `y` comes after `x` too, so the test may drop `y` but not move `x`
      have hall : ∀ z ∈ (y :: ys).filter p, le x z = true := by
        intro z hz
        rcases List.mem_cons.mp (List.mem_filter.mp hz).1 with rfl | hz
        · exact hxy
        · exact IsTrans.trans (r := fun a b => le a b = true) x y z hxy (hy z hz)
      rw [insertBy, if_pos hxy, List.filter_cons]
      by_cases hp : p x = true
      · rw [if_pos hp, if_pos hp]
        generalize (y :: ys).filter p = zs at hall
        cases zs with
        | nil => rfl
        | cons z zs => rw [insertBy, if_pos (hall z (by simp))]
      · rw [if_neg hp, if_neg hp]
    · rw [insertBy, if_neg hxy, List.filter_cons, List.filter_cons, ih hys]
      by_cases hp : p x = true <;> by_cases hq : p y = true <;> simp [hp, hq, insertBy, hxy]

/-- Ordering is stable, so it does not matter whether elements are left out before or after. -/
theorem filter_sortBy [Std.Total fun a b => le a b = true] [IsTrans α fun a b => le a b = true]
    (p : α → Bool) (xs : List α) : (sortBy le xs).filter p = sortBy le (xs.filter p) := by
  induction xs with
  | nil => rfl
  | cons x xs ih =>
    rw [sortBy, filter_insertBy p x (sortBy_pairwise xs), ih, List.filter_cons]
    split <;> rfl

end Sorting

/-- Two lists that ascend strictly by some number and have the same elements are the same. -/
theorem eq_of_ascending {α : Type} {f : α → Int} {xs ys : List α}
    (hx : xs.Pairwise fun a b => f a < f b) (hy : ys.Pairwise fun a b => f a < f b)
    (h : ∀ a, a ∈ xs ↔ a ∈ ys) : xs = ys := by
  have : Std.Irrefl fun a b : α => f a < f b := ⟨fun a => lt_irrefl (f a)⟩
  have : Std.Antisymm fun a b : α => f a < f b :=
    ⟨fun a b hab hba => absurd hab (lt_asymm hba)⟩
  exact hx.eq_of_mem_iff hy fun {a} => h a

theorem sortBy_ascending {α : Type} {f : α → Int} {xs : List α}
    (h : xs.Pairwise fun a b => f a ≠ f b) :
    (sortBy (fun a b => decide (f a ≤ f b)) xs).Pairwise fun a b => f a < f b := by
  have : Std.Total fun a b : α => decide (f a ≤ f b) = true :=
    ⟨fun a b => by simpa using le_total (f a) (f b)⟩
  have : IsTrans α fun a b : α => decide (f a ≤ f b) = true :=
    ⟨fun a b c => by simpa using fun hab hbc => le_trans hab hbc⟩
  have hne : (sortBy (fun a b => decide (f a ≤ f b)) xs).Pairwise fun a b => f a ≠ f b :=
    h.perm (sortBy_perm _ xs).symm fun hab => Ne.symm hab
  refine ((sortBy_pairwise xs).and hne).imp ?_
  intro a b hab
  exact lt_of_le_of_ne (by simpa using hab.1) hab.2

end CellReplay.Text
