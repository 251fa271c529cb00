import CellReplay.Pattern.Meaning
import CellReplay.Proofs.Pattern.Positions

/-!
# Proofs.Pattern.Counts

The bounds of a count are in order in every pattern that is well formed, so that deciding a match by
sets of positions is right for its expression.

* `Tree.Counted`     — the bounds of every repetition are in order.
* `body_counted`     — they are in what a pattern's parts are read as.
* `parse_eq_some`, `spelled?_eq_some` — when a text is a pattern, and what it spells.
* `spelled?_counted` — so the bounds are in order in the expression, too.
-/

namespace CellReplay.Pattern

/-- The bounds of every repetition are in order. -/
def Tree.Counted : Tree → Prop
  | .repeated t min max => t.Counted ∧ ∀ m ∈ max, min ≤ m
  | .group _ t => t.Counted
  | .alternatives s t | .sequence s t => s.Counted ∧ t.Counted
  | _ => True

variable {E : Engine} {v : Bool} {cs rest : List Char} {min : Nat} {max : Option Nat}

theorem count_ordered (h : count v cs = some ((min, max), rest)) : ∀ m ∈ max, min ≤ m := by
  unfold count at h
  obtain ⟨first, -, hrest⟩ := Option.bind_eq_some_iff.mp h
  split at hrest
  · cases hrest
    rintro _ ⟨⟩
    exact Nat.le_refl _
  · split at hrest
    · cases hrest
      rintro _ ⟨⟩
    · obtain ⟨second, -, hlast⟩ := Option.bind_eq_some_iff.mp hrest
      split at hlast
      · split at hlast
        · next hle =>
          cases hlast
          rintro _ ⟨⟩
          exact hle
        · cases hlast
      · cases hlast
  · cases hrest

theorem repetition?_ordered (h : repetition? v cs = some (some ((min, max), rest))) :
    ∀ m ∈ max, min ≤ m := by
  unfold repetition? at h
  split at h
  · cases h; rintro _ ⟨⟩; exact Nat.zero_le _
  · cases h; rintro _ ⟨⟩
  · cases h; rintro _ ⟨⟩
  · obtain ⟨⟨c, rest'⟩, hc, h⟩ := Option.map_eq_some_iff.mp (Option.some.inj h)
    cases h
    exact count_ordered hc
  · cases h

theorem atom_counted {t : Tree} (h : atom v cs = some (t, rest)) : t.Counted := by
  unfold atom at h
  split at h
  · cases h
  · obtain ⟨⟨e, rest'⟩, -, h⟩ := Option.map_eq_some_iff.mp h
    cases e <;> cases h <;> trivial
  · cases h; trivial
  · cases h; trivial
  · cases h; trivial
  · obtain ⟨⟨c, rest'⟩, -, h⟩ := Option.bind_eq_some_iff.mp h
    cases h
    trivial
  · cases h; trivial

theorem Tree.repeat?_counted {t u : Tree} (ht : t.Counted) (hmax : ∀ m ∈ max, min ≤ m)
    (h : t.repeat? min max = some u) : u.Counted := by
  unfold Tree.repeat? at h
  split at h <;> cases h
  exact ⟨ht, hmax⟩

theorem Tree.ofSequence_counted {ts : List Tree} (h : ∀ t ∈ ts, t.Counted) :
    (Tree.ofSequence ts).Counted := by
  induction ts with
  | nil => trivial
  | cons t ts ih =>
    have ht := h t List.mem_cons_self
    cases ts with
    | nil => exact ht
    | cons u us => exact ⟨ht, ih fun t hm => h t (List.mem_cons_of_mem _ hm)⟩

theorem Tree.ofAlternatives_counted {ts : List Tree} (h : ∀ t ∈ ts, t.Counted) :
    (Tree.ofAlternatives ts).Counted := by
  induction ts with
  | nil => trivial
  | cons t ts ih =>
    have ht := h t List.mem_cons_self
    cases ts with
    | nil => exact ht
    | cons u us => exact ⟨ht, ih fun t hm => h t (List.mem_cons_of_mem _ hm)⟩

theorem body_counted {fuel : Nat} {names : List (List Char)} {branches done : List Tree}
    {x : Tree × List (List Char) × List Char} (hbranches : ∀ t ∈ branches, t.Counted)
    (hdone : ∀ t ∈ done, t.Counted) (h : body fuel v names branches done cs = some x) :
    x.1.Counted := by
  induction fuel generalizing v names branches done cs x with
  | zero => cases h
  | succ fuel ih =>
    have hbranch : (Tree.ofSequence done.reverse).Counted :=
      Tree.ofSequence_counted fun t ht => hdone t (List.mem_reverse.mp ht)
    have hall : ∀ t ∈ Tree.ofSequence done.reverse :: branches, t.Counted :=
      List.forall_mem_cons.mpr ⟨hbranch, hbranches⟩
    have hwhole : (Tree.ofAlternatives (Tree.ofSequence done.reverse :: branches).reverse).Counted :=
      Tree.ofAlternatives_counted fun t ht => hall t (List.mem_reverse.mp ht)
    have hmore {t : Tree} (ht : t.Counted) : ∀ u ∈ t :: done, u.Counted :=
      List.forall_mem_cons.mpr ⟨ht, hdone⟩
    have hnone : ∀ t ∈ [], Tree.Counted t := List.forall_mem_nil _
    rw [body] at h
    dsimp only at h
    split at h
    · cases h; exact hwhole
    · cases h; exact hwhole
    · exact ih hall hnone h
    · obtain ⟨⟨o, rest⟩, -, h⟩ := Option.bind_eq_some_iff.mp h
      cases o with
      | flags change => exact ih hbranches (hmore (t := .flags change) trivial) h
      | group change =>
        obtain ⟨⟨t, names, rest'⟩, ht, h⟩ := Option.bind_eq_some_iff.mp h
        dsimp only at h
        split at h
        · cases h
        · exact ih hbranches (hmore (t := .group change t) (ih hnone hnone ht)) h
      | named name =>
        dsimp only at h
        split at h
        · cases h
        · obtain ⟨⟨t, names, rest'⟩, ht, h⟩ := Option.bind_eq_some_iff.mp h
          dsimp only at h
          split at h
          · cases h
          · exact ih hbranches (hmore (t := .group [] t) (ih hnone hnone ht)) h
    · split at h
      · next r hr =>
        obtain ⟨⟨⟨min, max⟩, rest⟩, rfl, hbody⟩ := Option.bind_eq_some_iff.mp h
        split at hbody
        · cases hbody
        · next t done =>
          obtain ⟨hlast, hdone⟩ := List.forall_mem_cons.mp hdone
          obtain ⟨u, hu, hbody⟩ := Option.bind_eq_some_iff.mp hbody
          have hu := Tree.repeat?_counted hlast (repetition?_ordered hr) hu
          exact ih hbranches (List.forall_mem_cons.mpr ⟨hu, hdone⟩) hbody
      · obtain ⟨⟨t, rest⟩, ht, h⟩ := Option.bind_eq_some_iff.mp h
        exact ih hbranches (hmore (atom_counted ht)) h

theorem parse_eq_some {t : Tree} :
    parse cs = some t ↔
      (∃ names, body (cs.length + 1) false [] [] [] cs = some (t, names, [])) ∧
        t.depth ≤ maxDepth := by
  unfold parse
  constructor
  · intro h
    split at h
    · next names hbody =>
      split at h
      · next hdepth =>
        cases h
        exact ⟨⟨names, hbody⟩, hdepth⟩
      · cases h
    · cases h
  · rintro ⟨⟨names, hbody⟩, hdepth⟩
    simp only [hbody]
    exact if_pos hdepth

theorem parse_counted {t : Tree} (h : parse cs = some t) : t.Counted := by
  obtain ⟨⟨names, hbody⟩, -⟩ := parse_eq_some.mp h
  exact body_counted (List.forall_mem_nil _) (List.forall_mem_nil _) hbody

theorem Tree.regex?_counted {t : Tree} {f f' : Flags} {r : Regex} (ht : t.Counted)
    (h : t.regex? E f = some (r, f')) : r.Counted := by
  induction t generalizing f f' r with
  | empty | flags _ | assertion _ => cases h; trivial
  | literal _ | dot | shorthand _ _ | property _ _ =>
    obtain ⟨s, -, h⟩ := Option.map_eq_some_iff.mp h
    cases h
    trivial
  | bracketed negated c =>
    obtain ⟨s, -, h⟩ := Option.bind_eq_some_iff.mp h
    obtain ⟨s', -, h⟩ := Option.bind_eq_some_iff.mp h
    cases h
    trivial
  | repeated t min max ih =>
    obtain ⟨⟨r, g⟩, hr, h⟩ := Option.bind_eq_some_iff.mp h
    cases h
    exact ⟨ih ht.1 hr, ht.2⟩
  | group change t ih =>
    obtain ⟨⟨r, g⟩, hr, h⟩ := Option.bind_eq_some_iff.mp h
    cases h
    exact ih ht hr
  | alternatives s t ihs iht | sequence s t ihs iht =>
    obtain ⟨⟨r, g⟩, hr, h⟩ := Option.bind_eq_some_iff.mp h
    obtain ⟨⟨r', g'⟩, hr', h⟩ := Option.bind_eq_some_iff.mp h
    cases h
    exact ⟨ihs ht.1 hr, iht ht.2 hr'⟩

theorem spelled?_eq_some {r : Regex} :
    spelled? E cs = some r ↔ ∃ t f, parse cs = some t ∧ t.regex? E {} = some (r, f) := by
  unfold spelled?
  constructor
  · intro h
    obtain ⟨t, ht, h⟩ := Option.bind_eq_some_iff.mp h
    obtain ⟨⟨r', f⟩, hr, h⟩ := Option.bind_eq_some_iff.mp h
    cases h
    exact ⟨t, f, ht, hr⟩
  · rintro ⟨t, f, ht, hr⟩
    simp [ht, hr]

theorem spelled?_counted {r : Regex} (h : spelled? E cs = some r) : r.Counted := by
  obtain ⟨t, f, ht, hr⟩ := spelled?_eq_some.mp h
  exact Tree.regex?_counted (parse_counted ht) hr

theorem compile?_eq_some {r : Regex} :
    compile? E cs = some r ↔ spelled? E cs = some r ∧ E.fits cs r = true :=
  Option.filter_eq_some_iff

theorem compile?_counted {r : Regex} (h : compile? E cs = some r) : r.Counted :=
  spelled?_counted (compile?_eq_some.mp h).1

end CellReplay.Pattern
