import CellReplay.Proofs.Pattern.Rests

/-!
# Proofs.Pattern.Remains

A pattern's text read by itself, and the same text read with the end of the group that encloses it
behind it.

Each reader is run on both. While the text alone has not ended, both runs do the same. Where it has
ended, the run on the enclosed text goes on to what closes the group, and stops there or reads past
it; and where a comment has run to the end of the text, it runs over what closes the group too.

* `closing`          — what stands behind a text that is enclosed.
* `Remains`          — what is left of both.
* `Agrees`, `Within` — what a reader makes of both.
* `skip_remains`, `span_remains`, `list_span_closing` — blanks, comments and runs of characters.
-/

namespace CellReplay.Pattern

open Text

/-- What stands behind a pattern's text that is enclosed. -/
def closing : List Char := [')', '$']

/-- What is left to read of a text by itself, and of the same text with `closing` behind it. A
comment that has run to the end leaves nothing of both. -/
inductive Remains : List Char → List Char → Prop
  | closed (cs : List Char) : Remains cs (cs ++ closing)
  | lost : Remains [] []

/-- Both texts are refused, or the same is read of both and what is left is left of the same text. -/
inductive Agrees {α : Type} : Option (α × List Char) → Option (α × List Char) → Prop
  | refused : Agrees none none
  | read {a : α} {cs ds : List Char} (h : Remains cs ds) : Agrees (some (a, cs)) (some (a, ds))

/-- The same is read, or the text alone is refused and the enclosed one is read past `bound`. -/
inductive Within {α : Type} (bound : List Char) :
    Option (α × List Char) → Option (α × List Char) → Prop
  | agrees {alone inside : Option (α × List Char)} (h : Agrees alone inside) :
    Within bound alone inside
  | past {inside : Option (α × List Char)} (h : ∀ x ∈ inside, x.2 <:+ bound) :
    Within bound none inside

variable {α β : Type} {v : Bool} {c : Char} {cs ds xs ys : List Char} {p : Char → Bool} {n m : Nat}

/-- Case analysis on what stands first. -/
@[elab_as_elim]
theorem Remains.heads {motive : ∀ xs ys, Remains xs ys → Prop} (h : Remains xs ys)
    (lost : motive [] [] .lost) (ended : motive [] closing (.closed []))
    (more : ∀ c rest, motive (c :: rest) (c :: (rest ++ closing)) (.closed (c :: rest))) :
    motive xs ys h := by
  cases h with
  | lost => exact lost
  | closed =>
    cases xs with
    | nil => exact ended
    | cons c rest => exact more c rest

/-- Both texts start with `c`, or neither does. -/
theorem Remains.starts (hc : c ≠ ')') (h : Remains xs ys) :
    (∃ rest, xs = c :: rest ∧ ys = c :: (rest ++ closing)) ∨
      (∀ rest, xs = c :: rest → False) ∧ ∀ rest, ys = c :: rest → False := by
  cases h using Remains.heads with
  | lost => exact .inr ⟨nofun, nofun⟩
  | ended => exact .inr ⟨nofun, fun _ h => hc (List.cons.inj h).1.symm⟩
  | more d rest =>
    by_cases hd : d = c
    · subst hd
      exact .inl ⟨rest, rfl, rfl⟩
    · exact .inr ⟨fun _ h => hd (List.cons.inj h).1, fun _ h => hd (List.cons.inj h).1⟩

/-! ## Results -/

section Results

variable {bound bound' : List Char} {x y : Option (α × List Char)}
  {f g : α × List Char → Option (β × List Char)}

theorem Agrees.map (h : Agrees x y) (f : α → β) :
    Agrees (x.map fun a => (f a.1, a.2)) (y.map fun a => (f a.1, a.2)) := by
  cases h with
  | refused => exact .refused
  | read h => exact .read h

theorem Agrees.bind (h : Agrees x y)
    (hfg : ∀ a rest rest', Remains rest rest' → Agrees (f (a, rest)) (g (a, rest'))) :
    Agrees (x >>= f) (y >>= g) := by
  cases h with
  | refused => exact .refused
  | read h => exact hfg _ _ _ h

theorem Agrees.const (o : Option α) (f : α → β) (h : Remains cs ds) :
    Agrees (o.map fun a => (f a, cs)) (o.map fun a => (f a, ds)) := by
  cases o with
  | none => exact .refused
  | some a => exact .read h

theorem Within.refused : Within bound (none : Option (α × List Char)) none := .agrees .refused

theorem Within.read {a : α} (h : Remains cs ds) : Within bound (some (a, cs)) (some (a, ds)) :=
  .agrees (.read h)

theorem Within.of_read {a : α} (h : Within bound (some (a, cs)) y) :
    ∃ ds, y = some (a, ds) ∧ Remains cs ds := by
  cases h with
  | agrees h =>
    cases h with
    | read h => exact ⟨_, rfl, h⟩

theorem Within.inside_read {a : α} (h : Within bound x (some (a, ds))) :
    (∃ cs, x = some (a, cs) ∧ Remains cs ds) ∨ ds <:+ bound := by
  cases h with
  | agrees h =>
    cases h with
    | read h => exact .inl ⟨_, rfl, h⟩
  | past h => exact .inr (h _ rfl)

theorem Within.map (h : Within bound x y) (f : α → β) :
    Within bound (x.map fun a => (f a.1, a.2)) (y.map fun a => (f a.1, a.2)) := by
  cases h with
  | agrees h => exact .agrees (h.map f)
  | past h =>
    refine .past fun z hz => ?_
    obtain ⟨a, ha, rfl⟩ := Option.map_eq_some_iff.mp hz
    exact h a ha

theorem Within.past_read {a : α} (h : cs <:+ bound) : Within bound none (some (a, cs)) := by
  refine .past fun x hx => ?_
  cases hx
  exact h

theorem Within.bind (h : Within bound x y)
    (hfg : ∀ a rest rest', x = some (a, rest) → y = some (a, rest') → Remains rest rest' →
      Within bound' (f (a, rest)) (g (a, rest')))
    (hpast : ∀ a rest, rest <:+ bound → ∀ z ∈ g (a, rest), z.2 <:+ bound') :
    Within bound' (x >>= f) (y >>= g) := by
  cases h with
  | agrees h =>
    cases h with
    | refused => exact .refused
    | read h => exact hfg _ _ _ rfl rfl h
  | past h =>
    refine .past fun z hz => ?_
    obtain ⟨⟨a, rest⟩, hy, hz⟩ := Option.bind_eq_some_iff.mp hz
    exact hpast a rest (h _ hy) z hz

end Results

/-! ## Blanks -/

theorem dropWhile_append_closing (hp : p ')' = false) (cs : List Char) :
    (cs ++ closing).dropWhile p = cs.dropWhile p ++ closing := by
  rw [List.dropWhile_append]
  split
  · next h => rw [List.isEmpty_iff.mp h, closing, List.dropWhile_cons, hp]; rfl
  · rfl

theorem dropWhile_remains (hp : p ')' = false) (h : Remains cs ds) :
    Remains (cs.dropWhile p) (ds.dropWhile p) := by
  cases h with
  | lost => exact .lost
  | closed => exact dropWhile_append_closing hp cs ▸ .closed _

theorem skipComment_remains (cs : List Char) :
    Remains (skipComment cs) (skipComment (cs ++ closing)) := by
  unfold skipComment
  rw [List.dropWhile_append]
  split
  · next h =>
    rw [List.isEmpty_iff.mp h]
    exact .lost
  · next h =>
    have hle : 1 ≤ (cs.dropWhile (· ≠ '\n')).length :=
      List.length_pos_iff.mpr fun hnil => h (by rw [hnil]; rfl)
    rw [List.drop_append_of_le_length hle]
    exact .closed _

@[simp] theorem skipFrom_nil (n : Nat) : skipFrom n [] = [] := by cases n <;> rfl

@[simp] theorem skipFrom_closing (n : Nat) : skipFrom n closing = closing := by cases n <;> rfl

theorem skipFrom_remains (h : Remains cs ds) (hn : cs.length ≤ n) (hm : ds.length ≤ m) :
    Remains (skipFrom n cs) (skipFrom m ds) := by
  have hend : Remains [] closing := .closed []
  induction n generalizing m cs ds with
  | zero =>
    obtain rfl := List.length_eq_zero_iff.mp (Nat.le_zero.mp hn)
    cases h with
    | closed => simpa using hend
    | lost => simpa using Remains.lost
  | succ n ih =>
    cases h using Remains.heads with
    | lost => simpa using Remains.lost
    | ended => simpa using hend
    | more c cs =>
      cases m with
      | zero => exact absurd hm (Nat.not_succ_le_zero _)
      | succ m =>
        have hn := Nat.le_of_succ_le_succ hn
        have hm := Nat.le_of_succ_le_succ hm
        rw [skipFrom, skipFrom]
        split
        · exact ih (.closed cs) hn hm
        · split
          · exact ih (skipComment_remains cs) ((skipComment_suffix _).length_le.trans hn)
              ((skipComment_suffix _).length_le.trans hm)
          · exact .closed (c :: cs)

theorem skip_remains (v : Bool) (h : Remains cs ds) : Remains (skip v cs) (skip v ds) := by
  unfold skip
  split
  · exact skipFrom_remains h (Nat.le_refl _) (Nat.le_refl _)
  · exact h

/-! ## Runs of characters -/

/-- Two runs of characters that pass the test `p`: alike, or one to the end of the text alone and the
other past it. -/
inductive RunsAlike (p : Char → Bool) : List Char × List Char → List Char × List Char → Prop
  | alike {taken cs ds : List Char} (h : Remains cs ds) : RunsAlike p (taken, cs) (taken, ds)
  | past {taken taken' ds : List Char} (hp : p ')' = true) (h : ds <:+ ['$']) :
    RunsAlike p (taken, []) (taken', ds)

@[simp] theorem takeSkipping_nil (n : Nat) : takeSkipping v p n [] = ([], []) := by
  cases n <;> rfl

theorem takeSkipping_end (hm : closing.length ≤ m) :
    RunsAlike p (takeSkipping v p n []) (takeSkipping v p m closing) := by
  rw [takeSkipping_nil]
  cases m with
  | zero => exact absurd hm (by decide)
  | succ m =>
    rw [closing, takeSkipping]
    split
    · next hp => exact .past hp ((takeSkipping_suffix v p m _).trans (skip_suffix v _))
    · exact .alike (.closed [])

theorem takeSkipping_runsAlike (h : Remains cs ds) (hn : cs.length ≤ n) (hm : ds.length ≤ m) :
    RunsAlike p (takeSkipping v p n cs) (takeSkipping v p m ds) := by
  have hlost (n m : Nat) : RunsAlike p (takeSkipping v p n []) (takeSkipping v p m []) := by
    rw [takeSkipping_nil, takeSkipping_nil]
    exact .alike .lost
  induction n generalizing m cs ds with
  | zero =>
    obtain rfl := List.length_eq_zero_iff.mp (Nat.le_zero.mp hn)
    cases h with
    | closed => exact takeSkipping_end hm
    | lost => exact hlost _ _
  | succ n ih =>
    cases h using Remains.heads with
    | lost => exact hlost _ _
    | ended => exact takeSkipping_end hm
    | more c cs =>
      cases m with
      | zero => exact absurd hm (Nat.not_succ_le_zero _)
      | succ m =>
        have hrest := ih (skip_remains v (.closed cs))
          ((skip_suffix v _).length_le.trans (Nat.le_of_succ_le_succ hn))
          ((skip_suffix v _).length_le.trans (Nat.le_of_succ_le_succ hm))
        rw [takeSkipping, takeSkipping]
        split
        · generalize takeSkipping v p n (skip v cs) = x,
            takeSkipping v p m (skip v (cs ++ closing)) = y at hrest
          cases hrest with
          | alike h => exact .alike h
          | past hp h => exact .past hp h
        · exact .alike (.closed (c :: cs))

theorem span_runsAlike (v : Bool) (p : Char → Bool) (h : Remains cs ds) :
    RunsAlike p (span v p cs) (span v p ds) :=
  takeSkipping_runsAlike h (Nat.le_refl _) (Nat.le_refl _)

theorem span_remains (v : Bool) (hp : p ')' = false) (h : Remains cs ds) :
    ∃ taken rest rest', span v p cs = (taken, rest) ∧ span v p ds = (taken, rest') ∧
      Remains rest rest' := by
  have halike := span_runsAlike v p h
  generalize span v p cs = x, span v p ds = y at halike
  cases halike with
  | alike h => exact ⟨_, _, _, rfl, rfl, h⟩
  | past htrue _ => rw [hp] at htrue; cases htrue

/-- A run of characters that takes in what closes a pattern ends in the text alone or not at all. -/
theorem list_span_closing (hp : p ')' = true ∧ p '$' = true) (xs : List Char) :
    (∃ taken taken', xs.span p = (taken, []) ∧ (xs ++ closing).span p = (taken', [])) ∨
      ∃ taken c rest, xs.span p = (taken, c :: rest) ∧
        (xs ++ closing).span p = (taken, c :: (rest ++ closing)) := by
  simp only [List.span_eq_takeWhile_dropWhile, Prod.mk.injEq]
  induction xs with
  | nil => exact .inl ⟨[], closing, ⟨rfl, rfl⟩, by simp [closing, hp], by simp [closing, hp]⟩
  | cons c xs ih =>
    rw [List.cons_append, List.takeWhile_cons, List.takeWhile_cons, List.dropWhile_cons,
      List.dropWhile_cons]
    split
    · rcases ih with ⟨_, _, ⟨-, hx⟩, -, hy⟩ | ⟨taken, d, rest, ⟨htaken, hrest⟩, htaken', hrest'⟩
      · exact .inl ⟨_, _, ⟨rfl, hx⟩, rfl, hy⟩
      · exact .inr ⟨c :: taken, d, rest, ⟨by rw [htaken], hrest⟩, by rw [htaken'], hrest'⟩
    · exact .inr ⟨[], c, xs, ⟨rfl, rfl⟩, rfl, rfl⟩

/-- What a text does not start with, it does not start with where it is enclosed. -/
theorem append_closing_ne (start : List Char) (hstart : ')' ∉ start)
    (h : ∀ rest, xs = start ++ rest → False) (rest : List Char)
    (heq : xs ++ closing = start ++ rest) : False := by
  rcases List.append_eq_append_iff.mp heq with ⟨as, rfl, hclosing⟩ | ⟨more, rfl, -⟩
  · cases as with
    | nil => exact h [] (by rw [List.append_nil, List.append_nil])
    | cons c as =>
      rw [List.cons_append, closing, List.cons.injEq] at hclosing
      exact hstart (List.mem_append_right _ (hclosing.1 ▸ List.mem_cons_self))
  · exact h more rfl

end CellReplay.Pattern
