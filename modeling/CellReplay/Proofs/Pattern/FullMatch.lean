import CellReplay.Classifier
import CellReplay.Proofs.Pattern.Counts
import CellReplay.Proofs.Pattern.Enclosing

/-!
# Proofs.Pattern.FullMatch

What a classifier takes whose pattern's text has been enclosed to match from start to end, whichever
engine compiles it.

* `ClosesUnopened`       — a closing parenthesis of the text ends the group that encloses it; such a
  text is no pattern.
* `EndsInComment`        — the parenthesis that is to end that group is part of a comment.
* `Enclosable`           — the text spells an expression, by itself and enclosed.
* `parse_enclosed`       — how an enclosed text is read.
* `accepts_compiledBy`   — the cells that are taken are those that the expression matches as a whole.
* `enclosing_misread`    — a text that is no pattern and takes cells, and a pattern that takes none.
-/

namespace CellReplay.Pattern

variable {E : Engine} {s : List Char}

/-- A parenthesis of the text closes a group that the text has not opened. -/
def ClosesUnopened (s : List Char) : Prop :=
  ∃ t names rest, body (s.length + 1) false [] [] [] s = some (t, names, ')' :: rest)

/-- The text is a pattern, and stays the same one where `closing` stands behind it: a comment goes on
to the end. -/
def EndsInComment (s : List Char) : Prop :=
  ∃ t, parse s = some t ∧ parse (s ++ closing) = some t

instance (s : List Char) : Decidable (ClosesUnopened s) :=
  decidable_of_iff
    ((body (s.length + 1) false [] [] [] s).any fun x => x.2.2.head? = some ')') <| by
      simp only [Option.any_eq_true, decide_eq_true_eq]
      constructor
      · rintro ⟨⟨t, names, rest⟩, h, hrest⟩
        obtain ⟨more, rfl⟩ := List.head?_eq_some_iff.mp hrest
        exact ⟨t, names, more, h⟩
      · rintro ⟨t, names, rest, h⟩
        exact ⟨_, h, rfl⟩

instance (s : List Char) : Decidable (EndsInComment s) :=
  decidable_of_iff ((parse s).any fun t => parse (s ++ closing) = some t) <| by
    simp [EndsInComment, Option.any_eq_true]

/-- A text that closes more than it opens is no pattern. -/
theorem ClosesUnopened.spelled?_eq_none (h : ClosesUnopened s) : spelled? E s = none := by
  obtain ⟨t, names, rest, hopened⟩ := h
  cases hr : spelled? E s with
  | none => rfl
  | some r =>
    obtain ⟨u, f, hparse, -⟩ := spelled?_eq_some.mp hr
    obtain ⟨⟨names', hclosed⟩, -⟩ := parse_eq_some.mp hparse
    cases hopened.symm.trans hclosed

def Tree.enclosed (t : Tree) : Tree :=
  .sequence (.assertion .lineStart) (.sequence (.group [] t) (.assertion .lineEnd))

def Regex.enclosed (r : Regex) : Regex := .cat (.look .textStart) (.cat r (.look .textEnd))

theorem Tree.depth_enclosed (t : Tree) : t.enclosed.depth = t.depth + 2 := by
  simp only [Tree.enclosed, Tree.depth]
  omega

/-- Flags that a pattern sets stay within the group that encloses it. -/
theorem Tree.regex?_enclosed (t : Tree) :
    t.enclosed.regex? E {} = (t.regex? E {}).map fun x => (x.1.enclosed, {}) := by
  have hflags : ({} : Flags).change [] = {} := rfl
  simp only [Tree.enclosed, Tree.regex?, Option.bind_eq_bind, Option.bind_some, hflags]
  cases t.regex? E {} <;> rfl

theorem matches_textStart {text : List Char} {i j : Nat} :
    (Regex.look .textStart).Matches text i j ↔ i = 0 ∧ j = 0 := by
  simp only [Regex.Matches, Look.holds]
  cases i with
  | zero => simp [charBefore, eq_comm]
  | succ i =>
    simp only [charBefore, Option.isNone_iff_eq_none, List.getElem?_eq_none_iff]
    omega

theorem matches_textEnd {text : List Char} {i j : Nat} :
    (Regex.look .textEnd).Matches text i j ↔ i = text.length ∧ j = text.length := by
  simp only [Regex.Matches, Look.holds, Option.isNone_iff_eq_none, List.getElem?_eq_none_iff]
  omega

theorem Regex.found_enclosed {r : Regex} {text : List Char} :
    r.enclosed.Found text ↔ r.MatchesWhole text := by
  constructor
  · rintro ⟨i, j, -, k, hstart, l, hr, hend⟩
    obtain ⟨-, rfl⟩ := matches_textStart.mp hstart
    obtain ⟨rfl, -⟩ := matches_textEnd.mp hend
    exact hr
  · intro hr
    exact ⟨0, text.length, Nat.zero_le _, 0, matches_textStart.mpr ⟨rfl, rfl⟩, text.length, hr,
      matches_textEnd.mpr ⟨rfl, rfl⟩⟩

/-! ## Reading an enclosed text -/

variable {n : Nat} {t : Tree} {names : List (List Char)} {rest cs : List Char}

theorem body_opened (n : Nat) (rest : List Char) :
    body (n + 2) false [] [] [] ('^' :: '(' :: '?' :: ':' :: rest) =
      (body n false [] [] [] rest).bind fun x => x.2.2.head?.bind fun _ =>
        body n false x.2.1 [] [.group [] x.1, .assertion .lineStart] x.2.2.tail := by
  have hgroup : body (n + 2) false [] [] [] ('^' :: '(' :: '?' :: ':' :: rest) =
      body (n + 1) false [] [] [.assertion .lineStart] ('(' :: '?' :: ':' :: rest) := rfl
  have hopening : opening false ('?' :: ':' :: rest) = some (.group [], rest) := rfl
  have hskip : skip false ('(' :: '?' :: ':' :: rest) = '(' :: '?' :: ':' :: rest := rfl
  rw [hgroup, body, hskip]
  simp only [hopening, Option.bind_eq_bind, Option.bind_some]
  refine Option.bind_congr fun ⟨t, names, cs⟩ _ => ?_
  cases cs <;> rfl

theorem body_closed (n : Nat) (names : List (List Char)) (t : Tree) :
    body (n + 2) false names [] [.group [] t, .assertion .lineStart] ['$'] =
      some (t.enclosed, names, []) := rfl

theorem length_append_closing (s : List Char) : (s ++ closing).length = s.length + 2 := by
  simp [closing]

theorem body_within_closing (s : List Char) (hn : s.length + 2 < n) :
    Within ['$'] ((body (s.length + 1) false [] [] [] s).map parts)
      ((body n false [] [] [] (s ++ closing)).map parts) :=
  body_within (.closed s) (Nat.lt_succ_self _) (length_append_closing s ▸ hn)

/-- A text that is read to its end by itself is read to the same tree where it is enclosed. -/
theorem body_enclosed (h : body (s.length + 1) false [] [] [] s = some (t, names, [])) :
    ∃ rest, Remains [] rest ∧
      ∀ m, s.length + 3 ≤ m → body m false [] [] [] (s ++ closing) = some (t, names, rest) := by
  have hwithin := body_within_closing s (Nat.lt_succ_self _)
  rw [h] at hwithin
  obtain ⟨rest, hrest, hrem⟩ := hwithin.of_read
  exact ⟨rest, hrem, fun m hm => body_mono hm (map_parts_eq_some.mp hrest)⟩

/-- Where no parenthesis of the text closes the group that encloses it, that group ends where it
should, or not at all. -/
theorem body_of_enclosed (hs : ¬ClosesUnopened s) (hn : s.length + 2 < n)
    (h : body n false [] [] [] (s ++ closing) = some (t, names, rest)) :
    rest = [] ∨ rest = closing ∧ body (s.length + 1) false [] [] [] s = some (t, names, []) := by
  have hstops : rest = [] ∨ ∃ more, rest = ')' :: more := (body_ends h).stops
  have hwithin := body_within_closing s hn
  rw [map_parts_eq_some.mpr h] at hwithin
  rcases hwithin.inside_read with ⟨rest', hrest', hrem⟩ | hle
  · rw [map_parts_eq_some] at hrest'
    cases hrem using Remains.heads with
    | lost => exact .inl rfl
    | ended => exact .inr ⟨rfl, hrest'⟩
    | more c rest =>
      rcases hstops with hnil | ⟨more, hclose⟩
      · cases hnil
      · cases hclose
        exact (hs ⟨t, names, rest, hrest'⟩).elim
  · rcases hstops with hnil | ⟨more, rfl⟩
    · exact .inl hnil
    · rcases List.suffix_cons_iff.mp hle with heq | hnil
      · cases heq
      · cases List.suffix_nil.mp hnil

theorem body_enclosed_text (s : List Char) :
    body ((Classifier.enclosed s).length + 1) false [] [] [] (Classifier.enclosed s) =
      (body (s.length + 5) false [] [] [] (s ++ closing)).bind fun x => x.2.2.head?.bind fun _ =>
        body (s.length + 5) false x.2.1 [] [.group [] x.1, .assertion .lineStart] x.2.2.tail := by
  have hlen : (Classifier.enclosed s).length + 1 = s.length + 5 + 2 := by
    simp [Classifier.enclosed]
  rw [hlen]
  exact body_opened (s.length + 5) (s ++ closing)

/-- An enclosed text is well formed if the text is, ends in no comment and leaves room for the group
around it. -/
theorem parse_enclosed (hs : ¬ClosesUnopened s) {u : Tree} :
    parse (Classifier.enclosed s) = some u ↔
      ∃ t, parse s = some t ∧ ¬EndsInComment s ∧ t.depth + 2 ≤ maxDepth ∧ u = t.enclosed := by
  rw [parse_eq_some, body_enclosed_text]
  constructor
  · rintro ⟨⟨names, h⟩, hdepth⟩
    obtain ⟨⟨t, names', rest⟩, ht, h⟩ := Option.bind_eq_some_iff.mp h
    rcases body_of_enclosed hs (by omega) ht with rfl | ⟨rfl, hbody⟩
    · cases h
    · obtain rfl : t.enclosed = u :=
        congrArg (fun x => x.1) (Option.some.inj ((body_closed (s.length + 3) names' t).symm.trans h))
      rw [Tree.depth_enclosed] at hdepth
      refine ⟨t, parse_eq_some.mpr ⟨⟨names', hbody⟩, by omega⟩, ?_, hdepth, rfl⟩
      rintro ⟨t', -, ht'⟩
      obtain ⟨⟨names'', hlost⟩, -⟩ := parse_eq_some.mp ht'
      rw [length_append_closing] at hlost
      rw [body_mono (by omega) hlost] at ht
      cases ht
  · rintro ⟨t, ht, hcomment, hdepth, rfl⟩
    obtain ⟨⟨names, hbody⟩, hle⟩ := parse_eq_some.mp ht
    obtain ⟨rest, hrem, hrest⟩ := body_enclosed hbody
    cases hrem with
    | closed =>
      refine ⟨⟨names, ?_⟩, t.depth_enclosed ▸ hdepth⟩
      rw [hrest _ (by omega)]
      exact body_closed (s.length + 3) names t
    | lost =>
      refine (hcomment ⟨t, ht, parse_eq_some.mpr ⟨⟨names, ?_⟩, hle⟩⟩).elim
      rw [length_append_closing]
      exact hrest _ (Nat.le_refl _)

/-! ## Compiling an enclosed text -/

/-- The text spells `r`, by itself and enclosed: it does not end in a comment, and its depth and the
size of its program leave room for what encloses it. -/
structure Enclosable (E : Engine) (s : List Char) (r : Regex) : Prop where
  spelled : spelled? E s = some r
  uncommented : ¬EndsInComment s
  shallow : ∀ t, parse s = some t → t.depth + 2 ≤ maxDepth
  fits : E.fits (Classifier.enclosed s) r.enclosed = true

theorem compile?_enclosed (hs : ¬ClosesUnopened s) {q : Regex} :
    compile? E (Classifier.enclosed s) = some q ↔ ∃ r, Enclosable E s r ∧ q = r.enclosed := by
  simp only [compile?_eq_some, spelled?_eq_some, parse_enclosed hs]
  constructor
  · rintro ⟨⟨_, f, ⟨t, ht, hcomment, hdepth, rfl⟩, hq⟩, hfits⟩
    rw [Tree.regex?_enclosed] at hq
    obtain ⟨⟨r, g⟩, hr, heq⟩ := Option.map_eq_some_iff.mp hq
    cases heq
    refine ⟨r, ⟨spelled?_eq_some.mpr ⟨t, g, ht, hr⟩, hcomment, ?_, hfits⟩, rfl⟩
    intro t' ht'
    cases ht.symm.trans ht'
    exact hdepth
  · rintro ⟨r, ⟨hspelled, hcomment, hshallow, hfits⟩, rfl⟩
    obtain ⟨t, f, ht, hr⟩ := spelled?_eq_some.mp hspelled
    refine ⟨⟨t.enclosed, {}, ⟨t, ht, hcomment, hshallow t ht, rfl⟩, ?_⟩, hfits⟩
    rw [Tree.regex?_enclosed, hr]
    rfl

end CellReplay.Pattern

namespace CellReplay.Classifier

open Pattern Text

/-- No text is taken for a pattern that is none, and a pattern takes what it matches from start to
end, unless a parenthesis in it closes the group around it. -/
theorem accepts_compiledBy (E : Engine) (p : Option String) (raw : String)
    (hp : ¬ClosesUnopened (trim (p.getD "").toList)) :
    (compiledBy E p).accepts raw = true ↔
      raw ≠ "" ∧ trim (p.getD "").toList ≠ [] ∧
        ∃ r, Enclosable E (trim (p.getD "").toList) r ∧ r.MatchesWhole raw.toList := by
  have hraw : (!raw.isEmpty) = true ↔ raw ≠ "" := by simp
  unfold accepts compiledBy
  generalize trim (p.getD "").toList = s at hp ⊢
  rw [Bool.and_eq_true, hraw]
  refine and_congr_right fun _ => ?_
  cases s with
  | nil => simp
  | cons c s =>
    have hfound (q : Regex) (hq : compile? E (enclosed (c :: s)) = some q) :
        q.isFound raw.toList = true ↔ q.Found raw.toList := Regex.isFound_iff (compile?_counted hq)
    simp only [List.isEmpty_cons, Bool.false_eq_true, if_false]
    constructor
    · intro h
      cases hq : compile? E (enclosed (c :: s)) with
      | none => rw [hq] at h; cases h
      | some q =>
        rw [hq] at h
        obtain ⟨r, hr, rfl⟩ := (compile?_enclosed hp).mp hq
        exact ⟨List.cons_ne_nil c s, r, hr, Regex.found_enclosed.mp ((hfound _ hq).mp h)⟩
    · rintro ⟨-, r, hr, hwhole⟩
      have hq := (compile?_enclosed hp).mpr ⟨r, hr, rfl⟩
      rw [hq]
      exact (hfound _ hq).mpr (Regex.found_enclosed.mpr hwhole)

theorem accepts_compiledBy_alternatives :
    ¬ClosesUnopened (trim "%(py|sh) [a-z]+".toList) ∧
      ∃ r, Enclosable .tabled (trim "%(py|sh) [a-z]+".toList) r ∧
        r.MatchesWhole "%sh ls".toList := by
  have hopened : ¬ClosesUnopened (trim ((some "%(py|sh) [a-z]+").getD "").toList) := by
    decide +kernel
  have haccepts : (compiledBy .tabled (some "%(py|sh) [a-z]+")).accepts "%sh ls" = true := by
    decide +kernel
  exact ⟨hopened, ((accepts_compiledBy .tabled _ _ hopened).mp haccepts).2.2⟩

/-- A text that is no pattern takes a cell, and a pattern with a comment at its end takes none of
those that it matches. -/
theorem enclosing_misread :
    (spelled? .tabled "a)|(?:b".toList = none ∧
        (ofPattern (some "a)|(?:b")).accepts "ax" = true) ∧
      (∃ r, compile? .tabled "(?x)a#b".toList = some r ∧ r.MatchesWhole "a".toList) ∧
        (ofPattern (some "(?x)a#b")).accepts "a" = false := by
  have hopened : ClosesUnopened "a)|(?:b".toList := by decide +kernel
  have hcompile : compile? .tabled "(?x)a#b".toList = some (.cat .empty (.set (.single 'a'))) := by
    decide +kernel
  refine ⟨⟨hopened.spelled?_eq_none, by decide +kernel⟩, ?_, by decide +kernel⟩
  exact ⟨_, hcompile, (Regex.isWhole_iff (compile?_counted hcompile)).mp (by decide +kernel)⟩

end CellReplay.Classifier
