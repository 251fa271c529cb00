import CellReplay.Proofs.Pattern.Classes

/-!
# Proofs.Pattern.Enclosing

A whole pattern, read of a text by itself and of the enclosed text.

* `repetition?_agrees` — counts and signs of repetition.
* `opening_within`     — what an opening parenthesis begins.
* `atom_within`        — parts that are neither.
* `group_within`       — what goes on behind a group's parenthesis.
* `body_within`        — alternatives: read alike, or the text alone is refused and the enclosed one is
  read past the parenthesis that closes it.
-/

namespace CellReplay.Pattern

open Text

variable {v : Bool} {c : Char} {cs ds rest : List Char} {n m : Nat}

/-! ## Repetition -/

theorem countDigits_remains (v : Bool) (h : Remains cs ds) :
    ∃ digits rest rest', countDigits v cs = (digits, rest) ∧ countDigits v ds = (digits, rest') ∧
      Remains rest rest' := by
  have hblank : isBlank ')' = false := by decide
  obtain ⟨digits, rest, rest', hx, hy, hrest⟩ :=
    span_remains v (p := Char.isDigit) (by decide) (dropWhile_remains hblank h)
  exact ⟨digits, skip v (rest.dropWhile isBlank), skip v (rest'.dropWhile isBlank),
    by rw [countDigits, hx], by rw [countDigits, hy],
    skip_remains v (dropWhile_remains hblank hrest)⟩

theorem count_agrees (h : Remains cs ds) : Agrees (count v cs) (count v ds) := by
  obtain ⟨digits, rest, rest', hx, hy, hrest⟩ := countDigits_remains v (skip_remains v h)
  simp only [count, hx, hy]
  cases countOf? digits with
  | none => exact .refused
  | some min =>
    simp only [Option.bind_eq_bind, Option.bind_some]
    rcases hrest.starts (c := '\x7d') (by decide) with ⟨rest, rfl, rfl⟩ | ⟨hclose, hclose'⟩
    · exact .read (.closed rest)
    rcases hrest.starts (c := ',') (by decide) with ⟨rest, rfl, rfl⟩ | ⟨hcomma, hcomma'⟩
    · have hskip := skip_remains v (.closed rest)
      simp only []
      generalize skip v rest = xs, skip v (rest ++ closing) = ys at hskip
      rcases hskip.starts (c := '\x7d') (by decide) with ⟨more, rfl, rfl⟩ | ⟨hxs, hys⟩
      · exact .read (.closed more)
      · obtain ⟨digits, rest, rest', hx, hy, hrest⟩ := countDigits_remains v hskip
        simp only [hx, hy]
        cases countOf? digits with
        | none => exact .refused
        | some max =>
          simp only [Option.bind_some]
          rcases hrest.starts (c := '\x7d') (by decide) with ⟨rest, rfl, rfl⟩ | ⟨hend, hend'⟩
          · simp only []
            split
            · exact .read (.closed rest)
            · exact .refused
          · simp only []
            exact .refused
    · simp only []
      exact .refused

theorem passLazy_remains (h : Remains cs ds) : Remains (passLazy cs) (passLazy ds) := by
  unfold passLazy
  rcases h.starts (c := '?') (by decide) with ⟨rest, rfl, rfl⟩ | ⟨hcs, hds⟩
  · exact .closed rest
  · simp only []
    exact h

theorem repetition?_agrees (cs : List Char) :
    Option.Rel Agrees (repetition? v cs) (repetition? v (cs ++ closing)) := by
  unfold repetition?
  split
  · next rest => exact .some (.read (passLazy_remains (.closed rest)))
  · next rest => exact .some (.read (passLazy_remains (.closed rest)))
  · next rest => exact .some (.read (passLazy_remains (.closed rest)))
  · next rest =>
    have hcount := count_agrees (v := v) (.closed rest)
    simp only [List.cons_append]
    generalize count v rest = x, count v (rest ++ closing) = y at hcount
    cases hcount with
    | refused => exact .some .refused
    | read h => exact .some (.read (passLazy_remains (skip_remains v h)))
  · next hq hs hp hb =>
    have hq' := append_closing_ne ['?'] (by decide) hq
    have hs' := append_closing_ne ['*'] (by decide) hs
    have hp' := append_closing_ne ['+'] (by decide) hp
    have hb' := append_closing_ne ['\x7b'] (by decide) hb
    simp only [List.cons_append, List.nil_append] at hq' hs' hp' hb'
    simp only []
    exact .none

/-! ## Groups -/

theorem flagItems_within (clearing : Bool) (done : FlagChange) (cs : List Char) :
    Within closing (flagItems clearing done cs) (flagItems clearing done (cs ++ closing)) := by
  induction cs generalizing clearing done with
  | nil =>
    refine .past fun x hx => ?_
    cases hx
    exact List.suffix_refl _
  | cons c rest ih =>
    rw [List.cons_append]
    by_cases hdash : c = '-'
    · subst hdash
      simp only [flagItems]
      cases rest with
      | nil => cases clearing <;> exact .refused
      | cons d rest =>
        by_cases hstop : (clearing || (d :: rest).head? = some ':' ||
            (d :: rest).head? = some ')') = true
        · rw [if_pos hstop]
          exact if_pos hstop ▸ .refused
        · rw [if_neg hstop]
          exact if_neg hstop ▸ ih _ _
    · simp only [flagItems]
      split
      · exact .read (.closed (c :: rest))
      · cases Flag.ofChar? c with
        | none => exact .refused
        | some f =>
          simp only []
          split
          · exact .refused
          · exact ih _ _

theorem groupName_agrees (cs : List Char) : Agrees (groupName cs) (groupName (cs ++ closing)) := by
  unfold groupName
  rcases list_span_closing (p := (· ≠ '>')) (by decide) cs with
    ⟨name, name', hx, hy⟩ | ⟨name, c, rest, hx, hy⟩
  · simp only [hx, hy]
    cases name <;> cases name' <;> exact .refused
  · simp only [hx, hy]
    cases name with
    | nil => exact .refused
    | cons d name =>
      simp only []
      split
      · exact .read (.closed rest)
      · exact .refused

theorem opening_within (h : Remains cs ds) : Within ['$'] (opening v cs) (opening v ds) := by
  have hskip := skip_remains v h
  unfold opening
  generalize skip v cs = xs, skip v ds = ys at hskip
  cases hskip using Remains.heads with
  | lost => exact .read .lost
  | ended => exact .read (.closed [])
  | more c rest =>
    split
    · next heq => cases heq; exact .refused
    · next heq => cases heq; exact .refused
    · next heq => cases heq; exact .refused
    · next heq => cases heq; exact .refused
    · next heq => cases heq; exact .agrees ((groupName_agrees _).map Opening.named)
    · next hahead hnot heq =>
      cases heq
      have hahead' := append_closing_ne ['='] (by decide) hahead
      have hnot' := append_closing_ne ['!'] (by decide) hnot
      simp only [List.cons_append, List.nil_append] at hahead' hnot' ⊢
      exact .agrees ((groupName_agrees _).map Opening.named)
    · next hahead hnot hbehind hnotBehind hnamed hname heq =>
      cases heq
      have hahead' := append_closing_ne ['='] (by decide) hahead
      have hnot' := append_closing_ne ['!'] (by decide) hnot
      have hbehind' := append_closing_ne ['<', '='] (by decide) hbehind
      have hnotBehind' := append_closing_ne ['<', '!'] (by decide) hnotBehind
      have hnamed' := append_closing_ne ['P', '<'] (by decide) hnamed
      have hname' := append_closing_ne ['<'] (by decide) hname
      simp only [List.cons_append, List.nil_append] at hahead' hnot' hbehind' hnotBehind' hnamed' hname' ⊢
      have hitems := flagItems_within false [] rest
      generalize flagItems false [] rest = x, flagItems false [] (rest ++ closing) = y at hitems
      cases hitems with
      | agrees h =>
        cases h with
        | refused => exact .refused
        | @read change _ _ hmore =>
          cases hmore using Remains.heads with
          | lost => exact .refused
          | ended =>
            refine .past fun z hz => ?_
            simp only [closing] at hz
            split at hz
            · cases hz
            · cases hz; exact List.suffix_refl _
          | more c more =>
            by_cases hc : c = ')'
            · subst hc
              simp only []
              split
              · exact .refused
              · exact .read (.closed more)
            · simp only []
              exact .read (.closed more)
      | past hpast =>
        refine .past fun z hz => ?_
        split at hz
        · split at hz
          · cases hz
          · cases hz; exact behind_cons.mp (behind_of_cons (hpast _ rfl))
        · cases hz; exact behind_cons.mp (behind_of_cons (hpast _ rfl))
        · cases hz
    · next hplain =>
      have hc : c ≠ '?' := fun h => hplain rest (h ▸ rfl)
      simp only [List.cons.injEq, hc, false_and, imp_self, implies_true]
      exact .read (.closed (c :: rest))

/-! ## Atoms -/

theorem atom_within (c : Char) (rest : List Char) :
    Within ['$'] (atom v (c :: rest)) (atom v (c :: (rest ++ closing))) ∨
      Dangles v (.assertion .boundary) (atom v (c :: rest)) (atom v (c :: (rest ++ closing))) := by
  unfold atom
  split
  · next heq => cases heq
  · next heq =>
    cases heq
    have hescape := escape_within (v := v) (.closed rest)
    simp only []
    generalize escape v rest = x, escape v (rest ++ closing) = y at hescape
    rcases hescape with hescape | ⟨⟨hcount⟩⟩
    · refine .inl ?_
      cases hescape with
      | agrees h =>
        cases h with
        | refused => exact .refused
        | @read e _ _ h => cases e <;> exact .read h
      | past hpast =>
        refine .past fun z hz => ?_
        obtain ⟨⟨e, rest⟩, hy, rfl⟩ := Option.map_eq_some_iff.mp hz
        have hrest := hpast _ hy
        cases e <;> exact hrest
    · exact .inr (.upToBrace hcount)
  · next heq => cases heq; exact .inl (.read (.closed rest))
  · next heq => cases heq; exact .inl (.read (.closed rest))
  · next heq => cases heq; exact .inl (.read (.closed rest))
  · next heq => cases heq; exact .inl (bracketed_within (.closed rest))
  · next hslash hdot hstart hend hopen heq =>
    cases heq
    simp only []
    exact .inl (.read (.closed rest))

/-! ## Alternatives -/

/-- What alternatives are read as, and what is left behind them. -/
def parts (x : Tree × List (List Char) × List Char) : (Tree × List (List Char)) × List Char :=
  ((x.1, x.2.1), x.2.2)

variable {t : Tree} {names : List (List Char)} {branches done : List Tree}

theorem map_parts_eq_some {x : Option (Tree × List (List Char) × List Char)} :
    x.map parts = some ((t, names), rest) ↔ x = some (t, names, rest) := by
  constructor
  · intro h
    obtain ⟨y, rfl, hy⟩ := Option.map_eq_some_iff.mp h
    cases hy
    rfl
  · rintro rfl
    rfl

theorem bind_map_parts {x : Option (Tree × List (List Char) × List Char)}
    {f : Tree × List (List Char) × List Char → Option (Tree × List (List Char) × List Char)} :
    (x >>= f).map parts = x.map parts >>= fun y => (f (y.1.1, y.1.2, y.2)).map parts := by
  cases x <;> rfl

/-- A group whose parenthesis is the one that closes the pattern is read past it. -/
theorem group_within {x y : Option (Tree × List (List Char) × List Char)}
    {f g : Tree × List (List Char) × List Char → Option (Tree × List (List Char) × List Char)}
    (h : Within ['$'] (x.map parts) (y.map parts)) (hf : ∀ t names, f (t, names, []) = none)
    (hg : ∀ t names, g (t, names, []) = none)
    (hfg : ∀ t names c rest, x = some (t, names, c :: rest) →
      y = some (t, names, c :: (rest ++ closing)) →
      Within ['$'] ((f (t, names, c :: rest)).map parts)
        ((g (t, names, c :: (rest ++ closing))).map parts))
    (hrest : ∀ t names c rest, ∀ z ∈ g (t, names, c :: rest), z.2.2 <:+ rest) :
    Within ['$'] ((x >>= f).map parts) ((y >>= g).map parts) := by
  rw [bind_map_parts, bind_map_parts]
  refine h.bind (fun ⟨t, names⟩ rest rest' hx hy hrem => ?_) fun ⟨t, names⟩ rest hle z hz => ?_
  · rw [map_parts_eq_some] at hx hy
    cases hrem using Remains.heads with
    | lost => rw [hf, hg]; exact .refused
    | ended =>
      rw [hf]
      refine .past fun z hz => ?_
      obtain ⟨z, hz', rfl⟩ := Option.map_eq_some_iff.mp hz
      exact hrest t names ')' ['$'] z hz'
    | more c rest => exact hfg t names c rest hx hy
  · obtain ⟨z, hz', rfl⟩ := Option.map_eq_some_iff.mp hz
    cases rest with
    | nil => rw [hg] at hz'; cases hz'
    | cons c rest => exact (hrest t names c rest z hz').trans ((List.suffix_cons c rest).trans hle)

/-- With `n` and `m` to spend, alternatives are read alike. -/
def BodyWithin (n m : Nat) : Prop :=
  ∀ {v : Bool} {names : List (List Char)} {branches done : List Tree} {cs ds : List Char},
    Remains cs ds → cs.length < n → ds.length < m →
      Within ['$'] ((body n v names branches done cs).map parts)
        ((body m v names branches done ds).map parts)

theorem body_opened_within (ih : BodyWithin n m) (hx : skip v cs = '(' :: rest)
    (hy : skip v ds = '(' :: (rest ++ closing)) (hn : rest.length < n)
    (hm : (rest ++ closing).length < m) :
    Within ['$'] ((body (n + 1) v names branches done cs).map parts)
      ((body (m + 1) v names branches done ds).map parts) := by
  simp only [body, hx, hy, Option.bind_eq_bind, Option.map_bind]
  refine (opening_within (.closed rest)).bind (fun o s s' hs hs' hrem => ?_) fun o s hs z hz => ?_
  · have hlt : s.length < n := Nat.lt_of_le_of_lt (opening_suffix hs).length_le hn
    have hlt' : s'.length < m := Nat.lt_of_le_of_lt (opening_suffix hs').length_le hm
    cases o with
    | flags change => exact ih hrem hlt hlt'
    | group change =>
      refine group_within (ih hrem hlt hlt') (fun _ _ => rfl) (fun _ _ => rfl)
        (fun t names c r hr hr' => ?_) fun t names c r z hz => body_suffix hz
      exact ih (.closed r) ((Nat.lt_of_succ_le (body_suffix hr).length_le).trans hlt)
        ((Nat.lt_of_succ_le (body_suffix hr').length_le).trans hlt')
    | named name =>
      dsimp only [Function.comp_apply]
      split
      · exact .refused
      · refine group_within (ih hrem hlt hlt') (fun _ _ => rfl) (fun _ _ => rfl)
          (fun t names c r hr hr' => ?_) fun t names c r z hz => body_suffix hz
        exact ih (.closed r) ((Nat.lt_of_succ_le (body_suffix hr).length_le).trans hlt)
          ((Nat.lt_of_succ_le (body_suffix hr').length_le).trans hlt')
  · obtain ⟨z, hbody, rfl⟩ := Option.map_eq_some_iff.mp hz
    refine List.IsSuffix.trans (Ends.suffix ?_) hs
    cases o with
    | flags change => exact body_ends hbody
    | group change =>
      exact group_ends (fun _ => body_ends) (fun _ _ => rfl) (fun _ _ _ _ _ => body_ends) z hbody
    | named name =>
      dsimp only at hbody
      split at hbody
      · cases hbody
      · exact group_ends (fun _ => body_ends) (fun _ _ => rfl) (fun _ _ _ _ _ => body_ends) z hbody

/-- Where a boundary is read up to a brace that begins no count, nothing can be read on. -/
theorem body_dangling {more : List Char} (hcount : count v more = none) :
    body n v names branches done ('\x7b' :: more) = none := by
  cases n with
  | zero => rfl
  | succ n =>
    have hskip : skip v ('\x7b' :: more) = '\x7b' :: more := by cases v <;> rfl
    have hrep : repetition? v ('\x7b' :: more) = some none := by
      simp only [repetition?, hcount, Option.map_none]
    simp [body, hskip, hrep]

theorem body_part_within (ih : BodyWithin n m) (hx : skip v cs = c :: rest)
    (hy : skip v ds = c :: (rest ++ closing)) (hclose : c ≠ ')') (halt : c ≠ '|') (hopen : c ≠ '(')
    (hn : rest.length < n) (hm : (rest ++ closing).length < m) :
    Within ['$'] ((body (n + 1) v names branches done cs).map parts)
      ((body (m + 1) v names branches done ds).map parts) := by
  simp only [body, hx, hy, List.cons.injEq, hclose, halt, hopen, false_and, imp_self, implies_true]
  have hrep := repetition?_agrees (v := v) (c :: rest)
  rw [List.cons_append] at hrep
  generalize hr : repetition? v (c :: rest) = r,
    hr' : repetition? v (c :: (rest ++ closing)) = r' at hrep
  cases hrep with
  | some hcount =>
    cases hcount with
    | refused => exact .refused
    | @read bounds s s' hrem =>
      have hlt : s.length < n := Nat.lt_of_lt_of_le (repetition?_behind hr).2 hn
      have hlt' : s'.length < m := Nat.lt_of_lt_of_le (repetition?_behind hr').2 hm
      simp only [Option.bind_eq_bind, Option.bind_some]
      cases done with
      | nil => exact .refused
      | cons t done =>
        simp only []
        cases t.repeat? bounds.1 bounds.2 with
        | none => exact .refused
        | some t => exact ih hrem hlt hlt'
  | none =>
    simp only [Option.bind_eq_bind, Option.map_bind]
    rcases atom_within (v := v) c rest with hatom | hdangles
    · refine hatom.bind (fun t s s' hs hs' hrem => ?_) fun t s hs z hz => ?_
      · exact ih hrem (Nat.lt_of_lt_of_le (atom_behind hs).2 hn)
          (Nat.lt_of_lt_of_le (atom_behind hs').2 hm)
      · obtain ⟨z, hbody, rfl⟩ := Option.map_eq_some_iff.mp hz
        exact (body_suffix hbody).trans hs
    · generalize atom v (c :: rest) = x, atom v (c :: (rest ++ closing)) = y at hdangles
      obtain ⟨hcount⟩ := hdangles
      simp only [Option.bind_none, Option.bind_some, Function.comp_apply, body_dangling hcount]
      exact .refused

theorem body_within : BodyWithin n m := by
  induction n generalizing m with
  | zero => exact fun _ hn => absurd hn (Nat.not_lt_zero _)
  | succ n ih =>
    cases m with
    | zero => exact fun _ _ hm => absurd hm (Nat.not_lt_zero _)
    | succ m =>
      intro v names branches done cs ds h hn hm
      have hskip := skip_remains v h
      have hlen : (skip v cs).length < n + 1 := Nat.lt_of_le_of_lt (skip_suffix v cs).length_le hn
      have hlen' : (skip v ds).length < m + 1 := Nat.lt_of_le_of_lt (skip_suffix v ds).length_le hm
      generalize hx : skip v cs = xs, hy : skip v ds = ys at hskip hlen hlen'
      cases hskip using Remains.heads with
      | lost =>
        simp only [body, hx, hy]
        exact .read .lost
      | ended =>
        simp only [body, hx, hy]
        exact .read (.closed [])
      | more c rest =>
        have hn : rest.length < n := Nat.lt_of_succ_lt_succ hlen
        have hm : (rest ++ closing).length < m := Nat.lt_of_succ_lt_succ hlen'
        by_cases hclose : c = ')'
        · subst hclose
          simp only [body, hx, hy]
          exact .read (.closed (')' :: rest))
        by_cases halt : c = '|'
        · subst halt
          simp only [body, hx, hy]
          exact ih (.closed rest) hn hm
        by_cases hopen : c = '('
        · subst hopen
          exact body_opened_within ih hx hy hn hm
        · exact body_part_within ih hx hy hclose halt hopen hn hm

end CellReplay.Pattern
