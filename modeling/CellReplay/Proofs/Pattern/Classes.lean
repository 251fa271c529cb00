import CellReplay.Proofs.Pattern.Remains

/-!
# Proofs.Pattern.Classes

Escapes and bracketed classes, read of a text by itself and of the enclosed text.

A class that the text alone leaves open takes in what closes the pattern, and is then read past the
parenthesis or not at all.

* `hexEscape_agrees`, `propertyEscape_within` — escapes with a number or a name.
* `Dangles`                                   — a boundary with a brace behind it that nothing closes.
* `escape_within`                             — what a backslash begins.
* `classRange_within`, `members_within`       — the members of a class.
* `bracketed_within`                          — a class as a whole.
-/

namespace CellReplay.Pattern

open Text

variable {α : Type} {v : Bool} {c : Char} {cs ds : List Char} {n m : Nat}

/-! ## Escapes -/

theorem fixed_agrees (h : Remains cs ds) :
    Agrees (hexEscape.fixed v n cs) (hexEscape.fixed v n ds) := by
  induction n generalizing cs ds with
  | zero => exact .refused
  | succ n ih =>
    cases h using Remains.heads with
    | lost => exact .refused
    | ended => exact .refused
    | more c cs =>
      rw [hexEscape.fixed, hexEscape.fixed]
      split
      · split
        · exact .read (.closed cs)
        · exact (ih (skip_remains v (.closed cs))).map (c :: ·)
      · exact .refused

theorem hexEscape_agrees (h : Remains cs ds) : Agrees (hexEscape v n cs) (hexEscape v n ds) := by
  have hskip := skip_remains v h
  unfold hexEscape
  generalize skip v cs = xs, skip v ds = ys at hskip
  rcases hskip.starts (c := '\x7b') (by decide) with ⟨inner, rfl, rfl⟩ | ⟨hxs, hys⟩
  · obtain ⟨digits, rest, rest', hx, hy, hrest⟩ :=
      span_remains v (p := isHexDigit) (by decide) (skip_remains v (.closed inner))
    simp only [hx, hy]
    cases hrest using Remains.heads with
    | lost => exact .refused
    | ended => exact .refused
    | more c more =>
      by_cases hclose : c = '\x7d'
      · subst hclose
        simp only []
        split
        · exact .refused
        · exact .const _ _ (.closed more)
      · simp only [Prod.mk.injEq, List.cons.injEq, hclose, false_and, and_false, imp_self,
          implies_true]
        exact .refused
  · simp only []
    refine (fixed_agrees hskip).bind fun digits rest rest' hrest => ?_
    dsimp only [Option.bind_eq_bind]
    cases charAt? (hexValue digits) with
    | none => exact .refused
    | some c => exact .read hrest

theorem propertyEscape_within (h : Remains cs ds) :
    Within ['$'] (propertyEscape v cs) (propertyEscape v ds) := by
  have hskip := skip_remains v h
  unfold propertyEscape
  generalize skip v cs = xs, skip v ds = ys at hskip
  cases hskip using Remains.heads with
  | lost => exact .refused
  | ended => exact .past_read (List.suffix_refl _)
  | more c inner =>
    by_cases hbrace : c = '\x7b'
    · subst hbrace
      simp only []
      have hspan := span_runsAlike v (· ≠ '\x7d') (skip_remains v (.closed inner))
      generalize span v (· ≠ '\x7d') (skip v inner) = x,
        span v (· ≠ '\x7d') (skip v (inner ++ closing)) = y at hspan
      cases hspan with
      | alike hrest =>
        cases hrest using Remains.heads with
        | lost => exact .refused
        | ended => exact .past_read (List.suffix_refl _)
        | more c rest => exact .read (.closed rest)
      | @past _ _ rest' _ hpast =>
        cases rest' with
        | nil => exact .refused
        | cons c rest' =>
          exact .past_read ((List.suffix_cons c rest').trans hpast)
    by_cases hslash : c = '\\'
    · subst hslash
      exact .refused
    · simp only []
      exact .read (.closed inner)

/-! A boundary with an open brace behind it is refused where the text ends, and taken for a boundary
where the enclosed text goes on; but then no count can be read from the brace. -/

theorem countDigits_closing (v : Bool) : countDigits v closing = ([], closing) := by
  cases v <;> decide

theorem count_closing (h : skip v cs = closing) : count v cs = none := by
  unfold count
  rw [h, countDigits_closing]
  rfl

/-- The text alone is refused, and the enclosed one is read up to a brace that begins no count. -/
inductive Dangles (v : Bool) (boundary : α) :
    Option (α × List Char) → Option (α × List Char) → Prop
  | upToBrace {more : List Char} (hcount : count v more = none) :
    Dangles v boundary none (some (boundary, '\x7b' :: more))

theorem boundaryEscape_agrees (h : Remains cs ds) :
    Agrees (boundaryEscape v cs) (boundaryEscape v ds) ∨
      Dangles v .boundary (boundaryEscape v cs) (boundaryEscape v ds) := by
  unfold boundaryEscape
  cases h using Remains.heads with
  | lost => exact .inl (.read .lost)
  | ended => exact .inl (.read (.closed []))
  | more c inner =>
    by_cases hbrace : c = '\x7b'
    · subst hbrace
      have hskip := skip_remains v (.closed inner)
      simp only []
      generalize hxs : skip v inner = xs, hys : skip v (inner ++ closing) = ys at hskip
      cases hskip using Remains.heads with
      | lost => exact .inl .refused
      | ended => exact .inr (.upToBrace (count_closing hys))
      | more c more =>
        simp only []
        split
        · obtain ⟨name, rest, rest', hx, hy, hrest⟩ :=
            span_remains v (p := fun c => c.isAlpha || c == '-') (by decide) (.closed (c :: more))
          rw [List.cons_append] at hy
          simp only [hx, hy]
          cases hrest using Remains.heads with
          | lost => exact .inl .refused
          | ended => exact .inl .refused
          | more c rest =>
            by_cases hclose : c = '\x7d'
            · subst hclose
              exact .inl (.const (boundaryNames.lookup (String.ofList name)) id (.closed rest))
            · simp only [Prod.mk.injEq, List.cons.injEq, hclose, false_and, and_false, imp_self,
                implies_true]
              exact .inl .refused
        · exact .inl (.read (.closed ('\x7b' :: inner)))
    · simp only [List.cons.injEq, hbrace, false_and, imp_self, implies_true]
      exact .inl (.read (.closed (c :: inner)))

theorem escape_within (h : Remains cs ds) :
    Within ['$'] (escape v cs) (escape v ds) ∨
      Dangles v (.assertion .boundary) (escape v cs) (escape v ds) := by
  cases h using Remains.heads with
  | lost => exact .inl .refused
  | ended => exact .inl (.past fun x hx => behind_cons.mp (escape_behind hx))
  | more c rest =>
    unfold escape
    dsimp only
    split
    case h_1 | h_2 | h_3 =>
      exact .inl (.agrees ((hexEscape_agrees (.closed rest)).map Escape.literal))
    case h_4 => exact .inl ((propertyEscape_within (.closed rest)).map (Escape.property · false))
    case h_5 => exact .inl ((propertyEscape_within (.closed rest)).map (Escape.property · true))
    case h_23 =>
      have hboundary := boundaryEscape_agrees (v := v) (.closed rest)
      generalize boundaryEscape v rest = x, boundaryEscape v (rest ++ closing) = y at hboundary
      rcases hboundary with h | ⟨⟨hcount⟩⟩
      · exact .inl (.agrees (h.map Escape.assertion))
      · exact .inr (.upToBrace hcount)
    case h_24 =>
      split
      · exact .inl (.read (.closed rest))
      · exact .inl .refused
    all_goals exact .inl (.read (.closed rest))

/-! ## Items and ranges -/

/-- A named class without matching on its text: the sign, the name up to a colon, the end. -/
theorem asciiClass?_eq {negated : Bool} {xs name rest : List Char}
    (hsign : negated = false → ∀ rest, xs ≠ '^' :: rest)
    (hspan : xs.span (· ≠ ':') = (name, rest)) :
    asciiClass? (':' :: (if negated then '^' :: xs else xs)) =
      if rest.take 2 = [':', ']'] then
        (asciiNames.lookup (String.ofList name)).map fun k => (.ascii k negated, rest.drop 2)
      else none := by
  have hend (htake : rest.take 2 = [':', ']']) : rest = ':' :: ']' :: rest.drop 2 := by
    rw [← List.take_append_drop 2 rest, htake]
    rfl
  unfold asciiClass?
  cases negated with
  | true =>
    simp only [if_true, hspan]
    split
    · next heq => cases heq; rfl
    · next hne => rw [if_neg fun htake => hne _ _ (congrArg _ (hend htake))]
  | false =>
    have hplain : ∀ rest, xs = '^' :: rest → False := hsign rfl
    simp only [Bool.false_eq_true, if_false, hspan]
    split
    · next heq => cases heq; rfl
    · next hne => rw [if_neg fun htake => hne _ _ (congrArg _ (hend htake))]

theorem asciiName_agrees (negated : Bool) (xs : List Char)
    (hsign : negated = false → ∀ rest, xs ≠ '^' :: rest)
    (hsign' : negated = false → ∀ rest, xs ++ closing ≠ '^' :: rest) :
    Agrees (asciiClass? (':' :: (if negated then '^' :: xs else xs)))
      (asciiClass? (':' :: (if negated then '^' :: (xs ++ closing) else xs ++ closing))) := by
  rcases list_span_closing (p := (· ≠ ':')) (by decide) xs with
    ⟨name, name', hx, hy⟩ | ⟨name, c, rest, hx, hy⟩
  · rw [asciiClass?_eq hsign hx, asciiClass?_eq hsign' hy]
    exact .refused
  · rw [asciiClass?_eq hsign hx, asciiClass?_eq hsign' hy]
    cases rest with
    | nil =>
      rw [if_neg (by simp), if_neg (by simp [closing])]
      exact .refused
    | cons d rest =>
      simp only [List.cons_append, List.take_succ_cons, List.take_zero, List.drop_succ_cons,
        List.drop_zero]
      split
      · exact .const (asciiNames.lookup (String.ofList name)) (ClassTree.ascii · negated)
          (.closed rest)
      · exact .refused

theorem asciiClass?_agrees (cs : List Char) :
    Agrees (asciiClass? cs) (asciiClass? (cs ++ closing)) := by
  rcases (Remains.closed cs).starts (c := ':') (by decide) with ⟨inner, rfl, -⟩ | ⟨hcs, hds⟩
  · rcases (Remains.closed inner).starts (c := '^') (by decide) with ⟨rest, rfl, -⟩ | ⟨hxs, hys⟩
    · exact asciiName_agrees true rest (by simp) (by simp)
    · exact asciiName_agrees false inner (fun _ => hxs) fun _ => hys
  · simp only [asciiClass?]
    exact .refused

theorem classItem_within (h : Remains cs ds) :
    Within ['$'] (classItem v cs) (classItem v ds) ∨
      Dangles v (.assertion .boundary) (classItem v cs) (classItem v ds) := by
  cases h using Remains.heads with
  | lost => exact .inl .refused
  | ended => exact .inl (.past fun x hx => behind_cons.mp (classItem_behind hx))
  | more c rest =>
    by_cases hslash : c = '\\'
    · subst hslash
      exact escape_within (.closed rest)
    · simp only [classItem]
      exact .inl (.read (.closed rest))

theorem peekBehind_remains (v : Bool) (h : Remains cs ds) :
    peekBehind v cs ∈ [some ']', some '-'] ↔ peekBehind v ds ∈ [some ']', some '-'] := by
  cases h using Remains.heads with
  | lost => exact Iff.rfl
  | ended => cases v <;> decide
  | more c rest =>
    cases v with
    | false => exact Iff.rfl
    | true =>
      have hclosing : some ')' ∉ [some ']', some '-'] := by decide
      have hsign (hc : isBlank c = true ∨ c = '#') : some c ∉ [some ']', some '-'] := by
        intro hmem
        rcases List.mem_cons.mp hmem with heq | hmem
        · cases heq; revert hc; decide
        · cases List.mem_singleton.mp hmem; revert hc; decide
      have hblank : isBlank ')' = false := by decide
      have hxs' := dropWhile_append_closing hblank (c :: rest)
      have hc : isBlank c = true ∨ (c :: rest).dropWhile isBlank = c :: rest := by
        cases h : isBlank c with
        | true => exact .inl rfl
        | false => exact .inr (by rw [List.dropWhile_cons, h]; rfl)
      generalize hxs : (c :: rest).dropWhile isBlank = xs at hc hxs'
      unfold peekBehind
      simp only [if_true, ← List.cons_append, hxs, hxs']
      cases xs with
      | nil => exact iff_of_false (hsign (.inl (hc.resolve_right (by simp)))) hclosing
      | cons d more =>
        by_cases hd : d = '#'
        · subst hd
          have hc : isBlank c = true ∨ c = '#' := hc.imp_right fun h => (List.cons.inj h).1.symm
          simp only [List.cons_append, dropWhile_append_closing hblank]
          cases more.dropWhile isBlank with
          | nil => exact iff_of_false (hsign hc) hclosing
          | cons e more => exact Iff.rfl
        · simp only [List.cons_append, List.cons.injEq, hd, false_and, imp_self, implies_true]
          exact Iff.rfl

theorem member_agrees (e : Escape) (h : Remains cs ds) :
    Agrees (do return (← e.member?, cs)) (do return (← e.member?, ds)) := by
  cases e.member? with
  | none => exact .refused
  | some t => exact .read h

/-- Behind the same first item, a range is read alike. -/
theorem classRange_first {first : Escape} {rest rest' : List Char}
    (hx : classItem v cs = some (first, rest)) (hy : classItem v ds = some (first, rest'))
    (h : Remains rest rest') : Within closing (classRange v cs) (classRange v ds) := by
  have hskip := skip_remains v h
  simp only [classRange, hx, hy, Option.bind_eq_bind, Option.bind_some]
  generalize skip v rest = xs, skip v rest' = ys at hskip
  rcases hskip.starts (c := '-') (by decide) with ⟨more, rfl, rfl⟩ | ⟨hxs, hys⟩
  · simp only []
    split
    · next hpeek =>
      rw [if_pos ((peekBehind_remains v (.closed more)).mp hpeek)]
      exact .agrees (member_agrees first (.closed ('-' :: more)))
    · next hpeek =>
      rw [if_neg fun h => hpeek ((peekBehind_remains v (.closed more)).mpr h)]
      rcases classItem_within (v := v) (skip_remains v (.closed more)) with hlast | hdangles
      · refine hlast.bind (fun last rest rest' _ _ hrest => ?_) fun last rest hpast z hz => ?_
        · dsimp only
          split
          · split
            · exact .read hrest
            · exact .refused
          · exact .refused
        · have hshort : rest <:+ closing := hpast.trans (List.suffix_cons _ _)
          dsimp only at hz
          split at hz
          · split at hz
            · cases hz
              exact hshort
            · cases hz
          · cases hz
      · generalize classItem v (skip v more) = z,
          classItem v (skip v (more ++ closing)) = z' at hdangles
        cases hdangles
        cases first <;> exact .refused
  · cases hskip using Remains.heads with
    | lost => exact .refused
    | ended =>
      simp only []
      cases first.member? with
      | none => exact .refused
      | some t => exact .past fun x hx => by cases hx; exact List.suffix_refl _
    | more c more =>
      simp only []
      exact .agrees (member_agrees first (.closed (c :: more)))

theorem classRange_within (h : Remains cs ds) :
    Within closing (classRange v cs) (classRange v ds) := by
  have hitem := classItem_within (v := v) h
  generalize hx : classItem v cs = x, hy : classItem v ds = y at hitem
  rcases hitem with hitem | hdangles
  · cases hitem with
    | agrees h =>
      cases h with
      | refused => simp only [classRange, hx, hy]; exact .refused
      | read h => exact classRange_first hx hy h
    | past hpast =>
      have hnone : classRange v cs = none := by
        simp only [classRange, hx, Option.bind_eq_bind, Option.bind_none]
      rw [hnone]
      refine .past fun z hz => ?_
      obtain ⟨first, hfirst, -⟩ := Option.bind_eq_some_iff.mp hz
      exact (classRange_suffix hfirst hz).trans
        ((hpast first (hy ▸ hfirst)).trans (List.suffix_cons _ _))
  · cases hdangles with
    | @upToBrace more =>
      have hbrace : skip v ('\x7b' :: more) = '\x7b' :: more := by cases v <;> rfl
      simp only [classRange, hx, hy, hbrace, Escape.member?, Option.bind_eq_bind, Option.bind_none,
        Option.bind_some]
      exact .refused

/-! ## Members -/

theorem classOpening_remains (v : Bool) (h : Remains cs ds) :
    ∃ negated first more more', classOpening v cs = (negated, first, more) ∧
      classOpening v ds = (negated, first, more') ∧ Remains more more' := by
  have hskip := skip_remains v h
  generalize hc : classOpening v cs = x, hd : classOpening v ds = y
  unfold classOpening at hc hd
  generalize skip v cs = xs, skip v ds = ys at hskip hc hd
  split at hc
  next negated xs' hxs =>
  split at hd
  next negated' ys' hys =>
  have hsign : negated = negated' ∧ Remains xs' ys' := by
    rcases hskip.starts (c := '^') (by decide) with ⟨inner, rfl, rfl⟩ | ⟨hplain, hplain'⟩
    · cases hxs
      cases hys
      exact ⟨rfl, skip_remains v (.closed inner)⟩
    · simp only [] at hxs hys
      cases hxs
      cases hys
      exact ⟨rfl, hskip⟩
  obtain ⟨rfl, hstart⟩ := hsign
  obtain ⟨dashes, rest, rest', hx, hy, hrest⟩ := span_remains v (p := (· = '-')) (by decide) hstart
  rw [hx] at hc
  rw [hy] at hd
  cases dashes with
  | cons => exact ⟨_, _, _, _, hc.symm, hd.symm, hrest⟩
  | nil =>
    rcases hrest.starts (c := ']') (by decide) with ⟨more, rfl, rfl⟩ | ⟨hxs, hys⟩
    · exact ⟨_, _, _, _, hc.symm, hd.symm, skip_remains v (.closed more)⟩
    · split at hc
      · next heq => cases heq; exact (hxs _ rfl).elim
      · next heq =>
        cases heq
        split at hd
        · next heq => cases heq; exact (hys _ rfl).elim
        · next heq =>
          cases heq
          exact ⟨_, _, _, _, hc.symm, hd.symm, hrest⟩

theorem setOp?_agrees (cs : List Char) : Agrees (setOp? cs) (setOp? (cs ++ closing)) := by
  unfold setOp?
  split
  · next rest => exact .read (.closed rest)
  · next rest => exact .read (.closed rest)
  · next rest => exact .read (.closed rest)
  · next hinter hdiff hsymm =>
    have hinter' := append_closing_ne ['&', '&'] (by decide) hinter
    have hdiff' := append_closing_ne ['-', '-'] (by decide) hdiff
    have hsymm' := append_closing_ne ['~', '~'] (by decide) hsymm
    simp only [List.cons_append, List.nil_append] at hinter' hdiff' hsymm'
    simp only []
    exact .refused

/-- With `n` and `m` to spend, members are read alike. -/
def MembersWithin (v : Bool) (n m : Nat) : Prop :=
  ∀ {pending : Option (SetOp × ClassTree)} {done : List ClassTree} {cs ds : List Char},
    Remains cs ds → cs.length < n → ds.length < m →
      Within ['$'] (members v n pending done cs) (members v m pending done ds)

variable {pending : Option (SetOp × ClassTree)} {done : List ClassTree} {rest : List Char}

theorem members_class_within (ih : MembersWithin v n m) (hx : skip v cs = '[' :: rest)
    (hy : skip v ds = '[' :: (rest ++ closing)) (hn : rest.length < n)
    (hm : (rest ++ closing).length < m) :
    Within ['$'] (members v (n + 1) pending done cs) (members v (m + 1) pending done ds) := by
  simp only [members, hx, hy]
  have hascii := asciiClass?_agrees rest
  generalize hx : asciiClass? rest = x, hy : asciiClass? (rest ++ closing) = y at hascii
  cases hascii with
  | read hmore =>
    exact ih hmore (Nat.lt_of_le_of_lt (asciiClass?_suffix hx).length_le hn)
      (Nat.lt_of_le_of_lt (asciiClass?_suffix hy).length_le hm)
  | refused =>
    have hlt := Nat.lt_of_le_of_lt (classOpening_suffix v rest).length_le hn
    have hlt' := Nat.lt_of_le_of_lt (classOpening_suffix v (rest ++ closing)).length_le hm
    obtain ⟨negated, first, more, more', hc, hd, hmore⟩ := classOpening_remains v (.closed rest)
    simp only [hc, hd] at hlt hlt' ⊢
    refine (ih hmore hlt hlt').bind (fun t r r' hr hr' hrem => ?_)
      fun t r hr z hz => (members_suffix hz).trans hr
    exact ih hrem (Nat.lt_of_le_of_lt (members_suffix hr).length_le hlt)
      (Nat.lt_of_le_of_lt (members_suffix hr').length_le hlt')

theorem members_range_within (ih : MembersWithin v n m) (hx : skip v cs = c :: rest)
    (hy : skip v ds = c :: (rest ++ closing)) (hclose : c ≠ ']') (hopen : c ≠ '[')
    (hn : rest.length < n) (hm : (rest ++ closing).length < m) :
    Within ['$'] (members v (n + 1) pending done cs) (members v (m + 1) pending done ds) := by
  have hrest : Remains (c :: rest) (c :: (rest ++ closing)) := .closed (c :: rest)
  simp only [members, hx, hy, List.cons.injEq, hclose, hopen, false_and, imp_self, implies_true]
  have hop := setOp?_agrees (c :: rest)
  rw [List.cons_append] at hop
  generalize hx : setOp? (c :: rest) = x, hy : setOp? (c :: (rest ++ closing)) = y at hop
  cases hop with
  | read hmore =>
    exact ih hmore (Nat.lt_of_lt_of_le (setOp?_behind hx).2 hn)
      (Nat.lt_of_lt_of_le (setOp?_behind hy).2 hm)
  | refused =>
    refine (classRange_within hrest).bind (fun t r r' hr hr' hrem => ?_) fun t r hr z hz =>
      behind_cons.mp ((members_behind hz).trans_suffix ((skip_suffix v r).trans hr))
    exact ih hrem (Nat.lt_of_lt_of_le (classRange_behind hr).2 hn)
      (Nat.lt_of_lt_of_le (classRange_behind hr').2 hm)

theorem members_within : MembersWithin v n m := by
  induction n generalizing m with
  | zero => exact fun _ hn => absurd hn (Nat.not_lt_zero _)
  | succ n ih =>
    cases m with
    | zero => exact fun _ _ hm => absurd hm (Nat.not_lt_zero _)
    | succ m =>
      intro pending done cs ds h hn hm
      have hskip := skip_remains v h
      have hlen : (skip v cs).length < n + 1 := Nat.lt_of_le_of_lt (skip_suffix v cs).length_le hn
      have hlen' : (skip v ds).length < m + 1 := Nat.lt_of_le_of_lt (skip_suffix v ds).length_le hm
      generalize hx : skip v cs = xs, hy : skip v ds = ys at hskip hlen hlen'
      cases hskip using Remains.heads with
      | lost =>
        simp only [members, hx, hy]
        exact .refused
      | ended =>
        have hnone : members v (n + 1) pending done cs = none := by simp only [members, hx]
        rw [hnone]
        exact .past fun x hx => behind_cons.mp (hy ▸ members_behind hx)
      | more c rest =>
        have hn : rest.length < n := Nat.lt_of_succ_lt_succ hlen
        have hm : (rest ++ closing).length < m := Nat.lt_of_succ_lt_succ hlen'
        by_cases hclose : c = ']'
        · subst hclose
          simp only [members, hx, hy]
          exact .read (.closed rest)
        by_cases hopen : c = '['
        · subst hopen
          exact members_class_within ih hx hy hn hm
        · exact members_range_within ih hx hy hclose hopen hn hm

theorem bracketed_within (h : Remains cs ds) : Within ['$'] (bracketed v cs) (bracketed v ds) := by
  have hlt := (classOpening_suffix v cs).length_le
  have hlt' := (classOpening_suffix v ds).length_le
  obtain ⟨negated, first, more, more', hc, hd, hmore⟩ := classOpening_remains v h
  unfold bracketed
  simp only [hc, hd] at hlt hlt' ⊢
  refine (members_within hmore (Nat.lt_succ_of_le hlt) (Nat.lt_succ_of_le hlt')).bind
    (fun t r r' _ _ hrem => .read hrem) fun t r hr z hz => ?_
  cases hz
  exact hr

end CellReplay.Pattern
