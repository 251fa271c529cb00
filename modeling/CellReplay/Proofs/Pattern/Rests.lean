import CellReplay.Pattern.Parser
import Mathlib.Data.List.Infix

/-!
# Proofs.Pattern.Rests

What a reader leaves is an end of what it was given, and a shorter one where it read something.

* `Behind`          — a proper end of a text.
* `members_behind`  — a class is read up to its bracket.
* `body_suffix`     — alternatives are read up to what closes them.
-/

namespace CellReplay.Pattern

open Text

/-- A proper end of a text. -/
def Behind (rest cs : List Char) : Prop := rest <:+ cs ∧ rest.length < cs.length

variable {v : Bool} {c : Char} {cs ds rest : List Char}

theorem behind_cons : Behind rest (c :: cs) ↔ rest <:+ cs := by
  constructor
  · rintro ⟨h, hlt⟩
    rcases List.suffix_cons_iff.mp h with rfl | h
    · exact absurd hlt (Nat.lt_irrefl _)
    · exact h
  · intro h
    exact ⟨h.trans (List.suffix_cons c cs), Nat.lt_succ_of_le h.length_le⟩

theorem Behind.trans_suffix (h : Behind rest cs) (hcs : cs <:+ ds) : Behind rest ds :=
  ⟨h.1.trans hcs, Nat.lt_of_lt_of_le h.2 hcs.length_le⟩

theorem Behind.of_suffix (h : Behind cs ds) (hcs : rest <:+ cs) : Behind rest ds :=
  ⟨hcs.trans h.1, Nat.lt_of_le_of_lt hcs.length_le h.2⟩

theorem behind_of_cons (h : c :: rest <:+ cs) : Behind rest cs :=
  (behind_cons.mpr (List.suffix_refl rest)).trans_suffix h

/-! ## Blanks -/

theorem skipComment_suffix (cs : List Char) : skipComment cs <:+ cs :=
  (List.drop_suffix 1 _).trans (List.dropWhile_suffix _)

theorem skipFrom_suffix (fuel : Nat) (cs : List Char) : skipFrom fuel cs <:+ cs := by
  induction fuel generalizing cs with
  | zero => exact List.suffix_refl cs
  | succ fuel ih =>
    cases cs with
    | nil => exact List.suffix_refl _
    | cons c cs =>
      rw [skipFrom]
      split
      · exact (ih cs).trans (List.suffix_cons c cs)
      · split
        · exact ((ih _).trans (skipComment_suffix cs)).trans (List.suffix_cons c cs)
        · exact List.suffix_refl _

theorem skip_suffix (v : Bool) (cs : List Char) : skip v cs <:+ cs := by
  unfold skip
  split
  · exact skipFrom_suffix _ cs
  · exact List.suffix_refl cs

theorem skip_cons_suffix (h : skip v cs = c :: rest) : c :: rest <:+ cs := h ▸ skip_suffix v cs

theorem skip_cons_behind (h : skip v cs = c :: rest) : Behind rest cs :=
  behind_of_cons (skip_cons_suffix h)

theorem takeSkipping_suffix (v : Bool) (p : Char → Bool) (fuel : Nat) (cs : List Char) :
    (takeSkipping v p fuel cs).2 <:+ cs := by
  induction fuel generalizing cs with
  | zero => exact List.suffix_refl cs
  | succ fuel ih =>
    cases cs with
    | nil => exact List.suffix_refl _
    | cons c cs =>
      rw [takeSkipping]
      split
      · exact ((ih _).trans (skip_suffix v cs)).trans (List.suffix_cons c cs)
      · exact List.suffix_refl _

theorem span_suffix (v : Bool) (p : Char → Bool) (cs : List Char) : (span v p cs).2 <:+ cs :=
  takeSkipping_suffix v p _ cs

theorem span_eq_suffix {p : Char → Bool} {taken : List Char} (h : span v p cs = (taken, rest)) :
    rest <:+ cs := by
  simpa [h] using span_suffix v p cs

/-! ## Escapes -/

theorem fixed_suffix {n : Nat} {x : List Char × List Char} (h : hexEscape.fixed v n cs = some x) :
    x.2 <:+ cs := by
  induction n generalizing cs x with
  | zero => cases h
  | succ n ih =>
    cases cs with
    | nil => cases h
    | cons c cs =>
      rw [hexEscape.fixed] at h
      split at h
      · split at h
        · cases h
          exact List.suffix_cons c cs
        · obtain ⟨y, hy, rfl⟩ := Option.map_eq_some_iff.mp h
          exact ((ih hy).trans (skip_suffix v cs)).trans (List.suffix_cons c cs)
      · cases h

theorem hexEscape_suffix {n : Nat} {x : Literal × List Char} (h : hexEscape v n cs = some x) :
    x.2 <:+ cs := by
  unfold hexEscape at h
  split at h
  · next inner hskip =>
    have hinner := (skip_cons_behind hskip).1
    split at h
    · next ds rest hspan =>
      split at h
      · cases h
      · obtain ⟨c, -, rfl⟩ := Option.map_eq_some_iff.mp h
        exact ((List.suffix_cons _ rest).trans (span_eq_suffix hspan)).trans
          ((skip_suffix v inner).trans hinner)
    · cases h
  · simp only [Option.bind_eq_bind, Option.bind_eq_some_iff] at h
    obtain ⟨⟨ds, rest⟩, hfixed, c, -, h⟩ := h
    cases h
    exact (fixed_suffix hfixed).trans (skip_suffix v cs)

theorem propertyEscape_suffix {x : PropertyName × List Char} (h : propertyEscape v cs = some x) :
    x.2 <:+ cs := by
  unfold propertyEscape at h
  split at h
  · next inner hskip =>
    split at h
    · next name c rest hspan =>
      cases h
      exact ((List.suffix_cons _ rest).trans (span_eq_suffix hspan)).trans
        ((skip_suffix v inner).trans (skip_cons_behind hskip).1)
    · cases h
  · cases h
  · next c rest _ _ hskip =>
    cases h
    exact (skip_cons_behind hskip).1
  · cases h

theorem boundaryEscape_suffix {x : Assertion × List Char} (h : boundaryEscape v cs = some x) :
    x.2 <:+ cs := by
  unfold boundaryEscape at h
  split at h
  · next inner =>
    dsimp only at h
    split at h
    · cases h
    · next c more hskip =>
      split at h
      · split at h
        · next name rest hspan =>
          obtain ⟨a, -, rfl⟩ := Option.map_eq_some_iff.mp h
          exact ((List.suffix_cons _ rest).trans (span_eq_suffix hspan)).trans
            ((skip_cons_suffix hskip).trans (List.suffix_cons _ inner))
        · cases h
      · cases h
        exact List.suffix_refl _
  · cases h
    exact List.suffix_refl _

theorem escape_behind {x : Escape × List Char} (h : escape v cs = some x) : Behind x.2 cs := by
  cases cs with
  | nil => cases h
  | cons c cs =>
    rw [behind_cons]
    unfold escape at h
    dsimp only at h
    split at h
    case h_1 | h_2 | h_3 =>
      obtain ⟨y, hy, rfl⟩ := Option.map_eq_some_iff.mp h
      exact hexEscape_suffix hy
    case h_4 | h_5 =>
      obtain ⟨y, hy, rfl⟩ := Option.map_eq_some_iff.mp h
      exact propertyEscape_suffix hy
    case h_23 =>
      obtain ⟨y, hy, rfl⟩ := Option.map_eq_some_iff.mp h
      exact boundaryEscape_suffix hy
    case h_24 =>
      split at h
      · cases h
        exact List.suffix_refl _
      · cases h
    all_goals
      cases h
      exact List.suffix_refl _

/-! ## Bracketed classes -/

theorem list_span_suffix {p : Char → Bool} {taken : List Char} (h : cs.span p = (taken, rest)) :
    rest <:+ cs := by
  rw [List.span_eq_takeWhile_dropWhile, Prod.mk.injEq] at h
  exact h.2 ▸ List.dropWhile_suffix p

theorem asciiClass?_suffix {x : ClassTree × List Char} (h : asciiClass? cs = some x) :
    x.2 <:+ cs := by
  unfold asciiClass? at h
  split at h
  · next inner =>
    refine List.IsSuffix.trans ?_ (List.suffix_cons ':' inner)
    split at h
    next negated rest hsign =>
    have hrest : rest <:+ inner := by
      split at hsign <;> cases hsign
      · exact List.suffix_cons _ _
      · exact List.suffix_refl _
    split at h
    · next name more hspan =>
      obtain ⟨k, -, rfl⟩ := Option.map_eq_some_iff.mp h
      exact ((List.suffix_append [':', ']'] more).trans (list_span_suffix hspan)).trans hrest
    · cases h
  · cases h

theorem classItem_behind {x : Escape × List Char} (h : classItem v cs = some x) :
    Behind x.2 cs := by
  unfold classItem at h
  split at h
  · cases h
  · exact (escape_behind h).trans_suffix (List.suffix_cons _ _)
  · cases h
    exact behind_cons.mpr (List.suffix_refl _)

/-- A range goes on behind its first item. -/
theorem classRange_suffix {first : Escape} {x : ClassTree × List Char}
    (hfirst : classItem v cs = some (first, rest)) (h : classRange v cs = some x) : x.2 <:+ rest := by
  refine List.IsSuffix.trans ?_ (skip_suffix v rest)
  simp only [classRange, hfirst, Option.bind_eq_bind, Option.bind_some] at h
  split at h
  · cases h
  · next more hskip =>
    rw [hskip]
    split at h
    · obtain ⟨t, -, h⟩ := Option.bind_eq_some_iff.mp h
      cases h
      exact List.suffix_refl _
    · obtain ⟨⟨last, rest'⟩, hlast, h⟩ := Option.bind_eq_some_iff.mp h
      have hmore : rest' <:+ more := (classItem_behind hlast).1.trans (skip_suffix v more)
      dsimp only at h
      split at h
      · split at h
        · cases h
          exact hmore.trans (List.suffix_cons _ _)
        · cases h
      · cases h
  · obtain ⟨t, -, h⟩ := Option.bind_eq_some_iff.mp h
    cases h
    exact List.suffix_refl _

theorem classRange_behind {x : ClassTree × List Char} (h : classRange v cs = some x) :
    Behind x.2 cs := by
  cases hfirst : classItem v cs with
  | none => simp [classRange, hfirst] at h
  | some y => exact (classItem_behind hfirst).of_suffix (classRange_suffix hfirst h)

theorem classOpening_suffix (v : Bool) (cs : List Char) : (classOpening v cs).2.2 <:+ cs := by
  unfold classOpening
  split
  next negated signs hsign =>
  have hsigns : signs <:+ cs := by
    split at hsign <;> cases hsign
    · next hskip => exact (skip_suffix v _).trans (skip_cons_behind hskip).1
    · exact skip_suffix v cs
  dsimp only
  split
  · next rest hspan =>
    exact ((skip_suffix v rest).trans (List.suffix_cons _ rest)).trans
      ((span_eq_suffix hspan).trans hsigns)
  · next hspan => exact (span_eq_suffix hspan).trans hsigns

theorem setOp?_behind {x : SetOp × List Char} (h : setOp? cs = some x) : Behind x.2 cs := by
  unfold setOp? at h
  split at h
  all_goals cases h
  all_goals exact behind_cons.mpr (List.suffix_cons _ _)

theorem members_behind {fuel : Nat} {pending : Option (SetOp × ClassTree)} {done : List ClassTree}
    {x : ClassTree × List Char} (h : members v fuel pending done cs = some x) :
    Behind x.2 (skip v cs) := by
  induction fuel generalizing pending done cs x with
  | zero => cases h
  | succ fuel ih =>
    have later {pending : Option (SetOp × ClassTree)} {done : List ClassTree} {cs : List Char}
        {x : ClassTree × List Char} (h : members v fuel pending done cs = some x) : x.2 <:+ cs :=
      (ih h).1.trans (skip_suffix v cs)
    rw [members] at h
    dsimp only at h
    split at h
    · cases h
    · next hskip =>
      cases h
      exact hskip ▸ behind_cons.mpr (List.suffix_refl _)
    · next inner hskip =>
      rw [hskip, behind_cons]
      split at h
      · next t rest hascii => exact (later h).trans (asciiClass?_suffix hascii)
      · obtain ⟨⟨t, rest⟩, ht, h⟩ := Option.bind_eq_some_iff.mp h
        exact (later h).trans ((later ht).trans (classOpening_suffix v inner))
    · split at h
      · next o rest hop => exact (setOp?_behind hop).of_suffix (later h)
      · obtain ⟨⟨t, rest⟩, ht, h⟩ := Option.bind_eq_some_iff.mp h
        exact (classRange_behind ht).of_suffix (later h)

theorem members_suffix {fuel : Nat} {pending : Option (SetOp × ClassTree)} {done : List ClassTree}
    {x : ClassTree × List Char} (h : members v fuel pending done cs = some x) : x.2 <:+ cs :=
  (members_behind h).1.trans (skip_suffix v cs)

theorem bracketed_suffix {x : Tree × List Char} (h : bracketed v cs = some x) : x.2 <:+ cs := by
  obtain ⟨⟨t, rest⟩, ht, h⟩ := Option.bind_eq_some_iff.mp h
  cases h
  exact (members_suffix ht).trans (classOpening_suffix v cs)

/-! ## Repetition -/

theorem countDigits_suffix (v : Bool) (cs : List Char) : (countDigits v cs).2 <:+ cs :=
  (skip_suffix v _).trans <| (List.dropWhile_suffix _).trans <|
    (span_suffix v _ _).trans (List.dropWhile_suffix _)

theorem count_suffix {x : (Nat × Option Nat) × List Char} (h : count v cs = some x) :
    x.2 <:+ cs := by
  have hfirst := (countDigits_suffix v (skip v cs)).trans (skip_suffix v cs)
  unfold count at h
  rcases hdigits : countDigits v (skip v cs) with ⟨digits, rest⟩
  rw [hdigits] at h hfirst
  obtain ⟨min, -, hrest⟩ := Option.bind_eq_some_iff.mp h
  split at hrest
  · cases hrest
    exact (List.suffix_cons _ _).trans hfirst
  · next rest =>
    have hcomma : skip v rest <:+ cs :=
      (skip_suffix v rest).trans ((List.suffix_cons _ _).trans hfirst)
    split at hrest
    · next hskip =>
      cases hrest
      exact (List.suffix_cons _ _).trans (hskip ▸ hcomma)
    · have hsecond := (countDigits_suffix v (skip v rest)).trans hcomma
      rcases hdigits : countDigits v (skip v rest) with ⟨digits, rest⟩
      rw [hdigits] at hrest hsecond
      obtain ⟨max, -, hlast⟩ := Option.bind_eq_some_iff.mp hrest
      split at hlast
      · split at hlast
        · cases hlast
          exact (List.suffix_cons _ _).trans hsecond
        · cases hlast
      · cases hlast
  · cases hrest

theorem passLazy_suffix (cs : List Char) : passLazy cs <:+ cs := by
  unfold passLazy
  split
  · exact List.suffix_cons _ _
  · exact List.suffix_refl _

theorem repetition?_behind {x : (Nat × Option Nat) × List Char}
    (h : repetition? v cs = some (some x)) : Behind x.2 cs := by
  unfold repetition? at h
  split at h
  · cases h
    exact behind_cons.mpr (passLazy_suffix _)
  · cases h
    exact behind_cons.mpr (passLazy_suffix _)
  · cases h
    exact behind_cons.mpr (passLazy_suffix _)
  · obtain ⟨y, hy, rfl⟩ := Option.map_eq_some_iff.mp (Option.some.inj h)
    exact behind_cons.mpr
      ((passLazy_suffix _).trans ((skip_suffix v _).trans (count_suffix hy)))
  · cases h

/-! ## Groups -/

theorem flagItems_suffix {clearing : Bool} {done : FlagChange} {x : FlagChange × List Char}
    (h : flagItems clearing done cs = some x) : x.2 <:+ cs := by
  induction cs generalizing clearing done with
  | nil => cases h
  | cons c cs ih =>
    unfold flagItems at h
    split at h
    · cases h
    · next heq =>
      cases heq
      split at h
      · cases h
      · exact (ih h).trans (List.suffix_cons _ _)
    · next heq =>
      cases heq
      split at h
      · cases h
        exact List.suffix_refl _
      · split at h
        · cases h
        · split at h
          · cases h
          · exact (ih h).trans (List.suffix_cons _ _)

theorem groupName_suffix {x : List Char × List Char} (h : groupName cs = some x) : x.2 <:+ cs := by
  unfold groupName at h
  split at h
  · next hspan =>
    split at h
    · cases h
      exact (List.suffix_cons _ _).trans (list_span_suffix hspan)
    · cases h
  · cases h

theorem opening_suffix {x : Opening × List Char} (h : opening v cs = some x) : x.2 <:+ cs := by
  refine List.IsSuffix.trans ?_ (skip_suffix v cs)
  unfold opening at h
  generalize skip v cs = ds at h
  split at h
  · cases h
  · cases h
  · cases h
  · cases h
  · obtain ⟨y, hy, rfl⟩ := Option.map_eq_some_iff.mp h
    exact (groupName_suffix hy).trans (List.suffix_append ['?', 'P', '<'] _)
  · obtain ⟨y, hy, rfl⟩ := Option.map_eq_some_iff.mp h
    exact (groupName_suffix hy).trans (List.suffix_append ['?', '<'] _)
  · next items _ _ _ _ _ _ =>
    have hitems {y : FlagChange × List Char} (hy : flagItems false [] items = some y) :
        y.2 <:+ '?' :: items := (flagItems_suffix hy).trans (List.suffix_cons _ _)
    split at h
    · next hy =>
      split at h
      · cases h
      · cases h
        exact (List.suffix_cons _ _).trans (hitems hy)
    · next hy =>
      cases h
      exact (List.suffix_cons _ _).trans (hitems hy)
    · cases h
  · cases h
    exact List.suffix_refl _

/-! ## Patterns -/

theorem atom_behind {x : Tree × List Char} (h : atom v cs = some x) : Behind x.2 cs := by
  unfold atom at h
  split at h
  · cases h
  · obtain ⟨⟨e, rest⟩, he, rfl⟩ := Option.map_eq_some_iff.mp h
    rw [behind_cons]
    cases e <;> exact (escape_behind he).1
  · cases h; exact behind_cons.mpr (List.suffix_refl _)
  · cases h; exact behind_cons.mpr (List.suffix_refl _)
  · cases h; exact behind_cons.mpr (List.suffix_refl _)
  · exact behind_cons.mpr (bracketed_suffix h)
  · cases h; exact behind_cons.mpr (List.suffix_refl _)

/-- An end of a text that is empty or begins with a closing parenthesis. -/
structure Ends (rest cs : List Char) : Prop where
  suffix : rest <:+ cs
  stops : rest = [] ∨ ∃ more, rest = ')' :: more

theorem Ends.trans (h : Ends rest cs) (hcs : cs <:+ ds) : Ends rest ds := ⟨h.1.trans hcs, h.2⟩

/-- What is read behind a group, where `f` goes on behind its parenthesis. -/
theorem group_ends {s : List Char} {x : Option (Tree × List (List Char) × List Char)}
    {f : Tree × List (List Char) × List Char → Option (Tree × List (List Char) × List Char)}
    (hx : ∀ y ∈ x, Ends y.2.2 s) (hf : ∀ t names, f (t, names, []) = none)
    (hrest : ∀ t names c rest, ∀ z ∈ f (t, names, c :: rest), Ends z.2.2 rest) :
    ∀ z ∈ x >>= f, Ends z.2.2 s := by
  intro z hz
  obtain ⟨⟨t, names, rest⟩, ht, hz⟩ := Option.bind_eq_some_iff.mp hz
  cases rest with
  | nil => rw [hf] at hz; cases hz
  | cons c rest =>
    exact (hrest t names c rest z hz).trans ((List.suffix_cons c rest).trans (hx _ ht).suffix)

theorem body_ends {fuel : Nat} {names : List (List Char)} {branches done : List Tree}
    {x : Tree × List (List Char) × List Char} (h : body fuel v names branches done cs = some x) :
    Ends x.2.2 cs := by
  induction fuel generalizing v names branches done cs x with
  | zero => cases h
  | succ fuel ih =>
    have hskip := skip_suffix v cs
    rw [body] at h
    dsimp only at h
    split at h
    · cases h
      exact ⟨List.nil_suffix, .inl rfl⟩
    · next hcs =>
      cases h
      exact ⟨hcs ▸ hskip, .inr ⟨_, rfl⟩⟩
    · next hcs => exact (ih h).trans (skip_cons_behind hcs).1
    · next inner hcs =>
      obtain ⟨⟨o, rest⟩, ho, h⟩ := Option.bind_eq_some_iff.mp h
      have hrest := (opening_suffix ho).trans (skip_cons_behind hcs).1
      cases o with
      | flags change => exact (ih h).trans hrest
      | group change =>
        exact (group_ends (fun _ => ih) (fun _ _ => rfl) (fun _ _ _ _ _ => ih) x h).trans hrest
      | named name =>
        dsimp only at h
        split at h
        · cases h
        · exact (group_ends (fun _ => ih) (fun _ _ => rfl) (fun _ _ _ _ _ => ih) x h).trans hrest
    · split at h
      · next r hr =>
        obtain ⟨⟨⟨min, max⟩, rest⟩, rfl, hbody⟩ := Option.bind_eq_some_iff.mp h
        have hrest := (repetition?_behind hr).1.trans hskip
        split at hbody
        · cases hbody
        · obtain ⟨t, -, hbody⟩ := Option.bind_eq_some_iff.mp hbody
          exact (ih hbody).trans hrest
      · obtain ⟨⟨t, rest⟩, ht, h⟩ := Option.bind_eq_some_iff.mp h
        exact (ih h).trans ((atom_behind ht).1.trans hskip)

theorem body_suffix {fuel : Nat} {names : List (List Char)} {branches done : List Tree}
    {x : Tree × List (List Char) × List Char} (h : body fuel v names branches done cs = some x) :
    x.2.2 <:+ cs := (body_ends h).suffix

/-- With more to spend, what has been read is read alike. -/
theorem body_succ {fuel : Nat} {names : List (List Char)} {branches done : List Tree}
    {x : Tree × List (List Char) × List Char} (h : body fuel v names branches done cs = some x) :
    body (fuel + 1) v names branches done cs = some x := by
  induction fuel generalizing v names branches done cs x with
  | zero => cases h
  | succ fuel ih =>
    rw [body] at h ⊢
    dsimp only at h ⊢
    split at h
    · exact h
    · exact h
    · exact ih h
    · obtain ⟨⟨o, rest⟩, ho, hbody⟩ := Option.bind_eq_some_iff.mp h
      simp only [ho, Option.bind_eq_bind, Option.bind_some]
      cases o with
      | flags change => exact ih hbody
      | group change =>
        obtain ⟨⟨t, names, rest⟩, ht, hrest⟩ := Option.bind_eq_some_iff.mp hbody
        refine Option.bind_eq_some_iff.mpr ⟨_, ih ht, ?_⟩
        cases rest with
        | nil => cases hrest
        | cons c rest => exact ih hrest
      | named name =>
        dsimp only at hbody ⊢
        split at hbody
        · cases hbody
        · next hnew =>
          rw [if_neg hnew]
          obtain ⟨⟨t, names, rest⟩, ht, hrest⟩ := Option.bind_eq_some_iff.mp hbody
          refine Option.bind_eq_some_iff.mpr ⟨_, ih ht, ?_⟩
          cases rest with
          | nil => cases hrest
          | cons c rest => exact ih hrest
    · split at h
      · obtain ⟨⟨⟨min, max⟩, rest⟩, rfl, hbody⟩ := Option.bind_eq_some_iff.mp h
        refine Option.bind_eq_some_iff.mpr ⟨_, rfl, ?_⟩
        split at hbody
        · cases hbody
        · obtain ⟨t, ht, hbody⟩ := Option.bind_eq_some_iff.mp hbody
          exact Option.bind_eq_some_iff.mpr ⟨t, ht, ih hbody⟩
      · obtain ⟨⟨t, rest⟩, ht, hbody⟩ := Option.bind_eq_some_iff.mp h
        exact Option.bind_eq_some_iff.mpr ⟨_, ht, ih hbody⟩

theorem body_mono {n m : Nat} (hle : n ≤ m) {names : List (List Char)} {branches done : List Tree}
    {x : Tree × List (List Char) × List Char} (h : body n v names branches done cs = some x) :
    body m v names branches done cs = some x := by
  induction hle with
  | refl => exact h
  | step _ ih => exact body_succ ih

end CellReplay.Pattern
