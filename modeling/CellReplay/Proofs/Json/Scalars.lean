import CellReplay.Proofs.Json.Tokens

/-!
# Proofs.Json.Scalars

The values that one token spells, and that nothing but the token matters to the reader of it.

* `Token.scalar?`           — the value of a token.
* `Closes`                  — the characters of a string with the quote that closes it.
* `stringBody_eq_some_iff`  — a string is told by its token.
* `numeral_breaks`          — where a token ends, a numeral does not go on.
* `value_plain_eq_some_iff` — words and numbers are told by their tokens.
-/

namespace CellReplay.Json

open Text

/-- The words by their first letter: the letters behind it, and the value. -/
def wordOf? : Char → Option (List Char × Json)
  | 'n' => some ("ull".toList, .null)
  | 't' => some ("rue".toList, .bool true)
  | 'f' => some ("alse".toList, .bool false)
  | _ => none

/-- The value of a token that is a value by itself. -/
def Token.scalar? : Token → Option Json
  | .punctuation _ => none
  | .quoted body =>
    match stringBody body with
    | some (t, []) => some (.string t)
    | _ => none
  | .plain [] => none
  | .plain (c :: cs) =>
    match wordOf? c with
    | some (w, j) => if cs = w then some j else none
    | none =>
      match numeral (c :: cs) with
      | some (n, []) => some (.number n)
      | _ => none

/-! ## Strings -/

theorem quoted_cons {c : Char} (hquote : c ≠ '"') (hslash : c ≠ '\\') (cs : List Char) :
    quoted (c :: cs) = (c :: (quoted cs).1, (quoted cs).2) := by
  rw [quoted]
  · exact hquote
  · rintro d ds rfl
    exact absurd rfl hslash

theorem ne_of_hexValue? {c : Char} {n : Nat} (h : hexValue? c = some n) : c ≠ '"' ∧ c ≠ '\\' := by
  constructor <;> (rintro rfl; cases h)

/-- Pieces and the characters that spell them, up to the quote that closes the string; nothing
behind it matters. -/
def Closes (body : List Char) (ps : List Piece) : Prop :=
  ∀ more, quoted (body ++ more) = (body, more) ∧
    ∀ fuel, body.length < fuel → pieces fuel (body ++ more) = some (ps, more)

section

variable {body : List Char} {ps : List Piece}

theorem closes_quote : Closes ['"'] [] := by
  intro more
  refine ⟨rfl, fun fuel hf => ?_⟩
  obtain ⟨fuel, rfl⟩ : ∃ f, fuel = f + 1 := ⟨fuel - 1, by omega⟩
  rfl

theorem pieces_char {c : Char} (hquote : c ≠ '"') (hslash : c ≠ '\\') (fuel : Nat)
    (rest : List Char) :
    pieces (fuel + 1) (c :: rest) =
      if c.toNat < 0x20 then none
      else (pieces fuel rest).map fun r => (.char c :: r.1, r.2) := by
  conv_lhs => unfold pieces
  split
  · next h => cases h
  · next h => cases h; exact absurd rfl hquote
  · next h => cases h; exact absurd rfl hslash
  · next h => cases h; exact absurd rfl hslash
  · next h => cases h; simp only [hslash, false_or]

theorem pieces_simple {c d : Char} (hc : simpleEscape? c = some d) (fuel : Nat)
    (rest : List Char) :
    pieces (fuel + 1) ('\\' :: c :: rest) =
      (pieces fuel rest).map fun r => (.char d :: r.1, r.2) := by
  conv_lhs => unfold pieces
  split
  · next h => cases h
  · next h => cases h
  · next h => cases h; cases hc
  · next h =>
    cases h
    simp only [hc, Option.bind_eq_bind, Option.bind_some, Option.pure_def]
    rw [Option.map_eq_bind]
    rfl
  · next hno h => cases h; exact (hno _ _ rfl rfl).elim

theorem closes_char {c : Char} (hquote : c ≠ '"') (hslash : c ≠ '\\') (hc : ¬ c.toNat < 0x20)
    (h : Closes body ps) : Closes (c :: body) (.char c :: ps) := by
  intro more
  obtain ⟨hq, hp⟩ := h more
  refine ⟨by rw [List.cons_append, quoted_cons hquote hslash, hq], fun fuel hf => ?_⟩
  obtain ⟨fuel, rfl⟩ : ∃ f, fuel = f + 1 := ⟨fuel - 1, by omega⟩
  rw [List.cons_append, pieces_char hquote hslash, if_neg hc, hp fuel (by simpa using hf)]
  rfl

theorem closes_simple {c d : Char} (hc : simpleEscape? c = some d) (h : Closes body ps) :
    Closes ('\\' :: c :: body) (.char d :: ps) := by
  intro more
  obtain ⟨hq, hp⟩ := h more
  refine ⟨by rw [List.cons_append, List.cons_append, quoted, hq], fun fuel hf => ?_⟩
  obtain ⟨fuel, rfl⟩ : ∃ f, fuel = f + 1 := ⟨fuel - 1, by omega⟩
  have hlength : body.length < fuel := by
    simp only [List.length_cons] at hf
    omega
  rw [List.cons_append, List.cons_append, pieces_simple hc, hp fuel hlength]
  rfl

theorem fourHex_eq_some {n : Nat} {cs rest : List Char} (h : fourHex cs = some (n, rest)) :
    ∃ ds, cs = ds ++ rest ∧ (∀ c ∈ ds, c ≠ '"' ∧ c ≠ '\\') ∧
      ∀ more, fourHex (ds ++ more) = some (n, more) := by
  unfold fourHex at h
  split at h
  · next a b c d _ =>
    simp only [Option.bind_eq_bind, Option.bind_eq_some_iff, Option.pure_def] at h
    obtain ⟨k, ha, l, hb, m, hc, n, hd, he⟩ := h
    cases he
    refine ⟨[a, b, c, d], rfl, ?_, fun more => ?_⟩
    · simp only [List.forall_mem_cons]
      exact ⟨ne_of_hexValue? ha, ne_of_hexValue? hb, ne_of_hexValue? hc, ne_of_hexValue? hd,
        List.forall_mem_nil _⟩
    · simp only [List.cons_append, List.nil_append, fourHex, ha, hb, hc, hd, Option.bind_eq_bind,
        Option.bind_some, Option.pure_def]
  · cases h

theorem quoted_append_of_ordinary {ds : List Char} (hds : ∀ c ∈ ds, c ≠ '"' ∧ c ≠ '\\')
    (cs : List Char) : quoted (ds ++ cs) = (ds ++ (quoted cs).1, (quoted cs).2) := by
  induction ds with
  | nil => rfl
  | cons d ds ih =>
    obtain ⟨⟨hquote, hslash⟩, hds⟩ := List.forall_mem_cons.mp hds
    rw [List.cons_append, quoted_cons hquote hslash, ih hds]
    rfl

/-- What an escape with four digits stands for. -/
def Piece.ofHex (n : Nat) : Piece :=
  if isHighHalf n || isLowHalf n then .half n else .char (Char.ofNat n)

theorem closes_hex {n : Nat} {ds : List Char} (hds : ∀ c ∈ ds, c ≠ '"' ∧ c ≠ '\\')
    (hread : ∀ more, fourHex (ds ++ more) = some (n, more)) (h : Closes body ps) :
    Closes ('\\' :: 'u' :: (ds ++ body)) (Piece.ofHex n :: ps) := by
  intro more
  obtain ⟨hq, hp⟩ := h more
  refine ⟨?_, fun fuel hf => ?_⟩
  · rw [List.cons_append, List.cons_append, quoted, List.append_assoc,
      quoted_append_of_ordinary hds, hq]
  · obtain ⟨fuel, rfl⟩ : ∃ f, fuel = f + 1 := ⟨fuel - 1, by omega⟩
    have hlength : body.length < fuel := by
      simp only [List.length_cons, List.length_append] at hf
      omega
    rw [List.cons_append, List.cons_append, List.append_assoc, pieces, hread]
    simp only [Option.bind_eq_bind, Option.bind_some, hp fuel hlength]
    rfl

/-- A string is read up to the quote that closes it, whatever comes behind. -/
theorem pieces_read {fuel : Nat} {cs rest : List Char} (h : pieces fuel cs = some (ps, rest)) :
    ∃ body, cs = body ++ rest ∧ Closes body ps := by
  induction fuel generalizing cs ps with
  | zero => cases h
  | succ fuel ih =>
    unfold pieces at h
    split at h
    · cases h
    · cases h
      exact ⟨['"'], rfl, closes_quote⟩
    · simp only [Option.bind_eq_bind, Option.bind_eq_some_iff, Option.pure_def] at h
      obtain ⟨⟨n, _⟩, hhex, ⟨ps, _⟩, hread, he⟩ := h
      cases he
      obtain ⟨ds, rfl, hds, hmore⟩ := fourHex_eq_some hhex
      obtain ⟨body, rfl, hbody⟩ := ih hread
      refine ⟨'\\' :: 'u' :: (ds ++ body), ?_, closes_hex hds hmore hbody⟩
      rw [List.cons_append, List.cons_append, List.append_assoc]
    · simp only [Option.bind_eq_bind, Option.bind_eq_some_iff, Option.pure_def] at h
      obtain ⟨d, hd, ⟨ps, _⟩, hread, he⟩ := h
      cases he
      obtain ⟨body, rfl, hbody⟩ := ih hread
      exact ⟨_, rfl, closes_simple hd hbody⟩
    · next c cs _ hquote _ _ =>
      split at h
      · cases h
      · next hc =>
        obtain ⟨hslash, hcontrol⟩ := not_or.mp hc
        obtain ⟨⟨ps, _⟩, hread, he⟩ := Option.map_eq_some_iff.mp h
        cases he
        obtain ⟨body, rfl, hbody⟩ := ih hread
        exact ⟨_, rfl, closes_char (fun he => hquote he) hslash hcontrol hbody⟩

end

theorem stringBody_append {body : List Char} {ps : List Piece} (h : Closes body ps)
    (rest : List Char) :
    stringBody (body ++ rest) = some ((textOf ps).map String.ofList, rest) := by
  rw [stringBody, (h rest).2 _ (by rw [List.length_append]; omega), Option.map_some]

/-- What is read as a string is told by its token alone. -/
theorem stringBody_eq_some_iff {cs rest : List Char} {t : Option String} :
    stringBody cs = some (t, rest) ↔
      stringBody (quoted cs).1 = some (t, []) ∧ (quoted cs).2 = rest := by
  constructor
  · intro h
    obtain ⟨⟨ps, _⟩, hread, he⟩ := Option.map_eq_some_iff.mp h
    cases he
    obtain ⟨body, rfl, hbody⟩ := pieces_read hread
    have hnothing := stringBody_append hbody []
    rw [List.append_nil] at hnothing
    rw [(hbody rest).1]
    exact ⟨hnothing, rfl⟩
  · rintro ⟨h, rfl⟩
    obtain ⟨⟨ps, _⟩, hread, he⟩ := Option.map_eq_some_iff.mp h
    cases he
    obtain ⟨body, hcs, hbody⟩ := pieces_read hread
    rw [List.append_nil] at hcs
    have hread := stringBody_append hbody (quoted cs).2
    rwa [← hcs, quoted_append] at hread

theorem scalar?_quoted_eq_some_iff {body : List Char} {j : Json} :
    (Token.quoted body).scalar? = some j ↔
      ∃ t, j = .string t ∧ stringBody body = some (t, []) := by
  rw [Token.scalar?]
  split
  · next t ht =>
    rw [ht, Option.some.injEq]
    constructor
    · rintro rfl
      exact ⟨t, rfl, rfl⟩
    · rintro ⟨t', rfl, he⟩
      cases he
      rfl
  · next hno =>
    constructor
    · intro h
      cases h
    · rintro ⟨t, -, ht⟩
      exact absurd ht (hno t)

/-! ## Words and numbers -/

section

variable {rest : List Char}

theorem cons_ne_cons {c d : Char} (h : c ≠ d) (cs ds : List Char) : c :: cs ≠ d :: ds :=
  fun he => h (List.cons.inj he).1

theorem Breaks.ne (hr : Breaks rest) {c : Char} (hc : isPlain c = true) (cs : List Char) :
    rest ≠ c :: cs := by
  rintro rfl
  exact absurd hc (by simp [hr c rfl])

theorem digits_breaks (hr : Breaks rest) (w : List Char) :
    digits (w ++ rest) = (digits w).map fun r => (r.1, r.2 ++ rest) := by
  have hdigit : ∀ c ∈ rest.head?, isDigit c = false := by
    intro c hc
    by_contra hno
    have hplain := isPlain_isDigit (by simpa using hno)
    exact absurd (hr c hc) (by simp [hplain])
  rw [digits, digits, List.span_eq_takeWhile_dropWhile, List.span_eq_takeWhile_dropWhile,
    takeWhile_append_stop hdigit, dropWhile_append_stop hdigit]
  cases w.takeWhile isDigit <;> rfl

theorem wholePart_breaks (hr : Breaks rest) (w : List Char) :
    wholePart (w ++ rest) = (wholePart w).map fun r => (r.1, r.2 ++ rest) := by
  rw [wholePart, wholePart, digits_breaks hr]
  cases digits w with
  | none => rfl
  | some r =>
    simp only [Option.map_some, Option.bind_eq_bind, Option.bind_some]
    split <;> rfl

theorem fractionPart_breaks (hr : Breaks rest) (w : List Char) :
    fractionPart (w ++ rest) = (fractionPart w).map fun r => (r.1, r.2 ++ rest) := by
  have hother {cs : List Char} (hno : ∀ ds, cs ≠ '.' :: ds) : fractionPart cs = some (none, cs) := by
    unfold fractionPart
    split
    · next ds => exact absurd rfl (hno ds)
    · rfl
  cases w with
  | nil => exact hother fun ds => hr.ne rfl ds
  | cons c w =>
    by_cases hc : c = '.'
    · rw [hc, List.cons_append, fractionPart, fractionPart, digits_breaks hr, Option.map_map,
        Option.map_map]
      rfl
    · rw [List.cons_append, hother (cons_ne_cons hc _), hother (cons_ne_cons hc _)]
      rfl

/-- The sign of an exponent. -/
def signOf : List Char → Bool × List Char
  | '+' :: cs => (false, cs)
  | '-' :: cs => (true, cs)
  | cs => (false, cs)

/-- An exponent behind its mark. -/
def signedDigits (cs : List Char) : Option (Option (Bool × List Char) × List Char) :=
  (digits (signOf cs).2).map fun r => (some ((signOf cs).1, r.1), r.2)

theorem exponentPart_mark {c : Char} (hc : c = 'e' ∨ c = 'E') (cs : List Char) :
    exponentPart (c :: cs) = signedDigits cs := by
  rcases hc with rfl | rfl <;> rfl

theorem exponentPart_none {cs : List Char} (he : ∀ ds, cs ≠ 'e' :: ds) (hE : ∀ ds, cs ≠ 'E' :: ds) :
    exponentPart cs = some (none, cs) := by
  unfold exponentPart
  split
  · next ds => exact absurd rfl (he ds)
  · next ds => exact absurd rfl (hE ds)
  · rfl

theorem signOf_breaks (hr : Breaks rest) (w : List Char) :
    signOf (w ++ rest) = ((signOf w).1, (signOf w).2 ++ rest) := by
  have hother {cs : List Char} (hplus : ∀ ds, cs ≠ '+' :: ds) (hminus : ∀ ds, cs ≠ '-' :: ds) :
      signOf cs = (false, cs) := by
    unfold signOf
    split
    · next ds => exact absurd rfl (hplus ds)
    · next ds => exact absurd rfl (hminus ds)
    · rfl
  cases w with
  | nil => exact hother (fun ds => hr.ne rfl ds) fun ds => hr.ne rfl ds
  | cons c w =>
    by_cases hplus : c = '+'
    · rw [hplus]
      rfl
    by_cases hminus : c = '-'
    · rw [hminus]
      rfl
    rw [List.cons_append, hother (cons_ne_cons hplus _) (cons_ne_cons hminus _),
      hother (cons_ne_cons hplus _) (cons_ne_cons hminus _)]
    rfl

theorem exponentPart_breaks (hr : Breaks rest) (w : List Char) :
    exponentPart (w ++ rest) = (exponentPart w).map fun r => (r.1, r.2 ++ rest) := by
  cases w with
  | nil => exact exponentPart_none (fun ds => hr.ne rfl ds) fun ds => hr.ne rfl ds
  | cons c w =>
    by_cases hc : c = 'e' ∨ c = 'E'
    · rw [List.cons_append, exponentPart_mark hc, exponentPart_mark hc, signedDigits, signedDigits,
        signOf_breaks hr, digits_breaks hr, Option.map_map, Option.map_map]
      rfl
    · obtain ⟨he, hE⟩ := not_or.mp hc
      rw [List.cons_append, exponentPart_none (cons_ne_cons he _) (cons_ne_cons hE _),
        exponentPart_none (cons_ne_cons he _) (cons_ne_cons hE _)]
      rfl

/-- A numeral without its sign. -/
def unsigned (negative : Bool) (cs : List Char) : Option (Numeral × List Char) := do
  let (whole, cs) ← wholePart cs
  let (fraction, cs) ← fractionPart cs
  let (exponent, cs) ← exponentPart cs
  return (⟨negative, whole, fraction, exponent⟩, cs)

theorem unsigned_breaks (hr : Breaks rest) (negative : Bool) (w : List Char) :
    unsigned negative (w ++ rest) = (unsigned negative w).map fun r => (r.1, r.2 ++ rest) := by
  simp only [unsigned, wholePart_breaks hr]
  cases wholePart w with
  | none => rfl
  | some r =>
    simp only [Option.map_some, Option.bind_eq_bind, Option.bind_some, fractionPart_breaks hr]
    cases fractionPart r.2 with
    | none => rfl
    | some r' =>
      simp only [Option.map_some, Option.bind_some, exponentPart_breaks hr]
      cases exponentPart r'.2 <;> rfl

/-- Where a token ends, a numeral does not go on. -/
theorem numeral_breaks (hr : Breaks rest) (w : List Char) :
    numeral (w ++ rest) = (numeral w).map fun r => (r.1, r.2 ++ rest) := by
  have hother {cs : List Char} (hno : ∀ ds, cs ≠ '-' :: ds) : numeral cs = unsigned false cs := by
    unfold numeral
    split
    next hsign =>
      split at hsign
      · next ds => exact absurd rfl (hno ds)
      · cases hsign
        rfl
  cases w with
  | nil =>
    have hnil : numeral [] = unsigned false [] := hother nofun
    rw [hnil, List.nil_append, hother fun ds => hr.ne rfl ds]
    exact unsigned_breaks hr false []
  | cons c w =>
    by_cases hc : c = '-'
    · rw [hc]
      exact unsigned_breaks hr true w
    · rw [List.cons_append, hother (cons_ne_cons hc _), hother (cons_ne_cons hc _)]
      exact unsigned_breaks hr false (c :: w)

theorem numeral_suffix {n : Numeral} {cs rest : List Char} (h : numeral cs = some (n, rest)) :
    ∃ body, cs = body ++ rest :=
  let ⟨body, hcs, _⟩ := numeral_written h
  ⟨body, hcs⟩

/-- A text begins with plain characters in one way only. -/
theorem append_breaks_inj {v w rest' : List Char} (hv : ∀ c ∈ v, isPlain c = true)
    (hw : ∀ c ∈ w, isPlain c = true) (hr : Breaks rest) (hr' : Breaks rest')
    (h : v ++ rest = w ++ rest') : v = w ∧ rest = rest' := by
  have htake := congrArg (List.takeWhile isPlain) h
  rw [takeWhile_append_stop hr, takeWhile_append_stop hr', List.takeWhile_eq_self_iff.mpr hv,
    List.takeWhile_eq_self_iff.mpr hw] at htake
  rw [htake] at h
  exact ⟨htake, List.append_cancel_left h⟩

/-- A numeral takes a whole token or does not end where one ends. -/
theorem numeral_append_eq_some_iff {w rest' : List Char} {n : Numeral}
    (hw : ∀ c ∈ w, isPlain c = true) (hr : Breaks rest) :
    numeral (w ++ rest) = some (n, rest') ∧ Breaks rest' ↔
      numeral w = some (n, []) ∧ rest' = rest := by
  rw [numeral_breaks hr]
  constructor
  · rintro ⟨h, hr'⟩
    obtain ⟨⟨n, left⟩, hread, he⟩ := Option.map_eq_some_iff.mp h
    cases he
    obtain ⟨body, rfl⟩ := numeral_suffix hread
    cases left with
    | nil => exact ⟨hread, rfl⟩
    | cons c left =>
      have hc : isPlain c = true := hw c (by simp)
      exact absurd hc (by simp [hr' c rfl])
  · rintro ⟨h, rfl⟩
    rw [h]
    exact ⟨rfl, hr⟩

theorem word_eq_some_iff {w cs : List Char} : word w cs = some rest ↔ cs = w ++ rest := by
  rw [word]
  split
  · next h =>
    obtain ⟨tail, rfl⟩ := List.isPrefixOf_iff_prefix.mp h
    rw [List.drop_left, Option.some.injEq, List.append_cancel_left_eq]
  · next h =>
    refine iff_of_false (by simp) ?_
    rintro rfl
    exact h (List.isPrefixOf_iff_prefix.mpr (List.prefix_append w rest))

theorem wordOf?_plain {c : Char} {w : List Char} {j : Json} (h : wordOf? c = some (w, j)) :
    ∀ d ∈ w, isPlain d = true := by
  unfold wordOf? at h
  split at h
  · cases h; exact List.all_eq_true.mp rfl
  · cases h; exact List.all_eq_true.mp rfl
  · cases h; exact List.all_eq_true.mp rfl
  · cases h

theorem value_plain {cs cs' : List Char} {c : Char} (h : skipSpace cs = c :: cs')
    (hc : isPlain c = true) (fuel : Nat) :
    value (fuel + 1) cs =
      match wordOf? c with
      | some (w, j) => (word w cs').map (j, ·)
      | none => (numeral (c :: cs')).map fun r => (.number r.1, r.2) := by
  rw [value, h]
  split
  · next he => cases he; cases hc
  · next he => cases he; cases hc
  · next he => cases he; cases hc
  · next he => cases he; rfl
  · next he => cases he; rfl
  · next he => cases he; rfl
  · next hn ht hf =>
    have hno : wordOf? c = none := by
      unfold wordOf?
      split
      · exact absurd rfl (hn cs')
      · exact absurd rfl (ht cs')
      · exact absurd rfl (hf cs')
      · rfl
    rw [hno]

theorem scalar?_number_iff {c : Char} {cs : List Char} {j : Json} (hc : wordOf? c = none) :
    (Token.plain (c :: cs)).scalar? = some j ↔
      ∃ n, j = .number n ∧ numeral (c :: cs) = some (n, []) := by
  simp only [Token.scalar?, hc]
  split
  · next n hn =>
    rw [hn, Option.some.injEq]
    constructor
    · rintro rfl
      exact ⟨n, rfl, rfl⟩
    · rintro ⟨n', rfl, he⟩
      cases he
      rfl
  · next hno =>
    refine iff_of_false (by simp) ?_
    rintro ⟨n, -, hn⟩
    exact hno n hn

/-- A word or a number is read from its token, and only if it is the whole of it. -/
theorem value_plain_eq_some_iff {cs w rest' : List Char} {j : Json} (h : skipSpace cs = w ++ rest)
    (hne : w ≠ []) (hw : ∀ c ∈ w, isPlain c = true) (hr : Breaks rest) (fuel : Nat) :
    value (fuel + 1) cs = some (j, rest') ∧ Breaks rest' ↔
      (Token.plain w).scalar? = some j ∧ rest' = rest := by
  obtain ⟨c, w, rfl⟩ := List.exists_cons_of_ne_nil hne
  obtain ⟨hc, hword⟩ := List.forall_mem_cons.mp hw
  rw [value_plain h hc]
  cases hletter : wordOf? c with
  | none =>
    have hnumeral {n : Numeral} :
        numeral (c :: (w ++ rest)) = some (n, rest') ∧ Breaks rest' ↔
          numeral (c :: w) = some (n, []) ∧ rest' = rest :=
      numeral_append_eq_some_iff hw hr
    simp only [scalar?_number_iff hletter, Option.map_eq_some_iff, Prod.mk.injEq]
    constructor
    · rintro ⟨⟨⟨n, _⟩, hread, rfl, rfl⟩, hr'⟩
      obtain ⟨hwhole, hrest⟩ := hnumeral.mp ⟨hread, hr'⟩
      exact ⟨⟨n, rfl, hwhole⟩, hrest⟩
    · rintro ⟨⟨n, rfl, hread⟩, rfl⟩
      obtain ⟨hread, hr'⟩ := hnumeral.mpr ⟨hread, rfl⟩
      exact ⟨⟨(n, _), hread, rfl, rfl⟩, hr'⟩
  | some p =>
    obtain ⟨v, k⟩ := p
    simp only [Token.scalar?, hletter, Option.map_eq_some_iff, Prod.mk.injEq, word_eq_some_iff]
    constructor
    · rintro ⟨⟨_, hcs, rfl, rfl⟩, hr'⟩
      obtain ⟨rfl, rfl⟩ := append_breaks_inj hword (wordOf?_plain hletter) hr hr' hcs
      exact ⟨if_pos rfl, rfl⟩
    · rintro ⟨hj, rfl⟩
      split at hj
      · next hv =>
        cases hj
        exact ⟨⟨_, hv ▸ rfl, rfl, rfl⟩, hr⟩
      · cases hj

/-- Only the token of a string is a string. -/
theorem scalar?_string {t : Token} {k : Option String} (h : t.scalar? = some (.string k)) :
    ∃ body, t = .quoted body ∧ stringBody body = some (k, []) := by
  cases t with
  | punctuation c => cases h
  | quoted body =>
    obtain ⟨k, he, hbody⟩ := scalar?_quoted_eq_some_iff.mp h
    cases he
    exact ⟨body, rfl, hbody⟩
  | plain w =>
    cases w with
    | nil => cases h
    | cons c cs =>
      cases hletter : wordOf? c with
      | none =>
        obtain ⟨n, hn, -⟩ := (scalar?_number_iff hletter).mp h
        cases hn
      | some p =>
        obtain ⟨w, j⟩ := p
        simp only [Token.scalar?, hletter, Option.ite_none_right_eq_some] at h
        obtain ⟨-, he⟩ := h
        cases he
        unfold wordOf? at hletter
        split at hletter <;> cases hletter

end

end CellReplay.Json
