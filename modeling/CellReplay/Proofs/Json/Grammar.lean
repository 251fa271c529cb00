import CellReplay.Proofs.Json.Scalars

/-!
# Proofs.Json.Grammar

JSON as a grammar over tokens, and the reader against it.

* `Spells`              — the tokens in front that spell a value, and those that are left.
* `spells_of_read`      — what is read is spelled.
* `Spells.read`         — what is spelled is read, with fuel for the characters of a whole text.
* `parse_eq_some_iff`   — the value of a text is the one that its tokens spell.
-/

namespace CellReplay.Json

/-- What tokens stand for: a value, or the inside of an array or an object up to its end. -/
inductive Phrase
  | value (j : Json)
  | items (js : List Json)
  | members (ms : List (Option String × Json))

/-- The first tokens spell a phrase, and the last list of tokens is left. -/
inductive Spells : List Token → Phrase → List Token → Prop
  | scalar {t : Token} {j : Json} {rest : List Token} :
      t.scalar? = some j → Spells (t :: rest) (.value j) rest
  | noItems {rest : List Token} :
      Spells (.punctuation '[' :: .punctuation ']' :: rest) (.value (.array [])) rest
  | array {ts rest : List Token} {js : List Json} :
      Spells ts (.items js) rest → Spells (.punctuation '[' :: ts) (.value (.array js)) rest
  | noMembers {rest : List Token} :
      Spells (.punctuation '\x7b' :: .punctuation '\x7d' :: rest) (.value (.object [])) rest
  | object {ts rest : List Token} {ms : List (Option String × Json)} :
      Spells ts (.members ms) rest → Spells (.punctuation '\x7b' :: ts) (.value (.object ms)) rest
  | lastItem {ts rest : List Token} {j : Json} :
      Spells ts (.value j) (.punctuation ']' :: rest) → Spells ts (.items [j]) rest
  | item {ts us rest : List Token} {j : Json} {js : List Json} :
      Spells ts (.value j) (.punctuation ',' :: us) → Spells us (.items js) rest →
      Spells ts (.items (j :: js)) rest
  | lastMember {name : Token} {k : Option String} {ts rest : List Token} {j : Json} :
      name.scalar? = some (.string k) → Spells ts (.value j) (.punctuation '\x7d' :: rest) →
      Spells (name :: .punctuation ':' :: ts) (.members [(k, j)]) rest
  | member {name : Token} {k : Option String} {ts us rest : List Token} {j : Json}
      {ms : List (Option String × Json)} :
      name.scalar? = some (.string k) → Spells ts (.value j) (.punctuation ',' :: us) →
      Spells us (.members ms) rest →
      Spells (name :: .punctuation ':' :: ts) (.members ((k, j) :: ms)) rest

/-- The reader of a phrase takes the characters in front of the rest. -/
def Phrase.Read (fuel : Nat) (cs rest : List Char) : Phrase → Prop
  | .value j => Json.value fuel cs = some (j, rest)
  | .items js => Json.items fuel cs = some (js, rest)
  | .members ms => Json.members fuel cs = some (ms, rest)

/-! ## Brackets -/

section

variable {cs tail rest : List Char}

theorem value_array_nil (h : skipSpace cs = '[' :: tail) (hclose : skipSpace tail = ']' :: rest)
    (fuel : Nat) : value (fuel + 1) cs = some (.array [], rest) := by
  rw [value, h]
  simp only [hclose]

theorem value_array (h : skipSpace cs = '[' :: tail) (hopen : ∀ rest, skipSpace tail ≠ ']' :: rest)
    (fuel : Nat) :
    value (fuel + 1) cs = (items fuel (skipSpace tail)).map fun r => (.array r.1, r.2) := by
  rw [value, h]
  simp only

theorem value_object_nil (h : skipSpace cs = '\x7b' :: tail)
    (hclose : skipSpace tail = '\x7d' :: rest) (fuel : Nat) :
    value (fuel + 1) cs = some (.object [], rest) := by
  rw [value, h]
  simp only [hclose]

theorem value_object (h : skipSpace cs = '\x7b' :: tail)
    (hopen : ∀ rest, skipSpace tail ≠ '\x7d' :: rest) (fuel : Nat) :
    value (fuel + 1) cs = (members fuel (skipSpace tail)).map fun r => (.object r.1, r.2) := by
  rw [value, h]
  simp only

end

/-! ## What is read is spelled -/

section

variable {fuel : Nat} {c : Char} {cs rest : List Char}

theorem tokens_of_skipSpace (h : skipSpace cs = c :: rest) (hc : isPunctuation c = true) :
    tokens cs = .punctuation c :: tokens rest := by
  rw [← tokens_skipSpace, h, tokens_punctuation hc]

theorem breaks_of_skipSpace (h : Breaks (skipSpace cs)) : Breaks cs := by
  cases cs with
  | nil => exact breaks_nil
  | cons c cs =>
    intro d hd
    cases hd
    cases hspace : isSpace c with
    | true => simp [isPlain, hspace]
    | false =>
      rw [skipSpace_cons hspace] at h
      exact h c rfl

theorem breaks_punctuation (h : skipSpace cs = c :: rest) (hc : isPunctuation c = true) :
    Breaks cs := by
  refine breaks_of_skipSpace ?_
  intro d hd
  rw [h] at hd
  cases hd
  simp [isPlain, hc]

/-- Whatever is read with this fuel, up to where a token ends, is spelled by its tokens. -/
def Sound (fuel : Nat) : Prop :=
  ∀ cs rest ph, ph.Read fuel cs rest → Breaks rest → Spells (tokens cs) ph (tokens rest)

theorem spells_value (ih : Sound fuel) {j : Json} (h : value (fuel + 1) cs = some (j, rest))
    (hr : Breaks rest) : Spells (tokens cs) (.value j) (tokens rest) := by
  rcases tokens_cases cs with ⟨hcs, -⟩ | ⟨c, tail, hcs, hc, hts⟩ | ⟨tail, hcs, hts⟩ |
    ⟨w, tail, hcs, hne, hw, htail, hts⟩
  · rw [value, hcs] at h
    cases h
  · rw [hts]
    have hnone (hno : value (fuel + 1) cs = none) {p : Prop} : p := by
      rw [hno] at h
      cases h
    rcases isPunctuation_cases hc with rfl | rfl | rfl | rfl | rfl | rfl
    · by_cases hclose : ∃ rest, skipSpace tail = ']' :: rest
      · obtain ⟨rest, hclose⟩ := hclose
        rw [value_array_nil hcs hclose] at h
        cases h
        rw [tokens_of_skipSpace hclose rfl]
        exact .noItems
      · rw [value_array hcs (not_exists.mp hclose)] at h
        obtain ⟨⟨js, _⟩, hread, he⟩ := Option.map_eq_some_iff.mp h
        cases he
        have hitems := ih _ _ (.items js) hread hr
        rw [tokens_skipSpace] at hitems
        exact .array hitems
    · exact hnone (by rw [value, hcs]; rfl)
    · by_cases hclose : ∃ rest, skipSpace tail = '\x7d' :: rest
      · obtain ⟨rest, hclose⟩ := hclose
        rw [value_object_nil hcs hclose] at h
        cases h
        rw [tokens_of_skipSpace hclose rfl]
        exact .noMembers
      · rw [value_object hcs (not_exists.mp hclose)] at h
        obtain ⟨⟨ms, _⟩, hread, he⟩ := Option.map_eq_some_iff.mp h
        cases he
        have hmembers := ih _ _ (.members ms) hread hr
        rw [tokens_skipSpace] at hmembers
        exact .object hmembers
    · exact hnone (by rw [value, hcs]; rfl)
    · exact hnone (by rw [value, hcs]; rfl)
    · exact hnone (by rw [value, hcs]; rfl)
  · rw [value, hcs] at h
    obtain ⟨⟨t, _⟩, hread, he⟩ := Option.map_eq_some_iff.mp h
    cases he
    obtain ⟨hbody, rfl⟩ := stringBody_eq_some_iff.mp hread
    rw [hts]
    exact .scalar (scalar?_quoted_eq_some_iff.mpr ⟨t, rfl, hbody⟩)
  · obtain ⟨hj, rfl⟩ := (value_plain_eq_some_iff hcs hne hw htail fuel).mp ⟨h, hr⟩
    rw [hts]
    exact .scalar hj

theorem spells_items (ih : Sound fuel) {js : List Json} (h : items (fuel + 1) cs = some (js, rest))
    (hr : Breaks rest) : Spells (tokens cs) (.items js) (tokens rest) := by
  rw [items] at h
  simp only [Option.bind_eq_bind, Option.bind_eq_some_iff, Option.pure_def] at h
  obtain ⟨⟨j, after⟩, hvalue, h⟩ := h
  split at h
  · next us hcomma =>
    simp only [Option.bind_eq_some_iff] at h
    obtain ⟨⟨js, _⟩, hitems, he⟩ := h
    cases he
    have hj := ih _ _ (.value j) hvalue (breaks_punctuation hcomma rfl)
    rw [tokens_of_skipSpace hcomma rfl] at hj
    exact .item hj (ih _ _ (.items js) hitems hr)
  · next hclose =>
    cases h
    have hj := ih _ _ (.value j) hvalue (breaks_punctuation hclose rfl)
    rw [tokens_of_skipSpace hclose rfl] at hj
    exact .lastItem hj
  · cases h

theorem spells_members (ih : Sound fuel) {ms : List (Option String × Json)}
    (h : members (fuel + 1) cs = some (ms, rest)) (hr : Breaks rest) :
    Spells (tokens cs) (.members ms) (tokens rest) := by
  rw [members] at h
  split at h
  · next tail hquote =>
    simp only [Option.bind_eq_bind, Option.bind_eq_some_iff, Option.pure_def] at h
    obtain ⟨⟨k, behind⟩, hname, h⟩ := h
    obtain ⟨hbody, rfl⟩ := stringBody_eq_some_iff.mp hname
    have hk : (Token.quoted (quoted tail).1).scalar? = some (.string k) :=
      scalar?_quoted_eq_some_iff.mpr ⟨k, rfl, hbody⟩
    rw [← tokens_skipSpace, hquote, tokens_quote]
    split at h
    · next hcolon =>
      rw [tokens_of_skipSpace hcolon rfl]
      simp only [Option.bind_eq_some_iff] at h
      obtain ⟨⟨j, after⟩, hvalue, h⟩ := h
      split at h
      · next hcomma =>
        simp only [Option.bind_eq_some_iff] at h
        obtain ⟨⟨ms, _⟩, hmembers, he⟩ := h
        cases he
        have hj := ih _ _ (.value j) hvalue (breaks_punctuation hcomma rfl)
        rw [tokens_of_skipSpace hcomma rfl] at hj
        exact .member hk hj (ih _ _ (.members ms) hmembers hr)
      · next hclose =>
        cases h
        have hj := ih _ _ (.value j) hvalue (breaks_punctuation hclose rfl)
        rw [tokens_of_skipSpace hclose rfl] at hj
        exact .lastMember hk hj
      · cases h
    · cases h
  · cases h

theorem spells_of_read (fuel : Nat) : Sound fuel := by
  induction fuel with
  | zero =>
    intro cs rest ph h
    cases ph <;> cases h
  | succ fuel ih =>
    intro cs rest ph h hr
    cases ph with
    | value j => exact spells_value ih h hr
    | items js => exact spells_items ih h hr
    | members ms => exact spells_members ih h hr

end

/-! ## What is spelled is read -/

/-- The fuel that a reader takes beside two for each character. -/
def Phrase.steps : Phrase → Nat
  | .value _ => 1
  | .items _ => 2
  | .members _ => 2

/-- A phrase is read from the characters, with fuel enough for them, and tokens are left. -/
def Readable (ph : Phrase) (cs : List Char) (us : List Token) : Prop :=
  ∃ rest, tokens rest = us ∧ rest.length < cs.length ∧
    ∀ fuel, 2 * cs.length + ph.steps ≤ fuel → ph.Read fuel cs rest

section

variable {cs : List Char} {ts us : List Token}

theorem length_skipSpace_le (cs : List Char) : (skipSpace cs).length ≤ cs.length :=
  (List.dropWhile_sublist _).length_le

theorem length_lt_of_skipSpace {c : Char} {rest : List Char} (h : skipSpace cs = c :: rest) :
    rest.length < cs.length := by
  have hle := length_skipSpace_le cs
  rw [h, List.length_cons] at hle
  omega

theorem readable_scalar {t : Token} {j : Json} (h : t.scalar? = some j) (hcs : tokens cs = t :: us) :
    Readable (.value j) cs us := by
  have hfuel {rest : List Char} (hread : ∀ fuel, value (fuel + 1) cs = some (j, rest)) (fuel : Nat)
      (hf : 2 * cs.length + 1 ≤ fuel) : value fuel cs = some (j, rest) := by
    obtain ⟨fuel, rfl⟩ : ∃ f, fuel = f + 1 := ⟨fuel - 1, by omega⟩
    exact hread fuel
  cases t with
  | punctuation c => cases h
  | quoted body =>
    obtain ⟨t, rfl, hbody⟩ := scalar?_quoted_eq_some_iff.mp h
    obtain ⟨tail, hskip, rfl, hus⟩ := tokens_eq_quoted hcs
    have hlength := length_lt_of_skipSpace hskip
    have hle := length_quoted_le tail
    have hstring := stringBody_eq_some_iff.mpr ⟨hbody, rfl⟩
    refine ⟨(quoted tail).2, hus, by omega, hfuel fun fuel => ?_⟩
    rw [value, hskip]
    simp only [hstring, Option.map_some]
  | plain w =>
    obtain ⟨rest, hskip, hne, hw, hr, hus⟩ := tokens_eq_plain hcs
    have hle := length_skipSpace_le cs
    have hpos := List.length_pos_iff.mpr hne
    rw [hskip, List.length_append] at hle
    exact ⟨rest, hus, by omega, hfuel fun fuel =>
      ((value_plain_eq_some_iff hskip hne hw hr fuel).mpr ⟨h, rfl⟩).1⟩

/-- No phrase begins with what closes one. -/
theorem Spells.head {ph : Phrase} {c : Char} {tail : List Token} (h : Spells ts ph us)
    (hts : ts = .punctuation c :: tail) : c = '[' ∨ c = '\x7b' := by
  induction h with
  | scalar ht => cases hts; cases ht
  | noItems | array => cases hts; exact .inl rfl
  | noMembers | object => cases hts; exact .inr rfl
  | lastItem _ ih => exact ih hts
  | item _ _ ih => exact ih hts
  | lastMember hname => cases hts; cases hname
  | member hname => cases hts; cases hname

/-- An array or an object with nothing between its brackets. -/
theorem readable_empty {opening closing : Char} {j : Json}
    (hvalue : ∀ tail rest, skipSpace cs = opening :: tail → skipSpace tail = closing :: rest →
      ∀ fuel, value (fuel + 1) cs = some (j, rest))
    (hcs : tokens cs = .punctuation opening :: .punctuation closing :: us) :
    Readable (.value j) cs us := by
  obtain ⟨tail, hopen, -, htail⟩ := tokens_eq_punctuation hcs
  obtain ⟨rest, hclose, -, hus⟩ := tokens_eq_punctuation htail
  have hlength := length_lt_of_skipSpace hopen
  have hlength' := length_lt_of_skipSpace hclose
  refine ⟨rest, hus, by omega, fun fuel hf => ?_⟩
  rw [Phrase.steps] at hf
  obtain ⟨fuel, rfl⟩ : ∃ f, fuel = f + 1 := ⟨fuel - 1, by omega⟩
  exact hvalue tail rest hopen hclose fuel

/-- An array or an object with a phrase between its brackets. -/
theorem readable_full (closing : Char) {opening : Char} {ph : Phrase} {j : Json}
    (hclosing : isPunctuation closing = true) (hnot : ¬ (closing = '[' ∨ closing = '\x7b'))
    (hsteps : ph.steps = 2)
    (hvalue : ∀ tail, skipSpace cs = opening :: tail →
      (∀ rest, skipSpace tail ≠ closing :: rest) →
      ∀ fuel rest, ph.Read fuel (skipSpace tail) rest → value (fuel + 1) cs = some (j, rest))
    (hts : Spells ts ph us) (ih : ∀ cs, tokens cs = ts → Readable ph cs us)
    (hcs : tokens cs = .punctuation opening :: ts) : Readable (.value j) cs us := by
  obtain ⟨tail, hopen, -, htail⟩ := tokens_eq_punctuation hcs
  have hinside : ∀ rest, skipSpace tail ≠ closing :: rest := by
    intro rest hclose
    rw [tokens_of_skipSpace hclose hclosing] at htail
    exact hnot (hts.head htail.symm)
  obtain ⟨rest, hus, hlt, hread⟩ := ih (skipSpace tail) (by rw [tokens_skipSpace, htail])
  have hlength := length_lt_of_skipSpace hopen
  have hle := length_skipSpace_le tail
  refine ⟨rest, hus, by omega, fun fuel hf => ?_⟩
  rw [Phrase.steps] at hf
  rw [hsteps] at hread
  obtain ⟨fuel, rfl⟩ : ∃ f, fuel = f + 1 := ⟨fuel - 1, by omega⟩
  exact hvalue tail hopen hinside fuel rest (hread fuel (by omega))

theorem readable_array {js : List Json} (hts : Spells ts (.items js) us)
    (ih : ∀ cs, tokens cs = ts → Readable (.items js) cs us)
    (hcs : tokens cs = .punctuation '[' :: ts) : Readable (.value (.array js)) cs us := by
  refine readable_full ']' rfl (by decide) rfl (fun tail h hopen fuel rest hitems => ?_) hts ih hcs
  rw [value_array h hopen]
  exact congrArg (Option.map _) hitems

theorem readable_object {ms : List (Option String × Json)} (hts : Spells ts (.members ms) us)
    (ih : ∀ cs, tokens cs = ts → Readable (.members ms) cs us)
    (hcs : tokens cs = .punctuation '\x7b' :: ts) : Readable (.value (.object ms)) cs us := by
  refine readable_full '\x7d' rfl (by decide) rfl (fun tail h hopen fuel rest hmembers => ?_)
    hts ih hcs
  rw [value_object h hopen]
  exact congrArg (Option.map _) hmembers

/-- A value that is read up to a punctuation mark. -/
theorem Readable.upTo {j : Json} {c : Char}
    (h : Readable (.value j) cs (.punctuation c :: us)) :
    ∃ after rest, skipSpace after = c :: rest ∧ tokens rest = us ∧ rest.length < cs.length ∧
      ∀ fuel, 2 * cs.length + 1 ≤ fuel → value fuel cs = some (j, after) := by
  obtain ⟨after, hafter, hlt, hread⟩ := h
  obtain ⟨rest, hskip, -, hus⟩ := tokens_eq_punctuation hafter
  have hlength := length_lt_of_skipSpace hskip
  exact ⟨after, rest, hskip, hus, by omega, hread⟩

theorem readable_lastItem {j : Json} (h : Readable (.value j) cs (.punctuation ']' :: us)) :
    Readable (.items [j]) cs us := by
  obtain ⟨after, rest, hskip, hus, hlt, hread⟩ := h.upTo
  refine ⟨rest, hus, hlt, fun fuel hf => ?_⟩
  rw [Phrase.steps] at hf
  obtain ⟨fuel, rfl⟩ : ∃ f, fuel = f + 1 := ⟨fuel - 1, by omega⟩
  rw [Phrase.Read, items, hread fuel (by omega)]
  simp only [Option.bind_eq_bind, Option.bind_some, hskip]
  rfl

theorem readable_item {j : Json} {js : List Json} {vs : List Token}
    (h : Readable (.value j) cs (.punctuation ',' :: vs))
    (ih : ∀ cs, tokens cs = vs → Readable (.items js) cs us) :
    Readable (.items (j :: js)) cs us := by
  obtain ⟨after, tail, hskip, htail, hlt, hread⟩ := h.upTo
  obtain ⟨rest, hus, hlt', hreadTail⟩ := ih tail htail
  refine ⟨rest, hus, by omega, fun fuel hf => ?_⟩
  rw [Phrase.steps] at hf hreadTail
  obtain ⟨fuel, rfl⟩ : ∃ f, fuel = f + 1 := ⟨fuel - 1, by omega⟩
  have hitems : items fuel tail = some (js, rest) := hreadTail fuel (by omega)
  rw [Phrase.Read, items, hread fuel (by omega)]
  simp only [Option.bind_eq_bind, Option.bind_some, hskip, hitems]
  rfl

/-- The name of a member is a string, and its value comes behind a colon. -/
theorem name_readable {name : Token} {k : Option String} (hname : name.scalar? = some (.string k))
    (hcs : tokens cs = name :: .punctuation ':' :: ts) :
    ∃ tail behind inside, skipSpace cs = '"' :: tail ∧ stringBody tail = some (k, behind) ∧
      skipSpace behind = ':' :: inside ∧ tokens inside = ts ∧ inside.length + 1 < cs.length := by
  obtain ⟨body, rfl, hbody⟩ := scalar?_string hname
  obtain ⟨tail, hskip, rfl, hbehind⟩ := tokens_eq_quoted hcs
  obtain ⟨inside, hcolon, -, hts⟩ := tokens_eq_punctuation hbehind
  have hlength := length_lt_of_skipSpace hskip
  have hlength' := length_lt_of_skipSpace hcolon
  have hle := length_quoted_le tail
  exact ⟨tail, _, inside, hskip, stringBody_eq_some_iff.mpr ⟨hbody, rfl⟩, hcolon, hts, by omega⟩

theorem readable_lastMember {name : Token} {k : Option String} {j : Json}
    (hname : name.scalar? = some (.string k))
    (hcs : tokens cs = name :: .punctuation ':' :: ts)
    (h : ∀ cs, tokens cs = ts → Readable (.value j) cs (.punctuation '\x7d' :: us)) :
    Readable (.members [(k, j)]) cs us := by
  obtain ⟨tail, behind, inside, hquote, hstring, hcolon, hts, hlength⟩ := name_readable hname hcs
  obtain ⟨after, rest, hskip, hus, hlt, hread⟩ := (h inside hts).upTo
  refine ⟨rest, hus, by omega, fun fuel hf => ?_⟩
  rw [Phrase.steps] at hf
  obtain ⟨fuel, rfl⟩ : ∃ f, fuel = f + 1 := ⟨fuel - 1, by omega⟩
  rw [Phrase.Read, members, hquote]
  simp only [hstring, hcolon, hread fuel (by omega), hskip, Option.bind_eq_bind, Option.bind_some]
  rfl

theorem readable_member {name : Token} {k : Option String} {j : Json}
    {ms : List (Option String × Json)} {vs : List Token}
    (hname : name.scalar? = some (.string k))
    (hcs : tokens cs = name :: .punctuation ':' :: ts)
    (h : ∀ cs, tokens cs = ts → Readable (.value j) cs (.punctuation ',' :: vs))
    (ih : ∀ cs, tokens cs = vs → Readable (.members ms) cs us) :
    Readable (.members ((k, j) :: ms)) cs us := by
  obtain ⟨tail, behind, inside, hquote, hstring, hcolon, hts, hlength⟩ := name_readable hname hcs
  obtain ⟨after, others, hskip, hothers, hlt, hread⟩ := (h inside hts).upTo
  obtain ⟨rest, hus, hlt', hreadOthers⟩ := ih others hothers
  refine ⟨rest, hus, by omega, fun fuel hf => ?_⟩
  rw [Phrase.steps] at hf hreadOthers
  obtain ⟨fuel, rfl⟩ : ∃ f, fuel = f + 1 := ⟨fuel - 1, by omega⟩
  have hmembers : members fuel others = some (ms, rest) := hreadOthers fuel (by omega)
  rw [Phrase.Read, members, hquote]
  simp only [hstring, hcolon, hread fuel (by omega), hskip, hmembers, Option.bind_eq_bind,
    Option.bind_some]
  rfl

/-- Whatever text has the tokens of a phrase, the phrase is read from it. -/
theorem Spells.read {ph : Phrase} (h : Spells ts ph us) :
    ∀ cs, tokens cs = ts → Readable ph cs us := by
  induction h with
  | scalar ht => exact fun cs hcs => readable_scalar ht hcs
  | noItems => exact fun cs hcs => readable_empty (fun _ _ => value_array_nil) hcs
  | array hts ih => exact fun cs hcs => readable_array hts ih hcs
  | noMembers => exact fun cs hcs => readable_empty (fun _ _ => value_object_nil) hcs
  | object hts ih => exact fun cs hcs => readable_object hts ih hcs
  | lastItem _ ih => exact fun cs hcs => readable_lastItem (ih cs hcs)
  | item _ _ ih ihs => exact fun cs hcs => readable_item (ih cs hcs) ihs
  | lastMember hname _ ih => exact fun cs hcs => readable_lastMember hname hcs ih
  | member hname _ _ ih ihs => exact fun cs hcs => readable_member hname hcs ih ihs

end

/-- The value of a text is the one that its tokens spell. -/
theorem parse_eq_some_iff {text : String} {j : Json} :
    parse text = some j ↔ Spells (tokens text.toList) (.value j) [] := by
  rw [parse]
  constructor
  · intro h
    split at h
    · next j rest hread =>
      split at h
      · next hrest =>
        cases h
        have hbreaks : Breaks rest := breaks_of_skipSpace (by rw [hrest]; exact breaks_nil)
        have hspells := spells_of_read _ _ _ (.value j) hread hbreaks
        rwa [tokens_eq_nil_iff.mpr hrest] at hspells
      · cases h
    · cases h
  · intro h
    obtain ⟨rest, hrest, -, hread⟩ := h.read text.toList rfl
    have hvalue : value (2 * text.toList.length + 1) text.toList = some (j, rest) :=
      hread _ (Nat.le_refl _)
    simp only [hvalue]
    exact if_pos (tokens_eq_nil_iff.mp hrest)

/-- Only the tokens of a text tell its value. -/
theorem parse_congr {text text' : String} (h : tokens text.toList = tokens text'.toList) :
    parse text = parse text' := by
  refine Option.ext fun j => ?_
  rw [parse_eq_some_iff, parse_eq_some_iff, h]

end CellReplay.Json
