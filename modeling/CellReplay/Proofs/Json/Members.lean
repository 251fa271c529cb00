import CellReplay.Proofs.Json.Grammar
import CellReplay.Proofs.Text.Joining

/-!
# Proofs.Json.Members

Texts of objects, put together from the texts of their members.

* `tokens_append`, `tokens_insert` — texts put together where a token ends, with or without space.
* `tokens_append_mark` — a text with a punctuation mark behind it.
* `Member`             — texts that a name and a value are read from.
* `objectText`         — members between braces, with commas between them.
* `parse_objectText`   — the object of these members is read from it.
* `print_ofMembers`    — an object is printed so.
-/

namespace CellReplay.Json

open Text

/-! ## Tokens of texts put together -/

theorem Spells.append {ts us : List Token} {ph : Phrase} (h : Spells ts ph us)
    (more : List Token) : Spells (ts ++ more) ph (us ++ more) := by
  induction h with
  | scalar ht => exact .scalar ht
  | noItems => exact .noItems
  | array _ ih => exact .array ih
  | noMembers => exact .noMembers
  | object _ ih => exact .object ih
  | lastItem _ ih => exact .lastItem ih
  | item _ _ ih ihs => exact .item ih ihs
  | lastMember hname _ ih => exact .lastMember hname ih
  | member hname _ _ ih ihs => exact .member hname ih ihs

/-- A string that is closed, whatever it spells. -/
def Token.IsClosed (t : Token) : Prop :=
  ∀ body, t = .quoted body → ∃ s, stringBody body = some (s, [])

theorem isClosed_punctuation (c : Char) : (Token.punctuation c).IsClosed := nofun

theorem isClosed_of_scalar? {t : Token} {j : Json} (h : t.scalar? = some j) : t.IsClosed := by
  rintro body rfl
  obtain ⟨s, -, hs⟩ := scalar?_quoted_eq_some_iff.mp h
  exact ⟨s, hs⟩

/-- In what spells a phrase every string is closed. -/
theorem Spells.isClosed {ts us : List Token} {ph : Phrase} (h : Spells ts ph us)
    (hus : ∀ t ∈ us, t.IsClosed) : ∀ t ∈ ts, t.IsClosed := by
  have hmark {c : Char} {ts : List Token} (h : ∀ t ∈ ts, t.IsClosed) :
      ∀ t ∈ Token.punctuation c :: ts, t.IsClosed :=
    List.forall_mem_cons.mpr ⟨isClosed_punctuation c, h⟩
  induction h with
  | scalar ht => exact List.forall_mem_cons.mpr ⟨isClosed_of_scalar? ht, hus⟩
  | noItems | noMembers => exact hmark (hmark hus)
  | array _ ih | object _ ih => exact hmark (ih hus)
  | lastItem _ ih => exact ih (hmark hus)
  | item _ _ ih ihs => exact ih (hmark (ihs hus))
  | lastMember hname _ ih =>
    exact List.forall_mem_cons.mpr ⟨isClosed_of_scalar? hname, hmark (ih (hmark hus))⟩
  | member hname _ _ ih ihs =>
    exact List.forall_mem_cons.mpr ⟨isClosed_of_scalar? hname, hmark (ih (hmark (ihs hus)))⟩

section

variable {cs rest : List Char}

theorem quoted_append_closed {s : Option String} (h : stringBody (quoted cs).1 = some (s, []))
    (rest : List Char) : quoted (cs ++ rest) = ((quoted cs).1, (quoted cs).2 ++ rest) := by
  have hread := stringBody_eq_some_iff.mpr ⟨h, rfl⟩
  obtain ⟨⟨ps, _⟩, hpieces, he⟩ := Option.map_eq_some_iff.mp hread
  cases he
  obtain ⟨body, hcs, hbody⟩ := pieces_read hpieces
  have hfirst : (quoted cs).1 = body := by
    have hquoted := (hbody (quoted cs).2).1
    rw [← hcs] at hquoted
    rw [hquoted]
  have hwhole := (hbody ((quoted cs).2 ++ rest)).1
  rw [← List.append_assoc, ← hcs] at hwhole
  rw [hwhole, hfirst]

/-- No plain character reaches over the border of two texts. -/
def Borders (cs rest : List Char) : Prop :=
  Breaks rest ∨ ∀ c ∈ cs.getLast?, isPlain c = false

theorem Borders.suffix (before : List Char) (h : Borders (before ++ cs) rest) :
    Borders cs rest :=
  h.imp_right fun hlast c hc => hlast c (by simp [Option.mem_def.mp hc])

/-- A word or a number ends at a border. -/
theorem Borders.span {c : Char} (h : Borders (c :: cs) rest) (hc : isPlain c = true) :
    (cs ++ rest).takeWhile isPlain = cs.takeWhile isPlain ∧
      (cs ++ rest).dropWhile isPlain = cs.dropWhile isPlain ++ rest := by
  rcases h with hr | hlast
  · exact ⟨takeWhile_append_stop hr cs, dropWhile_append_stop hr cs⟩
  · have hstop : cs.dropWhile isPlain ≠ [] := by
      intro hnil
      have hall : ∀ d ∈ c :: cs, isPlain d = true :=
        List.forall_mem_cons.mpr ⟨hc, List.dropWhile_eq_nil_iff.mp hnil⟩
      have hplain := hall _ (List.getLast_mem (List.cons_ne_nil c cs))
      exact absurd hplain (by simp [hlast _ (List.getLast?_eq_some_getLast _)])
    exact ⟨takeWhile_append_inside hstop rest, dropWhile_append_inside hstop rest⟩

/-- One token ends where the second text begins, and no string is open there. -/
structure Apart (cs rest : List Char) : Prop where
  closed : ∀ t ∈ tokens cs, t.IsClosed
  borders : Borders cs rest

theorem tokens_append (h : Apart cs rest) : tokens (cs ++ rest) = tokens cs ++ tokens rest := by
  obtain ⟨hcs, hborder⟩ := h
  fun_induction tokens cs with
  | case1 => rfl
  | case2 c cs hspace ih =>
    have htail : Borders cs rest := .suffix [c] hborder
    rw [List.cons_append, tokens_space hspace, ih hcs htail]
  | case3 c cs _ hmark ih =>
    have htail : Borders cs rest := .suffix [c] hborder
    rw [List.cons_append, tokens_punctuation hmark, ih (List.forall_mem_cons.mp hcs).2 htail,
      List.cons_append]
  | case4 cs _ _ ih =>
    obtain ⟨hclosed, hothers⟩ := List.forall_mem_cons.mp hcs
    obtain ⟨s, hs⟩ := hclosed _ rfl
    have htail : Borders (quoted cs).2 rest := by
      refine .suffix ('"' :: (quoted cs).1) ?_
      rwa [List.cons_append, quoted_append]
    rw [List.cons_append, tokens_quote, quoted_append_closed hs, ih hothers htail,
      List.cons_append]
  | case5 c cs hspace hmark hquote ih =>
    have hc : isPlain c = true :=
      isPlain_iff.mpr ⟨by simpa using hspace, by simpa using hmark, hquote⟩
    have htail : Borders (cs.dropWhile isPlain) rest := by
      refine .suffix (c :: cs.takeWhile isPlain) ?_
      rwa [List.cons_append, List.takeWhile_append_dropWhile]
    obtain ⟨htake, hdrop⟩ := hborder.span hc
    rw [List.cons_append, tokens, if_neg hspace, if_neg hmark, if_neg hquote, htake, hdrop,
      ih (List.forall_mem_cons.mp hcs).2 htail, List.cons_append]

theorem tokens_spaces {s : List Char} (hs : ∀ c ∈ s, isSpace c = true) (rest : List Char) :
    tokens (s ++ rest) = tokens rest := by
  induction s with
  | nil => rfl
  | cons c s ih =>
    obtain ⟨hc, hs⟩ := List.forall_mem_cons.mp hs
    rw [List.cons_append, tokens_space hc, ih hs]

/-- Space between tokens does not matter. -/
theorem tokens_insert (h : Apart cs rest) {s : List Char} (hs : ∀ c ∈ s, isSpace c = true) :
    tokens (cs ++ (s ++ rest)) = tokens (cs ++ rest) := by
  cases s with
  | nil => rfl
  | cons c s =>
    have hbreaks : Breaks (c :: s ++ rest) := by
      intro d hd
      cases hd
      simp [isPlain, (List.forall_mem_cons.mp hs).1]
    rw [tokens_append ⟨h.closed, .inl hbreaks⟩, tokens_spaces hs, tokens_append h]

/-- What is read by itself keeps its tokens in front of a punctuation mark. -/
theorem tokens_append_mark {text : String} {j : Json} {c : Char} (h : parse text = some j)
    (hc : isPunctuation c = true) (rest : List Char) :
    tokens (text.toList ++ c :: rest) = tokens text.toList ++ .punctuation c :: tokens rest := by
  have hclosed := (parse_eq_some_iff.mp h).isClosed (List.forall_mem_nil _)
  have hbreaks := breaks_punctuation (skipSpace_cons (isSpace_isPunctuation hc) rest) hc
  rw [tokens_append ⟨hclosed, .inl hbreaks⟩, tokens_punctuation hc]

/-- A text that is a string has no token but that. -/
theorem tokens_of_parse_string {text : String} {k : Option String}
    (h : parse text = some (.string k)) :
    ∃ t, tokens text.toList = [t] ∧ t.scalar? = some (.string k) := by
  have hspells := parse_eq_some_iff.mp h
  generalize tokens text.toList = ts at hspells
  cases hspells with
  | scalar ht => exact ⟨_, rfl, ht⟩

end

/-! ## Objects -/

/-- A name and a value, each with a text that it is read from. -/
structure Member where
  nameText : String
  valueText : String
  name : String
  value : Json
  parse_name : parse nameText = some (.string (some name))
  parse_value : parse valueText = some value

def Member.text (m : Member) : String := m.nameText ++ ":" ++ m.valueText

def objectText (ms : List Member) : String :=
  "\x7b" ++ join "," (ms.map Member.text) ++ "\x7d"

def objectOf (ms : List Member) : Json := .object (ms.map fun m => (some m.name, m.value))

/-- The characters of members up to the brace that closes the object. -/
def memberChars (ms : List Member) : List Char :=
  (join "," (ms.map Member.text)).toList ++ ['\x7d']

theorem toList_objectText (ms : List Member) :
    (objectText ms).toList = '\x7b' :: memberChars ms := by
  rw [objectText, String.toList_append, String.toList_append]
  rfl

/-- One member in front of a comma or of the brace that closes the object. -/
theorem tokens_member (m : Member) {c : Char} (hc : isPunctuation c = true) (rest : List Char) :
    ∃ k, k.scalar? = some (.string (some m.name)) ∧
      tokens (m.text.toList ++ c :: rest) =
        k :: .punctuation ':' :: (tokens m.valueText.toList ++ .punctuation c :: tokens rest) := by
  obtain ⟨k, hk, hname⟩ := tokens_of_parse_string m.parse_name
  refine ⟨k, hname, ?_⟩
  have htext : m.text.toList ++ c :: rest =
      m.nameText.toList ++ ':' :: (m.valueText.toList ++ c :: rest) := by
    simp [Member.text]
  rw [htext, tokens_append_mark m.parse_name rfl, tokens_append_mark m.parse_value hc, hk]
  rfl

theorem memberChars_singleton (m : Member) : memberChars [m] = m.text.toList ++ ['\x7d'] := rfl

theorem memberChars_cons_cons (m m' : Member) (ms : List Member) :
    memberChars (m :: m' :: ms) = m.text.toList ++ ',' :: memberChars (m' :: ms) := by
  rw [memberChars, List.map_cons, join_cons (by simp), String.toList_append,
    String.toList_append, List.append_assoc, List.append_assoc]
  rfl

theorem spells_memberChars (m : Member) (ms : List Member) :
    Spells (tokens (memberChars (m :: ms)))
      (.members ((m :: ms).map fun m => (some m.name, m.value))) [] := by
  induction ms generalizing m with
  | nil =>
    obtain ⟨k, hname, htokens⟩ := tokens_member m (c := '\x7d') rfl []
    have hvalue := (parse_eq_some_iff.mp m.parse_value).append [.punctuation '\x7d']
    rw [memberChars_singleton, htokens, tokens_nil]
    exact .lastMember hname hvalue
  | cons m' ms ih =>
    obtain ⟨k, hname, htokens⟩ := tokens_member m (c := ',') rfl (memberChars (m' :: ms))
    have hvalue := (parse_eq_some_iff.mp m.parse_value).append
      (.punctuation ',' :: tokens (memberChars (m' :: ms)))
    rw [memberChars_cons_cons, htokens]
    exact .member hname hvalue (ih m')

/-- The object of the members is read from their texts put together. -/
theorem parse_objectText (ms : List Member) : parse (objectText ms) = some (objectOf ms) := by
  rw [parse_eq_some_iff, toList_objectText, tokens_punctuation rfl]
  cases ms with
  | nil =>
    rw [show memberChars [] = ['\x7d'] from rfl, tokens_punctuation rfl, tokens_nil]
    exact .noMembers
  | cons m ms => exact .object (spells_memberChars m ms)

/-! ## Printed objects -/

/-- The texts are the printed name and the printed value. -/
structure Member.IsPrinted (m : Member) : Prop where
  nameText_eq : m.nameText = (ofText m.name).print
  valueText_eq : m.valueText = m.value.print

theorem Member.IsPrinted.toList_text {m : Member} (h : m.IsPrinted) :
    m.text.toList = printString m.name ++ ':' :: m.value.printChars := by
  rw [Member.text, h.nameText_eq, h.valueText_eq, String.toList_append, String.toList_append,
    List.append_assoc]
  simp only [print, String.toList_ofList]
  rfl

theorem exists_printed {l : List (String × Json)} (h : ∀ p ∈ l, p.2.IsProper) :
    ∃ ms : List Member, (∀ m ∈ ms, m.IsPrinted) ∧ ms.map (fun m => (m.name, m.value)) = l := by
  induction l with
  | nil => exact ⟨[], List.forall_mem_nil _, rfl⟩
  | cons p l ih =>
    obtain ⟨hp, hl⟩ := List.forall_mem_cons.mp h
    obtain ⟨ms, hms, rfl⟩ := ih hl
    let m : Member := ⟨_, _, p.1, p.2, parse_print (isProper_ofText p.1), parse_print hp⟩
    exact ⟨m :: ms, List.forall_mem_cons.mpr ⟨⟨rfl, rfl⟩, hms⟩, rfl⟩

theorem memberChars_printed {m : Member} {ms : List Member} (h : ∀ x ∈ m :: ms, x.IsPrinted) :
    memberChars (m :: ms) = printString m.name ++ ':' :: (m.value.printChars ++
      printMembers (ms.map fun m => (some m.name, m.value))) := by
  obtain ⟨hm, hms⟩ := List.forall_mem_cons.mp h
  induction ms generalizing m with
  | nil =>
    rw [memberChars_singleton, hm.toList_text, List.append_assoc]
    rfl
  | cons m' ms ih =>
    obtain ⟨hm', hms'⟩ := List.forall_mem_cons.mp hms
    rw [memberChars_cons_cons, hm.toList_text, ih hms hm' hms']
    simp [printMembers]

/-- An object is printed as the texts of its members put together. -/
theorem print_ofMembers {l : List (String × Json)} (h : ∀ p ∈ l, p.2.IsProper) :
    ∃ ms : List Member, (ofMembers l).print = objectText ms ∧
      ms.map (fun m => (m.name, m.value)) = l := by
  obtain ⟨ms, hms, rfl⟩ := exists_printed h
  refine ⟨ms, String.toList_injective ?_, rfl⟩
  rw [toList_objectText, print, String.toList_ofList, ofMembers, List.map_map]
  cases ms with
  | nil => rfl
  | cons m ms =>
    rw [memberChars_printed hms]
    simp [printChars, Function.comp_def]

end CellReplay.Json
