import CellReplay.Json.Printer
import CellReplay.Proofs.Config.Names
import Mathlib.Algebra.Group.Nat.Defs

/-!
# Proofs.Toml.Printing

Lines that are written are read back: headers, and texts under bare names. Every character of a text is
written as an escape of eight hexadecimal digits, so that any text can be.

* `places`         — the digits of a number in base 16, as many as there are to be.
* `basic_flatMap_escaped` — an escaped text is read up to its closing quote.
* `key_dotted`     — names with points between them are a key.
* `Line`           — a line and its statement.
* `parse_print`    — the statements of lines are those of their text.
-/

namespace CellReplay.Toml

open Config (Bare pointedNames toList_join_point)
open Json (hexDigit)

/-! ## Texts -/

/-- The last `k` digits of a number in base 16. -/
def places : Nat → Nat → List Nat
  | 0, _ => []
  | k + 1, n => places k (n / 16) ++ [n % 16]

theorem lt_of_mem_places {k n v : Nat} (h : v ∈ places k n) : v < 16 := by
  induction k generalizing n with
  | zero => cases h
  | succ k ih =>
    rcases List.mem_append.mp h with h | h
    · exact ih h
    · rw [List.mem_singleton.mp h]
      exact Nat.mod_lt _ (by decide)

theorem foldl_places (k n : Nat) : (places k n).foldl (fun n v => n * 16 + v) 0 = n % 16 ^ k := by
  induction k generalizing n with
  | zero => exact (Nat.mod_one n).symm
  | succ k ih =>
    rw [places, List.foldl_append, ih, List.foldl_cons, List.foldl_nil, Nat.pow_succ,
      Nat.mul_comm (16 ^ k) 16, Nat.mod_mul]
    omega

theorem hexValue?_hexDigit : ∀ n, n < 16 → hexValue? (hexDigit n) = some n := by decide

theorem mapM_hexValue? {vs : List Nat} (h : ∀ v ∈ vs, v < 16) :
    (vs.map hexDigit).mapM hexValue? = some vs := by
  induction vs with
  | nil => rfl
  | cons v vs ih =>
    obtain ⟨hv, hvs⟩ := List.forall_mem_cons.mp h
    rw [List.map_cons, List.mapM_cons, hexValue?_hexDigit v hv, ih hvs]
    rfl

/-- A character as an escape of eight digits. -/
def escaped (c : Char) : List Char := '\\' :: 'U' :: (places 8 c.toNat).map hexDigit

theorem hexChar?_places (c : Char) : hexChar? ((places 8 c.toNat).map hexDigit) = some c := by
  have hvalid : c.toNat < 0xD800 ∨ (0xDFFF < c.toNat ∧ c.toNat < 0x110000) := c.valid
  have hsmall : c.toNat % 16 ^ 8 = c.toNat := Nat.mod_eq_of_lt (by omega)
  simp only [hexChar?, mapM_hexValue? fun _ => lt_of_mem_places, Option.bind_eq_bind,
    Option.bind_some, foldl_places, hsmall, if_pos hvalid, Char.ofNat_toNat]

theorem basic_escaped (c : Char) (rest : List Char) :
    basic (escaped c ++ rest) = withChar (some c) (basic rest) := by
  rw [← hexChar?_places c]
  rfl

theorem basic_flatMap_escaped (cs rest : List Char) :
    basic (cs.flatMap escaped ++ '"' :: rest) = some (cs, rest) := by
  induction cs with
  | nil => rfl
  | cons c cs ih =>
    rw [List.flatMap_cons, List.append_assoc, basic_escaped, ih]
    rfl

def quoted (s : String) : List Char := '"' :: (s.toList.flatMap escaped ++ ['"'])

theorem quotedText_quoted (s : String) (rest : List Char) (hrest : rest.head? ≠ some '"') :
    quotedText (quoted s ++ rest) = some (s.toList, rest) := by
  have hbasic := basic_flatMap_escaped s.toList rest
  have htext : quoted s ++ rest = '"' :: (s.toList.flatMap escaped ++ '"' :: rest) := by
    rw [quoted, List.cons_append, List.append_assoc]
    rfl
  rw [htext]
  cases hs : s.toList with
  | nil =>
    -- three quotes would open a text of several lines
    cases rest with
    | nil => rfl
    | cons c rest =>
      have hc : c ≠ '"' := by simpa using hrest
      rw [List.flatMap_nil, List.nil_append, quotedText]
      · rfl
      · intro rest' h
        cases h
        exact hc rfl
  | cons c cs =>
    rw [hs] at hbasic
    rw [← hbasic]
    rfl

/-! ## Names -/

/-- Nothing of what a key goes on with comes next. -/
def Stops (rest : List Char) : Prop :=
  ∀ c cs, rest = c :: cs → isBare c = false ∧ isGap c = false ∧ c ≠ '.'

theorem stops_cons {c : Char} (h : isBare c = false ∧ isGap c = false ∧ c ≠ '.') (cs : List Char) :
    Stops (c :: cs) := by
  rintro _ _ ⟨⟩
  exact h

theorem skipGap_cons {c : Char} (h : isGap c = false) (cs : List Char) :
    skipGap (c :: cs) = c :: cs := List.dropWhile_cons_of_neg (by simp [h])

theorem not_gap_of_bare {c : Char} (h : isBare c = true) : isGap c = false := by
  simp only [isGap, Bool.or_eq_false_iff, decide_eq_false_iff_not]
  constructor
  · rintro rfl
    exact absurd h (by decide)
  · rintro rfl
    exact absurd h (by decide)

theorem exists_cons_of_bare {k : String} (h : Bare k) :
    ∃ c cs, k.toList = c :: cs ∧ isBare c = true := by
  obtain ⟨c, cs, hcs⟩ := List.exists_cons_of_ne_nil fun he => h.1 (String.toList_inj.mp he)
  exact ⟨c, cs, hcs, h.2 c (by rw [hcs]; exact List.mem_cons_self)⟩

theorem skipGap_bare {k : String} (h : Bare k) (rest : List Char) :
    skipGap (k.toList ++ rest) = k.toList ++ rest := by
  obtain ⟨c, cs, hcs, hc⟩ := exists_cons_of_bare h
  rw [hcs, List.cons_append, skipGap_cons (not_gap_of_bare hc)]

theorem name_bare {k : String} (h : Bare k) (rest : List Char)
    (hrest : ∀ c cs, rest = c :: cs → isBare c = false) : name (k.toList ++ rest) = some (k, rest) := by
  have htake : (k.toList ++ rest).takeWhile isBare = k.toList := by
    rw [List.takeWhile_append_of_pos h.2]
    cases rest with
    | nil => exact List.append_nil _
    | cons c cs => rw [List.takeWhile_cons_of_neg (by simp [hrest c cs rfl]), List.append_nil]
  have hdrop : (k.toList ++ rest).dropWhile isBare = rest := by
    rw [List.dropWhile_append_of_pos h.2]
    cases rest with
    | nil => rfl
    | cons c cs => rw [List.dropWhile_cons_of_neg (by simp [hrest c cs rfl])]
  have hspan : (k.toList ++ rest).span isBare = (k.toList, rest) := by
    rw [List.span_eq_takeWhile_dropWhile, htake, hdrop]
  obtain ⟨c, cs, hcs, hc⟩ := exists_cons_of_bare h
  have hname : String.ofList (c :: cs) = k := by rw [← hcs, String.ofList_toList]
  rw [hcs, List.cons_append] at hspan ⊢
  unfold name
  split
  · next he =>
    cases he
    exact absurd hc (by decide)
  · next he =>
    cases he
    exact absurd hc (by decide)
  · rw [hspan]
    simp only [hname]

/-- Names with points between them. -/
def dotted (ks : List String) : List Char := (Text.join "." ks).toList

theorem dottedNames_pointedNames {k : String} {ks : List String} (h : ∀ n ∈ k :: ks, Bare n)
    {rest : List Char} (hrest : Stops rest) {fuel : Nat} (hfuel : ks.length < fuel) :
    dottedNames fuel (k.toList ++ (pointedNames ks ++ rest)) = some (k :: ks, rest) := by
  induction ks generalizing k fuel with
  | nil =>
    obtain ⟨fuel, rfl⟩ := Nat.exists_eq_add_one.mpr hfuel
    have hk : Bare k := h k List.mem_cons_self
    have hname := name_bare hk rest fun c cs hc => (hrest c cs hc).1
    have hgap : skipGap rest = rest := by
      cases rest with
      | nil => rfl
      | cons c cs => exact skipGap_cons (hrest c cs rfl).2.1 cs
    rw [dottedNames, pointedNames, List.flatMap_nil, List.nil_append, skipGap_bare hk, hname]
    simp only [Option.bind_eq_bind, Option.bind_some, hgap]
    split
    · next cs => exact absurd rfl (hrest '.' cs rfl).2.2
    · rfl
  | cons n ks ih =>
    obtain ⟨fuel, rfl⟩ := Nat.exists_eq_add_one.mpr (Nat.zero_lt_of_lt hfuel)
    obtain ⟨hk, hks⟩ := List.forall_mem_cons.mp h
    have hrest' := ih hks (by simpa using hfuel)
    have hname := name_bare hk ('.' :: (n.toList ++ (pointedNames ks ++ rest)))
      fun c cs hc => by cases hc; rfl
    have htext : pointedNames (n :: ks) ++ rest = '.' :: (n.toList ++ (pointedNames ks ++ rest)) := by
      rw [pointedNames, List.flatMap_cons, List.cons_append, List.cons_append, List.append_assoc]
      rfl
    rw [dottedNames, htext, skipGap_bare hk, hname]
    simp only [Option.bind_eq_bind, Option.bind_some, skipGap_cons (c := '.') rfl, hrest']
    rfl

theorem key_dotted (ks : List String) (k : String) (h : ∀ n ∈ ks ++ [k], Bare n)
    (hlength : ks.length < maxDepth) {rest : List Char} (hrest : Stops rest) :
    key (dotted (ks ++ [k]) ++ rest) = some (ks, k, rest) := by
  obtain ⟨n, ns, hns⟩ := List.exists_cons_of_ne_nil (List.append_ne_nil_of_right_ne_nil ks
    (List.cons_ne_nil k []))
  have htext : dotted (ks ++ [k]) ++ rest = n.toList ++ (pointedNames ns ++ rest) := by
    rw [dotted, hns, toList_join_point, List.append_assoc]
  have hfuel : ns.length < (n.toList ++ (pointedNames ns ++ rest)).length + 1 := by
    have hnames := Config.Path.length_le_pointedNames ns
    rw [List.length_append, List.length_append]
    omega
  have hread := dottedNames_pointedNames (by rwa [← hns]) hrest hfuel
  rw [← hns] at hread
  have hdepth : (ks ++ [k]).length ≤ maxDepth := by
    rw [List.length_append, List.length_singleton]
    omega
  simp only [key, htext, hread, Option.bind_eq_bind, Option.bind_some, List.getLast?_concat,
    if_pos hdepth, List.dropLast_concat, Option.pure_def]

/-! ## Lines -/

/-- A line: a header, or a text under a name. -/
inductive Line
  | header (path : List String) (name : String)
  | text (name value : String)

namespace Line

def print : Line → List Char
  | header path name => '[' :: (dotted (path ++ [name]) ++ [']', '\n'])
  | text name value => dotted [name] ++ '=' :: (quoted value ++ ['\n'])

def statement : Line → Statement
  | header path name => .table path name
  | text name value => .pair [] name (.text value)

/-- All names are bare, and there are not too many of them. -/
def Sound : Line → Prop
  | header path name => (∀ n ∈ path ++ [name], Bare n) ∧ path.length < maxDepth
  | text name _ => Bare name

end Line

theorem exists_cons_of_dotted {k : String} (h : Bare k) :
    ∃ c cs, dotted [k] = c :: cs ∧ isBare c = true := exists_cons_of_bare h

theorem statement_header {path : List String} {name : String}
    (h : (Line.header path name).Sound) (rest : List Char) :
    statement ((Line.header path name).print ++ rest) =
      some ((Line.header path name).statement, rest) := by
  have hkey := key_dotted path name h.1 h.2 (stops_cons (c := ']') (by decide) ('\n' :: rest))
  have htext : (Line.header path name).print ++ rest =
      '[' :: (dotted (path ++ [name]) ++ ']' :: '\n' :: rest) := by
    rw [Line.print, List.cons_append, List.append_assoc]
    rfl
  -- a header of a list of tables begins with two brackets
  have hread : statement ('[' :: (dotted (path ++ [name]) ++ ']' :: '\n' :: rest)) =
      header .table "]".toList (dotted (path ++ [name]) ++ ']' :: '\n' :: rest) := by
    rw [statement]
    intro cs hcs
    obtain ⟨n, ns, hns⟩ := List.exists_cons_of_ne_nil (List.append_ne_nil_of_right_ne_nil path
      (List.cons_ne_nil name []))
    obtain ⟨c, ds, hds, hc⟩ := exists_cons_of_bare (h.1 n (by rw [hns]; exact List.mem_cons_self))
    rw [dotted, hns, toList_join_point, hds] at hcs
    have hbracket : c = '[' := (List.cons.inj hcs).1
    rw [hbracket] at hc
    cases hc
  rw [htext, hread, header, hkey]
  rfl

theorem value_quoted (fuel : Nat) (said : String) (rest : List Char)
    (hrest : rest.head? ≠ some '"') :
    value (fuel + 1) maxDepth (quoted said ++ rest) = some (.text said, rest) := by
  have hread := quotedText_quoted said rest hrest
  rw [quoted, List.cons_append] at hread ⊢
  simp only [value, hread, Option.map_some, String.ofList_toList]

theorem statement_text {name said : String} (h : (Line.text name said).Sound) (rest : List Char) :
    statement ((Line.text name said).print ++ rest) =
      some ((Line.text name said).statement, rest) := by
  have hkey := key_dotted [] name (List.forall_mem_singleton.mpr h) (by decide)
    (stops_cons (c := '=') (by decide) (quoted said ++ '\n' :: rest))
  have htext : (Line.text name said).print ++ rest =
      dotted [name] ++ '=' :: (quoted said ++ '\n' :: rest) := by
    simp only [Line.print, List.append_assoc, List.cons_append, List.nil_append]
  obtain ⟨c, cs, hcs, hc⟩ := exists_cons_of_dotted h
  have hread : statement (dotted [name] ++ '=' :: (quoted said ++ '\n' :: rest)) =
      pairLine (dotted [name] ++ '=' :: (quoted said ++ '\n' :: rest)) := by
    have hbracket : c ≠ '[' := by
      rintro rfl
      cases hc
    rw [hcs, List.cons_append, statement]
    · exact fun _ h => hbracket (List.cons.inj h).1
    · exact fun _ h => hbracket (List.cons.inj h).1
  have hequals : expect '=' ('=' :: (quoted said ++ '\n' :: rest)) =
      some (quoted said ++ '\n' :: rest) := rfl
  have hgap : skipGap (quoted said ++ '\n' :: rest) = quoted said ++ '\n' :: rest :=
    skipGap_cons rfl _
  rw [List.nil_append] at hkey
  simp only [htext, hread, pairLine, hkey, Option.bind_eq_bind, Option.bind_some, hequals, hgap,
    value_quoted _ said ('\n' :: rest) (by simp)]
  rfl

theorem statement_print {l : Line} (h : l.Sound) (rest : List Char) :
    statement (l.print ++ rest) = some (l.statement, rest) := by
  cases l with
  | header path name => exact statement_header h rest
  | text name said => exact statement_text h rest

/-- A line begins with a bracket or a name, and so neither with a blank nor with a comment. -/
theorem exists_cons_of_print {l : Line} (h : l.Sound) :
    ∃ c cs, l.print = c :: cs ∧ (c = '[' ∨ isBare c = true) := by
  cases l with
  | header path name => exact ⟨_, _, rfl, .inl rfl⟩
  | text name said =>
    obtain ⟨c, cs, hcs, hc⟩ := exists_cons_of_dotted h
    exact ⟨c, _, by rw [Line.print, hcs, List.cons_append], .inr hc⟩

theorem statements_cons {c : Char} (hc : c = '[' ∨ isBare c = true) (cs : List Char) (fuel : Nat) :
    statements (fuel + 1) (c :: cs) =
      (statement (c :: cs)).bind fun (s, rest) => (statements fuel rest).map (s :: ·) := by
  have hgap : isGap c = false := by
    rcases hc with rfl | hc
    · rfl
    · exact not_gap_of_bare hc
  have hne (d : Char) (hd : d ≠ '[' ∧ isBare d = false) : c ≠ d := by
    rintro rfl
    exact hc.elim hd.1 fun hbare => absurd hbare (by simp [hd.2])
  rw [statements, skipGap_cons hgap]
  split
  · next h => cases h
  · next h => exact absurd (List.cons.inj h).1 (hne _ (by decide))
  · next h => exact absurd (List.cons.inj h).1 (hne _ (by decide))
  · next h => exact absurd (List.cons.inj h).1 (hne _ (by decide))
  · cases statement (c :: cs) with
    | none => rfl
    | some r =>
      obtain ⟨s, rest⟩ := r
      simp only [Option.bind_eq_bind, Option.bind_some]
      cases statements fuel rest <;> rfl

theorem statements_print {ls : List Line} (h : ∀ l ∈ ls, l.Sound) {fuel : Nat}
    (hfuel : ls.length < fuel) :
    statements fuel (ls.flatMap Line.print) = some (ls.map Line.statement) := by
  induction ls generalizing fuel with
  | nil =>
    obtain ⟨fuel, rfl⟩ := Nat.exists_eq_add_one.mpr hfuel
    rfl
  | cons l ls ih =>
    obtain ⟨fuel, rfl⟩ := Nat.exists_eq_add_one.mpr (Nat.zero_lt_of_lt hfuel)
    obtain ⟨hl, hls⟩ := List.forall_mem_cons.mp h
    have hstatement := statement_print hl (ls.flatMap Line.print)
    obtain ⟨c, cs, hcs, hc⟩ := exists_cons_of_print hl
    rw [hcs, List.cons_append] at hstatement
    simp only [List.flatMap_cons, hcs, List.cons_append, statements_cons hc, hstatement,
      Option.bind_some, ih hls (by simpa using hfuel)]
    rfl

theorem length_le_print {ls : List Line} (h : ∀ l ∈ ls, l.Sound) :
    ls.length ≤ (ls.flatMap Line.print).length := by
  induction ls with
  | nil => exact Nat.le_refl 0
  | cons l ls ih =>
    obtain ⟨hl, hls⟩ := List.forall_mem_cons.mp h
    obtain ⟨c, cs, hcs, -⟩ := exists_cons_of_print hl
    have hrest := ih hls
    rw [List.flatMap_cons, List.length_append, hcs, List.length_cons, List.length_cons]
    omega

/-- The text of lines is read as their statements. -/
theorem parse_print {ls : List Line} (h : ∀ l ∈ ls, l.Sound) :
    parse (String.ofList (ls.flatMap Line.print)) = ofStatements (ls.map Line.statement) := by
  have hmark : withoutMark (ls.flatMap Line.print) = ls.flatMap Line.print := by
    cases ls with
    | nil => rfl
    | cons l ls =>
      obtain ⟨c, cs, hcs, hc⟩ := exists_cons_of_print (h l List.mem_cons_self)
      have hne : c ≠ '\uFEFF' := by
        rintro rfl
        exact hc.elim (by decide) (by decide)
      rw [List.flatMap_cons, hcs, List.cons_append, withoutMark]
      exact fun _ he => hne (List.cons.inj he).1
  have hread := statements_print h (Nat.lt_succ_of_le (length_le_print h))
  simp only [parse, String.toList_ofList, hmark, hread, Option.bind_some]

end CellReplay.Toml
