import CellReplay.Json.Printer
import CellReplay.Proofs.Text.Digits
import Mathlib.Data.List.TakeDrop

/-!
# Proofs.Json.RoundTrip

A value that is printed is read back.

* `Numeral.IsProper`, `Json.IsProper` — values that a text can stand for: every string spells a
  text, and every number has its digits in order.
* `Ends`               — a rest of a text that no numeral goes on with.
* `stringBody_escaped`, `numeral_printNumeral` — strings and numerals are read up to their end.
* `reads_isProper`     — so are values, with no more fuel than they have characters.
* `parse_print`        — a printed value is read back whole.
* `isProper_ofInt`, `number?_ofInt` — an integer is printed properly, and stands for itself.
-/

namespace CellReplay

/-- Digits wherever there are to be some, and no zero before others. -/
structure Numeral.IsProper (n : Numeral) : Prop where
  whole_ne : n.whole ≠ []
  whole : ∀ c ∈ n.whole, Json.isDigit c = true
  head : n.whole.head? = some '0' → n.whole.length = 1
  fraction : ∀ ds, n.fraction = some ds → ds ≠ [] ∧ ∀ c ∈ ds, Json.isDigit c = true
  exponent : ∀ b ds, n.exponent = some (b, ds) → ds ≠ [] ∧ ∀ c ∈ ds, Json.isDigit c = true

namespace Json

open Text

/-- Every string in a value spells a text, and every number is proper. -/
inductive IsProper : Json → Prop
  | null : IsProper .null
  | bool (b : Bool) : IsProper (.bool b)
  | number {n : Numeral} : n.IsProper → IsProper (.number n)
  | string (s : String) : IsProper (.string (some s))
  | array {js : List Json} : (∀ j ∈ js, IsProper j) → IsProper (.array js)
  | object {ms : List (Option String × Json)} :
      (∀ m ∈ ms, m.1.isSome) → (∀ m ∈ ms, IsProper m.2) → IsProper (.object ms)

theorem skipSpace_cons {c : Char} (h : isSpace c = false) (cs : List Char) :
    skipSpace (c :: cs) = c :: cs := List.dropWhile_cons_of_neg (by simp [h])

/-! ## Strings -/

theorem hexValue?_hexDigit : ∀ n, n < 16 → hexValue? (hexDigit n) = some n := by decide

theorem fourHex_hexDigit {n : Nat} (h : n < 256) (rest : List Char) :
    fourHex ('0' :: '0' :: hexDigit (n / 16) :: hexDigit (n % 16) :: rest) = some (n, rest) := by
  have hzero : hexValue? '0' = some 0 := rfl
  simp only [fourHex, hzero, hexValue?_hexDigit (n / 16) (by omega),
    hexValue?_hexDigit (n % 16) (by omega), Option.bind_eq_bind, Option.bind_some, Option.pure_def]
  rw [show (0 * 16 + 0) * 256 + (n / 16 * 16 + n % 16) = n by omega]

/-- One character that is escaped is one piece that is read. -/
theorem pieces_escaped (fuel : Nat) (c : Char) (rest : List Char) :
    pieces (fuel + 1) (escaped c ++ rest) =
      (pieces fuel rest).map fun (ps, rest) => (.char c :: ps, rest) := by
  unfold escaped
  split
  iterate 7 next => cases h : pieces fuel rest <;> simp [pieces, simpleEscape?, h]
  next hquote hslash _ _ _ _ _ =>
    split
    · next hc =>
      have hhalf : (isHighHalf c.toNat || isLowHalf c.toNat) = false := by
        simp only [isHighHalf, isLowHalf, Bool.or_eq_false_iff, Bool.and_eq_false_iff,
          decide_eq_false_iff_not]
        omega
      have hhex := fourHex_hexDigit (n := c.toNat) (by omega) rest
      simp only [List.cons_append, List.nil_append, pieces, hhex, Option.bind_eq_bind,
        Option.bind_some, hhalf, Char.ofNat_toNat]
      cases pieces fuel rest <;> rfl
    · next hc =>
      rw [List.singleton_append]
      conv_lhs => unfold pieces
      split
      · next h => cases h
      · next h => cases h; exact absurd rfl hquote
      · next h => cases h; exact absurd rfl hslash
      · next h => cases h; exact absurd rfl hslash
      · next h =>
        cases h
        rw [if_neg (by rintro (rfl | h); exacts [hslash rfl, hc h])]

theorem pieces_flatMap_escaped (cs rest : List Char) {fuel : Nat} (h : cs.length < fuel) :
    pieces fuel (cs.flatMap escaped ++ '"' :: rest) = some (cs.map .char, rest) := by
  induction cs generalizing fuel with
  | nil =>
    obtain ⟨fuel, rfl⟩ : ∃ f, fuel = f + 1 := ⟨fuel - 1, by omega⟩
    rfl
  | cons c cs ih =>
    obtain ⟨fuel, rfl⟩ : ∃ f, fuel = f + 1 := ⟨fuel - 1, by omega⟩
    rw [List.flatMap_cons, List.append_assoc, pieces_escaped, ih (by simpa using h)]
    rfl

theorem textOf_map_char (cs : List Char) : textOf (cs.map .char) = some cs := by
  induction cs with
  | nil => rfl
  | cons c cs ih => rw [List.map_cons, textOf, ih]; rfl

theorem length_escaped_pos (c : Char) : 0 < (escaped c).length := by
  unfold escaped
  split
  iterate 7 next => decide
  next => split <;> simp

theorem length_le_flatMap_escaped (cs : List Char) : cs.length ≤ (cs.flatMap escaped).length := by
  induction cs with
  | nil => exact Nat.le_refl 0
  | cons c cs ih =>
    have hc := length_escaped_pos c
    rw [List.flatMap_cons, List.length_append, List.length_cons]
    omega

theorem stringBody_escaped (s : String) (rest : List Char) :
    stringBody (s.toList.flatMap escaped ++ '"' :: rest) = some (some s, rest) := by
  have hlen := length_le_flatMap_escaped s.toList
  rw [stringBody, pieces_flatMap_escaped _ _ (by simp only [List.length_append]; omega),
    Option.map_some]
  simp only [textOf_map_char, Option.map_some, String.ofList_toList]

/-! ## Numerals -/

/-- No digit comes next. -/
def NoDigit (rest : List Char) : Prop := ∀ c cs, rest = c :: cs → isDigit c = false

/-- A numeral does not go on here. -/
def Ends (rest : List Char) : Prop :=
  ∀ c cs, rest = c :: cs → isDigit c = false ∧ c ≠ '.' ∧ c ≠ 'e' ∧ c ≠ 'E'

theorem ends_nil : Ends [] := fun _ _ h => by cases h

theorem Ends.noDigit {rest : List Char} (h : Ends rest) : NoDigit rest :=
  fun c cs hc => (h c cs hc).1

theorem digits_append {ds rest : List Char} (hne : ds ≠ []) (hd : ∀ c ∈ ds, isDigit c = true)
    (hr : NoDigit rest) : digits (ds ++ rest) = some (ds, rest) := by
  have htake : (ds ++ rest).takeWhile isDigit = ds := by
    rw [List.takeWhile_append_of_pos hd]
    cases rest with
    | nil => exact List.append_nil ds
    | cons c cs => rw [List.takeWhile_cons_of_neg (by simp [hr c cs rfl]), List.append_nil]
  have hdrop : (ds ++ rest).dropWhile isDigit = rest := by
    rw [List.dropWhile_append_of_pos hd]
    cases rest with
    | nil => rfl
    | cons c cs => rw [List.dropWhile_cons_of_neg (by simp [hr c cs rfl])]
  rw [digits, List.span_eq_takeWhile_dropWhile, htake, hdrop]
  split
  · next h => exact absurd (Prod.mk.inj h).1 hne
  · rfl

def fractionText (n : Numeral) : List Char := n.fraction.elim [] ('.' :: ·)

def exponentText (n : Numeral) : List Char :=
  n.exponent.elim [] fun (negative, ds) => 'e' :: (if negative then '-' :: ds else ds)

theorem printNumeral_eq (n : Numeral) (rest : List Char) :
    printNumeral n ++ rest = (if n.negative then ['-'] else []) ++
      (n.whole ++ (fractionText n ++ (exponentText n ++ rest))) := by
  rw [printNumeral, List.append_assoc, List.append_assoc, List.append_assoc]
  rfl

section Numerals

variable {n : Numeral} {rest : List Char}

theorem exponentText_head (hr : Ends rest) {c : Char} {cs : List Char}
    (h : exponentText n ++ rest = c :: cs) : isDigit c = false ∧ c ≠ '.' := by
  unfold exponentText at h
  cases he : n.exponent with
  | none =>
    rw [he] at h
    exact ⟨(hr c cs h).1, (hr c cs h).2.1⟩
  | some e => rw [he] at h; cases h; decide

theorem fractionText_noDigit (hr : Ends rest) :
    NoDigit (fractionText n ++ (exponentText n ++ rest)) := by
  intro c cs h
  unfold fractionText at h
  cases hf : n.fraction with
  | none => rw [hf] at h; exact (exponentText_head hr h).1
  | some ds => rw [hf] at h; cases h; decide

variable (hn : n.IsProper)
include hn

theorem wholePart_append (hr : NoDigit rest) :
    wholePart (n.whole ++ rest) = some (n.whole, rest) := by
  rw [wholePart, digits_append hn.whole_ne hn.whole hr]
  simp only [Option.bind_eq_bind, Option.bind_some]
  rw [if_neg (fun h => h.2 (hn.head h.1))]

theorem fractionPart_append (hr : Ends rest) :
    fractionPart (fractionText n ++ (exponentText n ++ rest)) =
      some (n.fraction, exponentText n ++ rest) := by
  have hhead {c : Char} {cs : List Char} (h : exponentText n ++ rest = c :: cs) :=
    exponentText_head hr h
  unfold fractionText
  cases hf : n.fraction with
  | none =>
    rw [Option.elim_none, List.nil_append]
    unfold fractionPart
    split
    · next h => exact absurd rfl (hhead h).2
    · rfl
  | some ds =>
    obtain ⟨hne, hd⟩ := hn.fraction ds hf
    rw [Option.elim_some, List.cons_append, fractionPart,
      digits_append hne hd fun c cs h => (hhead h).1]
    rfl

theorem exponentPart_append (hr : Ends rest) :
    exponentPart (exponentText n ++ rest) = some (n.exponent, rest) := by
  unfold exponentText
  cases he : n.exponent with
  | none =>
    rw [Option.elim_none, List.nil_append]
    unfold exponentPart
    split
    · next cs => exact absurd rfl (hr 'e' cs rfl).2.2.1
    · next cs => exact absurd rfl (hr 'E' cs rfl).2.2.2
    · rfl
  | some e =>
    obtain ⟨negative, ds⟩ := e
    obtain ⟨hne, hd⟩ := hn.exponent negative ds he
    have hdigits := digits_append hne hd hr.noDigit
    rw [Option.elim_some, List.cons_append, exponentPart]
    cases negative with
    | true =>
      simp only [if_true, List.cons_append]
      rw [hdigits, Option.map_some]
    | false =>
      obtain ⟨c, cs, rfl⟩ := List.exists_cons_of_ne_nil hne
      have hc := hd c (List.mem_cons_self ..)
      simp only [Bool.false_eq_true, if_false, List.cons_append] at hdigits ⊢
      -- a digit comes first, and so no sign
      split
      · next h => cases h; cases hc
      · next h => cases h; cases hc
      · rw [hdigits, Option.map_some]

theorem numeral_printNumeral (hr : Ends rest) :
    numeral (printNumeral n ++ rest) = some (n, rest) := by
  have hunsigned := wholePart_append hn (fractionText_noDigit (n := n) hr)
  rw [printNumeral_eq]
  unfold numeral
  obtain ⟨negative, whole, fraction, exponent⟩ := n
  cases negative with
  | true =>
    simp only [if_true, List.cons_append, List.nil_append, hunsigned, fractionPart_append hn hr,
      exponentPart_append hn hr, Option.bind_eq_bind, Option.bind_some, Option.pure_def]
  | false =>
    obtain ⟨c, cs, rfl⟩ := List.exists_cons_of_ne_nil hn.whole_ne
    have hc : isDigit c = true := hn.whole c (List.mem_cons_self ..)
    simp only [Bool.false_eq_true, if_false, List.nil_append, List.cons_append] at hunsigned ⊢
    split
    · next h => cases h; cases hc
    · simp only [hunsigned, fractionPart_append hn hr, exponentPart_append hn hr,
        Option.bind_eq_bind, Option.bind_some, Option.pure_def]

end Numerals

/-! ## Values -/

/-- A value is read from its text, if the rest does not go on with a numeral. -/
def Reads (j : Json) : Prop :=
  ∀ fuel rest, j.printChars.length ≤ fuel → Ends rest →
    value fuel (j.printChars ++ rest) = some (j, rest)

theorem isDigit_cases {c : Char} (h : isDigit c = true) :
    c ∈ ['0', '1', '2', '3', '4', '5', '6', '7', '8', '9'] := by
  simp only [isDigit, Bool.and_eq_true, decide_eq_true_eq] at h
  have hl : 48 ≤ c.toNat := h.1
  have hu : c.toNat ≤ 57 := h.2
  have hall : ∀ n, n < 58 → 48 ≤ n →
      Char.ofNat n ∈ ['0', '1', '2', '3', '4', '5', '6', '7', '8', '9'] := by decide
  have hc := hall c.toNat (Nat.lt_succ_of_le hu) hl
  rwa [Char.ofNat_toNat] at hc

/-- What a numeral begins with. -/
theorem printNumeral_head {n : Numeral} (hn : n.IsProper) :
    ∃ c cs, printNumeral n = c :: cs ∧ (c = '-' ∨ isDigit c = true) := by
  obtain ⟨c, cs, hcs⟩ := List.exists_cons_of_ne_nil hn.whole_ne
  have hc : isDigit c = true := hn.whole c (by rw [hcs]; exact List.mem_cons_self ..)
  have heq := printNumeral_eq n []
  rw [List.append_nil, hcs] at heq
  cases hneg : n.negative with
  | true => rw [hneg] at heq; exact ⟨_, _, heq, .inl rfl⟩
  | false => rw [hneg] at heq; exact ⟨_, _, heq, .inr hc⟩

theorem value_numeral (fuel : Nat) {c : Char} (hc : c = '-' ∨ isDigit c = true) (cs : List Char) :
    value (fuel + 1) (c :: cs) = (numeral (c :: cs)).map fun (n, rest) => (.number n, rest) := by
  have hmem : c ∈ ['-', '0', '1', '2', '3', '4', '5', '6', '7', '8', '9'] := by
    rcases hc with rfl | hc
    · exact List.mem_cons_self ..
    · exact List.mem_cons_of_mem _ (isDigit_cases hc)
  simp only [List.mem_cons, List.not_mem_nil, or_false] at hmem
  rcases hmem with rfl | rfl | rfl | rfl | rfl | rfl | rfl | rfl | rfl | rfl | rfl <;> rfl

/-- No value begins with a blank, nor with a bracket that closes. -/
theorem printChars_head {j : Json} (h : j.IsProper) :
    ∃ c cs, j.printChars = c :: cs ∧ isSpace c = false ∧ c ≠ ']' := by
  cases h with
  | null => exact ⟨_, _, rfl, by decide, by decide⟩
  | bool b => cases b <;> exact ⟨_, _, rfl, by decide, by decide⟩
  | number hn =>
    obtain ⟨c, cs, hcs, hc⟩ := printNumeral_head hn
    refine ⟨c, cs, hcs, ?_⟩
    rcases hc with rfl | hc
    · decide
    · have hmem := isDigit_cases hc
      simp only [List.mem_cons, List.not_mem_nil, or_false] at hmem
      rcases hmem with rfl | rfl | rfl | rfl | rfl | rfl | rfl | rfl | rfl | rfl <;> decide
  | string s => exact ⟨_, _, rfl, by decide, by decide⟩
  | array hjs => rename_i js; cases js <;> exact ⟨_, _, rfl, by decide, by decide⟩
  | object hk hv => rename_i ms; cases ms <;> exact ⟨_, _, rfl, by decide, by decide⟩

theorem ends_cons {c : Char} (h : c = ',' ∨ c = ']' ∨ c = '\x7d') (cs : List Char) :
    Ends (c :: cs) := by
  intro d ds hd
  cases hd
  rcases h with rfl | rfl | rfl <;> decide

theorem items_printItems {j : Json} {js : List Json} (h : ∀ x ∈ j :: js, Reads x) {fuel : Nat}
    (hf : (j.printChars ++ printItems js).length ≤ fuel) (rest : List Char) :
    items fuel (j.printChars ++ (printItems js ++ rest)) = some (j :: js, rest) := by
  rw [List.length_append] at hf
  induction js generalizing j fuel with
  | nil =>
    have hj : Reads j := h j (List.mem_cons_self ..)
    rw [printItems, List.length_singleton] at hf
    obtain ⟨fuel, rfl⟩ : ∃ f, fuel = f + 1 := ⟨fuel - 1, by omega⟩
    rw [items, printItems, List.singleton_append,
      hj fuel (']' :: rest) (by omega) (ends_cons (by simp) _)]
    rfl
  | cons j' js ih =>
    have hj : Reads j := h j (List.mem_cons_self ..)
    simp only [printItems, List.length_append, List.length_singleton] at hf
    obtain ⟨fuel, rfl⟩ : ∃ f, fuel = f + 1 := ⟨fuel - 1, by omega⟩
    have htail : items fuel (j'.printChars ++ (printItems js ++ rest)) = some (j' :: js, rest) :=
      ih (fun x hx => h x (List.mem_cons_of_mem _ hx)) (by omega)
    rw [items, printItems, List.append_assoc, List.append_assoc, List.singleton_append,
      hj fuel _ (by omega) (ends_cons (by simp) _)]
    simp only [Option.bind_eq_bind, Option.bind_some, skipSpace_cons (c := ',') rfl, htail]
    rfl

theorem printString_append (s : String) (rest : List Char) :
    printString s ++ rest = '"' :: (s.toList.flatMap escaped ++ '"' :: rest) := by
  simp only [printString, List.append_assoc, List.cons_append, List.nil_append]

theorem members_printMembers {k : String} {j : Json} {ms : List (Option String × Json)}
    (hj : Reads j) (h : ∀ m ∈ ms, m.1.isSome ∧ Reads m.2) {fuel : Nat}
    (hf : (printString k ++ ':' :: (j.printChars ++ printMembers ms)).length ≤ fuel)
    (rest : List Char) :
    members fuel (printString k ++ ':' :: (j.printChars ++ (printMembers ms ++ rest))) =
      some ((some k, j) :: ms, rest) := by
  rw [List.length_append, List.length_cons, List.length_append] at hf
  induction ms generalizing k j fuel with
  | nil =>
    obtain ⟨fuel, rfl⟩ : ∃ f, fuel = f + 1 := ⟨fuel - 1, by omega⟩
    rw [printString_append, members, skipSpace_cons rfl]
    simp only [stringBody_escaped, Option.bind_eq_bind, Option.bind_some,
      skipSpace_cons (c := ':') rfl]
    rw [printMembers, List.singleton_append,
      hj fuel ('\x7d' :: rest) (by omega) (ends_cons (by simp) _)]
    rfl
  | cons m ms ih =>
    obtain ⟨k', j'⟩ := m
    obtain ⟨hk', hj'⟩ : k'.isSome ∧ Reads j' := h _ (List.mem_cons_self ..)
    obtain ⟨k', rfl⟩ := Option.isSome_iff_exists.mp hk'
    simp only [printMembers, Option.getD_some, List.length_append, List.length_singleton] at hf
    obtain ⟨fuel, rfl⟩ : ∃ f, fuel = f + 1 := ⟨fuel - 1, by omega⟩
    have htail : members fuel
        (printString k' ++ ':' :: (j'.printChars ++ (printMembers ms ++ rest))) =
          some ((some k', j') :: ms, rest) :=
      ih hj' (fun m hm => h m (List.mem_cons_of_mem _ hm)) (by omega)
    have htext : printMembers ((some k', j') :: ms) ++ rest =
        ',' :: (printString k' ++ ':' :: (j'.printChars ++ (printMembers ms ++ rest))) := by
      simp only [printMembers, Option.getD_some, List.append_assoc, List.cons_append,
        List.nil_append]
    rw [printString_append, members, skipSpace_cons rfl]
    simp only [stringBody_escaped, Option.bind_eq_bind, Option.bind_some,
      skipSpace_cons (c := ':') rfl]
    rw [htext, hj fuel _ (by omega) (ends_cons (by simp) _)]
    simp only [Option.bind_some, skipSpace_cons (c := ',') rfl, htail]
    rfl

/-- A proper value has a first character, and so there is fuel for it. -/
theorem Reads.of_succ {j : Json} (hj : j.IsProper)
    (h : ∀ fuel rest, j.printChars.length ≤ fuel + 1 → Ends rest →
      value (fuel + 1) (j.printChars ++ rest) = some (j, rest)) : Reads j := by
  intro fuel rest hf hr
  obtain ⟨c, cs, hcs, -⟩ := printChars_head hj
  cases fuel with
  | zero => rw [hcs] at hf; cases hf
  | succ fuel => exact h fuel rest hf hr

theorem reads_array {js : List Json} (hjs : ∀ j ∈ js, j.IsProper) (ih : ∀ j ∈ js, Reads j) :
    Reads (.array js) := by
  refine .of_succ (.array hjs) fun fuel rest hf _ => ?_
  cases js with
  | nil => rfl
  | cons j js =>
    obtain ⟨c, cs, hcs, hspace, hclose⟩ := printChars_head (hjs j (List.mem_cons_self ..))
    have hlen : (j.printChars ++ printItems js).length ≤ fuel := by
      simp only [printChars, List.length_append, List.length_singleton] at hf ⊢
      omega
    have hitems := items_printItems ih hlen rest
    rw [printChars, List.append_assoc, List.append_assoc, List.singleton_append, value,
      skipSpace_cons rfl]
    rw [hcs, List.cons_append] at hitems ⊢
    simp only [skipSpace_cons hspace]
    split
    · next h => cases h; exact absurd rfl hclose
    · next h => rw [hitems]; rfl

theorem reads_object {ms : List (Option String × Json)} (hk : ∀ m ∈ ms, m.1.isSome)
    (hv : ∀ m ∈ ms, m.2.IsProper) (ih : ∀ m ∈ ms, Reads m.2) : Reads (.object ms) := by
  refine .of_succ (.object hk hv) fun fuel rest hf _ => ?_
  cases ms with
  | nil => rfl
  | cons m ms =>
    obtain ⟨k, j⟩ := m
    obtain ⟨k, rfl⟩ := Option.isSome_iff_exists.mp (hk _ (List.mem_cons_self ..))
    have hj : Reads j := ih _ (List.mem_cons_self ..)
    have hms : ∀ m ∈ ms, m.1.isSome ∧ Reads m.2 := fun m hm =>
      ⟨hk m (List.mem_cons_of_mem _ hm), ih m (List.mem_cons_of_mem _ hm)⟩
    have htext : printChars (.object ((some k, j) :: ms)) =
        '\x7b' :: (printString k ++ ':' :: (j.printChars ++ printMembers ms)) := by
      simp only [printChars, Option.getD_some, List.append_assoc, List.cons_append,
        List.nil_append]
    rw [htext, List.length_cons] at hf
    have hmembers : members fuel
        (printString k ++ ':' :: (j.printChars ++ (printMembers ms ++ rest))) =
          some ((some k, j) :: ms, rest) :=
      members_printMembers hj hms (by omega) rest
    rw [htext, List.cons_append, value, skipSpace_cons rfl]
    simp only [List.append_assoc, List.cons_append]
    rw [printString_append] at hmembers ⊢
    simp only [skipSpace_cons (c := '"') rfl]
    split
    · next h => cases h
    · rw [hmembers]; rfl

/-- Every proper value is read from its text. -/
theorem reads_isProper {j : Json} (h : j.IsProper) : Reads j := by
  induction h with
  | null => exact .of_succ .null fun fuel rest _ _ => rfl
  | bool b => refine .of_succ (.bool b) fun fuel rest _ _ => ?_; cases b <;> rfl
  | number hn =>
    refine .of_succ (.number hn) fun fuel rest _ hr => ?_
    obtain ⟨c, cs, hcs, hc⟩ := printNumeral_head hn
    have hread := numeral_printNumeral hn hr
    rw [printChars]
    rw [hcs, List.cons_append] at hread ⊢
    rw [value_numeral fuel hc, hread]
    rfl
  | string s =>
    refine .of_succ (.string s) fun fuel rest _ _ => ?_
    rw [printChars, Option.getD_some, printString_append, value, skipSpace_cons rfl]
    simp only [stringBody_escaped]
    rfl
  | array hjs ih => exact reads_array hjs ih
  | object hk hv ih => exact reads_object hk hv ih

/-- A proper value that is printed is read back. -/
theorem parse_print {j : Json} (h : j.IsProper) : parse j.print = some j := by
  have hread := reads_isProper h (2 * j.printChars.length + 1) [] (by omega) ends_nil
  rw [List.append_nil] at hread
  simp only [parse, print, String.toList_ofList, hread]
  rfl

/-! ## Texts and integers -/

theorem isProper_ofText (s : String) : (ofText s).IsProper := .string s

theorem isProper_ofMembers {ms : List (String × Json)} (h : ∀ m ∈ ms, m.2.IsProper) :
    (ofMembers ms).IsProper := by
  refine .object (fun m hm => ?_) fun m hm => ?_
  · obtain ⟨x, -, rfl⟩ := List.mem_map.mp hm
    rfl
  · obtain ⟨x, hx, rfl⟩ := List.mem_map.mp hm
    exact h x hx

theorem isProper_ofInt (n : Int) : (ofInt n).IsProper :=
  .number {
    whole_ne := Nat.toDigits_ne_nil
    whole := fun c hc => by
      have h := isDigit_iff.mp (isDigit_toDigits hc)
      rw [isDigit, decide_eq_true h.1, decide_eq_true h.2]
      rfl
    head := toDigits_head
    fraction := fun _ h => by cases h
    exponent := fun _ _ h => by cases h }

theorem takeDigits_eq {n taken : Nat} {cs : List Char}
    (hb : Nat.ofDigitChars 10 cs n ≤ Numeral.maxUInt64) :
    Numeral.takeDigits n taken cs = (Nat.ofDigitChars 10 cs n, taken + cs.length, []) := by
  induction cs generalizing n taken with
  | nil => rfl
  | cons c cs ih =>
    rw [Nat.ofDigitChars_cons, Nat.mul_comm, show '0'.toNat = 48 from rfl] at hb ⊢
    have hnext : n * 10 + (c.toNat - 48) ≤ Numeral.maxUInt64 :=
      Nat.le_trans (le_ofDigitChars cs _) hb
    simp only [Numeral.takeDigits]
    rw [if_pos hnext, ih hb, List.length_cons, Nat.add_right_comm, Nat.add_assoc]

theorem takeDigits_toDigits {n : Nat} (h : n ≤ Numeral.maxUInt64) :
    Numeral.takeDigits 0 0 (Nat.toDigits 10 n) = (n, (Nat.toDigits 10 n).length, []) := by
  rw [takeDigits_eq (by rwa [Nat.ofDigitChars_ten_toDigits]), Nat.ofDigitChars_ten_toDigits,
    Nat.zero_add]

/-- An integer that is written stands for itself. -/
theorem number?_ofInt {n : Int} (hl : -9223372036854775808 ≤ n) (hu : n ≤ Numeral.maxUInt64) :
    Numeral.number? ⟨n < 0, Nat.toDigits 10 n.natAbs, none, none⟩ = some (.integer n) := by
  have habs : n.natAbs ≤ Numeral.maxUInt64 := by
    unfold Numeral.maxUInt64 at hu ⊢
    omega
  simp only [Numeral.number?, takeDigits_toDigits habs, Option.isNone_none, Bool.and_self,
    List.isEmpty_nil, if_true]
  by_cases hn : n < 0
  · have hbound : 0 < n.natAbs ∧ n.natAbs ≤ 9223372036854775808 := by omega
    have hval : -(n.natAbs : Int) = n := by omega
    simp only [hn, decide_true, Bool.not_true, Bool.false_eq_true, if_false, Bool.and_eq_true,
      hbound, and_self, if_true, hval]
  · have hval : (n.natAbs : Int) = n := by omega
    simp only [hn, decide_false, Bool.not_false, if_true, hval]

end Json

end CellReplay
