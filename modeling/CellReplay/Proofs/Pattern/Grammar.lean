import CellReplay.Proofs.Pattern.FullMatch
import CellReplay.Proofs.Text.Blanks

/-!
# Proofs.Pattern.Grammar

The cells that the default pattern takes, as a grammar, and the requests that they become.

* `matches_copies`      — copies of a set match a run of its characters, as long as you like.
* `matchesWhole_tagged` — what the expression of the default pattern matches.
* `Cell.Tagged`         — a cell by that grammar: mark, letters, a blank, and code behind it.
* `Cell.read_tagged`    — how the reader of cells reads such a cell.
* `classify_default`    — a cell becomes a request exactly if it is of that form.
-/

namespace CellReplay.Pattern

open Text

section Runs

variable {text : List Char} {s : CharSet} {i j n : Nat}

/-- Matching from one position to another consumes the text between them. -/
theorem matches_set :
    (Regex.set s).Matches text i j ↔
      ∃ c, s.contains c = true ∧ text.drop i = c :: text.drop j ∧ j = i + 1 := by
  simp only [Regex.Matches]
  constructor
  · rintro ⟨rfl, c, hc, hin⟩
    obtain ⟨hi, rfl⟩ := List.getElem?_eq_some_iff.mp hc
    exact ⟨text[i], hin, List.drop_eq_getElem_cons hi, rfl⟩
  · rintro ⟨c, hin, hdrop, rfl⟩
    refine ⟨rfl, c, ?_, hin⟩
    rw [← List.head?_drop, hdrop, List.head?_cons]

theorem steps_set :
    Steps ((Regex.set s).Matches text) n i j ↔
      ∃ run, run.length = n ∧ (∀ c ∈ run, s.contains c = true) ∧
        text.drop i = run ++ text.drop j ∧ j = i + n := by
  induction n generalizing i with
  | zero =>
    simp only [Steps, List.length_eq_zero_iff, exists_eq_left]
    constructor
    · rintro rfl
      exact ⟨fun c hc => absurd hc List.not_mem_nil, rfl, rfl⟩
    · rintro ⟨-, -, rfl⟩
      rfl
  | succ n ih =>
    simp only [Steps, matches_set, ih]
    constructor
    · rintro ⟨k, ⟨c, hc, hik, rfl⟩, run, rfl, hrun, hkj, rfl⟩
      refine ⟨c :: run, rfl, ?_, by rw [hik, hkj, List.cons_append], by omega⟩
      exact List.forall_mem_cons.mpr ⟨hc, hrun⟩
    · rintro ⟨_ | ⟨c, run⟩, hlen, hrun, hdrop, rfl⟩
      · cases hlen
      · obtain ⟨hc, hrest⟩ := List.forall_mem_cons.mp hrun
        have hnext : text.drop (i + 1) = run ++ text.drop (i + (n + 1)) := by
          rw [← List.tail_drop, hdrop, List.cons_append, List.tail_cons]
        refine ⟨i + 1, ⟨c, hc, ?_, rfl⟩, run, by simpa using hlen, hrest, hnext, by omega⟩
        rw [hdrop, hnext, List.cons_append]

/-- At least one copy of a set, and as many as there are. -/
theorem matches_copies :
    (Regex.rep (.set s) 1 none).Matches text i j ↔
      ∃ run, run ≠ [] ∧ (∀ c ∈ run, s.contains c = true) ∧
        text.drop i = run ++ text.drop j ∧ j = i + run.length := by
  rw [Regex.Matches]
  simp only [Option.not_mem_none, false_imp_iff, implies_true, true_and, steps_set]
  constructor
  · rintro ⟨n, hn, run, rfl, hrun, hdrop, rfl⟩
    exact ⟨run, List.ne_nil_of_length_pos hn, hrun, hdrop, rfl⟩
  · rintro ⟨run, hne, hrun, hdrop, rfl⟩
    exact ⟨run.length, List.length_pos_of_ne_nil hne, run, rfl, hrun, hdrop, rfl⟩

theorem matches_cat {r q : Regex} :
    (Regex.cat r q).Matches text i j ↔ ∃ k, r.Matches text i k ∧ q.Matches text k j := Iff.rfl

end Runs

/-! ## The default pattern -/

def letters : CharSet := .union (.range 'A' 'Z') (.range 'a' 'z')

/-- A shorthand and its complement. -/
def anything : CharSet := .union (.property .blank) (.compl (.property .blank))

/-- The expression of the default pattern: a mark, letters, blanks, and characters of any kind. -/
def tagged : Regex :=
  .cat (.set (.single '%')) (.cat (.rep (.set letters) 1 none)
    (.cat (.rep (.set (.property .blank)) 1 none) (.rep (.set anything) 1 none)))

theorem contains_letters (c : Char) : letters.contains c = c.isAlpha := by
  rw [Bool.eq_iff_iff, Text.isAlpha_iff]
  simp only [letters, CharSet.contains, Bool.or_eq_true, Bool.and_eq_true, decide_eq_true_eq]

theorem contains_anything (c : Char) : anything.contains c = true := by
  simp only [anything, CharSet.contains, Bool.or_not_self]

/-- The blanks can be shared between the last two parts in many ways, but the first of them is always
behind the letters. -/
theorem matchesWhole_tagged {text : List Char} :
    tagged.MatchesWhole text ↔
      ∃ word blank rest, text = '%' :: word ++ blank :: rest ∧ word ≠ [] ∧
        (∀ c ∈ word, c.isAlpha = true) ∧ isBlank blank = true ∧ rest ≠ [] := by
  simp only [tagged, Regex.MatchesWhole, matches_cat, matches_set, matches_copies, contains_letters,
    contains_anything, CharSet.contains_single]
  constructor
  · rintro ⟨_, ⟨_, rfl, hmark, rfl⟩, _, ⟨word, hword, hletters, hrest₁, rfl⟩, _,
      ⟨blanks, hblanks, hall, hrest₂, rfl⟩, more, hmore, -, hrest₃, -⟩
    obtain ⟨blank, blanks, rfl⟩ := List.exists_cons_of_ne_nil hblanks
    refine ⟨word, blank, blanks ++ more, ?_, hword, hletters, hall blank List.mem_cons_self,
      List.append_ne_nil_of_right_ne_nil _ hmore⟩
    calc text = text.drop 0 := rfl
      _ = '%' :: (word ++ (blank :: blanks ++ (more ++ text.drop text.length))) := by
        rw [hmark, hrest₁, hrest₂, hrest₃]
      _ = '%' :: word ++ blank :: (blanks ++ more) := by simp
  · rintro ⟨word, blank, rest, rfl, hword, hletters, hblank, hrest⟩
    have hbehind : ('%' :: word ++ blank :: rest).drop (1 + word.length) = blank :: rest :=
      List.drop_left' (Nat.add_comm _ _)
    have hlast : ('%' :: word ++ blank :: rest).drop (1 + word.length + 1) = rest := by
      rw [← List.tail_drop, hbehind, List.tail_cons]
    refine ⟨1, ⟨'%', rfl, rfl, rfl⟩, 1 + word.length, ⟨word, hword, hletters, ?_, rfl⟩,
      1 + word.length + 1, ⟨[blank], List.cons_ne_nil _ _, ?_, ?_, rfl⟩, rest, hrest, ?_, ?_, ?_⟩
    · rw [hbehind]
      rfl
    · exact List.forall_mem_singleton.mpr hblank
    · rw [hbehind, hlast]
      rfl
    · exact fun _ _ => trivial
    · rw [hlast, List.drop_length, List.append_nil]
    · simp only [List.length_append, List.length_cons]
      omega

theorem compile?_default :
    compile? .tabled (Classifier.enclosed (trim Classifier.defaultPattern.toList)) =
      some tagged.enclosed := by
  decide +kernel

end CellReplay.Pattern

namespace CellReplay

open Text

/-- A cell of the default form: a mark, a language of ASCII letters, one blank, and a rest that is not
all blanks. -/
structure Cell.Tagged (raw language rest : String) : Prop where
  spelled : ∃ blank, isBlank blank = true ∧ raw.toList = '%' :: language.toList ++ blank :: rest.toList
  named : language ≠ ""
  letters : ∀ c ∈ language.toList, c.isAlpha = true
  filled : ∃ c ∈ rest.toList, isBlank c = false

/-- The reader of cells finds no blank before the one behind the letters, and no mark among them. -/
theorem Cell.split_letters {word rest : List Char} {blank : Char}
    (hletters : ∀ c ∈ word, c.isAlpha = true) (hblank : isBlank blank = true) :
    Cell.split ('%' :: word ++ blank :: rest) = (word, trim rest) := by
  have hhead : ∀ c ∈ '%' :: word, isBlank c = false :=
    List.forall_mem_cons.mpr ⟨rfl, fun c hc => isBlank_isAlpha (hletters c hc)⟩
  have hmarker : ∀ c ∈ word, decide (c ≠ marker) = true := by
    intro c hc
    refine decide_eq_true fun hmark => ?_
    have halpha := hletters c hc
    rw [hmark] at halpha
    cases halpha
  have hstart : trimStart ('%' :: word ++ blank :: rest) = '%' :: word ++ blank :: rest :=
    List.dropWhile_cons_of_neg (by decide)
  rw [Cell.split, hstart, splitBlank_append hhead hblank]
  change (('%' :: word).filter _, _) = _
  rw [List.filter_cons_of_neg (by decide), List.filter_eq_self.mpr hmarker]

theorem Cell.read_tagged {raw language rest : String} (h : Cell.Tagged raw language rest)
    (field : Option String) :
    Cell.read raw field = {
      language := language
      code := trimmed rest
      sessionId := SessionId.ofField field
      status := if (SessionId.ofField field).isSome then .good else .noNeedForSession } := by
  have hlanguage : language.toList ≠ [] := fun hnil => h.named (String.toList_eq_nil_iff.mp hnil)
  have hcode : trim rest.toList ≠ [] := by
    obtain ⟨c, hc, hvisible⟩ := h.filled
    intro hnil
    rw [trim_eq_nil_iff.mp hnil c hc] at hvisible
    cases hvisible
  obtain ⟨blank, hblank, hraw⟩ := h.spelled
  have hsplit : Cell.split raw.toList = (language.toList, trim rest.toList) :=
    hraw ▸ Cell.split_letters h.letters hblank
  simp [Cell.read, hsplit, hlanguage, hcode, trimmed]

namespace Classifier

theorem accepts_default {raw : String} :
    (ofPattern (some defaultPattern)).accepts raw = true ↔
      Pattern.tagged.MatchesWhole raw.toList := by
  have hregex : (ofPattern (some defaultPattern)).regex = some Pattern.tagged.enclosed :=
    Pattern.compile?_default
  rw [accepts, hregex, Bool.and_eq_true, Option.elim_some,
    Pattern.Regex.isFound_iff (Pattern.compile?_counted Pattern.compile?_default),
    Pattern.Regex.found_enclosed]
  refine ⟨And.right, fun hwhole => ⟨?_, hwhole⟩⟩
  obtain ⟨word, blank, rest, htext, -⟩ := Pattern.matchesWhole_tagged.mp hwhole
  have hne : raw ≠ "" := by
    rintro rfl
    cases htext
  simpa using hne

/-- With the default pattern, a cell becomes a request exactly if it is of the default form, which
also says what the request is. -/
theorem classify_default (raw : String) (field : Option String) (r : Request) :
    (ofPattern (some defaultPattern)).classify raw field = some r ↔
      ∃ language rest, Cell.Tagged raw language rest ∧
        r = {
          language := language
          code := trimmed rest
          sessionId := SessionId.ofField field
          status := if (SessionId.ofField field).isSome then .good else .noNeedForSession } := by
  unfold classify
  constructor
  · intro h
    split at h
    · rename_i haccepts
      obtain ⟨word, blank, rest, htext, hword, hletters, hblank, -⟩ :=
        Pattern.matchesWhole_tagged.mp (accepts_default.mp haccepts)
      have hsplit : Cell.split raw.toList = (word, trim rest) :=
        htext ▸ Cell.split_letters hletters hblank
      -- the pattern also matches a cell that has nothing but blanks behind the language
      have hfilled : ∃ c ∈ rest, isBlank c = false := by
        by_contra hno
        have hall : ∀ c ∈ rest, isBlank c = true := by simpa using hno
        simp [Cell.read, hsplit, trim_eq_nil_iff.mpr hall] at h
      have htagged : Cell.Tagged raw (String.ofList word) (String.ofList rest) := by
        refine ⟨⟨blank, hblank, ?_⟩, ?_, ?_, ?_⟩
        · simpa using htext
        · simpa using hword
        · simpa using hletters
        · simpa using hfilled
      refine ⟨_, _, htagged, ?_⟩
      rw [← Cell.read_tagged htagged]
      dsimp only at h
      split at h <;> cases h
      rfl
    · cases h
  · rintro ⟨language, rest, h, rfl⟩
    obtain ⟨blank, hblank, hraw⟩ := h.spelled
    have haccepts : (ofPattern (some defaultPattern)).accepts raw = true := by
      refine accepts_default.mpr (Pattern.matchesWhole_tagged.mpr
        ⟨language.toList, blank, rest.toList, hraw, ?_, h.letters, hblank, ?_⟩)
      · exact fun hnil => h.named (String.toList_eq_nil_iff.mp hnil)
      · obtain ⟨c, hc, -⟩ := h.filled
        exact List.ne_nil_of_mem hc
    rw [if_pos haccepts, Cell.read_tagged h]
    cases SessionId.ofField field <;> rfl

end Classifier

end CellReplay
