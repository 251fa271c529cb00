import CellReplay.Text.Blank
import Mathlib.Data.List.TakeWhile

/-!
# Proofs.Text.Blanks

What trimming leaves, and where the first blank splits a text.

* `trim_eq_nil_iff`   — nothing is left exactly of a text of blanks.
* `splitBlank_append` — a word, a blank and the rest behind it are split at that blank.
* `takeWhile_append_inside`, `takeWhile_append_stop` — where a text stops, in it or where another begins.
* `Trimmed`           — a text without blanks at its ends: what trimming leaves, and leaves alone.
* `trim_blanks_append`, `trim_append_blanks`, `splitBlank_append_blanks` — blanks that are added at an
  end of a text do not matter.
-/

namespace CellReplay.Text

theorem isAlpha_iff {c : Char} : c.isAlpha = true ↔ 'A' ≤ c ∧ c ≤ 'Z' ∨ 'a' ≤ c ∧ c ≤ 'z' := by
  have hranges : c.isAlpha = (decide ('A'.val ≤ c.val ∧ c.val ≤ 'Z'.val) ||
    (decide ('a'.val ≤ c.val) && decide (c.val ≤ 'z'.val))) := rfl
  simp only [hranges, Bool.or_eq_true, Bool.and_eq_true, decide_eq_true_eq]
  rfl

theorem isBlank_isAlpha {c : Char} (h : c.isAlpha = true) : isBlank c = false := by
  have hbounds : (65 ≤ c.toNat ∧ c.toNat ≤ 90) ∨ (97 ≤ c.toNat ∧ c.toNat ≤ 122) := isAlpha_iff.mp h
  simp only [isBlank, Bool.or_eq_false_iff, Bool.and_eq_false_iff, decide_eq_false_iff_not,
    beq_eq_false_iff_ne]
  omega

theorem trim_eq_nil_iff {cs : List Char} : trim cs = [] ↔ ∀ c ∈ cs, isBlank c = true := by
  rw [trim, trimEnd, List.reverse_eq_nil_iff, List.dropWhile_eq_nil_iff]
  simp only [List.mem_reverse]
  constructor
  · intro h c hc
    rw [← List.takeWhile_append_dropWhile (p := isBlank) (l := cs)] at hc
    rcases List.mem_append.mp hc with hc | hc
    · exact List.mem_takeWhile_imp hc
    · exact h c hc
  · exact fun h c hc => h c ((List.dropWhile_sublist _).subset hc)

theorem splitBlank_append {word rest : List Char} {blank : Char}
    (hword : ∀ c ∈ word, isBlank c = false) (hblank : isBlank blank = true) :
    splitBlank (word ++ blank :: rest) = (word, rest) := by
  have hinside : ∀ c ∈ word, (!isBlank c) = true := by simpa using hword
  simp [splitBlank, List.takeWhile_append_of_pos hinside, List.dropWhile_append_of_pos hinside,
    hblank]

/-! ## Texts put together -/

section

variable {p : Char → Bool} {cs rest : List Char}

theorem takeWhile_append_inside (h : cs.dropWhile p ≠ []) (rest : List Char) :
    (cs ++ rest).takeWhile p = cs.takeWhile p := by
  rw [List.takeWhile_append, if_neg]
  intro hlength
  have hwhole := (List.takeWhile_prefix p).eq_of_length hlength
  exact h (List.dropWhile_eq_nil_iff.mpr (List.takeWhile_eq_self_iff.mp hwhole))

theorem dropWhile_append_inside (h : cs.dropWhile p ≠ []) (rest : List Char) :
    (cs ++ rest).dropWhile p = cs.dropWhile p ++ rest := by
  rw [List.dropWhile_append, if_neg (by rwa [List.isEmpty_iff])]

variable (h : ∀ c ∈ rest.head?, p c = false)
include h

theorem takeWhile_append_stop (w : List Char) : (w ++ rest).takeWhile p = w.takeWhile p := by
  induction w with
  | nil =>
    cases rest with
    | nil => rfl
    | cons c rest => exact List.takeWhile_cons_of_neg (by simp [h c rfl])
  | cons c w ih => rw [List.cons_append, List.takeWhile_cons, List.takeWhile_cons, ih]

theorem dropWhile_append_stop (w : List Char) :
    (w ++ rest).dropWhile p = w.dropWhile p ++ rest := by
  induction w with
  | nil =>
    cases rest with
    | nil => rfl
    | cons c rest => exact List.dropWhile_cons_of_neg (by simp [h c rfl])
  | cons c w ih =>
    rw [List.cons_append, List.dropWhile_cons, List.dropWhile_cons, ih]
    split <;> rfl

end

/-! ## Blanks at the ends -/

variable {cs before after : List Char}

/-- No blank at either end. -/
structure Trimmed (cs : List Char) : Prop where
  first : ∀ c ∈ cs.head?, isBlank c = false
  last : ∀ c ∈ cs.getLast?, isBlank c = false

theorem head?_trimStart (cs : List Char) : ∀ c ∈ (trimStart cs).head?, isBlank c = false := by
  intro c hc
  have hhead := List.head?_dropWhile_not isBlank cs
  rw [trimStart] at hc
  rw [Option.mem_def.mp hc] at hhead
  exact hhead

theorem trimStart_eq_self (h : ∀ c ∈ cs.head?, isBlank c = false) : trimStart cs = cs := by
  cases cs with
  | nil => rfl
  | cons c cs => exact List.dropWhile_cons_of_neg (by simp [h c rfl])

theorem trimEnd_eq_self (h : ∀ c ∈ cs.getLast?, isBlank c = false) : trimEnd cs = cs := by
  have hback : trimStart cs.reverse = cs.reverse :=
    trimStart_eq_self (by rwa [List.head?_reverse])
  rw [trimStart] at hback
  rw [trimEnd, hback, List.reverse_reverse]

theorem trimEnd_prefix (cs : List Char) : trimEnd cs <+: cs := by
  rw [← List.reverse_suffix, trimEnd, List.reverse_reverse]
  exact List.dropWhile_suffix _

theorem trimmed_trim (cs : List Char) : Trimmed (trim cs) := by
  refine ⟨fun c hc => ?_, fun c hc => ?_⟩
  · -- what is left of a text begins as the text did, if anything is left
    obtain ⟨rest, hrest⟩ := trimEnd_prefix (trimStart cs)
    refine head?_trimStart cs c ?_
    have hleft : (trimEnd (trimStart cs)).head? = some c := hc
    rw [← hrest, List.head?_append, hleft]
    rfl
  · rw [trim, trimEnd, List.getLast?_reverse] at hc
    exact head?_trimStart _ c hc

theorem Trimmed.trim_eq (h : Trimmed cs) : trim cs = cs := by
  rw [trim, trimStart_eq_self h.first, trimEnd_eq_self h.last]

theorem trimStart_append (h : ∀ c ∈ before, isBlank c = true) (cs : List Char) :
    trimStart (before ++ cs) = trimStart cs := List.dropWhile_append_of_pos h

theorem trimEnd_append (h : ∀ c ∈ after, isBlank c = true) (cs : List Char) :
    trimEnd (cs ++ after) = trimEnd cs := by
  rw [trimEnd, List.reverse_append,
    List.dropWhile_append_of_pos fun c hc => h c (List.mem_reverse.mp hc), trimEnd]

theorem trim_blanks_append (h : ∀ c ∈ before, isBlank c = true) (cs : List Char) :
    trim (before ++ cs) = trim cs := by rw [trim, trimStart_append h, trim]

theorem trimStart_append_of_ne {cs : List Char} (h : trimStart cs ≠ []) (after : List Char) :
    trimStart (cs ++ after) = trimStart cs ++ after := dropWhile_append_inside h after

theorem trim_append_blanks (h : ∀ c ∈ after, isBlank c = true) (cs : List Char) :
    trim (cs ++ after) = trim cs := by
  by_cases hnil : trimStart cs = []
  · have hall : ∀ c ∈ cs ++ after, isBlank c = true :=
      List.forall_mem_append.mpr ⟨List.dropWhile_eq_nil_iff.mp hnil, h⟩
    rw [trim_eq_nil_iff.mpr hall, trim_eq_nil_iff.mpr (List.dropWhile_eq_nil_iff.mp hnil)]
  · rw [trim, trimStart_append_of_ne hnil, trimEnd_append h, trim]

/-- Blanks at the end of a text do not change its first word, nor what trimming leaves of the rest. -/
theorem splitBlank_append_blanks (h : ∀ c ∈ after, isBlank c = true) (cs : List Char) :
    (splitBlank (cs ++ after)).1 = (splitBlank cs).1 ∧
      trim (splitBlank (cs ++ after)).2 = trim (splitBlank cs).2 := by
  have hall : ∀ c ∈ after, (!isBlank c) = false := by simpa using h
  have hstop : ∀ c ∈ after.head?, (!isBlank c) = false :=
    fun c hc => hall c (List.mem_of_mem_head? hc)
  have htake : after.takeWhile (!isBlank ·) = [] := takeWhile_append_stop hstop []
  have hdrop : after.dropWhile (!isBlank ·) = after := dropWhile_append_stop hstop []
  by_cases hword : cs.dropWhile (!isBlank ·) = []
  · -- there is no blank before those at the end, so nothing but blanks comes behind the word
    have hinside : ∀ c ∈ cs, (!isBlank c) = true := List.dropWhile_eq_nil_iff.mp hword
    have hblanks : ∀ c ∈ after.drop 1, isBlank c = true := fun c hc => h c (List.mem_of_mem_drop hc)
    simp only [splitBlank, List.takeWhile_append_of_pos hinside,
      List.dropWhile_append_of_pos hinside, htake, hdrop, List.append_nil, hword]
    refine ⟨(List.takeWhile_eq_self_iff.mpr hinside).symm, ?_⟩
    rw [trim_eq_nil_iff.mpr hblanks]
    rfl
  · obtain ⟨c, rest, hrest⟩ := List.exists_cons_of_ne_nil hword
    rw [splitBlank, splitBlank, takeWhile_append_inside hword, dropWhile_append_inside hword, hrest]
    exact ⟨rfl, trim_append_blanks h rest⟩

end CellReplay.Text
