import CellReplay.Pattern.Matching
import Mathlib.Data.Finset.Card
import Mathlib.Data.Finset.Range

/-!
# Proofs.Pattern.Positions

Deciding a match by sets of positions agrees with what matching means.

* `Carries`               — a function on sets of positions follows a relation between positions.
* `Frontier`              — what `upTo` keeps while it collects positions step by step.
* `carries_repeat`        — copies of an expression, up to a bound or without one.
* `carries_after`         — a plan takes a set of positions to those at which the expression ends.
* `isFound_iff`, `isWhole_iff` — the decisions of the matcher.
-/

namespace CellReplay.Pattern

/-- Every position of the set is one of a text of `length` characters. -/
def Fits (length s : Nat) : Prop := ∀ i, s.testBit i = true → i ≤ length

/-- `f` takes a set of positions to the set of those that `R` leads to from one of it. -/
def Carries (length : Nat) (f : Nat → Nat) (R : Nat → Nat → Prop) : Prop :=
  ∀ s, Fits length s → ∀ j, (f s).testBit j = true ↔ ∃ i, s.testBit i = true ∧ R i j

/-- `R` does not lead out of the text. -/
def Inward (length : Nat) (R : Nat → Nat → Prop) : Prop := ∀ i j, i ≤ length → R i j → j ≤ length

section Steps

variable {length m n i j s : Nat} {f : Nat → Nat} {R : Nat → Nat → Prop}

theorem steps_add : Steps R (m + n) i j ↔ ∃ k, Steps R m i k ∧ Steps R n k j := by
  induction m generalizing i with
  | zero => simp [Steps]
  | succ m ih =>
    rw [Nat.succ_add]
    simp only [Steps, ih]
    constructor
    · rintro ⟨a, ha, k, hak, hkj⟩
      exact ⟨k, ⟨a, ha, hak⟩, hkj⟩
    · rintro ⟨k, ⟨a, ha, hak⟩, hkj⟩
      exact ⟨a, ha, k, hak, hkj⟩

theorem steps_mono {P : Nat → Prop} (hP : ∀ i j, P i → R i j → P j) (hi : P i)
    (h : Steps R n i j) : P j := by
  induction n generalizing i with
  | zero => exact h ▸ hi
  | succ n ih =>
    obtain ⟨k, hik, hkj⟩ := h
    exact ih (hP i k hi hik) hkj

theorem Inward.steps (hR : Inward length R) (n : Nat) : Inward length (Steps R n) :=
  fun _ _ hi h => steps_mono (P := (· ≤ length)) (fun _ _ => hR _ _) hi h

theorem Carries.fits (hf : Carries length f R) (hR : Inward length R) (hs : Fits length s) :
    Fits length (f s) := by
  intro j hj
  obtain ⟨i, hi, hij⟩ := (hf s hs j).mp hj
  exact hR i j (hs i hi) hij

theorem carries_times (hf : Carries length f R) (hR : Inward length R) (n : Nat) :
    Carries length (times f n) (Steps R n) := by
  induction n with
  | zero => intro s _ j; simp [times, Steps]
  | succ n ih =>
    intro s hs j
    rw [times]
    split
    · next h => simp [h]
    · rw [ih (f s) (hf.fits hR hs) j]
      constructor
      · rintro ⟨k, hk, hkj⟩
        obtain ⟨i, hi, hik⟩ := (hf s hs k).mp hk
        exact ⟨i, hi, k, hik, hkj⟩
      · rintro ⟨i, hi, k, hik, hkj⟩
        exact ⟨k, (hf s hs k).mpr ⟨i, hi, hik⟩, hkj⟩

end Steps

/-! ## Collecting positions -/

/-- All of `seen` are positions of the text, `new` among them, and `R` leads nowhere else from those
that are not new. -/
structure Frontier (length : Nat) (R : Nat → Nat → Prop) (new seen : Nat) : Prop where
  fits : Fits length seen
  within : ∀ i, new.testBit i = true → seen.testBit i = true
  closed : ∀ i j, seen.testBit i = true → new.testBit i = false → R i j → seen.testBit j = true

/-- The positions of the text that are not in the set. -/
def missing (length s : Nat) : Finset Nat := {i ∈ Finset.range (length + 1) | s.testBit i = false}

section Frontier

variable {length m n i j new seen : Nat} {f : Nat → Nat} {R : Nat → Nat → Prop}

theorem testBit_fresh (next seen i : Nat) :
    (next ^^^ (next &&& seen)).testBit i = (next.testBit i && !seen.testBit i) := by
  rw [Nat.testBit_xor, Nat.testBit_and]
  cases next.testBit i <;> cases seen.testBit i <;> rfl

theorem Frontier.fits_new (h : Frontier length R new seen) : Fits length new :=
  fun i hi => h.fits i (h.within i hi)

/-- One step from what has been seen ends in what has been seen or is fresh. -/
theorem Frontier.step (h : Frontier length R new seen) (hf : Carries length f R)
    (hi : seen.testBit i = true) (hij : R i j) :
    (seen ||| (f new ^^^ (f new &&& seen))).testBit j = true := by
  rw [Nat.testBit_or, testBit_fresh]
  cases hnew : new.testBit i with
  | false => simp [h.closed i j hi hnew hij]
  | true =>
    have : (f new).testBit j = true := (hf new h.fits_new j).mpr ⟨i, hnew, hij⟩
    cases seen.testBit j <;> simp [this]

theorem Frontier.next (h : Frontier length R new seen) (hf : Carries length f R)
    (hR : Inward length R) :
    Frontier length R (f new ^^^ (f new &&& seen)) (seen ||| (f new ^^^ (f new &&& seen))) where
  fits := by
    intro j hj
    rw [Nat.testBit_or, testBit_fresh, Bool.or_eq_true, Bool.and_eq_true] at hj
    rcases hj with hj | ⟨hj, -⟩
    · exact h.fits j hj
    · exact hf.fits hR h.fits_new j hj
  within := fun i hi => by rw [Nat.testBit_or, hi, Bool.or_true]
  closed := by
    intro i j hi hold hij
    rw [Nat.testBit_or, hold, Bool.or_false] at hi
    exact h.step hf hi hij

/-- Where nothing is fresh, `R` leads nowhere else. -/
theorem Frontier.done (h : Frontier length R new seen) (hf : Carries length f R)
    (hfresh : f new ^^^ (f new &&& seen) = 0) (i j : Nat) (hi : seen.testBit i = true)
    (hij : R i j) : seen.testBit j = true := by
  have hj := h.step hf hi hij
  rwa [hfresh, Nat.or_zero] at hj

theorem upTo_sound (hf : Carries length f R) (hR : Inward length R) (h : Frontier length R new seen)
    (hj : (upTo f n new seen).testBit j = true) :
    seen.testBit j = true ∨ ∃ i m, new.testBit i = true ∧ m ≤ n ∧ Steps R m i j := by
  induction n generalizing new seen with
  | zero => exact .inl hj
  | succ n ih =>
    rw [upTo] at hj
    split at hj
    · exact .inl hj
    -- a fresh position is one step behind a new one
    have before {i : Nat} (hi : (f new ^^^ (f new &&& seen)).testBit i = true) :
        ∃ k, new.testBit k = true ∧ R k i := by
      rw [testBit_fresh, Bool.and_eq_true] at hi
      exact (hf new h.fits_new i).mp hi.1
    rcases ih (h.next hf hR) hj with hj | ⟨i, m, hi, hm, hij⟩
    · rw [Nat.testBit_or, Bool.or_eq_true] at hj
      rcases hj with hj | hj
      · exact .inl hj
      · obtain ⟨k, hk, hkj⟩ := before hj
        exact .inr ⟨k, 1, hk, by omega, j, hkj, rfl⟩
    · obtain ⟨k, hk, hki⟩ := before hi
      exact .inr ⟨k, m + 1, hk, by omega, i, hki, hij⟩

theorem upTo_complete (hf : Carries length f R) (hR : Inward length R)
    (h : Frontier length R new seen) (hi : seen.testBit i = true) (hm : m ≤ n)
    (hij : Steps R m i j) : (upTo f n new seen).testBit j = true := by
  induction n generalizing new seen m i with
  | zero =>
    obtain rfl : m = 0 := by omega
    exact hij ▸ hi
  | succ n ih =>
    rw [upTo]
    split
    · next hfresh => exact steps_mono (h.done hf hfresh) hi hij
    · cases m with
      | zero =>
        have hseen : (seen ||| (f new ^^^ (f new &&& seen))).testBit i = true := by
          rw [Nat.testBit_or, hi, Bool.true_or]
        exact ih (h.next hf hR) hseen (Nat.zero_le n) hij
      | succ m =>
        obtain ⟨k, hik, hkj⟩ := hij
        exact ih (h.next hf hR) (h.step hf hi hik) (by omega) hkj

theorem card_missing_lt (seen : Nat) (hfits : Fits length new) (hne : new ≠ 0)
    (hnew : ∀ i, new.testBit i = true → seen.testBit i = false) :
    (missing length (seen ||| new)).card < (missing length seen).card := by
  obtain ⟨i, hi⟩ := Nat.exists_testBit_of_ne_zero hne
  refine Finset.card_lt_card ((Finset.ssubset_iff_of_subset ?_).mpr ⟨i, ?_, ?_⟩)
  · intro j hj
    simp only [missing, Finset.mem_filter, Nat.testBit_or, Bool.or_eq_false_iff] at hj ⊢
    exact ⟨hj.1, hj.2.1⟩
  · have := hfits i hi
    simp only [missing, Finset.mem_filter, Finset.mem_range]
    exact ⟨by omega, hnew i hi⟩
  · simp [missing, hi]

/-- Each round collects a position or is the last: with as many rounds as positions are missing,
`R` leads nowhere else in the end. -/
theorem upTo_closed (hf : Carries length f R) (hR : Inward length R) (h : Frontier length R new seen)
    (hn : (missing length seen).card ≤ n) (i j : Nat)
    (hi : (upTo f n new seen).testBit i = true) (hij : R i j) :
    (upTo f n new seen).testBit j = true := by
  induction n generalizing new seen with
  | zero =>
    have hall : missing length seen = ∅ := Finset.card_eq_zero.mp (by omega)
    have hj : j ∈ Finset.range (length + 1) :=
      Finset.mem_range.mpr (Nat.lt_succ_of_le (hR i j (h.fits i hi) hij))
    have := Finset.filter_eq_empty_iff.mp hall hj
    exact Bool.not_eq_false _ |>.mp this
  | succ n ih =>
    rw [upTo] at hi ⊢
    split at hi
    · next hfresh =>
      rw [if_pos hfresh]
      exact h.done hf hfresh i j hi hij
    · next hfresh =>
      rw [if_neg hfresh]
      refine ih (h.next hf hR) ?_ hi
      have := card_missing_lt seen
        (fun i hi => (h.next hf hR).fits i ((h.next hf hR).within i hi)) hfresh
        (fun i hi => by rw [testBit_fresh, Bool.and_eq_true, Bool.not_eq_true'] at hi; exact hi.2)
      omega

theorem frontier_refl (hs : Fits length new) : Frontier length R new new where
  fits := hs
  within := fun _ h => h
  closed := fun i _ hi hn => by rw [hn] at hi; cases hi

theorem carries_upTo (hf : Carries length f R) (hR : Inward length R) (n : Nat) :
    Carries length (fun s => upTo f n s s) (fun i j => ∃ m ≤ n, Steps R m i j) := by
  intro s hs j
  constructor
  · intro hj
    rcases upTo_sound hf hR (frontier_refl hs) hj with hj | ⟨i, m, hi, hm, hij⟩
    · exact ⟨j, hj, 0, Nat.zero_le n, rfl⟩
    · exact ⟨i, hi, m, hm, hij⟩
  · rintro ⟨i, hi, m, hm, hij⟩
    exact upTo_complete hf hR (frontier_refl hs) hi hm hij

theorem card_missing_le (length s : Nat) : (missing length s).card ≤ length + 1 := by
  simpa [missing] using
    Finset.card_filter_le (Finset.range (length + 1)) fun i => s.testBit i = false

theorem carries_upTo_length (hf : Carries length f R) (hR : Inward length R) :
    Carries length (fun s => upTo f (length + 1) s s) (fun i j => ∃ m, Steps R m i j) := by
  intro s hs j
  rw [carries_upTo hf hR (length + 1) s hs j]
  constructor
  · rintro ⟨i, hi, m, -, hij⟩
    exact ⟨i, hi, m, hij⟩
  · rintro ⟨i, hi, m, hij⟩
    have hstart : (upTo f (length + 1) s s).testBit i = true :=
      upTo_complete hf hR (frontier_refl hs) hi (Nat.zero_le _) rfl
    have hclosed := upTo_closed hf hR (frontier_refl hs) (card_missing_le length s)
    exact (carries_upTo hf hR (length + 1) s hs j).mp (steps_mono hclosed hstart hij)

/-- Copies of what `f` follows: at least `min`, and at most `max` if there is a bound. -/
theorem carries_repeat (hf : Carries length f R) (hR : Inward length R) {min : Nat}
    {max : Option Nat} (hmax : ∀ m ∈ max, min ≤ m) :
    Carries length
      (fun s => upTo f (max.elim (length + 1) (· - min)) (times f min s) (times f min s))
      (fun i j => ∃ n, min ≤ n ∧ (∀ m ∈ max, n ≤ m) ∧ Steps R n i j) := by
  intro s hs j
  have hfirst : Fits length (times f min s) := (carries_times hf hR min).fits (hR.steps min) hs
  have reach (i : Nat) : (times f min s).testBit i = true ↔ ∃ k, s.testBit k = true ∧ Steps R min k i :=
    carries_times hf hR min s hs i
  cases max with
  | none =>
    rw [Option.elim_none, carries_upTo_length hf hR _ hfirst j]
    constructor
    · rintro ⟨i, hi, m, hij⟩
      obtain ⟨k, hk, hki⟩ := (reach i).mp hi
      exact ⟨k, hk, min + m, by omega, by simp, steps_add.mpr ⟨i, hki, hij⟩⟩
    · rintro ⟨k, hk, n, hn, -, hkj⟩
      obtain ⟨m, rfl⟩ := Nat.exists_eq_add_of_le hn
      obtain ⟨i, hki, hij⟩ := steps_add.mp hkj
      exact ⟨i, (reach i).mpr ⟨k, hk, hki⟩, m, hij⟩
  | some last =>
    have hlast : min ≤ last := hmax last rfl
    rw [Option.elim_some, carries_upTo hf hR (last - min) _ hfirst j]
    constructor
    · rintro ⟨i, hi, m, hm, hij⟩
      obtain ⟨k, hk, hki⟩ := (reach i).mp hi
      refine ⟨k, hk, min + m, by omega, ?_, steps_add.mpr ⟨i, hki, hij⟩⟩
      rintro _ ⟨⟩
      omega
    · rintro ⟨k, hk, n, hn, hle, hkj⟩
      obtain ⟨m, rfl⟩ := Nat.exists_eq_add_of_le hn
      obtain ⟨i, hki, hij⟩ := steps_add.mp hkj
      have := hle last rfl
      exact ⟨i, (reach i).mpr ⟨k, hk, hki⟩, m, by omega, hij⟩

end Frontier

/-! ## Expressions -/

theorem testBit_positionsFrom (test : Option Char → Option Char → Bool) (before : Option Char)
    (text : List Char) (i : Nat) :
    (positionsFrom test before text).testBit i =
      (decide (i ≤ text.length) && test (if i = 0 then before else text[i - 1]?) text[i]?) := by
  induction text generalizing before i with
  | nil =>
    cases i with
    | zero => cases h : test before none <;> simp [positionsFrom, h]
    | succ i => cases h : test before none <;> simp [positionsFrom, h, Nat.testBit_succ]
  | cons c cs ih =>
    cases i with
    | zero => cases h : test before (some c) <;> simp [positionsFrom, h, Nat.testBit_zero]
    | succ i =>
      have hhalf : ((test before (some c)).toNat + 2 * positionsFrom test (some c) cs) / 2 =
          positionsFrom test (some c) cs := by
        cases test before (some c) <;> simp; omega
      rw [positionsFrom, Nat.testBit_succ, hhalf, ih (some c) i]
      cases i <;> simp

theorem testBit_positions (test : Option Char → Option Char → Bool) (text : List Char) (i : Nat) :
    (positionsFrom test none text).testBit i =
      (decide (i ≤ text.length) && test (charBefore text i) text[i]?) := by
  rw [testBit_positionsFrom]
  cases i <;> rfl

namespace Regex

/-- The bounds of every repetition are in order. -/
def Counted : Regex → Prop
  | .empty | .set _ | .look _ => True
  | .cat r s | .alt r s => r.Counted ∧ s.Counted
  | .rep r min max => r.Counted ∧ ∀ m ∈ max, min ≤ m

variable {r : Regex} {text : List Char}

theorem inward_matches (r : Regex) (text : List Char) : Inward text.length (r.Matches text) := by
  induction r with
  | empty => intro i j hi h; exact h ▸ hi
  | set s =>
    rintro i j hi ⟨rfl, c, hc, -⟩
    exact Nat.succ_le_of_lt (List.getElem?_eq_some_iff.mp hc).1
  | look l => rintro i j hi ⟨rfl, -, -⟩; exact hi
  | cat r s ihr ihs => rintro i j hi ⟨k, hik, hkj⟩; exact ihs k j (ihr i k hi hik) hkj
  | alt r s ihr ihs => intro i j hi h; exact h.elim (ihr i j hi) (ihs i j hi)
  | rep r min max ih => rintro i j hi ⟨n, -, -, h⟩; exact ih.steps n i j hi h

theorem carries_after (text : List Char) (hr : r.Counted) :
    Carries text.length ((r.plan text).after text.length) (r.Matches text) := by
  induction r with
  | empty => intro s _ j; simp [plan, Plan.after, Matches]
  | set t =>
    intro s hs j
    simp only [plan, Plan.after, Matches, Nat.testBit_shiftLeft, Nat.testBit_and, Bool.and_eq_true,
      decide_eq_true_eq, testBit_positions]
    constructor
    · rintro ⟨hj, hi, -, hc⟩
      refine ⟨j - 1, hi, by omega, ?_⟩
      cases h : text[j - 1]? with
      | none => simp [h] at hc
      | some c => exact ⟨c, rfl, by simpa [h] using hc⟩
    · rintro ⟨i, hi, rfl, c, hc, hin⟩
      simpa [hi, hc] using ⟨hs i hi, hin⟩
  | look l =>
    intro s _ j
    simp only [plan, Plan.after, Matches, Nat.testBit_and, Bool.and_eq_true, decide_eq_true_eq,
      testBit_positions]
    constructor
    · rintro ⟨hj, hle, hl⟩
      exact ⟨j, hj, rfl, hle, hl⟩
    · rintro ⟨i, hi, rfl, hle, hl⟩
      exact ⟨hi, hle, hl⟩
  | cat r t ihr iht =>
    intro s hs j
    simp only [plan, Plan.after, Matches]
    rw [iht hr.2 _ ((ihr hr.1).fits (inward_matches r text) hs) j]
    constructor
    · rintro ⟨k, hk, hkj⟩
      obtain ⟨i, hi, hik⟩ := (ihr hr.1 s hs k).mp hk
      exact ⟨i, hi, k, hik, hkj⟩
    · rintro ⟨i, hi, k, hik, hkj⟩
      exact ⟨k, (ihr hr.1 s hs k).mpr ⟨i, hi, hik⟩, hkj⟩
  | alt r t ihr iht =>
    intro s hs j
    simp only [plan, Plan.after, Matches, Nat.testBit_or, Bool.or_eq_true, ihr hr.1 s hs j,
      iht hr.2 s hs j, ← exists_or, ← and_or_left]
  | rep r min max ih => exact carries_repeat (ih hr.1) (inward_matches r text) hr.2

theorem isFound_iff (hr : r.Counted) : r.isFound text = true ↔ r.Found text := by
  have hall (i : Nat) : (1 <<< (text.length + 1) - 1).testBit i = true ↔ i ≤ text.length := by
    rw [Nat.one_shiftLeft, Nat.testBit_two_pow_sub_one, decide_eq_true_eq, Nat.lt_succ_iff]
  have hafter := carries_after text hr _ fun i => (hall i).mp
  rw [isFound, decide_eq_true_eq]
  constructor
  · intro h
    obtain ⟨j, hj⟩ := Nat.exists_testBit_of_ne_zero h
    obtain ⟨i, hi, hij⟩ := (hafter j).mp hj
    exact ⟨i, j, (hall i).mp hi, hij⟩
  · rintro ⟨i, j, hi, hij⟩ hzero
    have hj := (hafter j).mpr ⟨i, (hall i).mpr hi, hij⟩
    rw [hzero, Nat.zero_testBit] at hj
    cases hj

theorem isWhole_iff (hr : r.Counted) : r.isWhole text = true ↔ r.MatchesWhole text := by
  have hone : Fits text.length 1 := fun i hi => by
    rw [Nat.testBit_one_eq_true_iff_self_eq_zero] at hi
    omega
  rw [isWhole, carries_after text hr 1 hone]
  simp only [Nat.testBit_one_eq_true_iff_self_eq_zero, exists_eq_left, MatchesWhole]

end Regex

end CellReplay.Pattern
