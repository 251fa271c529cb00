import CellReplay.Session

/-!
# Proofs.Text.Digits

Decimal numerals that are written are read back.

* `toDigits_head`       — a numeral begins with a zero only if it is one.
* `readDigits_eq`       — digits are read within bounds as the number that they stand for.
* `readInt_decimalInt`  — an integer within bounds is read back from its text.
* `SessionId.ofField_text` — so is the number of a session.
-/

namespace CellReplay.Text

/-! ## The digits of a number -/

theorem isDigit_iff {c : Char} : c.isDigit = true ↔ '0' ≤ c ∧ c ≤ '9' := by
  rw [Char.isDigit, Bool.and_eq_true, decide_eq_true_eq, decide_eq_true_eq]
  exact Iff.rfl

theorem isDigit_toDigits {n : Nat} {c : Char} (h : c ∈ Nat.toDigits 10 n) : c.isDigit = true :=
  Nat.isDigit_of_mem_toDigits (by decide) (by decide) h

theorem head?_toDigits {n : Nat} (hn : 0 < n) : (Nat.toDigits 10 n).head? ≠ some '0' := by
  induction n using Nat.strongRecOn with
  | ind n ih =>
    rw [Nat.toDigits_eq_if (by decide)]
    split
    · simpa using Nat.ne_of_gt hn
    · next hle =>
      have hhead := ih (n / 10) (by omega) (by omega)
      have hne : Nat.toDigits 10 (n / 10) ≠ [] := Nat.toDigits_ne_nil
      obtain ⟨c, cs, hcs⟩ := List.exists_cons_of_ne_nil hne
      rw [hcs] at hhead ⊢
      exact hhead

theorem toDigits_head {n : Nat} (h : (Nat.toDigits 10 n).head? = some '0') :
    (Nat.toDigits 10 n).length = 1 := by
  by_cases hn : 0 < n
  · exact absurd h (head?_toDigits hn)
  · rw [Nat.eq_zero_of_not_pos hn]
    rfl

/-- More digits never make a smaller number. -/
theorem le_ofDigitChars (cs : List Char) (n : Nat) : n ≤ Nat.ofDigitChars 10 cs n := by
  induction cs generalizing n with
  | nil => exact Nat.le_refl n
  | cons c cs ih =>
    rw [Nat.ofDigitChars_cons]
    exact Nat.le_trans (by omega) (ih _)

/-! ## Reading -/

theorem digitValue?_isDigit {c : Char} (h : c.isDigit = true) :
    digitValue? c = some (c.toNat - '0'.toNat) := by
  rw [digitValue?, if_pos (isDigit_iff.mp h)]

theorem readDigits_eq {bound n : Nat} {excess : IntegerError} {cs : List Char}
    (hd : ∀ c ∈ cs, c.isDigit = true) (hb : Nat.ofDigitChars 10 cs n ≤ bound) :
    readDigits bound excess n cs = .ok (Nat.ofDigitChars 10 cs n) := by
  induction cs generalizing n with
  | nil => rfl
  | cons c cs ih =>
    rw [Nat.ofDigitChars_cons, Nat.mul_comm] at hb ⊢
    have hnext : n * 10 + (c.toNat - '0'.toNat) ≤ bound :=
      Nat.le_trans (le_ofDigitChars cs _) hb
    simp only [readDigits, digitValue?_isDigit (hd c (List.mem_cons_self ..))]
    rw [if_pos hnext]
    exact ih (fun x hx => hd x (List.mem_cons_of_mem _ hx)) hb

theorem readDigits_toDigits {bound n : Nat} (excess : IntegerError) (h : n ≤ bound) :
    readDigits bound excess 0 (Nat.toDigits 10 n) = .ok n := by
  rw [readDigits_eq (fun c hc => isDigit_toDigits hc) (by rwa [Nat.ofDigitChars_ten_toDigits]),
    Nat.ofDigitChars_ten_toDigits]

theorem readInt_of_isDigit {bound : Nat} {c : Char} (cs : List Char) (h : c.isDigit = true) :
    readInt bound (c :: cs) =
      (readDigits bound .tooLarge 0 (c :: cs)).map fun n : Nat => (n : Int) := by
  unfold readInt
  split
  · next he => cases he
  · next he => cases he; cases h
  · next he => cases he; cases h
  · next he => cases he; cases h
  · next he => cases he; cases h
  · rfl

theorem readInt_minus {bound : Nat} {cs : List Char} (h : cs ≠ []) :
    readInt bound ('-' :: cs) =
      (readDigits (bound + 1) .tooSmall 0 cs).map fun n : Nat => -(n : Int) := by
  cases cs with
  | nil => exact absurd rfl h
  | cons c cs => rfl

theorem toList_decimalInt_ofNat (n : Nat) : (decimalInt (.ofNat n)).toList = Nat.toDigits 10 n :=
  String.toList_ofList

theorem toList_decimalInt_negSucc (n : Nat) :
    (decimalInt (.negSucc n)).toList = '-' :: Nat.toDigits 10 (n + 1) := by
  rw [decimalInt, String.toList_append, decimal]
  exact congrArg ('-' :: ·) String.toList_ofList

theorem readInt_decimalInt {bound : Nat} {n : Int} (hl : -((bound : Int) + 1) ≤ n)
    (hu : n ≤ bound) : readInt bound (decimalInt n).toList = .ok n := by
  cases n with
  | ofNat n =>
    rw [toList_decimalInt_ofNat]
    have hn : n ≤ bound := Int.ofNat_le.mp hu
    have hne : Nat.toDigits 10 n ≠ [] := Nat.toDigits_ne_nil
    obtain ⟨c, cs, hcs⟩ := List.exists_cons_of_ne_nil hne
    have hmem : c ∈ Nat.toDigits 10 n := by rw [hcs]; exact List.mem_cons_self ..
    have hc : c.isDigit = true := isDigit_toDigits hmem
    rw [hcs, readInt_of_isDigit cs hc, ← hcs, readDigits_toDigits _ hn]
    rfl
  | negSucc n =>
    rw [toList_decimalInt_negSucc, readInt_minus Nat.toDigits_ne_nil,
      readDigits_toDigits _ (by omega)]
    rfl

/-! ## Blanks -/

theorem isBlank_isDigit {c : Char} (h : c.isDigit = true) : isBlank c = false := by
  obtain ⟨hl, hu⟩ := isDigit_iff.mp h
  have hl : 48 ≤ c.toNat := hl
  have hu : c.toNat ≤ 57 := hu
  simp only [isBlank, Bool.or_eq_false_iff, Bool.and_eq_false_iff, decide_eq_false_iff_not,
    beq_eq_false_iff_ne]
  omega

theorem isBlank_decimalInt {n : Int} {c : Char} (h : c ∈ (decimalInt n).toList) :
    isBlank c = false := by
  cases n with
  | ofNat n =>
    rw [toList_decimalInt_ofNat] at h
    exact isBlank_isDigit (isDigit_toDigits h)
  | negSucc n =>
    rw [toList_decimalInt_negSucc] at h
    cases h with
    | head => rfl
    | tail _ h => exact isBlank_isDigit (isDigit_toDigits h)

theorem trim_eq_self {cs : List Char} (h : ∀ c ∈ cs, isBlank c = false) : trim cs = cs := by
  have hstart (ds : List Char) (hd : ∀ c ∈ ds, isBlank c = false) : ds.dropWhile isBlank = ds := by
    cases ds with
    | nil => rfl
    | cons d ds => rw [List.dropWhile_cons_of_neg (by simp [hd d (List.mem_cons_self ..)])]
  rw [trim, trimStart, hstart cs h, trimEnd,
    hstart cs.reverse fun c hc => h c (List.mem_reverse.mp hc), List.reverse_reverse]

end CellReplay.Text

namespace CellReplay.SessionId

open Text

theorem read_eq {cs : List Char} {i : SessionId} (h : readInt maxInt64 cs = .ok i.val) :
    read cs = .ok i := by
  unfold read
  split
  · next n hn =>
    rw [h] at hn
    cases hn
    rfl
  · next e he =>
    rw [h] at he
    cases he

theorem ofField_text (i : SessionId) : ofField (some i.text) = some i := by
  have hread : readInt maxInt64 (decimalInt i.val).toList = .ok i.val :=
    readInt_decimalInt i.lower i.upper
  rw [ofField, Option.bind_some, text, trim_eq_self fun c hc => isBlank_decimalInt hc,
    read_eq hread]
  rfl

end CellReplay.SessionId
