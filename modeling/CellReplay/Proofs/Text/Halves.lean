import CellReplay.Proofs.Text.Encoding

/-!
# Proofs.Text.Halves

Characters whose bytes have come in part.

* `Begun`        — some but not all bytes of the first character of a text.
* `exists_begun` — the first bytes of a text are whole characters, and perhaps one that is begun.
* `Begun.not_whole` — what is missing of a begun character is not the beginning of a text.
* `Begun.broken` — bytes of another text behind a begun character break it.
-/

namespace CellReplay.Text.Utf8

variable {c : Char} {cs ds : List Char} {p : Option Pending} {h v bs : List UInt8}

/-- The first character of a text has been begun: some of its bytes are there and some are missing. -/
def Begun (h : List UInt8) (cs : List Char) : Prop :=
  h ≠ [] ∧ ∃ c ∈ cs.head?, ∃ v, v ≠ [] ∧ String.utf8EncodeChar c = h ++ v

/-- The first bytes of a text are those of whole characters, and perhaps of one that is begun. -/
theorem exists_begun (hcs : encode cs = bs ++ v) :
    ∃ ds h es, cs = ds ++ es ∧ bs = encode ds ++ h ∧ encode es = h ++ v ∧ (h = [] ∨ Begun h es) := by
  induction cs generalizing bs with
  | nil =>
    obtain ⟨rfl, rfl⟩ := List.append_eq_nil_iff.mp hcs.symm
    exact ⟨[], [], [], rfl, rfl, rfl, .inl rfl⟩
  | cons c cs ih =>
    rw [encode_cons] at hcs
    rcases List.append_eq_append_iff.mp hcs with ⟨rest, rfl, hrest⟩ | ⟨missing, hc, hv⟩
    · -- the character is whole
      obtain ⟨ds, h, es, rfl, rfl, hes, hh⟩ := ih hrest
      exact ⟨c :: ds, h, es, rfl, by rw [encode_cons, List.append_assoc], hes, hh⟩
    · by_cases hbs : bs = []
      · subst hbs
        exact ⟨[], [], c :: cs, rfl, rfl, by rw [encode_cons, hc, hv, List.append_assoc], .inl rfl⟩
      by_cases hmissing : missing = []
      · subst hmissing
        rw [List.append_nil] at hc
        rw [List.nil_append] at hv
        exact ⟨[c], [], cs, rfl, by rw [encode_cons, hc, encode_nil, List.append_nil, List.append_nil], hv.symm, .inl rfl⟩
      · refine ⟨[], bs, c :: cs, rfl, rfl, by rw [encode_cons, hc, hv, List.append_assoc], .inr ?_⟩
        exact ⟨hbs, c, rfl, missing, hmissing, hc⟩

theorem after_bounds {b : Nat} {q : Pending} (fits : Pending.after p b = some q)
    (owed : q.owed ≠ 0) : 0x80 ≤ q.low ∧ q.high ≤ 0xBF := by
  cases p with
  | none =>
    rcases ofFirst_cases fits with ⟨-, rfl⟩ | ⟨-, rfl⟩ | ⟨-, rfl⟩ | ⟨-, rfl⟩
    · exact absurd rfl owed
    · exact ⟨Nat.le_refl _, Nat.le_refl _⟩
    · dsimp only
      split <;> split <;> omega
    · dsimp only
      split <;> split <;> omega
  | some p =>
    simp only [Pending.after, Pending.next] at fits
    split at fits
    · cases fits
      exact ⟨Nat.le_refl _, Nat.le_refl _⟩
    · cases fits

/-- Behind the bytes that are there, the missing ones are pending. -/
theorem exists_pending (hc : Leads p (h ++ v) c) (hh : h ≠ []) (hv : v ≠ []) :
    ∃ q : Pending, 0x80 ≤ q.low ∧ q.high ≤ 0xBF ∧ Leads (some q) v c ∧
      ∀ rest, decodeFrom p (h ++ rest) = decodeFrom (some q) rest := by
  induction h generalizing p with
  | nil => exact absurd rfl hh
  | cons b h ih =>
    rw [List.cons_append] at hc
    generalize hbs : h ++ v = bs at hc
    cases hc with
    | last => exact absurd (List.append_eq_nil_iff.mp hbs).2 hv
    | @more _ _ _ q _ fits owed rest =>
      subst hbs
      have hstep (rest : List UInt8) :
          decodeFrom p (b :: h ++ rest) = decodeFrom (some q) (h ++ rest) := by
        rw [List.cons_append, decodeFrom, step_of_after fits, if_neg owed]
        rfl
      by_cases hh : h = []
      · subst hh
        exact ⟨q, (after_bounds fits owed).1, (after_bounds fits owed).2, rest, hstep⟩
      · obtain ⟨q', hlow, hhigh, hleads, hrest⟩ := ih rest hh
        exact ⟨q', hlow, hhigh, hleads, fun rest => by rw [hstep, hrest]⟩

/-- A text does not begin with a byte that goes on with a character. -/
theorem first_encode {b : UInt8} (hcs : encode cs = b :: bs) : b.toNat < 0x80 ∨ 0xBF < b.toNat := by
  cases cs with
  | nil => cases hcs
  | cons c cs =>
    have hfirst : ∃ q, Pending.ofFirst b.toNat = some q := by
      have hc := leads_encode c
      rw [encode_cons] at hcs
      generalize String.utf8EncodeChar c = cb at hc hcs
      cases hc with
      | last fits _ =>
        cases hcs
        exact ⟨_, fits⟩
      | more fits _ _ =>
        cases hcs
        exact ⟨_, fits⟩
    obtain ⟨q, hq⟩ := hfirst
    rcases ofFirst_cases hq with ⟨hb, -⟩ | ⟨hb, -⟩ | ⟨hb, -⟩ | ⟨hb, -⟩ <;> omega

namespace Begun

/-- What is missing of a begun character goes on with it, so it is not how a text begins. -/
theorem not_whole (hh : Begun h cs) (hcs : encode cs = h ++ bs) (ds : List Char) : bs ≠ encode ds := by
  obtain ⟨hne, c, hc, v, hv, hbytes⟩ := hh
  obtain ⟨cs, rfl⟩ := List.head?_eq_some_iff.mp hc
  have hleads := leads_encode c
  rw [hbytes] at hleads
  obtain ⟨q, hlow, hhigh, hrest, -⟩ := exists_pending hleads hne hv
  obtain ⟨b, v, rfl, hl, hu, -⟩ := leads_some_cases hrest
  rw [encode_cons, hbytes, List.append_assoc] at hcs
  have hbs := List.append_cancel_left hcs
  rw [List.cons_append] at hbs
  rintro rfl
  rcases first_encode hbs.symm with hb | hb <;> omega

/-- Bytes with which another text begins break the character. -/
theorem broken (hh : Begun h cs) (hds : encode ds = v ++ bs) (hv : v ≠ []) (rest : List UInt8) :
    replacement ∈ decodeLossy (h ++ (v ++ rest)) := by
  obtain ⟨hne, c, -, missing, hmissing, hbytes⟩ := hh
  have hleads := leads_encode c
  rw [hbytes] at hleads
  obtain ⟨q, hlow, hhigh, -, hrest⟩ := exists_pending hleads hne hmissing
  obtain ⟨b, v, rfl⟩ := List.exists_cons_of_ne_nil hv
  have hstep : q.next b.toNat = none := by
    refine if_neg fun hb => ?_
    rcases first_encode hds with hlt | hgt <;> omega
  rw [decodeLossy, hrest, List.cons_append, decodeFrom, step, hstep]
  exact List.mem_append_left _ List.mem_cons_self

/-- A character that has been begun has not come to its end. -/
theorem ne_encode (hh : Begun h cs) : encode cs ≠ h := by
  intro hcs
  have happend : encode cs = h ++ [] := by rw [hcs, List.append_nil]
  exact hh.not_whole happend [] rfl

end Begun

end CellReplay.Text.Utf8
