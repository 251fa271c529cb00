import CellReplay.Text.Utf8

/-!
# Proofs.Text.Encoding

Bytes of a text are read back as that text.

* `Leads`              — bytes that complete a character, from what is pending.
* `leads_encode`, `encode_leads` — those are the bytes of the character.
* `decodeLossy_encode` — nothing is replaced in the bytes of a text.
* `decode_eq_ok_iff`   — bytes are read without a fault exactly if they are those of a text.
-/

namespace CellReplay.Text.Utf8

variable {c : Char} {b n : Nat} {p : Option Pending} {bs rest : List UInt8}

/-- What is pending after one more byte that fits. -/
def Pending.after : Option Pending → Nat → Option Pending
  | none, b => ofFirst b
  | some p, b => p.next b

inductive Leads : Option Pending → List UInt8 → Char → Prop
  | last {p : Option Pending} {b : UInt8} {q : Pending} (fits : Pending.after p b.toNat = some q)
      (whole : q.owed = 0) : Leads p [b] (Char.ofNat q.bits)
  | more {p : Option Pending} {b : UInt8} {bs : List UInt8} {q : Pending} {c : Char}
      (fits : Pending.after p b.toNat = some q) (owed : q.owed ≠ 0) (rest : Leads (some q) bs c) :
      Leads p (b :: bs) c

/-! ## What completes a character -/

theorem step_of_after {q : Pending} (h : Pending.after p b = some q) :
    step p b = if q.owed = 0 then ([Char.ofNat q.bits], none) else ([], some q) := by
  cases p with
  | none =>
    have hfirst : Pending.ofFirst b = some q := h
    rw [step, firstByte, hfirst]
  | some p =>
    have hnext : p.next b = some q := h
    rw [step, hnext]

theorem decodeFrom_of_leads (h : Leads p bs c) (rest : List UInt8) :
    decodeFrom p (bs ++ rest) = c :: decodeFrom none rest := by
  induction h with
  | last fits whole =>
    rw [List.singleton_append, decodeFrom, step_of_after fits, if_pos whole]
    rfl
  | more fits owed _ ih =>
    rw [List.cons_append, decodeFrom, step_of_after fits, if_neg owed, ih]
    rfl

theorem firstFault_of_leads (h : Leads p bs c) (rest : List UInt8) (start index : Nat) :
    ∃ start' index', firstFault start index p (bs ++ rest) = firstFault start' index' none rest := by
  induction h generalizing start index with
  | @last p b q fits whole =>
    cases p with
    | none =>
      have hfirst : Pending.ofFirst b.toNat = some q := fits
      refine ⟨index, index + 1, ?_⟩
      rw [List.singleton_append, firstFault, hfirst]
      simp only [whole, if_true]
    | some p =>
      have hnext : p.next b.toNat = some q := fits
      refine ⟨start, index + 1, ?_⟩
      rw [List.singleton_append, firstFault, hnext]
      simp only [whole, if_true]
  | @more p b bs q c fits owed _ ih =>
    cases p with
    | none =>
      have hfirst : Pending.ofFirst b.toNat = some q := fits
      obtain ⟨start', index', hrest⟩ := ih index (index + 1)
      refine ⟨start', index', ?_⟩
      rw [List.cons_append, firstFault, hfirst, ← hrest]
      simp only [owed, if_false]
    | some p =>
      have hnext : p.next b.toNat = some q := fits
      obtain ⟨start', index', hrest⟩ := ih start (index + 1)
      refine ⟨start', index', ?_⟩
      rw [List.cons_append, firstFault, hnext, ← hrest]
      simp only [owed, if_false]

/-! ## First bytes, by the number of bytes that follow -/

theorem ofFirst_one (h : b ≤ 0x7F) : Pending.ofFirst b = some ⟨0, 0, 0, b⟩ := if_pos h

theorem ofFirst_two (hl : 0xC2 ≤ b) (hu : b ≤ 0xDF) :
    Pending.ofFirst b = some ⟨1, 0x80, 0xBF, b - 0xC0⟩ := by
  rw [Pending.ofFirst, if_neg (by omega), if_pos ⟨hl, hu⟩]

theorem ofFirst_three (hl : 0xE0 ≤ b) (hu : b ≤ 0xEF) : Pending.ofFirst b = some
    ⟨2, if b = 0xE0 then 0xA0 else 0x80, if b = 0xED then 0x9F else 0xBF, b - 0xE0⟩ := by
  have hall : ∀ b, b < 0xF0 → 0xE0 ≤ b → Pending.ofFirst b = some
      ⟨2, if b = 0xE0 then 0xA0 else 0x80, if b = 0xED then 0x9F else 0xBF, b - 0xE0⟩ := by
    decide +kernel
  exact hall b (by omega) hl

theorem ofFirst_four (hl : 0xF0 ≤ b) (hu : b ≤ 0xF4) : Pending.ofFirst b = some
    ⟨3, if b = 0xF0 then 0x90 else 0x80, if b = 0xF4 then 0x8F else 0xBF, b - 0xF0⟩ := by
  have hall : ∀ b, b < 0xF5 → 0xF0 ≤ b → Pending.ofFirst b = some
      ⟨3, if b = 0xF0 then 0x90 else 0x80, if b = 0xF4 then 0x8F else 0xBF, b - 0xF0⟩ := by
    decide +kernel
  exact hall b (by omega) hl

theorem toNat_byte (h : n < 256) : (UInt8.ofNat n).toNat = n := by
  rw [UInt8.toNat_ofNat']
  exact Nat.mod_eq_of_lt h

theorem after_byte {q : Pending} (h : n < 256) (hafter : Pending.after p n = some q) :
    Pending.after p (UInt8.ofNat n).toNat = some q := by
  rwa [toNat_byte h]

theorem next_eq {q : Pending} (hl : q.low ≤ b) (hu : b ≤ q.high) :
    Pending.after (some q) b = some ⟨q.owed - 1, 0x80, 0xBF, q.bits * 64 + (b - 0x80)⟩ :=
  if_pos ⟨hl, hu⟩

/-! ## The bytes of a character complete it -/

theorem toNat_ofNat_char (h : n < 0xD800 ∨ 0xDFFF < n ∧ n < 0x110000) :
    (Char.ofNat n).toNat = n := by
  have hvalid : n.isValidChar := h
  rw [Char.ofNat, dif_pos hvalid]
  rfl

theorem encode_one (hu : n ≤ 0x7F) : String.utf8EncodeChar (Char.ofNat n) = [UInt8.ofNat n] := by
  have hval : (Char.ofNat n).val.toNat = n := toNat_ofNat_char (by omega)
  simp only [String.utf8EncodeChar, hval, hu, if_true]

theorem encode_two (hl : 0x80 ≤ n) (hu : n ≤ 0x7FF) : String.utf8EncodeChar (Char.ofNat n) =
    [UInt8.ofNat (n / 64 % 32 + 192), UInt8.ofNat (n % 64 + 128)] := by
  have hval : (Char.ofNat n).val.toNat = n := toNat_ofNat_char (by omega)
  simp only [String.utf8EncodeChar, hval]
  rw [if_neg (by omega), if_pos hu]

theorem encode_three (hl : 0x800 ≤ n) (hu : n ≤ 0xFFFF) (hvalid : n < 0xD800 ∨ 0xDFFF < n) :
    String.utf8EncodeChar (Char.ofNat n) = [UInt8.ofNat (n / 4096 % 16 + 224),
      UInt8.ofNat (n / 64 % 64 + 128), UInt8.ofNat (n % 64 + 128)] := by
  have hval : (Char.ofNat n).val.toNat = n := toNat_ofNat_char (by omega)
  simp only [String.utf8EncodeChar, hval]
  rw [if_neg (by omega), if_neg (by omega), if_pos hu]

theorem encode_four (hl : 0x10000 ≤ n) (hu : n < 0x110000) :
    String.utf8EncodeChar (Char.ofNat n) = [UInt8.ofNat (n / 262144 % 8 + 240),
      UInt8.ofNat (n / 4096 % 64 + 128), UInt8.ofNat (n / 64 % 64 + 128),
      UInt8.ofNat (n % 64 + 128)] := by
  have hval : (Char.ofNat n).val.toNat = n := toNat_ofNat_char (by omega)
  simp only [String.utf8EncodeChar, hval]
  rw [if_neg (by omega), if_neg (by omega), if_neg (by omega)]

theorem leads_last {q : Pending} (h : b < 256) (fits : Pending.after p b = some q)
    (whole : q.owed = 0) (hbits : q.bits = n) : Leads p [UInt8.ofNat b] (Char.ofNat n) := by
  rw [← hbits]
  exact .last (after_byte h fits) whole

theorem leads_one (hu : n ≤ 0x7F) : Leads none [UInt8.ofNat n] (Char.ofNat n) :=
  leads_last (by omega) (ofFirst_one hu) rfl rfl

theorem leads_two (hl : 0x80 ≤ n) (hu : n ≤ 0x7FF) :
    Leads none [UInt8.ofNat (n / 64 % 32 + 192), UInt8.ofNat (n % 64 + 128)] (Char.ofNat n) := by
  refine .more (after_byte (by omega) (ofFirst_two (by omega) (by omega))) (by simp) ?_
  refine leads_last (by omega) (next_eq ?_ ?_) rfl ?_
  all_goals dsimp only; omega

theorem leads_three (hl : 0x800 ≤ n) (hu : n ≤ 0xFFFF) (hvalid : n < 0xD800 ∨ 0xDFFF < n) :
    Leads none [UInt8.ofNat (n / 4096 % 16 + 224), UInt8.ofNat (n / 64 % 64 + 128),
      UInt8.ofNat (n % 64 + 128)] (Char.ofNat n) := by
  refine .more (after_byte (by omega) (ofFirst_three (by omega) (by omega))) (by simp) ?_
  refine .more (after_byte (by omega) (next_eq ?_ ?_)) (by simp) ?_
  · dsimp only
    split <;> omega
  · dsimp only
    split <;> omega
  · refine leads_last (by omega) (next_eq ?_ ?_) rfl ?_
    all_goals dsimp only; omega

theorem leads_four (hl : 0x10000 ≤ n) (hu : n < 0x110000) :
    Leads none [UInt8.ofNat (n / 262144 % 8 + 240), UInt8.ofNat (n / 4096 % 64 + 128),
      UInt8.ofNat (n / 64 % 64 + 128), UInt8.ofNat (n % 64 + 128)] (Char.ofNat n) := by
  refine .more (after_byte (by omega) (ofFirst_four (by omega) (by omega))) (by simp) ?_
  refine .more (after_byte (by omega) (next_eq ?_ ?_)) (by simp) ?_
  · dsimp only
    split <;> omega
  · dsimp only
    split <;> omega
  · refine .more (after_byte (by omega) (next_eq ?_ ?_)) (by simp) ?_
    · dsimp only; omega
    · dsimp only; omega
    · refine leads_last (by omega) (next_eq ?_ ?_) rfl ?_
      all_goals dsimp only; omega

/-- The bytes of a character complete that character. -/
theorem leads_encode (c : Char) : Leads none (String.utf8EncodeChar c) c := by
  have hvalid : c.toNat < 0xD800 ∨ 0xDFFF < c.toNat ∧ c.toNat < 0x110000 := c.valid
  rw [← Char.ofNat_toNat c]
  by_cases h₁ : c.toNat ≤ 0x7F
  · rw [encode_one h₁]
    exact leads_one h₁
  by_cases h₂ : c.toNat ≤ 0x7FF
  · rw [encode_two (by omega) h₂]
    exact leads_two (by omega) h₂
  by_cases h₃ : c.toNat ≤ 0xFFFF
  · rw [encode_three (by omega) h₃ (by omega)]
    exact leads_three (by omega) h₃ (by omega)
  · rw [encode_four (by omega) (by omega)]
    exact leads_four (by omega) (by omega)

/-! ## No other bytes -/

/-- Bytes that follow what is pending: the first of them is within bounds, and the others follow what
is pending then. -/
theorem leads_some_cases {q : Pending} (h : Leads (some q) bs c) :
    ∃ b bs', bs = b :: bs' ∧ q.low ≤ b.toNat ∧ b.toNat ≤ q.high ∧
      (q.owed - 1 = 0 ∧ bs' = [] ∧ c = Char.ofNat (q.bits * 64 + (b.toNat - 0x80)) ∨
        q.owed - 1 ≠ 0 ∧
          Leads (some ⟨q.owed - 1, 0x80, 0xBF, q.bits * 64 + (b.toNat - 0x80)⟩) bs' c) := by
  have hnext {b : UInt8} {r : Pending} (h : Pending.after (some q) b.toNat = some r) :
      q.low ≤ b.toNat ∧ b.toNat ≤ q.high ∧
        r = ⟨q.owed - 1, 0x80, 0xBF, q.bits * 64 + (b.toNat - 0x80)⟩ := by
    simp only [Pending.after, Pending.next] at h
    split at h
    · next hb => exact ⟨hb.1, hb.2, (Option.some.inj h).symm⟩
    · cases h
  cases h with
  | last fits whole =>
    obtain ⟨hl, hu, rfl⟩ := hnext fits
    exact ⟨_, _, rfl, hl, hu, .inl ⟨whole, rfl, rfl⟩⟩
  | more fits owed rest =>
    obtain ⟨hl, hu, rfl⟩ := hnext fits
    exact ⟨_, _, rfl, hl, hu, .inr ⟨owed, rest⟩⟩

theorem byte_eq {b : UInt8} (h : n = b.toNat) : UInt8.ofNat n = b := by
  rw [h, UInt8.ofNat_toNat]

theorem ofFirst_cases {q : Pending} (h : Pending.ofFirst b = some q) :
    b ≤ 0x7F ∧ q = ⟨0, 0, 0, b⟩ ∨ (0xC2 ≤ b ∧ b ≤ 0xDF) ∧ q = ⟨1, 0x80, 0xBF, b - 0xC0⟩ ∨
      (0xE0 ≤ b ∧ b ≤ 0xEF) ∧ q = ⟨2, if b = 0xE0 then 0xA0 else 0x80,
        if b = 0xED then 0x9F else 0xBF, b - 0xE0⟩ ∨
      (0xF0 ≤ b ∧ b ≤ 0xF4) ∧ q = ⟨3, if b = 0xF0 then 0x90 else 0x80,
        if b = 0xF4 then 0x8F else 0xBF, b - 0xF0⟩ := by
  by_cases h₁ : b ≤ 0x7F
  · exact .inl ⟨h₁, Option.some.inj (h.symm.trans (ofFirst_one h₁))⟩
  by_cases h₂ : 0xC2 ≤ b ∧ b ≤ 0xDF
  · exact .inr (.inl ⟨h₂, Option.some.inj (h.symm.trans (ofFirst_two h₂.1 h₂.2))⟩)
  by_cases h₃ : 0xE0 ≤ b ∧ b ≤ 0xEF
  · exact .inr (.inr (.inl ⟨h₃, Option.some.inj (h.symm.trans (ofFirst_three h₃.1 h₃.2))⟩))
  by_cases h₄ : 0xF0 ≤ b ∧ b ≤ 0xF4
  · exact .inr (.inr (.inr ⟨h₄, Option.some.inj (h.symm.trans (ofFirst_four h₄.1 h₄.2))⟩))
  · -- no other byte begins a character
    have hnone : Pending.ofFirst b = none := by
      unfold Pending.ofFirst
      iterate 8 rw [if_neg (by omega)]
    rw [hnone] at h
    cases h

/-- Bytes that complete a character are the bytes of that character. -/
theorem encode_leads (h : Leads none bs c) : String.utf8EncodeChar c = bs := by
  cases h with
  | @last _ b q fits whole =>
    rcases ofFirst_cases fits with ⟨hb, rfl⟩ | ⟨-, rfl⟩ | ⟨-, rfl⟩ | ⟨-, rfl⟩
    · rw [encode_one hb, byte_eq rfl]
    · cases whole
    · cases whole
    · cases whole
  | @more _ b bs q _ fits owed rest =>
    rcases ofFirst_cases fits with ⟨-, rfl⟩ | ⟨hb, rfl⟩ | ⟨hb, rfl⟩ | ⟨hb, rfl⟩
    · exact absurd rfl owed
    · obtain ⟨b₂, bs, rfl, hl₂, hu₂, ⟨-, rfl, hc⟩ | ⟨h, -⟩⟩ := leads_some_cases rest
      · dsimp only at hl₂ hu₂ hc
        rw [hc, encode_two (by omega) (by omega)]
        simp only [List.cons.injEq, and_true]
        exact ⟨byte_eq (by omega), byte_eq (by omega)⟩
      · exact absurd rfl h
    · obtain ⟨b₂, bs, rfl, hl₂, hu₂, ⟨h, -⟩ | ⟨-, rest⟩⟩ := leads_some_cases rest
      · cases h
      obtain ⟨b₃, bs, rfl, hl₃, hu₃, ⟨-, rfl, hc⟩ | ⟨h, -⟩⟩ := leads_some_cases rest
      · dsimp only at hl₂ hu₂ hl₃ hu₃ hc
        have hl : 0x80 ≤ b₂.toNat ∧ (b.toNat = 0xE0 → 0xA0 ≤ b₂.toNat) := by
          split at hl₂ <;> omega
        have hu : b₂.toNat ≤ 0xBF ∧ (b.toNat = 0xED → b₂.toNat ≤ 0x9F) := by
          split at hu₂ <;> omega
        clear hl₂ hu₂
        rw [hc, encode_three (by omega) (by omega) (by omega)]
        simp only [List.cons.injEq, and_true]
        exact ⟨byte_eq (by omega), byte_eq (by omega), byte_eq (by omega)⟩
      · exact absurd rfl h
    · obtain ⟨b₂, bs, rfl, hl₂, hu₂, ⟨h, -⟩ | ⟨-, rest⟩⟩ := leads_some_cases rest
      · cases h
      obtain ⟨b₃, bs, rfl, hl₃, hu₃, ⟨h, -⟩ | ⟨-, rest⟩⟩ := leads_some_cases rest
      · cases h
      obtain ⟨b₄, bs, rfl, hl₄, hu₄, ⟨-, rfl, hc⟩ | ⟨h, -⟩⟩ := leads_some_cases rest
      · dsimp only at hl₂ hu₂ hl₃ hu₃ hl₄ hu₄ hc
        have hl : 0x80 ≤ b₂.toNat ∧ (b.toNat = 0xF0 → 0x90 ≤ b₂.toNat) := by
          split at hl₂ <;> omega
        have hu : b₂.toNat ≤ 0xBF ∧ (b.toNat = 0xF4 → b₂.toNat ≤ 0x8F) := by
          split at hu₂ <;> omega
        clear hl₂ hu₂
        rw [hc, encode_four (by omega) (by omega)]
        simp only [List.cons.injEq, and_true]
        exact ⟨byte_eq (by omega), byte_eq (by omega), byte_eq (by omega), byte_eq (by omega)⟩
      · exact absurd rfl h

/-- Where no fault is found, the bytes begin with those that complete what is pending. -/
theorem exists_leads {start index : Nat} (h : firstFault start index p bs = none)
    (hp : p = none → bs ≠ []) : ∃ done c rest start' index', bs = done ++ rest ∧ Leads p done c ∧
      firstFault start' index' none rest = none := by
  induction bs generalizing p start index with
  | nil =>
    cases p with
    | none => exact absurd rfl (hp rfl)
    | some p => cases h
  | cons b bs ih =>
    have hstep {q : Pending} {i j : Nat} (hq : Pending.after p b.toNat = some q)
        (h : firstFault i j (if q.owed = 0 then none else some q) bs = none) :
        ∃ done c rest start' index', b :: bs = done ++ rest ∧ Leads p done c ∧
          firstFault start' index' none rest = none := by
      by_cases hwhole : q.owed = 0
      · rw [if_pos hwhole] at h
        exact ⟨[b], _, bs, i, j, rfl, .last hq hwhole, h⟩
      · rw [if_neg hwhole] at h
        obtain ⟨done, c, rest, start', index', rfl, hdone, hrest⟩ := ih h nofun
        exact ⟨b :: done, c, rest, start', index', rfl, .more hq hwhole hdone, hrest⟩
    cases p with
    | none =>
      cases hq : Pending.ofFirst b.toNat with
      | none => rw [firstFault, hq] at h; cases h
      | some q => rw [firstFault, hq] at h; exact hstep hq h
    | some p =>
      cases hq : p.next b.toNat with
      | none => rw [firstFault, hq] at h; cases h
      | some q => rw [firstFault, hq] at h; exact hstep hq h

/-! ## Texts -/

theorem encode_nil : encode [] = [] := rfl

theorem encode_cons (c : Char) (cs : List Char) :
    encode (c :: cs) = String.utf8EncodeChar c ++ encode cs := rfl

theorem encode_append (cs ds : List Char) : encode (cs ++ ds) = encode cs ++ encode ds :=
  List.flatMap_append

theorem length_encode_append (cs ds : List Char) :
    (encode (cs ++ ds)).length = (encode cs).length + (encode ds).length := by
  rw [encode_append, List.length_append]

theorem length_encodeChar_pos (c : Char) : 0 < (String.utf8EncodeChar c).length := by
  rw [String.length_utf8EncodeChar]
  exact Char.utf8Size_pos c

theorem length_le_encode (cs : List Char) : cs.length ≤ (encode cs).length := by
  induction cs with
  | nil => exact Nat.le_refl 0
  | cons c cs ih =>
    have hc := length_encodeChar_pos c
    rw [encode_cons, List.length_append, List.length_cons]
    omega

theorem eq_nil_of_encode {cs : List Char} (h : encode cs = []) : cs = [] := by
  have hlength := length_le_encode cs
  rw [h] at hlength
  exact List.eq_nil_of_length_eq_zero (Nat.le_zero.mp hlength)

/-- The bytes of a text are read as that text, whatever follows them. -/
theorem decodeLossy_encode_append (cs : List Char) (rest : List UInt8) :
    decodeLossy (encode cs ++ rest) = cs ++ decodeLossy rest := by
  induction cs with
  | nil => rfl
  | cons c cs ih =>
    rw [encode_cons, List.append_assoc, decodeLossy, decodeFrom_of_leads (leads_encode c),
      ← decodeLossy, ih, List.cons_append]

theorem decodeLossy_encode (cs : List Char) : decodeLossy (encode cs) = cs := by
  have h := decodeLossy_encode_append cs []
  rw [List.append_nil] at h
  rw [h]
  exact List.append_nil cs

theorem firstFault_encode (cs : List Char) (start index : Nat) :
    firstFault start index none (encode cs) = none := by
  induction cs generalizing start index with
  | nil => rfl
  | cons c cs ih =>
    obtain ⟨start', index', hrest⟩ := firstFault_of_leads (leads_encode c) (encode cs) start index
    rw [encode_cons, hrest, ih]

theorem exists_encode {start index : Nat} (h : firstFault start index none bs = none) :
    ∃ cs, bs = encode cs := by
  induction hlen : bs.length using Nat.strongRecOn generalizing bs start index with
  | ind n ih =>
    by_cases hbs : bs = []
    · exact ⟨[], hbs⟩
    · obtain ⟨done, c, rest, start', index', rfl, hdone, hrest⟩ := exists_leads h fun _ => hbs
      have hc := encode_leads hdone
      have hshorter : rest.length < n := by
        have hpos := length_encodeChar_pos c
        rw [hc] at hpos
        rw [← hlen, List.length_append]
        omega
      obtain ⟨cs, rfl⟩ := ih _ hshorter hrest rfl
      exact ⟨c :: cs, by rw [encode_cons, hc]⟩

/-- Bytes are text exactly if they are the bytes of that text. -/
theorem decode_eq_ok_iff {cs : List Char} : decode bs = .ok cs ↔ bs = encode cs := by
  constructor
  · intro h
    unfold decode at h
    split at h
    · next hfault =>
      obtain ⟨ds, rfl⟩ := exists_encode hfault
      rw [decodeLossy_encode] at h
      rw [Except.ok.inj h]
    · cases h
    · cases h
  · rintro rfl
    rw [decode, firstFault_encode, decodeLossy_encode]

end CellReplay.Text.Utf8
