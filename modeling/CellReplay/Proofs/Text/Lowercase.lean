import CellReplay.Text.Case
import CellReplay.Proofs.Text.Joining

/-!
# Proofs.Text.Lowercase

Lower case of ASCII texts: capital letters become small ones, and nothing else changes.
-/

namespace CellReplay.Text

def Ascii (s : String) : Prop := ∀ c ∈ s.toList, c.toNat < 128

instance (s : String) : Decidable (Ascii s) :=
  List.decidableBAll (fun c : Char => c.toNat < 128) s.toList

theorem Ascii.append {s t : String} (hs : Ascii s) (ht : Ascii t) : Ascii (s ++ t) := by
  intro c hc
  rw [String.toList_append, List.mem_append] at hc
  exact hc.elim (hs c) (ht c)

/-- What the first 128 characters have in common, all ASCII characters have. -/
theorem forall_ascii {p : Char → Prop} (h : ∀ n < 128, p (Char.ofNat n)) {c : Char}
    (hc : c.toNat < 128) : p c := by
  have hp := h c.toNat hc
  rwa [Char.ofNat_toNat] at hp

theorem lower_ascii {c : Char} (h : c.toNat < 128) : lower c = [c.toLower] := by
  refine forall_ascii (p := fun c => lower c = [c.toLower]) ?_ h
  decide +kernel

theorem toLower_toLower {c : Char} (h : c.toNat < 128) : c.toLower.toLower = c.toLower := by
  refine forall_ascii (p := fun c => c.toLower.toLower = c.toLower) ?_ h
  decide +kernel

theorem lowercaseFrom_ascii (before : List Char) {cs : List Char} (h : ∀ c ∈ cs, c.toNat < 128) :
    lowercaseFrom before cs = cs.map Char.toLower := by
  induction cs generalizing before with
  | nil => rfl
  | cons c cs ih =>
    obtain ⟨hc, hcs⟩ := List.forall_mem_cons.mp h
    have hsigma : c ≠ 'Σ' := by
      rintro rfl
      exact absurd hc (by decide)
    rw [lowercaseFrom, if_neg hsigma, lower_ascii hc, ih _ hcs, List.map_cons,
      List.singleton_append]

theorem toList_lowercase {s : String} (h : Ascii s) :
    (lowercase s).toList = s.toList.map Char.toLower := by
  rw [lowercase, String.toList_ofList, lowercaseFrom_ascii [] h]

theorem lowercase_append {s t : String} (hs : Ascii s) (ht : Ascii t) :
    lowercase (s ++ t) = lowercase s ++ lowercase t := by
  rw [← String.toList_inj, String.toList_append, toList_lowercase (hs.append ht),
    toList_lowercase hs, toList_lowercase ht, String.toList_append, List.map_append]

/-- A text without capital letters is its own lower case. -/
theorem lowercase_eq_self {s : String} (h : Ascii s)
    (hsmall : s.toList.map Char.toLower = s.toList) : lowercase s = s := by
  rw [← String.toList_inj, toList_lowercase h, hsmall]

theorem Ascii.join {separator : String} {ss : List String} (hsep : Ascii separator)
    (h : ∀ s ∈ ss, Ascii s) : Ascii (join separator ss) := by
  induction ss with
  | nil => simp [Text.join, Ascii]
  | cons s ss ih =>
    obtain ⟨hs, hss⟩ := List.forall_mem_cons.mp h
    by_cases hne : ss = []
    · subst hne
      exact hs
    · rw [join_cons hne]
      exact (hs.append hsep).append (ih hss)

theorem lowercase_join {separator : String} {ss : List String} (hsep : Ascii separator)
    (h : ∀ s ∈ ss, Ascii s) :
    lowercase (join separator ss) = join (lowercase separator) (ss.map lowercase) := by
  induction ss with
  | nil => rfl
  | cons s ss ih =>
    obtain ⟨hs, hss⟩ := List.forall_mem_cons.mp h
    by_cases hne : ss = []
    · subst hne
      rfl
    · rw [List.map_cons, join_cons hne, join_cons (by simpa using hne), ← ih hss,
        lowercase_append (hs.append hsep) (hsep.join hss), lowercase_append hs hsep]

end CellReplay.Text
