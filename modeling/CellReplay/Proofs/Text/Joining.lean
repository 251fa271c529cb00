import CellReplay.Text.Join
import Mathlib.Data.List.Basic

/-!
# Proofs.Text.Joining

Texts put together with one character between them can be taken apart again, if that character is in
none of them.

* `toList_join` — the characters of the joined text.
* `join_inj`    — no two lists of such texts are joined to the same text.
-/

namespace CellReplay.Text

theorem toList_join (separator : String) (ss : List String) :
    (join separator ss).toList = separator.toList.intercalate (ss.map String.toList) := by
  fun_induction join separator ss with
  | case1 => rfl
  | case2 s => exact (List.intercalate_singleton).symm
  | case3 s ss hne ih =>
    obtain ⟨t, ts, rfl⟩ := List.exists_cons_of_ne_nil hne
    rw [String.toList_append, String.toList_append, ih, List.map_cons, List.map_cons, List.map_cons,
      List.intercalate_cons_cons]

theorem join_cons {separator s : String} {ss : List String} (h : ss ≠ []) :
    join separator (s :: ss) = s ++ separator ++ join separator ss := by
  obtain ⟨t, ts, rfl⟩ := List.exists_cons_of_ne_nil h
  rfl

/-- What stands before the first text can be joined to it first. -/
theorem join_append_head (separator before s : String) (ss : List String) :
    join separator ((before ++ s) :: ss) = before ++ join separator (s :: ss) := by
  by_cases hne : ss = []
  · subst hne
    rfl
  · rw [join_cons hne, join_cons hne, String.append_assoc, String.append_assoc,
      String.append_assoc]

section

variable {separator : String} {c : Char} {ss ts : List String}

theorem splitOn_join (hsep : separator.toList = [c]) (hne : ss ≠ [])
    (h : ∀ s ∈ ss, c ∉ s.toList) : (join separator ss).toList.splitOn c = ss.map String.toList := by
  rw [toList_join, hsep]
  refine List.splitOn_intercalate c ?_ (by simpa using hne)
  intro l hl
  obtain ⟨s, hs, rfl⟩ := List.mem_map.mp hl
  exact h s hs

theorem join_inj (hsep : separator.toList = [c]) (hss : ss ≠ []) (hts : ts ≠ [])
    (hs : ∀ s ∈ ss, c ∉ s.toList) (ht : ∀ t ∈ ts, c ∉ t.toList) :
    join separator ss = join separator ts ↔ ss = ts := by
  constructor
  · intro h
    have hmap : ss.map String.toList = ts.map String.toList := by
      rw [← splitOn_join hsep hss hs, ← splitOn_join hsep hts ht, h]
    exact List.map_injective_iff.mpr (fun _ _ => String.toList_injective) hmap
  · exact congrArg _

end

end CellReplay.Text
