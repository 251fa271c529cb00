import CellReplay.Proofs.Config.Merging
import CellReplay.Proofs.Text.Blanks
import CellReplay.Proofs.Text.Digits
import CellReplay.Proofs.Text.Lowercase
import CellReplay.Config.Layers
import Mathlib.Data.List.TakeDrop

/-!
# Proofs.Config.Names

How the names of a path are spelled: with points between them in the key of a property, with two
underscores in the name of a variable.

* `Bare`, `Letters` — names that need no quotes, and those that a variable can spell.
* `Path.set_ofKey` — what a key of bare names sets.
* `get?_flatten_iff` — the properties of a tree with bare names.
* `keyOfVariable_variableOf` — the key that a variable sets.
-/

namespace CellReplay.Config

open Text

variable {s n : String} {names segments : List String}

/-! ## Names -/

def Bare (s : String) : Prop := s ≠ "" ∧ ∀ c ∈ s.toList, Toml.isBare c

def Letters (s : String) : Prop := s ≠ "" ∧ ∀ c ∈ s.toList, c.isAlpha

instance (s : String) : Decidable (Bare s) :=
  have := List.decidableBAll (fun c : Char => Toml.isBare c) s.toList
  inferInstanceAs (Decidable (s ≠ "" ∧ ∀ c ∈ s.toList, Toml.isBare c))

instance (s : String) : Decidable (Letters s) :=
  have := List.decidableBAll (fun c : Char => c.isAlpha) s.toList
  inferInstanceAs (Decidable (s ≠ "" ∧ ∀ c ∈ s.toList, c.isAlpha))

theorem lt_of_isBare {c : Char} (h : Toml.isBare c) : c.toNat < 128 := by
  simp only [Toml.isBare, Char.isAlphanum, Bool.or_eq_true, decide_eq_true_eq, isAlpha_iff,
    isDigit_iff] at h
  rcases h with (((h | h) | h) | rfl) | rfl
  · exact Nat.lt_of_le_of_lt h.2 (by decide)
  · exact Nat.lt_of_le_of_lt h.2 (by decide)
  · exact Nat.lt_of_le_of_lt h.2 (by decide)
  · decide
  · decide

theorem isBare_toLower {c : Char} (h : Toml.isBare c) : Toml.isBare c.toLower := by
  refine forall_ascii (p := fun c => Toml.isBare c → Toml.isBare c.toLower) ?_ (lt_of_isBare h) h
  decide +kernel

theorem Letters.bare (h : Letters s) : Bare s :=
  ⟨h.1, fun c hc => by simp [Toml.isBare, Char.isAlphanum, h.2 c hc]⟩

namespace Bare

theorem ascii (h : Bare s) : Ascii s := fun c hc => lt_of_isBare (h.2 c hc)

theorem lowercase (h : Bare s) : Bare (lowercase s) := by
  have htoList := toList_lowercase h.ascii
  constructor
  · intro hempty
    rw [hempty] at htoList
    exact h.1 (String.toList_inj.mp (List.map_eq_nil_iff.mp htoList.symm))
  · intro c hc
    rw [htoList] at hc
    obtain ⟨d, hd, rfl⟩ := List.mem_map.mp hc
    exact isBare_toLower (h.2 d hd)

theorem lowercase_lowercase (h : Bare s) :
    Text.lowercase (Text.lowercase s) = Text.lowercase s := by
  refine lowercase_eq_self h.lowercase.ascii ?_
  rw [toList_lowercase h.ascii, List.map_map]
  exact List.map_congr_left fun c hc => toLower_toLower (h.ascii c hc)

theorem point_notMem (h : Bare s) : '.' ∉ s.toList := fun hc => absurd (h.2 _ hc) (by decide)

end Bare

namespace Letters

theorem lowercase (h : Letters s) : Letters (lowercase s) := by
  refine ⟨h.bare.lowercase.1, fun c hc => ?_⟩
  rw [toList_lowercase h.bare.ascii] at hc
  obtain ⟨d, hd, rfl⟩ := List.mem_map.mp hc
  refine forall_ascii (p := fun c => c.isAlpha → c.toLower.isAlpha) ?_ (h.bare.ascii d hd) (h.2 d hd)
  decide +kernel

theorem underscore_notMem (h : Letters s) : '_' ∉ s.toList :=
  fun hc => absurd (h.2 _ hc) (by decide)

end Letters

/-! ## Keys of properties -/

/-- Paths that a key can spell. -/
structure BarePath (path : List String) : Prop where
  nonempty : path ≠ []
  bare : ∀ n ∈ path, Bare n

instance (path : List String) : Decidable (BarePath path) :=
  decidable_of_iff (path ≠ [] ∧ ∀ n ∈ path, Bare n) ⟨fun h => ⟨h.1, h.2⟩, fun h => ⟨h.1, h.2⟩⟩

theorem BarePath.join_inj {p q : List String} (hp : BarePath p) (hq : BarePath q) :
    join "." p = join "." q ↔ p = q :=
  Text.join_inj rfl hp.nonempty hq.nonempty (fun n hn => (hp.bare n hn).point_notMem)
    (fun n hn => (hq.bare n hn).point_notMem)

/-- Names with a point before each. -/
def pointedNames (names : List String) : List Char := names.flatMap fun n => '.' :: n.toList

theorem toList_join_point (n : String) (names : List String) :
    (join "." (n :: names)).toList = n.toList ++ pointedNames names := by
  induction names generalizing n with
  | nil => simp [join, pointedNames]
  | cons m names ih =>
    rw [join_cons (List.cons_ne_nil m names), String.toList_append, String.toList_append, ih,
      pointedNames, pointedNames, List.flatMap_cons]
    simp

namespace Path

theorem nameStep_append (h : Bare n) (names : List String) :
    nameStep (n.toList ++ pointedNames names) = some (.name n, pointedNames names) := by
  have hchars : ∀ c ∈ n.toList, isNameChar c = true := by
    intro c hc
    have hbare := h.2 c hc
    simp only [Toml.isBare, Bool.or_eq_true] at hbare
    simp only [isNameChar, Bool.or_eq_true]
    tauto
  have hspan : (n.toList ++ pointedNames names).span isNameChar =
      (n.toList, pointedNames names) := by
    rw [List.span_eq_takeWhile_dropWhile, List.takeWhile_append_of_pos hchars,
      List.dropWhile_append_of_pos hchars]
    cases names <;> simp [pointedNames, isNameChar]
  have hne : n.toList ≠ [] := fun hnil => h.1 (String.toList_inj.mp hnil)
  unfold nameStep
  rw [hspan]
  obtain ⟨c, cs, hcs⟩ := List.exists_cons_of_ne_nil hne
  have hn : String.ofList (c :: cs) = n := by rw [← hcs, String.ofList_toList]
  rw [hcs]
  simp [hn]

theorem steps_pointedNames (h : ∀ n ∈ names, Bare n) {fuel : Nat} (hfuel : names.length ≤ fuel) :
    steps fuel (pointedNames names) = some (names.map .name) := by
  induction names generalizing fuel with
  | nil => cases fuel <;> rfl
  | cons n names ih =>
    obtain ⟨hn, hnames⟩ := List.forall_mem_cons.mp h
    cases fuel with
    | zero => simp at hfuel
    | succ fuel =>
      have hcons : pointedNames (n :: names) = '.' :: (n.toList ++ pointedNames names) := rfl
      rw [hcons, steps, nameStep_append hn]
      simp [ih hnames (by simpa using hfuel)]

theorem ofSteps_names (before : List String) (n : String) (names : List String) :
    ofSteps before n (names.map .name) =
      ⟨before ++ (n :: names).dropLast, (n :: names).getLast (List.cons_ne_nil n names), false⟩ := by
  induction names generalizing before n with
  | nil => simp [ofSteps]
  | cons m names ih =>
    rw [List.map_cons, ofSteps, ih]
    simp

theorem length_le_pointedNames (names : List String) :
    names.length ≤ (pointedNames names).length := by
  induction names with
  | nil => simp
  | cons n names ih =>
    simp only [pointedNames, List.flatMap_cons, List.length_append, List.length_cons] at ih ⊢
    omega

theorem ofKey_join (h : BarePath names) :
    ofKey (join "." names) = ⟨names.dropLast, names.getLast h.nonempty, false⟩ := by
  obtain ⟨n, names, rfl⟩ := List.exists_cons_of_ne_nil h.nonempty
  obtain ⟨hn, hnames⟩ := List.forall_mem_cons.mp h.bare
  simp [ofKey, toList_join_point, nameStep_append hn,
    steps_pointedNames hnames (length_le_pointedNames names), ofSteps_names]

/-- A key of bare names sets a value at the path that they are. -/
theorem set_ofKey (h : BarePath names) (v root : Tree) :
    (ofKey (join "." names)).set v root = Tree.merged (Tree.spine names v) (some root) := by
  rw [ofKey_join h, set, Tree.setAt_eq_merged, List.dropLast_append_getLast]
  rfl

end Path

/-- The properties of a tree with bare names are the texts at its paths. -/
theorem get?_flatten_iff {t : Tree} (h : Tree.Named Bare id t) {key text : String} :
    t.flatten.get? key = some text ↔
      ∃ path, BarePath path ∧ key = join "." path ∧ t.scalarAt path = some text := by
  have htable : Tree.Named Bare id (.table t.entries) := h.table_entries
  have htop : ∀ fs, ("", Tree.table fs) ∉ t.entries := by
    intro fs he
    cases htable with
    | table _ names _ => exact (names _ he).1 rfl
  have hnodup := Tree.nodup_spelled (htable.mono fun _ hk => hk.point_notMem) htop
  have hleaf : ∀ path, (path, text) ∈ Tree.scalarsOf t.entries ↔
      path ≠ [] ∧ t.scalarAt path = some text := by
    intro path
    cases path with
    | nil => simp [Tree.nil_notMem_scalarsOf]
    | cons k path =>
      have hiff : (k :: path, text) ∈ Tree.scalarsOf t.entries ↔
          t.scalarAt (k :: path) = some text := Tree.mem_scalars_iff htable
      simpa using hiff
  have hbare : ∀ path, (path, text) ∈ Tree.scalarsOf t.entries → BarePath path := fun path hmem =>
    ⟨((hleaf path).mp hmem).1, htable.of_mem hmem⟩
  have hspelled : ∀ path, BarePath path → Tree.spelled path = join "." path := by
    intro path hpath
    refine Tree.spelled_eq_join fun hhead => ?_
    exact absurd rfl (hpath.bare "" (List.mem_of_mem_head? hhead)).1
  have hflatten : t.flatten = (Tree.table t.entries).flatten := rfl
  rw [hflatten, Tree.get?_flatten_eq_some_iff fun x hx y hy hxy => by
    rw [List.inj_on_of_nodup_map hnodup hx hy hxy]]
  constructor
  · rintro ⟨path, hmem, rfl⟩
    exact ⟨path, hbare path hmem, hspelled path (hbare path hmem), ((hleaf path).mp hmem).2⟩
  · rintro ⟨path, hpath, rfl, hat⟩
    exact ⟨path, (hleaf path).mpr ⟨hpath.nonempty, hat⟩, hspelled path hpath⟩

/-! ## Names of variables -/

/-- The variable that sets a path. -/
def variableOf (segments : List String) : String := "NOTEBOOK__" ++ join "__" segments

theorem pointed_append {cs : List Char} (h : '_' ∉ cs) (rest : List Char) :
    pointed (cs ++ rest) = cs ++ pointed rest := by
  induction cs with
  | nil => rfl
  | cons c cs ih =>
    obtain ⟨hc, hcs⟩ := not_or.mp (List.mem_cons.not.mp h)
    rw [List.cons_append, pointed, ih hcs, List.cons_append]
    intro _ hunderscore
    exact absurd hunderscore.symm hc

theorem pointed_join (h : ∀ s ∈ segments, '_' ∉ s.toList) :
    pointed (join "__" segments).toList = (join "." segments).toList := by
  induction segments with
  | nil => rfl
  | cons s segments ih =>
    obtain ⟨hs, hsegments⟩ := List.forall_mem_cons.mp h
    by_cases hne : segments = []
    · subst hne
      simpa [pointed, join] using pointed_append hs []
    · rw [join_cons hne, join_cons hne, String.append_assoc, String.toList_append,
        pointed_append hs, String.toList_append, String.append_assoc, String.toList_append,
        String.toList_append, ← ih hsegments]
      rfl

theorem keyOfVariable_variableOf (h : ∀ s ∈ segments, Letters s) :
    keyOfVariable (variableOf segments) = some (join "." (segments.map lowercase)) := by
  have hascii : ∀ s ∈ segments, Ascii s := fun s hs => (h s hs).bare.ascii
  have hlower : (lowercase (variableOf segments)).toList =
      variableMark.toList ++ (join "__" (segments.map lowercase)).toList := by
    have hmark : lowercase "NOTEBOOK__" = variableMark := by decide +kernel
    have hsep : lowercase "__" = "__" := by decide +kernel
    rw [variableOf, lowercase_append (by decide +kernel) (Ascii.join (by decide +kernel) hascii),
      lowercase_join (by decide +kernel) hascii, hmark, hsep, String.toList_append]
  have hprefix : variableMark.toList.isPrefixOf
      (variableMark.toList ++ (join "__" (segments.map lowercase)).toList) = true :=
    List.isPrefixOf_iff_prefix.mpr (List.prefix_append _ _)
  have hsegments : ∀ s ∈ segments.map lowercase, '_' ∉ s.toList := by
    intro s hs
    obtain ⟨t, ht, rfl⟩ := List.mem_map.mp hs
    exact (h t ht).lowercase.underscore_notMem
  simp only [keyOfVariable, hlower, hprefix, if_true, List.drop_left, pointed_join hsegments,
    String.ofList_toList]

theorem variableOf_inj {others : List String} (hne : segments ≠ []) (hne' : others ≠ [])
    (h : ∀ s ∈ segments, Letters s) (h' : ∀ s ∈ others, Letters s) :
    variableOf segments = variableOf others ↔ segments = others := by
  constructor
  · intro heq
    have hjoined : (join "__" segments).toList = (join "__" others).toList := by
      simpa [variableOf, ← String.toList_inj] using heq
    have hpoints : join "." segments = join "." others := by
      rw [← String.toList_inj, ← pointed_join fun s hs => (h s hs).underscore_notMem,
        ← pointed_join fun s hs => (h' s hs).underscore_notMem, hjoined]
    exact (BarePath.join_inj ⟨hne, fun s hs => (h s hs).bare⟩
      ⟨hne', fun s hs => (h' s hs).bare⟩).mp hpoints
  · exact congrArg variableOf

end CellReplay.Config
