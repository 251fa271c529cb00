import CellReplay.Server
import CellReplay.Proofs.Text.Encoding
import Mathlib.Data.List.Infix
import Mathlib.Data.List.TakeWhile

/-!
# Proofs.Server.Location

Where a database is kept whose path the properties say. The path is put into a URL as it stands, and
the URL is read with marks, parameters and bytes in hexadecimal digits in it.

* `Verbatim` — paths in which none of these is found.
* `percentDecode_eq_iff` — no byte is spelled by its digits.
* `behindMarks_eq_iff`   — no mark stands in front.
* `opened_verbatim_iff`  — such a path, and no other, is where the database is kept.
* `path_misread`         — paths of other files, of parameters, and of a database in memory.
-/

namespace CellReplay

open Text Config

variable {cs mark : List Char} {path : String} {t u : Target}

/-- No `%` has two hexadecimal digits behind it. -/
def Unescaped (cs : List Char) : Prop :=
  ∀ a b, ['%', a, b] <:+: cs → hexDigit? a = none ∨ hexDigit? b = none

/-- A path that stands for itself in a URL: it is none of those that have a meaning of their own, no
mark of a URL stands in front, and in it there are neither `?` nor bytes in hexadecimal digits. -/
structure Verbatim (path : String) : Prop where
  nonempty : path ≠ ""
  onDisk : path ≠ ":memory:"
  unmarked : ¬ "sqlite:".toList <+: path.toList
  whole : '?' ∉ path.toList
  unescaped : Unescaped path.toList

/-! ## Bytes in hexadecimal digits -/

theorem length_percentDecode_le (cs : List Char) :
    (percentDecode cs).length ≤ (Utf8.encode cs).length := by
  fun_induction percentDecode cs with
  | case1 => exact Nat.le_refl 0
  | case2 a b cs x y _ _ ih =>
    have hlength := Utf8.length_le_encode ['%', a, b]
    have hcs := Utf8.length_encode_append ['%', a, b] cs
    simp only [List.length_cons, List.cons_append, List.nil_append] at hlength hcs ⊢
    omega
  | case3 a b cs _ ih =>
    have hcs := Utf8.length_encode_append ['%'] (a :: b :: cs)
    rw [List.singleton_append] at hcs
    rw [List.length_append]
    omega
  | case4 c cs _ ih =>
    have hcs := Utf8.length_encode_append [c] cs
    rw [List.singleton_append] at hcs
    rw [List.length_append]
    omega

theorem unescaped_cons {c : Char}
    (h : ∀ a b, ['%', a, b] <+: c :: cs → hexDigit? a = none ∨ hexDigit? b = none) :
    Unescaped (c :: cs) ↔ Unescaped cs := by
  constructor
  · intro hall a b hin
    exact hall a b (hin.trans (List.suffix_cons c cs).isInfix)
  · intro hrest a b hin
    rcases List.infix_cons_iff.mp hin with hfirst | hin
    · exact h a b hfirst
    · exact hrest a b hin

theorem encode_append_inj {c : Char} {bs : List UInt8} :
    Utf8.encode [c] ++ bs = Utf8.encode (c :: cs) ↔ bs = Utf8.encode cs := by
  have hcons : Utf8.encode (c :: cs) = Utf8.encode [c] ++ Utf8.encode cs :=
    Utf8.encode_append [c] cs
  rw [hcons, List.append_cancel_left_eq]

theorem percentDecode_eq_iff (cs : List Char) :
    percentDecode cs = Utf8.encode cs ↔ Unescaped cs := by
  fun_induction percentDecode cs with
  | case1 =>
    refine iff_of_true rfl fun a b hin => ?_
    cases List.infix_nil.mp hin
  | case2 a b cs x y hb ha ih =>
    -- one byte stands for three characters
    refine iff_of_false (fun h => ?_) fun h => ?_
    · have hbytes := Utf8.length_le_encode ['%', a, b]
      have hcs := Utf8.length_encode_append ['%', a, b] cs
      have hrest := length_percentDecode_le cs
      have hlength := congrArg List.length h
      simp only [List.length_cons, List.cons_append, List.nil_append] at hbytes hcs hlength
      omega
    · have hnone := h a b (List.prefix_append ['%', a, b] cs).isInfix
      simp [ha, hb] at hnone
  | case3 a b cs hnone ih =>
    rw [encode_append_inj, ih]
    refine (unescaped_cons fun a' b' hfirst => ?_).symm
    simp only [List.cons_prefix_cons, true_and] at hfirst
    rw [hfirst.1, hfirst.2.1]
    cases ha : hexDigit? a with
    | none => exact .inl rfl
    | some x =>
      cases hb : hexDigit? b with
      | none => exact .inr rfl
      | some y => exact (hnone x y ha hb).elim
  | case4 c cs hc ih =>
    rw [encode_append_inj, ih]
    refine (unescaped_cons fun a b hfirst => ?_).symm
    obtain ⟨rfl, rest, rfl⟩ := List.cons_prefix_cons.mp hfirst
    exact absurd rfl (hc a b rest rfl)

/-! ## Marks in front -/

theorem dropMarks_eq_self (h : ¬ mark <+: cs) (fuel : Nat) : dropMarks mark fuel cs = cs := by
  cases fuel with
  | zero => rfl
  | succ fuel => rw [dropMarks, if_neg (by rwa [List.isPrefixOf_iff_prefix])]

theorem dropMarks_append (mark cs : List Char) (fuel : Nat) :
    dropMarks mark (fuel + 1) (mark ++ cs) = dropMarks mark fuel cs := by
  rw [dropMarks, if_pos (List.isPrefixOf_iff_prefix.mpr (List.prefix_append mark cs)),
    List.drop_left]

theorem dropMarks_suffix (mark cs : List Char) (fuel : Nat) : dropMarks mark fuel cs <:+ cs := by
  induction fuel generalizing cs with
  | zero => exact List.suffix_rfl
  | succ fuel ih =>
    rw [dropMarks]
    split
    · exact (ih _).trans (List.drop_suffix _ _)
    · exact List.suffix_rfl

theorem length_dropMarks_lt (h : mark <+: cs) (hmark : mark ≠ []) {fuel : Nat} (hfuel : 0 < fuel) :
    (dropMarks mark fuel cs).length < cs.length := by
  obtain ⟨fuel, rfl⟩ := Nat.exists_eq_add_one.mpr hfuel
  obtain ⟨rest, rfl⟩ := h
  have hlength := (dropMarks_suffix mark rest fuel).length_le
  have hpos := List.length_pos_iff.mpr hmark
  rw [dropMarks_append, List.length_append]
  omega

/-- What is left of a path once it has been put into a URL and the marks have been taken off. -/
def behindMarks (path : List Char) : List Char :=
  dropMarks "sqlite:".toList (path.length + 9) (dropMarks "sqlite://".toList (path.length + 8) path)

theorem behindMarks_suffix (path : List Char) : behindMarks path <:+ path :=
  (dropMarks_suffix _ _ _).trans (dropMarks_suffix _ _ _)

theorem behindMarks_eq_iff (path : List Char) :
    behindMarks path = path ↔ ¬ "sqlite:".toList <+: path := by
  constructor
  · intro h hmark
    have hshorter : (behindMarks path).length < path.length := by
      by_cases hlong : "sqlite://".toList <+: path
      · exact (dropMarks_suffix _ _ _).length_le.trans_lt
          (length_dropMarks_lt hlong (by decide) (by omega))
      · rw [behindMarks, dropMarks_eq_self hlong]
        exact length_dropMarks_lt hmark (by decide) (by omega)
    rw [h] at hshorter
    exact absurd hshorter (Nat.lt_irrefl _)
  · intro h
    have hlong : ¬ "sqlite://".toList <+: path := fun hpath =>
      h (List.IsPrefix.trans ⟨"//".toList, rfl⟩ hpath)
    rw [behindMarks, dropMarks_eq_self hlong, dropMarks_eq_self h]

/-! ## Parameters -/

theorem withParameter_location {t u : Target} {p : String × String}
    (h : t.withParameter p = .ok u) : u.location = t.location ∨ u.location = .memory := by
  unfold Target.withParameter at h
  split at h
  · split at h
    · cases h; exact .inl rfl
    · cases h; exact .inl rfl
    · cases h; exact .inl rfl
    · cases h; exact .inr rfl
    · cases h
  · split at h <;> cases h; exact .inl rfl
  · split at h <;> cases h; exact .inl rfl
  · cases h; exact .inl rfl
  · cases h

/-- Parameters name no file. -/
theorem location_of_parameters {ps : List (String × String)}
    (h : ps.foldlM Target.withParameter t = .ok u) (hu : u.location = .file path) :
    t.location = .file path := by
  induction ps generalizing t with
  | nil => cases h; exact hu
  | cons p ps ih =>
    rw [List.foldlM_cons] at h
    cases hp : t.withParameter p with
    | error e => rw [hp] at h; cases h
    | ok t' =>
      rw [hp] at h
      have ht' := ih h
      rcases withParameter_location hp with hsame | hmemory
      · rw [← hsame, ht']
      · rw [hmemory] at ht'
        cases ht'

/-! ## Paths -/

/-- Where a path leads that is left of a URL. -/
def locationOf (path : List Char) : Except DatabaseError Location :=
  if path = ":memory:".toList || path = [] then .ok .memory
  else
    match Utf8.decode (percentDecode path) with
    | .ok p => .ok (.file (String.ofList p))
    | .error e => .error (.configuration e)

theorem ofUrl_path (path : String) : Target.ofUrl ("sqlite://" ++ path) =
    (locationOf ((behindMarks path.toList).takeWhile (· ≠ '?'))).bind fun location =>
      (parameters (((behindMarks path.toList).dropWhile (· ≠ '?')).drop 1)).foldlM
        Target.withParameter ⟨location, false⟩ := by
  have hlength : ("sqlite://" ++ path).toList.length = path.toList.length + 9 := by
    rw [String.toList_append, List.length_append, Nat.add_comm]
    rfl
  have hbehind : dropMarks "sqlite:".toList ("sqlite://" ++ path).toList.length
      (dropMarks "sqlite://".toList ("sqlite://" ++ path).toList.length
        ("sqlite://" ++ path).toList) = behindMarks path.toList := by
    rw [hlength, String.toList_append, dropMarks_append]
    rfl
  rw [Target.ofUrl, hbehind]
  dsimp only [locationOf]
  split
  · rfl
  · cases Utf8.decode _ <;> rfl

theorem locationOf_eq_file_iff {cs : List Char} : locationOf cs = .ok (.file path) ↔
    cs ≠ [] ∧ cs ≠ ":memory:".toList ∧ percentDecode cs = Utf8.encode path.toList := by
  by_cases hmark : cs = ":memory:".toList || cs = []
  · rw [locationOf, if_pos hmark]
    simp only [Bool.or_eq_true, decide_eq_true_eq] at hmark
    refine iff_of_false nofun ?_
    tauto
  · rw [locationOf, if_neg hmark]
    simp only [Bool.or_eq_true, decide_eq_true_eq, not_or] at hmark
    rw [← Utf8.decode_eq_ok_iff, and_iff_right hmark.2, and_iff_right hmark.1]
    cases hdecode : Utf8.decode (percentDecode cs) with
    | error e => simp
    | ok p => simp [← String.toList_inj]

/-- A part of a path that has all of its bytes is the path. -/
theorem eq_of_infix_of_bytes {cs part : List Char} (h : part <:+: cs)
    (hbytes : (Utf8.encode cs).length ≤ (Utf8.encode part).length) : part = cs := by
  obtain ⟨before, after, rfl⟩ := h
  simp only [Utf8.length_encode_append] at hbytes
  have hbefore := Utf8.length_le_encode before
  have hafter := Utf8.length_le_encode after
  obtain rfl : before = [] := List.length_eq_zero_iff.mp (by omega)
  obtain rfl : after = [] := List.length_eq_zero_iff.mp (by omega)
  simp

theorem ofUrl_path_eq_iff (path : String) :
    Target.ofUrl ("sqlite://" ++ path) = .ok ⟨.file path, false⟩ ↔ Verbatim path := by
  rw [ofUrl_path]
  constructor
  · intro h
    cases hlocation : locationOf ((behindMarks path.toList).takeWhile (· ≠ '?')) with
    | error e => rw [hlocation] at h; cases h
    | ok location =>
      rw [hlocation] at h
      have hfile : location = .file path := location_of_parameters h rfl
      rw [hfile, locationOf_eq_file_iff] at hlocation
      obtain ⟨hne, hdisk, hbytes⟩ := hlocation
      -- all bytes of the path are there, so that nothing has been taken off or cut away
      have hcut := List.takeWhile_prefix (· ≠ '?') (l := behindMarks path.toList)
      have hall := eq_of_infix_of_bytes (hcut.isInfix.trans (behindMarks_suffix path.toList).isInfix)
        (by rw [← hbytes]; exact length_percentDecode_le _)
      rw [hall] at hne hdisk hbytes hcut
      have hbehind : behindMarks path.toList = path.toList :=
        (behindMarks_suffix path.toList).eq_of_length_le hcut.length_le
      rw [hbehind, List.takeWhile_eq_self_iff] at hall
      exact {
        nonempty := fun he => hne (by rw [he]; rfl)
        onDisk := fun he => hdisk (by rw [he])
        unmarked := (behindMarks_eq_iff _).mp hbehind
        whole := fun hmem => by simpa using hall '?' hmem
        unescaped := (percentDecode_eq_iff _).mp hbytes }
  · intro h
    have hall : ∀ c ∈ path.toList, decide (c ≠ '?') = true := by
      intro c hc
      exact decide_eq_true fun he => h.whole (he ▸ hc)
    have htake : path.toList.takeWhile (· ≠ '?') = path.toList :=
      List.takeWhile_eq_self_iff.mpr hall
    have hdrop : path.toList.dropWhile (· ≠ '?') = [] := List.dropWhile_eq_nil_iff.mpr hall
    have hlocation : locationOf path.toList = .ok (.file path) := by
      rw [locationOf_eq_file_iff]
      refine ⟨fun he => h.nonempty (String.toList_inj.mp he), fun he => h.onDisk ?_,
        (percentDecode_eq_iff _).mpr h.unescaped⟩
      exact String.toList_inj.mp he
    rw [(behindMarks_eq_iff _).mpr h.unmarked, htake, hdrop, hlocation]
    rfl

/-! ## Storage -/

theorem target_openDatabase {m : Machine} {o : Opened} (h : openDatabase t m = .ok o) :
    o.target = t := by
  unfold openDatabase at h
  cases hopen : m.files.openDatabase m.cwd t with
  | error e => rw [hopen] at h; cases h
  | ok opened =>
    obtain ⟨d, f⟩ := opened
    rw [hopen] at h
    obtain ⟨r, d', hupgrade⟩ : ∃ r d', d.upgrade = (r, d') := ⟨_, _, rfl⟩
    cases r with
    | error e => simp [bind, Except.bind, hupgrade] at h
    | ok _ =>
      simp [bind, Except.bind, hupgrade, pure, Except.pure] at h
      rw [← h]

theorem ofUrl_of_openStorage {url : String} {p : Option String} {m : Machine} {o : Opened}
    (h : openStorage (.database url p) m = .ok o) : Target.ofUrl url = .ok o.target := by
  -- the directory that is made first leaves the URL alone
  have hopen : ∃ m', openUrl url m' = .ok o := by
    have hmapped : ∀ m', (openUrl url m').mapError StartError.database = .ok o →
        openUrl url m' = .ok o := by
      intro m' h
      cases hopen : openUrl url m' <;> rw [hopen] at h <;> cases h
      rfl
    unfold openStorage at h
    cases hparent : p.bind Files.parentOf with
    | none =>
      simp only [hparent, bind, Except.bind] at h
      exact ⟨_, hmapped _ h⟩
    | some parent =>
      cases hmade : m.files.addAll m.cwd parent with
      | error e =>
        simp only [hparent, hmade, bind, Except.bind] at h
        cases h
      | ok f =>
        simp only [hparent, hmade, bind, Except.bind] at h
        exact ⟨_, hmapped _ h⟩
  obtain ⟨m', hopen⟩ := hopen
  rw [openUrl] at hopen
  cases htarget : Target.ofUrl url with
  | error e => rw [htarget] at hopen; cases hopen
  | ok t =>
    rw [htarget] at hopen
    rw [target_openDatabase hopen]

/-- A path among the properties leads to the file of that name just if it stands for itself in a URL,
and that file is what the server opens. -/
theorem opened_verbatim_iff (home : String) {raw : String} (hmemory : raw ≠ "memory")
    (hurl : ¬ "sqlite:".toList <+: raw.toList) :
    ∃ url path, Storage.ofText home raw = .database url (some path) ∧ path = expandHome home raw ∧
      (Target.ofUrl url = .ok ⟨.file path, false⟩ ↔ Verbatim path) ∧
      ∀ m o, openStorage (Storage.ofText home raw) m = .ok o →
        (o.target = ⟨.file path, false⟩ ↔ Verbatim path) := by
  have hstorage : Storage.ofText home raw =
      .database ("sqlite://" ++ expandHome home raw) (some (expandHome home raw)) := by
    rw [Storage.ofText, if_neg hmemory, if_neg (by rwa [List.isPrefixOf_iff_prefix])]
  have hiff := ofUrl_path_eq_iff (expandHome home raw)
  refine ⟨_, _, hstorage, rfl, hiff, ?_⟩
  intro m o ho
  rw [hstorage] at ho
  rw [← hiff, ofUrl_of_openStorage ho, Except.ok.injEq]

/-- A path in a directory that is not there yet. -/
theorem opened_verbatim_iff_plain :
    let raw := "~/new/50%.db"
    raw ≠ "memory" ∧ ¬ "sqlite:".toList <+: raw.toList ∧
      Target.ofUrl "sqlite:///home/me/new/50%.db" = .ok ⟨.file "/home/me/new/50%.db", false⟩ := by
  have hmemory : "~/new/50%.db" ≠ "memory" := by decide
  have hurl : ¬ "sqlite:".toList <+: "~/new/50%.db".toList := by decide
  obtain ⟨url, path, hstorage, hpath, hiff, -⟩ := opened_verbatim_iff "/home/me" hmemory hurl
  have hsaid : Storage.ofText "/home/me" "~/new/50%.db" =
      .database "sqlite:///home/me/new/50%.db" (some "/home/me/new/50%.db") := by decide +kernel
  obtain ⟨rfl, rfl⟩ : url = "sqlite:///home/me/new/50%.db" ∧ path = "/home/me/new/50%.db" := by
    rw [hsaid] at hstorage
    cases hstorage
    exact ⟨rfl, rfl⟩
  refine ⟨hmemory, hurl, hiff.mpr ⟨by decide, by decide, by decide, by decide, ?_⟩⟩
  rw [← percentDecode_eq_iff]
  decide +kernel

theorem path_misread :
    (Storage.ofText "/home/me" "/data/100%41.db" =
        .database "sqlite:///data/100%41.db" (some "/data/100%41.db") ∧
      Target.ofUrl "sqlite:///data/100%41.db" = .ok ⟨.file "/data/100A.db", false⟩) ∧
    (Storage.ofText "/home/me" "/data/what?.db" =
        .database "sqlite:///data/what?.db" (some "/data/what?.db") ∧
      ∃ e, Target.ofUrl "sqlite:///data/what?.db" = .error e) ∧
    (Storage.ofText "/home/me" "/data/x?mode=memory" =
        .database "sqlite:///data/x?mode=memory" (some "/data/x?mode=memory") ∧
      Target.ofUrl "sqlite:///data/x?mode=memory" = .ok ⟨.memory, false⟩) := by
  refine ⟨⟨by decide +kernel, by decide +kernel⟩, ⟨by decide +kernel, ?_⟩,
    by decide +kernel, by decide +kernel⟩
  exact ⟨.configuration _, rfl⟩

end CellReplay
