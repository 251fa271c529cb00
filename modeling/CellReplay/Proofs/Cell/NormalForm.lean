import CellReplay.Cell
import CellReplay.Proofs.Text.Blanks

/-!
# Proofs.Cell.NormalForm

Reading a cell brings it into a normal form, and a request in that form can be written as a cell again.

* `Request.Normal`   — what is true of a request that has been read.
* `Request.rebuilt`  — the cell of a request.
* `Cell.Respaced`    — two cells that differ in blanks only, at their ends or behind the tag.
* `split_respaced`   — such cells have the same language and the same code.
* `read_normal`      — a request that is read is normal and is read from its own cell again, and blanks
  around a cell and behind its tag have no say in it.
-/

namespace CellReplay

open Text

/-! ## Cells and requests -/

/-- What is true of a request that has been read, with the field that names a session. -/
structure Request.Normal (field : Option String) (r : Request) : Prop where
  language : ∀ c ∈ r.language.toList, c ≠ Cell.marker ∧ isBlank c = false
  code : Trimmed r.code.toList
  session : r.sessionId = if r.language = "" ∨ r.code = "" then none else SessionId.ofField field
  status : r.status =
    if r.language = "" ∨ r.code = "" then .wrongSyntax
    else if r.sessionId.isSome then .good
    else .noNeedForSession

/-- The cell of a request. -/
def Request.rebuilt (r : Request) : String := "%" ++ r.language ++ " " ++ r.code

namespace Cell

/-- Two cells that differ in blanks only, at their ends or between the tag and the code. -/
inductive Respaced : List Char → List Char → Prop
  | ends {before before' after after' : List Char} (cs : List Char)
      (hbefore : ∀ c ∈ before, isBlank c = true) (hbefore' : ∀ c ∈ before', isBlank c = true)
      (hafter : ∀ c ∈ after, isBlank c = true) (hafter' : ∀ c ∈ after', isBlank c = true) :
      Respaced (before ++ (cs ++ after)) (before' ++ (cs ++ after'))
  | between {tag gap gap' : List Char} (body : List Char)
      (htag : ∀ c ∈ tag, isBlank c = false) (hne : gap ≠ []) (hne' : gap' ≠ [])
      (hgap : ∀ c ∈ gap, isBlank c = true) (hgap' : ∀ c ∈ gap', isBlank c = true) :
      Respaced (tag ++ (gap ++ body)) (tag ++ (gap' ++ body))
  | trans {cs ds es : List Char} : Respaced cs ds → Respaced ds es → Respaced cs es

theorem split_eq (cs : List Char) :
    split cs = ((splitBlank (trimStart cs)).1.filter (· ≠ marker),
      trim (splitBlank (trimStart cs)).2) := rfl

theorem split_blanks_append {before : List Char} (h : ∀ c ∈ before, isBlank c = true)
    (cs : List Char) : split (before ++ cs) = split cs := by
  rw [split_eq, trimStart_append h, split_eq]

theorem split_append_blanks {after : List Char} (h : ∀ c ∈ after, isBlank c = true)
    (cs : List Char) : split (cs ++ after) = split cs := by
  by_cases hnil : trimStart cs = []
  · have hall : ∀ c ∈ cs ++ after, isBlank c = true :=
      List.forall_mem_append.mpr ⟨List.dropWhile_eq_nil_iff.mp hnil, h⟩
    have hnil' : trimStart (cs ++ after) = [] := List.dropWhile_eq_nil_iff.mpr hall
    rw [split_eq, split_eq, hnil, hnil']
  · obtain ⟨hword, hrest⟩ := splitBlank_append_blanks h (trimStart cs)
    rw [split_eq, split_eq, trimStart_append_of_ne hnil, hword, hrest]

/-- A tag with blanks behind it is taken apart from the code. -/
theorem split_tag {tag gap : List Char} (body : List Char) (hne : tag ≠ [])
    (htag : ∀ c ∈ tag, isBlank c = false) (hgap : gap ≠ [])
    (hblank : ∀ c ∈ gap, isBlank c = true) :
    split (tag ++ (gap ++ body)) = (tag.filter (· ≠ marker), trim body) := by
  obtain ⟨c, tag, rfl⟩ := List.exists_cons_of_ne_nil hne
  obtain ⟨b, gap, rfl⟩ := List.exists_cons_of_ne_nil hgap
  obtain ⟨hb, hgap⟩ := List.forall_mem_cons.mp hblank
  have hstart : trimStart (c :: tag ++ (b :: gap ++ body)) = c :: tag ++ (b :: gap ++ body) :=
    trimStart_eq_self fun d hd => by
      cases hd
      exact htag c List.mem_cons_self
  rw [split_eq, hstart, List.cons_append (a := b), splitBlank_append htag hb,
    trim_blanks_append hgap]

theorem split_respaced {cs ds : List Char} (h : Respaced cs ds) : split cs = split ds := by
  induction h with
  | ends cs hbefore hbefore' hafter hafter' =>
    rw [split_blanks_append hbefore, split_append_blanks hafter, split_blanks_append hbefore',
      split_append_blanks hafter']
  | @between tag gap gap' body htag hne hne' hgap hgap' =>
    by_cases hnil : tag = []
    · -- blanks before a first word are blanks at the start
      rw [hnil, List.nil_append, List.nil_append, split_blanks_append hgap,
        split_blanks_append hgap']
    · rw [split_tag body hnil htag hne hgap, split_tag body hnil htag hne' hgap']
  | trans _ _ ih ih' => exact ih.trans ih'

theorem mem_language {c : Char} {cs : List Char} (h : c ∈ (split cs).1) :
    c ≠ marker ∧ isBlank c = false := by
  rw [split_eq] at h
  obtain ⟨hmem, hmarker⟩ := List.mem_filter.mp h
  have hblank : (!isBlank c) = true := List.mem_takeWhile_imp (p := (!isBlank ·)) hmem
  exact ⟨of_decide_eq_true hmarker, by simpa using hblank⟩

theorem read_eq {raw : String} {field : Option String} {language code : List Char}
    (h : split raw.toList = (language, code)) :
    read raw field =
      if language = [] ∨ code = [] then
        ⟨String.ofList language, String.ofList code, none, .wrongSyntax⟩
      else
        ⟨String.ofList language, String.ofList code, SessionId.ofField field,
          if (SessionId.ofField field).isSome then .good else .noNeedForSession⟩ := by
  simp only [read, h, Bool.or_eq_true, List.isEmpty_iff]

theorem normal_read (raw : String) (field : Option String) : (read raw field).Normal field := by
  obtain ⟨language, code, hsplit⟩ : ∃ language code, split raw.toList = (language, code) :=
    ⟨_, _, rfl⟩
  have hlanguage : ∀ c ∈ language, c ≠ marker ∧ isBlank c = false := by
    intro c hc
    have hmem : c ∈ (split raw.toList).1 := by rwa [hsplit]
    exact mem_language hmem
  have hcode : Trimmed code := by
    have hbody : trim (splitBlank (trimStart raw.toList)).2 = code := congrArg Prod.snd hsplit
    rw [← hbody]
    exact trimmed_trim _
  rw [read_eq hsplit]
  by_cases hempty : language = [] ∨ code = []
  · rw [if_pos hempty]
    exact ⟨by simpa using hlanguage, by simpa using hcode,
      by simp [hempty], by simp [hempty]⟩
  · rw [if_neg hempty]
    exact ⟨by simpa using hlanguage, by simpa using hcode,
      by simp [hempty], by simp [hempty]⟩

/-- The cell of a normal request is split into its language and its code. -/
theorem split_rebuilt {r : Request} {field : Option String} (h : r.Normal field) :
    split r.rebuilt.toList = (r.language.toList, r.code.toList) := by
  have htext : r.rebuilt.toList = (marker :: r.language.toList) ++ ([' '] ++ r.code.toList) := by
    simp only [Request.rebuilt, String.toList_append, List.append_assoc]
    rfl
  have htag : ∀ c ∈ marker :: r.language.toList, isBlank c = false :=
    List.forall_mem_cons.mpr ⟨rfl, fun c hc => (h.language c hc).2⟩
  have hlanguage : (marker :: r.language.toList).filter (· ≠ marker) = r.language.toList := by
    rw [List.filter_cons_of_neg (by simp)]
    exact List.filter_eq_self.mpr fun c hc => decide_eq_true (h.language c hc).1
  rw [htext, split_tag _ (List.cons_ne_nil _ _) htag (List.cons_ne_nil _ _)
    (List.forall_mem_singleton.mpr rfl), hlanguage, h.code.trim_eq]

theorem read_rebuilt {r : Request} {field : Option String} (h : r.Normal field) :
    read r.rebuilt field = r := by
  obtain ⟨language, code, id, status⟩ := r
  have hsession := h.session
  have hstatus := h.status
  rw [read_eq (split_rebuilt h)]
  simp only [String.toList_eq_nil_iff, String.ofList_toList] at hsession hstatus ⊢
  split at hsession
  · next hnil => rw [if_pos hnil, hsession, hstatus, if_pos hnil]
  · next hnil => rw [if_neg hnil, hstatus, if_neg hnil, hsession]

/-- Reading a cell gives a normal request. It is read again from its own cell, and it does not depend
on blanks before the cell, behind it or between its tag and its code. -/
theorem read_normal (raw : String) (field : Option String) :
    (read raw field).Normal field ∧ read (read raw field).rebuilt field = read raw field ∧
      ∀ raw' : String, Respaced raw.toList raw'.toList → read raw' field = read raw field := by
  refine ⟨normal_read raw field, read_rebuilt (normal_read raw field), fun raw' h => ?_⟩
  have hsplit : split raw'.toList = split raw.toList := (split_respaced h).symm
  rw [read_eq hsplit, read_eq rfl]

/-- Blanks beyond ASCII at both ends and behind a tag with a marker inside, and code that looks like a
tag. -/
theorem read_normal_padded :
    let raw := "\u2003%py%thon\u0085\n %x = 1\t"
    let raw' := "%py%thon %x = 1"
    Respaced raw.toList raw'.toList ∧ read raw' (some " +7") = read raw (some " +7") ∧
      read raw (some " +7") = ⟨"python", "%x = 1", some ⟨7, by decide, by decide⟩, .good⟩ := by
  intro raw raw'
  let middle := "%py%thon\u0085\n %x = 1"
  have hraw : raw.toList = ['\u2003'] ++ (middle.toList ++ ['\t']) := by decide
  have hmiddle : middle.toList = "%py%thon".toList ++ (['\u0085', '\n', ' '] ++ "%x = 1".toList) := by
    decide
  have hraw' : raw'.toList = "%py%thon".toList ++ ([' '] ++ "%x = 1".toList) := by decide
  have hends : Respaced raw.toList middle.toList := by
    have h : Respaced (['\u2003'] ++ (middle.toList ++ ['\t'])) ([] ++ (middle.toList ++ [])) :=
      .ends middle.toList (List.forall_mem_singleton.mpr rfl) nofun
        (List.forall_mem_singleton.mpr rfl) nofun
    rwa [← hraw, List.append_nil, List.nil_append] at h
  have hbetween : Respaced middle.toList raw'.toList := by
    have htag : ∀ c ∈ "%py%thon".toList, isBlank c = false := by
      simpa using show "%py%thon".toList.all (!isBlank ·) = true from rfl
    rw [hmiddle, hraw']
    exact .between _ htag (List.cons_ne_nil _ _) (List.cons_ne_nil _ _)
      (List.all_eq_true.mp rfl) (List.forall_mem_singleton.mpr rfl)
  have hrespaced := hends.trans hbetween
  exact ⟨hrespaced, (read_normal raw (some " +7")).2.2 raw' hrespaced, by decide⟩

end Cell

end CellReplay
