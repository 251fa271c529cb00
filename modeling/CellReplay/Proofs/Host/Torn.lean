import CellReplay.Proofs.Host.Merging
import CellReplay.Proofs.Text.Halves

/-!
# Proofs.Host.Torn

Pipes are read in pieces that may end within a character, and the bytes of both are read as one text. So
two texts come out unharmed exactly if no character is torn.

* `Merge.Tears`     — a read takes bytes of one pipe while a character of the other is half read.
* `Merge.Halfway`   — the invariant: what is still to come are two texts, of one of which the first
  character may have been begun.
* `Halfway.step`, `Halfway.tears` — a read keeps it, or else tears the character that has been begun.
* `Halfway.read`    — what is read from now on as a text.
* `text_intact_iff` — no U+FFFD appears exactly if no read tears a character, and exactly if the text is
  an interleaving of the two.
* `character_torn`  — a run whose text does contain one.
-/

namespace CellReplay

open Text Text.Utf8

namespace Outlet

theorem other_ne (o : Outlet) : o.other ≠ o := by cases o <;> decide

theorem other_other (o : Outlet) : o.other.other = o := by cases o <;> rfl

theorem eq_other_of_ne {o p : Outlet} (h : p ≠ o) : p = o.other := by
  cases o <;> cases p
  · exact absurd rfl h
  · rfl
  · rfl
  · exact absurd rfl h

end Outlet

namespace Merge

variable {m : Merge} {next : Nat → Pick} {i : Nat} {k : Pick} {t : Outlet → List Char} {o : Outlet}
  {h : List UInt8}

/-! ## Reads that tear a character -/

/-- Bytes of one pipe are read while what remains of the other does not begin with a character, but with
what is missing of one. -/
def Tears (m : Merge) (k : Pick) : Prop :=
  m.piece k ≠ [] ∧ ∀ cs, m.remaining (m.source k).other ≠ encode cs

/-- Some read from the one with number `i` on tears a character. -/
def TearsFrom (m : Merge) (next : Nat → Pick) (i : Nat) : Prop :=
  ∃ n, (m.after next i n).Tears (next (i + n))

theorem tearsFrom_iff :
    m.TearsFrom next i ↔ m.Tears (next i) ∨ (m.step (next i)).TearsFrom next (i + 1) := by
  constructor
  · rintro ⟨n | n, hn⟩
    · exact .inl hn
    · refine .inr ⟨n, ?_⟩
      rwa [after_succ, ← Nat.add_assoc, Nat.add_right_comm] at hn
  · rintro (hn | ⟨n, hn⟩)
    · exact ⟨0, hn⟩
    · refine ⟨n + 1, ?_⟩
      rwa [after_succ, ← Nat.add_assoc, Nat.add_right_comm]

theorem not_tearsFrom_of_isDone (hdone : m.isDone) : ¬ m.TearsFrom next i := by
  rintro ⟨n, hpiece, -⟩
  rw [after_of_isDone hdone] at hpiece
  have happend := piece_append m (next (i + n))
  rw [remaining_of_isDone hdone] at happend
  exact hpiece (List.append_eq_nil_iff.mp happend).1

/-! ## Half-read texts -/

/-- The texts `t` are still to come, but for the bytes `h` of one pipe: they have been read as part of the
first character there. -/
structure Halfway (m : Merge) (t : Outlet → List Char) (o : Outlet) (h : List UInt8) : Prop where
  own : encode (t o) = h ++ m.remaining o
  other : encode (t o.other) = m.remaining o.other
  begun : h = [] ∨ Begun h (t o)

namespace Halfway

/-- Where no character has been begun, it may be said of either pipe. -/
theorem swap (hm : m.Halfway t o []) : m.Halfway t o.other [] where
  own := hm.other
  other := by
    rw [Outlet.other_other]
    exact hm.own
  begun := .inl rfl

/-- Reading on in the pipe where a character may have been begun. -/
theorem step_own (hm : m.Halfway t o h) (hs : m.source k = o) :
    ∃ ds t' h', (m.step k).Halfway t' o h' ∧ h ++ m.piece k = encode ds ++ h' ∧
      t o = ds ++ t' o ∧ t o.other = t' o.other := by
  subst hs
  have hbytes : encode (t (m.source k)) =
      (h ++ m.piece k) ++ (m.step k).remaining (m.source k) := by
    rw [List.append_assoc, piece_append, hm.own]
  obtain ⟨ds, h', es, hds, hpiece, hes, hbegun⟩ := exists_begun hbytes
  obtain ⟨t', hown, hother⟩ : ∃ t' : Outlet → List Char,
      t' (m.source k) = es ∧ t' (m.source k).other = t (m.source k).other :=
    ⟨fun p => if p = m.source k then es else t p, if_pos rfl, if_neg (Outlet.other_ne _)⟩
  refine ⟨ds, t', h', ⟨?_, ?_, ?_⟩, hpiece, ?_, hother.symm⟩
  · rw [hown, hes]
  · rw [hother, hm.other, remaining_step_other]
  · rwa [hown]
  · rw [hown, hds]

/-- A read that tears no character takes whole characters, and perhaps begins another one. -/
theorem step (hm : m.Halfway t o h) (hk : ¬ m.Tears k) :
    ∃ ds t' o' h' p, (m.step k).Halfway t' o' h' ∧ h ++ m.piece k = encode ds ++ h' ∧
      t p = ds ++ t' p ∧ t p.other = t' p.other := by
  by_cases hs : m.source k = o
  · obtain ⟨ds, t', h', hm', hpiece, hown, hother⟩ := hm.step_own hs
    exact ⟨ds, t', o, h', o, hm', hpiece, hown, hother⟩
  have hsource := Outlet.eq_other_of_ne hs
  have hback : (m.source k).other = o := by rw [hsource, Outlet.other_other]
  by_cases hnothing : m.piece k = []
  · -- the end of the other pipe has been seen
    have hpiece := piece_append m k
    have hremaining := remaining_step_other m k
    rw [hnothing, List.nil_append, hsource] at hpiece
    rw [hback] at hremaining
    refine ⟨[], t, o, h, o, ⟨?_, ?_, hm.begun⟩, by rw [hnothing, List.append_nil]; rfl, rfl, rfl⟩
    · rw [hm.own, hremaining]
    · rw [hm.other, hpiece]
  · -- no character has been begun, so that the other pipe is the one to go on with
    have hwhole : ∃ cs, m.remaining o = encode cs := by
      by_contra hno
      refine hk ⟨hnothing, fun cs hcs => hno ⟨cs, ?_⟩⟩
      rwa [hback] at hcs
    obtain ⟨cs, hcs⟩ := hwhole
    rcases hm.begun with rfl | hbegun
    · obtain ⟨ds, t', h', hm', hpiece, hown, hother⟩ := hm.swap.step_own hsource
      exact ⟨ds, t', o.other, h', o.other, hm', hpiece, hown, hother⟩
    · exact absurd hcs (hbegun.not_whole hm.own cs)

/-- A read that tears a character leaves a mark, whatever is read behind it. -/
theorem tears (hm : m.Halfway t o h) (hk : m.Tears k) (rest : List UInt8) :
    replacement ∈ decodeLossy (h ++ (m.piece k ++ rest)) := by
  have hs : m.source k ≠ o := by
    rintro rfl
    exact hk.2 _ hm.other.symm
  have hsource := Outlet.eq_other_of_ne hs
  have hbegun : Begun h (t o) := by
    refine hm.begun.resolve_left ?_
    rintro rfl
    refine hk.2 (t o) ?_
    rw [hsource, Outlet.other_other, hm.own, List.nil_append]
  have hbytes : encode (t o.other) = m.piece k ++ (m.step k).remaining (m.source k) := by
    rw [piece_append, hsource, hm.other]
  exact hbegun.broken hbytes hk.1 rest

theorem eq_nil_of_isDone (hm : m.Halfway t o h) (hdone : m.isDone) : h = [] ∧ ∀ p, t p = [] := by
  have hown := hm.own
  have hother := hm.other
  rw [remaining_of_isDone hdone] at hown hother
  rw [List.append_nil] at hown
  have hh : h = [] := hm.begun.resolve_right fun hbegun => hbegun.ne_encode hown
  refine ⟨hh, fun p => ?_⟩
  by_cases hp : p = o
  · rw [hp, eq_nil_of_encode (hown.trans hh)]
  · rw [Outlet.eq_other_of_ne hp, eq_nil_of_encode hother]

/-- What is read from now on, behind the part of a character that has been read before. -/
theorem read (hm : m.Halfway t o h) (next : Nat → Pick) (i : Nat) :
    ∃ zs, (m.readFrom next i).taken = m.taken ++ zs ∧
      (m.TearsFrom next i → replacement ∈ decodeLossy (h ++ zs)) ∧
      (¬ m.TearsFrom next i → Interleaves (t .output) (t .complaints) (decodeLossy (h ++ zs))) := by
  fun_induction m.readFrom next i generalizing t o h with
  | case1 i m hdone =>
    obtain ⟨rfl, ht⟩ := hm.eq_nil_of_isDone hdone
    refine ⟨[], (List.append_nil _).symm, fun htears => ?_, fun _ => ?_⟩
    · exact absurd htears (not_tearsFrom_of_isDone hdone)
    · rw [ht, ht]
      exact .nil
  | case2 i m hdone ih =>
    by_cases hk : m.Tears (next i)
    · obtain ⟨zs, htaken, -⟩ := interleaves_readFrom (m.step (next i)) next (i + 1)
      refine ⟨m.piece (next i) ++ zs, by rw [htaken, taken_step, List.append_assoc], fun _ => ?_,
        fun hno => absurd (tearsFrom_iff.mpr (.inl hk)) hno⟩
      exact hm.tears hk zs
    · obtain ⟨ds, t', o', h', p, hm', hbytes, hfront, hother⟩ := hm.step hk
      obtain ⟨zs, htaken, hmark, hinterleaved⟩ := ih hm'
      have hdecoded : decodeLossy (h ++ (m.piece (next i) ++ zs)) = ds ++ decodeLossy (h' ++ zs) := by
        rw [← List.append_assoc, hbytes, List.append_assoc, decodeLossy_encode_append]
      refine ⟨m.piece (next i) ++ zs, by rw [htaken, taken_step, List.append_assoc], fun htears => ?_,
        fun hno => ?_⟩
      · rw [hdecoded]
        exact List.mem_append_right ds (hmark ((tearsFrom_iff.mp htears).resolve_left hk))
      · rw [hdecoded]
        exact (hinterleaved fun htears => hno (tearsFrom_iff.mpr (.inr htears))).append_at t t'
          hfront hother

end Halfway

end Merge

/-- Two texts without U+FFFD come in through two pipes, in any pieces and in any order. The text that is
made of them contains no U+FFFD exactly if no read tears a character, and exactly if it is an interleaving
of the two. This is the text that is reported of a program that prints them, if its pipes are read like
that. -/
theorem text_intact_iff {output complaints : List Char} (houtput : replacement ∉ output)
    (hcomplaints : replacement ∉ complaints) (next : Nat → Pick) :
    let m := Merge.start (encode output) (encode complaints)
    let text := (m.read next).text.toList
    (replacement ∉ text ↔ ¬ m.TearsFrom next 0) ∧
      (replacement ∉ text ↔ Interleaves output complaints text) ∧
      ∀ c : Course, c.printed .output = encode output → c.printed .complaints = encode complaints →
        c.finished next = ⟨c.code, String.ofList text⟩ := by
  intro m text
  let t : Outlet → List Char := fun o => if o = .output then output else complaints
  have hm : m.Halfway t .output [] := ⟨rfl, rfl, .inl rfl⟩
  obtain ⟨zs, htaken, hmark, hinterleaved⟩ := hm.read next 0
  have htext : text = decodeLossy ([] ++ zs) := by
    change (String.ofList (decodeLossy (m.readFrom next 0).taken)).toList = _
    rw [htaken, String.toList_ofList]
    rfl
  have hclean (h : Interleaves output complaints text) : replacement ∉ text := fun hmem =>
    (h.mem_or_mem hmem).elim houtput hcomplaints
  rw [← htext] at hmark hinterleaved
  refine ⟨⟨mt hmark, fun hno => hclean (hinterleaved hno)⟩,
    ⟨fun hno => hinterleaved (mt hmark hno), hclean⟩, fun c ho hc => ?_⟩
  rw [Course.finished, ho, hc, String.ofList_toList]

/-- The two bytes of a character are read one at a time, with nothing between them. -/
theorem text_intact_iff_bytewise :
    let output := "é0".toList
    let complaints := "printf: x: expected numeric value\n".toList
    let c : Course := ⟨some 1, [(.complaints, encode complaints), (.output, encode output)]⟩
    let next := Merge.inOrder [⟨.complaints, ⟨5, by decide⟩⟩]
    let text := "printfé0: x: expected numeric value\n"
    replacement ∉ output ∧ replacement ∉ complaints ∧
      ¬ (Merge.start (encode output) (encode complaints)).TearsFrom next 0 ∧
      Interleaves output complaints text.toList ∧
      c.finished next = ⟨some 1, text⟩ := by
  intro output complaints c next text
  have houtput : replacement ∉ output := by decide
  have hcomplaints : replacement ∉ complaints := by decide
  have htext : ((Merge.start (encode output) (encode complaints)).read next).text = text := by
    decide +kernel
  have hclean : replacement ∉ text.toList := by decide
  obtain ⟨htears, hinterleaves, hfinished⟩ := text_intact_iff houtput hcomplaints next
  rw [htext] at htears hinterleaves hfinished
  refine ⟨houtput, hcomplaints, htears.mp hclean, hinterleaves.mp hclean, ?_⟩
  rw [hfinished c rfl rfl, String.ofList_toList]

/-- Between the two bytes of a character, one arrives that has been printed to the other pipe. -/
theorem character_torn :
    let c : Course :=
      ⟨some 0, [(.output, [0xC3]), (.complaints, [0x78]), (.output, [0xA9])]⟩
    c.printed .output = encode ['é'] ∧ c.printed .complaints = encode ['x'] ∧
      replacement ∉ ['é'] ∧ replacement ∉ ['x'] ∧
      c.finished (Merge.inOrder (Merge.picks c.arrivals)) = ⟨some 0, "\uFFFDx\uFFFD"⟩ := by
  decide +kernel

end CellReplay
