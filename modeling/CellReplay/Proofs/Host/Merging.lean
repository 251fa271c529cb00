import CellReplay.Host.Pipes
import Mathlib.Data.List.Basic

/-!
# Proofs.Host.Merging

Reading two pipes side by side comes to an end and loses nothing, whichever pipe is read next and
however many bytes come at a time.

* `Interleaves`  — a list in which two others alternate in any way.
* `Merge.remaining` — the bytes of a pipe that have not been read yet; one read takes them from the
  front (`piece_append`) and leaves the other pipe alone (`remaining_step_other`).
* `Merge.after`  — where reading has got to; after finitely many reads both ends have been seen
  (`exists_last_read`).
* `interleaves_readFrom` — what is read from now on is an interleaving of what remains.
* `pipes_merged` — so it is with reading as a whole, and with all that is told of a program.
-/

namespace CellReplay

open Text

/-- Two lists alternate in a third one in any way, each of them whole and in its order. -/
inductive Interleaves {α : Type} : List α → List α → List α → Prop
  | nil : Interleaves [] [] []
  | left {x : α} {xs ys zs : List α} : Interleaves xs ys zs → Interleaves (x :: xs) ys (x :: zs)
  | right {y : α} {xs ys zs : List α} : Interleaves xs ys zs → Interleaves xs (y :: ys) (y :: zs)

namespace Interleaves

variable {α : Type} {xs ys zs : List α}

theorem append_left (h : Interleaves xs ys zs) (us : List α) :
    Interleaves (us ++ xs) ys (us ++ zs) := by
  induction us with
  | nil => exact h
  | cons u us ih => exact .left ih

theorem append_right (h : Interleaves xs ys zs) (us : List α) :
    Interleaves xs (us ++ ys) (us ++ zs) := by
  induction us with
  | nil => exact h
  | cons u us ih => exact .right ih

/-- What is in front of one of two parts may come first. -/
theorem append_at (parts rest : Outlet → List α) {us : List α} {o : Outlet}
    (h : Interleaves (rest .output) (rest .complaints) zs) (hfront : parts o = us ++ rest o)
    (hother : parts o.other = rest o.other) :
    Interleaves (parts .output) (parts .complaints) (us ++ zs) := by
  cases o with
  | output =>
    rw [hfront, show parts .complaints = rest .complaints from hother]
    exact h.append_left us
  | complaints =>
    rw [hfront, show parts .output = rest .output from hother]
    exact h.append_right us

theorem mem_or_mem (h : Interleaves xs ys zs) {z : α} (hz : z ∈ zs) : z ∈ xs ∨ z ∈ ys := by
  induction h with
  | nil => exact .inl hz
  | left _ ih =>
    rcases List.mem_cons.mp hz with rfl | hz
    · exact .inl List.mem_cons_self
    · exact (ih hz).imp_left (List.mem_cons_of_mem _)
  | right _ ih =>
    rcases List.mem_cons.mp hz with rfl | hz
    · exact .inr List.mem_cons_self
    · exact (ih hz).imp_right (List.mem_cons_of_mem _)

theorem eq_left (h : Interleaves xs [] zs) : zs = xs := by
  generalize hys : ([] : List α) = ys at h
  induction h with
  | nil => rfl
  | left _ ih => rw [ih hys]
  | right _ _ => cases hys

theorem eq_right (h : Interleaves [] ys zs) : zs = ys := by
  generalize hxs : ([] : List α) = xs at h
  induction h with
  | nil => rfl
  | left _ _ => cases hxs
  | right _ ih => rw [ih hxs]

end Interleaves

namespace Stream

theorem read_append (s : Stream) (n : Nat) : (s.read n).1 ++ (s.read n).2.getD [] = s.getD [] := by
  rcases s with _ | _ | ⟨b, bs⟩
  · rfl
  · rfl
  · exact List.take_append_drop (n + 1) (b :: bs)

end Stream

namespace Merge

variable {m : Merge} {next : Nat → Pick}

/-! ## One read -/

/-- The bytes of a pipe that have not been read yet. -/
def remaining (m : Merge) (o : Outlet) : List UInt8 := (m.stream o).getD []

theorem stream_step_source (m : Merge) (k : Pick) :
    (m.step k).stream (m.source k) = ((m.stream (m.source k)).read k.more).2 := by
  unfold step
  cases m.source k <;> rfl

theorem stream_step_other (m : Merge) (k : Pick) :
    (m.step k).stream (m.source k).other = m.stream (m.source k).other := by
  unfold step
  cases m.source k <;> rfl

theorem taken_step (m : Merge) (k : Pick) : (m.step k).taken = m.taken ++ m.piece k := rfl

/-- A read takes bytes from the front of the pipe that is read. -/
theorem piece_append (m : Merge) (k : Pick) :
    m.piece k ++ (m.step k).remaining (m.source k) = m.remaining (m.source k) := by
  rw [remaining, stream_step_source]
  exact Stream.read_append _ _

/-- It leaves the other pipe alone. -/
theorem remaining_step_other (m : Merge) (k : Pick) :
    (m.step k).remaining (m.source k).other = m.remaining (m.source k).other := by
  rw [remaining, stream_step_other, remaining]

theorem remaining_of_isDone (h : m.isDone) (o : Outlet) : m.remaining o = [] := by
  obtain ⟨houtput, hcomplaints⟩ := Bool.and_eq_true_iff.mp h
  cases o with
  | output => rw [remaining, stream, Option.isNone_iff_eq_none.mp houtput, Option.getD_none]
  | complaints => rw [remaining, stream, Option.isNone_iff_eq_none.mp hcomplaints, Option.getD_none]

theorem step_of_isDone (h : m.isDone) (k : Pick) : m.step k = m := by
  rcases m with ⟨_ | _, _ | _, taken⟩
  · rcases k with ⟨_ | _, n⟩
    all_goals simp [step, source, piece, stream, withStream, Stream.read, Outlet.other]
  all_goals cases h

/-! ## Many reads -/

/-- Where reading has got to after `n` more reads, the first of which has the number `i`. -/
def after (m : Merge) (next : Nat → Pick) (i n : Nat) : Merge :=
  m.follow ((List.range' i n).map next)

theorem after_succ (m : Merge) (next : Nat → Pick) (i n : Nat) :
    m.after next i (n + 1) = (m.step (next i)).after next (i + 1) n := rfl

theorem after_of_isDone (h : m.isDone) (i n : Nat) : m.after next i n = m := by
  induction n generalizing i with
  | zero => rfl
  | succ n ih => rw [after_succ, step_of_isDone h, ih]

/-- There is a last read: from then on, and not before, both ends have been seen. -/
theorem exists_last_read (m : Merge) (next : Nat → Pick) (i : Nat) :
    ∃ n ≤ m.reads, m.readFrom next i = m.after next i n ∧
      ∀ j, (m.after next i j).isDone ↔ n ≤ j := by
  fun_induction m.readFrom next i with
  | case1 i m hdone =>
    refine ⟨0, Nat.zero_le _, rfl, fun j => ?_⟩
    rw [after_of_isDone hdone]
    exact iff_of_true hdone (Nat.zero_le j)
  | case2 i m hdone ih =>
    obtain ⟨n, hn, hread, hlast⟩ := ih
    have hless := reads_step (Bool.eq_false_iff.mpr hdone) (next i)
    refine ⟨n + 1, by omega, hread, fun j => ?_⟩
    cases j with
    | zero => exact iff_of_false hdone (Nat.not_succ_le_zero n)
    | succ j => rw [after_succ, hlast, Nat.succ_le_succ_iff]

/-- What is read from now on is an interleaving of what remains of the pipes. -/
theorem interleaves_readFrom (m : Merge) (next : Nat → Pick) (i : Nat) :
    ∃ zs, (m.readFrom next i).taken = m.taken ++ zs ∧
      Interleaves (m.remaining .output) (m.remaining .complaints) zs := by
  fun_induction m.readFrom next i with
  | case1 i m hdone =>
    refine ⟨[], (List.append_nil _).symm, ?_⟩
    rw [remaining_of_isDone hdone, remaining_of_isDone hdone]
    exact .nil
  | case2 i m hdone ih =>
    obtain ⟨zs, htaken, hzs⟩ := ih
    refine ⟨m.piece (next i) ++ zs, by rw [htaken, taken_step, List.append_assoc], ?_⟩
    exact hzs.append_at m.remaining (m.step (next i)).remaining (piece_append m (next i)).symm
      (remaining_step_other m (next i)).symm

/-- What comes of reading two pipes up to their ends. -/
structure ReadsWhole (output complaints : List UInt8) (next : Nat → Pick) : Prop where
  /-- Reading ends with the read behind which both ends have been seen, and there is such a read. -/
  ends : ∃ n ≤ output.length + complaints.length + 2,
    (start output complaints).read next = (start output complaints).after next 0 n ∧
      ∀ i, ((start output complaints).after next 0 i).isDone ↔ n ≤ i
  /-- Every byte of either pipe has been read once, in its order. -/
  interleaved : Interleaves output complaints ((start output complaints).read next).taken
  /-- Where one pipe carries nothing, the text is that of the other. -/
  outputAlone : complaints = [] →
    ((start output complaints).read next).text = String.ofList (Utf8.decodeLossy output)
  complaintsAlone : output = [] →
    ((start output complaints).read next).text = String.ofList (Utf8.decodeLossy complaints)

theorem readsWhole (output complaints : List UInt8) (next : Nat → Pick) :
    ReadsWhole output complaints next := by
  have hreads : (start output complaints).reads = output.length + complaints.length + 2 := by
    simp only [reads, start, Stream.reads]
    omega
  obtain ⟨n, hn, hread, hlast⟩ := exists_last_read (start output complaints) next 0
  obtain ⟨zs, htaken, hzs⟩ := interleaves_readFrom (start output complaints) next 0
  have hinterleaved : Interleaves output complaints ((start output complaints).read next).taken := by
    rw [read, htaken]
    exact hzs
  refine ⟨⟨n, hreads ▸ hn, hread, hlast⟩, hinterleaved, fun h => ?_, fun h => ?_⟩
  · subst h
    rw [text, hinterleaved.eq_left]
  · subst h
    rw [text, hinterleaved.eq_right]

end Merge

/-- Whatever is in two pipes, whichever of them is read next and however many bytes come at a time:
reading ends as soon as both ends have been seen, and what has been read is an interleaving of the two.
Of a program that prints to one pipe only, the text of just these bytes is reported, however its pipes
are read. -/
theorem pipes_merged :
    (∀ output complaints next, Merge.ReadsWhole output complaints next) ∧
      ∀ (c : Course) (o : Outlet) (next : Nat → Pick), c.printed o.other = [] →
        c.finished next = ⟨c.code, String.ofList (Utf8.decodeLossy (c.printed o))⟩ := by
  refine ⟨Merge.readsWhole, fun c o next halone => ?_⟩
  have hwhole := Merge.readsWhole (c.printed .output) (c.printed .complaints) next
  cases o with
  | output => rw [Course.finished, hwhole.outputAlone halone]
  | complaints => rw [Course.finished, hwhole.complaintsAlone halone]

/-- The bytes of a character and of half another one are read one at a time. -/
theorem pipes_merged_bytewise :
    let c : Course := ⟨some 0, [(.output, [0xC3, 0xA9, 0xE2, 0x82])]⟩
    c.printed .complaints = [] ∧
      c.finished (fun i => ⟨if i % 2 = 0 then .output else .complaints, ⟨0, by decide⟩⟩) =
        ⟨some 0, "é\uFFFD"⟩ := by
  intro c
  have halone : c.printed Outlet.output.other = [] := rfl
  refine ⟨halone, ?_⟩
  rw [pipes_merged.2 c .output _ halone]
  decide

end CellReplay
