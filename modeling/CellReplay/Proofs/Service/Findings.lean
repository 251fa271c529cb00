import CellReplay.Proofs.Service.Launch
import CellReplay.Proofs.Service.Ways
import CellReplay.Proofs.Store.Growth

/-!
# Proofs.Service.Findings

What calls find out about the store stays so: a context or a session that has been found or saved is
there in every later world, whoever does what in between.

* `Exchange.Honest`, `Exchange.Lasting` — a lookup has found what was asked for, and what has been
  found or saved is stored.
* `grows_answer`, `grows_exec`, `grows_happenAll` — no effect, no call and no run loses anything.
* `exists_answer`   — what is in a log has been answered by a world on the way.
* `honest_of_answers`, `lasting_of_answers` — so it is honest, and lasts.
-/

namespace CellReplay

variable {ε α : Type}

namespace Exchange

def Honest : Exchange → Prop
  | ⟨.findContext n, .ok (some c)⟩ => c.name = n
  | ⟨.findSession k, .ok (some x)⟩ => x.key = k
  | _ => True

def Lasting (s : Store) : Exchange → Prop
  | ⟨.findContext n, .ok (some _)⟩ => s.knowsContext n
  | ⟨.findSession k, .ok (some _)⟩ => s.knowsSession k
  | ⟨.saveSession x, .ok ()⟩ => s.knowsSession x.key
  | _ => True

theorem Lasting.grows {s t : Store} {x : Exchange} (h : x.Lasting s) (hst : s.Grows t) :
    x.Lasting t := by
  unfold Lasting at h ⊢
  split
  · exact hst.contexts _ h
  · exact hst.sessions _ h
  · exact hst.sessions _ h
  · trivial

end Exchange

section

variable {o : Surroundings ε} {t : Nat} {w w' : World ε}

theorem store_attempt {β : Type} (w : World ε) (m : Method)
    (op : Store → Except Failure β × Store) :
    (w.attempt m op).2.store = w.store ∨ (w.attempt m op).2.store = (op w.store).2 := by
  unfold World.attempt
  split
  · exact .inl rfl
  · exact .inr rfl

/-- Only an order to save a session can change what is stored. -/
theorem store_answer (o : Surroundings ε) (t : Nat) (w : World ε) (e : Effect) :
    (w.answer o t e).2.store = w.store ∨
      ∃ x, e = .saveSession x ∧ (w.answer o t e).2.store = (w.store.saveSession x).2 := by
  cases e with
  | findContext n => exact .inl (World.store_tryContext (n := n) rfl)
  | findSession k => exact .inl (World.store_tryFind (k := k) rfl)
  | saveSession x =>
    exact (store_attempt w .saveSession (·.saveSession x)).imp id fun h => ⟨x, rfl, h⟩
  | acquire k =>
    refine .inl ?_
    simp only [World.answer]
    split_ifs <;> rfl
  | release k => exact .inl rfl
  | resolve c => exact .inl rfl
  | run call => exact .inl rfl
  | pause => exact .inl rfl

theorem grows_answer (hw : w.store.Keyed) (e : Effect) : w.store.Grows (w.answer o t e).2.store := by
  rcases store_answer o t w e with h | ⟨x, -, h⟩
  · rw [h]
    exact Store.grows_refl hw
  · rw [h]
    exact Store.grows_saveSession hw x

theorem grows_exec (p : Program α) (hw : w.store.Keyed) : w.store.Grows (p.exec o t w).2.store := by
  induction p generalizing w with
  | done a => exact Store.grows_refl hw
  | perform e next ih =>
    have hstep := grows_answer (o := o) (t := t) hw e
    rw [Program.exec]
    split
    · next x w₁ hx =>
      rw [hx] at hstep
      exact hstep.trans (ih x hstep.keyed)
    · next w₁ hx => rwa [hx] at hstep

theorem grows_happen (s : Service) (hw : w.store.Keyed) (x : Happening ε) :
    w.store.Grows (w.happen o s x).store := by
  cases x with
  | call c => exact grows_exec (s.serve c) hw
  | order q => exact Store.grows_follow hw q
  | outside f => exact Store.grows_refl hw

theorem grows_happenAll (s : Service) (hw : w.store.Keyed) (xs : List (Happening ε)) :
    w.store.Grows (xs.foldl (World.happen o s) w).store := by
  induction xs generalizing w with
  | nil => exact Store.grows_refl hw
  | cons x xs ih =>
    have hstep := grows_happen (o := o) s hw x
    exact hstep.trans (ih hstep.keyed)

theorem answered_findContext {n : String} {x : Except Failure (Option Context)}
    (h : w.answer o t (.findContext n) = (some x, w')) : w.tryContext n = (x, w') :=
  Prod.ext (Option.some.inj (Prod.mk.inj h).1) (Prod.mk.inj h).2

theorem answered_findSession {k : SessionKey} {x : Except Failure (Option Session)}
    (h : w.answer o t (.findSession k) = (some x, w')) : w.tryFind k = (x, w') :=
  Prod.ext (Option.some.inj (Prod.mk.inj h).1) (Prod.mk.inj h).2

theorem answered_saveSession {y : Session} {x : Except Failure Unit}
    (h : w.answer o t (.saveSession y) = (some x, w')) : w.trySave y = (x, w') :=
  Prod.ext (Option.some.inj (Prod.mk.inj h).1) (Prod.mk.inj h).2

theorem honest_answer {e : Effect} {x : e.Answer} (hw : w.store.Keyed)
    (h : w.answer o t e = (some x, w')) : Exchange.Honest ⟨e, x⟩ := by
  cases e with
  | findContext n =>
    rcases x with _ | _ | c
    · trivial
    · trivial
    · exact Store.findContext_name hw (World.tryContext_ok (answered_findContext h))
  | findSession k =>
    rcases x with _ | _ | y
    · trivial
    · trivial
    · exact Store.findSession_key (World.tryFind_ok (answered_findSession h))
  | _ => trivial

theorem lasting_answer {e : Effect} {x : e.Answer} (hw : w.store.Keyed)
    (h : w.answer o t e = (some x, w')) : Exchange.Lasting w'.store ⟨e, x⟩ := by
  cases e with
  | findContext n =>
    rcases x with _ | _ | c
    · trivial
    · trivial
    · have hx := answered_findContext h
      refine Store.knowsContext_iff.mpr ⟨c, ?_⟩
      rw [World.store_tryContext hx]
      exact World.tryContext_ok hx
  | findSession k =>
    rcases x with _ | _ | y
    · trivial
    · trivial
    · have hx := answered_findSession h
      refine Store.knowsSession_iff.mpr ⟨y, ?_⟩
      rw [World.store_tryFind hx]
      exact World.tryFind_ok hx
  | saveSession z =>
    rcases x with _ | _
    · trivial
    · have hsaved := World.trySave_ok (answered_saveSession h)
      exact (Store.knowsSession_saveSession hw hsaved _).mpr (.inl rfl)
  | _ => trivial

variable {log : List Exchange}

theorem grows_of_answers (hw : w.store.Keyed) (h : w.Answers o t log w') :
    w.store.Grows w'.store := by
  induction log generalizing w with
  | nil =>
    rw [show w' = w from h]
    exact Store.grows_refl hw
  | cons x log ih =>
    obtain ⟨w₁, hx, hlog⟩ := h
    have hstep := grows_answer (o := o) (t := t) hw x.asked
    rw [hx] at hstep
    exact hstep.trans (ih hstep.keyed hlog)

/-- Whatever is in a log was answered by one of the worlds on the way. -/
theorem exists_answer {x : Exchange} (hx : x ∈ log) (hw : w.store.Keyed) (h : w.Answers o t log w') :
    ∃ w₁ w₂ : World ε, w₁.store.Keyed ∧ w₁.answer o t x.asked = (some x.answer, w₂) ∧
      w₂.store.Grows w'.store := by
  induction log generalizing w with
  | nil => exact nomatch hx
  | cons y log ih =>
    obtain ⟨w₁, hy, hlog⟩ := h
    have hstep := grows_answer (o := o) (t := t) hw y.asked
    rw [hy] at hstep
    rcases List.mem_cons.mp hx with rfl | hx
    · exact ⟨w, w₁, hw, hy, grows_of_answers hstep.keyed hlog⟩
    · exact ih hx hstep.keyed hlog

theorem honest_of_answers (hw : w.store.Keyed) (h : w.Answers o t log w') : ∀ x ∈ log, x.Honest := by
  intro x hx
  obtain ⟨w₁, w₂, hw₁, hanswer, -⟩ := exists_answer hx hw h
  exact honest_answer hw₁ hanswer

theorem lasting_of_answers (hw : w.store.Keyed) (h : w.Answers o t log w') :
    ∀ x ∈ log, x.Lasting w'.store := by
  intro x hx
  obtain ⟨w₁, w₂, hw₁, hanswer, hgrows⟩ := exists_answer hx hw h
  exact (lasting_answer hw₁ hanswer).grows hgrows

end

end CellReplay
