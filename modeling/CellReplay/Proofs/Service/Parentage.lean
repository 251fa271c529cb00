import CellReplay.Proofs.Service.Findings

/-!
# Proofs.Service.Parentage

A call saves sessions of those contexts only that it has found before, whatever else goes on around it
and however its effects are answered, as long as a lookup finds what was asked for.

* `Way.Warranted`   — on the way every session that is saved belongs to a context found before.
* `warranted_serve` — the ways of a call are like that.
* `exists_ends`     — wherever a program stands, there is a way on to its end.
* `found_of_saves`  — so a call that is about to save a session has found its context.
-/

namespace CellReplay

variable {α β : Type}

/-- The context that an exchange has found. -/
def Exchange.contexts : Exchange → List String
  | ⟨.findContext n, .ok (some _)⟩ => [n]
  | _ => []

namespace Way

open Program

/-- Every session that is saved belongs to a context that has been found before; `found` are those that
have been found so far. -/
def Warranted (found : List String) : List Exchange → Prop
  | [] => True
  | x :: log =>
    (∀ y, x.asked = .saveSession y → y.context ∈ found) ∧ Warranted (found ++ x.contexts) log

variable {s : Service} {c : Context} {k : SessionKey} {r : Request} {found : List String}
  {log log' : List Exchange}

theorem warranted_append :
    Warranted found (log ++ log') ↔
      Warranted found log ∧ Warranted (found ++ log.flatMap (·.contexts)) log' := by
  induction log generalizing found with
  | nil => simp [Warranted]
  | cons x log ih =>
    rw [List.cons_append, Warranted, Warranted, ih, and_assoc, List.flatMap_cons, List.append_assoc]

theorem warranted_of_unsaved (h : ∀ x ∈ log, ∀ y, x.asked ≠ .saveSession y) : Warranted found log := by
  induction log generalizing found with
  | nil => trivial
  | cons x log ih =>
    obtain ⟨hx, hlog⟩ := List.forall_mem_cons.mp h
    exact ⟨fun y hy => absurd hy (hx y), ih hlog⟩

theorem Opened.warranted {a : Except Failure Session} (h : Opened k log a)
    (hk : k.context ∈ found) : Warranted found log := by
  cases h <;> simp [Warranted, Exchange.contexts, SessionKey.newSession, hk]

/-- The session that is opened is the one that was asked for. -/
theorem Opened.key_eq {x : Session} (h : Opened k log (.ok x)) (hlog : ∀ y ∈ log, y.Honest) :
    x.key = k := by
  cases h with
  | found x => exact hlog _ List.mem_cons_self
  | made => rfl

theorem Interpreted.warranted {history : Option (List String)} {code : String}
    {i : Option Interpretation} (h : Interpreted s c history code log i) : Warranted found log :=
  warranted_of_unsaved (by cases h <;> simp)

theorem InSession.warranted {x : Session} {code : String} {a : Except Failure Reply}
    (h : InSession s c x code log a) (hx : x.context ∈ found) : Warranted found log := by
  have hsaved (a : Except Failure Unit) (log : List Exchange) :
      Warranted (found ++ log.flatMap (·.contexts)) [⟨.saveSession (x.append code), a⟩] :=
    ⟨fun y hy => by cases hy; exact List.mem_append_left _ hx, trivial⟩
  cases h with
  | absent hi => exact hi.warranted
  | shown hi _ => exact hi.warranted
  | lost hi _ e => exact warranted_append.mpr ⟨hi.warranted, hsaved _ _⟩
  | kept hi _ => exact warranted_append.mpr ⟨hi.warranted, hsaved _ _⟩

theorem Locked.warranted {a : Except Failure Reply × Request} (h : Locked s c k r log a)
    (hlog : ∀ y ∈ log, y.Honest) (hk : k.context ∈ found) : Warranted found log := by
  cases h with
  | unopened ho => exact ho.warranted hk
  | @opened _ _ x _ ho hi =>
    have hx : x.key = k := ho.key_eq fun y hy => hlog y (List.mem_append_left _ hy)
    refine warranted_append.mpr ⟨ho.warranted hk, hi.warranted ?_⟩
    rw [← hx] at hk
    exact List.mem_append_left _ hk

theorem Dispatched.warranted {a : Except Failure Reply × Request} (h : Dispatched s r log a)
    (hlog : ∀ y ∈ log, y.Honest) : Warranted found log := by
  cases h with
  | unread e => exact warranted_of_unsaved (by simp)
  | unknown => exact warranted_of_unsaved (by simp)
  | refused c ha => exact warranted_of_unsaved (by simp)
  | alone c hs hi => exact ⟨by simp, hi.warranted⟩
  | @locked c i log a ht hl =>
    obtain ⟨hname, hrest⟩ := List.forall_mem_cons.mp hlog
    have hname : c.name = r.language := hname
    refine ⟨by simp, by simp, warranted_append.mpr ⟨hl.warranted ?_ ?_, by simp, trivial⟩⟩
    · exact fun y hy => hrest y (List.mem_cons_of_mem _ (List.mem_append_left _ hy))
    · simp [Exchange.contexts, hname]

theorem Classified.warranted {raw : String} {field : Option String} {q : Option Request}
    (h : Classified s raw field log q) : Warranted found log :=
  warranted_of_unsaved (by cases h <;> simp)

theorem Executed.warranted {raw : String} {field : Option String} {a : Reply}
    (h : Executed s raw field log a) (hlog : ∀ y ∈ log, y.Honest) : Warranted found log := by
  cases h with
  | rejected _ => trivial
  | ran hc hd =>
    exact warranted_append.mpr
      ⟨hc.warranted, hd.warranted fun y hy => hlog y (List.mem_append_right _ hy)⟩

theorem warranted_serve {q : ServiceCall} {a : ServiceAnswer} (h : (s.serve q).Ends log a)
    (hlog : ∀ y ∈ log, y.Honest) : Warranted found log := by
  cases q with
  | classify raw field =>
    simp only [Service.serve, bind_eq, pure_eq] at h
    obtain ⟨log, rest, b, rfl, hc, hdone⟩ := ends_bind h
    obtain ⟨rfl, -⟩ := ends_done hdone
    rw [List.append_nil]
    exact (ends_classify hc).warranted
  | dispatch r =>
    simp only [Service.serve, bind_eq, pure_eq] at h
    obtain ⟨log, rest, b, rfl, hd, hdone⟩ := ends_bind h
    obtain ⟨rfl, -⟩ := ends_done hdone
    rw [List.append_nil] at hlog ⊢
    obtain ⟨_, -, hdispatched⟩ := ends_dispatch hd
    exact hdispatched.warranted hlog
  | execute raw field =>
    simp only [Service.serve, bind_eq, pure_eq] at h
    obtain ⟨log, rest, b, rfl, hx, hdone⟩ := ends_bind h
    obtain ⟨rfl, -⟩ := ends_done hdone
    rw [List.append_nil] at hlog ⊢
    exact (ends_execute hx).warranted hlog

end Way

/-- An answer to an effect that finds nothing. -/
def Effect.nothing : (e : Effect) → e.Answer
  | findContext _ => .ok none
  | findSession _ => .ok none
  | saveSession _ => .ok ()
  | acquire _ => ()
  | release _ => ()
  | resolve _ => none
  | run _ => .error (.io "")
  | pause => ()

theorem honest_nothing (e : Effect) : Exchange.Honest ⟨e, e.nothing⟩ := by cases e <;> trivial

theorem exists_ends (p : Program α) : ∃ log a, p.Ends log a ∧ ∀ x ∈ log, x.Honest := by
  induction p with
  | done a => exact ⟨[], a, .here _, fun x hx => nomatch hx⟩
  | perform e next ih =>
    obtain ⟨log, a, hends, hlog⟩ := ih e.nothing
    exact ⟨_, a, .step e.nothing hends, List.forall_mem_cons.mpr ⟨honest_nothing e, hlog⟩⟩

theorem found_of_saves {s : Service} {q : ServiceCall} {log : List Exchange} {x : Session}
    {next : Except Failure Unit → Program ServiceAnswer}
    (h : (s.serve q).Leads log (.perform (.saveSession x) next)) (hlog : ∀ y ∈ log, y.Honest) :
    ∃ c, ⟨.findContext x.context, .ok (some c)⟩ ∈ log := by
  -- the way on does not matter, so it can be one on which nothing is found
  obtain ⟨rest, a, hends, hrest⟩ := exists_ends (.perform (.saveSession x) next)
  have hwarranted : Way.Warranted [] (log ++ rest) :=
    Way.warranted_serve (h.trans hends) fun y hy =>
      (List.mem_append.mp hy).elim (hlog y) (hrest y)
  cases hends with
  | step b hends =>
    have hmem := (Way.warranted_append.mp hwarranted).2.1 x rfl
    rw [List.nil_append, List.mem_flatMap] at hmem
    obtain ⟨y, hy, hfound⟩ := hmem
    unfold Exchange.contexts at hfound
    split at hfound
    · rw [List.mem_singleton.mp hfound]
      exact ⟨_, hy⟩
    · exact nomatch hfound

end CellReplay
