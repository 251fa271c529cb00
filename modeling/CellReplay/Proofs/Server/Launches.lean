import CellReplay.Proofs.Server.Integrity
import CellReplay.Proofs.Service.Custody
import CellReplay.Proofs.Store.Seeding
import Mathlib.Data.List.Induction

/-!
# Proofs.Server.Launches

The program calls of calls that take turns. Whatever else goes on, a call makes one program call at
most, that of its request, and the history that is replayed in it is the one that is stored just then:
the call has the lock of the session, and nobody else changes a session that is locked.

* `World.Spares`  — contexts that are saved and servers that come up leave sessions, locks and handlers
  alone.
* `Stands`        — where a call stands, and what it knows.
* `Crew.Informed` — the invariant: what the calls know is so.
* `Crew.Met`      — a context that has been stored since a call came in.
* `launches_interleaved` — the program calls behind any run.
-/

namespace CellReplay

open Config

variable {ε : Type}

/-! ## What is done beside calls -/

namespace World

variable {w w₁ w₂ : World ε}

/-- Between two worlds, every session has stayed as it was, and so have the locks and the handlers. -/
structure Spares (w w' : World ε) : Prop where
  registry : w'.registry = w.registry
  locks : w'.locks = w.locks
  calls : w'.calls = w.calls
  keyed : w'.store.Keyed
  sessions : ∀ k x, w.store.findSession k = .ok (some x) → w'.store.findSession k = .ok (some x)

theorem spares_refl (h : w.store.Keyed) : Spares w w := ⟨rfl, rfl, rfl, h, fun _ _ hx => hx⟩

theorem Spares.trans (h₁ : Spares w w₁) (h₂ : Spares w₁ w₂) : Spares w w₂ :=
  ⟨h₂.registry.trans h₁.registry, h₂.locks.trans h₁.locks, h₂.calls.trans h₁.calls, h₂.keyed,
    fun k x hx => h₂.sessions k x (h₁.sessions k x hx)⟩

theorem Attempted.spares (h : Attempted w w₁) (hkeyed : w₁.store.Keyed)
    (hsessions : ∀ k x, w.store.findSession k = .ok (some x) →
      w₁.store.findSession k = .ok (some x)) : Spares w w₁ :=
  ⟨h.registry, h.locks, h.calls, hkeyed, hsessions⟩

theorem Attempted.spares_of_store_eq (h : Attempted w w₁) (hw : w.store.Keyed)
    (hstore : w₁.store = w.store) : Spares w w₁ :=
  h.spares (hstore ▸ hw) fun _ _ hx => hstore ▸ hx

theorem spares_saveContext (hw : w.store.Keyed) (c : Context) : Spares w (w.saveContext c).2 := by
  rcases hattempt : w.saveContext c with ⟨e | _, w₁⟩
  · have hsame : w₁.store = w.store := (attempt_error hattempt).elim id Store.saveContext_error
    exact (attempted_attempt hattempt).spares_of_store_eq hw hsame
  · have hsave := attempt_ok hattempt
    have hkeyed := Store.keyed_saveContext hw c
    rw [hsave] at hkeyed
    exact (attempted_attempt hattempt).spares hkeyed fun k x hx =>
      (Store.findSession_saveContext hsave k).trans hx

theorem spares_seedContexts (hw : w.store.Keyed) (cs : List Context) :
    Spares w (w.seedContexts cs).2 :=
  seedContexts_keeps (P := Spares w)
    (fun _ _ h =>
      h.trans ((attempted_tryContext rfl).spares_of_store_eq h.keyed (store_tryContext rfl)))
    (fun _ c h => h.trans (spares_saveContext h.keyed c)) (spares_refl hw) cs

/-- A session that is there is not made again, and one that is made is none that has been there. -/
theorem spares_seedSession (hw : w.store.Keyed) (k : SessionKey) : Spares w (w.seedSession k).2 := by
  rcases hfind : w.tryFind k with ⟨found, w₁⟩
  have hfound := (attempted_tryFind hfind).spares_of_store_eq hw (store_tryFind hfind)
  rw [seedSession, hfind]
  rcases found with e | _ | x
  · exact hfound
  · rcases hsave : w₁.trySave k.newSession with ⟨e | _, w₂⟩
    · have hsaved := (attempted_trySave hsave).spares_of_store_eq hfound.keyed (trySave_error hsave)
      simpa only [hsave] using hfound.trans hsaved
    · have hstored := trySave_ok hsave
      have hsaved : Spares w w₂ := by
        refine ((attempted_tryFind hfind).trans (attempted_trySave hsave)).spares
          (Store.keyed_saveSession hfound.keyed hstored) fun k' x hx => ?_
        rw [Store.findSession_saveSession hfound.keyed hstored, if_neg]
        · exact hfound.sessions k' x hx
        · intro hk
          rw [hk, show k.newSession.key = k from rfl, tryFind_ok hfind] at hx
          cases hx
      simpa only [hsave] using hsaved
  · exact hfound

theorem spares_bootstrap (hw : w.store.Keyed) (c : ServerConfig) : Spares w (w.bootstrap c).2 := by
  have hseeded := spares_seedContexts hw c.contexts
  rcases hcontexts : w.seedContexts c.contexts with ⟨r, w₁⟩
  rw [hcontexts] at hseeded
  rw [bootstrap, hcontexts]
  cases r with
  | error e => exact hseeded
  | ok n =>
    cases c.defaultSession with
    | none => exact hseeded
    | some id =>
      have hsession := spares_seedSession hseeded.keyed ⟨c.defaultContext.name, id⟩
      dsimp only
      split <;> next heq => rw [heq] at hsession; exact hseeded.trans hsession

/-! ## What is done by calls -/

variable {o : Surroundings ε} {t : Nat} {e : Effect}

theorem sound_answer (hr : w.registry.Sound) (e : Effect) :
    (w.answer o t e).2.registry.Sound ∧
      (w.answer o t e).2.registry.factories = w.registry.factories := by
  have hsame {w₁ : World ε} (h : w₁.registry = w.registry) :
      w₁.registry.Sound ∧ w₁.registry.factories = w.registry.factories := by
    rw [h]
    exact ⟨hr, rfl⟩
  cases e with
  | findContext n => exact hsame (attempted_tryContext (n := n) rfl).registry
  | findSession k => exact hsame (attempted_tryFind (k := k) rfl).registry
  | saveSession x => exact hsame (attempted_trySave (x := x) rfl).registry
  | acquire k =>
    refine hsame ?_
    simp only [answer]
    split_ifs <;> rfl
  | release k => exact hsame rfl
  | resolve c => exact ⟨(sound_resolve hr _ c).1, resolve_factories _ _ c⟩
  | run call => exact hsame rfl
  | pause => exact hsame rfl

/-- What is neither asking for a lock nor letting go of one is answered at once, and leaves all locks
alone. -/
theorem exists_answer_of_unlocked (w : World ε) (hacquire : ∀ k, e ≠ .acquire k)
    (hrelease : ∀ k, e ≠ .release k) :
    ∃ b w', w.answer o t e = (some b, w') ∧ w'.locks = w.locks := by
  cases e with
  | findContext n => exact ⟨_, _, rfl, (attempted_tryContext (n := n) rfl).locks⟩
  | findSession k => exact ⟨_, _, rfl, (attempted_tryFind (k := k) rfl).locks⟩
  | saveSession x => exact ⟨_, _, rfl, (attempted_trySave (x := x) rfl).locks⟩
  | acquire k => exact absurd rfl (hacquire k)
  | release k => exact absurd rfl (hrelease k)
  | resolve c => exact ⟨_, _, rfl, rfl⟩
  | run call => exact ⟨_, _, rfl, rfl⟩
  | pause => exact ⟨_, _, rfl, rfl⟩

theorem findSession_answer (hw : w.store.Keyed) {k : SessionKey}
    (hk : ∀ x, e = .saveSession x → x.key ≠ k) :
    (w.answer o t e).2.store.findSession k = w.store.findSession k := by
  rcases store_answer o t w e with hs | ⟨x, rfl, hs⟩
  · rw [hs]
  · rw [hs]
    rcases hsave : w.store.saveSession x with ⟨e | _, t⟩
    · rw [Store.saveSession_error hsave]
    · exact (Store.findSession_saveSession hw hsave k).trans (if_neg (hk x rfl).symm)

end World

/-! ## One call among others -/

/-- Where the `i`th call stands, and what it relies on: `log` is what it has had answered, and `made` are
the program calls that it has made. -/
structure Stands (s : Service) (kinds : Table String HandlerKind) (seen : Context → Prop)
    (w : World ε) (i : Nat) (made : List Call) (q : ServiceCall) (log : List Exchange)
    (p : Program ServiceAnswer) : Prop where
  leads : (s.serve q).Leads log p
  honest : ∀ x ∈ log, x.Honest
  seen : ∀ n c, ⟨.findContext n, .ok (some c)⟩ ∈ log → seen c
  resolved : ∀ c h, ⟨.resolve c, some h⟩ ∈ log → kinds.get? (typeName c.name) = some h.kind
  made : made = log.flatMap (·.asked.calls)
  held : ∀ k, w.locks.Holder i k ↔ (Custody.after log).key? = some k
  stored : ∀ x, (Custody.after log).session? = some x →
    (Custody.after log).key? = some x.key ∧ w.store.findSession x.key = .ok (some x)

namespace Stands

variable {o : Surroundings ε} {s : Service} {kinds : Table String HandlerKind}
  {seen seen' : Context → Prop} {w w' : World ε} {i : Nat} {made : List Call} {q : ServiceCall}
  {log : List Exchange} {p : Program ServiceAnswer}

/-- A call stays where it is while others go on, as long as they keep away from its lock and its
session. -/
theorem frame (h : Stands s kinds seen w i made q log p) (hseen : ∀ c, seen c → seen' c)
    (hlocks : ∀ k, w'.locks.Holder i k ↔ w.locks.Holder i k)
    (hstore : ∀ k x, w.locks.Holder i k → w.store.findSession k = .ok (some x) →
      w'.store.findSession k = .ok (some x)) : Stands s kinds seen' w' i made q log p where
  leads := h.leads
  honest := h.honest
  seen n c hc := hseen c (h.seen n c hc)
  resolved := h.resolved
  made := h.made
  held k := (hlocks k).trans (h.held k)
  stored x hx := by
    obtain ⟨hkey, hfound⟩ := h.stored x hx
    exact ⟨hkey, hstore x.key x ((h.held x.key).mpr hkey) hfound⟩

variable {e : Effect} {next : e.Answer → Program ServiceAnswer} {b : e.Answer}

theorem due (h : Stands s kinds seen w i made q log (.perform e next)) :
    e.Due s (s.requestOf q) log := due_of_leads h.leads h.honest

/-- What the call knows of its session is still so when one more effect has been answered. -/
theorem stored_answer (h : Stands s kinds seen w i made q log (.perform e next))
    (hw : w.store.Keyed) (hb : w.answer o i e = (some b, w')) (x : Session)
    (hx : (Custody.after (log ++ [⟨e, b⟩])).session? = some x) :
    (Custody.after (log ++ [⟨e, b⟩])).key? = some x.key ∧
      w'.store.findSession x.key = .ok (some x) := by
  have hsame (he : ∀ y, e ≠ .saveSession y) (k : SessionKey) :
      w'.store.findSession k = w.store.findSession k := by
    have hfound := World.findSession_answer (o := o) (t := i) hw (e := e) (k := k)
      fun y hy => absurd hy (he y)
    rwa [hb] at hfound
  have hkept (he : ∀ y, e ≠ .saveSession y)
      (hx : (Custody.after log).session? = some x) :
      (Custody.after log).key? = some x.key ∧ w'.store.findSession x.key = .ok (some x) := by
    rw [hsame he]
    exact h.stored x hx
  rw [Custody.after_concat] at hx ⊢
  cases e with
  | findSession k =>
    have hanswer := answered_findSession hb
    rcases b with e | _ | y
    · exact hkept (by simp) hx
    · exact hkept (by simp) hx
    · by_cases hk : (Custody.after log).key? = some k
      · rw [Custody.next, if_pos hk] at hx ⊢
        cases hx
        have hfound := World.tryFind_ok hanswer
        rw [hsame (by simp), Store.findSession_key hfound]
        exact ⟨hk, hfound⟩
      · rw [Custody.next, if_neg hk] at hx ⊢
        exact hkept (by simp) hx
  | saveSession y =>
    have hanswer := answered_saveSession hb
    rcases b with e | _
    · rw [World.trySave_error hanswer]
      exact h.stored x hx
    · cases hx
      refine ⟨h.due, ?_⟩
      rw [Store.findSession_saveSession hw (World.trySave_ok hanswer), if_pos rfl]
  | acquire k => cases hx
  | release k => cases hx
  | findContext n => exact hkept (by simp) hx
  | resolve c => exact hkept (by simp) hx
  | run call => exact hkept (by simp) hx
  | pause => exact hkept (by simp) hx

/-- The call has had one more effect answered. -/
theorem answered (h : Stands s kinds seen w i made q log (.perform e next)) (hw : w.store.Keyed)
    (hr : w.registry.Sound) (hf : w.registry.factories = kinds)
    (hseen : ∀ c, w.store.findContext c.name = .ok (some c) → seen c)
    (hb : w.answer o i e = (some b, w'))
    (hheld : ∀ k, w'.locks.Holder i k ↔ (Custody.after (log ++ [⟨e, b⟩])).key? = some k) :
    Stands s kinds seen w' i (made ++ e.calls) q (log ++ [⟨e, b⟩]) (next b) where
  leads := h.leads.trans (.step b (.here _))
  honest := List.forall_mem_append.mpr
    ⟨h.honest, List.forall_mem_singleton.mpr (honest_answer hw hb)⟩
  seen n c hc := by
    rcases List.mem_append.mp hc with hc | hc
    · exact h.seen n c hc
    · cases List.mem_singleton.mp hc
      have hfound := World.tryContext_ok (answered_findContext hb)
      exact hseen c (by rwa [Store.findContext_name hw hfound])
  resolved c handler hc := by
    rcases List.mem_append.mp hc with hc | hc
    · exact h.resolved c handler hc
    · cases List.mem_singleton.mp hc
      rw [← hf]
      exact (sound_resolve hr (o.isThere w.outside) c).2 handler
        (Option.some.inj (Prod.mk.inj hb).1)
  made := by rw [List.flatMap_append, ← h.made, List.flatMap_singleton]
  held := hheld
  stored := h.stored_answer hw hb

end Stands

/-! ## The invariant -/

/-- Every call stands where it may, and what it knows is so. `qs` are the calls that have come in, and
`seen` are the contexts that each of them can have found. -/
structure Crew.Informed (s : Service) (kinds : Table String HandlerKind)
    (seen : Nat → Context → Prop) (qs : List ServiceCall) (c : Crew ε ServiceAnswer) : Prop where
  keyed : c.world.store.Keyed
  factories : c.world.registry.factories = kinds
  registry : c.world.registry.Sound
  coherent : c.world.locks.Coherent
  claims : ∀ d ∈ c.world.locks.claims, d.Backed c.programs
  tickets : ∀ e ∈ c.log, e.1 < c.programs.length
  length : qs.length = c.programs.length
  calls : ∀ i p, c.programs[i]? = some p → ∃ q log, qs[i]? = some q ∧
    Stands s kinds (seen i) c.world i (callsOf i c.log) q log p

/-- Every call that has come in can find what is stored now. -/
def Crew.Offers (c : Crew ε ServiceAnswer) (seen : Nat → Context → Prop) : Prop :=
  ∀ i x, i < c.programs.length → c.world.store.findContext x.name = .ok (some x) → seen i x

namespace Crew.Informed

variable {o : Surroundings ε} {s : Service} {kinds : Table String HandlerKind}
  {seen seen' : Nat → Context → Prop} {qs : List ServiceCall} {c : Crew ε ServiceAnswer} {i j : Nat}

theorem start {w : World ε} (hw : w.Sound kinds) (hl : w.locks.Coherent) :
    Informed s kinds seen [] ⟨[], w, []⟩ where
  keyed := hw.keyed
  factories := hw.factories
  registry := hw.registry
  coherent := hl
  claims d hd := by
    rw [show w.locks.claims = [] from hw.unused] at hd
    cases hd
  tickets _ he := nomatch he
  length := rfl
  calls _ _ hp := nomatch hp

theorem mono (h : c.Informed s kinds seen qs) (hseen : ∀ i x, seen i x → seen' i x) :
    c.Informed s kinds seen' qs :=
  { h with
    calls := fun i p hp => by
      obtain ⟨q, log, hq, hstands⟩ := h.calls i p hp
      exact ⟨q, log, hq, hstands.frame (hseen i) (fun _ => Iff.rfl) fun _ _ _ hx => hx⟩ }

/-- Something is done that is no effect of a call. -/
theorem withWorld (h : c.Informed s kinds seen qs) {w : World ε}
    (hw : World.Spares c.world w) : Informed s kinds seen qs { c with world := w } where
  keyed := hw.keyed
  factories := by rw [hw.registry, h.factories]
  registry := by
    rw [hw.registry]
    exact h.registry
  coherent := by
    rw [hw.locks]
    exact h.coherent
  claims := by
    rw [hw.locks]
    exact h.claims
  tickets := h.tickets
  length := h.length
  calls i p hp := by
    obtain ⟨q, log, hq, hstands⟩ := h.calls i p hp
    exact ⟨q, log, hq, hstands.frame (fun _ hx => hx) (fun k => by rw [hw.locks])
      fun k x _ hx => hw.sessions k x hx⟩

/-- Nobody has the lock of a session that another call may save. -/
theorem key_ne_of_holder (h : c.Informed s kinds seen qs) {e : Effect}
    {next : e.Answer → Program ServiceAnswer} (hp : c.programs[j]? = some (.perform e next))
    (hij : i ≠ j) {k : SessionKey} (hk : c.world.locks.Holder i k) (x : Session)
    (hx : e = .saveSession x) : x.key ≠ k := by
  rintro rfl
  subst hx
  obtain ⟨q, log, -, hstands⟩ := h.calls j _ hp
  exact hij (h.coherent.holder_unique hk ((hstands.held x.key).mpr hstands.due))

/-- One effect of one call has been answered. What is left to see is what has become of the locks. -/
theorem answered (h : c.Informed s kinds seen qs) (hseen : c.Offers seen)
    {e : Effect} {next : e.Answer → Program ServiceAnswer} {b : e.Answer} {w : World ε}
    (hp : c.programs[j]? = some (.perform e next)) (hb : c.world.answer o j e = (some b, w))
    (hcoherent : w.locks.Coherent)
    (hclaims : ∀ d ∈ w.locks.claims, d.Backed (c.programs.set j (next b)))
    (hothers : ∀ i ≠ j, ∀ k, w.locks.Holder i k ↔ c.world.locks.Holder i k)
    (hown : ∀ q log, Stands s kinds (seen j) c.world j (callsOf j c.log) q log (.perform e next) →
      ∀ k, w.locks.Holder j k ↔ (Custody.after (log ++ [⟨e, b⟩])).key? = some k) :
    (c.step o j).Informed s kinds seen qs := by
  have hj : j < c.programs.length := lt_of_getElem? hp
  have hkeyed := (grows_answer (o := o) (t := j) h.keyed e).keyed
  obtain ⟨hsound, hfactories⟩ := World.sound_answer (o := o) (t := j) h.registry e
  rw [hb] at hkeyed hsound hfactories
  rw [step_eq hp hb]
  refine ⟨hkeyed, hfactories.trans h.factories, hsound, hcoherent, hclaims, ?_,
    by rw [List.length_set]; exact h.length, fun i p hi => ?_⟩
  · rw [List.length_set, List.forall_mem_append]
    exact ⟨h.tickets, List.forall_mem_singleton.mpr hj⟩
  · by_cases hij : i = j
    · subst hij
      rw [List.getElem?_set_self hj] at hi
      cases hi
      obtain ⟨q, log, hq, hstands⟩ := h.calls i _ hp
      rw [callsOf_append_self]
      exact ⟨q, _, hq, hstands.answered h.keyed h.registry h.factories (fun x => hseen i x hj) hb
        (hown q log hstands)⟩
    · rw [List.getElem?_set_ne (Ne.symm hij)] at hi
      obtain ⟨q, log, hq, hstands⟩ := h.calls i p hi
      rw [callsOf_append_other (Ne.symm hij)]
      refine ⟨q, log, hq, hstands.frame (fun _ hx => hx) (hothers i hij) fun k x hk hx => ?_⟩
      have hsame := World.findSession_answer (o := o) (t := j) h.keyed (h.key_ne_of_holder hp hij hk)
      rw [hb] at hsame
      exact hsame.trans hx

theorem step_unlocked (h : c.Informed s kinds seen qs) (hseen : c.Offers seen) {e : Effect}
    {next : e.Answer → Program ServiceAnswer} (hp : c.programs[j]? = some (.perform e next))
    (hacquire : ∀ k, e ≠ .acquire k) (hrelease : ∀ k, e ≠ .release k) :
    (c.step o j).Informed s kinds seen qs := by
  obtain ⟨b, w, hb, hlocks⟩ := World.exists_answer_of_unlocked (o := o) (t := j) c.world hacquire
    hrelease
  refine h.answered hseen hp hb (by rw [hlocks]; exact h.coherent) ?_ (fun i _ k => by rw [hlocks])
    fun q log hstands k => ?_
  · rw [hlocks]
    exact backed_set h.claims hp hacquire _
  · rw [hlocks, hstands.held, Custody.after_concat, Custody.key?_next hacquire hrelease]

/-- A call asks for a lock and queues for it, perhaps since long. -/
theorem asking (h : c.Informed s kinds seen qs) {k : SessionKey} {next : Unit → Program ServiceAnswer}
    (hp : c.programs[j]? = some (.perform (.acquire k) next)) :
    (c.asking j k).Informed s kinds seen qs ∧
      ∀ i k', (c.asking j k).world.locks.Holder i k' ↔ c.world.locks.Holder i k' := by
  cases hphase : c.world.locks.phaseOf j with
  | some phase =>
    rw [asking_of_some hphase]
    exact ⟨h, fun _ _ => Iff.rfl⟩
  | none =>
    have hno := SessionLocks.phaseOf_eq_none_iff.mp hphase
    have hholder (i : Nat) (k' : SessionKey) :
        (c.world.locks.enter j k).Holder i k' ↔ c.world.locks.Holder i k' :=
      SessionLocks.holder_enter h.coherent
    rw [asking_of_none hphase]
    refine ⟨{ h with
      coherent := SessionLocks.coherent_enter h.coherent hno
      claims := backed_enter h.coherent h.claims hp
      calls := fun i p hi => ?_ }, hholder⟩
    obtain ⟨q, log, hq, hstands⟩ := h.calls i p hi
    exact ⟨q, log, hq, hstands.frame (fun _ hx => hx) (hholder i) fun _ _ _ hx => hx⟩

theorem step_acquire (h : c.Informed s kinds seen qs) (hseen : c.Offers seen) {k : SessionKey}
    {next : Unit → Program ServiceAnswer}
    (hp : c.programs[j]? = some (.perform (.acquire k) next)) :
    (c.step o j).Informed s kinds seen qs := by
  have hno (k' : SessionKey) : ¬ c.world.locks.Holder j k' := by
    obtain ⟨q, log, -, hstands⟩ := h.calls j _ hp
    rw [hstands.held, show (Custody.after log).key? = none from hstands.due]
    exact nofun
  -- queued or not before, the call has a claim now, and it waits or takes its lock
  obtain ⟨hq, hholder⟩ := h.asking hp
  obtain ⟨d, hd, rfl, hphase⟩ := exists_claim (k := k) h.coherent h.claims hno
  have hof := SessionLocks.phaseOf_of_mem hq.coherent.toTidy hd
  rcases hphase with hw | hg
  · rw [step_waiting hp (hof.trans (congrArg some hw))]
    exact hq
  · obtain rfl : d.key = k := key_of_granted hq.claims hd hp hg
    have hresumed (i : Nat) (k' : SessionKey) :
        ((c.asking d.ticket d.key).world.locks.resume d.ticket).Holder i k' ↔
          c.world.locks.Holder i k' ∨ i = d.ticket ∧ k' = d.key := by
      rw [← hholder]
      exact SessionLocks.holder_resume hq.coherent hd hg
    refine h.answered hseen hp (answer_granted (hof.trans (congrArg some hg)))
      (SessionLocks.coherent_resume hq.coherent _) (backed_resume hq.coherent hq.claims hd hg _)
      (fun i hij k' => (hresumed i k').trans (or_iff_left fun hi => hij hi.1))
      fun q log hstands k' => (hresumed _ k').trans ?_
    rw [Custody.after_concat, or_iff_right (hno k'), and_iff_right rfl]
    exact ⟨fun hk => congrArg some hk.symm, fun hk => (Option.some.inj hk).symm⟩

theorem step_release (h : c.Informed s kinds seen qs) (hseen : c.Offers seen) {k : SessionKey}
    {next : Unit → Program ServiceAnswer}
    (hp : c.programs[j]? = some (.perform (.release k) next)) :
    (c.step o j).Informed s kinds seen qs := by
  obtain ⟨d, hd, rfl, rfl, hh⟩ : c.world.locks.Holder j k := by
    obtain ⟨q, log, -, hstands⟩ := h.calls j _ hp
    exact (hstands.held k).mpr hstands.due
  have hleft (i : Nat) (k' : SessionKey) :
      ((c.world.locks.release d.ticket).prune d.ticket).Holder i k' ↔
        c.world.locks.Holder i k' ∧ i ≠ d.ticket := SessionLocks.holder_leave h.coherent hd hh
  refine h.answered hseen hp (o := o) (b := ()) rfl
    (SessionLocks.coherent_prune (SessionLocks.coherent_release h.coherent _) _)
    (backed_leave h.coherent h.claims hd hh _)
    (fun i hij k' => (hleft i k').trans (and_iff_left hij)) fun q log hstands k' => ?_
  rw [Custody.after_concat]
  exact iff_of_false (fun hk => ((hleft _ k').mp hk).2 rfl) nofun

theorem step (h : c.Informed s kinds seen qs) (hseen : c.Offers seen) (j : Nat) :
    (c.step o j).Informed s kinds seen qs := by
  rcases hp : c.programs[j]? with _ | _ | ⟨e, next⟩
  · rw [Crew.step, hp]
    exact h
  · rw [Crew.step, hp]
    exact h
  · by_cases hacquire : ∀ k, e ≠ .acquire k
    · by_cases hrelease : ∀ k, e ≠ .release k
      · exact h.step_unlocked hseen hp hacquire hrelease
      · obtain ⟨k, rfl⟩ := not_forall_not.mp hrelease
        exact h.step_release hseen hp
    · obtain ⟨k, rfl⟩ := not_forall_not.mp hacquire
      exact h.step_acquire hseen hp

/-- A call has come in. -/
theorem call (h : c.Informed s kinds seen qs) (q : ServiceCall) :
    Informed s kinds seen (qs ++ [q]) { c with programs := c.programs ++ [s.serve q] } where
  keyed := h.keyed
  factories := h.factories
  registry := h.registry
  coherent := h.coherent
  claims d hd := (h.claims d hd).append _
  tickets e he := by
    rw [List.length_append]
    exact Nat.lt_add_right _ (h.tickets e he)
  length := by rw [List.length_append, List.length_append, h.length]; rfl
  calls i p hp := by
    by_cases hi : i < c.programs.length
    · rw [List.getElem?_append_left hi] at hp
      rw [List.getElem?_append_left (h.length ▸ hi)]
      exact h.calls i p hp
    · -- nothing that has been done before is this call's
      have hlt := lt_of_getElem? hp
      rw [List.length_append, List.length_singleton] at hlt
      obtain rfl : i = c.programs.length := by omega
      rw [List.getElem?_concat_length] at hp
      cases hp
      have hfree (k : SessionKey) : ¬ c.world.locks.Holder c.programs.length k := by
        rintro ⟨d, hd, hticket, -⟩
        exact (h.claims d hd).lt.ne hticket
      refine ⟨q, [], by rw [← h.length, List.getElem?_concat_length], .here _, by simp, by simp, by simp,
        callsOf_eq_nil fun e he => (h.tickets e he).ne, by simp [hfree], by simp⟩

end Crew.Informed

/-! ## Runs -/

/-- The call that comes in, if one does. -/
def Move.call? : Move ε → Option ServiceCall
  | .call q => some q
  | _ => none

theorem Crew.Informed.move {o : Surroundings ε} {s : Service} {kinds : Table String HandlerKind}
    {seen : Nat → Context → Prop} {qs : List ServiceCall} {c : Crew ε ServiceAnswer}
    (h : c.Informed s kinds seen qs) (hseen : c.Offers seen) (x : Move ε) :
    (c.move o s x).Informed s kinds seen (qs ++ x.call?.toList) := by
  have hsame {c' : Crew ε ServiceAnswer} (h' : c'.Informed s kinds seen qs) :
      c'.Informed s kinds seen (qs ++ []) := by
    rwa [List.append_nil]
  cases x with
  | call q => exact h.call q
  | step i => exact hsame (h.step hseen i)
  | saveContext x => exact hsame (h.withWorld (World.spares_saveContext h.keyed x))
  | bootstrap b => exact hsame (h.withWorld (World.spares_bootstrap h.keyed b))
  | outside f => exact hsame (h.withWorld ⟨rfl, rfl, rfl, h.keyed, fun _ _ hx => hx⟩)

/-- On a run, a context was stored under its name at some time when the `i`th call had come in. -/
def Crew.Met (o : Surroundings ε) (s : Service) (c : Crew ε ServiceAnswer) (xs : List (Move ε)) (i : Nat)
    (x : Context) : Prop :=
  ∃ ys, ys <+: xs ∧ i < (ys.foldl (Crew.move o s) c).programs.length ∧
    (ys.foldl (Crew.move o s) c).world.store.findContext x.name = .ok (some x)

theorem informed_moveAll (o : Surroundings ε) (s : Service) {w : World ε}
    {kinds : Table String HandlerKind} (hw : w.Sound kinds) (hl : w.locks.Coherent)
    (xs : List (Move ε)) :
    (xs.foldl (Crew.move o s) ⟨[], w, []⟩).Informed s kinds (Crew.Met o s ⟨[], w, []⟩ xs)
      (xs.filterMap Move.call?) := by
  induction xs using List.reverseRecOn with
  | nil => exact .start hw hl
  | append_singleton xs x ih =>
    have hmet (i : Nat) (y : Context) (h : Crew.Met o s ⟨[], w, []⟩ xs i y) :
        Crew.Met o s ⟨[], w, []⟩ (xs ++ [x]) i y := by
      obtain ⟨ys, hys, hy⟩ := h
      exact ⟨ys, hys.trans (List.prefix_append xs [x]), hy⟩
    have hmore := ih.mono hmet
    rw [List.foldl_concat, List.filterMap_append]
    exact hmore.move (fun i y hi hy => ⟨xs, List.prefix_append xs [x], hi, hy⟩) x

theorem Crew.world_step {α : Type} (o : Surroundings ε) {c : Crew ε α} {i : Nat} {e : Effect}
    {next : e.Answer → Program α} (hp : c.programs[i]? = some (.perform e next)) :
    (c.step o i).world = (c.world.answer o i e).2 := by
  simp only [Crew.step, hp]
  rcases c.world.answer o i e with ⟨_ | b, w⟩ <;> rfl

/-- Whatever calls have come in and taken turns, and whatever else has been done and been made to fail:
what happens next makes one program call at most. It is the first one of its call, for the request of
that call and a context that the call can have found. If the request asks for a session, the call has its
lock, and the history that is replayed is the one that is stored now. -/
theorem launches_interleaved (o : Surroundings ε) (s : Service) {st : Store} (hst : st.Keyed)
    (kinds : Table String HandlerKind) (faults : Faults) (outside : ε) (xs : List (Move ε))
    (x : Move ε) :
    let start : Crew ε ServiceAnswer := ⟨[], World.new st kinds faults outside, []⟩
    let c := xs.foldl (Crew.move o s) start
    (c.move o s x).world.calls = c.world.calls ∨
      ∃ i q r y kind, x = .step i ∧ (xs.filterMap Move.call?)[i]? = some q ∧
        s.requestOf q = some r ∧ callsOf i c.log = [] ∧ start.Met o s xs i y ∧ y.name = r.language ∧
        kinds.get? (typeName r.language) = some kind ∧
        (∀ k, r.target? = some k → c.world.locks.Holder i ⟨r.language, k⟩) ∧
        (c.move o s x).world.calls =
          c.world.calls ++ [s.launch kind y (r.fragments c.world.store) r.code] := by
  intro start c
  have hc : c.Informed s kinds (start.Met o s xs) (xs.filterMap Move.call?) :=
    informed_moveAll o s (sound_new hst kinds faults outside) SessionLocks.coherent_empty xs
  cases x with
  | call q => exact .inl rfl
  | saveContext z => exact .inl (World.spares_saveContext hc.keyed z).calls
  | bootstrap b => exact .inl (World.spares_bootstrap hc.keyed b).calls
  | outside f => exact .inl rfl
  | step i =>
    rcases hp : c.programs[i]? with _ | _ | ⟨e, next⟩
    · exact .inl (by rw [Crew.move, Crew.step, hp])
    · exact .inl (by rw [Crew.move, Crew.step, hp])
    · have hcalls : (c.move o s (.step i)).world.calls = c.world.calls ++ e.calls := by
        rw [Crew.move, Crew.world_step o hp, calls_answer]
      by_cases he : ∀ call, e ≠ .run call
      · exact .inl (by rw [hcalls, Effect.calls_of_not_run he, List.append_nil])
      · obtain ⟨call, rfl⟩ := not_forall_not.mp he
        obtain ⟨q, log, hq, hstands⟩ := hc.calls i _ hp
        obtain ⟨hnone, r, hr, y, h, fragments, hy, hh, rfl, hfragments⟩ := hstands.due
        have hname : y.name = r.language := hstands.honest _ hy
        have hstored : r.fragments c.world.store = fragments ∧
            ∀ k, r.target? = some k → c.world.locks.Holder i ⟨r.language, k⟩ := by
          rw [Request.fragments]
          cases ht : r.target? with
          | none =>
            rw [ht] at hfragments
            exact ⟨hfragments.symm, by simp⟩
          | some k =>
            rw [ht] at hfragments
            obtain ⟨z, hz, rfl⟩ := hfragments
            obtain ⟨hkey, hfound⟩ := hstands.stored z (by rw [hz])
            have hheld : (Custody.after log).key? = some ⟨r.language, k⟩ := by rw [hz, hname]
            rw [hheld] at hkey
            rw [← Option.some.inj hkey] at hfound
            refine ⟨Store.history_of_findSession hfound, fun k' hk' => ?_⟩
            cases hk'
            exact (hstands.held _).mpr hheld
        rw [← hstored.1] at hcalls
        refine .inr ⟨i, q, r, y, h.kind, rfl, hq, hr, hstands.made.trans hnone, hstands.seen _ _ hy,
          hname, ?_, hstored.2, hcalls⟩
        rw [← hname]
        exact hstands.resolved y h hh

/-- Two calls on one session take turns. The second one waits, and replays what the first one has
saved. -/
example :
    let cells : List (Move Unit) := ["y = 2", "z = 3"].map fun code =>
      .call (.dispatch ⟨"python", code, SessionId.ofInt? 3, .good⟩)
    let turns : List (Move Unit) := (List.replicate 14 [.step 0, .step 1]).flatten
    let c := (cells ++ turns).foldl (Crew.move silent pairService)
      ⟨[], World.new (.memory seededStore) Registry.builtin Faults.none (), []⟩
    c.world.calls.map (·.args) = [["-c", "x = 1|y = 2"], ["-c", "x = 1|y = 2|z = 3"]] := by decide

end CellReplay
