import CellReplay.Proofs.Locks.Alone
import CellReplay.Service.World

/-!
# Proofs.Service.Courses

The ways that a call can go when it has the world to itself. There is one relation for each part of
a call; its constructors are the ways through that part, each with the attempts that it makes on the
store and what they came to. The theorem beside each relation says that a run ends, and in one of
these ways.

* `Opened`, `Interpreted`, `InSession`, `Locked` — the ways of `Service.openSession`, `interpret`,
  `interpretIn` and `interpretLocked`.
* `Classified`, `Dispatched`, `Executed` — those of `Service.classify`, `tryDispatch` and `execute`.
* `exec_classify`, `exec_dispatch`, `exec_execute` — the theorems for them.
-/

namespace CellReplay

variable {ε : Type}

namespace World

def tryContext (w : World ε) (n : String) : Except Failure (Option Context) × World ε :=
  w.attempt .findContext fun s => (s.findContext n, s)

def tryFind (w : World ε) (k : SessionKey) : Except Failure (Option Session) × World ε :=
  w.attempt .findSession fun s => (s.findSession k, s)

def trySave (w : World ε) (x : Session) : Except Failure Unit × World ε :=
  w.attempt .saveSession (·.saveSession x)

/-- Beside the store, an attempt changes nothing but the number of attempts. -/
structure Attempted (w w' : World ε) : Prop where
  registry : w'.registry = w.registry
  locks : w'.locks = w.locks
  outside : w'.outside = w.outside
  calls : w'.calls = w.calls
  planned : w'.faults.planned = w.faults.planned

theorem Attempted.trans {w w₁ w₂ : World ε} (h₁ : Attempted w w₁) (h₂ : Attempted w₁ w₂) :
    Attempted w w₂ :=
  ⟨h₂.registry.trans h₁.registry, h₂.locks.trans h₁.locks, h₂.outside.trans h₁.outside,
    h₂.calls.trans h₁.calls, h₂.planned.trans h₁.planned⟩

theorem attempted_attempt {α : Type} {w w' : World ε} {m : Method}
    {op : Store → Except Failure α × Store} {r : Except Failure α}
    (h : w.attempt m op = (r, w')) : Attempted w w' := by
  unfold attempt at h
  split at h <;> cases h <;> exact ⟨rfl, rfl, rfl, rfl, rfl⟩

theorem attempt_error {α : Type} {w w' : World ε} {m : Method}
    {op : Store → Except Failure α × Store} {e : Failure} (h : w.attempt m op = (.error e, w')) :
    w'.store = w.store ∨ op w.store = (.error e, w'.store) := by
  unfold attempt at h
  split at h
  · cases h; exact .inl rfl
  · rename_i hn
    refine .inr ?_
    rw [← (Prod.mk.inj h).1, ← (Prod.mk.inj h).2]

theorem attempt_ok {α : Type} {w w' : World ε} {m : Method}
    {op : Store → Except Failure α × Store} {a : α} (h : w.attempt m op = (.ok a, w')) :
    op w.store = (.ok a, w'.store) := by
  unfold attempt at h
  split at h
  · cases h
  · rw [← (Prod.mk.inj h).1, ← (Prod.mk.inj h).2]

/-- An attempt that only looks at the store, whether it fails or not. -/
theorem store_attempt_look {α : Type} {w w' : World ε} {m : Method}
    {look : Store → Except Failure α} {r : Except Failure α}
    (h : w.attempt m (fun s => (look s, s)) = (r, w')) : w'.store = w.store := by
  cases r with
  | error e =>
    rcases attempt_error h with h | h
    · exact h
    · exact (Prod.mk.inj h).2.symm
  | ok a => exact (Prod.mk.inj (attempt_ok h)).2.symm

theorem attempted_tryContext {w w' : World ε} {n : String} {r : Except Failure (Option Context)}
    (h : w.tryContext n = (r, w')) : Attempted w w' := attempted_attempt h

theorem attempted_tryFind {w w' : World ε} {k : SessionKey} {r : Except Failure (Option Session)}
    (h : w.tryFind k = (r, w')) : Attempted w w' := attempted_attempt h

theorem attempted_trySave {w w' : World ε} {x : Session} {r : Except Failure Unit}
    (h : w.trySave x = (r, w')) : Attempted w w' := attempted_attempt h

theorem store_tryContext {w w' : World ε} {n : String} {r : Except Failure (Option Context)}
    (h : w.tryContext n = (r, w')) : w'.store = w.store := store_attempt_look h

theorem store_tryFind {w w' : World ε} {k : SessionKey} {r : Except Failure (Option Session)}
    (h : w.tryFind k = (r, w')) : w'.store = w.store := store_attempt_look h

theorem tryContext_ok {w w' : World ε} {n : String} {c : Option Context}
    (h : w.tryContext n = (.ok c, w')) : w.store.findContext n = .ok c :=
  (Prod.mk.inj (attempt_ok h)).1

theorem tryFind_ok {w w' : World ε} {k : SessionKey} {x : Option Session}
    (h : w.tryFind k = (.ok x, w')) : w.store.findSession k = .ok x :=
  (Prod.mk.inj (attempt_ok h)).1

theorem trySave_ok {w w' : World ε} {x : Session} (h : w.trySave x = (.ok (), w')) :
    w.store.saveSession x = (.ok (), w'.store) := attempt_ok h

theorem trySave_error {w w' : World ε} {x : Session} {e : Failure}
    (h : w.trySave x = (.error e, w')) : w'.store = w.store := by
  rcases attempt_error h with h | h
  · exact h
  · exact Store.saveSession_error h

end World

/-! ## Running programs -/

namespace Program

variable {α β : Type} (o : Surroundings ε) (t : Nat)

theorem exec_bind (p : Program α) (f : α → Program β) (w : World ε) :
    (p.bind f).exec o t w =
      match p.exec o t w with
      | (some a, w') => (f a).exec o t w'
      | (none, w') => (none, w') := by
  induction p generalizing w with
  | done a => rfl
  | perform e next ih =>
    simp only [bind, exec]
    split
    · exact ih _ _
    · rfl

theorem exec_findContext (n : String) (f : Except Failure (Option Context) → Program α)
    (w : World ε) :
    ((ask (.findContext n)).bind f).exec o t w =
      (f (w.tryContext n).1).exec o t (w.tryContext n).2 := rfl

theorem exec_findSession (k : SessionKey) (f : Except Failure (Option Session) → Program α)
    (w : World ε) :
    ((ask (.findSession k)).bind f).exec o t w = (f (w.tryFind k).1).exec o t (w.tryFind k).2 := rfl

theorem exec_saveSession (x : Session) (f : Except Failure Unit → Program α) (w : World ε) :
    ((ask (.saveSession x)).bind f).exec o t w = (f (w.trySave x).1).exec o t (w.trySave x).2 := rfl

theorem exec_resolve (c : Context) (f : Option Handler → Program α) (w : World ε) :
    ((ask (.resolve c)).bind f).exec o t w =
      (f (w.registry.resolve (o.isThere w.outside) c).1).exec o t
        { w with registry := (w.registry.resolve (o.isThere w.outside) c).2 } := rfl

theorem exec_run (call : Call) (f : Outcome → Program α) (w : World ε) :
    ((ask (.run call)).bind f).exec o t w =
      (f (o.run w.outside call).1).exec o t
        { w with outside := (o.run w.outside call).2, calls := w.calls ++ [call] } := rfl

theorem exec_acquire (k : SessionKey) (f : Unit → Program α) {w : World ε} (h : w.locks.Unused) :
    ((ask (.acquire k)).bind f).exec o t w =
      (f ()).exec o t { w with locks := (w.locks.enter t k).resume t } := by
  simp only [ask, bind, exec, World.answer, SessionLocks.phaseOf_unused h, Option.isSome_none,
    Bool.false_eq_true, if_false, SessionLocks.phaseOf_enter_unused h, if_true]

end Program

/-! ## What the calls look at -/

def Service.callBy (s : Service) (h : Handler) (c : Context) (history : Option (List String))
    (code : String) : Call :=
  h.kind.call c (s.properties.settingsFor c.name) history code

def World.after (o : Surroundings ε) (w : World ε) (reg : Registry) (call : Call) : World ε :=
  { w with
    registry := reg
    outside := (o.run w.outside call).2
    calls := w.calls ++ [call] }

/-- The program ended cleanly and printed nothing that can be seen. -/
def Interpretation.Quiet (i : Interpretation) : Prop := i.completed && i.reply.content.isEmpty

instance (i : Interpretation) : Decidable i.Quiet := inferInstanceAs (Decidable (_ = true))

def Request.settled (r : Request) : Request :=
  if r.isNewSession then { r with status := .good } else r

/-- What a request is told that no session and no program can serve, whatever the store holds. -/
def Request.refusal? (r : Request) : Option Reply :=
  match r.status with
  | .noNeedForSession => none
  | .good | .noSessionId => if r.sessionId.isSome then none else some Service.noSessionId
  | .noInterpreterFound => some (Service.noInterpreter r.language)
  | .wrongSyntax => some (Service.wrongSyntax r.language)

/-- The session that a request asks for. -/
def Request.target? (r : Request) : Option SessionId := if r.needsSession then r.sessionId else none

theorem Request.refusal?_of_target? {r : Request} {i : SessionId} (h : r.target? = some i) :
    r.refusal? = none := by
  unfold target? at h
  split at h
  · rename_i hn
    unfold refusal?
    split
    · rfl
    · rw [h]; rfl
    · rw [h]; rfl
    · simp_all [needsSession]
    · simp_all [needsSession]
  · cases h

theorem Request.confirm_code (r : Request) (known : Bool) : (r.confirm known).code = r.code := by
  unfold confirm
  split <;> rfl

theorem Request.confirm_language (r : Request) (known : Bool) :
    (r.confirm known).language = r.language := by
  unfold confirm
  split <;> rfl

theorem Request.target?_confirm (r : Request) (known : Bool) :
    (r.confirm known).target? = r.target? := by
  unfold confirm
  split
  · rename_i h
    rw [target?, target?, if_pos h, if_pos]
    cases known <;> rfl
  · rfl

/-! ## Sessions -/

namespace Course

open Program

inductive Opened (k : SessionKey) (w : World ε) : Except Failure Session → World ε → Prop
  | unread {e : Failure} {w₁ : World ε} (hf : w.tryFind k = (.error e, w₁)) : Opened k w (.error e) w₁
  | found {x : Session} {w₁ : World ε} (hf : w.tryFind k = (.ok (some x), w₁)) : Opened k w (.ok x) w₁
  | unmade {e : Failure} {w₁ w₂ : World ε} (hf : w.tryFind k = (.ok none, w₁))
      (hs : w₁.trySave k.newSession = (.error e, w₂)) : Opened k w (.error e) w₂
  | made {w₁ w₂ : World ε} (hf : w.tryFind k = (.ok none, w₁))
      (hs : w₁.trySave k.newSession = (.ok (), w₂)) : Opened k w (.ok k.newSession) w₂

inductive Interpreted (o : Surroundings ε) (s : Service) (c : Context)
    (history : Option (List String)) (code : String) (w : World ε) :
    Option Interpretation → World ε → Prop
  | absent (hr : w.registry.resolve (o.isThere w.outside) c = (none, w.registry)) :
      Interpreted o s c history code w none w
  | ran {h : Handler} {reg : Registry}
      (hr : w.registry.resolve (o.isThere w.outside) c = (some h, reg)) :
      Interpreted o s c history code w
        (some (.ofOutcome (o.run w.outside (s.callBy h c history code)).1))
        (w.after o reg (s.callBy h c history code))

inductive InSession (o : Surroundings ε) (s : Service) (c : Context) (x : Session) (code : String)
    (w : World ε) : Except Failure Reply → World ε → Prop
  | absent {w₁ : World ε} (hi : Interpreted o s c (some x.history) code w none w₁) :
      InSession o s c x code w (.ok (Service.noHandler c.name)) w₁
  | shown {i : Interpretation} {w₁ : World ε}
      (hi : Interpreted o s c (some x.history) code w (some i) w₁) (hq : ¬ i.Quiet) :
      InSession o s c x code w (.ok i.reply) w₁
  | lost {i : Interpretation} {e : Failure} {w₁ w₂ : World ε}
      (hi : Interpreted o s c (some x.history) code w (some i) w₁) (hq : i.Quiet)
      (hs : w₁.trySave (x.append code) = (.error e, w₂)) : InSession o s c x code w (.error e) w₂
  | kept {i : Interpretation} {w₁ w₂ : World ε}
      (hi : Interpreted o s c (some x.history) code w (some i) w₁) (hq : i.Quiet)
      (hs : w₁.trySave (x.append code) = (.ok (), w₂)) : InSession o s c x code w (.ok i.reply) w₂

inductive Locked (o : Surroundings ε) (s : Service) (c : Context) (k : SessionKey) (r : Request)
    (w : World ε) : Except Failure Reply × Request → World ε → Prop
  | unopened {e : Failure} {w₁ : World ε} (ho : Opened k w (.error e) w₁) :
      Locked o s c k r w (.error e, r) w₁
  | opened {x : Session} {a : Except Failure Reply} {w₁ w₂ : World ε} (ho : Opened k w (.ok x) w₁)
      (hi : InSession o s c x r.code w₁ a w₂) : Locked o s c k r w (a, r.settled) w₂

theorem exec_openSession (o : Surroundings ε) (t : Nat) (k : SessionKey) (w : World ε) :
    ∃ a w', (Service.openSession k).exec o t w = (some a, w') ∧ Opened k w a w' := by
  simp only [Service.openSession, bind_eq, pure_eq]
  rw [exec_findSession]
  rcases hf : w.tryFind k with ⟨(e | _ | x), w₁⟩
  · exact ⟨_, _, rfl, .unread hf⟩
  · dsimp only
    rw [exec_saveSession]
    rcases hs : w₁.trySave k.newSession with ⟨e | _, w₂⟩
    · exact ⟨_, _, rfl, .unmade hf hs⟩
    · exact ⟨_, _, rfl, .made hf hs⟩
  · exact ⟨_, _, rfl, .found hf⟩

theorem resolve_none {r reg : Registry} {isThere : String → Bool} {c : Context}
    (h : r.resolve isThere c = (none, reg)) : reg = r := by
  unfold Registry.resolve at h
  split at h
  · cases h; rfl
  · split at h
    · cases h
    · split at h
      · cases h
      · cases h; rfl

theorem exec_interpret (o : Surroundings ε) (t : Nat) (s : Service) (c : Context)
    (history : Option (List String)) (code : String) (w : World ε) :
    ∃ a w', (s.interpret c history code).exec o t w = (some a, w') ∧
      Interpreted o s c history code w a w' := by
  simp only [Service.interpret, bind_eq, pure_eq]
  rw [exec_resolve]
  rcases hr : w.registry.resolve (o.isThere w.outside) c with ⟨_ | h, reg⟩
  · have hreg := resolve_none hr
    subst hreg
    exact ⟨_, _, rfl, .absent hr⟩
  · dsimp only
    rw [exec_run]
    exact ⟨_, _, rfl, .ran hr⟩

theorem exec_interpretIn (o : Surroundings ε) (t : Nat) (s : Service) (c : Context) (x : Session)
    (r : Request) (w : World ε) :
    ∃ a w', (s.interpretIn c x r).exec o t w = (some a, w') ∧ InSession o s c x r.code w a w' := by
  obtain ⟨a, w₁, he, hi⟩ := exec_interpret o t s c (some x.history) r.code w
  simp only [Service.interpretIn, bind_eq, pure_eq]
  rw [exec_bind, he]
  cases a with
  | none => exact ⟨_, _, rfl, .absent hi⟩
  | some i =>
    by_cases hq : i.Quiet
    · simp only [if_pos (show (i.completed && i.reply.content.isEmpty) = true from hq)]
      rw [exec_saveSession]
      rcases hs : w₁.trySave (x.append r.code) with ⟨e | _, w₂⟩
      · exact ⟨_, _, rfl, .lost hi hq hs⟩
      · exact ⟨_, _, rfl, .kept hi hq hs⟩
    · simp only [if_neg (show ¬ (i.completed && i.reply.content.isEmpty) = true from hq)]
      exact ⟨_, _, rfl, .shown hi hq⟩

theorem exec_interpretLocked (o : Surroundings ε) (t : Nat) (s : Service) (c : Context)
    (k : SessionKey) (r : Request) (w : World ε) :
    ∃ a w', (s.interpretLocked c k r).exec o t w = (some a, w') ∧ Locked o s c k r w a w' := by
  obtain ⟨a, w₁, he, ho⟩ := exec_openSession o t k w
  simp only [Service.interpretLocked, bind_eq, pure_eq]
  rw [exec_bind, he]
  cases a with
  | error e => exact ⟨_, _, rfl, .unopened ho⟩
  | ok x =>
    -- only the request of a new session is promoted, and that cannot fail
    by_cases hn : r.isNewSession
    · have hst : r.status = .noSessionId := of_decide_eq_true hn
      obtain ⟨a, w₂, he, hi⟩ := exec_interpretIn o t s c x r.settled w₁
      have hc : r.settled.code = r.code := by rw [Request.settled, if_pos hn]
      rw [hc] at hi
      refine ⟨_, _, ?_, .opened ho hi⟩
      simp only [if_pos hn, Request.promote, if_pos hst]
      rw [Request.settled, if_pos hn] at he ⊢
      rw [exec_bind, he]
      rfl
    · obtain ⟨a, w₂, he, hi⟩ := exec_interpretIn o t s c x r w₁
      refine ⟨_, _, ?_, .opened ho hi⟩
      simp only [if_neg hn]
      rw [exec_bind, he, Request.settled, if_neg hn]
      rfl

/-! ## Requests and cells -/

inductive Dispatched (o : Surroundings ε) (s : Service) (r : Request) (w : World ε) :
    Except Failure Reply × Request → World ε → Prop
  | unread {e : Failure} {w₁ : World ε} (hc : w.tryContext r.language = (.error e, w₁)) :
      Dispatched o s r w (.error e, r) w₁
  | unknown {w₁ : World ε} (hc : w.tryContext r.language = (.ok none, w₁)) :
      Dispatched o s r w (.ok (Service.noInterpreter r.language), r.markNoInterpreter) w₁
  | refused {c : Context} {a : Reply} {w₁ : World ε}
      (hc : w.tryContext r.language = (.ok (some c), w₁)) (hr : r.refusal? = some a) :
      Dispatched o s r w (.ok a, r) w₁
  | alone {c : Context} {a : Option Interpretation} {w₁ w₂ : World ε}
      (hc : w.tryContext r.language = (.ok (some c), w₁)) (hs : r.status = .noNeedForSession)
      (hi : Interpreted o s c none r.code w₁ a w₂) :
      Dispatched o s r w (.ok ((a.map (·.reply)).getD (Service.noHandler c.name)), r) w₂
  | locked {c : Context} {i : SessionId} {a : Except Failure Reply × Request} {w₁ w₂ : World ε}
      {l l' : SessionLocks Nat} (hc : w.tryContext r.language = (.ok (some c), w₁))
      (ht : r.target? = some i) (hl : Locked o s c ⟨c.name, i⟩ r { w₁ with locks := l } a w₂)
      (hl' : l'.Unused) : Dispatched o s r w a { w₂ with locks := l' }

theorem exec_interpretAlone (o : Surroundings ε) (t : Nat) (s : Service) (c : Context) (r : Request)
    (w : World ε) :
    ∃ a w', (s.interpretAlone c r).exec o t w =
        (some ((a.map (·.reply)).getD (Service.noHandler c.name)), w') ∧
      Interpreted o s c none r.code w a w' := by
  obtain ⟨a, w₁, he, hi⟩ := exec_interpret o t s c none r.code w
  refine ⟨a, w₁, ?_, hi⟩
  simp only [Service.interpretAlone, bind_eq, pure_eq]
  rw [exec_bind, he]
  cases a <;> rfl

theorem Opened.attempted {k : SessionKey} {w w' : World ε} {a : Except Failure Session}
    (h : Opened k w a w') : World.Attempted w w' := by
  cases h with
  | unread hf => exact World.attempted_tryFind hf
  | found hf => exact World.attempted_tryFind hf
  | unmade hf hs => exact (World.attempted_tryFind hf).trans (World.attempted_trySave hs)
  | made hf hs => exact (World.attempted_tryFind hf).trans (World.attempted_trySave hs)

theorem Interpreted.locks_eq {o : Surroundings ε} {s : Service} {c : Context}
    {history : Option (List String)} {code : String} {w w' : World ε} {a : Option Interpretation}
    (h : Interpreted o s c history code w a w') : w'.locks = w.locks := by
  cases h <;> rfl

theorem InSession.locks_eq {o : Surroundings ε} {s : Service} {c : Context} {x : Session}
    {code : String} {w w' : World ε} {a : Except Failure Reply}
    (h : InSession o s c x code w a w') : w'.locks = w.locks := by
  cases h with
  | absent hi => exact hi.locks_eq
  | shown hi _ => exact hi.locks_eq
  | lost hi _ hs => exact (World.attempted_trySave hs).locks.trans hi.locks_eq
  | kept hi _ hs => exact (World.attempted_trySave hs).locks.trans hi.locks_eq

theorem Locked.locks_eq {o : Surroundings ε} {s : Service} {c : Context} {k : SessionKey}
    {r : Request} {w w' : World ε} {a : Except Failure Reply × Request}
    (h : Locked o s c k r w a w') : w'.locks = w.locks := by
  cases h with
  | unopened ho => exact ho.attempted.locks
  | opened ho hi => exact hi.locks_eq.trans ho.attempted.locks

/-- A request that needs the lock of its session gets it, and lets it go in the end. -/
theorem exec_interpretSession (o : Surroundings ε) (t : Nat) (s : Service) (c : Context)
    (i : SessionId) (r : Request) {w : World ε} (hw : w.locks.Unused) :
    ∃ a l l' w', (s.interpretSession c i r).exec o t w = (some a, { w' with locks := l' }) ∧
      Locked o s c ⟨c.name, i⟩ r { w with locks := l } a w' ∧ l'.Unused := by
  let l := (w.locks.enter t ⟨c.name, i⟩).resume t
  obtain ⟨a, w', he, hl⟩ := exec_interpretLocked o t s c ⟨c.name, i⟩ r { w with locks := l }
  refine ⟨a, l, (w'.locks.release t).prune t, w', ?_, hl, ?_⟩
  · simp only [Service.interpretSession, bind_eq, pure_eq]
    rw [exec_acquire o t _ _ hw, exec_bind, he]
    rfl
  · refine SessionLocks.prune_release_heldAlone (k := ⟨c.name, i⟩) ?_
    rw [hl.locks_eq]
    exact SessionLocks.resume_enter_unused hw t _

theorem exec_tryDispatch (o : Surroundings ε) (t : Nat) (s : Service) (r : Request) {w : World ε}
    (hw : w.locks.Unused) :
    ∃ a w', (s.tryDispatch r).exec o t w = (some a, w') ∧ Dispatched o s r w a w' := by
  simp only [Service.tryDispatch, bind_eq, pure_eq]
  rw [exec_findContext]
  rcases hc : w.tryContext r.language with ⟨(e | _ | c), w₁⟩
  · exact ⟨_, _, rfl, .unread hc⟩
  · exact ⟨_, _, rfl, .unknown hc⟩
  · have hw₁ : w₁.locks.Unused := by rw [(World.attempted_tryContext hc).locks]; exact hw
    have hsession (hn : r.needsSession) {i : SessionId} (hi : r.sessionId = some i) :
        ∃ a w', (s.interpretSession c i r).exec o t w₁ = (some a, w') ∧
          Dispatched o s r w a w' := by
      obtain ⟨a, l, l', w', he, hl, hl'⟩ := exec_interpretSession o t s c i r hw₁
      exact ⟨_, _, he, .locked hc (by rw [Request.target?, if_pos hn, hi]) hl hl'⟩
    cases hs : r.status with
    | noNeedForSession =>
      obtain ⟨a, w₂, he, hi⟩ := exec_interpretAlone o t s c r w₁
      refine ⟨_, _, ?_, .alone hc hs hi⟩
      dsimp only
      rw [exec_bind, he]
      rfl
    | good =>
      cases hi : r.sessionId with
      | none => exact ⟨_, _, rfl, .refused hc (by simp [Request.refusal?, hs, hi])⟩
      | some i => exact hsession (by simp [Request.needsSession, hs]) hi
    | noSessionId =>
      cases hi : r.sessionId with
      | none => exact ⟨_, _, rfl, .refused hc (by simp [Request.refusal?, hs, hi])⟩
      | some i => exact hsession (by simp [Request.needsSession, hs]) hi
    | noInterpreterFound => exact ⟨_, _, rfl, .refused hc (by rw [Request.refusal?, hs])⟩
    | wrongSyntax => exact ⟨_, _, rfl, .refused hc (by rw [Request.refusal?, hs])⟩

def replyOf : Except Failure Reply → Reply
  | .ok reply => reply
  | .error e => Service.internalError e

theorem exec_dispatch (o : Surroundings ε) (t : Nat) (s : Service) (r : Request) {w : World ε}
    (hw : w.locks.Unused) :
    ∃ a w', (s.dispatch r).exec o t w = (some (replyOf a.1, a.2), w') ∧
      Dispatched o s r w a w' := by
  obtain ⟨⟨a, r'⟩, w', he, hd⟩ := exec_tryDispatch o t s r hw
  refine ⟨(a, r'), w', ?_, hd⟩
  simp only [Service.dispatch, bind_eq, pure_eq]
  rw [exec_bind, he]
  cases a <;> rfl

inductive Classified (s : Service) (raw : String) (field : Option String) (w : World ε) :
    Option Request → World ε → Prop
  | rejected (hp : s.classifier.classify raw field = none) : Classified s raw field w none w
  | unread {r : Request} {e : Failure} {w₁ : World ε}
      (hp : s.classifier.classify raw field = some r)
      (hc : w.tryContext r.language = (.error e, w₁)) : Classified s raw field w (some r) w₁
  | unknown {r : Request} {w₁ : World ε} (hp : s.classifier.classify raw field = some r)
      (hc : w.tryContext r.language = (.ok none, w₁)) :
      Classified s raw field w (some r.markNoInterpreter) w₁
  | alone {r : Request} {c : Context} {w₁ : World ε}
      (hp : s.classifier.classify raw field = some r)
      (hc : w.tryContext r.language = (.ok (some c), w₁)) (ht : r.target? = none) :
      Classified s raw field w (some r) w₁
  | unconfirmed {r : Request} {c : Context} {i : SessionId} {e : Failure} {w₁ w₂ : World ε}
      (hp : s.classifier.classify raw field = some r)
      (hc : w.tryContext r.language = (.ok (some c), w₁)) (ht : r.target? = some i)
      (hf : w₁.tryFind ⟨c.name, i⟩ = (.error e, w₂)) : Classified s raw field w (some r) w₂
  | confirmed {r : Request} {c : Context} {i : SessionId} {x : Option Session} {w₁ w₂ : World ε}
      (hp : s.classifier.classify raw field = some r)
      (hc : w.tryContext r.language = (.ok (some c), w₁)) (ht : r.target? = some i)
      (hf : w₁.tryFind ⟨c.name, i⟩ = (.ok x, w₂)) :
      Classified s raw field w (some (r.confirm x.isSome)) w₂

theorem exec_classify (o : Surroundings ε) (t : Nat) (s : Service) (raw : String)
    (field : Option String) (w : World ε) :
    ∃ a w', (s.classify raw field).exec o t w = (some a, w') ∧ Classified s raw field w a w' := by
  unfold Service.classify
  cases hp : s.classifier.classify raw field with
  | none => exact ⟨_, _, rfl, .rejected hp⟩
  | some r =>
    simp only [bind_eq, pure_eq]
    rw [exec_findContext]
    rcases hc : w.tryContext r.language with ⟨(e | _ | c), w₁⟩
    · exact ⟨_, _, rfl, .unread hp hc⟩
    · exact ⟨_, _, rfl, .unknown hp hc⟩
    · dsimp only
      rw [← Request.target?]
      cases ht : r.target? with
      | none => exact ⟨_, _, rfl, .alone hp hc ht⟩
      | some i =>
        dsimp only
        rw [exec_findSession]
        rcases hf : w₁.tryFind ⟨c.name, i⟩ with ⟨e | x, w₂⟩
        · exact ⟨_, _, rfl, .unconfirmed hp hc ht hf⟩
        · exact ⟨_, _, rfl, .confirmed hp hc ht hf⟩

inductive Executed (o : Surroundings ε) (s : Service) (raw : String) (field : Option String)
    (w : World ε) : Reply → World ε → Prop
  | rejected {w₁ : World ε} (hc : Classified s raw field w none w₁) :
      Executed o s raw field w (Service.rejected s.classifier.source) w₁
  | ran {r : Request} {a : Except Failure Reply × Request} {w₁ w₂ : World ε}
      (hc : Classified s raw field w (some r) w₁) (hd : Dispatched o s r w₁ a w₂) :
      Executed o s raw field w (replyOf a.1) w₂

theorem Classified.store_eq {s : Service} {raw : String} {field : Option String} {w w' : World ε}
    {a : Option Request} (h : Classified s raw field w a w') : w'.store = w.store := by
  cases h with
  | rejected _ => rfl
  | unread _ hc => exact World.store_tryContext hc
  | unknown _ hc => exact World.store_tryContext hc
  | alone _ hc _ => exact World.store_tryContext hc
  | unconfirmed _ hc _ hf => exact (World.store_tryFind hf).trans (World.store_tryContext hc)
  | confirmed _ hc _ hf => exact (World.store_tryFind hf).trans (World.store_tryContext hc)

theorem Classified.attempted {s : Service} {raw : String} {field : Option String} {w w' : World ε}
    {a : Option Request} (h : Classified s raw field w a w') : World.Attempted w w' := by
  cases h with
  | rejected _ => exact ⟨rfl, rfl, rfl, rfl, rfl⟩
  | unread _ hc => exact World.attempted_tryContext hc
  | unknown _ hc => exact World.attempted_tryContext hc
  | alone _ hc _ => exact World.attempted_tryContext hc
  | unconfirmed _ hc _ hf => exact (World.attempted_tryContext hc).trans (World.attempted_tryFind hf)
  | confirmed _ hc _ hf => exact (World.attempted_tryContext hc).trans (World.attempted_tryFind hf)

theorem Dispatched.unused {o : Surroundings ε} {s : Service} {r : Request} {w w' : World ε}
    {a : Except Failure Reply × Request} (h : Dispatched o s r w a w') (hw : w.locks.Unused) :
    w'.locks.Unused := by
  cases h with
  | unread hc => rwa [(World.attempted_tryContext hc).locks]
  | unknown hc => rwa [(World.attempted_tryContext hc).locks]
  | refused hc _ => rwa [(World.attempted_tryContext hc).locks]
  | alone hc _ hi => rwa [hi.locks_eq, (World.attempted_tryContext hc).locks]
  | locked _ _ _ hl => exact hl

theorem Executed.unused {o : Surroundings ε} {s : Service} {raw : String} {field : Option String}
    {w w' : World ε} {a : Reply} (h : Executed o s raw field w a w') (hw : w.locks.Unused) :
    w'.locks.Unused := by
  cases h with
  | rejected hc => rwa [hc.attempted.locks]
  | ran hc hd => exact hd.unused (by rwa [hc.attempted.locks])

theorem exec_execute (o : Surroundings ε) (t : Nat) (s : Service) (raw : String)
    (field : Option String) {w : World ε} (hw : w.locks.Unused) :
    ∃ a w', (s.execute raw field).exec o t w = (some a, w') ∧ Executed o s raw field w a w' := by
  obtain ⟨a, w₁, he, hc⟩ := exec_classify o t s raw field w
  simp only [Service.execute, bind_eq, pure_eq]
  rw [exec_bind, he]
  cases a with
  | none => exact ⟨_, _, rfl, .rejected hc⟩
  | some r =>
    obtain ⟨a, w₂, he, hd⟩ := exec_dispatch o t s r (by rwa [hc.attempted.locks])
    refine ⟨_, _, ?_, .ran hc hd⟩
    dsimp only
    rw [exec_bind, he]
    rfl

end Course

end CellReplay
