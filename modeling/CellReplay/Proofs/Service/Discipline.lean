import CellReplay.Proofs.Service.Courses
import CellReplay.Proofs.Store.Reliable

/-!
# Proofs.Service.Discipline

Programs that look at a session twice: once before they have its lock, and whatever they see there
makes no difference, and once while they have it. Of such a program it is known beforehand what it
will answer, as far as that depends on the session that it finds under the lock.

* `Setting`       — what stays as it is: contexts, executables, handlers, and what programs come to.
* `Setting.Says`  — the answers to an effect in a setting, for given sessions.
* `World.Meets`   — a world that answers like that.
* `Follows`       — a program, with or without a lock, and what it is going to do.
* `Awaits`        — a program on its way to a lock.
* `Meaning.exec`  — such a program when it has the world to itself.
-/

namespace CellReplay

/-- What does not change while programs run. -/
structure Setting where
  contexts : String → Option Context
  isThere : String → Bool
  kinds : Context → Option HandlerKind
  outcome : Call → Outcome

abbrev Sessions := SessionKey → Option Session

def Sessions.put (σ : Sessions) (k : SessionKey) (x : Option Session) : Sessions :=
  fun k' => if k' = k then x else σ k'

namespace Effect

/-- The program calls that an effect is. -/
def calls : Effect → List Call
  | run call => [call]
  | _ => []

def left (x : Option Session) : Effect → Option Session
  | saveSession z => some z
  | _ => x

def applied (m : MemoryStore) : Effect → MemoryStore
  | saveSession z => m.saveSession z
  | _ => m

def Reads : Effect → Prop
  | findContext _ | findSession _ => True
  | _ => False

/-- An effect on no session but the one that is locked. Without a lock a session may be read, but not
be saved. -/
def Within (held : Option SessionKey) : Effect → Prop
  | findSession k => ∀ k' ∈ held, k = k'
  | saveSession z => held = some z.key
  | _ => True

theorem forall_mem_none {κ : Type} {P : κ → Prop} : ∀ k ∈ (none : Option κ), P k :=
  fun k hk => absurd hk (Option.not_mem_none k)

theorem calls_of_reads {e : Effect} (h : e.Reads) : e.calls = [] := by
  cases e <;> first | rfl | exact h.elim

theorem calls_of_not_run {e : Effect} (h : ∀ call, e ≠ run call) : e.calls = [] := by
  cases e with
  | run call => exact absurd rfl (h call)
  | _ => rfl

theorem applied_of_reads {e : Effect} (h : e.Reads) (m : MemoryStore) : e.applied m = m := by
  cases e <;> first | rfl | exact h.elim

theorem within_of_reads {e : Effect} (h : e.Reads) : e.Within none := by
  cases e with
  | findContext _ => trivial
  | findSession _ => exact forall_mem_none
  | _ => exact h.elim

theorem left_none {e : Effect} (h : e.Within none) : e.left none = none := by
  cases e with
  | saveSession _ => cases h
  | _ => rfl

end Effect

namespace Setting

variable (E : Setting)

/-- An effect that can be answered at once and does not fail. -/
def Plain : Effect → Prop
  | .findContext _ | .findSession _ | .run _ => True
  | .saveSession z => (E.contexts z.context).isSome
  | .resolve c => E.contexts c.name = some c
  | .acquire _ | .release _ | .pause => False

/-- An answer to an effect, when the sessions stand like this. -/
def Says (σ : Sessions) : (e : Effect) → e.Answer → Prop
  | .findContext n, a => a = .ok (E.contexts n)
  | .findSession k, a => a = .ok (σ k)
  | .saveSession _, a => a = .ok ()
  | .resolve c, a => a.map (·.kind) = E.kinds c
  | .run call, a => a = E.outcome call
  | .acquire _, _ | .release _, _ | .pause, _ => True

end Setting

variable {ε α β : Type} {E : Setting} {o : Surroundings ε} {w : World ε} {m : MemoryStore}

structure Surroundings.Steady (o : Surroundings ε) (E : Setting) : Prop where
  isThere : ∀ x path, o.isThere x path = E.isThere path
  run : ∀ x call, (o.run x call).1 = E.outcome call

structure World.Meets (w : World ε) (E : Setting) (m : MemoryStore) : Prop where
  planned : w.faults.planned = []
  store : w.store.Holds m
  contexts : ∀ n, m.contexts.get? n = E.contexts n
  kinds : ∀ c, E.contexts c.name = some c →
    (w.registry.resolve E.isThere c).1.map (·.kind) = E.kinds c

theorem World.Meets.withLocks (h : w.Meets E m) (l : SessionLocks Nat) :
    World.Meets { w with locks := l } E m := ⟨h.planned, h.store, h.contexts, h.kinds⟩

theorem attempt_of_planned {α : Type} (h : w.faults.planned = []) (method : Method)
    (op : Store → Except Failure α × Store) :
    w.attempt method op =
      ((op w.store).1, { w with faults := w.faults.counted method, store := (op w.store).2 }) := by
  have hnext : w.faults.next method = none := by
    rw [Faults.next, h]
    exact if_neg List.not_mem_nil
  rw [World.attempt, hnext]

/-- Another resolution does not change what one comes to. -/
theorem resolve_resolve {r : Registry} {isThere : String → Bool} {c d : Context}
    (hcd : c.name = d.name → c = d) :
    ((r.resolve isThere d).2.resolve isThere c).1.map (·.kind) =
      (r.resolve isThere c).1.map (·.kind) := by
  unfold Registry.resolve
  cases hd : r.factories.get? (typeName d.name) with
  | none => rfl
  | some kind =>
    cases hcache : r.cache.get? d.name with
    | some h => rfl
    | none =>
      by_cases hthere : isThere d.path
      · simp only [if_pos hthere, Table.get?_put]
        by_cases hn : d.name = c.name
        · -- the handler that was made for the context is the one that would be
          have hc := hcd hn.symm
          subst hc
          simp only [hd, hcache, if_pos hthere, if_true]
        · simp only [if_neg hn]
          split
          · rfl
          · split
            · rfl
            · split <;> rfl
      · simp only [if_neg hthere]

/-- A plain effect is answered as the setting says, and leaves the locks alone. -/
theorem World.Meets.answer (h : w.Meets E m) (ho : o.Steady E) {e : Effect} (he : E.Plain e)
    (t : Nat) :
    ∃ a w', w.answer o t e = (some a, w') ∧ E.Says m.sessions.get? e a ∧ w'.Meets E (e.applied m) ∧
      w'.locks = w.locks ∧ w'.calls = w.calls ++ e.calls := by
  cases e with
  | findContext n =>
    simp only [World.answer, attempt_of_planned h.planned]
    refine ⟨_, _, rfl, ?_, ⟨h.planned, h.store, h.contexts, h.kinds⟩, rfl, (List.append_nil _).symm⟩
    rw [Setting.Says, h.store.findContext, h.contexts]
  | findSession k =>
    simp only [World.answer, attempt_of_planned h.planned]
    exact ⟨_, _, rfl, h.store.findSession k, ⟨h.planned, h.store, h.contexts, h.kinds⟩, rfl,
      (List.append_nil _).symm⟩
  | saveSession z =>
    obtain ⟨t, hs, ht⟩ := h.store.saveSession (x := z) (by rw [h.contexts]; exact he)
    simp only [World.answer, attempt_of_planned h.planned, hs]
    exact ⟨_, _, rfl, rfl, ⟨h.planned, ht, h.contexts, h.kinds⟩, rfl, (List.append_nil _).symm⟩
  | resolve c =>
    have hthere : o.isThere w.outside = E.isThere := funext (ho.isThere w.outside)
    simp only [World.answer, hthere]
    refine ⟨_, _, rfl, h.kinds c he, ⟨h.planned, h.store, h.contexts, fun d hd => ?_⟩, rfl,
      (List.append_nil _).symm⟩
    refine (resolve_resolve fun hn => ?_).trans (h.kinds d hd)
    rw [hn, show E.contexts c.name = some c from he] at hd
    exact (Option.some.inj hd).symm
  | run call =>
    exact ⟨_, _, rfl, ho.run w.outside call, ⟨h.planned, h.store, h.contexts, h.kinds⟩, rfl, rfl⟩
  | acquire k => exact he.elim
  | release k => exact he.elim
  | pause => exact he.elim

theorem sessions_applied_own {k : SessionKey} {e : Effect} (h : e.Within (some k)) :
    (e.applied m).sessions.get? k = e.left (m.sessions.get? k) := by
  cases e with
  | saveSession z => exact (Table.get?_put _ _ _ _).trans (if_pos (Option.some.inj h).symm)
  | _ => rfl

theorem sessions_applied_other {held : Option SessionKey} {k : SessionKey} {e : Effect}
    (h : e.Within held) (hk : held ≠ some k) :
    (e.applied m).sessions.get? k = m.sessions.get? k := by
  cases e with
  | saveSession z =>
    refine (Table.get?_put _ _ _ _).trans (if_neg fun hz => hk ?_)
    rw [← hz]
    exact h
  | _ => rfl

/-! ## What programs are going to do -/

/-- What a program that may have a lock is going to do: with the session in the state `x`, it makes
some program calls, ends in a value and leaves the session in a state `y`. Once it has let go of the
lock, there is nothing left but to end. -/
inductive Follows (E : Setting) :
    Option SessionKey → Program α → Option Session → List Call → α → Option Session → Prop
  | done {a : α} {x : Option Session} : Follows E none (.done a) x [] a x
  | step {held : Option SessionKey} {e : Effect} {next : e.Answer → Program α}
      {x y : Option Session} {calls : List Call} {a : α} (he : E.Plain e) (hw : e.Within held)
      (h : ∀ σ b, (∀ k ∈ held, σ k = x) → E.Says σ e b →
        Follows E held (next b) (e.left x) calls a y) :
      Follows E held (.perform e next) x (e.calls ++ calls) a y
  | release {k : SessionKey} {next : Unit → Program α} {x : Option Session} {a : α}
      (h : Follows E none (next ()) none [] a none) :
      Follows E (some k) (.perform (.release k) next) x [] a x

theorem follows_silent {held : Option SessionKey} {e : Effect} {next : e.Answer → Program α}
    {x y : Option Session} {calls : List Call} {a : α} (he : E.Plain e) (hw : e.Within held)
    (hnone : e.calls = []) (h : ∀ σ b, (∀ k ∈ held, σ k = x) → E.Says σ e b →
      Follows E held (next b) (e.left x) calls a y) : Follows E held (.perform e next) x calls a y := by
  have hstep := Follows.step he hw h
  rwa [hnone] at hstep

theorem follows_run {held : Option SessionKey} {call : Call} {next : Outcome → Program α}
    {x y : Option Session} {calls : List Call} {a : α}
    (h : Follows E held (next (E.outcome call)) x calls a y) :
    Follows E held (.perform (.run call) next) x (call :: calls) a y :=
  Follows.step (e := .run call) trivial trivial fun _ _ _ hb => hb ▸ h

/-- What is done under the lock of a session. -/
structure Turn (α : Type) where
  calls : List Call
  value : α
  session : Option Session

/-- A program that asks for the lock of a session, and does under it what `turn` says. What it reads
on its way there makes no difference. -/
inductive Awaits (E : Setting) (k : SessionKey) (turn : Option Session → Turn α) : Program α → Prop
  | step {e : Effect} {next : e.Answer → Program α} (he : E.Plain e) (hr : e.Reads)
      (h : ∀ σ b, E.Says σ e b → Awaits E k turn (next b)) : Awaits E k turn (.perform e next)
  | acquire {next : Unit → Program α} (h : ∀ x, (∀ z ∈ x, z.key = k) →
      Follows E (some k) (next ()) x (turn x).calls (turn x).value (turn x).session) :
      Awaits E k turn (.perform (.acquire k) next)

inductive Meaning (α : Type)
  | free (calls : List Call) (value : α)
  | bound (k : SessionKey) (turn : Option Session → Turn α)

namespace Meaning

def key? : Meaning α → Option SessionKey
  | free _ _ => none
  | bound k _ => some k

def Of (E : Setting) : Meaning α → Program α → Prop
  | free calls a, p => Follows E none p none calls a none
  | bound k turn, p => Awaits E k turn p

def calls (M : Meaning α) (σ : Sessions) : List Call :=
  match M with
  | free calls _ => calls
  | bound k turn => (turn (σ k)).calls

def value (M : Meaning α) (σ : Sessions) : α :=
  match M with
  | free _ a => a
  | bound k turn => (turn (σ k)).value

def after (M : Meaning α) (σ : Sessions) : Sessions :=
  match M with
  | free _ _ => σ
  | bound k turn => σ.put k (turn (σ k)).session

end Meaning

/-! ## Programs that have the world to themselves -/

theorem Follows.exec (ho : o.Steady E) (t : Nat) {held : Option SessionKey} {p : Program α}
    {x y : Option Session} {calls : List Call} {a : α} (h : Follows E held p x calls a y) {w : World ε}
    {m : MemoryStore} (hw : w.Meets E m)
    (hheld : ∀ k ∈ held, m.sessions.get? k = x ∧ w.locks.HeldAlone t k)
    (hfree : held = none → w.locks.Unused) :
    ∃ w' m', p.exec o t w = (some a, w') ∧ w'.Meets E m' ∧ w'.locks.Unused ∧
      w'.calls = w.calls ++ calls ∧
        ∀ k, m'.sessions.get? k = if held = some k then y else m.sessions.get? k := by
  induction h generalizing w m with
  | done =>
    exact ⟨w, m, rfl, hw, hfree rfl, (List.append_nil _).symm, fun k => (if_neg nofun).symm⟩
  | @step held e next x y calls a he hin h ih =>
    obtain ⟨b, w₁, hanswer, hsays, hw₁, hlocks, hcalls⟩ := hw.answer ho he t
    obtain ⟨w', m', hexec, hw', hunused, hcalls', hsessions⟩ :=
      ih m.sessions.get? b (fun k hk => (hheld k hk).1) hsays hw₁
        (fun k hk => ⟨by
          rw [Option.mem_def.mp hk] at hin
          rw [sessions_applied_own hin, (hheld k hk).1], by rw [hlocks]; exact (hheld k hk).2⟩)
        (fun hn => by rw [hlocks]; exact hfree hn)
    refine ⟨w', m', ?_, hw', hunused, by rw [hcalls', hcalls, List.append_assoc], fun k => ?_⟩
    · rw [Program.exec, hanswer]
      exact hexec
    · rw [hsessions]
      split
      · rfl
      · rename_i hk
        exact sessions_applied_other hin hk
  | @release k next x a h ih =>
    obtain ⟨hx, hl⟩ := hheld k rfl
    obtain ⟨w', m', hexec, hw', hunused, hcalls, hsessions⟩ :=
      ih (w := { w with locks := (w.locks.release t).prune t }) (m := m)
        (hw.withLocks _) Effect.forall_mem_none
        fun _ => SessionLocks.prune_release_heldAlone hl
    refine ⟨w', m', hexec, hw', hunused, hcalls, fun k' => ?_⟩
    rw [hsessions, if_neg nofun]
    split
    · rename_i hk
      rw [← Option.some.inj hk, hx]
    · rfl

theorem Awaits.exec (ho : o.Steady E) (t : Nat) {k : SessionKey} {turn : Option Session → Turn α}
    {p : Program α} (h : Awaits E k turn p) {w : World ε} {m : MemoryStore} (hw : w.Meets E m)
    (hfree : w.locks.Unused) :
    ∃ w' m', p.exec o t w = (some (turn (m.sessions.get? k)).value, w') ∧ w'.Meets E m' ∧
      w'.locks.Unused ∧ w'.calls = w.calls ++ (turn (m.sessions.get? k)).calls ∧
        ∀ k', m'.sessions.get? k' =
          if some k = some k' then (turn (m.sessions.get? k)).session else m.sessions.get? k' := by
  induction h generalizing w m with
  | @step e next he hr h ih =>
    obtain ⟨b, w₁, hanswer, hsays, hw₁, hlocks, hcalls⟩ := hw.answer ho he t
    rw [Effect.applied_of_reads hr] at hw₁
    obtain ⟨w', m', hexec, hw', hunused, hcalls', hsessions⟩ :=
      ih m.sessions.get? b hsays hw₁ (by rw [hlocks]; exact hfree)
    refine ⟨w', m', ?_, hw', hunused, by
      rw [hcalls', hcalls, Effect.calls_of_reads hr, List.append_nil], hsessions⟩
    rw [Program.exec, hanswer]
    exact hexec
  | @acquire next h =>
    have hl := SessionLocks.resume_enter_unused hfree t k
    obtain ⟨w', m', hexec, hrest⟩ :=
      (h (m.sessions.get? k) fun z hz => hw.store.keyed.sessions k z hz).exec ho t
        (w := { w with locks := (w.locks.enter t k).resume t }) (m := m)
        (hw.withLocks _) (fun k' hk => by cases hk; exact ⟨rfl, hl⟩) fun hk => by cases hk
    refine ⟨w', m', ?_, hrest⟩
    exact (Program.exec_acquire o t k next hfree).trans hexec

theorem Meaning.exec (ho : o.Steady E) (t : Nat) {M : Meaning α} {p : Program α} (h : M.Of E p)
    {w : World ε} {m : MemoryStore} (hw : w.Meets E m) (hfree : w.locks.Unused) :
    ∃ w' m', p.exec o t w = (some (M.value m.sessions.get?), w') ∧ w'.Meets E m' ∧
      w'.locks.Unused ∧ w'.calls = w.calls ++ M.calls m.sessions.get? ∧
        m'.sessions.get? = M.after m.sessions.get? := by
  cases M with
  | free calls a =>
    obtain ⟨w', m', hexec, hw', hunused, hcalls, hsessions⟩ := h.exec ho t hw
      Effect.forall_mem_none fun _ => hfree
    refine ⟨w', m', hexec, hw', hunused, hcalls, funext fun k => ?_⟩
    rw [hsessions]
    exact if_neg nofun
  | bound k turn =>
    obtain ⟨w', m', hexec, hw', hunused, hcalls, hsessions⟩ := Awaits.exec ho t h hw hfree
    refine ⟨w', m', hexec, hw', hunused, hcalls, funext fun k' => ?_⟩
    rw [hsessions]
    simp only [after, Sessions.put, Option.some_inj, eq_comm]

end CellReplay
