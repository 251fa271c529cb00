import CellReplay.Proofs.Service.Kind
import CellReplay.Proofs.Service.Parentage

/-!
# Proofs.Service.Custody

When a call may touch a session, and what it knows of it then. Both can be read off the effects that
have been answered so far: whatever else goes on around it, a call saves no session but the one whose
lock it has, and it makes a program call only behind the history that it has seen under the lock.

* `Custody`      — the lock that a call has, and the session as the call has found or saved it.
* `Prepared`     — all that goes into a program call has been found.
* `Effect.Due`   — an effect comes in its place.
* `Way.Orderly`  — so do all effects on a way.
* `due_of_leads` — and so does the next effect of a call, wherever the call stands.
-/

namespace CellReplay

/-- The lock that a call has, and the session under it as the call has last found or saved it. -/
structure Custody where
  key? : Option SessionKey
  session? : Option Session
  deriving DecidableEq, Repr

namespace Custody

def next (c : Custody) : Exchange → Custody
  | ⟨.acquire k, _⟩ => ⟨some k, none⟩
  | ⟨.release _, _⟩ => ⟨none, none⟩
  | ⟨.findSession k, .ok (some x)⟩ => if c.key? = some k then { c with session? := some x } else c
  | ⟨.saveSession x, .ok ()⟩ => { c with session? := some x }
  | _ => c

def after (log : List Exchange) : Custody := log.foldl next ⟨none, none⟩

@[simp] theorem after_nil : after [] = ⟨none, none⟩ := rfl

@[simp] theorem after_concat (log : List Exchange) (x : Exchange) :
    after (log ++ [x]) = (after log).next x := List.foldl_concat ..

/-- Only asking for a lock and letting go of it change which one a call has. -/
theorem key?_next {e : Effect} {b : e.Answer} (hacquire : ∀ k, e ≠ .acquire k)
    (hrelease : ∀ k, e ≠ .release k) (c : Custody) : (c.next ⟨e, b⟩).key? = c.key? := by
  cases e with
  | findSession k =>
    rcases b with _ | _ | x
    · rfl
    · rfl
    · rw [next]
      split <;> rfl
  | saveSession x => rcases b with _ | _ <;> rfl
  | acquire k => exact absurd rfl (hacquire k)
  | release k => exact absurd rfl (hrelease k)
  | _ => rfl

/-- Nothing that is not about sessions changes what a call knows of them. -/
theorem after_append_of_apart {log log' : List Exchange} (h : ∀ x ∈ log', ∀ c : Custody, c.next x = c) :
    after (log ++ log') = after log := by
  induction log' generalizing log with
  | nil => rw [List.append_nil]
  | cons x log' ih =>
    obtain ⟨hx, hlog'⟩ := List.forall_mem_cons.mp h
    rw [List.append_cons, ih hlog', after_concat, hx]

end Custody

/-- All that goes into the program call of a request has been found: its context, a handler and, if it
asks for a session, that session under the lock. -/
def Prepared (s : Service) (r : Request) (log : List Exchange) (call : Call) : Prop :=
  ∃ c h fragments, ⟨.findContext r.language, .ok (some c)⟩ ∈ log ∧ ⟨.resolve c, some h⟩ ∈ log ∧
    call = s.launch h.kind c fragments r.code ∧
      match r.target? with
      | none => fragments = []
      | some i => ∃ x, Custody.after log = ⟨some ⟨c.name, i⟩, some x⟩ ∧ x.history = fragments

/-- An effect comes in its place behind a log: locks are taken one at a time, the session that is saved
is the one whose lock is held, and a program call is the only one and has been prepared. -/
def Effect.Due (s : Service) (wanted : Option Request) (log : List Exchange) : Effect → Prop
  | .acquire _ => (Custody.after log).key? = none
  | .release k => (Custody.after log).key? = some k
  | .saveSession x => (Custody.after log).key? = some x.key
  | .run call => log.flatMap (·.asked.calls) = [] ∧ ∃ r, wanted = some r ∧ Prepared s r log call
  | _ => True

namespace Way

open Program

/-- Every effect comes in its place; `past` is what has been answered before. -/
def Orderly (s : Service) (wanted : Option Request) (past : List Exchange) : List Exchange → Prop
  | [] => True
  | x :: log => x.asked.Due s wanted past ∧ Orderly s wanted (past ++ [x]) log

variable {s : Service} {wanted : Option Request} {c : Context} {k : SessionKey} {r q : Request}
  {past log log' : List Exchange}

theorem orderly_append :
    Orderly s wanted past (log ++ log') ↔
      Orderly s wanted past log ∧ Orderly s wanted (past ++ log) log' := by
  induction log generalizing past with
  | nil => simp [Orderly]
  | cons x log ih => simp [Orderly, ih, and_assoc]

/-! ## Parts of a call -/

theorem Opened.orderly {a : Except Failure Session} (h : Opened k log a)
    (hk : (Custody.after past).key? = some k) : Orderly s wanted past log := by
  have hsaved : (Custody.after (past ++ [⟨.findSession k, .ok none⟩])).key? = some k := by
    rwa [Custody.after_concat]
  cases h with
  | unread e => exact ⟨trivial, trivial⟩
  | found x => exact ⟨trivial, trivial⟩
  | unmade e => exact ⟨trivial, hsaved, trivial⟩
  | made => exact ⟨trivial, hsaved, trivial⟩

theorem Opened.calls_eq {a : Except Failure Session} (h : Opened k log a) :
    log.flatMap (·.asked.calls) = [] := by
  cases h <;> rfl

theorem Opened.key?_eq {a : Except Failure Session} (h : Opened k log a)
    (hk : (Custody.after past).key? = some k) : (Custody.after (past ++ log)).key? = some k := by
  cases h with
  | unread e => rwa [Custody.after_concat]
  | found x => rw [Custody.after_concat, Custody.next, if_pos hk, hk]
  | unmade e => rwa [List.append_cons, Custody.after_concat, Custody.after_concat]
  | made => rwa [List.append_cons, Custody.after_concat, Custody.after_concat]

/-- Once a session has been opened, the call knows it. -/
theorem Opened.custody {x : Session} (h : Opened k log (.ok x))
    (hk : (Custody.after past).key? = some k) : Custody.after (past ++ log) = ⟨some k, some x⟩ := by
  cases h with
  | found x =>
    rw [Custody.after_concat, Custody.next, if_pos hk, hk]
  | made =>
    rw [List.append_cons, Custody.after_concat, Custody.after_concat]
    simp only [Custody.next, hk]

theorem Interpreted.custody {history : Option (List String)} {code : String}
    {i : Option Interpretation} (h : Interpreted s c history code log i) :
    Custody.after (past ++ log) = Custody.after past := by
  refine Custody.after_append_of_apart fun x hx k => ?_
  cases h with
  | absent =>
    rw [List.mem_singleton.mp hx]
    rfl
  | ran handler y =>
    rcases List.mem_pair.mp hx with rfl | rfl
    · rfl
    · rfl

theorem Interpreted.orderly {history : Option (List String)} {code : String}
    {i : Option Interpretation} (h : Interpreted s c history code log i)
    (hcalls : past.flatMap (·.asked.calls) = [])
    (hprepared : ∀ handler, ∃ r, wanted = some r ∧
      Prepared s r (past ++ [⟨.resolve c, some handler⟩]) (s.callBy handler c history code)) :
    Orderly s wanted past log := by
  cases h with
  | absent => exact ⟨trivial, trivial⟩
  | ran handler x =>
    refine ⟨trivial, ⟨?_, hprepared handler⟩, trivial⟩
    rw [List.flatMap_append, hcalls]
    rfl

theorem InSession.orderly {x : Session} {code : String} {a : Except Failure Reply}
    (h : InSession s c x code log a) (hx : Custody.after past = ⟨some x.key, some x⟩)
    (hcalls : past.flatMap (·.asked.calls) = [])
    (hprepared : ∀ handler, ∃ r, wanted = some r ∧
      Prepared s r (past ++ [⟨.resolve c, some handler⟩]) (s.callBy handler c (some x.history) code)) :
    Orderly s wanted past log ∧ (Custody.after (past ++ log)).key? = some x.key := by
  have hran {log : List Exchange} {i : Option Interpretation}
      (hi : Interpreted s c (some x.history) code log i) :
      Orderly s wanted past log ∧ (Custody.after (past ++ log)).key? = some x.key :=
    ⟨hi.orderly hcalls hprepared, by rw [hi.custody, hx]⟩
  have hsaved {log : List Exchange} {i : Option Interpretation}
      (hi : Interpreted s c (some x.history) code log i) (b : Except Failure Unit) :
      Orderly s wanted past (log ++ [⟨.saveSession (x.append code), b⟩]) ∧
        (Custody.after (past ++ (log ++ [⟨.saveSession (x.append code), b⟩]))).key? = some x.key := by
    obtain ⟨horderly, hkey⟩ := hran hi
    refine ⟨orderly_append.mpr ⟨horderly, hkey, trivial⟩, ?_⟩
    rw [← List.append_assoc, Custody.after_concat]
    cases b <;> exact hkey
  cases h with
  | absent hi => exact hran hi
  | shown hi _ => exact hran hi
  | lost hi _ e => exact hsaved hi _
  | kept hi _ => exact hsaved hi _

theorem Locked.orderly {i : SessionId} {a : Except Failure Reply × Request}
    (h : Locked s c ⟨c.name, i⟩ q log a) (hlog : ∀ x ∈ log, x.Honest)
    (hkey : (Custody.after past).key? = some ⟨c.name, i⟩)
    (hcalls : past.flatMap (·.asked.calls) = []) (hr : wanted = some r)
    (hc : ⟨.findContext r.language, .ok (some c)⟩ ∈ past) (ht : r.target? = some i)
    (hcode : q.code = r.code) :
    Orderly s wanted past log ∧ (Custody.after (past ++ log)).key? = some ⟨c.name, i⟩ := by
  cases h with
  | unopened ho => exact ⟨ho.orderly hkey, ho.key?_eq hkey⟩
  | @opened log log' x a ho hi =>
    have hx : x.key = ⟨c.name, i⟩ := ho.key_eq fun y hy => hlog y (List.mem_append_left _ hy)
    have hopened : Custody.after (past ++ log) = ⟨some x.key, some x⟩ := by
      rw [ho.custody hkey, hx]
    have hprepared (handler : Handler) : ∃ r, wanted = some r ∧
        Prepared s r (past ++ log ++ [⟨.resolve c, some handler⟩])
          (s.callBy handler c (some x.history) q.code) := by
      refine ⟨r, hr, c, handler, x.history, ?_, List.mem_concat_self, ?_, ?_⟩
      · exact List.mem_append_left _ (List.mem_append_left _ hc)
      · rw [callBy_eq_launch, hcode]
        rfl
      · rw [ht]
        refine ⟨x, ?_, rfl⟩
        rw [Custody.after_concat, hopened, hx]
        rfl
    obtain ⟨horderly, hkey'⟩ := hi.orderly hopened
      (by rw [List.flatMap_append, hcalls, ho.calls_eq]; rfl) hprepared
    rw [← List.append_assoc, ← hx]
    exact ⟨orderly_append.mpr ⟨ho.orderly hkey, horderly⟩, hkey'⟩

/-- A request that is run as another one has become on the way: it asks for the same, or cannot be run. -/
theorem Dispatched.orderly {a : Except Failure Reply × Request} (h : Dispatched s q log a)
    (hlog : ∀ x ∈ log, x.Honest) (hkey : (Custody.after past).key? = none)
    (hcalls : past.flatMap (·.asked.calls) = []) (hr : wanted = some r) (hcode : q.code = r.code)
    (hlanguage : q.language = r.language)
    (htarget : q.target? = r.target? ∨ q.status = .noInterpreterFound) :
    Orderly s wanted past log := by
  cases h with
  | unread e => exact ⟨trivial, trivial⟩
  | unknown => exact ⟨trivial, trivial⟩
  | refused c ha => exact ⟨trivial, trivial⟩
  | alone c hs hi =>
    have ht : r.target? = none := by
      rcases htarget with ht | hstatus
      · rw [← ht, Request.target?, Request.needsSession, hs]
        rfl
      · rw [hs] at hstatus
        cases hstatus
    refine ⟨trivial, hi.orderly ?_ fun handler => ⟨r, hr, c, handler, [], ?_, ?_, ?_, ?_⟩⟩
    · rw [List.flatMap_append, hcalls]
      rfl
    · rw [← hlanguage]
      exact List.mem_append_left _ List.mem_concat_self
    · exact List.mem_concat_self
    · rw [callBy_eq_launch, hcode]
      rfl
    · rw [ht]
  | @locked c i log a ht hl =>
    have ht' : r.target? = some i := by
      rcases htarget with hsame | hstatus
      · rw [← hsame, ht]
      · rw [Request.target?, Request.needsSession, hstatus] at ht
        cases ht
    have hfree : (Custody.after (past ++ [⟨.findContext q.language, .ok (some c)⟩])).key? = none := by
      rwa [Custody.after_concat]
    have hlocked : (Custody.after (past ++ [⟨.findContext q.language, .ok (some c)⟩] ++
        [⟨.acquire ⟨c.name, i⟩, ()⟩])).key? = some ⟨c.name, i⟩ := by
      rw [Custody.after_concat]
      rfl
    obtain ⟨horderly, hheld⟩ := hl.orderly
      (fun x hx => hlog x (List.mem_cons_of_mem _ (List.mem_cons_of_mem _ (List.mem_append_left _ hx))))
      hlocked (by rw [List.flatMap_append, List.flatMap_append, hcalls]; rfl) hr
      (by rw [← hlanguage]; exact List.mem_append_left _ List.mem_concat_self) ht' hcode
    exact ⟨trivial, hfree, orderly_append.mpr ⟨horderly, hheld, trivial⟩⟩

theorem Classified.orderly {raw : String} {field : Option String} {a : Option Request}
    (h : Classified s raw field log a) : Orderly s wanted past log := by
  cases h with
  | rejected _ => trivial
  | unread _ _ => exact ⟨trivial, trivial⟩
  | unknown _ => exact ⟨trivial, trivial⟩
  | alone _ _ _ => exact ⟨trivial, trivial⟩
  | unconfirmed _ _ _ _ => exact ⟨trivial, trivial, trivial⟩
  | confirmed _ _ _ _ => exact ⟨trivial, trivial, trivial⟩

/-- Classification takes no lock, so it has nothing in custody. -/
theorem Classified.custody {raw : String} {field : Option String} {a : Option Request}
    (h : Classified s raw field log a) : (Custody.after log).key? = none := by
  cases h with
  | rejected _ => rfl
  | unread _ _ => rfl
  | unknown _ => rfl
  | alone _ _ _ => rfl
  | unconfirmed _ _ _ _ => rfl
  | confirmed _ _ _ x => cases x <;> rfl

theorem Executed.orderly {raw : String} {field : Option String} {a : Reply}
    (h : Executed s raw field log a) (hlog : ∀ x ∈ log, x.Honest) :
    Orderly s (s.classifier.classify raw field) [] log := by
  cases h with
  | rejected _ => trivial
  | ran hc hd =>
    obtain ⟨r, hp, hcode, hlanguage, htarget⟩ := hc.request
    refine orderly_append.mpr ⟨hc.orderly, ?_⟩
    refine hd.orderly (fun x hx => hlog x (List.mem_append_right _ hx)) hc.custody ?_ hp hcode
      hlanguage htarget
    exact List.flatMap_eq_nil_iff.mpr fun x hx => Effect.calls_of_not_run (hc.asked x hx).1

theorem orderly_serve {q : ServiceCall} {a : ServiceAnswer} (h : (s.serve q).Ends log a)
    (hlog : ∀ x ∈ log, x.Honest) : Orderly s (s.requestOf q) [] log := by
  cases q with
  | classify raw field =>
    simp only [Service.serve, bind_eq, pure_eq] at h
    obtain ⟨log, rest, b, rfl, hc, hdone⟩ := ends_bind h
    obtain ⟨rfl, -⟩ := ends_done hdone
    rw [List.append_nil]
    exact (ends_classify hc).orderly
  | dispatch r =>
    simp only [Service.serve, bind_eq, pure_eq] at h
    obtain ⟨log, rest, b, rfl, hd, hdone⟩ := ends_bind h
    obtain ⟨rfl, -⟩ := ends_done hdone
    rw [List.append_nil] at hlog ⊢
    obtain ⟨_, -, hdispatched⟩ := ends_dispatch hd
    exact hdispatched.orderly hlog rfl rfl rfl rfl rfl (.inl rfl)
  | execute raw field =>
    simp only [Service.serve, bind_eq, pure_eq] at h
    obtain ⟨log, rest, b, rfl, hx, hdone⟩ := ends_bind h
    obtain ⟨rfl, -⟩ := ends_done hdone
    rw [List.append_nil] at hlog ⊢
    exact (ends_execute hx).orderly hlog

end Way

/-- Wherever a call stands, its next effect comes in its place. -/
theorem due_of_leads {s : Service} {q : ServiceCall} {log : List Exchange} {e : Effect}
    {next : e.Answer → Program ServiceAnswer} (h : (s.serve q).Leads log (.perform e next))
    (hlog : ∀ x ∈ log, x.Honest) : e.Due s (s.requestOf q) log := by
  -- the way on does not matter, so it can be one on which nothing is found
  obtain ⟨rest, a, hends, hrest⟩ := exists_ends (.perform e next)
  have horderly : Way.Orderly s (s.requestOf q) [] (log ++ rest) :=
    Way.orderly_serve (h.trans hends) fun x hx => (List.mem_append.mp hx).elim (hlog x) (hrest x)
  cases hends with
  | step b hends => exact (Way.orderly_append.mp horderly).2.1

end CellReplay
