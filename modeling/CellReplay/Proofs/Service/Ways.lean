import CellReplay.Proofs.Service.Discipline

/-!
# Proofs.Service.Ways

The ways that a call can go for any answers to its effects, so whatever else goes on around it: each
way is a log of effects with their answers. There is one relation for each part of a call, as there is
for a call that has the world to itself, and the theorem beside it says that there are no other ways.

* `Exchange`, `Program.Leads`, `Program.Ends` — an effect with its answer, and how a log of them leads
  through a program and to its end.
* `World.Answers` — the answers of a log are those of a world.
* `exec_ends`     — a program that is run to its end goes one of its ways, as the world answers.
* `Way.Opened`, `Interpreted`, `InSession`, `Locked` — the ways of `Service.openSession`, `interpret`,
  `interpretIn` and `interpretLocked`.
* `Way.Classified`, `Dispatched`, `Executed` — those of `Service.classify`, `tryDispatch`, `execute`.
-/

namespace CellReplay

structure Exchange where
  asked : Effect
  answer : asked.Answer

variable {ε α β : Type}

namespace Program

/-- Given the answers of a log, one after the other, a program comes to stand at another. -/
inductive Leads : Program α → List Exchange → Program α → Prop
  | here (p : Program α) : Leads p [] p
  | step {e : Effect} {next : e.Answer → Program α} {log : List Exchange} {q : Program α}
      (x : e.Answer) (h : Leads (next x) log q) : Leads (.perform e next) (⟨e, x⟩ :: log) q

def Ends (p : Program α) (log : List Exchange) (a : α) : Prop := p.Leads log (.done a)

variable {p q : Program α} {f : α → Program β} {log : List Exchange} {a : α} {b : β}

theorem Leads.trans {r : Program α} {log' : List Exchange} (h : p.Leads log q)
    (h' : q.Leads log' r) : p.Leads (log ++ log') r := by
  induction h with
  | here _ => exact h'
  | step x _ ih => exact .step x (ih h')

theorem ends_done {a' : α} (h : (done a).Ends log a') : log = [] ∧ a' = a := by
  cases h
  exact ⟨rfl, rfl⟩

/-- A program goes on behind the end of its first part. -/
theorem ends_bind (h : (p.bind f).Ends log b) :
    ∃ log₁ log₂ a, log = log₁ ++ log₂ ∧ p.Ends log₁ a ∧ (f a).Ends log₂ b := by
  induction p generalizing log with
  | done a => exact ⟨[], log, a, rfl, .here _, h⟩
  | perform e next ih =>
    cases h with
    | step x h =>
      obtain ⟨log₁, log₂, a, rfl, h₁, h₂⟩ := ih x h
      exact ⟨_, log₂, a, rfl, .step x h₁, h₂⟩

theorem ends_ask {e : Effect} {f : e.Answer → Program β} (h : ((ask e).bind f).Ends log b) :
    ∃ x rest, log = ⟨e, x⟩ :: rest ∧ (f x).Ends rest b := by
  cases h with
  | step x h => exact ⟨x, _, rfl, h⟩

end Program

/-- In the world `w`, the effects of a log are answered as it says, and leave the world `w'`. -/
def World.Answers (o : Surroundings ε) (t : Nat) : World ε → List Exchange → World ε → Prop
  | w, [], w' => w' = w
  | w, x :: log, w' =>
    ∃ w₁, w.answer o t x.asked = (some x.answer, w₁) ∧ World.Answers o t w₁ log w'

theorem exec_ends {o : Surroundings ε} {t : Nat} {p : Program α} {w w' : World ε} {a : α}
    (h : p.exec o t w = (some a, w')) : ∃ log, p.Ends log a ∧ World.Answers o t w log w' := by
  induction p generalizing w with
  | done _ =>
    cases h
    exact ⟨[], .here _, rfl⟩
  | perform e next ih =>
    rw [Program.exec] at h
    split at h
    · next x w₁ hx =>
      obtain ⟨log, hends, hanswers⟩ := ih x h
      exact ⟨⟨e, x⟩ :: log, .step x hends, w₁, hx, hanswers⟩
    · cases h

theorem calls_attempt (w : World ε) (m : Method) (op : Store → Except Failure β × Store) :
    (w.attempt m op).2.calls = w.calls := by
  unfold World.attempt
  split <;> rfl

theorem calls_answer (o : Surroundings ε) (t : Nat) (w : World ε) (e : Effect) :
    (w.answer o t e).2.calls = w.calls ++ e.calls := by
  cases e with
  | run call => rfl
  | acquire k =>
    have hcalls : (w.answer o t (.acquire k)).2.calls = w.calls := by
      simp only [World.answer]
      split_ifs <;> rfl
    exact hcalls.trans (List.append_nil _).symm
  | findContext n =>
    exact (calls_attempt w _ fun s => (s.findContext n, s)).trans (List.append_nil _).symm
  | findSession k =>
    exact (calls_attempt w _ fun s => (s.findSession k, s)).trans (List.append_nil _).symm
  | saveSession x => exact (calls_attempt w _ (·.saveSession x)).trans (List.append_nil _).symm
  | release k => exact (List.append_nil _).symm
  | resolve c => exact (List.append_nil _).symm
  | pause => exact (List.append_nil _).symm

/-- The program calls that are made are those of the log. -/
theorem calls_of_answers {o : Surroundings ε} {t : Nat} {w w' : World ε} {log : List Exchange}
    (h : w.Answers o t log w') : w'.calls = w.calls ++ log.flatMap (·.asked.calls) := by
  induction log generalizing w with
  | nil => rw [show w' = w from h]; exact (List.append_nil _).symm
  | cons x log ih =>
    obtain ⟨w₁, hx, hlog⟩ := h
    have hstep := calls_answer o t w x.asked
    rw [hx] at hstep
    rw [ih hlog, hstep, List.flatMap_cons, List.append_assoc]

namespace Way

open Program

inductive Opened (k : SessionKey) : List Exchange → Except Failure Session → Prop
  | unread (e : Failure) : Opened k [⟨.findSession k, .error e⟩] (.error e)
  | found (x : Session) : Opened k [⟨.findSession k, .ok (some x)⟩] (.ok x)
  | unmade (e : Failure) :
      Opened k [⟨.findSession k, .ok none⟩, ⟨.saveSession k.newSession, .error e⟩] (.error e)
  | made : Opened k [⟨.findSession k, .ok none⟩, ⟨.saveSession k.newSession, .ok ()⟩]
      (.ok k.newSession)

inductive Interpreted (s : Service) (c : Context) (history : Option (List String)) (code : String) :
    List Exchange → Option Interpretation → Prop
  | absent : Interpreted s c history code [⟨.resolve c, none⟩] none
  | ran (h : Handler) (x : Outcome) : Interpreted s c history code
      [⟨.resolve c, some h⟩, ⟨.run (s.callBy h c history code), x⟩] (some (.ofOutcome x))

inductive InSession (s : Service) (c : Context) (x : Session) (code : String) :
    List Exchange → Except Failure Reply → Prop
  | absent {log : List Exchange} (hi : Interpreted s c (some x.history) code log none) :
      InSession s c x code log (.ok (Service.noHandler c.name))
  | shown {log : List Exchange} {i : Interpretation}
      (hi : Interpreted s c (some x.history) code log (some i)) (hq : ¬ i.Quiet) :
      InSession s c x code log (.ok i.reply)
  | lost {log : List Exchange} {i : Interpretation}
      (hi : Interpreted s c (some x.history) code log (some i)) (hq : i.Quiet) (e : Failure) :
      InSession s c x code (log ++ [⟨.saveSession (x.append code), .error e⟩]) (.error e)
  | kept {log : List Exchange} {i : Interpretation}
      (hi : Interpreted s c (some x.history) code log (some i)) (hq : i.Quiet) :
      InSession s c x code (log ++ [⟨.saveSession (x.append code), .ok ()⟩]) (.ok i.reply)

inductive Locked (s : Service) (c : Context) (k : SessionKey) (r : Request) :
    List Exchange → Except Failure Reply × Request → Prop
  | unopened {log : List Exchange} {e : Failure} (ho : Opened k log (.error e)) :
      Locked s c k r log (.error e, r)
  | opened {log log' : List Exchange} {x : Session} {a : Except Failure Reply}
      (ho : Opened k log (.ok x)) (hi : InSession s c x r.code log' a) :
      Locked s c k r (log ++ log') (a, r.settled)

inductive Dispatched (s : Service) (r : Request) :
    List Exchange → Except Failure Reply × Request → Prop
  | unread (e : Failure) : Dispatched s r [⟨.findContext r.language, .error e⟩] (.error e, r)
  | unknown : Dispatched s r [⟨.findContext r.language, .ok none⟩]
      (.ok (Service.noInterpreter r.language), r.markNoInterpreter)
  | refused (c : Context) {a : Reply} (ha : r.refusal? = some a) :
      Dispatched s r [⟨.findContext r.language, .ok (some c)⟩] (.ok a, r)
  | alone (c : Context) {log : List Exchange} {i : Option Interpretation}
      (hs : r.status = .noNeedForSession) (hi : Interpreted s c none r.code log i) :
      Dispatched s r (⟨.findContext r.language, .ok (some c)⟩ :: log)
        (.ok ((i.map (·.reply)).getD (Service.noHandler c.name)), r)
  | locked (c : Context) {i : SessionId} {log : List Exchange} {a : Except Failure Reply × Request}
      (ht : r.target? = some i) (hl : Locked s c ⟨c.name, i⟩ r log a) :
      Dispatched s r (⟨.findContext r.language, .ok (some c)⟩ :: ⟨.acquire ⟨c.name, i⟩, ()⟩ ::
        (log ++ [⟨.release ⟨c.name, i⟩, ()⟩])) a

inductive Classified (s : Service) (raw : String) (field : Option String) :
    List Exchange → Option Request → Prop
  | rejected (hp : s.classifier.classify raw field = none) : Classified s raw field [] none
  | unread {r : Request} (hp : s.classifier.classify raw field = some r) (e : Failure) :
      Classified s raw field [⟨.findContext r.language, .error e⟩] (some r)
  | unknown {r : Request} (hp : s.classifier.classify raw field = some r) :
      Classified s raw field [⟨.findContext r.language, .ok none⟩] (some r.markNoInterpreter)
  | alone {r : Request} (hp : s.classifier.classify raw field = some r) (c : Context)
      (ht : r.target? = none) :
      Classified s raw field [⟨.findContext r.language, .ok (some c)⟩] (some r)
  | unconfirmed {r : Request} (hp : s.classifier.classify raw field = some r) (c : Context)
      {i : SessionId} (ht : r.target? = some i) (e : Failure) :
      Classified s raw field [⟨.findContext r.language, .ok (some c)⟩,
        ⟨.findSession ⟨c.name, i⟩, .error e⟩] (some r)
  | confirmed {r : Request} (hp : s.classifier.classify raw field = some r) (c : Context)
      {i : SessionId} (ht : r.target? = some i) (x : Option Session) :
      Classified s raw field [⟨.findContext r.language, .ok (some c)⟩,
        ⟨.findSession ⟨c.name, i⟩, .ok x⟩] (some (r.confirm x.isSome))

inductive Executed (s : Service) (raw : String) (field : Option String) :
    List Exchange → Reply → Prop
  | rejected (hp : s.classifier.classify raw field = none) :
      Executed s raw field [] (Service.rejected s.classifier.source)
  | ran {r : Request} {log log' : List Exchange} {a : Except Failure Reply × Request}
      (hc : Classified s raw field log (some r)) (hd : Dispatched s r log' a) :
      Executed s raw field (log ++ log') (Course.replyOf a.1)

variable {s : Service} {c : Context} {k : SessionKey} {r : Request} {log : List Exchange}

theorem ends_openSession {a : Except Failure Session}
    (h : (Service.openSession k).Ends log a) : Opened k log a := by
  simp only [Service.openSession, bind_eq, pure_eq] at h
  obtain ⟨(e | _ | x), rest, rfl, h₁⟩ := ends_ask h
  · obtain ⟨rfl, rfl⟩ := ends_done h₁
    exact .unread e
  · obtain ⟨e | _, rest, rfl, h₂⟩ := ends_ask h₁
    · obtain ⟨rfl, rfl⟩ := ends_done h₂
      exact .unmade e
    · obtain ⟨rfl, rfl⟩ := ends_done h₂
      exact .made
  · obtain ⟨rfl, rfl⟩ := ends_done h₁
    exact .found x

theorem ends_interpret {history : Option (List String)} {code : String}
    {i : Option Interpretation} (h : (s.interpret c history code).Ends log i) :
    Interpreted s c history code log i := by
  simp only [Service.interpret, bind_eq, pure_eq] at h
  obtain ⟨_ | handler, rest, rfl, h₁⟩ := ends_ask h
  · obtain ⟨rfl, rfl⟩ := ends_done h₁
    exact .absent
  · obtain ⟨x, rest, rfl, h₂⟩ := ends_ask h₁
    obtain ⟨rfl, rfl⟩ := ends_done h₂
    exact .ran handler x

theorem ends_interpretIn {x : Session} {a : Except Failure Reply}
    (h : (s.interpretIn c x r).Ends log a) : InSession s c x r.code log a := by
  simp only [Service.interpretIn, bind_eq, pure_eq] at h
  obtain ⟨log, rest, i, rfl, hrun, h₁⟩ := ends_bind h
  have hi := ends_interpret hrun
  cases i with
  | none =>
    obtain ⟨rfl, rfl⟩ := ends_done h₁
    rw [List.append_nil]
    exact .absent hi
  | some i =>
    by_cases hq : i.Quiet
    · simp only [if_pos (show (i.completed && i.reply.content.isEmpty) = true from hq)] at h₁
      obtain ⟨e | _, rest, rfl, h₂⟩ := ends_ask h₁
      · obtain ⟨rfl, rfl⟩ := ends_done h₂
        exact .lost hi hq e
      · obtain ⟨rfl, rfl⟩ := ends_done h₂
        exact .kept hi hq
    · simp only [if_neg (show ¬ (i.completed && i.reply.content.isEmpty) = true from hq)] at h₁
      obtain ⟨rfl, rfl⟩ := ends_done h₁
      rw [List.append_nil]
      exact .shown hi hq

theorem ends_interpretLocked {a : Except Failure Reply × Request}
    (h : (s.interpretLocked c k r).Ends log a) : Locked s c k r log a := by
  simp only [Service.interpretLocked, bind_eq, pure_eq] at h
  obtain ⟨log, rest, x, rfl, hopen, h₁⟩ := ends_bind h
  have ho := ends_openSession hopen
  cases x with
  | error e =>
    obtain ⟨rfl, rfl⟩ := ends_done h₁
    rw [List.append_nil]
    exact .unopened ho
  | ok x =>
    -- the request is settled in either case, and its code stays the same
    have hin {q : Request} (hq : q = r.settled)
        (h : ((s.interpretIn c x q).bind fun a => done (a, q)).Ends rest a) :
        Locked s c k r (log ++ rest) a := by
      obtain ⟨log', rest, b, rfl, hi, h₂⟩ := ends_bind h
      obtain ⟨rfl, rfl⟩ := ends_done h₂
      have hcode : q.code = r.code := by
        rw [hq, Request.settled]
        split <;> rfl
      rw [List.append_nil, hq]
      exact .opened ho (hcode ▸ ends_interpretIn hi)
    by_cases hn : r.isNewSession
    · have hst : r.status = .noSessionId := of_decide_eq_true hn
      simp only [if_pos hn, Request.promote, if_pos hst] at h₁
      exact hin (by rw [Request.settled, if_pos hn]) h₁
    · simp only [if_neg hn] at h₁
      exact hin (by rw [Request.settled, if_neg hn]) h₁

theorem ends_interpretSession {i : SessionId} {a : Except Failure Reply × Request}
    (h : (s.interpretSession c i r).Ends log a) :
    ∃ rest, log = ⟨.acquire ⟨c.name, i⟩, ()⟩ :: (rest ++ [⟨.release ⟨c.name, i⟩, ()⟩]) ∧
      Locked s c ⟨c.name, i⟩ r rest a := by
  simp only [Service.interpretSession, bind_eq, pure_eq] at h
  obtain ⟨-, rest, rfl, h₁⟩ := ends_ask h
  obtain ⟨log, rest, b, rfl, hl, h₂⟩ := ends_bind h₁
  obtain ⟨-, rest, rfl, h₃⟩ := ends_ask h₂
  obtain ⟨rfl, rfl⟩ := ends_done h₃
  exact ⟨log, rfl, ends_interpretLocked hl⟩

theorem ends_interpretAlone {a : Reply} (h : (s.interpretAlone c r).Ends log a) :
    ∃ i, a = (i.map (·.reply)).getD (Service.noHandler c.name) ∧
      Interpreted s c none r.code log i := by
  simp only [Service.interpretAlone, bind_eq, pure_eq] at h
  obtain ⟨log, rest, i, rfl, hi, h₁⟩ := ends_bind h
  obtain ⟨rfl, rfl⟩ : rest = [] ∧ a = (i.map (·.reply)).getD (Service.noHandler c.name) := by
    cases i <;> exact ends_done h₁
  rw [List.append_nil]
  exact ⟨i, rfl, ends_interpret hi⟩

theorem ends_tryDispatch {a : Except Failure Reply × Request} (h : (s.tryDispatch r).Ends log a) :
    Dispatched s r log a := by
  simp only [Service.tryDispatch, bind_eq, pure_eq] at h
  obtain ⟨(e | _ | c), rest, rfl, h₁⟩ := ends_ask h
  · obtain ⟨rfl, rfl⟩ := ends_done h₁
    exact .unread e
  · obtain ⟨rfl, rfl⟩ := ends_done h₁
    exact .unknown
  · have hrefused {b : Reply} (hb : r.refusal? = some b)
        (h : (done (.ok b, r) : Program (Except Failure Reply × Request)).Ends rest a) :
        Dispatched s r (⟨.findContext r.language, .ok (some c)⟩ :: rest) a := by
      obtain ⟨rfl, rfl⟩ := ends_done h
      exact .refused c hb
    have hsession (hn : r.needsSession) {i : SessionId} (hi : r.sessionId = some i)
        (h : (s.interpretSession c i r).Ends rest a) :
        Dispatched s r (⟨.findContext r.language, .ok (some c)⟩ :: rest) a := by
      obtain ⟨rest, rfl, hl⟩ := ends_interpretSession h
      exact .locked c (by rw [Request.target?, if_pos hn, hi]) hl
    cases hs : r.status with
    | noNeedForSession =>
      simp only [hs] at h₁
      obtain ⟨log, rest, b, rfl, halone, h₂⟩ := ends_bind h₁
      obtain ⟨rfl, rfl⟩ := ends_done h₂
      obtain ⟨i, rfl, hi⟩ := ends_interpretAlone halone
      rw [List.append_nil]
      exact .alone c hs hi
    | good =>
      cases hi : r.sessionId with
      | none =>
        simp only [hs, hi] at h₁
        exact hrefused (by simp only [Request.refusal?, hs, hi]; rfl) h₁
      | some i =>
        simp only [hs, hi] at h₁
        exact hsession (by simp [Request.needsSession, hs]) hi h₁
    | noSessionId =>
      cases hi : r.sessionId with
      | none =>
        simp only [hs, hi] at h₁
        exact hrefused (by simp only [Request.refusal?, hs, hi]; rfl) h₁
      | some i =>
        simp only [hs, hi] at h₁
        exact hsession (by simp [Request.needsSession, hs]) hi h₁
    | noInterpreterFound =>
      simp only [hs] at h₁
      exact hrefused (by rw [Request.refusal?, hs]) h₁
    | wrongSyntax =>
      simp only [hs] at h₁
      exact hrefused (by rw [Request.refusal?, hs]) h₁

theorem ends_dispatch {a : Reply × Request} (h : (s.dispatch r).Ends log a) :
    ∃ b, a = (Course.replyOf b.1, b.2) ∧ Dispatched s r log b := by
  simp only [Service.dispatch, bind_eq, pure_eq] at h
  obtain ⟨log, rest, ⟨b, r'⟩, rfl, hd, h₁⟩ := ends_bind h
  obtain ⟨rfl, rfl⟩ : rest = [] ∧ a = (Course.replyOf b, r') := by
    cases b <;> exact ends_done h₁
  rw [List.append_nil]
  exact ⟨_, rfl, ends_tryDispatch hd⟩

theorem ends_classify {raw : String} {field : Option String} {q : Option Request}
    (h : (s.classify raw field).Ends log q) : Classified s raw field log q := by
  unfold Service.classify at h
  cases hp : s.classifier.classify raw field with
  | none =>
    simp only [hp, pure_eq] at h
    obtain ⟨rfl, rfl⟩ := ends_done h
    exact .rejected hp
  | some r =>
    simp only [hp, bind_eq, pure_eq] at h
    obtain ⟨(e | _ | c), rest, rfl, h₁⟩ := ends_ask h
    · obtain ⟨rfl, rfl⟩ := ends_done h₁
      exact .unread hp e
    · obtain ⟨rfl, rfl⟩ := ends_done h₁
      exact .unknown hp
    · dsimp only at h₁
      rw [← Request.target?] at h₁
      cases ht : r.target? with
      | none =>
        simp only [ht] at h₁
        obtain ⟨rfl, rfl⟩ := ends_done h₁
        exact .alone hp c ht
      | some i =>
        simp only [ht] at h₁
        obtain ⟨e | x, rest, rfl, h₂⟩ := ends_ask h₁
        · obtain ⟨rfl, rfl⟩ := ends_done h₂
          exact .unconfirmed hp c ht e
        · obtain ⟨rfl, rfl⟩ := ends_done h₂
          exact .confirmed hp c ht x

theorem ends_execute {raw : String} {field : Option String} {a : Reply}
    (h : (s.execute raw field).Ends log a) : Executed s raw field log a := by
  simp only [Service.execute, bind_eq, pure_eq] at h
  obtain ⟨log, rest, q, rfl, hclassified, h₁⟩ := ends_bind h
  have hc := ends_classify hclassified
  cases q with
  | none =>
    obtain ⟨rfl, rfl⟩ := ends_done h₁
    cases hc with
    | rejected hp => exact .rejected hp
  | some r =>
    obtain ⟨log', rest, b, rfl, hdispatched, h₂⟩ := ends_bind h₁
    obtain ⟨rfl, rfl⟩ := ends_done h₂
    obtain ⟨b, rfl, hd⟩ := ends_dispatch hdispatched
    rw [List.append_nil]
    exact .ran hc hd

end Way

end CellReplay
