import CellReplay.Proofs.Service.Admission
import CellReplay.Proofs.Service.Meaning

/-!
# Proofs.Service.Upshot

What a call comes to when no store operation is made to fail any more, as a function of what is
stored. Stores may still fail of themselves.

* `Faults.Spent`     — no call of an operation is going to fail.
* `Means`            — the handlers that a call can have, and what programs come to.
* `Service.upshot`   — the answer to a request, the program calls made for it, and the store behind it.
* `Service.executed` — the same for a cell.
* `Upshot.Of`        — a call has come to that.
* `exec_execute_upshot` — executing a cell does, also if the lookups of its classification fail.
* `exec_execute_calm` — in particular if nothing is made to fail.
-/

namespace CellReplay

open Course (replyOf)

variable {ε : Type}

/-! ## Failures that are over -/

namespace Faults

/-- All planned failures of an operation are over. -/
def Spent (f : Faults) (m : Method) : Prop := ∀ n, (m, n) ∈ f.planned → n < f.count m

variable {f : Faults} {m : Method}

theorem next_of_spent (h : f.Spent m) : f.next m = .none :=
  if_neg fun hplanned => Nat.lt_irrefl _ (h _ hplanned)

theorem count_counted (f : Faults) (m m' : Method) :
    (f.counted m).count m' = f.count m' + if m = m' then 1 else 0 := by
  unfold count counted
  rw [Table.get?_put]
  split
  · rename_i hm
    subst hm
    rfl
  · rfl

theorem Spent.counted (h : f.Spent m) (m' : Method) : (f.counted m').Spent m := by
  intro n hn
  have hlt : n < f.count m := h n hn
  rw [count_counted]
  omega

end Faults

namespace World

/-- Nothing is going to be made to fail. -/
def Calm (w : World ε) : Prop := ∀ m, w.faults.Spent m

theorem attempt_of_spent {α : Type} {w : World ε} {m : Method} (h : w.faults.Spent m)
    (op : Store → Except Failure α × Store) :
    w.attempt m op =
      ((op w.store).1, { w with faults := w.faults.counted m, store := (op w.store).2 }) := by
  rw [attempt, Faults.next_of_spent h]

theorem faults_attempt {α : Type} (w : World ε) (m : Method)
    (op : Store → Except Failure α × Store) : (w.attempt m op).2.faults = w.faults.counted m := by
  unfold attempt
  split <;> rfl

variable {w w' : World ε}

theorem tryContext_of_spent (h : w.faults.Spent .findContext) (n : String) :
    (w.tryContext n).1 = w.store.findContext n := by
  rw [tryContext, attempt_of_spent h]

theorem tryFind_of_spent (h : w.faults.Spent .findSession) (k : SessionKey) :
    (w.tryFind k).1 = w.store.findSession k := by
  rw [tryFind, attempt_of_spent h]

theorem trySave_of_spent (h : w.faults.Spent .saveSession) {x : Session} {r : Except Failure Unit}
    (hs : w.trySave x = (r, w')) : w.store.saveSession x = (r, w'.store) := by
  rw [trySave, attempt_of_spent h] at hs
  rw [← (Prod.mk.inj hs).1, ← (Prod.mk.inj hs).2]

theorem faults_tryContext {n : String} {r : Except Failure (Option Context)}
    (h : w.tryContext n = (r, w')) : w'.faults = w.faults.counted .findContext := by
  rw [← faults_attempt w .findContext fun s => (s.findContext n, s)]
  exact congrArg (·.2.faults) h.symm

theorem faults_tryFind {k : SessionKey} {r : Except Failure (Option Session)}
    (h : w.tryFind k = (r, w')) : w'.faults = w.faults.counted .findSession := by
  rw [← faults_attempt w .findSession fun s => (s.findSession k, s)]
  exact congrArg (·.2.faults) h.symm

end World

/-! ## What a call comes to -/

/-- The session under a key, made if it is not there. -/
def Store.openSession (st : Store) (k : SessionKey) : Except Failure Session × Store :=
  match st.findSession k with
  | .error e => (.error e, st)
  | .ok (some x) => (.ok x, st)
  | .ok none =>
    match st.saveSession k.newSession with
    | (.error e, st) => (.error e, st)
    | (.ok (), st) => (.ok k.newSession, st)

/-- The kind of handler that there is for a context, and what a program call comes to. -/
structure Means where
  kinds : Context → Option HandlerKind
  outcome : Call → Outcome

def World.means (o : Surroundings ε) (w : World ε) : Means where
  kinds c := (w.registry.resolve (o.isThere w.outside) c).1.map (·.kind)
  outcome call := (o.run w.outside call).1

structure Upshot where
  answer : Except Failure Reply
  calls : List Call
  store : Store

/-- A call that began in the world `w` has come to that. -/
structure Upshot.Of (u : Upshot) (w : World ε) (a : Except Failure Reply) (w' : World ε) : Prop where
  answer : a = u.answer
  calls : w'.calls = w.calls ++ u.calls
  store : w'.store = u.store

namespace Service

/-- The program call for some code, with what it is told the caller, if there is a handler. -/
def ran (s : Service) (M : Means) (c : Context) (history : Option (List String)) (code : String) :
    Option (Call × Interpretation) :=
  (M.kinds c).map fun kind =>
    let call := s.callOf kind c history code
    (call, .ofOutcome (M.outcome call))

def upshotAlone (s : Service) (M : Means) (c : Context) (code : String) (st : Store) : Upshot :=
  match s.ran M c none code with
  | none => ⟨.ok (noHandler c.name), [], st⟩
  | some (call, i) => ⟨.ok i.reply, [call], st⟩

def upshotIn (s : Service) (M : Means) (c : Context) (x : Session) (code : String) (st : Store) :
    Upshot :=
  match s.ran M c (some x.history) code with
  | none => ⟨.ok (noHandler c.name), [], st⟩
  | some (call, i) =>
    if i.Quiet then
      match st.saveSession (x.append code) with
      | (.error e, st) => ⟨.error e, [call], st⟩
      | (.ok (), st) => ⟨.ok i.reply, [call], st⟩
    else ⟨.ok i.reply, [call], st⟩

def upshotLocked (s : Service) (M : Means) (c : Context) (k : SessionKey) (code : String)
    (st : Store) : Upshot :=
  match st.openSession k with
  | (.error e, st) => ⟨.error e, [], st⟩
  | (.ok x, st) => s.upshotIn M c x code st

def upshot (s : Service) (M : Means) (r : Request) (st : Store) : Upshot :=
  match st.findContext r.language with
  | .error e => ⟨.error e, [], st⟩
  | .ok none => ⟨.ok (noInterpreter r.language), [], st⟩
  | .ok (some c) =>
    match r.refusal?, r.target? with
    | some a, _ => ⟨.ok a, [], st⟩
    | none, some i => s.upshotLocked M c ⟨c.name, i⟩ r.code st
    | none, none => s.upshotAlone M c r.code st

def executed (s : Service) (M : Means) (raw : String) (field : Option String) (st : Store) :
    Upshot :=
  match s.classifier.classify raw field with
  | none => ⟨.ok (rejected s.classifier.source), [], st⟩
  | some r => s.upshot M r st

end Service

section

variable {o : Surroundings ε} {s : Service} {w w₁ w' : World ε} {u : Upshot}
  {a : Except Failure Reply}

theorem means_of_attempted (h : World.Attempted w w') : w'.means o = w.means o := by
  simp only [World.means, h.registry, h.outside]

theorem Upshot.Of.of_attempted (h : u.Of w₁ a w') (hw : World.Attempted w w₁) : u.Of w a w' :=
  ⟨h.answer, by rw [h.calls, hw.calls], h.store⟩

/-- What can fail while a request is run is over. -/
structure Request.Unhampered (r : Request) (w : World ε) : Prop where
  context : w.faults.Spent .findContext
  session : ∀ c i, w.store.findContext r.language = .ok (some c) → r.target? = some i →
    w.faults.Spent .findSession ∧ w.faults.Spent .saveSession

theorem unhampered_of_calm (h : w.Calm) (r : Request) : r.Unhampered w :=
  ⟨h .findContext, fun _ _ _ _ => ⟨h .findSession, h .saveSession⟩⟩

namespace Course

/-- A session that has been opened is the one that opening gives, whatever might have failed. -/
theorem Opened.openSession_ok {k : SessionKey} {x : Session} (h : Opened k w (.ok x) w') :
    w.store.openSession k = (.ok x, w'.store) := by
  unfold Store.openSession
  cases h with
  | found hf => rw [World.tryFind_ok hf, World.store_tryFind hf]
  | made hf hs =>
    have hsave := World.trySave_ok hs
    rw [World.store_tryFind hf] at hsave
    rw [World.tryFind_ok hf]
    simp only [hsave]

theorem Opened.openSession_eq {k : SessionKey} {x : Except Failure Session} (h : Opened k w x w')
    (hfind : w.faults.Spent .findSession) (hsave : w.faults.Spent .saveSession) :
    w.store.openSession k = (x, w'.store) := by
  have hlook := World.tryFind_of_spent hfind k
  cases h with
  | unread hf =>
    rw [hf] at hlook
    unfold Store.openSession
    rw [← hlook, World.store_tryFind hf]
  | found hf => exact (Opened.found hf).openSession_ok
  | @unmade e w₁ w₂ hf hs =>
    have hspent : w₁.faults.Spent .saveSession := by
      rw [World.faults_tryFind hf]
      exact hsave.counted _
    have hsaved := World.trySave_of_spent hspent hs
    rw [World.store_tryFind hf] at hsaved
    unfold Store.openSession
    rw [World.tryFind_ok hf]
    simp only [hsaved]
  | made hf hs => exact (Opened.made hf hs).openSession_ok

theorem Interpreted.ran_eq {c : Context} {history : Option (List String)} {code : String}
    {i : Option Interpretation} (h : Interpreted o s c history code w i w') :
    i = (s.ran (w.means o) c history code).map Prod.snd ∧
      w'.calls = w.calls ++ ((s.ran (w.means o) c history code).map Prod.fst).toList ∧
      w'.store = w.store ∧ w'.faults = w.faults := by
  unfold Service.ran
  cases h with
  | absent hr =>
    have hkinds : (w.means o).kinds c = none := by
      simp only [World.means, hr]
      rfl
    rw [hkinds]
    exact ⟨rfl, (List.append_nil _).symm, rfl, rfl⟩
  | @ran h _ hr =>
    have hkinds : (w.means o).kinds c = some h.kind := by
      simp only [World.means, hr]
      rfl
    rw [hkinds]
    exact ⟨rfl, rfl, rfl, rfl⟩

theorem Interpreted.upshotAlone {c : Context} {code : String} {i : Option Interpretation}
    (h : Interpreted o s c none code w i w') :
    (s.upshotAlone (w.means o) c code w.store).Of w
      (.ok ((i.map (·.reply)).getD (Service.noHandler c.name))) w' := by
  obtain ⟨hi, hcalls, hstore, -⟩ := h.ran_eq
  unfold Service.upshotAlone
  cases hran : s.ran (w.means o) c none code with
  | none =>
    rw [hran] at hi hcalls
    exact ⟨by rw [hi]; rfl, hcalls, hstore⟩
  | some made =>
    rw [hran] at hi hcalls
    exact ⟨by rw [hi]; rfl, hcalls, hstore⟩

theorem InSession.upshotIn {c : Context} {x : Session} {code : String}
    (h : InSession o s c x code w a w') (hsave : w.faults.Spent .saveSession) :
    (s.upshotIn (w.means o) c x code w.store).Of w a w' := by
  unfold Service.upshotIn
  have hsaved {i : Interpretation} {w₁ : World ε} {y : Session} {r : Except Failure Unit}
      (hi : Interpreted o s c (some x.history) code w (some i) w₁) (hs : w₁.trySave y = (r, w')) :
      w.store.saveSession y = (r, w'.store) ∧ w'.calls = w₁.calls := by
    obtain ⟨-, -, hstore, hfaults⟩ := hi.ran_eq
    have hspent : w₁.faults.Spent .saveSession := by rwa [hfaults]
    rw [← hstore]
    exact ⟨World.trySave_of_spent hspent hs, (World.attempted_trySave hs).calls⟩
  cases h with
  | absent hi =>
    obtain ⟨hnone, hcalls, hstore, -⟩ := hi.ran_eq
    have hran := Option.map_eq_none_iff.mp hnone.symm
    rw [hran] at hcalls ⊢
    exact ⟨rfl, hcalls, hstore⟩
  | @shown i _ hi hq =>
    obtain ⟨hsome, hcalls, hstore, -⟩ := hi.ran_eq
    obtain ⟨⟨call, i'⟩, hran, rfl⟩ := Option.map_eq_some_iff.mp hsome.symm
    rw [hran] at hcalls ⊢
    simp only [if_neg hq]
    exact ⟨rfl, hcalls, hstore⟩
  | @lost i _ w₁ _ hi hq hs =>
    obtain ⟨hsome, hcalls, hstore, -⟩ := hi.ran_eq
    obtain ⟨⟨call, i'⟩, hran, rfl⟩ := Option.map_eq_some_iff.mp hsome.symm
    obtain ⟨hstored, hcalls'⟩ := hsaved hi hs
    rw [hran] at hcalls ⊢
    simp only [if_pos hq, hstored]
    exact ⟨rfl, hcalls'.trans hcalls, rfl⟩
  | @kept i w₁ _ hi hq hs =>
    obtain ⟨hsome, hcalls, hstore, -⟩ := hi.ran_eq
    obtain ⟨⟨call, i'⟩, hran, rfl⟩ := Option.map_eq_some_iff.mp hsome.symm
    obtain ⟨hstored, hcalls'⟩ := hsaved hi hs
    rw [hran] at hcalls ⊢
    simp only [if_pos hq, hstored]
    exact ⟨rfl, hcalls'.trans hcalls, rfl⟩

theorem Locked.upshotLocked {c : Context} {k : SessionKey} {r : Request}
    {a : Except Failure Reply × Request} (h : Locked o s c k r w a w')
    (hfind : w.faults.Spent .findSession) (hsave : w.faults.Spent .saveSession) :
    (s.upshotLocked (w.means o) c k r.code w.store).Of w a.1 w' := by
  unfold Service.upshotLocked
  cases h with
  | unopened ho =>
    rw [ho.openSession_eq hfind hsave]
    exact ⟨rfl, by rw [ho.attempted.calls, List.append_nil], rfl⟩
  | @opened x _ w₁ _ ho hi =>
    rw [ho.openSession_ok]
    have hspent : w₁.faults.Spent .saveSession := by
      cases ho with
      | found hf =>
        rw [World.faults_tryFind hf]
        exact hsave.counted _
      | made hf hs =>
        rw [show w₁.faults = _ from congrArg (·.2.faults) hs.symm, World.trySave,
          World.faults_attempt, World.faults_tryFind hf]
        exact (hsave.counted _).counted _
    have hu := hi.upshotIn hspent
    rw [means_of_attempted ho.attempted] at hu
    exact hu.of_attempted ho.attempted

theorem Dispatched.upshot {r : Request} {a : Except Failure Reply × Request}
    (h : Dispatched o s r w a w') (hclear : r.Unhampered w) :
    (s.upshot (w.means o) r w.store).Of w a.1 w' := by
  have hlook := World.tryContext_of_spent hclear.context r.language
  have hidle {x : Except Failure Reply} {y : Except Failure (Option Context)} {w₁ : World ε}
      (hc : w.tryContext r.language = (y, w₁)) : (⟨x, [], w.store⟩ : Upshot).Of w x w₁ :=
    ⟨rfl, by rw [(World.attempted_tryContext hc).calls, List.append_nil], World.store_tryContext hc⟩
  unfold Service.upshot
  cases h with
  | unread hc =>
    rw [← hlook, hc]
    exact hidle hc
  | unknown hc =>
    rw [← hlook, hc]
    exact hidle hc
  | refused hc ha =>
    rw [← hlook, hc]
    simp only [ha]
    exact hidle hc
  | alone hc hs hi =>
    have hrefusal : r.refusal? = none := by rw [Request.refusal?, hs]
    have htarget : r.target? = none := by
      rw [Request.target?, Request.needsSession, hs]
      rfl
    have hu := hi.upshotAlone
    rw [means_of_attempted (World.attempted_tryContext hc), World.store_tryContext hc] at hu
    rw [← hlook, hc]
    simp only [hrefusal, htarget]
    exact hu.of_attempted (World.attempted_tryContext hc)
  | @locked c i _ w₁ w₂ l _ hc ht hl _ =>
    have hrefusal := Request.refusal?_of_target? ht
    obtain ⟨hfind, hsave⟩ := hclear.session c i (by rw [← hlook, hc]) ht
    have hfaults := World.faults_tryContext hc
    have hu := hl.upshotLocked (by rw [hfaults]; exact hfind.counted _)
      (by rw [hfaults]; exact hsave.counted _)
    have hu' : (s.upshotLocked (w₁.means o) c ⟨c.name, i⟩ r.code w₁.store).Of w₁ a.1 w₂ :=
      ⟨hu.answer, hu.calls, hu.store⟩
    rw [means_of_attempted (World.attempted_tryContext hc), World.store_tryContext hc] at hu'
    have hw := hu'.of_attempted (World.attempted_tryContext hc)
    rw [← hlook, hc]
    simp only [hrefusal, ht]
    exact ⟨hw.answer, hw.calls, hw.store⟩

end Course

/-! ## Executing a cell -/

/-- Running a request depends on what it asks for and not on its status as such. -/
theorem upshot_congr {M : Means} {r r' : Request} {st : Store} (hlang : r'.language = r.language)
    (hcode : r'.code = r.code) (hrefusal : r'.refusal? = r.refusal?)
    (htarget : r'.target? = r.target?) : s.upshot M r' st = s.upshot M r st := by
  unfold Service.upshot
  rw [hlang, hcode, hrefusal, htarget]

/-- What classification has found out makes no difference. -/
theorem Course.Classified.upshot_eq {raw : String} {field : Option String} {r' : Request}
    (h : Classified s raw field w (some r') w') :
    ∃ r, s.classifier.classify raw field = some r ∧
      ∀ M, s.upshot M r' w.store = s.upshot M r w.store := by
  cases h with
  | unread hp _ => exact ⟨_, hp, fun _ => rfl⟩
  | unknown hp hc =>
    -- the language is missing when the request is to be run, as it was before
    refine ⟨_, hp, fun M => ?_⟩
    have hnone := World.tryContext_ok hc
    simp only [Service.upshot, Request.markNoInterpreter, hnone]
  | alone hp _ _ => exact ⟨_, hp, fun _ => rfl⟩
  | unconfirmed hp _ _ _ => exact ⟨_, hp, fun _ => rfl⟩
  | confirmed hp _ _ _ =>
    exact ⟨_, hp, fun _ => upshot_congr (Request.confirm_language _ _) (Request.confirm_code _ _)
      (refusal?_confirm _ _) (Request.target?_confirm _ _)⟩

/-- Classification looks for the context once, and for the session once if it finds the context of a
request that asks for one. -/
theorem Course.Classified.faults_eq {raw : String} {field : Option String} {r : Request}
    (h : Classified s raw field w (some r) w') :
    w'.faults = w.faults.counted .findContext ∧
        (∀ c i, (w.tryContext r.language).1 = .ok (some c) → r.target? ≠ some i) ∨
      w'.faults = (w.faults.counted .findContext).counted .findSession := by
  cases h with
  | unread _ hc =>
    refine .inl ⟨World.faults_tryContext hc, fun c i hfound => ?_⟩
    rw [hc] at hfound
    cases hfound
  | unknown _ hc =>
    refine .inl ⟨World.faults_tryContext hc, fun c i _ htarget => ?_⟩
    cases htarget
  | alone _ hc ht =>
    refine .inl ⟨World.faults_tryContext hc, fun c i _ htarget => ?_⟩
    rw [ht] at htarget
    cases htarget
  | unconfirmed _ hc _ hf =>
    exact .inr (by rw [World.faults_tryFind hf, World.faults_tryContext hc])
  | confirmed _ hc _ hf =>
    exact .inr (by rw [World.faults_tryFind hf, World.faults_tryContext hc])

theorem calm_of_classified {raw : String} {field : Option String} {r : Request}
    (h : Course.Classified s raw field w (some r) w') (hw : w.Calm) : w'.Calm := by
  intro m
  rcases h.faults_eq with ⟨hfaults, -⟩ | hfaults
  · rw [hfaults]
    exact (hw m).counted _
  · rw [hfaults]
    exact ((hw m).counted _).counted _

theorem Course.Executed.upshot {raw : String} {field : Option String} {a : Reply}
    (h : Executed o s raw field w a w')
    (hclear : ∀ r w₁, Classified s raw field w (some r) w₁ → r.Unhampered w₁) :
    ∃ x, a = replyOf x ∧ (s.executed (w.means o) raw field w.store).Of w x w' := by
  unfold Service.executed
  cases h with
  | rejected hc =>
    refine ⟨.ok (Service.rejected s.classifier.source), rfl, ?_⟩
    cases hc with
    | rejected hp =>
      rw [hp]
      exact ⟨rfl, (List.append_nil _).symm, rfl⟩
  | ran hc hd =>
    obtain ⟨r, hp, hupshot⟩ := hc.upshot_eq
    have hu := hd.upshot (hclear _ _ hc)
    rw [means_of_attempted hc.attempted, hc.store_eq, hupshot] at hu
    simp only [hp]
    exact ⟨_, rfl, hu.of_attempted hc.attempted⟩

/-- Executing a cell comes to its upshot, if nothing fails behind its classification. -/
theorem exec_execute_upshot (o : Surroundings ε) (s : Service) (raw : String)
    (field : Option String) (hl : w.locks.Unused)
    (hclear : ∀ r w₁, Course.Classified s raw field w (some r) w₁ → r.Unhampered w₁) :
    ∃ a w', (s.execute raw field).exec o 0 w = (some (replyOf a), w') ∧
      (s.executed (w.means o) raw field w.store).Of w a w' := by
  obtain ⟨a, w', he, hx⟩ := Course.exec_execute o 0 s raw field hl
  obtain ⟨x, rfl, hu⟩ := hx.upshot hclear
  exact ⟨x, w', he, hu⟩

theorem exec_execute_calm (o : Surroundings ε) (s : Service) (raw : String) (field : Option String)
    (hl : w.locks.Unused) (hw : w.Calm) :
    ∃ a w', (s.execute raw field).exec o 0 w = (some (replyOf a), w') ∧
      (s.executed (w.means o) raw field w.store).Of w a w' :=
  exec_execute_upshot o s raw field hl fun r _ hc => unhampered_of_calm (calm_of_classified hc hw) r

end

end CellReplay
