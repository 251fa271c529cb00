import CellReplay.Proofs.Service.Discipline

/-!
# Proofs.Service.Meaning

What executing a cell comes to, as far as it can be said beforehand.

* `Service.turn`    — what is done under the lock of a session, by the state that it is found in.
* `Service.meaning` — the whole of it.
* `meaning_execute` — `Service.execute` does that, and looks at a session in vain before it has the
  lock.
-/

namespace CellReplay

open Program

variable {α β : Type} {E : Setting} {s : Service} {c : Context} {k : SessionKey}

namespace Service

def callOf (s : Service) (kind : HandlerKind) (c : Context) (history : Option (List String))
    (code : String) : Call := kind.call c (s.properties.settingsFor c.name) history code

def turn (s : Service) (E : Setting) (c : Context) (k : SessionKey) (code : String)
    (x : Option Session) : Turn Reply :=
  let z := x.getD k.newSession
  match E.kinds c with
  | none => ⟨[], noHandler c.name, some z⟩
  | some kind =>
    let call := s.callOf kind c (some z.history) code
    let i := Interpretation.ofOutcome (E.outcome call)
    ⟨[call], i.reply, some (if i.Quiet then z.append code else z)⟩

def alone (s : Service) (E : Setting) (c : Context) (code : String) : Meaning Reply :=
  match E.kinds c with
  | none => .free [] (noHandler c.name)
  | some kind =>
    let call := s.callOf kind c none code
    .free [call] (Interpretation.ofOutcome (E.outcome call)).reply

def meaning (s : Service) (E : Setting) (raw : String) (field : Option String) : Meaning Reply :=
  match s.classifier.classify raw field with
  | none => .free [] (rejected s.classifier.source)
  | some r =>
    match E.contexts r.language with
    | none => .free [] (noInterpreter r.language)
    | some c =>
      match r.target?, r.refusal? with
      | some i, _ => .bound ⟨c.name, i⟩ (s.turn E c ⟨c.name, i⟩ r.code)
      | none, some a => .free [] a
      | none, none => s.alone E c r.code

theorem execute_eq (s : Service) (raw : String) (field : Option String) :
    s.execute raw field = (s.classify raw field).bind fun
      | none => .done (rejected s.classifier.source)
      | some r => (s.tryDispatch r).bind fun a => .done (Course.replyOf a.1) := by
  simp only [execute, dispatch, bind_eq, pure_eq, bind_assoc]
  congr 1
  funext a
  cases a with
  | none => rfl
  | some r =>
    dsimp only
    congr 1
    funext a
    obtain ⟨a, r⟩ := a
    cases a <;> rfl

end Service

/-! ## Reading -/

/-- What is true of programs that begin with a read if it is true for every answer. -/
def Reading (E : Setting) (P : Program α → Prop) : Prop :=
  ∀ (e : Effect) (next : e.Answer → Program α), E.Plain e → e.Reads →
    (∀ σ b, E.Says σ e b → P (next b)) → P (.perform e next)

theorem reading_awaits (turn : Option Session → Turn α) : Reading E (Awaits E k turn) :=
  fun _ _ he hr h => .step he hr h

theorem reading_follows (calls : List Call) (a : α) :
    Reading E fun p => Follows E none p none calls a none := by
  intro e next he hr h
  cases e with
  | findContext n => exact follows_silent he trivial rfl fun σ b _ hb => h σ b hb
  | findSession k =>
    exact follows_silent he Effect.forall_mem_none rfl
      fun σ b _ hb => h σ b hb
  | _ => exact hr.elim

namespace Reading

variable {P : Program α → Prop}

theorem findContext (hP : Reading E P) {n : String} {f : Except Failure (Option Context) → Program α}
    (h : P (f (.ok (E.contexts n)))) : P ((ask (.findContext n)).bind f) :=
  hP (.findContext n) f trivial trivial fun _ _ hb => hb ▸ h

theorem findSession (hP : Reading E P) {f : Except Failure (Option Session) → Program α}
    (h : ∀ x, P (f (.ok x))) : P ((ask (.findSession k)).bind f) :=
  hP (.findSession k) f trivial trivial fun _ _ hb => hb ▸ h _

/-- A classification that knows the language may or may not find the session. -/
theorem classify (hP : Reading E P) {raw : String} {field : Option String} {r : Request}
    (hr : s.classifier.classify raw field = some r) {f : Option Request → Program α}
    (hunknown : E.contexts r.language = none → P (f (some r.markNoInterpreter)))
    (hknown : ∀ c, E.contexts r.language = some c → r.target? = none → P (f (some r)))
    (hasked : ∀ c i, E.contexts r.language = some c → r.target? = some i →
      ∀ known, P (f (some (r.confirm known)))) : P ((s.classify raw field).bind f) := by
  simp only [Service.classify, hr, bind_eq, pure_eq, bind_assoc]
  refine hP.findContext ?_
  cases hc : E.contexts r.language with
  | none => exact hunknown hc
  | some c =>
    dsimp only
    rw [← Request.target?]
    cases ht : r.target? with
    | none => exact hknown c hc ht
    | some i =>
      simp only [bind_assoc]
      exact hP.findSession fun x => hasked c i hc ht x.isSome

theorem tryDispatch (hP : Reading E P) {r : Request} (hc : E.contexts r.language = some c)
    {f : Except Failure Reply × Request → Program α}
    (halone : r.status = .noNeedForSession → P ((s.interpretAlone c r).bind fun a => f (.ok a, r)))
    (hsession : ∀ i, r.target? = some i → P ((s.interpretSession c i r).bind f))
    (hrefused : ∀ a, r.refusal? = some a → P (f (.ok a, r))) : P ((s.tryDispatch r).bind f) := by
  simp only [Service.tryDispatch, bind_eq, pure_eq, bind_assoc]
  refine hP.findContext ?_
  rw [hc]
  dsimp only
  cases hs : r.status with
  | noNeedForSession =>
    simp only [bind_assoc]
    exact halone hs
  | good =>
    cases hi : r.sessionId with
    | none => exact hrefused _ (by simp [Request.refusal?, hs, hi])
    | some i => exact hsession i (by simp [Request.target?, Request.needsSession, hs, hi])
  | noSessionId =>
    cases hi : r.sessionId with
    | none => exact hrefused _ (by simp [Request.refusal?, hs, hi])
    | some i => exact hsession i (by simp [Request.target?, Request.needsSession, hs, hi])
  | noInterpreterFound => exact hrefused _ (by rw [Request.refusal?, hs])
  | wrongSyntax => exact hrefused _ (by rw [Request.refusal?, hs])

end Reading

/-! ## Under the lock -/

section Locked

variable {held : Option SessionKey} {x y : Option Session} {calls : List Call} {a : α}

theorem follows_interpret_absent (hc : E.contexts c.name = some c) (hk : E.kinds c = none)
    {history : Option (List String)} {code : String} {f : Option Interpretation → Program α}
    (h : Follows E held (f none) x calls a y) :
    Follows E held ((s.interpret c history code).bind f) x calls a y := by
  simp only [Service.interpret, bind_eq, pure_eq, bind_assoc]
  refine follows_silent (e := .resolve c) hc trivial rfl fun _ b _ hb => ?_
  have hb : b.map (·.kind) = none := hb.trans hk
  cases b with
  | none => exact h
  | some h' => cases hb

theorem follows_interpret_ran (hc : E.contexts c.name = some c) {kind : HandlerKind}
    (hk : E.kinds c = some kind) {history : Option (List String)} {code : String}
    {f : Option Interpretation → Program α}
    (h : Follows E held
      (f (some (.ofOutcome (E.outcome (s.callOf kind c history code))))) x calls a y) :
    Follows E held ((s.interpret c history code).bind f) x (s.callOf kind c history code :: calls) a
      y := by
  simp only [Service.interpret, bind_eq, pure_eq, bind_assoc]
  refine follows_silent (e := .resolve c) hc trivial rfl fun _ b _ hb => ?_
  have hb : b.map (·.kind) = some kind := hb.trans hk
  cases b with
  | none => cases hb
  | some h' =>
    cases hb
    exact follows_run h

/-- The session is there afterwards, as it was or new. -/
theorem follows_openSession (hk : (E.contexts k.context).isSome)
    {f : Except Failure Session → Program α}
    (h : Follows E (some k) (f (.ok (x.getD k.newSession))) (some (x.getD k.newSession)) calls a y) :
    Follows E (some k) ((Service.openSession k).bind f) x calls a y := by
  simp only [Service.openSession, bind_eq, pure_eq, bind_assoc]
  refine follows_silent (e := .findSession k) trivial
    (fun k' hk' => Option.some.inj (Option.mem_def.mp hk').symm ▸ rfl) rfl fun σ b hσ hb => ?_
  rw [show b = .ok (σ k) from hb, hσ k rfl]
  cases x with
  | some z => exact h
  | none =>
    refine follows_silent (e := .saveSession k.newSession) hk rfl rfl fun _ b _ hb => ?_
    rw [show b = .ok () from hb]
    exact h

theorem follows_interpretIn {z : Session} (hz : z.key = k) (hc : E.contexts c.name = some c)
    (hk : (E.contexts k.context).isSome) (r : Request) {f : Except Failure Reply → Program Reply}
    (hf : ∀ reply x, Follows E (some k) (f (.ok reply)) x [] reply x) :
    Follows E (some k) ((s.interpretIn c z r).bind f) (some z) (s.turn E c k r.code (some z)).calls
      (s.turn E c k r.code (some z)).value (s.turn E c k r.code (some z)).session := by
  simp only [Service.interpretIn, bind_eq, pure_eq, bind_assoc, Service.turn, Option.getD_some]
  cases hkind : E.kinds c with
  | none => exact follows_interpret_absent hc hkind (hf _ _)
  | some kind =>
    refine follows_interpret_ran hc hkind ?_
    dsimp only
    by_cases hq : (Interpretation.ofOutcome
        (E.outcome (s.callOf kind c (some z.history) r.code))).Quiet
    · simp only [if_pos hq]
      rw [if_pos (show (_ && _) = true from hq)]
      refine follows_silent (e := .saveSession (z.append r.code)) ?_ ?_ rfl fun _ b _ hb => ?_
      · rw [← hz] at hk; exact hk
      · rw [← hz]; rfl
      · rw [show b = .ok () from hb]
        exact hf _ _
    · simp only [if_neg hq]
      rw [if_neg (show ¬ (_ && _) = true from hq)]
      exact hf _ _

theorem follows_interpretLocked (hc : E.contexts c.name = some c)
    (hk : (E.contexts k.context).isSome) (r : Request) {x : Option Session}
    (hx : ∀ z ∈ x, z.key = k) {f : Except Failure Reply × Request → Program Reply}
    (hf : ∀ reply r' x, Follows E (some k) (f (.ok reply, r')) x [] reply x) :
    Follows E (some k) ((s.interpretLocked c k r).bind f) x (s.turn E c k r.code x).calls
      (s.turn E c k r.code x).value (s.turn E c k r.code x).session := by
  have hz : (x.getD k.newSession).key = k := by
    cases x with
    | none => rfl
    | some z => exact hx z rfl
  simp only [Service.interpretLocked, bind_eq, pure_eq, bind_assoc]
  refine follows_openSession hk ?_
  dsimp only
  by_cases hn : r.isNewSession
  · have hst : r.status = .noSessionId := of_decide_eq_true hn
    simp only [if_pos hn, Request.promote, if_pos hst, bind_assoc]
    exact follows_interpretIn hz hc hk { r with status := .good } fun reply x => hf reply _ x
  · simp only [if_neg hn, bind_assoc]
    exact follows_interpretIn hz hc hk r fun reply x => hf reply _ x

theorem awaits_interpretSession (hc : E.contexts c.name = some c) (i : SessionId) (r : Request) :
    Awaits E ⟨c.name, i⟩ (s.turn E c ⟨c.name, i⟩ r.code)
      ((s.interpretSession c i r).bind fun a => .done (Course.replyOf a.1)) := by
  simp only [Service.interpretSession, bind_eq, pure_eq, bind_assoc]
  refine .acquire fun x hx => ?_
  refine follows_interpretLocked hc (by rw [hc]; rfl) r hx fun reply r' x => ?_
  exact .release .done

end Locked

/-! ## Executing a cell -/

theorem alone_of (hc : E.contexts c.name = some c) (r : Request)
    {f : Reply → Program Reply} (hf : ∀ a, f a = .done a) :
    (s.alone E c r.code).Of E ((s.interpretAlone c r).bind f) := by
  simp only [Service.interpretAlone, bind_eq, pure_eq, bind_assoc, Service.alone]
  cases hk : E.kinds c with
  | none =>
    refine follows_interpret_absent hc hk ?_
    dsimp only [Program.bind]
    rw [hf]
    exact .done
  | some kind =>
    refine follows_interpret_ran hc hk ?_
    dsimp only [Program.bind]
    rw [hf]
    exact .done

theorem meaning_execute (hnamed : ∀ n c, E.contexts n = some c → c.name = n) (s : Service)
    (raw : String) (field : Option String) :
    (s.meaning E raw field).Of E (s.execute raw field) := by
  rw [Service.execute_eq, Service.meaning]
  cases hr : s.classifier.classify raw field with
  | none =>
    simp only [Service.classify, hr]
    exact Follows.done
  | some r =>
    dsimp only
    cases hc : E.contexts r.language with
    | none =>
      have hP := reading_follows (E := E) [] (Service.noInterpreter r.language)
      refine hP.classify hr (fun _ => ?_) (fun c h => by rw [hc] at h; cases h)
        fun c i h => by rw [hc] at h; cases h
      simp only [Service.tryDispatch, bind_eq, pure_eq, bind_assoc]
      refine hP.findContext ?_
      rw [show (Request.markNoInterpreter r).language = r.language from rfl, hc]
      exact Follows.done
    | some c =>
      have hself : E.contexts c.name = some c := by rw [hnamed _ _ hc]; exact hc
      cases ht : r.target? with
      | some i =>
        have hP := reading_awaits (E := E) (k := ⟨c.name, i⟩) (s.turn E c ⟨c.name, i⟩ r.code)
        refine hP.classify hr (fun h => by rw [hc] at h; cases h)
          (fun _ _ h => by rw [ht] at h; cases h) fun c' i' _ _ known => ?_
        -- whether the session has been found or not, the request asks for it
        have ht' := (Request.target?_confirm r known).trans ht
        have hc' : E.contexts (r.confirm known).language = some c := by
          rw [Request.confirm_language]
          exact hc
        refine hP.tryDispatch hc' (fun hs => ?_) (fun i' hi => ?_) fun a ha => ?_
        · rw [Request.target?, Request.needsSession, hs] at ht'
          cases ht'
        · rw [ht'] at hi
          cases hi
          have h := awaits_interpretSession (s := s) hself i (r.confirm known)
          rwa [Request.confirm_code] at h
        · rw [Request.refusal?_of_target? ht'] at ha
          cases ha
      | none =>
        cases ha : r.refusal? with
        | some a =>
          have hP := reading_follows (E := E) [] a
          refine hP.classify hr (fun h => by rw [hc] at h; cases h) (fun _ _ _ => ?_)
            fun _ i _ h => by rw [ht] at h; cases h
          refine hP.tryDispatch hc (fun hs => ?_) (fun i h => by rw [ht] at h; cases h) fun b hb => ?_
          · rw [Request.refusal?, hs] at ha
            cases ha
          · rw [ha] at hb
            cases hb
            exact Follows.done
        | none =>
          have hP : Reading E ((s.alone E c r.code).Of E) := by
            unfold Service.alone
            cases E.kinds c with
            | none => exact reading_follows _ _
            | some kind => exact reading_follows _ _
          refine hP.classify hr (fun h => by rw [hc] at h; cases h) (fun _ _ _ => ?_)
            fun _ i _ h => by rw [ht] at h; cases h
          refine hP.tryDispatch hc (fun _ => alone_of hself r fun _ => rfl)
            (fun i h => by rw [ht] at h; cases h) fun b hb => by rw [ha] at hb; cases hb

end CellReplay
