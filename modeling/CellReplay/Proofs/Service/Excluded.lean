import CellReplay.Proofs.Service.Admission
import CellReplay.Proofs.Service.Findings
import CellReplay.Proofs.Service.Kind

/-!
# Proofs.Service.Excluded

What the caller of a cell is never told. The service has replies for requests that lack what they need,
and for a status that cannot change as asked; no cell gets as far.

* `Request.Sound`    — a request that has been read, with a session if it needs one.
* `Exchange.OfStore` — if the answer to an effect is a failure, the store has failed.
* `Reply.Excluded`   — the replies in question.
* `Way.Classified.sound` — what is classified is sound or has no interpreter.
* `Way.Executed.not_excluded` — no way of executing a cell ends in one of these replies.
* `Service.interpretLockedBy` — a request is promoted as `promote` says.
* `never_excluded`   — all of it.
-/

namespace CellReplay

open Program

variable {ε : Type}

/-! ## Failures of the store -/

def Failure.OfStore (e : Failure) : Prop := ∃ reason, e = .database reason

def Exchange.OfStore : Exchange → Prop
  | ⟨.findContext _, .error e⟩ => e.OfStore
  | ⟨.findSession _, .error e⟩ => e.OfStore
  | ⟨.saveSession _, .error e⟩ => e.OfStore
  | _ => True

namespace Store

theorem ofStore_lift {α : Type} {r : Except DatabaseError α} {e : Failure} (h : lift r = .error e) :
    e.OfStore := by
  cases r with
  | error d => exact ⟨d.message, (Except.error.inj h).symm⟩
  | ok a => cases h

theorem ofStore_findContext {s : Store} {n : String} {e : Failure}
    (h : s.findContext n = .error e) : e.OfStore := by
  cases s with
  | memory m => cases h
  | database d => exact ofStore_lift h
  | closed d => exact ⟨_, (Except.error.inj h).symm⟩

theorem ofStore_findSession {s : Store} {k : SessionKey} {e : Failure}
    (h : s.findSession k = .error e) : e.OfStore := by
  cases s with
  | memory m => cases h
  | database d => exact ofStore_lift h
  | closed d => exact ⟨_, (Except.error.inj h).symm⟩

theorem ofStore_saveSession {s : Store} {x : Session} {e : Failure}
    (h : (s.saveSession x).1 = .error e) : e.OfStore := by
  cases s with
  | memory m => cases h
  | database d => exact ofStore_lift h
  | closed d => exact ⟨_, (Except.error.inj h).symm⟩

end Store

section

variable {o : Surroundings ε} {t : Nat} {w w' : World ε}

theorem ofStore_attempt {α : Type} {m : Method} {op : Store → Except Failure α × Store}
    (hop : ∀ s e, (op s).1 = .error e → e.OfStore) {e : Failure}
    (h : (w.attempt m op).1 = .error e) : e.OfStore := by
  unfold World.attempt at h
  split at h
  · next f hf =>
    -- a failure that is planned is one of the store too
    unfold Faults.next at hf
    split at hf
    · cases hf
      exact ⟨_, (Except.error.inj h).symm⟩
    · cases hf
  · exact hop _ _ h

theorem ofStore_answer {e : Effect} {x : e.Answer} (h : w.answer o t e = (some x, w')) :
    Exchange.OfStore ⟨e, x⟩ := by
  cases e with
  | findContext n =>
    cases x with
    | error f =>
      exact ofStore_attempt (fun _ _ => Store.ofStore_findContext)
        (congrArg Prod.fst (answered_findContext h))
    | ok c => trivial
  | findSession k =>
    cases x with
    | error f =>
      exact ofStore_attempt (fun _ _ => Store.ofStore_findSession)
        (congrArg Prod.fst (answered_findSession h))
    | ok c => trivial
  | saveSession y =>
    cases x with
    | error f =>
      exact ofStore_attempt (fun _ _ => Store.ofStore_saveSession)
        (congrArg Prod.fst (answered_saveSession h))
    | ok c => trivial
  | _ => trivial

theorem ofStore_answers {log : List Exchange} (h : w.Answers o t log w') :
    ∀ x ∈ log, x.OfStore := by
  induction log generalizing w with
  | nil => exact fun x hx => nomatch hx
  | cons y log ih =>
    obtain ⟨w₁, hy, hlog⟩ := h
    intro x hx
    rcases List.mem_cons.mp hx with rfl | hx
    · exact ofStore_answer hy
    · exact ih hlog x hx

end

/-! ## Replies -/

namespace Reply

inductive Excluded : Reply → Prop
  | noSessionId : Excluded Service.noSessionId
  | wrongSyntax (language : String) : Excluded (Service.wrongSyntax language)
  | domain (rest : String) : Excluded (.error ("Internal error: Domain error: " ++ rest))

/-- What the excluded replies begin with. -/
def excludedHeads : List String :=
  ["Request needs a session but carries no session id", "Request for '",
    "Internal error: Domain error: "]

theorem Excluded.head {content : String} (h : Excluded (.error content)) :
    ∃ d ∈ excludedHeads, d.toList <+: content.toList := by
  generalize ha : Reply.error content = a at h
  cases h with
  | noSessionId =>
    cases ha
    exact ⟨_, List.mem_cons_self, List.prefix_rfl⟩
  | wrongSyntax language =>
    cases ha
    refine ⟨"Request for '", by decide, ?_⟩
    rw [String.append_assoc, String.toList_append]
    exact List.prefix_append _ _
  | domain rest =>
    cases ha
    refine ⟨"Internal error: Domain error: ", by decide, ?_⟩
    rw [String.toList_append]
    exact List.prefix_append _ _

theorem not_excluded_ok (content : String) : ¬ Excluded (.ok content) := by
  generalize ha : Reply.ok content = a
  intro h
  cases h <;> exact error_ne_ok _ _ ha.symm

/-- A beginning that is at odds with those of the excluded replies tells a reply from them. -/
theorem not_excluded_error {head : String}
    (hhead : ∀ d ∈ excludedHeads, ¬ d.toList <+: head.toList ∧ ¬ head.toList <+: d.toList)
    (rest : String) : ¬ Excluded (.error (head ++ rest)) := by
  intro h
  obtain ⟨d, hd, hprefix⟩ := h.head
  rw [String.toList_append] at hprefix
  rcases List.prefix_or_prefix_of_prefix hprefix (List.prefix_append _ _) with h | h
  · exact (hhead d hd).1 h
  · exact (hhead d hd).2 h

end Reply

open Reply (not_excluded_error)

theorem not_excluded_internalError {e : Failure} (he : e.OfStore) :
    ¬ (Service.internalError e).Excluded := by
  obtain ⟨reason, rfl⟩ := he
  have hmessage : (Failure.database reason).message = "Database error: " ++ reason := rfl
  rw [Service.internalError, hmessage, ← String.append_assoc]
  exact not_excluded_error (by decide) _

theorem not_excluded_noInterpreter (language : String) :
    ¬ (Service.noInterpreter language).Excluded := by
  rw [Service.noInterpreter, String.append_assoc]
  exact not_excluded_error (by decide) _

theorem not_excluded_noHandler (language : String) : ¬ (Service.noHandler language).Excluded := by
  rw [Service.noHandler, String.append_assoc]
  exact not_excluded_error (by decide) _

theorem not_excluded_rejected (pattern : String) : ¬ (Service.rejected pattern).Excluded := by
  rw [Service.rejected, String.append_assoc]
  exact not_excluded_error (by decide) _

theorem not_excluded_ofOutcome (x : Outcome) : ¬ (Interpretation.ofOutcome x).reply.Excluded := by
  have hexecution (rest : String) :
      ¬ (Interpretation.failed (Interpretation.executionError ++ rest)).reply.Excluded :=
    not_excluded_error (by decide) rest
  unfold Interpretation.ofOutcome
  rcases x with (ms | reason | reason) | f
  · dsimp only
    rw [String.append_assoc, String.append_assoc]
    exact hexecution _
  · exact not_excluded_error (by decide) _
  · exact not_excluded_error (by decide) _
  · dsimp only
    split
    · exact Reply.not_excluded_ok _
    · split
      · exact hexecution _
      · rw [String.append_assoc, String.append_assoc]
        exact hexecution _

/-! ## Requests -/

/-- A request is no failed attempt to read one, and names the session that it needs. -/
structure Request.Sound (r : Request) : Prop where
  read : r.status ≠ .wrongSyntax
  named : r.status = .good ∨ r.status = .noSessionId → r.sessionId.isSome

/-- Only a language without an interpreter is left to refuse a sound request for. -/
theorem Request.Sound.refusal? {r : Request} (hr : r.Sound) {a : Reply} (ha : r.refusal? = some a) :
    a = Service.noInterpreter r.language := by
  unfold Request.refusal? at ha
  split at ha
  · cases ha
  · next hs =>
    rw [if_pos (hr.named (.inl hs))] at ha
    cases ha
  · next hs =>
    rw [if_pos (hr.named (.inr hs))] at ha
    cases ha
  · exact (Option.some.inj ha).symm
  · next hs => exact absurd hs hr.read

theorem sound_of_refusal? {r : Request} (hr : r.refusal? = none) : r.Sound := by
  unfold Request.refusal? at hr
  refine ⟨fun hs => ?_, fun hs => ?_⟩
  · rw [hs] at hr
    cases hr
  · by_contra hid
    rcases hs with hs | hs <;> rw [hs] at hr <;> simp [hid] at hr

namespace Way

variable {s : Service} {c : Context} {k : SessionKey} {r : Request} {log : List Exchange}

theorem Classified.sound {raw : String} {field : Option String} {q : Request}
    (h : Classified s raw field log (some q)) : q.Sound := by
  cases h with
  | unread hp e => exact sound_of_refusal? (refusal?_of_classify hp)
  | unknown hp => exact ⟨nofun, nofun⟩
  | alone hp c ht => exact sound_of_refusal? (refusal?_of_classify hp)
  | unconfirmed hp c ht e => exact sound_of_refusal? (refusal?_of_classify hp)
  | confirmed hp c ht x =>
    refine sound_of_refusal? ?_
    rw [refusal?_confirm]
    exact refusal?_of_classify hp

/-- A failure to open a session is in the log. -/
theorem Opened.ofStore {e : Failure} (h : Opened k log (.error e)) (hlog : ∀ x ∈ log, x.OfStore) :
    e.OfStore := by
  cases h with
  | unread e => exact hlog _ List.mem_cons_self
  | unmade e => exact hlog _ (List.mem_cons_of_mem _ List.mem_cons_self)

theorem InSession.ofStore {x : Session} {code : String} {e : Failure}
    (h : InSession s c x code log (.error e)) (hlog : ∀ x ∈ log, x.OfStore) : e.OfStore := by
  cases h with
  | lost hi hq e => exact hlog _ (List.mem_append_right _ List.mem_cons_self)

/-- Whatever the status of a request is, the status itself is never what a call fails for. -/
theorem Dispatched.ofStore {e : Failure} {r' : Request} (h : Dispatched s r log (.error e, r'))
    (hlog : ∀ x ∈ log, x.OfStore) : e.OfStore := by
  cases h with
  | unread e => exact hlog _ List.mem_cons_self
  | locked c ht hl =>
    simp only [List.forall_mem_cons, List.forall_mem_append] at hlog
    obtain ⟨-, -, hinner, -⟩ := hlog
    cases hl with
    | unopened ho => exact ho.ofStore hinner
    | opened ho hi => exact hi.ofStore fun x hx => hinner x (List.mem_append_right _ hx)

theorem Interpreted.not_excluded {history : Option (List String)} {code : String}
    {i : Option Interpretation} (h : Interpreted s c history code log i) :
    ¬ ((i.map (·.reply)).getD (Service.noHandler c.name)).Excluded := by
  cases h with
  | absent => exact not_excluded_noHandler _
  | ran handler x => exact not_excluded_ofOutcome x

theorem InSession.not_excluded {x : Session} {code : String} {a : Reply}
    (h : InSession s c x code log (.ok a)) : ¬ a.Excluded := by
  cases h with
  | absent hi => exact hi.not_excluded
  | shown hi hq => exact hi.not_excluded
  | kept hi hq => exact hi.not_excluded

theorem Dispatched.not_excluded {a : Reply} {r' : Request} (h : Dispatched s r log (.ok a, r'))
    (hr : r.Sound) : ¬ a.Excluded := by
  cases h with
  | unknown => exact not_excluded_noInterpreter _
  | refused c ha =>
    rw [hr.refusal? ha]
    exact not_excluded_noInterpreter _
  | alone c hs hi => exact hi.not_excluded
  | locked c ht hl =>
    cases hl with
    | opened ho hi => exact hi.not_excluded

theorem Executed.not_excluded {raw : String} {field : Option String} {a : Reply}
    (h : Executed s raw field log a) (hlog : ∀ x ∈ log, x.OfStore) : ¬ a.Excluded := by
  cases h with
  | rejected hp => exact not_excluded_rejected _
  | @ran r log log' b hc hd =>
    obtain ⟨b, r'⟩ := b
    cases b with
    | error e =>
      exact not_excluded_internalError (hd.ofStore fun x hx => hlog x (List.mem_append_right _ hx))
    | ok a => exact hd.not_excluded hc.sound

end Way

/-! ## Promotions -/

/-- What is done while the lock of a session is held, with another way to promote a request. -/
def Service.interpretLockedBy (promote : Request → Except InvalidTransition Request) (s : Service)
    (c : Context) (k : SessionKey) (r : Request) : Program (Except Failure Reply × Request) := do
  match ← openSession k with
  | .error e => return (.error e, r)
  | .ok session =>
    if r.isNewSession then
      match promote r with
      | .error t => return (.error (.domain t), r)
      | .ok r => return (← s.interpretIn c session r, r)
    else return (← s.interpretIn c session r, r)

/-- Requests are promoted in one place, and there only from the status of an unknown session. -/
theorem interpretLockedBy_eq {promote : Request → Except InvalidTransition Request}
    (hpromote : ∀ r : Request, r.status = .noSessionId → promote r = r.promote) (s : Service)
    (c : Context) (k : SessionKey) (r : Request) :
    s.interpretLockedBy promote c k r = s.interpretLocked c k r := by
  simp only [Service.interpretLockedBy, Service.interpretLocked]
  congr 1
  funext x
  cases x with
  | error e => rfl
  | ok x =>
    by_cases hn : r.isNewSession
    · dsimp only
      rewrite [if_pos hn, if_pos hn, hpromote r (of_decide_eq_true hn)]
      rfl
    · simp only [if_neg hn]

/-- Whatever the effects of executing a cell are answered, as long as it is the store that fails if one
fails, the reply is none of the excluded ones; in any world the cell gets a reply, and failures are
those of the store. What is classified has been read and names the session that it needs, so that
running it is never refused for the lack of one. For no request at all, however it has been made, does
running it fail for its status, and what promoting a request would come to for any other status than
that of an unknown session makes no difference. -/
theorem never_excluded (s : Service) :
    (∀ (raw : String) (field : Option String) (log : List Exchange) (a : Reply),
      (s.execute raw field).Ends log a → (∀ x ∈ log, x.OfStore) → ¬ a.Excluded) ∧
    (∀ (raw : String) (field : Option String) (o : Surroundings ε) (t : Nat) (w : World ε),
      w.locks.Unused → ∃ a log w', (s.execute raw field).exec o t w = (some a, w') ∧
        (s.execute raw field).Ends log a ∧ (∀ x ∈ log, x.OfStore) ∧ ¬ a.Excluded) ∧
    (∀ (raw : String) (field : Option String) (log : List Exchange) (r : Request),
      (s.classify raw field).Ends log (some r) → r.status ≠ .wrongSyntax ∧
        (r.status = .good ∨ r.status = .noSessionId → r.sessionId.isSome)) ∧
    (∀ (r : Request) (log : List Exchange) (e : Failure) (r' : Request),
      (s.tryDispatch r).Ends log (.error e, r') → (∀ x ∈ log, x.OfStore) →
        ∀ t, e ≠ .domain t) ∧
    (∀ promote : Request → Except InvalidTransition Request,
      (∀ r : Request, r.status = .noSessionId → promote r = r.promote) →
        ∀ (c : Context) (k : SessionKey) (r : Request),
          s.interpretLockedBy promote c k r = s.interpretLocked c k r) := by
  refine ⟨fun raw field log a h hlog => (Way.ends_execute h).not_excluded hlog,
    fun raw field o t w hl => ?_, fun raw field log r h => ?_, fun r log e r' h hlog t he => ?_,
    fun promote hpromote => interpretLockedBy_eq hpromote s⟩
  · obtain ⟨a, w', he, -⟩ := Course.exec_execute o t s raw field hl
    obtain ⟨log, hends, hanswers⟩ := exec_ends he
    have hlog := ofStore_answers hanswers
    exact ⟨a, log, w', he, hends, hlog, (Way.ends_execute hends).not_excluded hlog⟩
  · have hsound := (Way.ends_classify h).sound
    exact ⟨hsound.read, hsound.named⟩
  · obtain ⟨reason, hreason⟩ := (Way.ends_tryDispatch h).ofStore hlog
    rw [he] at hreason
    cases hreason

/-- The session cannot be looked for while the cell is classified, and cannot be made afterwards. -/
theorem never_excluded_failing :
    let w : World Unit := { pairWorld with faults := ⟨[(.findSession, 0), (.saveSession, 0)], .empty⟩ }
    let cell : String × Option String := ("%shell a=1", some "1")
    w.locks.Unused ∧ ∃ a log w', (pairService.execute cell.1 cell.2).exec silent 0 w = (some a, w') ∧
      a = Service.internalError (.database "save_session failed at call 0") ∧
      (pairService.execute cell.1 cell.2).Ends log a ∧ (∀ x ∈ log, x.OfStore) ∧ ¬ a.Excluded := by
  intro w cell
  obtain ⟨hnever, hruns, -⟩ := never_excluded (ε := Unit) pairService
  obtain ⟨a, log, w', he, hends, hlog, -⟩ := hruns cell.1 cell.2 silent 0 w rfl
  have ha : ((pairService.execute cell.1 cell.2).exec silent 0 w).1 =
      some (Service.internalError (.database "save_session failed at call 0")) := by
    decide +kernel
  rw [he] at ha
  exact ⟨rfl, a, log, w', he, Option.some.inj ha, hends, hlog, hnever _ _ _ _ hends hlog⟩

end CellReplay
