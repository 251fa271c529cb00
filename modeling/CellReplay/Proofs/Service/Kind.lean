import CellReplay.Proofs.Service.Launch
import CellReplay.Proofs.Service.Serial
import CellReplay.Proofs.Service.Ways

/-!
# Proofs.Service.Kind

When executing a cell is answered by a result and when by an error, for any answers to the effects of
the call.

* `Way.Clean`     — on the way a program has been run, has ended with exit code 0 and has printed this.
* `Way.sessionIn` — the session that is worked in.
* `Way.Kept`      — the code has been saved behind it, if that is called for.
* `Way.Delivered` — what has to come together for a result.
* `Reply.Told`    — an error says something.
* `Way.Executed.delivered`, `Way.Executed.told` — both, part by part of a call.
* `result_iff_delivered` — a result is delivered output, and everything else an error that says something.
-/

namespace CellReplay

open Text (trimmed)

variable {ε : Type}

/-- The session that a lookup gives, which is a new one where there is none yet. -/
def Exchange.session? : Exchange → Option Session
  | ⟨.findSession k, .ok x⟩ => some (x.getD k.newSession)
  | _ => none

namespace Way

/-- A program has been run, has ended with exit code 0, and `output` is what it printed, trimmed. -/
def Clean (log : List Exchange) (output : String) : Prop :=
  ∃ call f, ⟨.run call, .ok f⟩ ∈ log ∧ f.exitCode = some 0 ∧ trimmed f.output = output

/-- The session that was looked at last. -/
def sessionIn (log : List Exchange) : Option Session := (log.filterMap Exchange.session?).getLast?

/-- The session that is worked in has been saved with a fragment behind its history. -/
def Kept (code : String) (log : List Exchange) : Prop :=
  ∃ x, sessionIn log = some x ∧ ⟨.saveSession (x.append code), .ok ()⟩ ∈ log

/-- Everything that has to be done for a request has been done, and `output` is left to be told. -/
structure Delivered (r : Request) (log : List Exchange) (output : String) : Prop where
  clean : Clean log output
  kept : r.target?.isSome → output = "" → Kept r.code log

variable {s : Service} {c : Context} {k : SessionKey} {r : Request} {log log' : List Exchange}
  {output : String}

theorem clean_append : Clean (log ++ log') output ↔ Clean log output ∨ Clean log' output := by
  simp only [Clean, List.mem_append, or_and_right, exists_or]

theorem not_clean (h : ∀ x ∈ log, ∀ call, x.asked ≠ .run call) : ¬ Clean log output := by
  rintro ⟨call, f, hmem, -⟩
  exact h _ hmem call rfl

/-! ## Results -/

theorem ofOutcome_eq_ok_iff (x : Outcome) :
    (Interpretation.ofOutcome x).reply = .ok output ↔
      ∃ f, x = .ok f ∧ f.exitCode = some 0 ∧ trimmed f.output = output := by
  have herror {content : String} (hx : (Interpretation.ofOutcome x).reply = .error content)
      (hno : ∀ f, x = .ok f → f.exitCode ≠ some 0) : (Interpretation.ofOutcome x).reply = .ok output ↔
        ∃ f, x = .ok f ∧ f.exitCode = some 0 ∧ trimmed f.output = output := by
    rw [hx]
    exact ⟨fun h => absurd h (Reply.error_ne_ok _ _), fun ⟨f, hf, hexit, _⟩ => absurd hexit (hno f hf)⟩
  rcases x with (ms | reason | reason) | f
  · exact herror rfl nofun
  · exact herror rfl nofun
  · exact herror rfl nofun
  · by_cases hf : f.exitCode = some 0
    · have hreply : (Interpretation.ofOutcome (.ok f)).reply = .ok (trimmed f.output) := by
        simp only [Interpretation.ofOutcome, Finished.success, hf, decide_true, if_true]
      rw [hreply]
      simp [Reply.ok, hf]
    · obtain ⟨content, hreply⟩ : ∃ content, (Interpretation.ofOutcome (.ok f)).reply = .error content := by
        simp only [Interpretation.ofOutcome, Finished.success, hf, decide_false, Bool.false_eq_true,
          if_false]
        split <;> exact ⟨_, rfl⟩
      exact herror hreply fun g hg => by cases hg; exact hf

theorem Interpreted.clean_iff {history : Option (List String)} {code : String}
    {i : Option Interpretation} (h : Interpreted s c history code log i) :
    Clean log output ↔ ∃ j, i = some j ∧ j.reply = .ok output := by
  cases h with
  | absent => simp [Clean]
  | ran handler x => simp [Clean, ofOutcome_eq_ok_iff, eq_comm (a := x)]

theorem Interpreted.not_saved {history : Option (List String)} {code : String}
    {i : Option Interpretation} (h : Interpreted s c history code log i) (x : Session) :
    ⟨.saveSession x, .ok ()⟩ ∉ log := by
  cases h <;> simp

theorem Interpreted.session? {history : Option (List String)} {code : String}
    {i : Option Interpretation} (h : Interpreted s c history code log i) :
    log.filterMap Exchange.session? = [] := by
  cases h <;> rfl

theorem Interpreted.quiet_iff {history : Option (List String)} {code : String} {i : Interpretation}
    (h : Interpreted s c history code log (some i)) : i.Quiet ↔ i.reply = .ok "" := by
  cases h with
  | ran handler x => exact Interpretation.quiet_ofOutcome_iff x

theorem clean_save (x : Session) (a : Except Failure Unit) :
    Clean (log ++ [⟨.saveSession x, a⟩]) output ↔ Clean log output := by
  rw [clean_append, or_iff_left]
  exact not_clean (by simp)

theorem InSession.delivered {x : Session} {code : String} {a : Except Failure Reply}
    (h : InSession s c x code log a) :
    Course.replyOf a = .ok output ↔
      Clean log output ∧ (output = "" → ⟨.saveSession (x.append code), .ok ()⟩ ∈ log) := by
  cases h with
  | absent hi =>
    rw [hi.clean_iff]
    exact ⟨fun h => absurd h (Reply.error_ne_ok _ _), fun ⟨⟨_, h, _⟩, _⟩ => nomatch h⟩
  | shown hi hq =>
    rw [hi.quiet_iff] at hq
    rw [hi.clean_iff]
    simp only [Option.some.injEq, exists_eq_left', Course.replyOf]
    refine ⟨fun h => ⟨h, fun hempty => absurd ?_ hq⟩, And.left⟩
    rw [h, hempty]
  | @lost log i hi hq e =>
    rw [hi.quiet_iff] at hq
    rw [clean_save, hi.clean_iff]
    simp only [Option.some.injEq, exists_eq_left', hq]
    refine ⟨fun h => absurd h (Reply.error_ne_ok _ _), fun ⟨hreply, hkept⟩ => ?_⟩
    have hsaved := hkept (congrArg Reply.content hreply).symm
    simp [hi.not_saved] at hsaved
  | @kept log i hi hq =>
    rw [hi.quiet_iff] at hq
    rw [clean_save, hi.clean_iff]
    simp only [Option.some.injEq, exists_eq_left', Course.replyOf]
    exact ⟨fun h => ⟨h, fun _ => by simp⟩, And.left⟩

theorem InSession.session? {x : Session} {code : String} {a : Except Failure Reply}
    (h : InSession s c x code log a) : log.filterMap Exchange.session? = [] := by
  cases h with
  | absent hi => exact hi.session?
  | shown hi _ => exact hi.session?
  | lost hi _ _ => simp [hi.session?, Exchange.session?]
  | kept hi _ => simp [hi.session?, Exchange.session?]

theorem Opened.session? {x : Session} (h : Opened k log (.ok x)) :
    log.filterMap Exchange.session? = [x] := by
  cases h <;> rfl

theorem Opened.not_clean {a : Except Failure Session} (h : Opened k log a) : ¬ Clean log output :=
  Way.not_clean (by cases h <;> simp)

/-- What is saved while a session is opened has no history yet. -/
theorem Opened.not_kept {a : Except Failure Session} (h : Opened k log a) (x : Session)
    (code : String) : ⟨.saveSession (x.append code), .ok ()⟩ ∉ log := by
  cases h <;> simp [Session.append, SessionKey.newSession]

theorem Locked.delivered {a : Except Failure Reply × Request} (h : Locked s c k r log a)
    (before : List Exchange) :
    Course.replyOf a.1 = .ok output ↔
      Clean log output ∧ (output = "" → ∃ x, sessionIn (before ++ log) = some x ∧
        ⟨.saveSession (x.append r.code), .ok ()⟩ ∈ log) := by
  cases h with
  | unopened ho =>
    exact ⟨fun h => absurd h (Reply.error_ne_ok _ _), fun h => absurd h.1 ho.not_clean⟩
  | @opened log log' x a ho hi =>
    have hsession : sessionIn (before ++ (log ++ log')) = some x := by
      rw [sessionIn, List.filterMap_append, List.filterMap_append, ho.session?, hi.session?,
        List.append_nil, List.getLast?_concat]
    rw [hi.delivered, clean_append, or_iff_right ho.not_clean, hsession]
    simp only [Option.some.injEq, exists_eq_left', List.mem_append, ho.not_kept, false_or]

theorem Dispatched.delivered {a : Except Failure Reply × Request} (h : Dispatched s r log a)
    (before : List Exchange) :
    Course.replyOf a.1 = .ok output ↔
      Clean log output ∧ (r.target?.isSome → output = "" →
        ∃ x, sessionIn (before ++ log) = some x ∧
          ⟨.saveSession (x.append r.code), .ok ()⟩ ∈ log) := by
  have herror {reply : Reply} {x : Exchange} (hreply : ∃ e, reply = .error e)
      (hx : ∀ call, x.asked ≠ .run call) {P : Prop} :
      reply = .ok output ↔ Clean [x] output ∧ P := by
    obtain ⟨e, rfl⟩ := hreply
    exact ⟨fun h => absurd h (Reply.error_ne_ok _ _), fun h => absurd h.1 (not_clean (by simpa using hx))⟩
  cases h with
  | unread e => exact herror ⟨_, rfl⟩ (by simp)
  | unknown => exact herror ⟨_, rfl⟩ (by simp)
  | refused c ha => exact herror (Request.refusal?_eq_error ha) (by simp)
  | @alone c log i hs hi =>
    have htarget : r.target? = none := by
      rw [Request.target?, Request.needsSession, hs]
      rfl
    rw [← List.singleton_append, clean_append, or_iff_right (not_clean (by simp)), hi.clean_iff,
      htarget]
    cases i <;> simp [Course.replyOf, Service.noHandler, Reply.error_ne_ok]
  | @locked c i log a ht hl =>
    -- neither the lookup of the context nor the lock makes a difference
    have hclean : Clean (⟨.findContext r.language, .ok (some c)⟩ :: ⟨.acquire ⟨c.name, i⟩, ()⟩ ::
        (log ++ [⟨.release ⟨c.name, i⟩, ()⟩])) output ↔ Clean log output := by
      simp [Clean]
    have hsession : sessionIn (before ++ (⟨.findContext r.language, .ok (some c)⟩ ::
        ⟨.acquire ⟨c.name, i⟩, ()⟩ :: (log ++ [⟨.release ⟨c.name, i⟩, ()⟩]))) =
        sessionIn (before ++ log) := by
      simp only [sessionIn, List.filterMap_append, List.filterMap_cons, List.filterMap_nil,
        Exchange.session?, List.append_nil]
    rw [hl.delivered before, hclean, hsession, ht]
    simp

theorem Classified.asked {raw : String} {field : Option String} {q : Option Request}
    (h : Classified s raw field log q) :
    ∀ x ∈ log, (∀ call, x.asked ≠ .run call) ∧ ∀ y, x.asked ≠ .saveSession y := by
  cases h <;> simp

/-- Classification keeps what a request asks for, or finds that it cannot be run. -/
theorem Classified.request {raw : String} {field : Option String} {q : Request}
    (h : Classified s raw field log (some q)) :
    ∃ r, s.classifier.classify raw field = some r ∧ q.code = r.code ∧ q.language = r.language ∧
      (q.target? = r.target? ∨ q.status = .noInterpreterFound) := by
  cases h with
  | unread hp _ => exact ⟨_, hp, rfl, rfl, .inl rfl⟩
  | unknown hp => exact ⟨_, hp, rfl, rfl, .inr rfl⟩
  | alone hp _ _ => exact ⟨_, hp, rfl, rfl, .inl rfl⟩
  | unconfirmed hp _ _ _ => exact ⟨_, hp, rfl, rfl, .inl rfl⟩
  | confirmed hp _ _ _ =>
    exact ⟨_, hp, Request.confirm_code _ _, Request.confirm_language _ _,
      .inl (Request.target?_confirm _ _)⟩

theorem Dispatched.of_noInterpreter {a : Except Failure Reply × Request}
    (h : Dispatched s r log a) (hr : r.status = .noInterpreterFound) :
    ¬ Clean log output := by
  cases h with
  | unread e => exact not_clean (by simp)
  | unknown => exact not_clean (by simp)
  | refused c ha => exact not_clean (by simp)
  | alone c hs hi =>
    rw [hr] at hs
    cases hs
  | locked c ht hl =>
    rw [Request.target?, Request.needsSession, hr] at ht
    cases ht

theorem Executed.delivered {raw : String} {field : Option String} {a : Reply}
    (h : Executed s raw field log a) :
    a = .ok output ↔ ∃ r, s.classifier.classify raw field = some r ∧ Delivered r log output := by
  cases h with
  | rejected hp =>
    rw [hp]
    exact ⟨fun h => absurd h (Reply.error_ne_ok _ _), fun ⟨_, h, _⟩ => nomatch h⟩
  | @ran q log log' a hc hd =>
    obtain ⟨r, hp, hcode, -, hrequest⟩ := hc.request
    have hclean : Clean (log ++ log') output ↔ Clean log' output := by
      rw [clean_append, or_iff_right (not_clean fun x hx => (hc.asked x hx).1)]
    have hkept (x : Session) : ⟨.saveSession (x.append r.code), .ok ()⟩ ∈ log ++ log' ↔
        ⟨.saveSession (x.append r.code), .ok ()⟩ ∈ log' := by
      rw [List.mem_append, or_iff_right fun hx => (hc.asked _ hx).2 _ rfl]
    rw [hd.delivered log, hcode]
    simp only [hp, Option.some.injEq, exists_eq_left']
    constructor
    · rintro ⟨h, hsaved⟩
      refine ⟨hclean.mpr h, fun htarget hempty => ?_⟩
      rcases hrequest with hsame | hstatus
      · obtain ⟨x, hx, hmem⟩ := hsaved (hsame ▸ htarget) hempty
        exact ⟨x, hx, (hkept x).mpr hmem⟩
      · exact absurd h (hd.of_noInterpreter hstatus)
    · rintro ⟨h, hsaved⟩
      refine ⟨hclean.mp h, fun htarget hempty => ?_⟩
      rcases hrequest with hsame | hstatus
      · obtain ⟨x, hx, hmem⟩ := hsaved (hsame ▸ htarget) hempty
        exact ⟨x, hx, (hkept x).mp hmem⟩
      · exact absurd (hclean.mp h) (hd.of_noInterpreter hstatus)

end Way

/-! ## Errors -/

/-- A reply that is an error says something. -/
def Reply.Told (a : Reply) : Prop := a.isError → a.content ≠ ""

theorem append_ne_empty {head : String} (h : head ≠ "") (rest : String) : head ++ rest ≠ "" := by
  intro hempty
  have hchars : head.toList ++ rest.toList = [] := by rw [← String.toList_append, hempty]; rfl
  exact h (String.toList_inj.mp (List.append_eq_nil_iff.mp hchars).1)

theorem told_internalError (e : Failure) : (Service.internalError e).Told :=
  fun _ => append_ne_empty (by decide) _

theorem told_noInterpreter (language : String) : (Service.noInterpreter language).Told :=
  fun _ => append_ne_empty (append_ne_empty (by decide) _) _

theorem told_noHandler (language : String) : (Service.noHandler language).Told :=
  fun _ => append_ne_empty (append_ne_empty (by decide) _) _

theorem told_rejected (pattern : String) : (Service.rejected pattern).Told :=
  fun _ => append_ne_empty (append_ne_empty (by decide) _) _

theorem told_refusal? {r : Request} {a : Reply} (h : r.refusal? = some a) : a.Told := by
  have hno : Service.noSessionId.Told := fun _ => by decide
  unfold Request.refusal? at h
  split at h
  · cases h
  · split at h <;> cases h
    exact hno
  · split at h <;> cases h
    exact hno
  · cases h
    exact told_noInterpreter _
  · cases h
    exact fun _ => append_ne_empty (append_ne_empty (by decide) _) _

theorem told_ofOutcome (x : Outcome) : (Interpretation.ofOutcome x).reply.Told := by
  intro herror
  unfold Interpretation.ofOutcome at herror ⊢
  rcases x with (ms | reason | reason) | f
  · exact append_ne_empty (append_ne_empty (append_ne_empty (by decide) _) _) _
  · exact append_ne_empty (by decide) _
  · exact append_ne_empty (by decide) _
  · simp only at herror ⊢
    split
    · next hf =>
      rw [if_pos hf] at herror
      cases herror
    · split
      · exact append_ne_empty (by decide) _
      · exact append_ne_empty (append_ne_empty (append_ne_empty (by decide) _) _) _

namespace Way

variable {s : Service} {c : Context} {k : SessionKey} {r : Request} {log : List Exchange}

theorem Interpreted.told {history : Option (List String)} {code : String}
    {i : Option Interpretation} (h : Interpreted s c history code log i) :
    ((i.map (·.reply)).getD (Service.noHandler c.name)).Told := by
  cases h with
  | absent => exact told_noHandler _
  | ran handler x => exact told_ofOutcome x

theorem InSession.told {x : Session} {code : String} {a : Except Failure Reply}
    (h : InSession s c x code log a) : (Course.replyOf a).Told := by
  cases h with
  | absent hi => exact hi.told
  | shown hi _ => exact hi.told
  | lost _ _ e => exact told_internalError e
  | kept hi _ => exact hi.told

theorem Dispatched.told {a : Except Failure Reply × Request} (h : Dispatched s r log a) :
    (Course.replyOf a.1).Told := by
  cases h with
  | unread e => exact told_internalError e
  | unknown => exact told_noInterpreter _
  | refused c ha => exact told_refusal? ha
  | alone c hs hi => exact hi.told
  | locked c ht hl =>
    cases hl with
    | unopened ho => exact told_internalError _
    | opened ho hi => exact hi.told

theorem Executed.told {raw : String} {field : Option String} {a : Reply}
    (h : Executed s raw field log a) : a.Told := by
  cases h with
  | rejected _ => exact told_rejected _
  | ran _ hd => exact hd.told

end Way

/-- However the effects of executing a cell are answered, the reply is a result exactly if a program has
been run for it, has ended with exit code 0 and, if the request asks for a session and nothing is left
of the output when it is trimmed, the session has been saved with the code behind it. The content is
the trimmed output then; every other reply is an error that says something, so an empty one tells that
a program has ended cleanly and has printed nothing. In any world a cell that is not kept waiting gets
such a reply. -/
theorem result_iff_delivered (s : Service) (raw : String) (field : Option String) :
    (∀ (log : List Exchange) (a : Reply), (s.execute raw field).Ends log a →
      let delivered (output : String) : Prop :=
        ∃ r, s.classifier.classify raw field = some r ∧ Way.Delivered r log output
      (a.isOk ↔ ∃ output, delivered output) ∧
        (∀ output, delivered output → a.content = output) ∧
        (¬ a.isOk → a.isError ∧ a.content ≠ "") ∧
        (a.content = "" → delivered "")) ∧
    (∀ (o : Surroundings ε) (t : Nat) (w : World ε), w.locks.Unused →
      ∃ a log w', (s.execute raw field).exec o t w = (some a, w') ∧
        (s.execute raw field).Ends log a ∧ w.Answers o t log w' ∧
        w'.calls = w.calls ++ log.flatMap (·.asked.calls)) := by
  constructor
  · intro log a h delivered
    have hexecuted := Way.ends_execute h
    have hiff (output : String) : a = .ok output ↔ delivered output := hexecuted.delivered
    have hok : a.isOk ↔ a = .ok a.content := by
      rw [Reply.isOk, decide_eq_true_eq]
      exact ⟨fun hk => by rw [Reply.ok, ← hk], fun hk => by rw [hk]; rfl⟩
    have herror (hno : ¬ a.isOk) : a.isError ∧ a.content ≠ "" := by
      have hkind : a.isError := by
        rw [Reply.isOk, decide_eq_true_eq] at hno
        rw [Reply.isError, decide_eq_true_eq]
        cases hk : a.kind with
        | result => exact absurd hk hno
        | error => rfl
      exact ⟨hkind, hexecuted.told hkind⟩
    refine ⟨⟨fun h => ⟨_, (hiff _).mp (hok.mp h)⟩, ?_⟩, fun output h => ?_, herror, fun hempty => ?_⟩
    · rintro ⟨output, h⟩
      rw [(hiff output).mpr h]
      rfl
    · rw [(hiff output).mpr h]
      rfl
    · by_cases hresult : a.isOk
      · rw [← hiff, ← hempty]
        exact hok.mp hresult
      · exact absurd hempty (herror hresult).2
  · intro o t w hl
    obtain ⟨a, w', he, -⟩ := Course.exec_execute o t s raw field hl
    obtain ⟨log, hends, hanswers⟩ := exec_ends he
    exact ⟨a, log, w', he, hends, hanswers, calls_of_answers hanswers⟩

/-- Nothing is printed, so the code is saved; where that fails, the reply is an error. -/
theorem result_iff_delivered_quiet :
    let cell := pairService.execute "%shell a=1" (some "1")
    let failing : World Unit := { pairWorld with faults := ⟨[(.saveSession, 1)], .empty⟩ }
    pairWorld.locks.Unused ∧ failing.locks.Unused ∧
      (∃ a log w', cell.exec silent 0 pairWorld = (some a, w') ∧ a = .ok "" ∧ cell.Ends log a ∧
        ∃ r, pairService.classifier.classify "%shell a=1" (some "1") = some r ∧
          Way.Delivered r log "") ∧
      ∃ a w', cell.exec silent 0 failing = (some a, w') ∧ a.isError ∧ a.content ≠ "" ∧
        w'.calls.length = 1 := by
  intro cell failing
  obtain ⟨hkind, hruns⟩ := result_iff_delivered pairService "%shell a=1" (some "1")
  obtain ⟨a, log, w', he, hends, -⟩ := hruns silent 0 pairWorld rfl
  obtain ⟨b, log', w₁, he', hends', -⟩ := hruns silent 0 failing rfl
  have ha : (cell.exec silent 0 pairWorld).1 = some (.ok "") := by decide +kernel
  have hb : (cell.exec silent 0 failing).1.map (·.isOk) = some false := by decide +kernel
  have hcalls : (cell.exec silent 0 failing).2.calls.length = 1 := by decide +kernel
  rw [he] at ha
  rw [he'] at hb hcalls
  cases ha
  have hno : ¬ b.isOk := Bool.eq_false_iff.mp (Option.some.inj hb)
  obtain ⟨herror, hcontent⟩ := (hkind log' b hends').2.2.1 hno
  exact ⟨rfl, rfl, ⟨_, log, w', he, rfl, hends, (hkind log _ hends).2.2.2 rfl⟩, b, w₁, he', herror,
    hcontent, hcalls⟩

end CellReplay
