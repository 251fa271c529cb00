import CellReplay.Proofs.Service.Courses
import CellReplay.Proofs.Store.Lookup

/-!
# Proofs.Service.History

What calls do to the histories of the sessions, whatever the store refuses and whatever the programs
come to: a call adds its code to the history of its session if its reply is an empty result, and does
nothing else to any history.

* `ServiceCall`, `ServiceAnswer`, `Service.serveAll` — calls one after the other.
* `Records`          — what has been added to the histories between two stores.
* `records_serve`    — one call.
* `history_serveAll` — any number of calls.
-/

namespace CellReplay

variable {ε : Type}

inductive ServiceCall
  | classify (raw : String) (field : Option String)
  | dispatch (r : Request)
  | execute (raw : String) (field : Option String)
  deriving DecidableEq, Repr

inductive ServiceAnswer
  | classified (r : Option Request)
  | dispatched (reply : Reply) (r : Request)
  | executed (reply : Reply)
  deriving DecidableEq, Repr

def ServiceAnswer.reply? : ServiceAnswer → Option Reply
  | classified _ => none
  | dispatched reply _ => some reply
  | executed reply => some reply

namespace Service

open Program

def serve (s : Service) : ServiceCall → Program ServiceAnswer
  | .classify raw field => do return .classified (← s.classify raw field)
  | .dispatch r => do
    let (reply, r) ← s.dispatch r
    return .dispatched reply r
  | .execute raw field => do return .executed (← s.execute raw field)

/-- The calls one after the other, each with the world to itself. -/
def serveAll (o : Surroundings ε) (s : Service) :
    List ServiceCall → World ε → List (Option ServiceAnswer) × World ε
  | [], w => ([], w)
  | c :: cs, w =>
    let (a, w) := (s.serve c).exec o 0 w
    let (as, w) := s.serveAll o cs w
    (a :: as, w)

/-- The request that a call runs. -/
def requestOf (s : Service) : ServiceCall → Option Request
  | .classify _ _ => none
  | .dispatch r => some r
  | .execute raw field => s.classifier.classify raw field

/-- The code that a call adds to the history of a session when it is answered like this. -/
def addition (s : Service) (k : SessionKey) (c : ServiceCall) (a : ServiceAnswer) : List String :=
  match s.requestOf c with
  | none => []
  | some r =>
    if r.target? = some k.id ∧ r.language = k.context ∧ a.reply? = some (.ok "") then [r.code]
    else []

def additions (s : Service) (k : SessionKey) (cs : List ServiceCall) (as : List ServiceAnswer) :
    List String :=
  ((cs.zip as).map fun (c, a) => s.addition k c a).flatten

end Service

/-! ## One call -/

/-- Between two stores, `added` has been put behind the history of each session. -/
structure Records (s t : Store) (added : SessionKey → List String) : Prop where
  keyed : t.Keyed
  history : ∀ k, t.history k = s.history k ++ added k

theorem records_refl {s : Store} (hs : s.Keyed) : Records s s fun _ => [] :=
  ⟨hs, fun _ => (List.append_nil _).symm⟩

theorem Records.trans {s t u : Store} {f g : SessionKey → List String} (h₁ : Records s t f)
    (h₂ : Records t u g) : Records s u fun k => f k ++ g k :=
  ⟨h₂.keyed, fun k => by rw [h₂.history, h₁.history, List.append_assoc]⟩

theorem Interpretation.quiet_ofOutcome_iff (o : Outcome) :
    (ofOutcome o).Quiet ↔ (ofOutcome o).reply = .ok "" := by
  rw [Quiet, completed_iff_isOk, Bool.and_eq_true, String.isEmpty_iff, Reply.isOk,
    decide_eq_true_eq]
  constructor
  · rintro ⟨hk, hc⟩
    rw [Reply.ok, ← hk, ← hc]
  · intro h
    rw [h]
    exact ⟨rfl, rfl⟩

theorem Reply.error_ne_ok (c d : String) : Reply.error c ≠ .ok d :=
  fun h => nomatch congrArg Reply.kind h

theorem Request.refusal?_eq_error {r : Request} {a : Reply} (h : r.refusal? = some a) :
    ∃ e, a = .error e := by
  unfold refusal? at h
  split at h
  · cases h
  · split at h <;> cases h; exact ⟨_, rfl⟩
  · split at h <;> cases h; exact ⟨_, rfl⟩
  · cases h; exact ⟨_, rfl⟩
  · cases h; exact ⟨_, rfl⟩

namespace Course

variable {o : Surroundings ε} {s : Service} {w w' : World ε}

theorem Opened.records {k : SessionKey} {a : Except Failure Session} (h : Opened k w a w')
    (hw : w.store.Keyed) : Records w.store w'.store fun _ => [] := by
  cases h with
  | unread hf => rw [World.store_tryFind hf]; exact records_refl hw
  | found hf => rw [World.store_tryFind hf]; exact records_refl hw
  | unmade hf hs =>
    rw [World.trySave_error hs, World.store_tryFind hf]
    exact records_refl hw
  | made hf hs =>
    have hnone := Store.history_of_findSession_none (World.tryFind_ok hf)
    have hsave := World.trySave_ok hs
    rw [World.store_tryFind hf] at hsave
    refine ⟨Store.keyed_saveSession hw hsave, fun k' => ?_⟩
    rw [Store.history_saveSession hw hsave, List.append_nil]
    -- the new session has no history, and neither had the missing one
    split
    · rename_i hk
      rw [hk]
      exact hnone.symm
    · rfl

/-- The session that has been opened is the one in the store. -/
theorem Opened.history_eq {k : SessionKey} {x : Session} (h : Opened k w (.ok x) w')
    (hw : w.store.Keyed) : x.key = k ∧ x.history = w'.store.history k := by
  cases h with
  | found hf =>
    rw [World.store_tryFind hf, Store.history_of_findSession (World.tryFind_ok hf)]
    exact ⟨Store.findSession_key (World.tryFind_ok hf), rfl⟩
  | made hf hs =>
    have hsave := World.trySave_ok hs
    rw [World.store_tryFind hf] at hsave
    refine ⟨rfl, ?_⟩
    rw [Store.history_saveSession hw hsave]
    exact (if_pos rfl).symm

theorem Interpreted.store_eq {c : Context} {history : Option (List String)} {code : String}
    {a : Option Interpretation} (h : Interpreted o s c history code w a w') :
    w'.store = w.store := by
  cases h <;> rfl

theorem Interpreted.ofOutcome {c : Context} {history : Option (List String)} {code : String}
    {i : Interpretation} (h : Interpreted o s c history code w (some i) w') :
    ∃ r, i = .ofOutcome r := by
  cases h with
  | ran _ => exact ⟨_, rfl⟩

theorem InSession.records {c : Context} {x : Session} {code : String} {a : Except Failure Reply}
    (h : InSession o s c x code w a w') (hw : w.store.Keyed)
    (hx : x.history = w.store.history x.key) :
    Records w.store w'.store fun k => if k = x.key ∧ replyOf a = .ok "" then [code] else [] := by
  have hnothing {a : Except Failure Reply} (ha : replyOf a ≠ .ok "") :
      Records w.store w.store fun k => if k = x.key ∧ replyOf a = .ok "" then [code] else [] := by
    refine ⟨hw, fun k => ?_⟩
    rw [if_neg fun h => ha h.2, List.append_nil]
  cases h with
  | absent hi => rw [hi.store_eq]; exact hnothing (Reply.error_ne_ok _ _)
  | @shown i _ hi hq =>
    obtain ⟨r, rfl⟩ := hi.ofOutcome
    rw [hi.store_eq]
    exact hnothing fun h => hq ((Interpretation.quiet_ofOutcome_iff r).mpr h)
  | lost hi _ hs =>
    rw [World.trySave_error hs, hi.store_eq]
    exact hnothing (Reply.error_ne_ok _ _)
  | @kept i _ _ hi hq hs =>
    obtain ⟨r, rfl⟩ := hi.ofOutcome
    have hreply := (Interpretation.quiet_ofOutcome_iff r).mp hq
    have hsave := World.trySave_ok hs
    rw [hi.store_eq] at hsave
    refine ⟨Store.keyed_saveSession hw hsave, fun k => ?_⟩
    rw [Store.history_saveSession hw hsave, Session.key_append]
    by_cases hk : k = x.key
    · rw [if_pos hk, if_pos ⟨hk, hreply⟩, hk, ← hx]
      rfl
    · rw [if_neg hk, if_neg fun h => hk h.1, List.append_nil]

theorem Locked.records {c : Context} {k₀ : SessionKey} {r : Request}
    {a : Except Failure Reply × Request} (h : Locked o s c k₀ r w a w') (hw : w.store.Keyed) :
    Records w.store w'.store fun k =>
      if k = k₀ ∧ replyOf a.1 = .ok "" then [r.code] else [] := by
  cases h with
  | unopened ho =>
    refine ⟨(ho.records hw).keyed, fun k => ?_⟩
    rw [if_neg fun h => Reply.error_ne_ok _ _ h.2]
    exact (ho.records hw).history k
  | opened ho hi =>
    have h₁ := ho.records hw
    obtain ⟨hk, hx⟩ := ho.history_eq hw
    rw [← hk] at hx ⊢
    exact h₁.trans (hi.records h₁.keyed hx)

theorem Dispatched.records {r : Request} {a : Except Failure Reply × Request}
    (h : Dispatched o s r w a w') (hw : w.store.Keyed) :
    Records w.store w'.store fun k =>
      if r.target? = some k.id ∧ r.language = k.context ∧ replyOf a.1 = .ok "" then [r.code]
      else [] := by
  have hnothing {w₁ : World ε} {P : SessionKey → Prop} [∀ k, Decidable (P k)]
      (hs : w₁.store = w.store) (hP : ∀ k, ¬ P k) :
      Records w.store w₁.store fun k => if P k then [r.code] else [] := by
    rw [hs]
    refine ⟨hw, fun k => ?_⟩
    rw [if_neg (hP k), List.append_nil]
  cases h with
  | unread hc =>
    exact hnothing (World.store_tryContext hc) fun _ h => Reply.error_ne_ok _ _ h.2.2
  | unknown hc =>
    exact hnothing (World.store_tryContext hc) fun _ h => Reply.error_ne_ok _ _ h.2.2
  | refused hc hr =>
    refine hnothing (World.store_tryContext hc) fun _ h => ?_
    obtain ⟨e, rfl⟩ := Request.refusal?_eq_error hr
    exact Reply.error_ne_ok _ _ h.2.2
  | alone hc hs hi =>
    refine hnothing (hi.store_eq.trans (World.store_tryContext hc)) fun _ h => ?_
    rw [Request.target?, Request.needsSession, hs] at h
    cases h.1
  | @locked c i _ _ _ _ _ hc ht hl _ =>
    have hname := Store.findContext_name hw (World.tryContext_ok hc)
    have hstore := World.store_tryContext hc
    have hrec := hl.records (by simpa only [hstore] using hw)
    rw [hstore] at hrec
    refine ⟨hrec.keyed, fun k => ?_⟩
    rw [hrec.history k, ht, ← hname]
    congr 2
    rw [← and_assoc, eq_iff_iff]
    refine and_congr_left fun _ => ?_
    constructor
    · rintro rfl; exact ⟨rfl, rfl⟩
    · rintro ⟨hi, hc⟩
      cases hi
      rw [hc]

theorem Dispatched.of_noInterpreter {r : Request} {a : Except Failure Reply × Request}
    (h : Dispatched o s r w a w') (hr : r.status = .noInterpreterFound) :
    (∃ e, replyOf a.1 = .error e) ∧ World.Attempted w w' := by
  cases h with
  | unread hc => exact ⟨⟨_, rfl⟩, World.attempted_tryContext hc⟩
  | unknown hc => exact ⟨⟨_, rfl⟩, World.attempted_tryContext hc⟩
  | refused hc ha => exact ⟨Request.refusal?_eq_error ha, World.attempted_tryContext hc⟩
  | alone _ hs _ => rw [hr] at hs; cases hs
  | locked _ ht _ _ => rw [Request.target?, Request.needsSession, hr] at ht; cases ht

/-- Classification keeps the session that a request asks for, or finds that it cannot be run. -/
theorem Classified.request {raw : String} {field : Option String} {r' : Request}
    (h : Classified s raw field w (some r') w') :
    ∃ r, s.classifier.classify raw field = some r ∧ r'.code = r.code ∧ r'.language = r.language ∧
      (r'.target? = r.target? ∨ r'.target? = none ∧ r'.status = .noInterpreterFound) := by
  cases h with
  | unread hp _ => exact ⟨_, hp, rfl, rfl, .inl rfl⟩
  | unknown hp _ => exact ⟨_, hp, rfl, rfl, .inr ⟨rfl, rfl⟩⟩
  | alone hp _ _ => exact ⟨_, hp, rfl, rfl, .inl rfl⟩
  | unconfirmed hp _ _ _ => exact ⟨_, hp, rfl, rfl, .inl rfl⟩
  | confirmed hp _ _ _ =>
    exact ⟨_, hp, Request.confirm_code _ _, Request.confirm_language _ _,
      .inl (Request.target?_confirm _ _)⟩

theorem Executed.records {raw : String} {field : Option String} {a : Reply}
    (h : Executed o s raw field w a w') (hw : w.store.Keyed) :
    Records w.store w'.store fun k => s.addition k (.execute raw field) (.executed a) := by
  cases h with
  | rejected hc =>
    rw [hc.store_eq]
    refine ⟨hw, fun k => ?_⟩
    cases hc with
    | rejected hp => simp only [Service.addition, Service.requestOf, hp, List.append_nil]
  | @ran r' _ _ _ hc hd =>
    obtain ⟨r, hp, hcode, hlang, htarget⟩ := hc.request
    have hrec := hd.records (by rwa [hc.store_eq])
    rw [hc.store_eq] at hrec
    refine ⟨hrec.keyed, fun k => ?_⟩
    rw [hrec.history k]
    simp only [Service.addition, Service.requestOf, hp, ServiceAnswer.reply?, Option.some_inj, hcode,
      hlang]
    rcases htarget with ht | ⟨ht, hs⟩
    · rw [ht]
    · obtain ⟨e, he⟩ := (hd.of_noInterpreter hs).1
      rw [he, if_neg fun h => Reply.error_ne_ok _ _ h.2.2, if_neg fun h => Reply.error_ne_ok _ _ h.2.2]

end Course

theorem records_serve (o : Surroundings ε) (s : Service) (c : ServiceCall) {w : World ε}
    (hw : w.store.Keyed) (hl : w.locks.Unused) :
    ∃ a w', (s.serve c).exec o 0 w = (some a, w') ∧ w'.locks.Unused ∧
      Records w.store w'.store fun k => s.addition k c a := by
  cases c with
  | classify raw field =>
    obtain ⟨a, w', he, hc⟩ := Course.exec_classify o 0 s raw field w
    refine ⟨.classified a, w', ?_, by rwa [hc.attempted.locks], ?_⟩
    · simp only [Service.serve, Program.bind_eq, Program.pure_eq]
      rw [Program.exec_bind, he]
      rfl
    · rw [hc.store_eq]
      exact records_refl hw
  | dispatch r =>
    obtain ⟨a, w', he, hd⟩ := Course.exec_dispatch o 0 s r hl
    refine ⟨.dispatched (Course.replyOf a.1) a.2, w', ?_, hd.unused hl, ?_⟩
    · simp only [Service.serve, Program.bind_eq, Program.pure_eq]
      rw [Program.exec_bind, he]
      rfl
    · simpa only [Service.addition, Service.requestOf, ServiceAnswer.reply?, Option.some_inj] using
        hd.records hw
  | execute raw field =>
    obtain ⟨a, w', he, hx⟩ := Course.exec_execute o 0 s raw field hl
    refine ⟨.executed a, w', ?_, hx.unused hl, hx.records hw⟩
    simp only [Service.serve, Program.bind_eq, Program.pure_eq]
    rw [Program.exec_bind, he]
    rfl

/-! ## Runs -/

/-- After any number of calls the history of each session is the one that it had before, with the
code of those calls on that session behind it whose reply was an empty result. -/
theorem history_serveAll (o : Surroundings ε) (s : Service) (cs : List ServiceCall) {w : World ε}
    (hw : w.store.Keyed) (hl : w.locks.Unused) :
    ∃ as w', s.serveAll o cs w = (as.map some, w') ∧ as.length = cs.length ∧
      ∀ k, w'.store.history k = w.store.history k ++ s.additions k cs as := by
  induction cs generalizing w with
  | nil => exact ⟨[], w, rfl, rfl, fun k => (List.append_nil _).symm⟩
  | cons c cs ih =>
    obtain ⟨a, w₁, he, hl₁, h₁⟩ := records_serve o s c hw hl
    obtain ⟨as, w₂, hes, hlen, h₂⟩ := ih h₁.keyed hl₁
    refine ⟨a :: as, w₂, ?_, by rw [List.length_cons, List.length_cons, hlen], fun k => ?_⟩
    · simp only [Service.serveAll, he, hes, List.map_cons]
    · rw [h₂, h₁.history, List.append_assoc]
      rfl

def scripted : Surroundings (List Outcome) where
  isThere _ _ := true
  run
    | [], _ => (.ok ⟨some 0, ""⟩, [])
    | r :: rs, _ => (r, rs)

/-- A world with one context, in which the third save fails. -/
def scriptedWorld : World (List Outcome) :=
  .new (.memory (MemoryStore.empty.saveContext ⟨"shell", "/bin/sh"⟩)) Registry.builtin
    ⟨[(.saveSession, 2)], .empty⟩
    [.ok ⟨some 0, " \n"⟩, .ok ⟨some 0, ""⟩, .ok ⟨some 0, "3"⟩, .error (.timeout 5000),
      .ok ⟨some 0, ""⟩]

def scriptedKey : SessionKey := ⟨"shell", ⟨1, by decide, by decide⟩⟩

def scriptedCalls : List ServiceCall :=
  [("a=1", .noSessionId), ("b=2", .good), ("echo 3", .good), ("sleep 9", .good), ("c=3", .good),
    ("exit", .wrongSyntax)].map fun (code, status) =>
      .dispatch ⟨"shell", code, some scriptedKey.id, status⟩

theorem history_serveAll_scripted :
    let s : Service := ⟨⟨"", none⟩, .empty⟩
    scriptedWorld.store.Keyed ∧ scriptedWorld.locks.Unused ∧
      (s.serveAll scripted scriptedCalls scriptedWorld).2.store.history scriptedKey =
        ["a=1", "c=3"] := by
  intro s
  have hw : scriptedWorld.store.Keyed := MemoryStore.keyed_saveContext MemoryStore.keyed_empty _
  have hl : scriptedWorld.locks.Unused := rfl
  obtain ⟨as, w', he, -, hh⟩ := history_serveAll scripted s scriptedCalls hw hl
  refine ⟨hw, hl, ?_⟩
  have has : as = (s.serveAll scripted scriptedCalls scriptedWorld).1.filterMap id := by
    rw [he, List.filterMap_map]
    exact (List.filterMap_some).symm
  rw [he, hh, has]
  decide

end CellReplay
