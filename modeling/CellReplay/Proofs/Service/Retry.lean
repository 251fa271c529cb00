import CellReplay.Proofs.Service.Isolation
import CellReplay.Proofs.Service.Upshot

/-!
# Proofs.Service.Retry

A call that fails for the sake of the store can be made again.

* `error_ne_internalError` — no other reply reads like that of such a failure.
* `openSession_again`      — a session that has been opened is there when it is opened again.
* `Unfinished`             — what a call leaves behind that has failed.
* `Unfinished.upshot_eq`   — it comes to the same from there.
* `retried_after_failure`  — executing a cell again.
-/

namespace CellReplay

/-! ## Replies -/

section

variable {e : Failure}

/-- The first six characters are enough to tell a reply from that of a failure. -/
theorem error_ne_internalError {head : String}
    (hhead : ¬ head.toList.take 6 <+: "Internal error: ".toList) (rest : String) :
    Reply.error (head ++ rest) ≠ Service.internalError e := by
  intro h
  have hcontent : head ++ rest = "Internal error: " ++ e.message := congrArg Reply.content h
  have hchars : head.toList ++ rest.toList = "Internal error: ".toList ++ e.message.toList := by
    rw [← String.toList_append, ← String.toList_append, hcontent]
  have hbegins : head.toList.take 6 <+: "Internal error: ".toList ++ e.message.toList :=
    hchars ▸ (List.take_prefix 6 _).trans (List.prefix_append _ _)
  exact hhead (List.prefix_of_prefix_length_le hbegins (List.prefix_append _ _)
    ((List.length_take_le 6 _).trans (by decide)))

theorem noInterpreter_ne_internalError (language : String) :
    Service.noInterpreter language ≠ Service.internalError e := by
  rw [Service.noInterpreter, String.append_assoc]
  exact error_ne_internalError (by decide) _

theorem noHandler_ne_internalError (language : String) :
    Service.noHandler language ≠ Service.internalError e := by
  rw [Service.noHandler, String.append_assoc]
  exact error_ne_internalError (by decide) _

theorem rejected_ne_internalError (pattern : String) :
    Service.rejected pattern ≠ Service.internalError e := by
  rw [Service.rejected, String.append_assoc]
  exact error_ne_internalError (by decide) _

theorem refusal?_ne_internalError {r : Request} {a : Reply} (h : r.refusal? = some a) :
    a ≠ Service.internalError e := by
  have hno : Service.noSessionId ≠ Service.internalError e := by
    rw [Service.noSessionId,
      ← String.append_empty (s := "Request needs a session but carries no session id")]
    exact error_ne_internalError (by decide) _
  unfold Request.refusal? at h
  split at h
  · cases h
  · split at h <;> cases h
    exact hno
  · split at h <;> cases h
    exact hno
  · cases h
    exact noInterpreter_ne_internalError _
  · cases h
    rw [Service.wrongSyntax, String.append_assoc]
    exact error_ne_internalError (by decide) _

theorem reply_ne_internalError (x : Outcome) :
    (Interpretation.ofOutcome x).reply ≠ Service.internalError e := by
  have hexecution (rest : String) :
      (Interpretation.failed (Interpretation.executionError ++ rest)).reply ≠
        Service.internalError e := error_ne_internalError (by decide) rest
  unfold Interpretation.ofOutcome
  split
  · dsimp only
    split
    · exact fun h => Reply.error_ne_ok _ _ h.symm
    · split
      · exact hexecution _
      · rw [String.append_assoc, String.append_assoc]
        exact hexecution _
  · rw [String.append_assoc, String.append_assoc]
    exact hexecution _
  · exact error_ne_internalError (by decide) _

end

/-! ## Opening a session again -/

namespace Store

variable {st t : Store} {k : SessionKey} {x : Session}

theorem openSession_cases (h : st.openSession k = (.ok x, t)) :
    st.findSession k = .ok (some x) ∧ t = st ∨
      st.findSession k = .ok none ∧ x = k.newSession ∧ st.saveSession x = (.ok (), t) := by
  unfold openSession at h
  split at h
  · cases h
  · rename_i hfind
    cases h
    exact .inl ⟨hfind, rfl⟩
  · rename_i hfind
    split at h
    · cases h
    · rename_i hsave
      cases h
      exact .inr ⟨hfind, rfl, hsave⟩

theorem openSession_again (hst : st.Keyed) (h : st.openSession k = (.ok x, t)) :
    t.openSession k = (.ok x, t) := by
  have hfind : t.findSession k = .ok (some x) := by
    rcases openSession_cases h with ⟨hfind, rfl⟩ | ⟨-, rfl, hsave⟩
    · exact hfind
    · rw [findSession_saveSession hst hsave]
      exact if_pos rfl
  unfold openSession
  simp only [hfind]

theorem findContext_openSession (h : st.openSession k = (.ok x, t)) (n : String) :
    t.findContext n = st.findContext n := by
  rcases openSession_cases h with ⟨-, rfl⟩ | ⟨-, -, hsave⟩
  · rfl
  · exact findContext_saveSession hsave n

/-- Opening a session makes no difference to what is found, unless it has to be made. -/
theorem findSession_openSession (hst : st.Keyed) (h : st.openSession k = (.ok x, t))
    (k' : SessionKey) :
    t.findSession k' = st.findSession k' ∨
      k' = k ∧ st.findSession k' = .ok none ∧ t.findSession k' = .ok (some k'.newSession) := by
  rcases openSession_cases h with ⟨-, rfl⟩ | ⟨hfind, rfl, hsave⟩
  · exact .inl rfl
  · rw [findSession_saveSession hst hsave]
    by_cases hk : k' = k
    · subst hk
      exact .inr ⟨rfl, hfind, if_pos rfl⟩
    · exact .inl (if_neg hk)

end Store

/-! ## What a failure leaves behind -/

variable {ε : Type}

/-- Between two worlds a request has been run and has failed: either it has left everything as it was,
or it has opened the session it asks for, and the handler for it has been looked for. -/
inductive Unfinished (o : Surroundings ε) (r : Request) (w w' : World ε) : Prop
  | idle (hstore : w'.store = w.store) (hregistry : w'.registry = w.registry)
  | opened {c : Context} {i : SessionId} {x : Session}
      (hfound : w.store.findContext r.language = .ok (some c)) (htarget : r.target? = some i)
      (hopened : w.store.openSession ⟨c.name, i⟩ = (.ok x, w'.store))
      (hregistry : w'.registry = (w.registry.resolve (o.isThere w.outside) c).2)

section

variable {o : Surroundings ε} {s : Service} {r r' : Request} {w w₁ w' : World ε} {e : Failure}

namespace Course

theorem Interpreted.registry_eq {c : Context} {history : Option (List String)} {code : String}
    {i : Option Interpretation} (h : Interpreted o s c history code w i w') :
    w'.registry = (w.registry.resolve (o.isThere w.outside) c).2 := by
  cases h with
  | absent hr => rw [hr]
  | ran hr =>
    rw [hr]
    rfl

theorem InSession.ne_internalError {c : Context} {x : Session} {code : String} {a : Reply}
    (h : InSession o s c x code w (.ok a) w') : a ≠ Service.internalError e := by
  cases h with
  | absent _ => exact noHandler_ne_internalError _
  | shown hi _ =>
    cases hi
    exact reply_ne_internalError _
  | kept hi _ _ =>
    cases hi
    exact reply_ne_internalError _

/-- Only a failure of the store is told as an internal error. -/
theorem Dispatched.ne_internalError {a : Reply} (h : Dispatched o s r w (.ok a, r') w') :
    a ≠ Service.internalError e := by
  cases h with
  | unknown _ => exact noInterpreter_ne_internalError _
  | refused _ ha => exact refusal?_ne_internalError ha
  | alone _ _ hi =>
    cases hi with
    | absent _ => exact noHandler_ne_internalError _
    | ran _ => exact reply_ne_internalError _
  | locked _ _ hl _ =>
    cases hl with
    | opened _ hi => exact hi.ne_internalError

theorem Opened.store_eq {k : SessionKey} (h : Opened k w (.error e) w') : w'.store = w.store := by
  cases h with
  | unread hf => exact World.store_tryFind hf
  | unmade hf hs => exact (World.trySave_error hs).trans (World.store_tryFind hf)

/-- A failure behind the run of the program leaves the session as it has been opened for it. -/
theorem InSession.unfinished {c : Context} {x : Session} {code : String}
    (h : InSession o s c x code w (.error e) w') :
    w'.store = w.store ∧ w'.registry = (w.registry.resolve (o.isThere w.outside) c).2 := by
  cases h with
  | lost hi _ hs =>
    exact ⟨(World.trySave_error hs).trans hi.ran_eq.2.2.1,
      (World.attempted_trySave hs).registry.trans hi.registry_eq⟩

theorem Dispatched.unfinished (h : Dispatched o s r w (.error e, r') w') : Unfinished o r w w' := by
  cases h with
  | unread hc => exact .idle (World.store_tryContext hc) (World.attempted_tryContext hc).registry
  | locked hc ht hl _ =>
    have hattempted := World.attempted_tryContext hc
    have hstore := World.store_tryContext hc
    cases hl with
    | unopened ho =>
      exact .idle (ho.store_eq.trans hstore) (ho.attempted.registry.trans hattempted.registry)
    | opened ho hi =>
      obtain ⟨hsame, hregistry⟩ := hi.unfinished
      have hopened := ho.openSession_ok
      rw [hstore, ← hsame] at hopened
      rw [ho.attempted.registry, ho.attempted.outside, hattempted.registry, hattempted.outside]
        at hregistry
      exact .opened (World.tryContext_ok hc) ht hopened hregistry

end Course

namespace Unfinished

theorem findContext_eq (h : Unfinished o r w w') (n : String) :
    w'.store.findContext n = w.store.findContext n := by
  cases h with
  | idle hstore _ => rw [hstore]
  | opened _ _ hopened _ => exact Store.findContext_openSession hopened n

theorem findSession_cases (hw : w.store.Keyed) (h : Unfinished o r w w') (k : SessionKey) :
    w'.store.findSession k = w.store.findSession k ∨
      (∃ i, r.target? = some i ∧ k = ⟨r.language, i⟩) ∧ w.store.findSession k = .ok none ∧
        w'.store.findSession k = .ok (some k.newSession) := by
  cases h with
  | idle hstore _ => exact .inl (by rw [hstore])
  | @opened c i _ hfound htarget hopened _ =>
    rcases Store.findSession_openSession hw hopened k with hsame | ⟨hk, hnone, hmade⟩
    · exact .inl hsame
    · rw [Store.findContext_name hw hfound] at hk
      exact .inr ⟨⟨i, htarget, hk⟩, hnone, hmade⟩

theorem history_eq (hw : w.store.Keyed) (h : Unfinished o r w w') (k : SessionKey) :
    w'.store.history k = w.store.history k := by
  rcases h.findSession_cases hw k with hsame | ⟨-, hnone, hmade⟩
  · rw [Store.history, Store.history, hsame]
  · rw [Store.history_of_findSession_none hnone, Store.history_of_findSession hmade]
    rfl

end Unfinished

/-- What is left behind by the request that a cell has been classified as. -/
theorem Unfinished.of_classified {raw : String} {field : Option String}
    (h : Unfinished o r' w₁ w') (hc : Course.Classified s raw field w (some r') w₁) :
    ∃ r, s.classifier.classify raw field = some r ∧ Unfinished o r w w' := by
  obtain ⟨r, hp, hlang, hrefusal⟩ := hc.refusal
  refine ⟨r, hp, ?_⟩
  cases h with
  | idle hstore hregistry =>
    exact .idle (hstore.trans hc.store_eq) (hregistry.trans hc.attempted.registry)
  | opened hfound htarget hopened hregistry =>
    obtain ⟨-, -, hsame⟩ :=
      hrefusal.resolve_left fun hm => hm.2 (Request.refusal?_of_target? htarget)
    rw [hc.store_eq] at hfound hopened
    rw [hc.attempted.registry, hc.attempted.outside] at hregistry
    exact .opened (hlang ▸ hfound) (hsame ▸ htarget) hopened hregistry

theorem Course.Executed.unfinished {raw : String} {field : Option String} {a : Reply}
    (h : Executed o s raw field w a w') (ha : a = Service.internalError e) :
    ∃ r, s.classifier.classify raw field = some r ∧ Unfinished o r w w' := by
  cases h with
  | rejected _ => exact absurd ha (rejected_ne_internalError _)
  | @ran _ a _ _ hc hd =>
    obtain ⟨a, r'⟩ := a
    cases a with
    | ok a => exact absurd ha hd.ne_internalError
    | error _ => exact hd.unfinished.of_classified hc

/-! ## Running a request again -/

variable {E : Setting}

theorem means_eq_of_steady (ho : o.Steady E) (w : World ε) :
    w.means o = ⟨fun c => (w.registry.resolve E.isThere c).1.map (·.kind), E.outcome⟩ := by
  have hthere : o.isThere w.outside = E.isThere := funext (ho.isThere w.outside)
  have hrun : (fun call => (o.run w.outside call).1) = E.outcome := funext (ho.run w.outside)
  rw [World.means, hthere, hrun]

/-- In a session it matters only which handler there is for its own context. -/
theorem upshotIn_congr {M M' : Means} {c : Context} (hkinds : M'.kinds c = M.kinds c)
    (houtcome : M'.outcome = M.outcome) (x : Session) (code : String) (st : Store) :
    s.upshotIn M' c x code st = s.upshotIn M c x code st := by
  unfold Service.upshotIn Service.ran
  rw [hkinds, houtcome]

theorem Unfinished.upshot_eq (ho : o.Steady E) (hw : w.store.Keyed) (h : Unfinished o r w w') :
    s.upshot (w'.means o) r w'.store = s.upshot (w.means o) r w.store := by
  rw [means_eq_of_steady ho, means_eq_of_steady ho]
  cases h with
  | idle hstore hregistry => rw [hstore, hregistry]
  | @opened c i x hfound htarget hopened hregistry =>
    rw [funext (ho.isThere w.outside)] at hregistry
    have hagain := Store.openSession_again hw hopened
    have hfound' := (Store.findContext_openSession hopened r.language).trans hfound
    simp only [Service.upshot, hfound, hfound', Request.refusal?_of_target? htarget, htarget]
    simp only [Service.upshotLocked, hopened, hagain]
    apply upshotIn_congr
    · -- the handler may have been made, which is the one that would be made now
      simp only [hregistry]
      exact resolve_resolve fun _ => rfl
    · rfl

end

def World.withFaults (w : World ε) (f : Faults) : World ε := { w with faults := f }

/-- A cell whose execution is answered by an internal error leaves all contexts, all sessions and all
histories as they are, except that its own session may be there now with no history, and it lets go
of the lock. Executing the cell again when nothing is made to fail any more comes to what it would
have come to at first: the same reply, the same program calls and the same store. -/
theorem retried_after_failure {o : Surroundings ε} {E : Setting} (ho : o.Steady E) (s : Service)
    (raw : String) (field : Option String) {w w' : World ε} (hw : w.store.Keyed)
    (hl : w.locks.Unused) {e : Failure}
    (hfailed : (s.execute raw field).exec o 0 w = (some (Service.internalError e), w')) :
    (∀ n, w'.store.findContext n = w.store.findContext n) ∧
    (∀ k, w'.store.findSession k = w.store.findSession k ∨
      s.addressed (raw, field) = some k ∧ w.store.findSession k = .ok none ∧
        w'.store.findSession k = .ok (some k.newSession)) ∧
    (∀ k, w'.store.history k = w.store.history k) ∧
    w'.locks.Unused ∧
    ∀ f f', (w.withFaults f).Calm → (w'.withFaults f').Calm →
      let once := (s.execute raw field).exec o 0 (w.withFaults f)
      let again := (s.execute raw field).exec o 0 (w'.withFaults f')
      again.1 = once.1 ∧ once.1.isSome ∧ again.2.store = once.2.store ∧
        ∃ calls, once.2.calls = w.calls ++ calls ∧ again.2.calls = w'.calls ++ calls := by
  obtain ⟨a, w₁, he, hexecuted⟩ := Course.exec_execute o 0 s raw field hl
  rw [hfailed] at he
  obtain ⟨hreply, rfl⟩ := Prod.mk.inj he
  obtain ⟨r, hp, hunfinished⟩ := hexecuted.unfinished (Option.some.inj hreply).symm
  have hunused : w'.locks.Unused := hexecuted.unused hl
  refine ⟨hunfinished.findContext_eq, fun k => ?_, hunfinished.history_eq hw, hunused,
    fun f f' hcalm hcalm' => ?_⟩
  · rcases hunfinished.findSession_cases hw k with hsame | ⟨⟨i, htarget, hk⟩, hmade⟩
    · exact .inl hsame
    · exact .inr ⟨by simp [Service.addressed, hp, htarget, hk], hmade⟩
  · obtain ⟨a, w₁, honce, hu⟩ := exec_execute_calm (w := w.withFaults f) o s raw field hl hcalm
    obtain ⟨a', w₂, hagain, hu'⟩ :=
      exec_execute_calm (w := w'.withFaults f') o s raw field hunused hcalm'
    have hsame : s.executed (w'.means o) raw field w'.store =
        s.executed (w.means o) raw field w.store := by
      simp only [Service.executed, hp]
      exact hunfinished.upshot_eq ho hw
    have hu' : (s.executed (w.means o) raw field w.store).Of (w'.withFaults f') a' w₂ := hsame ▸ hu'
    simp only [honce, hagain]
    exact ⟨by rw [hu.answer, hu'.answer]; rfl, rfl, by rw [hu.store, hu'.store]; rfl, _, hu.calls,
      hu'.calls⟩

/-- The session is made and the program runs; then the fragment cannot be saved. -/
theorem retried_after_failure_unsaved :
    let cell := pairService.execute "%shell a=1" (some "1")
    let w := pairWorld.withFaults ⟨[(.saveSession, 1)], .empty⟩
    let k : SessionKey := ⟨"shell", ⟨1, by decide, by decide⟩⟩
    w.store.Keyed ∧ w.locks.Unused ∧
      ∃ w', cell.exec silent 0 w =
          (some (Service.internalError (.database "save_session failed at call 1")), w') ∧
        w'.calls.length = 1 ∧ w'.store.findSession k = .ok (some k.newSession) ∧
        (cell.exec silent 0 (w'.withFaults .none)).1 = (cell.exec silent 0 (w.withFaults .none)).1 ∧
        (cell.exec silent 0 (w'.withFaults .none)).2.store =
          (cell.exec silent 0 (w.withFaults .none)).2.store := by
  intro cell w k
  have hkeyed : w.store.Keyed := MemoryStore.keyed_saveContext MemoryStore.keyed_empty _
  have hsteady : silent.Steady
      (pairWorld.setting .empty (fun _ => true) fun _ => .ok ⟨some 0, ""⟩) :=
    ⟨fun _ _ => rfl, fun _ _ => rfl⟩
  have hcalm (w : World Unit) : (w.withFaults .none).Calm := fun _ _ h => absurd h List.not_mem_nil
  have hreply : (cell.exec silent 0 w).1 =
      some (Service.internalError (.database "save_session failed at call 1")) := by
    decide +kernel
  have hcalls : (cell.exec silent 0 w).2.calls.length = 1 := by decide +kernel
  have hsession : (cell.exec silent 0 w).2.store.findSession k = .ok (some k.newSession) := by
    decide +kernel
  obtain ⟨w', hfailed⟩ : ∃ w', cell.exec silent 0 w =
      (some (Service.internalError (.database "save_session failed at call 1")), w') :=
    ⟨_, Prod.ext hreply rfl⟩
  rw [hfailed] at hcalls hsession
  obtain ⟨-, -, -, -, hagain⟩ :=
    retried_after_failure hsteady pairService "%shell a=1" (some "1") hkeyed rfl hfailed
  obtain ⟨hsame, -, hstore, -⟩ := hagain .none .none (hcalm _) (hcalm _)
  exact ⟨hkeyed, rfl, w', hfailed, hcalls, hsession, hsame, hstore⟩

end CellReplay
