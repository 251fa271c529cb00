import CellReplay.Proofs.Service.Findings
import CellReplay.Proofs.Service.Serial

/-!
# Proofs.Service.Status

Where the status of a request comes from. Classification gives a request its status and changes nothing
else; running a request changes its status in two cases and leaves the rest of it as it is.

* `Store.statusOf`  — the status of what a classifier has taken, from what is stored.
* `World.Reads`     — the lookups for a request do not fail.
* `exec_classify_reads` — classification then gives a request this status.
* `Way.Opens`, `Way.Promoted` — on the way a session has been found or made, and with it the request
  has been promoted.
* `Way.Dispatched.status_cases` — the two cases, for any answers to the effects of a call.
* `classify_known`  — what a promotion has found out makes later cells good.
* `status_determined` — all of it, and what comes of a promotion in later worlds.
-/

namespace CellReplay

variable {ε : Type}

/-! ## Classification -/

/-- How far a request for a language and a session is from being interpreted. -/
def Store.statusOf (st : Store) (language : String) (id : Option SessionId) : Status :=
  if st.knowsContext language then
    match id with
    | none => .noNeedForSession
    | some i => if st.knowsSession ⟨language, i⟩ then .good else .noSessionId
  else .noInterpreterFound

section

variable {st : Store} {language : String}

theorem statusOf_missing (h : st.findContext language = .ok none) (id : Option SessionId) :
    st.statusOf language id = .noInterpreterFound := by
  simp [Store.statusOf, Store.knowsContext, h]

theorem statusOf_alone {c : Context} (h : st.findContext language = .ok (some c)) :
    st.statusOf language none = .noNeedForSession := by
  simp [Store.statusOf, Store.knowsContext, h]

theorem statusOf_session {c : Context} {i : SessionId} {x : Option Session}
    (h : st.findContext language = .ok (some c)) (hx : st.findSession ⟨language, i⟩ = .ok x) :
    st.statusOf language (some i) = if x.isSome then .good else .noSessionId := by
  simp [Store.statusOf, Store.knowsContext, Store.knowsSession, h, hx]

end

/-- The next lookup of the context gives an answer, and so does that of the session if there is one to
look for. -/
structure World.Reads (w : World ε) (r : Request) : Prop where
  context : ∃ c, (w.tryContext r.language).1 = .ok c
  session : ∀ i, r.sessionId = some i → ∃ x, (w.tryFind ⟨r.language, i⟩).1 = .ok x

theorem fields_of_classify {c : Classifier} {raw : String} {field : Option String} {r : Request}
    (h : c.classify raw field = some r) :
    r.sessionId = SessionId.ofField field ∧
      r.status = if r.sessionId.isSome then .good else .noNeedForSession := by
  unfold Classifier.classify at h
  split at h
  · simp only at h
    split at h
    · cases h
    · next hstatus =>
      cases h
      unfold Cell.read at hstatus ⊢
      simp only at hstatus ⊢
      split
      · next hempty =>
        rw [if_pos hempty] at hstatus
        exact absurd rfl hstatus
      · exact ⟨rfl, rfl⟩
  · cases h

theorem target?_of_classify {c : Classifier} {raw : String} {field : Option String} {r : Request}
    (h : c.classify raw field = some r) : r.target? = r.sessionId := by
  have hstatus := (fields_of_classify h).2
  rw [Request.target?, Request.needsSession]
  cases hi : r.sessionId with
  | none =>
    rw [hi] at hstatus
    rw [hstatus]
    rfl
  | some i =>
    rw [hi] at hstatus
    rw [hstatus]
    rfl

/-- A lookup of a context makes no difference to the next lookup of a session. -/
theorem tryFind_tryContext (w : World ε) (n : String) (k : SessionKey) :
    ((w.tryContext n).2.tryFind k).1 = (w.tryFind k).1 := by
  have hstore : (w.tryContext n).2.store = w.store := World.store_tryContext rfl
  have hnext : (w.tryContext n).2.faults.next .findSession = w.faults.next .findSession := by
    have hfaults : (w.tryContext n).2.faults = w.faults.counted .findContext := by
      unfold World.tryContext World.attempt
      split <;> rfl
    have hcount : (w.faults.counted .findContext).count .findSession = w.faults.count .findSession := by
      rw [Faults.count, Faults.counted, Table.get?_put, if_neg (by decide)]
      rfl
    rw [hfaults, Faults.next, Faults.next, hcount]
    rfl
  unfold World.tryFind World.attempt
  rw [hnext, hstore]
  split <;> rfl

/-- Where no lookup fails, classification changes nothing, and gives what the classifier has taken the
status that comes from the store. -/
theorem exec_classify_reads (o : Surroundings ε) (t : Nat) (s : Service) (raw : String)
    (field : Option String) {w : World ε} (hw : w.store.Keyed)
    (hreads : ∀ r, s.classifier.classify raw field = some r → w.Reads r) :
    ∃ w', (s.classify raw field).exec o t w =
        (some ((s.classifier.classify raw field).map fun r =>
          { r with status := w.store.statusOf r.language (SessionId.ofField field) }), w') ∧
      w'.store = w.store ∧ World.Attempted w w' := by
  obtain ⟨a, w', he, hc⟩ := Course.exec_classify o t s raw field w
  refine ⟨w', ?_, hc.store_eq, hc.attempted⟩
  rw [he]
  refine Prod.ext (congrArg some ?_) rfl
  cases hc with
  | rejected hp => rw [hp]; rfl
  | unread hp hc =>
    obtain ⟨c, hread⟩ := (hreads _ hp).context
    rw [hc] at hread
    cases hread
  | unknown hp hc =>
    rw [hp, Option.map_some, statusOf_missing (World.tryContext_ok hc)]
    rfl
  | @alone r c w₁ hp hc ht =>
    obtain ⟨hid, hstatus⟩ := fields_of_classify hp
    rw [target?_of_classify hp] at ht
    have hsame : r.status = w.store.statusOf r.language r.sessionId := by
      rw [hstatus, ht, statusOf_alone (World.tryContext_ok hc)]
      rfl
    rw [hp, Option.map_some, ← hid, ← hsame]
  | @unconfirmed r c i e w₁ w₂ hp hc ht hf =>
    rw [target?_of_classify hp] at ht
    obtain ⟨x, hread⟩ := (hreads _ hp).session i ht
    rw [← tryFind_tryContext w r.language, hc,
      ← Store.findContext_name hw (World.tryContext_ok hc), hf] at hread
    cases hread
  | @confirmed r c i x w₁ w₂ hp hc ht hf =>
    have hneeds : r.needsSession := by
      unfold Request.target? at ht
      split at ht
      · assumption
      · cases ht
    rw [target?_of_classify hp] at ht
    have hfound := World.tryFind_ok hf
    rw [World.store_tryContext hc, Store.findContext_name hw (World.tryContext_ok hc)] at hfound
    have hstatus : w.store.statusOf r.language (SessionId.ofField field) =
        if x.isSome then .good else .noSessionId := by
      rw [← (fields_of_classify hp).1, ht, statusOf_session (World.tryContext_ok hc) hfound]
    rw [hp, Option.map_some, hstatus, Request.confirm, if_pos hneeds]

/-! ## Running a request -/

namespace Way

/-- A session has been found, or has been made. -/
def Opens (k : SessionKey) (log : List Exchange) : Prop :=
  (∃ x, ⟨.findSession k, .ok (some x)⟩ ∈ log) ∨ ⟨.saveSession k.newSession, .ok ()⟩ ∈ log

/-- The first thing that is done for a request is to look up its context. -/
def Looked (r : Request) (c : Except Failure (Option Context)) (log : List Exchange) : Prop :=
  log.head? = some ⟨.findContext r.language, c⟩

/-- The request is for a session that is not known, its context has been found, and the session has
been found or made. -/
def Promoted (r : Request) (log : List Exchange) : Prop :=
  r.status = .noSessionId ∧ ∃ c i, r.sessionId = some i ∧ Looked r (.ok (some c)) log ∧
    Opens ⟨c.name, i⟩ log

variable {s : Service} {c : Context} {k : SessionKey} {r : Request} {log : List Exchange}

theorem looked_cons {x y : Except Failure (Option Context)} :
    Looked r x (⟨.findContext r.language, y⟩ :: log) ↔ x = y := by
  simp [Looked, eq_comm]

theorem Opened.opens_iff {a : Except Failure Session} (h : Opened k log a) :
    Opens k log ↔ ∃ x, a = .ok x := by
  cases h <;> simp [Opens]

theorem Locked.settled_cases {a : Except Failure Reply × Request} (h : Locked s c k r log a) :
    (Opens k log → a.2 = r.settled) ∧ (¬ Opens k log → a.2 = r) := by
  cases h with
  | unopened ho =>
    refine ⟨fun h => ?_, fun _ => rfl⟩
    obtain ⟨x, hx⟩ := ho.opens_iff.mp h
    cases hx
  | opened ho hi =>
    refine ⟨fun _ => rfl, fun h => absurd ?_ h⟩
    exact (ho.opens_iff.mpr ⟨_, rfl⟩).imp (fun ⟨x, hx⟩ => ⟨x, List.mem_append_left _ hx⟩)
      (List.mem_append_left _)

/-- The locks make no difference to whether a session has been opened. -/
theorem opens_locked (c : Context) (i : SessionId) :
    Opens k (⟨.findContext r.language, .ok (some c)⟩ :: ⟨.acquire ⟨c.name, i⟩, ()⟩ ::
      (log ++ [⟨.release ⟨c.name, i⟩, ()⟩])) ↔ Opens k log := by
  simp [Opens]

theorem Dispatched.status_cases {a : Except Failure Reply × Request} (h : Dispatched s r log a) :
    (Looked r (.ok none) log → a.2 = r.markNoInterpreter) ∧
      (Promoted r log → a.2 = { r with status := .good }) ∧
      (¬ Looked r (.ok none) log → ¬ Promoted r log → a.2 = r) := by
  unfold Promoted
  cases h with
  | unread e => simp [looked_cons]
  | unknown => simp [looked_cons]
  | refused c ha =>
    refine ⟨by simp [looked_cons], ?_, fun _ _ => rfl⟩
    rintro ⟨hstatus, c', i, hid, -⟩
    simp [Request.refusal?, hstatus, hid] at ha
  | alone c hs hi =>
    refine ⟨by simp [looked_cons], ?_, fun _ _ => rfl⟩
    rintro ⟨hstatus, -⟩
    rw [hs] at hstatus
    cases hstatus
  | @locked c i log a ht hl =>
    obtain ⟨hopens, hnot⟩ := hl.settled_cases
    simp only [looked_cons, opens_locked, Except.ok.injEq, Option.some.injEq]
    refine ⟨fun h => (Option.some_ne_none c h.symm).elim, ?_, fun _ hno => ?_⟩
    · rintro ⟨hstatus, c', i', hid, rfl, ho⟩
      have hi : i = i' := by
        rw [Request.target?, Request.needsSession, hstatus, hid] at ht
        exact (Option.some.inj ht).symm
      rw [hopens (hi ▸ ho), Request.settled, Request.isNewSession, hstatus]
      rfl
    · by_cases ho : Opens ⟨c.name, i⟩ log
      · rw [hopens ho, Request.settled, if_neg]
        intro hnew
        have hid : r.sessionId = some i := by
          unfold Request.target? at ht
          split at ht
          · exact ht
          · cases ht
        exact hno ⟨of_decide_eq_true hnew, c, i, hid, rfl, ho⟩
      · exact hnot ho

/-- A request for an unknown session that has become a good one has been promoted. -/
theorem Dispatched.promoted {a : Except Failure Reply × Request} (h : Dispatched s r log a)
    (hr : r.status = .noSessionId) (ha : a.2.status = .good) : Promoted r log := by
  obtain ⟨hmissing, -, hsame⟩ := h.status_cases
  by_contra hno
  by_cases hlooked : Looked r (.ok none) log
  · rw [hmissing hlooked] at ha
    cases ha
  · rw [hsame hlooked hno, hr] at ha
    cases ha

end Way

/-- What a promotion has found out stays so in all later worlds. -/
theorem knows_of_promoted {o : Surroundings ε} {t : Nat} {w w' : World ε} {r : Request}
    {log : List Exchange} (hw : w.store.Keyed) (h : w.Answers o t log w')
    (hr : Way.Promoted r log) :
    ∃ i, r.sessionId = some i ∧ w'.store.knowsContext r.language ∧
      w'.store.knowsSession ⟨r.language, i⟩ := by
  obtain ⟨-, c, i, hid, hlooked, hopens⟩ := hr
  have hmem : ⟨.findContext r.language, .ok (some c)⟩ ∈ log := List.mem_of_head? hlooked
  have hname : c.name = r.language := honest_of_answers hw h _ hmem
  rw [hname] at hopens
  refine ⟨i, hid, lasting_of_answers hw h _ hmem, ?_⟩
  rcases hopens with ⟨x, hx⟩ | hx
  · exact lasting_of_answers hw h _ hx
  · exact lasting_of_answers hw h _ hx

theorem statusOf_known {st : Store} {language : String} {i : SessionId}
    (hc : st.knowsContext language) (hk : st.knowsSession ⟨language, i⟩) :
    st.statusOf language (some i) = .good := by
  simp [Store.statusOf, hc, hk]

/-- A cell for a session that is known is good, also after anything else has happened. -/
theorem classify_known (o : Surroundings ε) (t : Nat) (s : Service) (xs : List (Happening ε))
    {raw : String} {field : Option String} {q : Request} {i : SessionId} {w : World ε}
    (hw : w.store.Keyed) (hc : w.store.knowsContext q.language)
    (hk : w.store.knowsSession ⟨q.language, i⟩) (hp : s.classifier.classify raw field = some q)
    (hid : q.sessionId = some i) (hreads : (xs.foldl (World.happen o s) w).Reads q) :
    ∃ w', (s.classify raw field).exec o t (xs.foldl (World.happen o s) w) =
      (some (some { q with status := .good }), w') := by
  have hgrows := grows_happenAll (o := o) s hw xs
  obtain ⟨w', hclassify, -⟩ := exec_classify_reads o t s raw field hgrows.keyed
    (fun r hr => by rw [hp] at hr; cases hr; exact hreads)
  refine ⟨w', ?_⟩
  rw [hclassify, hp, Option.map_some, ← (fields_of_classify hp).1, hid,
    statusOf_known (hgrows.contexts _ hc) (hgrows.sessions _ hk)]

/-- Where no lookup fails, classification changes nothing, and gives what the classifier takes the
status that comes from the store: the language has no context, or else no session is asked for, or else
the session is stored or is not. Running a request changes nothing of it but its status, whatever the
effects of the call are answered: it becomes one without an interpreter exactly if its context is looked
up and is not there, and a good one exactly if it is promoted. A run that is not kept waiting ends like
that. After a promotion, whatever happens next, what is accepted for the same language and session is
good when no lookup fails. -/
theorem status_determined (o : Surroundings ε) (s : Service) :
    (∀ (t : Nat) (raw : String) (field : Option String) (w : World ε), w.store.Keyed →
      (∀ r, s.classifier.classify raw field = some r → w.Reads r) →
      ∃ w', (s.classify raw field).exec o t w =
          (some ((s.classifier.classify raw field).map fun r =>
            { r with status := w.store.statusOf r.language (SessionId.ofField field) }), w') ∧
        w'.store = w.store ∧ w'.registry = w.registry ∧ w'.outside = w.outside ∧
        w'.calls = w.calls) ∧
    (∀ (r : Request) (log : List Exchange) (reply : Reply) (r' : Request),
      (s.dispatch r).Ends log (reply, r') →
      r' = { r with status := r'.status } ∧
        (Way.Looked r (.ok none) log → r'.status = .noInterpreterFound) ∧
        (Way.Promoted r log → r'.status = .good) ∧
        (¬ Way.Looked r (.ok none) log → ¬ Way.Promoted r log → r'.status = r.status)) ∧
    (∀ (r : Request) (t : Nat) (w : World ε), w.locks.Unused →
      ∃ reply r' w' log, (s.dispatch r).exec o t w = (some (reply, r'), w') ∧
        (s.dispatch r).Ends log (reply, r') ∧ w.Answers o t log w') ∧
    (∀ (r : Request) (t : Nat) (w : World ε) (reply : Reply) (r' : Request) (w' : World ε),
      w.store.Keyed → (s.dispatch r).exec o t w = (some (reply, r'), w') →
      r.status = .noSessionId → r'.status = .good →
      ∀ (xs : List (Happening ε)) (u : Nat) (raw : String) (field : Option String) (q : Request),
        s.classifier.classify raw field = some q → q.language = r.language →
        q.sessionId = r.sessionId →
        let later := xs.foldl (World.happen o s) w'
        later.Reads q → ∃ w₃, (s.classify raw field).exec o u later =
          (some (some { q with status := .good }), w₃)) := by
  refine ⟨fun t raw field w hw hreads => ?_, fun r log reply r' h => ?_, fun r t w hl => ?_, ?_⟩
  · obtain ⟨w', he, hstore, hattempted⟩ := exec_classify_reads o t s raw field hw hreads
    exact ⟨w', he, hstore, hattempted.registry, hattempted.outside, hattempted.calls⟩
  · obtain ⟨b, hb, hd⟩ := Way.ends_dispatch h
    obtain rfl : r' = b.2 := congrArg Prod.snd hb
    obtain ⟨hmissing, hpromoted, hsame⟩ := hd.status_cases
    refine ⟨?_, fun h => by rw [hmissing h]; rfl, fun h => by rw [hpromoted h],
      fun h₁ h₂ => by rw [hsame h₁ h₂]⟩
    by_cases h₁ : Way.Looked r (.ok none) log
    · rw [hmissing h₁]
      rfl
    · by_cases h₂ : Way.Promoted r log
      · rw [hpromoted h₂]
      · rw [hsame h₁ h₂]
  · obtain ⟨a, w', he, -⟩ := Course.exec_dispatch o t s r hl
    obtain ⟨log, hends, hanswers⟩ := exec_ends he
    exact ⟨_, _, w', log, he, hends, hanswers⟩
  · intro r t w reply r' w' hw he hstatus hgood xs u raw field q hp hlang hid later hreads
    obtain ⟨log, hends, hanswers⟩ := exec_ends he
    obtain ⟨b, hb, hd⟩ := Way.ends_dispatch hends
    have hpromoted : Way.Promoted r log :=
      hd.promoted hstatus ((congrArg (·.2.status) hb).symm.trans hgood)
    obtain ⟨i, hi, hcontext, hsession⟩ := knows_of_promoted hw hanswers hpromoted
    rw [← hlang] at hcontext hsession
    exact classify_known o u s xs (grows_of_answers hw hanswers).keyed hcontext hsession hp
      (hid.trans hi) hreads

/-- The session is made, though the fragment cannot be saved behind it; then others bring the tables up
to date and use the session. -/
theorem status_determined_unsaved :
    let w : World Unit := { pairWorld with faults := ⟨[(.saveSession, 1)], .empty⟩ }
    let r : Request := ⟨"shell", "a=1", some ⟨7, by decide, by decide⟩, .noSessionId⟩
    let good : Request := { r with status := .good }
    let xs : List (Happening Unit) := [.order .migrate, .call (.execute "%shell b=2" (some "7"))]
    let cell : String × Option String := ("%shell c=3", some " 7")
    w.store.Keyed ∧ w.locks.Unused ∧
      ∃ reply w' later w₃, (pairService.dispatch r).exec silent 0 w = (some (reply, good), w') ∧
        reply.isError ∧ later = xs.foldl (World.happen silent pairService) w' ∧
        (pairService.classify cell.1 cell.2).exec silent 5 later =
          (some (some { good with code := "c=3" }), w₃) ∧ w₃.store = later.store := by
  intro w r good xs cell
  have hkeyed : w.store.Keyed := MemoryStore.keyed_saveContext MemoryStore.keyed_empty _
  have hsome : ((pairService.dispatch r).exec silent 0 w).1.map (fun a => (a.1.isError, a.2)) =
      some (true, good) := by decide +kernel
  obtain ⟨hclassified, -, -, hafter⟩ := status_determined silent pairService
  rcases he : (pairService.dispatch r).exec silent 0 w with ⟨_ | ⟨reply, r'⟩, w'⟩
  · rw [he] at hsome
    cases hsome
  · rw [he] at hsome
    obtain ⟨herror, rfl⟩ := Prod.mk.inj (Option.some.inj hsome)
    have hw' : w' = ((pairService.dispatch r).exec silent 0 w).2 := by rw [he]
    have hlater : (xs.foldl (World.happen silent pairService) w').store.Keyed :=
      (grows_happenAll pairService (by rw [hw']; exact (grows_exec _ hkeyed).keyed) xs).keyed
    have hp : pairService.classifier.classify cell.1 cell.2 = some { good with code := "c=3" } := by
      decide +kernel
    have hreads : (xs.foldl (World.happen silent pairService) w').Reads { good with code := "c=3" } :=
      ⟨⟨some ⟨"shell", "/bin/sh"⟩, by rw [hw']; decide +kernel⟩, fun i hi => by
        cases hi
        exact ⟨some ⟨"shell", ⟨7, by decide, by decide⟩, ["b=2"]⟩, by rw [hw']; decide +kernel⟩⟩
    obtain ⟨w₃, hgood⟩ := hafter r 0 w reply good w' hkeyed he rfl rfl xs 5 cell.1 cell.2 _ hp rfl rfl
      hreads
    obtain ⟨w₄, hsame, hstore, -⟩ := hclassified 5 cell.1 cell.2 _ hlater
      (fun q hq => by rw [hp] at hq; cases hq; exact hreads)
    rw [hgood] at hsame
    obtain rfl : w₃ = w₄ := congrArg Prod.snd hsame
    exact ⟨hkeyed, rfl, reply, w', _, w₃, rfl, herror, rfl, hgood, hstore⟩

end CellReplay
