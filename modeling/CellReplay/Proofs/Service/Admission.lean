import CellReplay.Proofs.Service.Serial

/-!
# Proofs.Service.Admission

When executing a cell launches a program. It launches one at most, and it does so exactly if every
lookup on the way there gives what is needed, whatever else fails and whatever has happened before.

* `World.Opens`     — the session under a key is there or can be made.
* `Registry.Offers` — there is a handler for a context.
* `Admits`          — everything that has to hold for a program to be launched.
* `Launched`        — one program call under a condition, and an error without it.
* `launched_iff_admitted` — executing a cell, behind any run.
-/

namespace CellReplay

variable {ε : Type}

/-- The session under a key is found, or it is not there and is made. -/
def World.Opens (w : World ε) (k : SessionKey) : Prop :=
  ∃ x, (w.tryFind k).1 = .ok x ∧ (x = none → ((w.tryFind k).2.trySave k.newSession).1 = .ok ())

/-- A kind of handler is registered for a context's language, and a handler has been made before or
can be made now. -/
structure Registry.Offers (r : Registry) (isThere : String → Bool) (c : Context) : Prop where
  registered : (r.factories.get? (typeName c.name)).isSome
  made : (r.cache.get? c.name).isSome ∨ isThere c.path

/-- The world in which a cell has been classified. -/
def World.classified (o : Surroundings ε) (s : Service) (raw : String) (field : Option String)
    (w : World ε) : World ε := ((s.classify raw field).exec o 0 w).2

/-- The context of a request that is found when it is to be run. -/
def Finds (o : Surroundings ε) (s : Service) (raw : String) (field : Option String) (w : World ε)
    (r : Request) (c : Context) : Prop :=
  ((w.classified o s raw field).tryContext r.language).1 = .ok (some c)

/-- What has to hold for a program to be launched by executing a cell: the classifier takes it as the
request `r`; the language is not found missing when the cell is classified, and its context `c` is
found when the request is to be run; the session can be had, if it asks for one; and there is a
handler. -/
structure Admits (o : Surroundings ε) (s : Service) (raw : String) (field : Option String)
    (w : World ε) (r : Request) (c : Context) : Prop where
  accepted : s.classifier.classify raw field = some r
  notMissing : (w.tryContext r.language).1 ≠ .ok none
  found : Finds o s raw field w r c
  opened : ∀ i, r.target? = some i →
    ((w.classified o s raw field).tryContext r.language).2.Opens ⟨r.language, i⟩
  registered : (w.registry.factories.get? (typeName r.language)).isSome
  made : (w.registry.cache.get? r.language).isSome ∨ o.isThere w.outside c.path

/-- One program call is made if `P`, and else none, in which case the reply is an error. -/
structure Launched (P : Prop) (w w' : World ε) (a : Reply) : Prop where
  once : P → ∃ call, w'.calls = w.calls ++ [call]
  never : ¬ P → w'.calls = w.calls ∧ a.isError

section

variable {P Q : Prop} {w w₁ w' : World ε} {a : Reply}

theorem launched_never (hP : ¬ P) (hcalls : w'.calls = w.calls) (ha : a.isError) :
    Launched P w w' a := ⟨fun h => absurd h hP, fun _ => ⟨hcalls, ha⟩⟩

theorem launched_once (hP : P) {call : Call} (hcalls : w'.calls = w.calls ++ [call]) :
    Launched P w w' a := ⟨fun _ => ⟨call, hcalls⟩, fun h => absurd hP h⟩

theorem Launched.congr (h : Launched P w w' a) (hPQ : P ↔ Q) : Launched Q w w' a :=
  ⟨fun hq => h.once (hPQ.mpr hq), fun hq => h.never fun hp => hq (hPQ.mp hp)⟩

theorem Launched.of_calls (h : Launched P w₁ w' a) (hcalls : w₁.calls = w.calls) :
    Launched P w w' a := ⟨hcalls ▸ h.once, hcalls ▸ h.never⟩

end

/-! ## Handlers and sessions -/

theorem resolve_isSome_iff (r : Registry) (isThere : String → Bool) (c : Context) :
    (r.resolve isThere c).1.isSome ↔ r.Offers isThere c := by
  unfold Registry.resolve
  cases hkind : r.factories.get? (typeName c.name) with
  | none =>
    refine ⟨fun h => absurd h (by simp), fun h => ?_⟩
    have hr := h.registered
    rw [hkind] at hr
    cases hr
  | some kind =>
    have hr : (r.factories.get? (typeName c.name)).isSome := by rw [hkind]; rfl
    cases hcache : r.cache.get? c.name with
    | some h => exact ⟨fun _ => ⟨hr, .inl (by rw [hcache]; rfl)⟩, fun _ => rfl⟩
    | none =>
      by_cases hthere : isThere c.path
      · simp only [hthere, if_true]
        exact ⟨fun _ => ⟨hr, .inr hthere⟩, fun _ => rfl⟩
      · simp only [hthere]
        refine ⟨fun h => absurd h (by simp), fun h => ?_⟩
        rcases h.made with hmade | hmade
        · rw [hcache] at hmade
          cases hmade
        · exact absurd hmade hthere

theorem opens_withLocks (w : World ε) (l : SessionLocks Nat) (k : SessionKey) :
    World.Opens { w with locks := l } k ↔ w.Opens k := by
  unfold World.Opens World.tryFind World.trySave World.attempt
  cases w.faults.next .findSession <;>
    cases (w.faults.counted .findSession).next .saveSession <;> rfl

/-- What a classifier takes is never refused for what it says itself. -/
theorem refusal?_of_classify {c : Classifier} {raw : String} {field : Option String} {r : Request}
    (h : c.classify raw field = some r) : r.refusal? = none := by
  unfold Classifier.classify at h
  split at h
  · simp only at h
    split at h
    · cases h
    · rename_i hstatus
      cases h
      unfold Cell.read at hstatus ⊢
      simp only at hstatus ⊢
      split
      · rename_i hempty
        rw [if_pos hempty] at hstatus
        exact absurd rfl hstatus
      · cases hid : SessionId.ofField field <;> rfl
  · cases h

theorem refusal?_confirm (r : Request) (known : Bool) : (r.confirm known).refusal? = r.refusal? := by
  unfold Request.confirm
  split
  · rename_i hneeds
    have hstatus : r.status = .good ∨ r.status = .noSessionId := by
      simpa [Request.needsSession] using hneeds
    rcases hstatus with hstatus | hstatus <;> cases known <;>
      simp only [Request.refusal?, hstatus] <;> rfl
  · rfl

theorem isError_of_refusal? {r : Request} {a : Reply} (h : r.refusal? = some a) : a.isError := by
  obtain ⟨e, rfl⟩ := Request.refusal?_eq_error h
  rfl

namespace Course

variable {o : Surroundings ε} {s : Service} {w w' : World ε}

theorem Opened.opens_iff {k : SessionKey} {a : Except Failure Session} (h : Opened k w a w') :
    w.Opens k ↔ ∃ x, a = .ok x := by
  unfold World.Opens
  cases h with
  | unread hf =>
    rw [hf]
    exact ⟨fun ⟨_, hx, _⟩ => (nomatch hx), fun ⟨_, hx⟩ => (nomatch hx)⟩
  | @found x _ hf =>
    rw [hf]
    exact ⟨fun _ => ⟨x, rfl⟩, fun _ => ⟨some x, rfl, nofun⟩⟩
  | unmade hf hs =>
    rw [hf]
    refine ⟨fun ⟨x, hx, hmade⟩ => ?_, fun ⟨_, hx⟩ => (nomatch hx)⟩
    cases hx
    have := hmade rfl
    rw [hs] at this
    cases this
  | made hf hs =>
    rw [hf]
    exact ⟨fun _ => ⟨_, rfl⟩, fun _ => ⟨none, rfl, fun _ => by rw [hs]⟩⟩

/-- A program is launched exactly if there is a handler. -/
theorem Interpreted.launched {c : Context} {history : Option (List String)} {code : String}
    {a : Option Interpretation} (h : Interpreted o s c history code w a w') :
    Launched (w.registry.Offers (o.isThere w.outside) c) w w'
        ((a.map (·.reply)).getD (Service.noHandler c.name)) ∧
      (a.isSome ↔ w.registry.Offers (o.isThere w.outside) c) := by
  rw [← resolve_isSome_iff]
  cases h with
  | absent hr =>
    rw [hr]
    exact ⟨launched_never (by simp) rfl rfl, Iff.rfl⟩
  | ran hr =>
    rw [hr]
    exact ⟨launched_once rfl rfl, Iff.rfl⟩

theorem InSession.launched {c : Context} {x : Session} {code : String} {a : Except Failure Reply}
    (h : InSession o s c x code w a w') :
    Launched (w.registry.Offers (o.isThere w.outside) c) w w' (replyOf a) := by
  cases h with
  | absent hi => exact hi.launched.1
  | shown hi _ => exact hi.launched.1
  | lost hi _ hs =>
    -- the program has run before the save fails
    have hoffers := hi.launched.2.mp rfl
    obtain ⟨call, hcall⟩ := hi.launched.1.once hoffers
    exact launched_once hoffers ((World.attempted_trySave hs).calls.trans hcall)
  | kept hi _ hs =>
    have hoffers := hi.launched.2.mp rfl
    obtain ⟨call, hcall⟩ := hi.launched.1.once hoffers
    exact launched_once hoffers ((World.attempted_trySave hs).calls.trans hcall)

theorem Locked.launched {c : Context} {k : SessionKey} {r : Request}
    {a : Except Failure Reply × Request} (h : Locked o s c k r w a w') :
    Launched (w.Opens k ∧ w.registry.Offers (o.isThere w.outside) c) w w' (replyOf a.1) := by
  cases h with
  | unopened ho =>
    refine launched_never (fun h => ?_) ho.attempted.calls rfl
    obtain ⟨x, hx⟩ := ho.opens_iff.mp h.1
    cases hx
  | opened ho hi =>
    have hopens := ho.opens_iff.mpr ⟨_, rfl⟩
    have hl := hi.launched
    rw [ho.attempted.registry, ho.attempted.outside] at hl
    exact (hl.of_calls ho.attempted.calls).congr ⟨fun h => ⟨hopens, h⟩, fun h => h.2⟩

/-- What has to hold for a program to be launched by running a request. -/
def Runs (o : Surroundings ε) (r : Request) (w : World ε) : Prop :=
  r.refusal? = none ∧ ∃ c, (w.tryContext r.language).1 = .ok (some c) ∧
    (∀ i, r.target? = some i → (w.tryContext r.language).2.Opens ⟨c.name, i⟩) ∧
      w.registry.Offers (o.isThere w.outside) c

theorem Dispatched.launched {r : Request} {a : Except Failure Reply × Request}
    (h : Dispatched o s r w a w') : Launched (Runs o r w) w w' (replyOf a.1) := by
  have hnot {x : Except Failure (Option Context)} {w₁ : World ε}
      (hc : w.tryContext r.language = (x, w₁)) (hx : ∀ c, x ≠ .ok (some c)) : ¬ Runs o r w := by
    rintro ⟨-, c, hfound, -⟩
    rw [hc] at hfound
    exact hx c hfound
  cases h with
  | unread hc =>
    exact launched_never (hnot hc nofun) (World.attempted_tryContext hc).calls rfl
  | unknown hc =>
    exact launched_never (hnot hc nofun) (World.attempted_tryContext hc).calls rfl
  | refused hc ha =>
    refine launched_never (fun h => ?_) (World.attempted_tryContext hc).calls (isError_of_refusal? ha)
    rw [h.1] at ha
    cases ha
  | @alone c _ w₁ _ hc hs hi =>
    have hl := hi.launched.1
    have hattempted := World.attempted_tryContext hc
    rw [hattempted.registry, hattempted.outside] at hl
    refine (hl.of_calls hattempted.calls).congr ⟨fun hoffers => ?_, fun hruns => ?_⟩
    · refine ⟨by rw [Request.refusal?, hs], c, by rw [hc], fun i hi => ?_, hoffers⟩
      rw [Request.target?, Request.needsSession, hs] at hi
      cases hi
    · obtain ⟨-, c', hfound, -, hoffers⟩ := hruns
      rw [hc] at hfound
      cases hfound
      exact hoffers
  | @locked c i _ w₁ w₂ l _ hc ht hl _ =>
    have hattempted := World.attempted_tryContext hc
    have hrun := hl.launched
    rw [opens_withLocks] at hrun
    rw [show ({ w₁ with locks := l } : World ε).registry = w.registry from hattempted.registry,
      show ({ w₁ with locks := l } : World ε).outside = w.outside from hattempted.outside] at hrun
    have hrun' : Launched (w₁.Opens ⟨c.name, i⟩ ∧ w.registry.Offers (o.isThere w.outside) c) w w₂
        (replyOf _) := hrun.of_calls hattempted.calls
    refine Launched.congr ⟨hrun'.once, hrun'.never⟩ ⟨fun hboth => ?_, fun hruns => ?_⟩
    · obtain ⟨hopens, hoffers⟩ := hboth
      refine ⟨Request.refusal?_of_target? ht, c, by rw [hc], fun i' hi' => ?_, hoffers⟩
      rw [ht] at hi'
      cases hi'
      rw [hc]
      exact hopens
    · obtain ⟨-, c', hfound, hopens, hoffers⟩ := hruns
      rw [hc] at hfound hopens
      cases hfound
      exact ⟨hopens i ht, hoffers⟩

/-- Without a context, nothing is made. -/
theorem Dispatched.idle {r : Request} {a : Except Failure Reply × Request}
    (h : Dispatched o s r w a w')
    (hno : r.refusal? ≠ none ∨ ∀ c, (w.tryContext r.language).1 ≠ .ok (some c)) :
    w'.store = w.store ∧ w'.registry = w.registry := by
  have hlook {x : Except Failure (Option Context)} {w₁ : World ε}
      (hc : w.tryContext r.language = (x, w₁)) :
      w₁.store = w.store ∧ w₁.registry = w.registry :=
    ⟨World.store_tryContext hc, (World.attempted_tryContext hc).registry⟩
  have hyes {c : Context} {w₁ : World ε} (hc : w.tryContext r.language = (.ok (some c), w₁)) :
      r.refusal? ≠ none := by
    rcases hno with hno | hno
    · exact hno
    · exact absurd (by rw [hc]) (hno c)
  cases h with
  | unread hc => exact hlook hc
  | unknown hc => exact hlook hc
  | refused hc _ => exact hlook hc
  | alone hc hs _ => exact absurd (by rw [Request.refusal?, hs]) (hyes hc)
  | locked hc ht _ _ => exact absurd (Request.refusal?_of_target? ht) (hyes hc)

/-- The request that classification makes: refused if the language is found missing, and else for
the same session as before. -/
theorem Classified.refusal {raw : String} {field : Option String} {r' : Request}
    (h : Classified s raw field w (some r') w') :
    ∃ r, s.classifier.classify raw field = some r ∧ r'.language = r.language ∧
      ((w.tryContext r.language).1 = .ok none ∧ r'.refusal? ≠ none ∨
        (w.tryContext r.language).1 ≠ .ok none ∧ r'.refusal? = none ∧ r'.target? = r.target?) := by
  cases h with
  | unread hp hc =>
    exact ⟨_, hp, rfl, .inr ⟨by rw [hc]; nofun, refusal?_of_classify hp, rfl⟩⟩
  | unknown hp hc => exact ⟨_, hp, rfl, .inl ⟨by rw [hc], nofun⟩⟩
  | alone hp hc _ =>
    exact ⟨_, hp, rfl, .inr ⟨by rw [hc]; nofun, refusal?_of_classify hp, rfl⟩⟩
  | unconfirmed hp hc _ _ =>
    exact ⟨_, hp, rfl, .inr ⟨by rw [hc]; nofun, refusal?_of_classify hp, rfl⟩⟩
  | confirmed hp hc _ _ =>
    refine ⟨_, hp, Request.confirm_language _ _, .inr ⟨by rw [hc]; nofun, ?_, ?_⟩⟩
    · rw [refusal?_confirm]
      exact refusal?_of_classify hp
    · exact Request.target?_confirm _ _

end Course

/-! ## Executing a cell -/

section

variable {o : Surroundings ε} {s : Service} {raw : String} {field : Option String} {w w' : World ε}

theorem classified_eq {q : Option Request}
    (h : (s.classify raw field).exec o 0 w = (some q, w')) : w.classified o s raw field = w' := by
  rw [World.classified, h]

theorem name_of_tryContext (hw : w.store.Keyed) {n : String} {c : Context}
    (h : (w.tryContext n).1 = .ok (some c)) : c.name = n :=
  Store.findContext_name hw (World.tryContext_ok (Prod.ext h rfl))

/-- The request that classification makes is run exactly if the cell is admitted. -/
theorem runs_iff_admits (hw : w.store.Keyed) {r' : Request} {w₁ : World ε}
    (he : (s.classify raw field).exec o 0 w = (some (some r'), w₁))
    (hc : Course.Classified s raw field w (some r') w₁) :
    Course.Runs o r' w₁ ↔ ∃ r c, Admits o s raw field w r c := by
  obtain ⟨r, hp, hlang, hrefusal⟩ := hc.refusal
  have hregistry := hc.attempted.registry
  have houtside := hc.attempted.outside
  have hw₁ : w₁.store.Keyed := by rwa [hc.store_eq]
  constructor
  · rintro ⟨hnone, c, hfound, hopens, hoffers⟩
    rw [hlang] at hfound hopens
    have hname := name_of_tryContext hw₁ hfound
    obtain ⟨hmissing, -, htarget⟩ := hrefusal.resolve_left fun h => h.2 hnone
    rw [hregistry, houtside] at hoffers
    refine ⟨r, c, hp, hmissing, ?_, ?_, ?_, ?_⟩
    · rw [Finds, classified_eq he]
      exact hfound
    · rw [classified_eq he, ← hname, ← htarget]
      exact hname ▸ hopens
    · rw [← hname]
      exact hoffers.registered
    · rw [← hname]
      exact hoffers.made
  · rintro ⟨r₀, c, h⟩
    obtain rfl : r = r₀ := by
      have hr := h.accepted
      rw [hp] at hr
      exact Option.some.inj hr
    obtain ⟨-, hnone, htarget⟩ := hrefusal.resolve_left fun hm => h.notMissing hm.1
    have hfound := h.found
    have hopened := h.opened
    rw [Finds] at hfound
    rw [classified_eq he] at hfound hopened
    have hname := name_of_tryContext hw₁ hfound
    refine ⟨hnone, c, by rw [hlang]; exact hfound, ?_, ?_, ?_⟩
    · intro i hi
      rw [hlang, hname]
      exact hopened i (htarget ▸ hi)
    · rw [hregistry, hname]
      exact h.registered
    · rw [hregistry, houtside, hname]
      exact h.made

end

theorem Reply.ne_ok_of_isError {a : Reply} (h : a.isError) (content : String) : a ≠ .ok content := by
  rintro rfl
  cases h

/-- A cell that launches nothing is answered by an error, and leaves all histories as they are. -/
theorem launched_execute (o : Surroundings ε) (s : Service) (raw : String) (field : Option String)
    {w : World ε} (hw : w.store.Keyed) (hl : w.locks.Unused) :
    ∃ a w', (s.execute raw field).exec o 0 w = (some a, w') ∧
      Launched (∃ r c, Admits o s raw field w r c) w w' a ∧
      (a.isError → ∀ k, w'.store.history k = w.store.history k) ∧
      ((∀ r c, s.classifier.classify raw field = some r → (w.tryContext r.language).1 ≠ .ok none →
        ¬ Finds o s raw field w r c) → w'.store = w.store ∧ w'.registry = w.registry) := by
  obtain ⟨q, w₁, he, hc⟩ := Course.exec_classify o 0 s raw field w
  simp only [Service.execute, Program.bind_eq, Program.pure_eq]
  rw [Program.exec_bind, he]
  cases q with
  | none =>
    refine ⟨_, w₁, rfl, ?_, fun _ k => by rw [hc.store_eq], fun _ => ⟨hc.store_eq, hc.attempted.registry⟩⟩
    refine launched_never ?_ hc.attempted.calls rfl
    rintro ⟨r, c, h⟩
    cases hc with
    | rejected hp =>
      have hr := h.accepted
      rw [hp] at hr
      cases hr
  | some r' =>
    obtain ⟨a, w₂, hd, hdispatched⟩ :=
      Course.exec_dispatch o 0 s r' (w := w₁) (by rwa [hc.attempted.locks])
    refine ⟨Course.replyOf a.1, w₂, ?_, ?_, fun herror k => ?_, fun hno => ?_⟩
    · dsimp only
      rw [Program.exec_bind, hd]
      rfl
    · exact (hdispatched.launched.of_calls hc.attempted.calls).congr (runs_iff_admits hw he hc)
    · have hrecords := (hdispatched.records (by rwa [hc.store_eq])).history k
      rw [if_neg fun h => Reply.ne_ok_of_isError herror _ h.2.2, List.append_nil] at hrecords
      rw [hrecords, hc.store_eq]
    · obtain ⟨r, hp, hlang, hrefusal⟩ := hc.refusal
      have hidle := hdispatched.idle (by
        rcases hrefusal with ⟨-, hrefused⟩ | ⟨hmissing, -⟩
        · exact .inl hrefused
        · refine .inr fun c hfound => hno r c hp hmissing ?_
          rw [Finds, classified_eq he, ← hlang]
          exact hfound)
      rw [hidle.1, hidle.2]
      exact ⟨hc.store_eq, hc.attempted.registry⟩

/-- Behind any run and whatever the store refuses, executing a cell makes one program call at most,
and it makes one exactly if the cell is admitted. If it makes none, the reply is an error and no
history changes; if the cell is rejected or no context is found for it, nothing is stored and no
handler is made. -/
theorem launched_iff_admitted (o : Surroundings ε) (s : Service) {st : Store} (hst : st.Keyed)
    (factories : Table String HandlerKind) (faults : Faults) (outside : ε)
    (xs : List (Happening ε)) (raw : String) (field : Option String) :
    let w := xs.foldl (World.happen o s) (World.new st factories faults outside)
    ∃ a w', (s.execute raw field).exec o 0 w = (some a, w') ∧
      ((∃ r c, Admits o s raw field w r c) → ∃ call, w'.calls = w.calls ++ [call]) ∧
      ((¬ ∃ r c, Admits o s raw field w r c) →
        w'.calls = w.calls ∧ a.isError ∧ ∀ k, w'.store.history k = w.store.history k) ∧
      ((∀ r c, s.classifier.classify raw field = some r → (w.tryContext r.language).1 ≠ .ok none →
        ¬ Finds o s raw field w r c) → w'.store = w.store ∧ w'.registry = w.registry) := by
  intro w
  have hw : w.Sound factories := (sound_new hst factories faults outside).happenAll o s xs
  obtain ⟨a, w', he, hlaunched, hhistory, hidle⟩ :=
    launched_execute o s raw field hw.keyed hw.unused
  refine ⟨a, w', he, hlaunched.once, fun hno => ?_, hidle⟩
  obtain ⟨hcalls, herror⟩ := hlaunched.never hno
  exact ⟨hcalls, herror, hhistory herror⟩

/-- A machine on which programs come and go. -/
def changing : Surroundings (List String) :=
  ⟨fun there path => path ∈ there, fun there _ => (.ok ⟨some 0, ""⟩, there)⟩

def changingStore : Store :=
  .memory (MemoryStore.empty.saveContext ⟨"shell", "/bin/sh"⟩)

/-- The session cannot be made at first; then a handler is made; then its program is removed. -/
def changingRun : List (Happening (List String)) :=
  [.call (.execute "%shell a=1" (some "7")), .call (.execute "%shell b=2" none),
    .outside fun _ => []]

/-- The first save fails, and so does the lookup of a context when the last cell is classified. -/
def changingWorld : World (List String) :=
  changingRun.foldl (World.happen changing pairService)
    (World.new changingStore Registry.builtin ⟨[(.saveSession, 0), (.findContext, 4)], .empty⟩
      ["/bin/sh"])

theorem launched_iff_admitted_changing :
    changingStore.Keyed ∧
      (∃ r c, Admits changing pairService "%shell c=3" (some "7") changingWorld r c) ∧
      (∃ a w', (pairService.execute "%shell c=3" (some "7")).exec changing 0 changingWorld =
        (some a, w') ∧ ∃ call, w'.calls = changingWorld.calls ++ [call]) := by
  have hst : changingStore.Keyed :=
    MemoryStore.keyed_saveContext MemoryStore.keyed_empty _
  have hadmits : Admits changing pairService "%shell c=3" (some "7") changingWorld
      ⟨"shell", "c=3", some ⟨7, by decide, by decide⟩, .good⟩ ⟨"shell", "/bin/sh"⟩ := by
    refine ⟨by decide +kernel, by decide +kernel, by unfold Finds; decide +kernel, ?_,
      by decide +kernel, .inl (by decide +kernel)⟩
    intro i hi
    cases hi
    exact ⟨none, by decide +kernel, fun _ => by decide +kernel⟩
  obtain ⟨a, w', he, honce, -⟩ := launched_iff_admitted changing pairService hst Registry.builtin
    ⟨[(.saveSession, 0), (.findContext, 4)], .empty⟩ ["/bin/sh"] changingRun "%shell c=3" (some "7")
  exact ⟨hst, ⟨_, _, hadmits⟩, a, w', he, honce ⟨_, _, hadmits⟩⟩

end CellReplay
