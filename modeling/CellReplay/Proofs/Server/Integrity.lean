import CellReplay.Server
import CellReplay.Proofs.Service.Interleaving
import CellReplay.Proofs.Service.Parentage
import CellReplay.Proofs.Service.Serial
import CellReplay.Proofs.Service.Upshot
import CellReplay.Proofs.Store.Agreement

/-!
# Proofs.Server.Integrity

Every session in memory belongs to a context that is stored, though nothing in the store sees to it:
calls that take turns keep it so, and so do contexts that are saved and servers that come up, whatever
is made to fail. A database, which does see to it, would have nothing to object to.

* `MemoryStore.Referential` — contexts and sessions stand under their own names and keys, and every
  session belongs to a stored context.
* `World.bootstrap`  — a server comes up, while store operations can be made to fail.
* `bootstrap_calm`   — it is `bootstrap` where none is.
* `Move`, `Crew.move` — what can happen next to the calls of a service and around them.
* `Crew.Founded`     — the invariant: what the calls have found out is honest and lasts.
* `sessions_referential` — behind any run.
-/

namespace CellReplay

open Config

variable {ε : Type}

/-! ## The store -/

/-- Contexts and sessions stand where saving puts them, and every session belongs to a stored context. -/
structure MemoryStore.Referential (m : MemoryStore) : Prop where
  keyed : m.Keyed
  parents : ∀ k x, m.sessions.get? k = some x → (m.contexts.get? x.context).isSome

namespace Store

/-- This is about memory only; a database sees to it by itself. -/
def Referential : Store → Prop
  | memory m => m.Referential
  | database _ => False
  | closed _ => False

variable {s : Store}

theorem Referential.keyed (h : s.Referential) : s.Keyed := by
  cases s with
  | memory m => exact MemoryStore.Referential.keyed h
  | database d => trivial
  | closed d => trivial

theorem referential_saveContext (h : s.Referential) (c : Context) :
    (s.saveContext c).2.Referential := by
  cases s with
  | memory m =>
    refine ⟨MemoryStore.keyed_saveContext h.keyed c, fun k x hx => ?_⟩
    have hparent := MemoryStore.Referential.parents h k x hx
    simp only [MemoryStore.saveContext, Table.get?_put]
    split
    · rfl
    · exact hparent
  | database d => exact h.elim
  | closed d => exact h.elim

theorem referential_saveSession (h : s.Referential) {x : Session} (hx : s.knowsContext x.context) :
    (s.saveSession x).2.Referential := by
  cases s with
  | memory m =>
    refine ⟨MemoryStore.keyed_saveSession h.keyed x, fun k y hy => ?_⟩
    simp only [MemoryStore.saveSession, Table.get?_put] at hy
    split at hy
    · cases hy
      exact hx
    · exact MemoryStore.Referential.parents h k y hy
  | database d => exact h.elim
  | closed d => exact h.elim

theorem Referential.exists_memory (h : s.Referential) : ∃ m, s = memory m ∧ m.Referential := by
  cases s with
  | memory m => exact ⟨m, rfl, h⟩
  | database d => exact h.elim
  | closed d => exact h.elim

end Store

/-! ## Coming up -/

namespace World

def saveContext (w : World ε) (c : Context) : Except Failure Unit × World ε :=
  w.attempt .saveContext (·.saveContext c)

/-- Saves every context whose name is not there yet, up to the first failure. -/
def seedContexts (w : World ε) : List Context → Except Failure Nat × World ε
  | [] => (.ok 0, w)
  | c :: cs =>
    match w.tryContext c.name with
    | (.error e, w) => (.error e, w)
    | (.ok (some _), w) => w.seedContexts cs
    | (.ok none, w) =>
      match w.saveContext c with
      | (.error e, w) => (.error e, w)
      | (.ok (), w) => let (n, w) := w.seedContexts cs; (n.map (· + 1), w)

def seedSession (w : World ε) (k : SessionKey) : Except Failure Bool × World ε :=
  match w.tryFind k with
  | (.error e, w) => (.error e, w)
  | (.ok (some _), w) => (.ok false, w)
  | (.ok none, w) => let (r, w) := w.trySave k.newSession; (r.map fun _ => true, w)

/-- Makes sure of contexts, and then of the default session. -/
def bootstrap (w : World ε) (c : ServerConfig) : Except StartError Unit × World ε :=
  match w.seedContexts c.contexts with
  | (.error e, w) => (.error (.contexts e), w)
  | (.ok _, w) =>
    match c.defaultSession with
    | none => (.ok (), w)
    | some id =>
      match w.seedSession ⟨c.defaultContext.name, id⟩ with
      | (.error e, w) => (.error (.session e), w)
      | (.ok _, w) => (.ok (), w)

variable {w : World ε}

/-- Where nothing is made to fail, an attempt is the operation itself. -/
theorem attempt_calm {α : Type} {m : Method} {op : Store → Except Failure α × Store}
    {r : Except Failure α} {w₁ : World ε} (hw : w.Calm) (h : w.attempt m op = (r, w₁)) :
    op w.store = (r, w₁.store) ∧ w₁.Calm := by
  rw [attempt_of_spent (hw m)] at h
  cases h
  exact ⟨rfl, fun m' => (hw m').counted m⟩

theorem seedContexts_calm {w₁ : World ε} {cs : List Context} {r : Except Failure Nat} (hw : w.Calm)
    (h : w.seedContexts cs = (r, w₁)) : w.store.seedContexts cs = (r, w₁.store) ∧ w₁.Calm := by
  induction cs generalizing w w₁ r with
  | nil =>
    cases h
    exact ⟨rfl, hw⟩
  | cons c cs ih =>
    rcases hfind : w.tryContext c.name with ⟨found, w₂⟩
    obtain ⟨hfound, hcalm⟩ := attempt_calm hw hfind
    obtain ⟨hfound, hstore⟩ := Prod.mk.inj hfound
    rw [seedContexts, hfind] at h
    rw [Store.seedContexts, hfound, hstore]
    rcases found with e | _ | x
    · cases h
      exact ⟨rfl, hcalm⟩
    · rcases hsave : w₂.saveContext c with ⟨saved, w₃⟩
      obtain ⟨hsaved, hcalm₃⟩ := attempt_calm hcalm hsave
      have hsaved : w₂.store.saveContext c = (saved, w₃.store) := hsaved
      simp only [hsave] at h
      simp only [hsaved]
      cases saved with
      | error e =>
        cases h
        exact ⟨rfl, hcalm₃⟩
      | ok _ =>
        rcases hrest : w₃.seedContexts cs with ⟨n, w₄⟩
        obtain ⟨hseeded, hcalm₄⟩ := ih hcalm₃ hrest
        simp only [hrest] at h
        cases h
        refine ⟨?_, hcalm₄⟩
        simp only [hseeded]
    · exact ih hcalm h

theorem seedSession_calm {w₁ : World ε} {k : SessionKey} {r : Except Failure Bool} (hw : w.Calm)
    (h : w.seedSession k = (r, w₁)) : w.store.seedSession k = (r, w₁.store) := by
  rcases hfind : w.tryFind k with ⟨found, w₂⟩
  obtain ⟨hfound, hcalm⟩ := attempt_calm hw hfind
  obtain ⟨hfound, hstore⟩ := Prod.mk.inj hfound
  rw [seedSession, hfind] at h
  rw [Store.seedSession, hfound, hstore]
  rcases found with e | _ | x
  · cases h
    rfl
  · rcases hsave : w₂.trySave k.newSession with ⟨saved, w₃⟩
    obtain ⟨hsaved, -⟩ := attempt_calm hcalm hsave
    have hsaved : w₂.store.saveSession k.newSession = (saved, w₃.store) := hsaved
    simp only [hsave] at h
    cases h
    simp only [hsaved]
  · cases h
    rfl

/-- Where nothing is made to fail, a server comes up as ever. -/
theorem bootstrap_calm (hw : w.Calm) (c : ServerConfig) :
    CellReplay.bootstrap c w.store =
      (w.bootstrap c).1.map fun _ => (w.bootstrap c).2.store := by
  unfold bootstrap CellReplay.bootstrap
  rcases hcontexts : w.seedContexts c.contexts with ⟨e | n, w₁⟩
  · rw [(seedContexts_calm hw hcontexts).1]
    rfl
  · obtain ⟨hseeded, hcalm⟩ := seedContexts_calm hw hcontexts
    rw [hseeded]
    cases hid : c.defaultSession with
    | none => rfl
    | some id =>
      simp only
      rcases hsession : w₁.seedSession ⟨c.defaultContext.name, id⟩ with ⟨e | made, w₂⟩
      · rw [seedSession_calm hcalm hsession]
        rfl
      · rw [seedSession_calm hcalm hsession]
        rfl

/-! ### What coming up keeps -/

/-- What is kept where a context is looked up or saved is kept where contexts are made sure of. -/
theorem seedContexts_keeps {P : World ε → Prop} (hfind : ∀ w n, P w → P (w.tryContext n).2)
    (hsave : ∀ w c, P w → P (w.saveContext c).2) (hw : P w) (cs : List Context) :
    P (w.seedContexts cs).2 := by
  induction cs generalizing w with
  | nil => exact hw
  | cons c cs ih =>
    have hfound := hfind w c.name hw
    rcases hc : w.tryContext c.name with ⟨found, w₁⟩
    rw [hc] at hfound
    rw [seedContexts, hc]
    rcases found with e | _ | x
    · exact hfound
    · have hsaved := hsave w₁ c hfound
      rcases hs : w₁.saveContext c with ⟨saved, w₂⟩
      simp only [hs] at hsaved ⊢
      cases saved with
      | error e => exact hsaved
      | ok _ => exact ih hsaved
    · exact ih hfound

/-- Between two worlds, every session still belongs to a stored context, and nothing has been lost. -/
structure Tended (w w' : World ε) : Prop where
  referential : w'.store.Referential
  grows : w.store.Grows w'.store

theorem tended_refl (h : w.store.Referential) : Tended w w := ⟨h, Store.grows_refl h.keyed⟩

theorem Tended.trans {w₁ w₂ : World ε} (h₁ : Tended w w₁) (h₂ : Tended w₁ w₂) : Tended w w₂ :=
  ⟨h₂.referential, h₁.grows.trans h₂.grows⟩

theorem tended_of_store {w₁ : World ε} (h : w.store.Referential) (hs : w₁.store = w.store) :
    Tended w w₁ := by
  refine ⟨by rwa [hs], ?_⟩
  rw [hs]
  exact Store.grows_refl h.keyed

theorem tended_saveContext (h : w.store.Referential) (c : Context) :
    Tended w (w.saveContext c).2 := by
  rcases store_attempt w .saveContext (·.saveContext c) with hs | hs
  · exact tended_of_store h hs
  · exact ⟨hs ▸ Store.referential_saveContext h c, hs ▸ Store.grows_saveContext h.keyed c⟩

theorem tended_trySave (h : w.store.Referential) {x : Session} (hx : w.store.knowsContext x.context) :
    Tended w (w.trySave x).2 := by
  rcases store_attempt w .saveSession (·.saveSession x) with hs | hs
  · exact tended_of_store h hs
  · exact ⟨hs ▸ Store.referential_saveSession h hx, hs ▸ Store.grows_saveSession h.keyed x⟩

theorem tended_seedContexts (h : w.store.Referential) (cs : List Context) :
    Tended w (w.seedContexts cs).2 :=
  seedContexts_keeps (P := Tended w)
    (fun _ _ hw => hw.trans (tended_of_store hw.referential (store_tryContext rfl)))
    (fun _ c hw => hw.trans (tended_saveContext hw.referential c)) (tended_refl h) cs

/-- Where the contexts have been made sure of, all of them are stored. -/
theorem knowsContext_seedContexts {cs : List Context} {w₁ : World ε} {n : Nat}
    (h : w.store.Referential) (hr : w.seedContexts cs = (.ok n, w₁)) :
    ∀ c ∈ cs, w₁.store.knowsContext c.name := by
  -- what is stored along the way is still stored in the end
  have hkept {w : World ε} {cs : List Context} {n : Nat} {c : Context} (h : w.store.Referential)
      (hr : w.seedContexts cs = (.ok n, w₁)) (hc : w.store.knowsContext c.name) :
      w₁.store.knowsContext c.name := by
    have htended := tended_seedContexts h cs
    rw [hr] at htended
    exact htended.grows.contexts _ hc
  induction cs generalizing w n with
  | nil => exact fun c hc => nomatch hc
  | cons c cs ih =>
    rcases hfind : w.tryContext c.name with ⟨found, w₂⟩
    have hstore := store_tryContext hfind
    have htended := tended_of_store h hstore
    rw [seedContexts, hfind] at hr
    rcases found with e | _ | x
    · cases hr
    · rcases hsave : w₂.saveContext c with ⟨e | _, w₃⟩
      · simp only [hsave] at hr
        cases hr
      · have hsaved := tended_saveContext htended.referential c
        have hc : w₃.store.knowsContext c.name :=
          (Store.knowsContext_saveContext (attempt_ok hsave) _).mpr (.inl rfl)
        rcases hrest : w₃.seedContexts cs with ⟨e | m, w₄⟩
        · simp only [hsave, hrest] at hr
          cases hr
        · simp only [hsave, hrest] at hr hsaved
          cases hr
          exact List.forall_mem_cons.mpr
            ⟨hkept hsaved.referential hrest hc, ih hsaved.referential hrest⟩
    · have hc : w₂.store.knowsContext c.name := by
        rw [hstore]
        exact Store.knowsContext_iff.mpr ⟨x, tryContext_ok hfind⟩
      exact List.forall_mem_cons.mpr ⟨hkept htended.referential hr hc, ih htended.referential hr⟩

theorem tended_seedSession {k : SessionKey} (h : w.store.Referential)
    (hk : w.store.knowsContext k.context) : Tended w (w.seedSession k).2 := by
  rcases hfind : w.tryFind k with ⟨found, w₂⟩
  have hstore := store_tryFind hfind
  have htended := tended_of_store h hstore
  rw [seedSession, hfind]
  rcases found with e | _ | x
  · exact htended
  · exact htended.trans (tended_trySave htended.referential (x := k.newSession) (hstore ▸ hk))
  · exact htended

theorem tended_bootstrap (h : w.store.Referential) (c : ServerConfig) :
    Tended w (w.bootstrap c).2 := by
  have htended := tended_seedContexts h c.contexts
  rcases hcontexts : w.seedContexts c.contexts with ⟨r, w₁⟩
  rw [hcontexts] at htended
  rw [bootstrap, hcontexts]
  cases r with
  | error e => exact htended
  | ok n =>
    cases c.defaultSession with
    | none => exact htended
    | some id =>
      have hdefault : w₁.store.knowsContext c.defaultContext.name :=
        knowsContext_seedContexts h hcontexts _ List.mem_cons_self
      have hsession := tended_seedSession (k := ⟨c.defaultContext.name, id⟩) htended.referential
        hdefault
      dsimp only
      split <;> next heq => rw [heq] at hsession; exact htended.trans hsession

end World

/-! ## Calls, and what happens around them -/

/-- What can happen next: a call comes in, or a call takes its next effect; a context is saved; a server
comes up; or something changes on the outside. -/
inductive Move (ε : Type)
  | call (q : ServiceCall)
  | step (i : Nat)
  | saveContext (x : Context)
  | bootstrap (b : ServerConfig)
  | outside (f : ε → ε)

/-- The session that a program is about to save. -/
def Program.saving? {α : Type} : Program α → Option Session
  | .perform (.saveSession x) _ => some x
  | _ => none

namespace Crew

def move (o : Surroundings ε) (s : Service) (c : Crew ε ServiceAnswer) :
    Move ε → Crew ε ServiceAnswer
  | .call q => { c with programs := c.programs ++ [s.serve q] }
  | .step i => c.step o i
  | .saveContext x => { c with world := (c.world.saveContext x).2 }
  | .bootstrap b => { c with world := (c.world.bootstrap b).2 }
  | .outside f => { c with world := { c.world with outside := f c.world.outside } }

/-- Every session belongs to a stored context, and every call has found out what is so, and is so
still. -/
structure Founded (s : Service) (c : Crew ε ServiceAnswer) : Prop where
  referential : c.world.store.Referential
  calls : ∀ p ∈ c.programs, ∃ q log, (s.serve q).Leads log p ∧
    ∀ x ∈ log, x.Honest ∧ x.Lasting c.world.store

namespace Founded

variable {o : Surroundings ε} {s : Service} {c : Crew ε ServiceAnswer}

theorem withWorld (h : c.Founded s) {w : World ε} (hw : World.Tended c.world w) :
    Founded s { c with world := w } := by
  refine ⟨hw.referential, fun p hp => ?_⟩
  obtain ⟨q, log, hleads, hlog⟩ := h.calls p hp
  exact ⟨q, log, hleads, fun x hx => ⟨(hlog x hx).1, (hlog x hx).2.grows hw.grows⟩⟩

/-- A call that is about to save a session has found its context, which is still there. -/
theorem knowsContext (h : c.Founded s) {p : Program ServiceAnswer} (hp : p ∈ c.programs)
    {x : Session} (hx : p.saving? = some x) : c.world.store.knowsContext x.context := by
  obtain ⟨q, log, hleads, hlog⟩ := h.calls p hp
  unfold Program.saving? at hx
  split at hx
  · cases hx
    obtain ⟨found, hmem⟩ := found_of_saves hleads fun y hy => (hlog y hy).1
    exact (hlog _ hmem).2
  · cases hx

theorem tended_answer (h : c.Founded s) {i : Nat} {e : Effect}
    {next : e.Answer → Program ServiceAnswer} (hp : c.programs[i]? = some (.perform e next)) :
    World.Tended c.world (c.world.answer o i e).2 := by
  refine ⟨?_, grows_answer h.referential.keyed e⟩
  rcases store_answer o i c.world e with hs | ⟨x, rfl, hs⟩
  · rw [hs]
    exact h.referential
  · rw [hs]
    exact Store.referential_saveSession h.referential
      (h.knowsContext (List.mem_of_getElem? hp) rfl)

theorem step (h : c.Founded s) (i : Nat) : (c.step o i).Founded s := by
  unfold Crew.step
  split
  · next e next hp =>
    have htended := h.tended_answer (o := o) hp
    have hsame := h.withWorld htended
    split
    · next b w hb =>
      rw [hb] at htended hsame
      refine ⟨htended.referential, fun p hmem => ?_⟩
      rcases List.mem_or_eq_of_mem_set hmem with hmem | rfl
      · exact hsame.calls p hmem
      · -- the call has found out one more thing
        obtain ⟨q, log, hleads, hlog⟩ := hsame.calls _ (List.mem_of_getElem? hp)
        refine ⟨q, log ++ [⟨e, b⟩], hleads.trans (.step b (.here _)), ?_⟩
        rw [List.forall_mem_append]
        refine ⟨hlog, List.forall_mem_singleton.mpr ⟨?_, ?_⟩⟩
        · exact honest_answer h.referential.keyed hb
        · exact lasting_answer h.referential.keyed hb
    · next w hb =>
      rwa [hb] at hsame
  · exact h

theorem move (h : c.Founded s) (x : Move ε) : (c.move o s x).Founded s := by
  cases x with
  | call q =>
    refine ⟨h.referential, fun p hp => ?_⟩
    rcases List.mem_append.mp hp with hp | hp
    · exact h.calls p hp
    · rw [List.mem_singleton.mp hp]
      exact ⟨q, [], .here _, fun y hy => nomatch hy⟩
  | step i => exact h.step i
  | saveContext x => exact h.withWorld (World.tended_saveContext h.referential x)
  | bootstrap b => exact h.withWorld (World.tended_bootstrap h.referential b)
  | outside f => exact h.withWorld (World.tended_of_store h.referential rfl)

theorem moveAll (h : c.Founded s) (xs : List (Move ε)) : (xs.foldl (Crew.move o s) c).Founded s := by
  induction xs generalizing c with
  | nil => exact h
  | cons x xs ih => exact ih (h.move x)

end Founded

end Crew

/-- From a store in memory in which every session belongs to a stored context, whatever calls come in
and take turns, whatever contexts are saved, whatever servers come up and whatever is made to fail: it
stays like that. A session that a call is about to save belongs to a stored context too, and so does the
default session of a server whose contexts have been made sure of; so a database with the same rows would
save it. -/
theorem sessions_referential (o : Surroundings ε) (s : Service) {m : MemoryStore}
    (hm : m.Referential) (factories : Table String HandlerKind) (faults : Faults) (outside : ε)
    (xs : List (Move ε)) :
    let c := xs.foldl (Crew.move o s) ⟨[], World.new (.memory m) factories faults outside, []⟩
    ∃ m', c.world.store = .memory m' ∧ m'.Referential ∧
      (∀ p ∈ c.programs, ∀ x, p.saving? = some x →
        (m'.contexts.get? x.context).isSome ∧ ∀ d, Agrees m' d → (d.saveSession x).1 = .ok ()) ∧
      ∀ (b : ServerConfig) (n : Nat) (w : World ε),
        c.world.seedContexts b.contexts = (.ok n, w) →
        ∃ m'', w.store = .memory m'' ∧ (m''.contexts.get? b.defaultContext.name).isSome ∧
          ∀ i d, Agrees m'' d →
            (d.saveSession (SessionKey.newSession ⟨b.defaultContext.name, i⟩)).1 = .ok () := by
  intro c
  have hstart : Crew.Founded (ε := ε) s ⟨[], World.new (.memory m) factories faults outside, []⟩ :=
    ⟨hm, fun p hp => nomatch hp⟩
  have hc : c.Founded s := hstart.moveAll xs
  have hsaved {m' : MemoryStore} {d : Database} {x : Session} (hd : Agrees m' d)
      (hx : (m'.contexts.get? x.context).isSome) : (d.saveSession x).1 = .ok () := by
    rw [(hd.saveSession hx).1]
  obtain ⟨m', hstore, hm'⟩ := hc.referential.exists_memory
  refine ⟨m', hstore, hm', fun p hp x hx => ?_, fun b n w hseeded => ?_⟩
  · have hknown := hc.knowsContext hp hx
    rw [hstore] at hknown
    exact ⟨hknown, fun d hd => hsaved hd hknown⟩
  · have htended := World.tended_seedContexts hc.referential b.contexts
    rw [hseeded] at htended
    obtain ⟨m'', hstore', -⟩ := htended.referential.exists_memory
    have hdefault := World.knowsContext_seedContexts hc.referential hseeded b.defaultContext
      List.mem_cons_self
    rw [hstore'] at hdefault
    exact ⟨m'', hstore', hdefault, fun i d hd => hsaved hd hdefault⟩

def seededStore : MemoryStore :=
  (MemoryStore.empty.saveContext ⟨"python", "/opt/py"⟩).saveSession
    ⟨"python", ⟨3, by decide, by decide⟩, ["x = 1"]⟩

def seededConfig : ServerConfig where
  properties := .empty
  host := "localhost"
  port := 8080
  storage := .memory
  defaultContext := ⟨"shell", "/bin/sh"⟩
  defaultSession := SessionId.ofInt? 1
  extraContexts := [⟨"python", "/usr/bin/python3"⟩]

/-- The first context cannot be saved when the server comes up for the first time; then two calls take
turns. -/
def seededMoves : List (Move Unit) :=
  [.bootstrap seededConfig, .bootstrap seededConfig, .call (.execute "%shell a=1" (some "7")),
    .call (.dispatch ⟨"python", "y = 2", some ⟨3, by decide, by decide⟩, .good⟩)] ++
    (List.replicate 5 [.step 0, .step 1]).flatten

theorem sessions_referential_seeded :
    let c := seededMoves.foldl (Crew.move silent pairService)
      ⟨[], World.new (.memory seededStore) Registry.builtin ⟨[(.saveContext, 0)], .empty⟩ (), []⟩
    seededStore.Referential ∧
      c.programs.map (·.saving?) = [some ⟨"shell", ⟨7, by decide, by decide⟩, []⟩,
        some ⟨"python", ⟨3, by decide, by decide⟩, ["x = 1", "y = 2"]⟩] ∧
      ∃ m, c.world.store = .memory m ∧ m.Referential ∧ (m.contexts.get? "shell").isSome ∧
        (m.contexts.get? "python").isSome := by
  intro c
  have hempty : (Store.memory .empty).Referential :=
    ⟨MemoryStore.keyed_empty, fun _ _ h => nomatch h⟩
  have hstore : seededStore.Referential :=
    Store.referential_saveSession (Store.referential_saveContext hempty ⟨"python", "/opt/py"⟩) (by decide)
  have hsaving : c.programs.map (·.saving?) = [some ⟨"shell", ⟨7, by decide, by decide⟩, []⟩,
      some ⟨"python", ⟨3, by decide, by decide⟩, ["x = 1", "y = 2"]⟩] := by decide +kernel
  obtain ⟨m, hm, hreferential, hparents, -⟩ := sessions_referential silent pairService hstore
    Registry.builtin ⟨[(.saveContext, 0)], .empty⟩ () seededMoves
  have hparent {x : Session} (hx : some x ∈ c.programs.map (·.saving?)) :
      (m.contexts.get? x.context).isSome := by
    obtain ⟨p, hp, hsaves⟩ := List.mem_map.mp hx
    exact (hparents p hp x hsaves).1
  rw [hsaving] at hparent
  exact ⟨hstore, hsaving, m, hm, hreferential, hparent List.mem_cons_self,
    hparent (List.mem_cons_of_mem _ List.mem_cons_self)⟩

end CellReplay
