import CellReplay.Proofs.Service.History
import CellReplay.Proofs.Store.Orders

/-!
# Proofs.Service.Launch

The program calls that a service makes. Whatever has happened before, a call of the service makes
one program call at most, and that one is determined by the request, by what is stored when the call
is made, by the properties and by the kinds of handlers that are registered.

* `Service.launch`   — the program call, with all that goes into it.
* `Launches`         — a program call is the one for a request.
* `Happening`        — what can happen to a service and around it.
* `Registry.Sound`   — the invariant: handlers that were made before are of the registered kind.
* `launches_serve`   — the program calls in a world that is `World.Sound`.
* `launches_reached` — the program calls behind any run.
-/

namespace CellReplay

open Text

variable {ε : Type}

/-! ## The program call of a request -/

def HandlerKind.between : HandlerKind → String
  | python => "|"
  | shell => "\n"

def HandlerKind.rewritten : HandlerKind → String → String
  | python, code => normalizeQuotes code
  | shell, code => code

/-- A property of a language, by its full name among all properties. -/
def Service.property (s : Service) (language name : String) : Option String :=
  s.properties.get? ("interpreter." ++ language ++ "." ++ name)

/-- The call that runs code behind the fragments of a session. -/
def Service.launch (s : Service) (kind : HandlerKind) (c : Context) (fragments : List String)
    (code : String) : Call where
  program := c.path
  args :=
    ["-c", join ((s.property c.name "separator").getD kind.between)
      (fragments.map kind.rewritten ++ [kind.rewritten code])]
  timeoutMs :=
    ((s.property c.name "timeout").bind fun text =>
      (readNat maxUInt64 (trim text.toList)).toOption).getD 5000

def Request.fragments (r : Request) (st : Store) : List String :=
  match r.target? with
  | none => []
  | some i => st.history ⟨r.language, i⟩

/-- A program call is the one for a request, with what is stored now. -/
def Launches (s : Service) (factories : Table String HandlerKind) (st : Store) (r : Request)
    (call : Call) : Prop :=
  ∃ c kind, st.findContext r.language = .ok (some c) ∧ c.name = r.language ∧
    factories.get? (typeName r.language) = some kind ∧
      call = s.launch kind c (r.fragments st) r.code

theorem property_settingsFor (s : Service) (language name : String) :
    (s.properties.settingsFor language).property name = s.property language name := by
  rw [Settings.property, Settings.get?, Properties.settingsFor, Table.get?_keep, if_pos]
  · rfl
  · rw [String.toList_append]
    exact List.isPrefixOf_iff_prefix.mpr (List.prefix_append _ _)

theorem callBy_eq_launch (s : Service) (h : Handler) (c : Context) (history : Option (List String))
    (code : String) : s.callBy h c history code = s.launch h.kind c (history.getD []) code := by
  have hquoting : h.kind.quoting.apply = h.kind.rewritten := by
    funext code
    cases h.kind <;> rfl
  have hbetween : h.kind.defaultSeparator = h.kind.between := by
    cases h.kind <;> rfl
  rw [Service.callBy, HandlerKind.call, Service.launch, Settings.timeoutMs, Settings.separatorOr,
    property_settingsFor, property_settingsFor, hbetween, hquoting.symm]
  cases history with
  | none => rfl
  | some fragments =>
    rw [replay, List.map_append]
    rfl

/-! ## One call -/

/-- Handlers that were made before are of the kind that is registered. -/
def Registry.Sound (r : Registry) : Prop :=
  ∀ n h, r.cache.get? n = some h → r.factories.get? (typeName n) = some h.kind

theorem resolve_factories (r : Registry) (isThere : String → Bool) (c : Context) :
    (r.resolve isThere c).2.factories = r.factories := by
  unfold Registry.resolve
  split
  · rfl
  · split
    · rfl
    · split <;> rfl

theorem sound_resolve {r : Registry} (hr : r.Sound) (isThere : String → Bool) (c : Context) :
    (r.resolve isThere c).2.Sound ∧ ∀ h, (r.resolve isThere c).1 = some h →
      r.factories.get? (typeName c.name) = some h.kind := by
  unfold Registry.resolve
  split
  · exact ⟨hr, fun h hh => by cases hh⟩
  · rename_i kind hkind
    split
    · rename_i h hcache
      exact ⟨hr, fun h' hh => by cases hh; exact hr _ _ hcache⟩
    · split
      · refine ⟨fun n h hn => ?_, fun h hh => by cases hh; exact hkind⟩
        rw [Table.get?_put] at hn
        split at hn
        · rename_i hc
          cases hn
          rw [← hc]
          exact hkind
        · exact hr n h hn
      · exact ⟨hr, fun h hh => by cases hh⟩

/-- What a part of a call has done to the registry and which program calls it has made. -/
structure Made (w w' : World ε) (calls : List Call) : Prop where
  factories : w'.registry.factories = w.registry.factories
  sound : w'.registry.Sound
  calls : w'.calls = w.calls ++ calls

theorem made_of_attempted {w w' : World ε} (h : World.Attempted w w') (hr : w.registry.Sound) :
    Made w w' [] :=
  ⟨by rw [h.registry], by rwa [h.registry], by rw [h.calls, List.append_nil]⟩

theorem Made.trans {w w₁ w₂ : World ε} {cs ds : List Call} (h₁ : Made w w₁ cs)
    (h₂ : Made w₁ w₂ ds) : Made w w₂ (cs ++ ds) :=
  ⟨h₂.factories.trans h₁.factories, h₂.sound, by rw [h₂.calls, h₁.calls, List.append_assoc]⟩

namespace Course

variable {o : Surroundings ε} {s : Service} {w w' : World ε}

theorem Interpreted.launches {c : Context} {history : Option (List String)} {code : String}
    {a : Option Interpretation} (h : Interpreted o s c history code w a w')
    (hr : w.registry.Sound) :
    Made w w' [] ∨ ∃ kind, w.registry.factories.get? (typeName c.name) = some kind ∧
      Made w w' [s.launch kind c (history.getD []) code] := by
  cases h with
  | absent _ => exact .inl ⟨rfl, hr, (List.append_nil _).symm⟩
  | @ran h reg hres =>
    have hs := sound_resolve hr (o.isThere w.outside) c
    have hf := resolve_factories w.registry (o.isThere w.outside) c
    rw [hres] at hs hf
    refine .inr ⟨h.kind, hs.2 h rfl, hf, hs.1, ?_⟩
    rw [← callBy_eq_launch]
    rfl

theorem InSession.launches {c : Context} {x : Session} {code : String} {a : Except Failure Reply}
    (h : InSession o s c x code w a w') (hr : w.registry.Sound) :
    Made w w' [] ∨ ∃ kind, w.registry.factories.get? (typeName c.name) = some kind ∧
      Made w w' [s.launch kind c x.history code] := by
  have hsaved {w₁ : World ε} {calls : List Call} {y : Session} {r : Except Failure Unit}
      (hm : Made w w₁ calls) (hs : w₁.trySave y = (r, w')) : Made w w' calls := by
    have := hm.trans (made_of_attempted (World.attempted_trySave hs) hm.sound)
    rwa [List.append_nil] at this
  cases h with
  | absent hi => exact hi.launches hr
  | shown hi _ => exact hi.launches hr
  | lost hi _ hs =>
    rcases hi.launches hr with hm | ⟨kind, hk, hm⟩
    · exact .inl (hsaved hm hs)
    · exact .inr ⟨kind, hk, hsaved hm hs⟩
  | kept hi _ hs =>
    rcases hi.launches hr with hm | ⟨kind, hk, hm⟩
    · exact .inl (hsaved hm hs)
    · exact .inr ⟨kind, hk, hsaved hm hs⟩

/-- The session is opened as it is stored, also if it had to be made. -/
theorem Locked.launches {c : Context} {k : SessionKey} {r : Request}
    {a : Except Failure Reply × Request} (h : Locked o s c k r w a w') (hr : w.registry.Sound)
    (hw : w.store.Keyed) :
    Made w w' [] ∨ ∃ kind, w.registry.factories.get? (typeName c.name) = some kind ∧
      Made w w' [s.launch kind c (w.store.history k) r.code] := by
  cases h with
  | unopened ho => exact .inl (made_of_attempted ho.attempted hr)
  | opened ho hi =>
    have hm := made_of_attempted ho.attempted hr
    have hx := (ho.history_eq hw).2
    rw [(ho.records hw).history, List.append_nil] at hx
    rcases hi.launches hm.sound with hm' | ⟨kind, hk, hm'⟩
    · exact .inl (hm.trans hm')
    · rw [hm.factories] at hk
      rw [hx] at hm'
      exact .inr ⟨kind, hk, hm.trans hm'⟩

theorem Dispatched.launches {r : Request} {a : Except Failure Reply × Request}
    (h : Dispatched o s r w a w') (hr : w.registry.Sound) (hw : w.store.Keyed) :
    Made w w' [] ∨ ∃ call, Launches s w.registry.factories w.store r call ∧ Made w w' [call] := by
  cases h with
  | unread hc => exact .inl (made_of_attempted (World.attempted_tryContext hc) hr)
  | unknown hc => exact .inl (made_of_attempted (World.attempted_tryContext hc) hr)
  | refused hc _ => exact .inl (made_of_attempted (World.attempted_tryContext hc) hr)
  | @alone c _ _ _ hc hs hi =>
    have hm := made_of_attempted (World.attempted_tryContext hc) hr
    have hfound := World.tryContext_ok hc
    have hname := Store.findContext_name hw hfound
    have hfrag : r.fragments w.store = [] := by
      -- without a session there is nothing to replay
      rw [Request.fragments, Request.target?, Request.needsSession, hs]
      rfl
    rcases hi.launches hm.sound with hm' | ⟨kind, hk, hm'⟩
    · exact .inl (hm.trans hm')
    · rw [hm.factories, hname] at hk
      refine .inr ⟨_, ⟨c, kind, hfound, hname, hk, rfl⟩, ?_⟩
      rw [hfrag]
      exact hm.trans hm'
  | @locked c i _ w₁ w₂ l l' hc ht hl _ =>
    have hm := made_of_attempted (World.attempted_tryContext hc) hr
    have hfound := World.tryContext_ok hc
    have hname := Store.findContext_name hw hfound
    have hstore := World.store_tryContext hc
    have hfrag : r.fragments w.store = w₁.store.history ⟨c.name, i⟩ := by
      rw [Request.fragments, ht, hstore, hname]
    rcases hl.launches hm.sound (by rwa [hstore]) with hm' | ⟨kind, hk, hm'⟩
    · exact .inl (hm.trans ⟨hm'.factories, hm'.sound, hm'.calls⟩)
    · rw [hm.factories, hname] at hk
      refine .inr ⟨_, ⟨c, kind, hfound, hname, hk, rfl⟩, ?_⟩
      rw [hfrag]
      exact hm.trans ⟨hm'.factories, hm'.sound, hm'.calls⟩

theorem Executed.launches {raw : String} {field : Option String} {a : Reply}
    (h : Executed o s raw field w a w') (hr : w.registry.Sound) (hw : w.store.Keyed) :
    Made w w' [] ∨ ∃ r call, s.classifier.classify raw field = some r ∧
      Launches s w.registry.factories w.store r call ∧ Made w w' [call] := by
  cases h with
  | rejected hc => exact .inl (made_of_attempted hc.attempted hr)
  | ran hc hd =>
    have hm := made_of_attempted hc.attempted hr
    -- classification keeps what the request is to launch, or finds that nothing can be launched
    obtain ⟨r, hp, hcode, hlang, ht | ⟨-, hs⟩⟩ := hc.request
    · rcases hd.launches hm.sound (by rwa [hc.store_eq]) with hm' | ⟨call, hl, hm'⟩
      · exact .inl (hm.trans hm')
      · rw [Launches, Request.fragments, hlang, ht, hcode, hm.factories, hc.store_eq] at hl
        exact .inr ⟨r, call, hp, hl, hm.trans hm'⟩
    · exact .inl (hm.trans (made_of_attempted (hd.of_noInterpreter hs).2 hm.sound))

end Course

/-! ## Runs -/

/-- What can happen to a service and around it: a call, something done to the store by others, or
any change on the outside. -/
inductive Happening (ε : Type)
  | call (c : ServiceCall)
  | order (q : StoreOrder)
  | outside (f : ε → ε)

def World.happen (o : Surroundings ε) (s : Service) (w : World ε) : Happening ε → World ε
  | .call c => ((s.serve c).exec o 0 w).2
  | .order q => { w with store := (w.store.follow q).2 }
  | .outside f => { w with outside := f w.outside }

/-- Nobody is inside a call, and the registry holds what its factories would make. -/
structure World.Sound (w : World ε) (factories : Table String HandlerKind) : Prop where
  keyed : w.store.Keyed
  unused : w.locks.Unused
  factories : w.registry.factories = factories
  registry : w.registry.Sound

theorem sound_new {st : Store} (hst : st.Keyed) (factories : Table String HandlerKind)
    (faults : Faults) (outside : ε) : (World.new st factories faults outside).Sound factories :=
  ⟨hst, rfl, rfl, fun _ _ h => nomatch h⟩

/-- A call makes one program call at most, the one of its request. -/
theorem launches_serve (o : Surroundings ε) (s : Service) (c : ServiceCall) {w : World ε}
    {factories : Table String HandlerKind} (h : w.Sound factories) :
    Made w ((s.serve c).exec o 0 w).2 [] ∨ ∃ r call, s.requestOf c = some r ∧
      Launches s factories w.store r call ∧ Made w ((s.serve c).exec o 0 w).2 [call] := by
  obtain ⟨hkeyed, hunused, rfl, hr⟩ := h
  cases c with
  | classify raw field =>
    obtain ⟨a, w', he, hc⟩ := Course.exec_classify o 0 s raw field w
    simp only [Service.serve, Program.bind_eq, Program.pure_eq]
    rw [Program.exec_bind, he]
    exact .inl (made_of_attempted hc.attempted hr)
  | dispatch r =>
    obtain ⟨a, w', he, hd⟩ := Course.exec_dispatch o 0 s r hunused
    simp only [Service.serve, Program.bind_eq, Program.pure_eq]
    rw [Program.exec_bind, he]
    rcases hd.launches hr hkeyed with hm | ⟨call, hl, hm⟩
    · exact .inl hm
    · exact .inr ⟨r, call, rfl, hl, hm⟩
  | execute raw field =>
    obtain ⟨a, w', he, hx⟩ := Course.exec_execute o 0 s raw field hunused
    simp only [Service.serve, Program.bind_eq, Program.pure_eq]
    rw [Program.exec_bind, he]
    exact hx.launches hr hkeyed

theorem World.Sound.happen {w : World ε} {factories : Table String HandlerKind}
    (h : w.Sound factories) (o : Surroundings ε) (s : Service) (x : Happening ε) :
    (w.happen o s x).Sound factories := by
  cases x with
  | call c =>
    obtain ⟨a, w', he, hl, hrec⟩ := records_serve o s c h.keyed h.unused
    have hmade : ∃ calls, Made w ((s.serve c).exec o 0 w).2 calls := by
      rcases launches_serve o s c h with hm | ⟨_, _, _, _, hm⟩
      · exact ⟨_, hm⟩
      · exact ⟨_, hm⟩
    obtain ⟨calls, hm⟩ := hmade
    rw [he] at hm
    rw [World.happen, he]
    exact ⟨hrec.keyed, hl, hm.factories.trans h.factories, hm.sound⟩
  | order q => exact ⟨Store.keyed_follow h.keyed q, h.unused, h.factories, h.registry⟩
  | outside f => exact ⟨h.keyed, h.unused, h.factories, h.registry⟩

theorem World.Sound.happenAll {w : World ε} {factories : Table String HandlerKind}
    (h : w.Sound factories) (o : Surroundings ε) (s : Service) (xs : List (Happening ε)) :
    (xs.foldl (World.happen o s) w).Sound factories := by
  induction xs generalizing w with
  | nil => exact h
  | cons x xs ih => exact ih (h.happen o s x)

/-- Behind any run, a call of the service makes one program call at most: the one of its request,
for what is stored when the call is made. -/
theorem launches_reached (o : Surroundings ε) (s : Service) {st : Store} (hst : st.Keyed)
    (factories : Table String HandlerKind) (faults : Faults) (outside : ε)
    (xs : List (Happening ε)) (c : ServiceCall) :
    let w := xs.foldl (World.happen o s) (World.new st factories faults outside)
    let w' := w.happen o s (.call c)
    w'.calls = w.calls ∨ ∃ r call, s.requestOf c = some r ∧ Launches s factories w.store r call ∧
      w'.calls = w.calls ++ [call] := by
  intro w w'
  have hw : w.Sound factories := (sound_new hst factories faults outside).happenAll o s xs
  rcases launches_serve o s c hw with hm | ⟨r, call, hr, hl, hm⟩
  · exact .inl (by rw [← List.append_nil w.calls]; exact hm.calls)
  · exact .inr ⟨r, call, hr, hl, hm.calls⟩

def silent : Surroundings Unit := ⟨fun _ _ => true, fun _ _ => (.ok ⟨some 0, ""⟩, ())⟩

def tunedService : Service :=
  ⟨⟨"", none⟩, .ofList [("interpreter.python.separator", "\"\n"),
    ("interpreter.python.timeout", " 2500 "), ("interpreter.py.timeout", "1")]⟩

/-- The program of a context is replaced after its handler has been made. -/
theorem launches_reached_replaced :
    let st : Store := .memory (MemoryStore.empty.saveContext ⟨"python", "/usr/bin/python3"⟩)
    let r (code : String) (status : Status) : Request :=
      ⟨"python", code, some ⟨1, by decide, by decide⟩, status⟩
    let xs : List (Happening Unit) :=
      [.call (.dispatch (r "x = \"a\"" .noSessionId)), .order (.saveContext ⟨"python", "/opt/py"⟩)]
    let w := xs.foldl (World.happen silent tunedService) (World.new st Registry.builtin .none ())
    let w' := w.happen silent tunedService (.call (.dispatch (r "y = 2" .good)))
    st.Keyed ∧ (∃ call, Launches tunedService Registry.builtin w.store (r "y = 2" .good) call ∧
        w'.calls = w.calls ++ [call]) ∧
      w'.calls = [⟨"/usr/bin/python3", ["-c", "x = 'a'"], 2500⟩,
        ⟨"/opt/py", ["-c", "x = 'a'\"\ny = 2"], 2500⟩] := by
  intro st r xs w w'
  have hst : st.Keyed := MemoryStore.keyed_saveContext MemoryStore.keyed_empty _
  refine ⟨hst, ?_, by decide⟩
  rcases launches_reached silent tunedService hst Registry.builtin .none () xs
    (.dispatch (r "y = 2" .good)) with h | ⟨_, call, hr, hl, hc⟩
  · exact absurd h (by decide)
  · cases hr
    exact ⟨call, hl, hc⟩

end CellReplay
