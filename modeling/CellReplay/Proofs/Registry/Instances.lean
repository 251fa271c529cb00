import CellReplay.Host.Files
import CellReplay.Proofs.Service.Launch
import Mathlib.Data.List.Dedup
import Mathlib.Data.List.Perm.Subperm

/-!
# Proofs.Registry.Instances

Which handlers a registry gives out over a run, while files come and go around it.

* `Registry.Event`   — a context is resolved, or something happens to the files.
* `Registry.Scene` — a registry among files, and what has come of resolving contexts so far.
* `resolve_cases`    — all that resolving a context can do.
* `Registry.Records` — the invariant: the handlers in the cache are those that have been given out.
* `records_run`      — it holds after every run.
* `resolved_in_turn` — what resolving a context comes to after any run, and what can be said of the
  handlers that have been given out.
-/

namespace CellReplay

variable {ε : Type}

namespace Registry

/-- The files are in a state of type `ε`, which any function may change. -/
inductive Event (ε : Type)
  | resolve (c : Context)
  | outside (f : ε → ε)

structure Scene (ε : Type) where
  registry : Registry
  outside : ε
  answers : List (Context × Option Handler)

namespace Scene

def new (factories : Table String HandlerKind) (outside : ε) : Scene ε :=
  ⟨.new factories, outside, []⟩

variable (isThere : ε → String → Bool)

/-- What resolving a context would come to now. -/
def resolve (x : Scene ε) (c : Context) : Option Handler × Registry :=
  x.registry.resolve (isThere x.outside) c

def follow (x : Scene ε) : Event ε → Scene ε
  | .resolve c => ⟨(x.resolve isThere c).2, x.outside, x.answers ++ [(c, (x.resolve isThere c).1)]⟩
  | .outside f => { x with outside := f x.outside }

def run (x : Scene ε) (events : List (Event ε)) : Scene ε := events.foldl (follow isThere) x

end Scene

/-- A context of this name has been resolved to this handler. -/
def GaveOut (answers : List (Context × Option Handler)) (name : String) (h : Handler) : Prop :=
  ∃ c, (c, some h) ∈ answers ∧ c.name = name

/-- The names whose contexts have been resolved to a handler. -/
def resolvedNames (answers : List (Context × Option Handler)) : List String :=
  answers.filterMap fun a => a.2.map fun _ => a.1.name

theorem gaveOut_append {answers : List (Context × Option Handler)} {c : Context}
    {a : Option Handler} {n : String} {h : Handler} :
    GaveOut (answers ++ [(c, a)]) n h ↔ GaveOut answers n h ∨ a = some h ∧ c.name = n := by
  simp only [GaveOut, List.mem_append, List.mem_singleton, Prod.mk.injEq, or_and_right, exists_or]
  refine or_congr_right ⟨?_, ?_⟩
  · rintro ⟨_, ⟨rfl, rfl⟩, hn⟩
    exact ⟨rfl, hn⟩
  · rintro ⟨rfl, hn⟩
    exact ⟨c, ⟨rfl, rfl⟩, hn⟩

theorem mem_resolvedNames {answers : List (Context × Option Handler)} {n : String} :
    n ∈ resolvedNames answers ↔ ∃ h, GaveOut answers n h := by
  simp only [resolvedNames, List.mem_filterMap, Option.map_eq_some_iff, GaveOut]
  constructor
  · rintro ⟨⟨c, a⟩, hmem, h, rfl, hn⟩
    exact ⟨h, c, hmem, hn⟩
  · rintro ⟨h, c, hmem, hn⟩
    exact ⟨(c, some h), hmem, h, rfl, hn⟩

/-! ## One context -/

variable {r : Registry} {there : String → Bool} {c : Context}

/-- A registered kind and a handler that was made before; a registered kind and a program that is
there; or neither, and then nothing changes. -/
theorem resolve_cases (r : Registry) (there : String → Bool) (c : Context) :
    (∃ h, (r.factories.get? (typeName c.name)).isSome ∧ r.cache.get? c.name = some h ∧
      r.resolve there c = (some h, r)) ∨
    (∃ kind, r.factories.get? (typeName c.name) = some kind ∧ r.cache.get? c.name = none ∧
      there c.path ∧ r.resolve there c = (some ⟨r.cache.size, kind, c.name⟩,
        { r with cache := r.cache.put c.name ⟨r.cache.size, kind, c.name⟩ })) ∨
    ((r.factories.get? (typeName c.name) = none ∨ r.cache.get? c.name = none ∧ ¬ there c.path) ∧
      r.resolve there c = (none, r)) := by
  unfold resolve
  cases hf : r.factories.get? (typeName c.name) with
  | none => exact .inr (.inr ⟨.inl rfl, rfl⟩)
  | some kind =>
    cases hc : r.cache.get? c.name with
    | some h => exact .inl ⟨h, rfl, rfl, rfl⟩
    | none =>
      by_cases ht : there c.path
      · exact .inr (.inl ⟨kind, rfl, rfl, ht, if_pos ht⟩)
      · exact .inr (.inr ⟨.inr ⟨rfl, ht⟩, if_neg ht⟩)

/-! ## The handlers in the cache -/

/-- The cache holds the handlers that have been given out, each under the name that it was asked for
by, and numbered in the order in which they were made. -/
structure Records (factories : Table String HandlerKind) (r : Registry)
    (answers : List (Context × Option Handler)) : Prop where
  factories : r.factories = factories
  sound : r.Sound
  cached : ∀ n h, r.cache.get? n = some h ↔ GaveOut answers n h
  language : ∀ n h, r.cache.get? n = some h → h.language = n
  serials : r.cache.entries.map (·.2.serial) = List.range r.cache.size

namespace Records

variable {factories : Table String HandlerKind} {answers : List (Context × Option Handler)}
  {n n' : String} {h h' : Handler}

theorem new (factories : Table String HandlerKind) : Records factories (.new factories) [] where
  factories := rfl
  sound := fun _ _ hn => nomatch hn
  cached := fun _ _ => iff_of_false (fun hn => nomatch hn)
    fun ⟨_, hmem, _⟩ => absurd hmem List.not_mem_nil
  language := fun _ _ hn => nomatch hn
  serials := rfl

theorem serial_lt (hr : Records factories r answers) (h₁ : r.cache.get? n = some h) :
    h.serial < r.cache.size := by
  have hmem := List.mem_map_of_mem (f := fun e : String × Handler => e.2.serial)
    ((Table.get?_eq_some_iff _ _ _).mp h₁)
  rw [hr.serials] at hmem
  exact List.mem_range.mp hmem

/-- A number tells a handler and its name. -/
theorem eq_of_serial (hr : Records factories r answers) (h₁ : r.cache.get? n = some h)
    (h₂ : r.cache.get? n' = some h') (hs : h.serial = h'.serial) : n = n' ∧ h = h' := by
  have hnodup : (r.cache.entries.map (·.2.serial)).Nodup := by
    rw [hr.serials]
    exact List.nodup_range
  exact Prod.mk.inj (List.inj_on_of_nodup_map hnodup ((Table.get?_eq_some_iff _ _ _).mp h₁)
    ((Table.get?_eq_some_iff _ _ _).mp h₂) hs)

/-- Whoever was given a handler by a name is given the one in the cache. -/
theorem unique (hr : Records factories r answers) (h₁ : GaveOut answers n h)
    (h₂ : GaveOut answers n h') : h = h' := by
  have h₁ := (hr.cached n h).mpr h₁
  rw [(hr.cached n h').mpr h₂] at h₁
  exact (Option.some.inj h₁).symm

/-- A new handler comes last, and its number is the number of those before it. -/
theorem serials_put {t : Table String Handler} (hn : t.get? n = none)
    (ht : t.entries.map (·.2.serial) = List.range t.size) (hs : h.serial = t.size) :
    (t.put n h).entries.map (·.2.serial) = List.range (t.put n h).size := by
  have hentries : (t.put n h).entries = t.entries ++ [(n, h)] := replace_eq_append h hn
  have hsize : (t.put n h).size = t.size + 1 := by
    rw [Table.size, hentries, List.length_append]
    rfl
  rw [hsize, hentries, List.map_append, ht, List.range_succ, ← hs]
  rfl

theorem resolve (hr : Records factories r answers) (there : String → Bool) (c : Context) :
    Records factories (r.resolve there c).2 (answers ++ [(c, (r.resolve there c).1)]) := by
  have hsound := (sound_resolve hr.sound there c).1
  rcases resolve_cases r there c with ⟨h, -, hcache, he⟩ | ⟨kind, -, hcache, -, he⟩ | ⟨-, he⟩
  · rw [he]
    refine ⟨hr.factories, hr.sound, fun n h' => ?_, hr.language, hr.serials⟩
    rw [gaveOut_append, ← hr.cached]
    refine ⟨.inl, ?_⟩
    rintro (hn | ⟨hh, rfl⟩)
    · exact hn
    · exact hcache.trans hh
  · rw [he] at hsound ⊢
    refine ⟨hr.factories, hsound, fun n h' => ?_, fun n h' hn => ?_, ?_⟩
    · rw [gaveOut_append, ← hr.cached, Table.get?_put]
      by_cases hn : c.name = n
      · rw [if_pos hn, ← hn, hcache]
        simp
      · simp [hn]
    · rw [Table.get?_put] at hn
      split at hn
      · next hname =>
        cases hn
        exact hname
      · exact hr.language n h' hn
    · exact serials_put hcache hr.serials rfl
  · rw [he]
    refine ⟨hr.factories, hr.sound, fun n h' => ?_, hr.language, hr.serials⟩
    rw [gaveOut_append, ← hr.cached]
    simp

/-- There are as many handlers as names that have been resolved. -/
theorem cachedCount_eq (hr : Records factories r answers) :
    r.cachedCount = (resolvedNames answers).dedup.length := by
  have hperm : r.cache.keys.Perm (resolvedNames answers).dedup := by
    refine (List.perm_ext_iff_of_nodup r.cache.nodup (List.nodup_dedup _)).mpr fun n => ?_
    rw [List.mem_dedup, mem_resolvedNames]
    refine (Table.mem_keys_iff r.cache n).trans ?_
    rw [Option.isSome_iff_exists]
    exact exists_congr fun h => hr.cached n h
  exact (Table.length_keys _).symm.trans hperm.length_eq

/-- Without a registered kind there is no handler. -/
theorem resolve_unregistered (hr : Records factories r answers)
    (hnone : factories.get? (typeName c.name) = none) : r.resolve there c = (none, r) := by
  rw [← hr.factories] at hnone
  rcases resolve_cases r there c with ⟨_, hf, -⟩ | ⟨_, hf, -⟩ | ⟨-, he⟩
  · rw [hnone] at hf
    cases hf
  · rw [hnone] at hf
    cases hf
  · exact he

/-- A name that has been resolved has its handler, whatever has become of its program. -/
theorem resolve_known (hr : Records factories r answers) (hgave : GaveOut answers c.name h) :
    r.resolve there c = (some h, r) := by
  have hcache := (hr.cached c.name h).mpr hgave
  have hf := hr.sound _ _ hcache
  rcases resolve_cases r there c with ⟨h', -, hc, he⟩ | ⟨_, -, hc, -⟩ | ⟨hno | ⟨hno, -⟩, -⟩
  · rw [hcache] at hc
    rw [Option.some.inj hc]
    exact he
  · rw [hcache] at hc
    cases hc
  · rw [hf] at hno
    cases hno
  · rw [hcache] at hno
    cases hno

/-- Any other name of a registered kind has a new handler if its program is there, or none. -/
theorem resolve_unknown (hr : Records factories r answers) (there : String → Bool)
    (hsome : (factories.get? (typeName c.name)).isSome) (hnew : ∀ h, ¬ GaveOut answers c.name h) :
    (¬ there c.path → r.resolve there c = (none, r)) ∧
      (there c.path → ∃ h, (r.resolve there c).1 = some h ∧ h.serial = r.cache.size) := by
  rw [← hr.factories] at hsome
  rcases resolve_cases r there c with ⟨h, -, hc, -⟩ | ⟨kind, -, -, hthere, he⟩ | ⟨hno, he⟩
  · exact absurd ((hr.cached _ h).mp hc) (hnew h)
  · exact ⟨fun hno => absurd hthere hno, fun _ => ⟨_, congrArg Prod.fst he, rfl⟩⟩
  · refine ⟨fun _ => he, fun hthere => ?_⟩
    rcases hno with hno | ⟨-, hno⟩
    · rw [hno] at hsome
      cases hsome
    · exact absurd hthere hno

/-- Handlers that have been given out are the same, and have the same number, exactly if the names
are. -/
theorem same_iff (hr : Records factories r answers) (h₁ : GaveOut answers n h)
    (h₂ : GaveOut answers n' h') : (h = h' ↔ n = n') ∧ (h.serial = h'.serial ↔ n = n') := by
  have hserial : h.serial = h'.serial → n = n' ∧ h = h' :=
    hr.eq_of_serial ((hr.cached n h).mpr h₁) ((hr.cached n' h').mpr h₂)
  have hsame : n = n' → h = h' := fun hn => hr.unique (hn ▸ h₁) h₂
  exact ⟨⟨fun hh => (hserial (congrArg Handler.serial hh)).1, hsame⟩,
    ⟨fun hs => (hserial hs).1, fun hn => congrArg Handler.serial (hsame hn)⟩⟩

end Records

/-! ## Runs -/

section

variable {isThere : ε → String → Bool} {factories : Table String HandlerKind}

theorem records_run {x : Scene ε} (hx : Records factories x.registry x.answers)
    (events : List (Event ε)) :
    Records factories (x.run isThere events).registry (x.run isThere events).answers := by
  induction events generalizing x with
  | nil => exact hx
  | cons e events ih =>
    cases e with
    | resolve c => exact ih (x := x.follow isThere (.resolve c)) (hx.resolve (isThere x.outside) c)
    | outside f => exact ih (x := x.follow isThere (.outside f)) hx

theorem prefix_answers_run (x : Scene ε) (events : List (Event ε)) :
    x.answers <+: (x.run isThere events).answers := by
  induction events generalizing x with
  | nil => exact List.prefix_rfl
  | cons e events ih =>
    cases e with
    | resolve c =>
      exact (List.prefix_append _ _).trans (ih (x.follow isThere (.resolve c)))
    | outside f => exact ih (x.follow isThere (.outside f))

/-- What is in the cache stays there. -/
theorem cache_run {x : Scene ε} (hx : Records factories x.registry x.answers)
    (events : List (Event ε)) {n : String} {h : Handler} (hn : x.registry.cache.get? n = some h) :
    (x.run isThere events).registry.cache.get? n = some h := by
  obtain ⟨c, hmem, hname⟩ := (hx.cached n h).mp hn
  exact ((records_run hx events).cached n h).mpr
    ⟨c, (prefix_answers_run x events).subset hmem, hname⟩

theorem cachedCount_run {x : Scene ε} (hx : Records factories x.registry x.answers)
    (events : List (Event ε)) :
    x.registry.cachedCount ≤ (x.run isThere events).registry.cachedCount := by
  have hkeys : x.registry.cache.keys ⊆ (x.run isThere events).registry.cache.keys := by
    intro n hn
    obtain ⟨h, hh⟩ := Option.isSome_iff_exists.mp ((Table.mem_keys_iff _ _).mp hn)
    exact (Table.mem_keys_iff _ _).mpr
      (Option.isSome_iff_exists.mpr ⟨h, cache_run hx events hh⟩)
  have hnodup : x.registry.cache.keys.Nodup := x.registry.cache.nodup
  have hlength := (hnodup.subperm hkeys).length_le
  rwa [Table.length_keys, Table.length_keys] at hlength

end

/-- What a registry does after any run, with any kinds registered and whatever has become of the files.
Without a registered kind a context has no handler. A context whose name has been resolved before has
the handler that was given out then, whatever its own path is. Any other has a handler exactly if its
program is there now, and that is a new one. What has no handler changes nothing. So handlers that
have been given out are the same exactly if the names are, and each is for the name that it was asked
for by; what is in the cache stays there, and there are as many handlers as names that have been
resolved. -/
theorem resolved_in_turn (isThere : ε → String → Bool) (factories : Table String HandlerKind)
    (outside : ε) (events : List (Event ε)) :
    let x := (Scene.new factories outside).run isThere events
    (∀ c : Context,
      (factories.get? (typeName c.name) = none → x.resolve isThere c = (none, x.registry)) ∧
      (∀ d h, (d, some h) ∈ x.answers → d.name = c.name →
        x.resolve isThere c = (some h, x.registry)) ∧
      ((factories.get? (typeName c.name)).isSome →
        (∀ d h, (d, some h) ∈ x.answers → d.name ≠ c.name) →
        (¬ isThere x.outside c.path → x.resolve isThere c = (none, x.registry)) ∧
          (isThere x.outside c.path → ∃ h, (x.resolve isThere c).1 = some h ∧
            ∀ d h', (d, some h') ∈ x.answers → h'.serial ≠ h.serial))) ∧
    (∀ c h, (c, some h) ∈ x.answers → h.language = c.name) ∧
    (∀ c h d h', (c, some h) ∈ x.answers → (d, some h') ∈ x.answers →
      (h = h' ↔ c.name = d.name) ∧ (h.serial = h'.serial ↔ c.name = d.name)) ∧
    (∀ later, let y := x.run isThere later
      x.answers <+: y.answers ∧ x.registry.cachedCount ≤ y.registry.cachedCount ∧
        ∀ n h, x.registry.cache.get? n = some h → y.registry.cache.get? n = some h) ∧
    x.registry.cachedCount = (resolvedNames x.answers).dedup.length := by
  intro x
  have hx : Records factories x.registry x.answers := records_run (Records.new factories) events
  have hgave {c : Context} {h : Handler} (hmem : (c, some h) ∈ x.answers) :
      GaveOut x.answers c.name h := ⟨c, hmem, rfl⟩
  refine ⟨fun c => ⟨hx.resolve_unregistered, ?_, ?_⟩, ?_, ?_, ?_, hx.cachedCount_eq⟩
  · intro d h hmem hname
    exact hx.resolve_known ⟨d, hmem, hname⟩
  · intro hsome hnew
    obtain ⟨hgone, hthere⟩ := hx.resolve_unknown (isThere x.outside) hsome
      fun h ⟨d, hmem, hname⟩ => hnew d h hmem hname
    refine ⟨hgone, fun hpath => ?_⟩
    obtain ⟨h, hh, hserial⟩ := hthere hpath
    refine ⟨h, hh, fun d h' hmem => ?_⟩
    rw [hserial]
    exact (hx.serial_lt ((hx.cached _ _).mpr (hgave hmem))).ne
  · intro c h hmem
    exact hx.language _ _ ((hx.cached _ _).mpr (hgave hmem))
  · intro c h d h' hc hd
    exact hx.same_iff (hgave hc) (hgave hd)
  · intro later
    exact ⟨prefix_answers_run x later, cachedCount_run hx later, fun n h => cache_run hx later⟩

/-- Two names share a registered kind. One is resolved while its program is there, which is then taken
away; the other finds none at first. -/
theorem resolved_in_turn_twoNames :
    let isThere := Files.isThere
    let small : Context := ⟨"python", "/opt/python"⟩
    let large : Context := ⟨"Python", "/opt/python"⟩
    let events : List (Event Files) := [.resolve small, .outside (·.writeAll "/opt/python" []),
      .resolve small, .outside (·.remove "/opt/python"), .resolve large]
    let x := (Scene.new builtin Files.system).run isThere events
    let first : Handler := ⟨0, .python, "python"⟩
    x.answers = [(small, none), (small, some first), (large, none)] ∧
      x.resolve isThere ⟨"python", "/no/such/file"⟩ = (some first, x.registry) ∧
      x.resolve isThere large = (none, x.registry) ∧
      x.resolve isThere ⟨"cobol", "/bin/sh"⟩ = (none, x.registry) ∧
      (∃ h, (x.resolve isThere ⟨"Python", "/bin/sh"⟩).1 = some h ∧ h.serial ≠ first.serial) ∧
      x.registry.cachedCount = 1 := by
  intro isThere small large events x first
  have hanswers : x.answers = [(small, none), (small, some first), (large, none)] := by
    decide +kernel
  have hgiven : (small, some first) ∈ x.answers := by
    rw [hanswers]
    simp
  have hnew (d : Context) (h : Handler) (hmem : (d, some h) ∈ x.answers) : d.name ≠ "Python" := by
    rw [hanswers] at hmem
    simp only [List.mem_cons, Prod.mk.injEq, reduceCtorEq, and_false, Option.some.injEq,
      List.not_mem_nil, or_false, false_or] at hmem
    rw [hmem.1]
    decide
  obtain ⟨hresolve, -, -, -, hcount⟩ := resolved_in_turn isThere builtin Files.system events
  have hkind : (builtin.get? (typeName "Python")).isSome := by decide +kernel
  obtain ⟨h, hh, hserial⟩ := ((hresolve ⟨"Python", "/bin/sh"⟩).2.2 hkind hnew).2 (by decide +kernel)
  refine ⟨hanswers, (hresolve _).2.1 small first hgiven rfl,
    ((hresolve large).2.2 hkind hnew).1 (by decide +kernel), (hresolve _).1 (by decide +kernel),
    ⟨h, hh, (hserial small first hgiven).symm⟩, ?_⟩
  rw [hcount, hanswers]
  rfl

end Registry

end CellReplay
