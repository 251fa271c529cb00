import CellReplay.Server
import CellReplay.Proofs.Store.Orders
import CellReplay.Proofs.Store.Seeding
import Mathlib.Data.List.Nodup
import Mathlib.Data.Set.Card

/-!
# Proofs.Server.Bootstrap

What a server finds stored when it comes up, from its properties alone.

* `Configured`, `configuredPath` — the names that properties ask a context for, and where its
  program is.
* `Bootstrapped`      — between two stores, everything configured has been made sure of and nothing
  that was there has changed.
* `bootstrap_seeds`   — from any store, unless an operation on it fails for another reason than a
  context that is not there, and with nothing left to do for a second time.
-/

namespace CellReplay

open Config

/-! ## The names that are configured -/

def configuredDefault (p : Properties) : String := (p.get? nameKey).getD defaultName

/-- Properties ask a context for a name: it is the default one, or there is a property for it. -/
def Configured (p : Properties) (n : String) : Prop :=
  n = configuredDefault p ∨ (p.get? (contextsMark ++ n)).isSome

/-- Where properties say that the program of a name is. The default name has its own property. -/
def configuredPath (home : String) (p : Properties) (n : String) : Option String :=
  if n = configuredDefault p then some (expandHome home ((p.get? pathKey).getD defaultPath))
  else (p.get? (contextsMark ++ n)).map (expandHome home)

theorem isSome_configuredPath (home : String) {p : Properties} {n : String} :
    (configuredPath home p n).isSome ↔ Configured p n := by
  unfold configuredPath Configured
  split
  · next h => simp [h]
  · next h => simp [h]

namespace Config.ServerConfig

theorem languageOf_eq_some_iff {key n : String} :
    languageOf key = some n ↔ key = contextsMark ++ n := by
  unfold languageOf
  constructor
  · intro h
    split at h
    · next hmark =>
      obtain ⟨rest, hrest⟩ := List.isPrefixOf_iff_prefix.mp hmark
      cases h
      rw [← hrest, List.drop_left]
      refine String.toList_inj.mp ?_
      rw [String.toList_append, String.toList_ofList, hrest]
    · cases h
  · rintro rfl
    rw [String.toList_append, if_pos (List.isPrefixOf_iff_prefix.mpr (List.prefix_append _ _)),
      List.drop_left, String.ofList_toList]

theorem mem_extraContextsOf {home : String} {p : Properties} {x : Context} :
    x ∈ extraContextsOf home p ↔
      (p.get? (contextsMark ++ x.name)).map (expandHome home) = some x.path := by
  simp only [extraContextsOf, List.mem_filterMap, Properties.names, Text.mem_sortBy,
    Table.mem_keys_iff, Option.bind_eq_bind, Option.bind_eq_some_iff, Option.pure_def,
    Option.some.injEq, languageOf_eq_some_iff, Option.map_eq_some_iff]
  constructor
  · rintro ⟨key, -, n, rfl, path, hpath, rfl⟩
    exact ⟨path, hpath, rfl⟩
  · rintro ⟨path, hpath, hx⟩
    exact ⟨_, by rw [hpath]; rfl, x.name, rfl, path, hpath, by rw [hx]⟩

/-- Two properties under the mark have two names behind it. -/
theorem nodup_extraContextsOf (home : String) (p : Properties) :
    ((extraContextsOf home p).map (·.name)).Nodup := by
  have hkeys : p.names.Nodup := (Text.sortBy_perm _ _).nodup_iff.mpr p.nodup
  rw [extraContextsOf, List.map_filterMap]
  refine hkeys.filterMap fun a b n ha hb => ?_
  simp only [Option.mem_def, Option.map_eq_some_iff, Option.bind_eq_bind, Option.bind_eq_some_iff,
    Option.pure_def, Option.some.injEq, languageOf_eq_some_iff] at ha hb
  obtain ⟨_, ⟨m, rfl, _, -, rfl⟩, rfl⟩ := ha
  obtain ⟨_, ⟨m', rfl, _, -, rfl⟩, hname⟩ := hb
  have hname : m' = m := hname
  rw [hname]

theorem ofProperties_ok {home : String} {p : Properties} {c : ServerConfig}
    (h : ofProperties home p = .ok c) :
    c.defaultContext = ⟨configuredDefault p, expandHome home ((p.get? pathKey).getD defaultPath)⟩ ∧
      c.extraContexts = extraContextsOf home p := by
  unfold ofProperties at h
  cases hport : portOf p with
  | error e => rw [hport] at h; cases h
  | ok port =>
    cases hsession : defaultSessionOf p with
    | error e => rw [hport, hsession] at h; cases h
    | ok session => rw [hport, hsession] at h; cases h; exact ⟨rfl, rfl⟩

variable {home : String} {p : Properties} {c : ServerConfig}

theorem mem_contexts (h : ofProperties home p = .ok c) {x : Context} :
    x ∈ c.contexts ↔ configuredPath home p x.name = some x.path := by
  obtain ⟨hdefault, hextra⟩ := ofProperties_ok h
  rw [contexts, List.mem_cons, List.mem_filter, hextra, mem_extraContextsOf, hdefault,
    configuredPath]
  obtain ⟨name, path⟩ := x
  by_cases hn : name = configuredDefault p
  · simp [hn, eq_comm]
  · simp [hn]

theorem nodup_contexts (h : ofProperties home p = .ok c) : (c.contexts.map (·.name)).Nodup := by
  rw [contexts, List.map_cons, List.nodup_cons]
  refine ⟨?_, ?_⟩
  · simp only [List.mem_map, List.mem_filter, decide_eq_true_eq, not_exists, not_and]
    exact fun x hx hname => hx.2 hname
  · rw [(ofProperties_ok h).2]
    exact (nodup_extraContextsOf home p).sublist (List.Sublist.map _ List.filter_sublist)

theorem mem_names_contexts (h : ofProperties home p = .ok c) {n : String} :
    n ∈ c.contexts.map (·.name) ↔ Configured p n := by
  rw [← isSome_configuredPath home, Option.isSome_iff_exists, List.mem_map]
  constructor
  · rintro ⟨x, hx, rfl⟩
    exact ⟨x.path, (mem_contexts h).mp hx⟩
  · rintro ⟨path, hpath⟩
    exact ⟨⟨n, path⟩, (mem_contexts h).mpr hpath, rfl⟩

theorem find?_contexts (h : ofProperties home p = .ok c) (n : String) :
    c.contexts.find? (·.name = n) = (configuredPath home p n).map (⟨n, ·⟩) := by
  cases hfound : c.contexts.find? (·.name = n) with
  | some x =>
    have hname : x.name = n := by simpa using List.find?_some hfound
    have hpath := (mem_contexts h).mp (List.mem_of_find?_eq_some hfound)
    rw [hname] at hpath
    rw [hpath, ← hname]
    rfl
  | none =>
    rw [List.find?_eq_none] at hfound
    have hnone : ¬ Configured p n := by
      rw [← mem_names_contexts h, List.mem_map]
      rintro ⟨x, hx, hname⟩
      exact hfound x hx (decide_eq_true hname)
    rw [← isSome_configuredPath home, Option.not_isSome_iff_eq_none] at hnone
    rw [hnone, Option.map_none]

end Config.ServerConfig

/-! ## Coming up -/

/-- A session was to be stored under a context that is not there. -/
def StartError.ForeignKey : StartError → Prop
  | .contexts e | .session e => e = Store.failure .noParentRow
  | _ => False

/-- Between two stores, the session of a name has been made sure of, if there is to be one. -/
structure SeededDefault (s t : Store) (name : String) (session : Option SessionId) : Prop where
  contexts : ∀ n, t.findContext n = s.findContext n
  others : ∀ k, (∀ id, session = some id → k ≠ ⟨name, id⟩) → t.findSession k = s.findSession k
  kept : ∀ k x, s.findSession k = .ok (some x) → t.findSession k = .ok (some x)
  found : ∀ id, session = some id → ∃ x, t.findSession ⟨name, id⟩ = .ok (some x)

theorem SeededDefault.nothing (s : Store) (name : String) : SeededDefault s s name none :=
  ⟨fun _ => rfl, fun _ _ => rfl, fun _ _ h => h, fun _ h => by cases h⟩

theorem SeededDefault.ofSeededSession {s t : Store} {name : String} {id : SessionId}
    (h : Store.SeededSession s t ⟨name, id⟩) : SeededDefault s t name (some id) where
  contexts := h.contexts
  others k hk := h.others k (hk id rfl)
  kept k x hx := by
    by_cases hk : k = ⟨name, id⟩
    · rw [hk] at hx ⊢
      exact h.kept x hx
    · rw [h.others k hk, hx]
  found j hj := by cases hj; exact h.found

/-- After the contexts, the default session is made sure of too, or a store operation has failed for
another reason than a context that is not there. -/
theorem bootstrap_cases {c : ServerConfig} {s t : Store} {n : Nat} (ht : t.Keyed)
    (hseed : s.seedContexts c.contexts = (.ok n, t)) {x : Context}
    (hx : t.findContext c.defaultContext.name = .ok (some x)) :
    (∃ u, bootstrap c s = .ok u ∧ SeededDefault t u c.defaultContext.name c.defaultSession) ∨
      ∃ e, bootstrap c s = .error (.session e) ∧ e ≠ Store.failure .noParentRow := by
  unfold bootstrap
  simp only [hseed]
  cases c.defaultSession with
  | none => exact .inl ⟨t, rfl, .nothing t _⟩
  | some id =>
    rcases Store.seedSession_cases ht (k := ⟨c.defaultContext.name, id⟩) hx with
      ⟨made, u, hu, hseeded⟩ | ⟨e, u, hu, he⟩
    · exact .inl ⟨u, by simp only [hu], .ofSeededSession hseeded⟩
    · exact .inr ⟨e, by simp only [hu], he⟩

theorem seedSession_of_bootstrap {c : ServerConfig} {s t u : Store} {n : Nat} {id : SessionId}
    (hseed : s.seedContexts c.contexts = (.ok n, t)) (hid : c.defaultSession = some id)
    (h : bootstrap c s = .ok u) :
    ∃ made, t.seedSession ⟨c.defaultContext.name, id⟩ = (.ok made, u) := by
  unfold bootstrap at h
  simp only [hseed, hid] at h
  rcases hs : t.seedSession ⟨c.defaultContext.name, id⟩ with ⟨e | made, t'⟩
  · simp only [hs] at h; cases h
  · simp only [hs] at h; cases h; exact ⟨made, rfl⟩

theorem bootstrap_found {c : ServerConfig} {s : Store}
    (hcontexts : s.seedContexts c.contexts = (.ok 0, s))
    (hsession : ∀ id, c.defaultSession = some id →
      s.seedSession ⟨c.defaultContext.name, id⟩ = (.ok false, s)) :
    bootstrap c s = .ok s := by
  unfold bootstrap
  simp only [hcontexts]
  cases hid : c.defaultSession with
  | none => rfl
  | some id => simp only [hsession id hid]

/-- The default context is among those that are looked for, so a store in which no context can be
looked for does not let a server come up. -/
theorem bootstrap_not_hasContexts {c : ServerConfig} {s : Store} (hs : ¬ s.HasContexts) :
    ∃ e, bootstrap c s = .error e ∧ ¬ e.ForeignKey := by
  unfold bootstrap
  rw [ServerConfig.contexts]
  rcases Store.findContext_not_hasContexts hs c.defaultContext.name with h | h
  · exact ⟨.contexts _, by simp only [Store.seedContexts, h], Store.failure_noTable_ne .contexts⟩
  · exact ⟨.contexts _, by simp only [Store.seedContexts, h], Store.failure_closed_ne⟩

/-- Between two stores, everything that is configured has been made sure of, and what was there has
not changed. -/
structure Bootstrapped (home : String) (p : Properties) (id? : Option SessionId)
    (s t : Store) : Prop where
  complete : ∀ n, Configured p n → ∃ x, t.findContext n = .ok (some x)
  session : ∀ id, id? = some id → ∃ x, t.findSession ⟨configuredDefault p, id⟩ = .ok (some x)
  contexts_kept : ∀ n x, s.findContext n = .ok (some x) → t.findContext n = .ok (some x)
  sessions_kept : ∀ k x, s.findSession k = .ok (some x) → t.findSession k = .ok (some x)
  created : ∀ n x, s.findContext n = .ok none → t.findContext n = .ok (some x) →
    x.name = n ∧ configuredPath home p n = some x.path
  other_contexts : ∀ n, ¬ Configured p n → t.findContext n = s.findContext n
  other_sessions : ∀ k, (∀ id, id? = some id → k ≠ ⟨configuredDefault p, id⟩) →
    t.findSession k = s.findSession k

section Seeding

variable {home : String} {p : Properties} {c : ServerConfig} {s t u : Store}

theorem findContext_seeded (hc : ServerConfig.ofProperties home p = .ok c)
    (h : Store.SeededContexts s t c.contexts) {n : String} (hn : s.findContext n = .ok none) :
    t.findContext n = .ok ((configuredPath home p n).map (⟨n, ·⟩)) := by
  rw [h.contexts, hn, ← ServerConfig.find?_contexts hc]
  rfl

theorem findContext_configured (hc : ServerConfig.ofProperties home p = .ok c)
    (hs : s.HasContexts) (h : Store.SeededContexts s t c.contexts) {n : String}
    (hn : Configured p n) : ∃ x, t.findContext n = .ok (some x) := by
  obtain ⟨_ | x, hx⟩ := Store.findContext_hasContexts hs n
  · obtain ⟨path, hpath⟩ := Option.isSome_iff_exists.mp ((isSome_configuredPath home).mpr hn)
    exact ⟨⟨n, path⟩, by rw [findContext_seeded hc h hx, hpath]; rfl⟩
  · exact ⟨x, by rw [h.contexts, hx, Store.orWanted_some]⟩

theorem Bootstrapped.of_seeded (hc : ServerConfig.ofProperties home p = .ok c)
    (hs : s.HasContexts) (h : Store.SeededContexts s t c.contexts)
    (hu : SeededDefault t u (configuredDefault p) c.defaultSession) :
    Bootstrapped home p c.defaultSession s u where
  complete n hn := by
    rw [hu.contexts]
    exact findContext_configured hc hs h hn
  session := hu.found
  contexts_kept n x hx := by rw [hu.contexts, h.contexts, hx, Store.orWanted_some]
  sessions_kept k x hx := hu.kept k x (by rw [h.sessions, hx])
  created n x hn hx := by
    rw [hu.contexts, findContext_seeded hc h hn] at hx
    obtain ⟨path, hpath, rfl⟩ := Option.map_eq_some_iff.mp (Except.ok.inj hx)
    exact ⟨rfl, hpath⟩
  other_contexts n hn := by
    rw [hu.contexts]
    obtain ⟨_ | x, hx⟩ := Store.findContext_hasContexts hs n
    · have hnone : configuredPath home p n = none := by
        rw [← Option.not_isSome_iff_eq_none, isSome_configuredPath]
        exact hn
      rw [findContext_seeded hc h hx, hnone, hx]
      rfl
    · rw [h.contexts, hx, Store.orWanted_some]
  other_sessions k hk := by rw [hu.others k hk, h.sessions]

theorem missing_ncard (hc : ServerConfig.ofProperties home p = .ok c) :
    {n | Configured p n ∧ s.findContext n = .ok none}.ncard =
      (c.contexts.filter (s.isMissing ·.name)).length := by
  have hset : {n | Configured p n ∧ s.findContext n = .ok none} =
      (((c.contexts.filter (s.isMissing ·.name)).map (·.name)).toFinset : Set String) := by
    ext n
    rw [Finset.mem_coe, List.mem_toFinset, Set.mem_ofPred_eq, ← ServerConfig.mem_names_contexts hc]
    simp only [List.mem_map, List.mem_filter, Store.isMissing_iff]
    constructor
    · rintro ⟨⟨x, hx, rfl⟩, hn⟩
      exact ⟨x, ⟨hx, hn⟩, rfl⟩
    · rintro ⟨x, ⟨hx, hn⟩, rfl⟩
      exact ⟨⟨x, hx, rfl⟩, hn⟩
  have hnodup : ((c.contexts.filter (s.isMissing ·.name)).map (·.name)).Nodup :=
    (ServerConfig.nodup_contexts hc).sublist (List.Sublist.map _ List.filter_sublist)
  rw [hset, Set.ncard_coe_finset, List.toFinset_card_of_nodup hnodup, List.length_map]

/-- A server that comes up has made sure of everything that its properties ask for, has counted what
it made, has changed nothing that was there, and finds nothing left to do when it comes up again. No
context that a session needs is ever missing. Stores are keyed whatever has been done to them
(`keyed_followAll`). -/
theorem bootstrap_seeds (hc : ServerConfig.ofProperties home p = .ok c) (hs : s.Keyed)
    (calm : ∀ e, bootstrap c s = .error e → e.ForeignKey) :
    ∃ created t u,
      s.seedContexts c.contexts = (.ok created, t) ∧
      (∀ id, c.defaultSession = some id →
        ∃ made, t.seedSession ⟨c.defaultContext.name, id⟩ = (.ok made, u)) ∧
      bootstrap c s = .ok u ∧
      Bootstrapped home p c.defaultSession s u ∧
      created = {n | Configured p n ∧ s.findContext n = .ok none}.ncard ∧
      u.seedContexts c.contexts = (.ok 0, u) ∧
      (∀ id, c.defaultSession = some id →
        u.seedSession ⟨c.defaultContext.name, id⟩ = (.ok false, u)) ∧
      bootstrap c u = .ok u := by
  have hname : c.defaultContext.name = configuredDefault p := by
    rw [(ServerConfig.ofProperties_ok hc).1]
  have hcontexts : s.HasContexts := by
    by_contra hnot
    obtain ⟨e, he, hforeign⟩ := bootstrap_not_hasContexts (c := c) hnot
    exact hforeign (calm e he)
  obtain ⟨created, t, hseed, ht, hcount⟩ := Store.seedContexts_ok hcontexts c.contexts
  have hkeyed : t.Keyed := by simpa only [hseed] using Store.keyed_seedContexts hs c.contexts
  obtain ⟨x, hx⟩ : ∃ x, t.findContext c.defaultContext.name = .ok (some x) :=
    findContext_configured hc hcontexts ht (.inl hname)
  obtain ⟨u, hboot, hu⟩ | ⟨e, he, hne⟩ := bootstrap_cases hkeyed hseed hx
  · have hdone : Bootstrapped home p c.defaultSession s u := .of_seeded hc hcontexts ht (hname ▸ hu)
    have hagain : u.seedContexts c.contexts = (.ok 0, u) := Store.seedContexts_found fun y hy =>
      hdone.complete y.name ((ServerConfig.mem_names_contexts hc).mp (List.mem_map_of_mem hy))
    have hsession (id : SessionId) (hid : c.defaultSession = some id) :
        u.seedSession ⟨c.defaultContext.name, id⟩ = (.ok false, u) := by
      obtain ⟨y, hy⟩ := hdone.session id hid
      exact Store.seedSession_found (by rw [hname, hy])
    refine ⟨created, t, u, hseed, fun id hid => ?_, hboot, hdone, ?_, hagain, hsession,
      bootstrap_found hagain hsession⟩
    · exact seedSession_of_bootstrap hseed hid hboot
    · rw [missing_ncard hc, hcount (ServerConfig.nodup_contexts hc)]
  · exact absurd (calm _ he) hne

end Seeding

/-- Properties that name a second language, and give the default one a second path. -/
def twoLanguages : Properties :=
  .ofList [("interpreters.python", "/opt/python"), ("interpreters.shell", "~/bin/sh")]

/-- A database in which the default language has been given another path. -/
def otherPath : Store :=
  .database { Database.empty.migrate with contexts := some [⟨"python", "/usr/local/bin/python"⟩] }

theorem bootstrap_seeds_otherPath :
    ∃ c t u,
      ServerConfig.ofProperties "/home/user" twoLanguages = .ok c ∧
      otherPath.seedContexts c.contexts = (.ok 1, t) ∧
      bootstrap c otherPath = .ok u ∧
      Bootstrapped "/home/user" twoLanguages c.defaultSession otherPath u ∧
      bootstrap c u = .ok u := by
  let c : ServerConfig := {
    properties := twoLanguages
    host := defaultHost
    port := defaultPort
    storage := .ofText "/home/user" defaultDatabase
    defaultContext := ⟨"python", "/usr/bin/python3"⟩
    defaultSession := some Config.defaultSession
    extraContexts := [⟨"python", "/opt/python"⟩, ⟨"shell", "/home/user/bin/sh"⟩] }
  have hc : ServerConfig.ofProperties "/home/user" twoLanguages = .ok c := by rfl
  have hcreated : (otherPath.seedContexts c.contexts).1 = .ok 1 := by rfl
  have hcalm : (bootstrap c otherPath).isOk := by rfl
  obtain ⟨created, t, u, hseed, -, hboot, hdone, -, -, -, hagain⟩ :=
    bootstrap_seeds hc (s := otherPath) trivial fun e he => by rw [he] at hcalm; cases hcalm
  rw [hseed] at hcreated
  exact ⟨c, t, u, hc, by rw [hseed, ← hcreated], hboot, hdone, hagain⟩

end CellReplay
