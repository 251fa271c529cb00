import CellReplay.Proofs.Store.Agreement

/-!
# Proofs.Store.Seeding

Making sure that contexts and a session are stored, in memory and in a database alike.

* `Store.HasContexts`       — contexts can be read and saved.
* `findContext_saveContext` — what a context that has been saved changes: one name, and no session.
* `seedContexts_ok`         — where contexts can be stored, all of the wanted ones are there in the
  end, those of before are as they were, and the new ones are counted.
* `seedSession_cases`       — a session is there afterwards, or a table is missing. No context that
  is found is ever reported as missing.
* `seedContexts_found`, `seedSession_found` — what is there already is left alone.
-/

namespace CellReplay

theorem Database.upsertContext_ok {d d' : Database} {c : Context} (h : d.upsertContext c = .ok d') :
    ∃ rows, d.contexts = some rows ∧
      d' = { d with contexts := some (
        if rows.any (·.name = c.name) then rows.map fun r => if r.name = c.name then c else r
        else rows ++ [c]) } := by
  unfold upsertContext need at h
  cases hc : d.contexts with
  | none => rw [hc] at h; cases h
  | some rows => rw [hc] at h; cases h; exact ⟨rows, rfl, rfl⟩

theorem Database.findContext_eq {d : Database} {rows : List Context} (h : d.contexts = some rows)
    (n : String) : d.findContext n = .ok (rows.find? (·.name = n)) := by
  rw [findContext, h]
  rfl

theorem Database.findSession_error {d : Database} {k : SessionKey} {e : DatabaseError}
    (h : d.findSession k = .error e) : ∃ t, e = .noTable t := by
  unfold findSession findSessionIn hasSession fragmentsOf need at h
  cases hs : d.sessions with
  | none => rw [hs] at h; cases h; exact ⟨_, rfl⟩
  | some keys =>
    rw [hs] at h
    by_cases hk : k ∈ keys
    · cases hr : d.history with
      | none =>
        simp [hr, hk, bind, Except.bind, pure, Except.pure] at h
        exact ⟨_, h.symm⟩
      | some rows => simp [hr, hk, bind, Except.bind, pure, Except.pure] at h
    · simp [hk, bind, Except.bind, pure, Except.pure] at h

/-- A new session has no fragments, so under a context that is there only a table can be missing. -/
theorem Database.saveStatements_newSession_error {d : Database} {k : SessionKey}
    {rows : List Context} {e : DatabaseError} (hc : d.contexts = some rows)
    (hk : rows.any (·.name = k.context)) (h : saveStatements k.newSession d = .error e) :
    ∃ t, e = .noTable t := by
  have hk : rows.any (fun c => decide (c.name = k.newSession.key.context)) = true := hk
  unfold saveStatements at h
  cases hs : d.sessions with
  | none =>
    simp [insertSession, need, hs, bind, Except.bind] at h
    exact ⟨_, h.symm⟩
  | some keys =>
    obtain ⟨d₁, h₁⟩ : ∃ d₁, d.insertSession k.newSession.key = .ok d₁ := by
      by_cases hm : k.newSession.key ∈ keys <;>
        simp [insertSession, need, hs, hc, hk, hm, bind, Except.bind, pure, Except.pure]
    rw [h₁] at h
    obtain ⟨-, keys', -, rfl⟩ := insertSession_ok h₁
    cases hr : d.history with
    | none =>
      simp [deleteFragments, need, hr, bind, Except.bind] at h
      exact ⟨_, h.symm⟩
    | some rows =>
      simp [deleteFragments, need, hr, SessionKey.newSession, insertFragments, bind, Except.bind,
        pure, Except.pure] at h

namespace Store

/-- Contexts can be read and saved. -/
def HasContexts : Store → Prop
  | memory _ => True
  | database d => d.contexts.isSome
  | closed _ => False

theorem findContext_hasContexts {s : Store} (hs : s.HasContexts) (n : String) :
    ∃ r, s.findContext n = .ok r := by
  cases s with
  | memory m => exact ⟨_, rfl⟩
  | database d =>
    obtain ⟨rows, hrows⟩ := Option.isSome_iff_exists.mp hs
    exact ⟨_, by rw [findContext, Database.findContext_eq hrows, lift_ok]⟩
  | closed d => exact hs.elim

theorem findContext_not_hasContexts {s : Store} (hs : ¬ s.HasContexts) (n : String) :
    s.findContext n = .error (failure (.noTable .contexts)) ∨
      s.findContext n = .error (failure .closed) := by
  cases s with
  | memory m => exact absurd trivial hs
  | database d =>
    have hnone : d.contexts = none := by simpa [HasContexts] using hs
    exact .inl (by rw [findContext, Database.findContext, hnone]; rfl)
  | closed d => exact .inr rfl

theorem saveContext_hasContexts {s : Store} (hs : s.HasContexts) (c : Context) :
    ∃ t, s.saveContext c = (.ok (), t) ∧ t.HasContexts := by
  cases s with
  | memory m => exact ⟨_, rfl, trivial⟩
  | database d =>
    obtain ⟨rows, hrows⟩ := Option.isSome_iff_exists.mp hs
    refine ⟨database { d with contexts := some (
      if rows.any (·.name = c.name) then rows.map fun r => if r.name = c.name then c else r
      else rows ++ [c]) }, ?_, rfl⟩
    simp only [saveContext, Database.saveContext, Database.transaction, Database.upsertContext,
      Database.need, hrows, bind, Except.bind, pure, Except.pure, lift_ok]
  | closed d => exact hs.elim

theorem database_saveContext_ok {d : Database} {c : Context} {t : Store}
    (h : (database d).saveContext c = (.ok (), t)) :
    ∃ rows, d.contexts = some rows ∧ t = database { d with contexts := some (
      if rows.any (·.name = c.name) then rows.map fun r => if r.name = c.name then c else r
      else rows ++ [c]) } := by
  simp only [saveContext, Database.saveContext, Database.transaction] at h
  cases hu : d.upsertContext c with
  | error e => rw [hu] at h; cases h
  | ok d' =>
    rw [hu] at h
    obtain ⟨rows, hrows, rfl⟩ := Database.upsertContext_ok hu
    cases h
    exact ⟨rows, hrows, rfl⟩

/-- After a context has been saved, it is found under its name, and all others as before. -/
theorem findContext_saveContext {s t : Store} {c : Context} (h : s.saveContext c = (.ok (), t))
    (n : String) : t.findContext n = if c.name = n then .ok (some c) else s.findContext n := by
  cases s with
  | memory m =>
    cases h
    rw [findContext, findContext, MemoryStore.findContext, MemoryStore.saveContext, Table.get?_put,
      MemoryStore.findContext]
    split <;> rfl
  | database d =>
    obtain ⟨rows, hrows, rfl⟩ := database_saveContext_ok h
    rw [findContext, findContext, Database.findContext_eq rfl, Database.findContext_eq hrows,
      find?_upsert]
    split <;> rfl
  | closed d => cases h

theorem findSession_saveContext {s t : Store} {c : Context} (h : s.saveContext c = (.ok (), t))
    (k : SessionKey) : t.findSession k = s.findSession k := by
  cases s with
  | memory m => cases h; rfl
  | database d => obtain ⟨rows, -, rfl⟩ := database_saveContext_ok h; rfl
  | closed d => cases h

/-! ## Contexts -/

/-- What a store answers for a name once the wanted contexts are made sure of. -/
def orWanted (wanted : List Context) (n : String) :
    Except Failure (Option Context) → Except Failure (Option Context)
  | .ok none => .ok (wanted.find? (·.name = n))
  | r => r

theorem orWanted_some (wanted : List Context) (n : String) (x : Context) :
    orWanted wanted n (.ok (some x)) = .ok (some x) := rfl

theorem orWanted_cons_self (c : Context) (wanted : List Context) :
    orWanted (c :: wanted) c.name (.ok none) = .ok (some c) := by
  simp [orWanted]

theorem orWanted_cons_of_ne {c : Context} {n : String} (h : c.name ≠ n) (wanted : List Context)
    (r : Except Failure (Option Context)) : orWanted (c :: wanted) n r = orWanted wanted n r := by
  rcases r with e | _ | x <;> simp [orWanted, h]

def isMissing (s : Store) (n : String) : Bool :=
  match s.findContext n with
  | .ok none => true
  | _ => false

theorem isMissing_iff {s : Store} {n : String} :
    s.isMissing n = true ↔ s.findContext n = .ok none := by
  unfold isMissing
  split
  · next h => simp [h]
  · next h => simpa using h

/-- Between two stores, the wanted contexts have been made sure of and nothing else has happened. -/
structure SeededContexts (s t : Store) (wanted : List Context) : Prop where
  hasContexts : t.HasContexts
  contexts : ∀ n, t.findContext n = orWanted wanted n (s.findContext n)
  sessions : ∀ k, t.findSession k = s.findSession k

theorem seedContexts_ok {s : Store} (hs : s.HasContexts) (wanted : List Context) :
    ∃ n t, s.seedContexts wanted = (.ok n, t) ∧ SeededContexts s t wanted ∧
      ((wanted.map (·.name)).Nodup → n = (wanted.filter (s.isMissing ·.name)).length) := by
  induction wanted generalizing s with
  | nil =>
    refine ⟨0, s, rfl, ⟨hs, fun n => ?_, fun _ => rfl⟩, fun _ => rfl⟩
    obtain ⟨r, hr⟩ := findContext_hasContexts hs n
    rw [hr]
    cases r <;> rfl
  | cons c wanted ih =>
    obtain ⟨r, hr⟩ := findContext_hasContexts hs c.name
    cases r with
    | some x =>
      obtain ⟨n, t, ht, h, hn⟩ := ih hs
      refine ⟨n, t, by rw [seedContexts, hr, ht], ⟨h.hasContexts, fun m => ?_, h.sessions⟩, ?_⟩
      · rw [h.contexts m]
        by_cases hm : c.name = m
        · rw [← hm, hr, orWanted_some, orWanted_some]
        · rw [orWanted_cons_of_ne hm]
      · intro hd
        have hc : s.isMissing c.name = false := by rw [isMissing, hr]
        rw [hn (List.nodup_cons.mp hd).2, List.filter_cons_of_neg (by simp [hc])]
    | none =>
      obtain ⟨s₁, hsave, hs₁⟩ := saveContext_hasContexts hs c
      have hfind := findContext_saveContext hsave
      obtain ⟨n, t, ht, h, hn⟩ := ih hs₁
      refine ⟨n + 1, t, ?_, ⟨h.hasContexts, fun m => ?_, fun k => ?_⟩, ?_⟩
      · rw [seedContexts, hr, hsave]
        simp only [ht]
        rfl
      · rw [h.contexts m, hfind m]
        by_cases hm : c.name = m
        · rw [if_pos hm, orWanted_some, ← hm, hr, orWanted_cons_self]
        · rw [if_neg hm, orWanted_cons_of_ne hm]
      · rw [h.sessions, findSession_saveContext hsave]
      · intro hd
        obtain ⟨hnew, hd⟩ := List.nodup_cons.mp hd
        -- the saved context is none of those that follow, so they are missing as before
        have hsame : wanted.filter (s₁.isMissing ·.name) = wanted.filter (s.isMissing ·.name) := by
          refine List.filter_congr fun x hx => ?_
          have hne : c.name ≠ x.name := fun he => hnew (List.mem_map.mpr ⟨x, hx, he.symm⟩)
          rw [isMissing, isMissing, hfind, if_neg hne]
        have hc : s.isMissing c.name = true := isMissing_iff.mpr hr
        rw [hn hd, hsame, List.filter_cons, if_pos hc, List.length_cons]

theorem seedContexts_found {s : Store} {wanted : List Context}
    (h : ∀ c ∈ wanted, ∃ x, s.findContext c.name = .ok (some x)) :
    s.seedContexts wanted = (.ok 0, s) := by
  induction wanted with
  | nil => rfl
  | cons c wanted ih =>
    obtain ⟨x, hx⟩ := h c (List.mem_cons_self ..)
    rw [seedContexts, hx]
    exact ih fun c hc => h c (List.mem_cons_of_mem _ hc)

/-! ## The session -/

theorem seedSession_found {s : Store} {k : SessionKey} {x : Session}
    (h : s.findSession k = .ok (some x)) : s.seedSession k = (.ok false, s) := by
  rw [seedSession, h]

/-- Between two stores, a session has been made sure of and nothing else has happened. -/
structure SeededSession (s t : Store) (k : SessionKey) : Prop where
  contexts : ∀ n, t.findContext n = s.findContext n
  others : ∀ j, j ≠ k → t.findSession j = s.findSession j
  kept : ∀ x, s.findSession k = .ok (some x) → t.findSession k = .ok (some x)
  found : ∃ x, t.findSession k = .ok (some x)

theorem failure_noTable_ne (t : TableName) : failure (.noTable t) ≠ failure .noParentRow := by
  cases t <;> decide

theorem failure_closed_ne : failure .closed ≠ failure .noParentRow := by decide

theorem findSession_error_ne {s : Store} {k : SessionKey} {e : Failure}
    (h : s.findSession k = .error e) : e ≠ failure .noParentRow := by
  cases s with
  | memory m => cases h
  | database d =>
    cases hd : d.findSession k with
    | ok r => rw [findSession, hd] at h; cases h
    | error e' =>
      obtain ⟨t, rfl⟩ := Database.findSession_error hd
      rw [findSession, hd] at h
      cases h
      exact failure_noTable_ne t
  | closed d => cases h; exact failure_closed_ne

theorem database_findContext_some {d : Database} {n : String} {c : Context}
    (h : (database d).findContext n = .ok (some c)) :
    ∃ rows, d.contexts = some rows ∧ rows.any (·.name = n) := by
  cases hrows : d.contexts with
  | none => rw [findContext, Database.findContext, hrows] at h; cases h
  | some rows =>
    rw [findContext, Database.findContext_eq hrows] at h
    have hfound : rows.find? (·.name = n) = some c := Except.ok.inj h
    exact ⟨rows, rfl, List.any_eq_true.mpr
      ⟨c, List.mem_of_find?_eq_some hfound, by simpa using List.find?_some hfound⟩⟩

theorem saveSession_newSession_error_ne {s t : Store} {k : SessionKey} {c : Context} {e : Failure}
    (hc : s.findContext k.context = .ok (some c))
    (h : s.saveSession k.newSession = (.error e, t)) : e ≠ failure .noParentRow := by
  cases s with
  | memory m => cases h
  | database d =>
    obtain ⟨rows, hrows, hany⟩ := database_findContext_some hc
    cases hd : Database.saveStatements k.newSession d with
    | ok d' => simp [saveSession, Database.saveSession, Database.transaction, hd] at h
    | error e' =>
      obtain ⟨t', rfl⟩ := Database.saveStatements_newSession_error hrows hany hd
      simp only [saveSession, Database.saveSession, Database.transaction, hd] at h
      cases h
      exact failure_noTable_ne t'
  | closed d => cases h; exact failure_closed_ne

/-- Under a context that is found, a session is made sure of, unless a store operation fails for
another reason than a missing context. -/
theorem seedSession_cases {s : Store} (hs : s.Keyed) {k : SessionKey} {c : Context}
    (hc : s.findContext k.context = .ok (some c)) :
    (∃ made t, s.seedSession k = (.ok made, t) ∧ SeededSession s t k) ∨
      ∃ e t, s.seedSession k = (.error e, t) ∧ e ≠ failure .noParentRow := by
  rcases hf : s.findSession k with e | _ | x
  · exact .inr ⟨e, s, by rw [seedSession, hf], findSession_error_ne hf⟩
  · rcases hsave : s.saveSession k.newSession with ⟨e | _, t⟩
    · exact .inr ⟨e, t, by rw [seedSession, hf]; simp only [hsave]; rfl,
        saveSession_newSession_error_ne hc hsave⟩
    · have hfind (j : SessionKey) :
          t.findSession j = if j = k then .ok (some k.newSession) else s.findSession j :=
        findSession_saveSession hs hsave j
      refine .inl ⟨true, t, by rw [seedSession, hf]; simp only [hsave]; rfl,
        ⟨findContext_saveSession hsave, fun j hj => ?_, fun x hx => ?_, k.newSession, ?_⟩⟩
      · rw [hfind j, if_neg hj]
      · rw [hx] at hf; cases hf
      · rw [hfind k, if_pos rfl]
  · exact .inl ⟨false, s, seedSession_found hf,
      ⟨fun _ => rfl, fun _ _ => rfl, fun _ h => h, ⟨x, hf⟩⟩⟩

end Store

end CellReplay
